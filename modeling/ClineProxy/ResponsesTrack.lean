import ClineProxy.ResponsesMoves

/-!
What a list of moves says about the items of a response: the texts of its message before and
after the message was closed, its reasoning, the calls of the current round and the openings
that took an output index.
-/

namespace ClineProxy

open Json

def fragmentId (call : Value) : String := ((call.get "id").bind Value.asStr).getD ""

def fragmentName (call : Value) : String := (stringAt "name" (toolCallFunction call)).getD ""

structure Said where
  closed : Bool
  spoken : List String
  resumed : List String

namespace Said

def new : Said := ⟨false, [], []⟩

def hear (said : Said) (text : String) : Said :=
  if said.closed then { said with resumed := said.resumed ++ [text] }
  else { said with spoken := said.spoken ++ [text] }

def close (said : Said) : Said := { said with closed := said.closed || !said.spoken.isEmpty }

end Said

/-- The calls of an upstream round: the first fragment of each, and all that was said of them. -/
structure CallRound where
  registered : List Value
  extended : List Value

namespace CallRound

def new : CallRound := ⟨[], []⟩

def firstAt (round : CallRound) (index : Int) : Option Value :=
  round.registered.find? fun call => signedCallIndex call = index

def fragmentsAt (round : CallRound) (index : Int) : List Value :=
  round.extended.filter fun call => signedCallIndex call = index

def register (round : CallRound) (call : Value) : CallRound :=
  { round with registered := round.registered ++ [call] }

def extend (round : CallRound) (call : Value) : CallRound :=
  { round with extended := round.extended ++ [call] }

theorem firstAt_register {round : CallRound} {call : Value} {index : Int}
    (absent : round.firstAt (signedCallIndex call) = none) :
    (round.register call).firstAt index =
      if index = signedCallIndex call then some call else round.firstAt index := by
  rw [firstAt, register, List.find?_append]
  by_cases same : index = signedCallIndex call
  · subst same
    rw [firstAt] at absent
    simp [absent]
  · rw [if_neg same, firstAt]
    simp [Ne.symm same]

theorem own_register {round : CallRound} {call : Value}
    (absent : round.firstAt (signedCallIndex call) = none)
    (own : ∀ other ∈ round.registered, round.firstAt (signedCallIndex other) = some other) :
    ∀ other ∈ (round.register call).registered,
      (round.register call).firstAt (signedCallIndex other) = some other := by
  intro other member
  rw [firstAt_register absent]
  rcases List.mem_append.mp member with before | now
  · have known := own other before
    rw [if_neg, known]
    intro same
    simp [same, absent] at known
  · rw [List.mem_singleton.mp now, if_pos rfl]

theorem firstAt_extend (round : CallRound) (call : Value) :
    (round.extend call).firstAt = round.firstAt := rfl

theorem fragmentsAt_extend (round : CallRound) (call : Value) (index : Int) :
    (round.extend call).fragmentsAt index = round.fragmentsAt index ++
      if index = signedCallIndex call then [call] else [] := by
  by_cases same : index = signedCallIndex call
  · simp [fragmentsAt, extend, same]
  · simp [fragmentsAt, extend, same, Ne.symm same]

end CallRound

/-- What was said so far; an opening is marked by whether its item is shown. -/
structure Track where
  reasoning : Said
  message : Said
  round : CallRound
  earlier : List CallRound
  opened : List Bool

namespace Track

def new : Track := ⟨.new, .new, .new, [], []⟩

def said (track : Track) : TextKind → Said
  | .reasoning => track.reasoning
  | .message => track.message

def setSaid (track : Track) (kind : TextKind) (said : Said) : Track :=
  match kind with
  | .reasoning => { track with reasoning := said }
  | .message => { track with message := said }

def hear (track : Track) (kind : TextKind) (shown : Bool) (text : String) : Track :=
  { track.setSaid kind ((track.said kind).hear text) with
    opened := track.opened ++
      if shown && (track.said kind).spoken.isEmpty then [true] else [] }

def closing (track : Track) : Track :=
  if track.round.registered.isEmpty then { track with message := track.message.close } else track

def register (names : List String) (track : Track) (call : Value) : Track :=
  { track with
    round := track.round.register call
    opened := track.opened ++ [!names.contains (fragmentName call)] }

def move (names : List String) (exposeThinking : Bool) (track : Track) : ConverterMove → Track
  | .start | .note _ | .finish _ => track
  | .reasoning text => track.hear .reasoning exposeThinking text
  | .text text => track.hear .message true text
  | .register call =>
      if (track.round.firstAt (signedCallIndex call)).isSome then track
      else track.closing.register names call
  | .extend call =>
      if (track.round.firstAt (signedCallIndex call)).isSome then
        { track with round := track.round.extend call }
      else track
  | .searched _ => { track with opened := track.opened ++ [true] }
  | .newRound => { track with earlier := track.earlier ++ [track.round], round := .new }

def moveAll (names : List String) (exposeThinking : Bool) (track : Track)
    (moves : List ConverterMove) : Track :=
  moves.foldl (move names exposeThinking) track

/-- A call that was shown to the client is no longer open. -/
def Lost (names : List String) (track : Track) : Prop :=
  ∃ round ∈ track.earlier, ∃ call ∈ round.registered, names.contains (fragmentName call) = false

@[simp] theorem said_setSaid (track : Track) (kind other : TextKind) (said : Said) :
    (track.setSaid kind said).said other = if other = kind then said else track.said other := by
  cases kind <;> cases other <;> rfl

@[simp] theorem round_setSaid (track : Track) (kind : TextKind) (said : Said) :
    (track.setSaid kind said).round = track.round := by
  cases kind <;> rfl

@[simp] theorem earlier_setSaid (track : Track) (kind : TextKind) (said : Said) :
    (track.setSaid kind said).earlier = track.earlier := by
  cases kind <;> rfl

@[simp] theorem round_hear (track : Track) (kind : TextKind) (shown : Bool) (text : String) :
    (track.hear kind shown text).round = track.round :=
  round_setSaid track kind _

@[simp] theorem earlier_hear (track : Track) (kind : TextKind) (shown : Bool) (text : String) :
    (track.hear kind shown text).earlier = track.earlier :=
  earlier_setSaid track kind _

@[simp] theorem said_hear (track : Track) (kind other : TextKind) (shown : Bool) (text : String) :
    (track.hear kind shown text).said other =
      if other = kind then (track.said kind).hear text else track.said other :=
  said_setSaid track kind other _

@[simp] theorem said_closing (track : Track) (kind : TextKind) :
    track.closing.said kind = if kind = .message ∧ track.round.registered = [] then
      track.message.close else track.said kind := by
  rw [closing]
  cases kind <;> cases track.round.registered <;> rfl

@[simp] theorem round_closing (track : Track) : track.closing.round = track.round := by
  rw [closing]
  split <;> rfl

@[simp] theorem earlier_closing (track : Track) : track.closing.earlier = track.earlier := by
  rw [closing]
  split <;> rfl

end Track

def changesOf (id : ItemId) (events : List ResponsesEvent) : List ItemChange :=
  events.filterMap fun
    | .item other _ change => if other = id then some change else none
    | _ => none

def itemEvents (id : ItemId) (index : Nat) (changes : List ItemChange) : List ResponsesEvent :=
  changes.map (.item id index)

@[simp] theorem changesOf_nil (id : ItemId) : changesOf id [] = [] := rfl

@[simp] theorem changesOf_append (id : ItemId) (first second : List ResponsesEvent) :
    changesOf id (first ++ second) = changesOf id first ++ changesOf id second :=
  List.filterMap_append

@[simp] theorem changesOf_same (id : ItemId) (index : Nat) (changes : List ItemChange) :
    changesOf id (itemEvents id index changes) = changes := by
  induction changes with
  | nil => rfl
  | cons change rest ih => simp [changesOf, itemEvents]

theorem changesOf_other {id other : ItemId} (apart : other ≠ id) (index : Nat)
    (changes : List ItemChange) : changesOf id (itemEvents other index changes) = [] := by
  induction changes with
  | nil => rfl
  | cons change rest ih => simp [changesOf, itemEvents, apart]

theorem changesOf_ne_nil {id : ItemId} {events : List ResponsesEvent}
    (some_change : changesOf id events ≠ []) : ∃ index change, .item id index change ∈ events := by
  obtain ⟨change, member⟩ := List.exists_mem_of_ne_nil _ some_change
  obtain ⟨event, present, same⟩ := List.mem_filterMap.mp member
  cases event with
  | item other index held =>
      simp only [Option.ite_none_right_eq_some] at same
      exact ⟨index, held, same.1 ▸ present⟩
  | created response | inProgress response | terminal response => cases same

theorem mem_itemEvents {id other : ItemId} {index position : Nat} {changes : List ItemChange}
    {change : ItemChange} (member : .item id position change ∈ itemEvents other index changes) :
    id = other ∧ position = index ∧ change ∈ changes := by
  obtain ⟨held, present, same⟩ := List.mem_map.mp member
  cases same
  exact ⟨rfl, rfl, present⟩

end ClineProxy
