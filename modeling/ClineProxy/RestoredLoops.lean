import ClineProxy.LoopTurns
import ClineProxy.RestoreChecks

/-! A loop whose reasoning is held by the shadow store gets all of it back. -/

namespace ClineProxy

open Json Clock Positions ReasoningShadowStore

section Remembered

variable (hash : String → UInt64) (fingerprint : String) (clock : Nat → Instant)

/-- The store holds the reasoning of each turn for all its calls, fresh whenever it is read, and
nothing for a turn without reasoning. -/
def Remembers (turns : List LoopTurn) (shadow : ReasoningShadowStore) : Prop :=
  ∀ turn ∈ turns, ∀ id ∈ turn.ids,
    if turn.reasoning = "" then shadow.entryOf fingerprint (keyOf hash fingerprint id) = none
    else ∃ entry, shadow.entryOf fingerprint (keyOf hash fingerprint id) = some entry ∧
      entry.reasoning = turn.reasoning ∧ ∀ index, ¬shadow.ttl < clock index - entry.created

variable {hash fingerprint clock} {turns : List LoopTurn} {turn : LoopTurn}
  {shadow : ReasoningShadowStore}

theorem Remembers.restore (remembers : Remembers hash fingerprint clock turns shadow) (index : Nat)
    (toolCallIds : List String) : Remembers hash fingerprint clock turns
      (shadow.restore hash fingerprint (clock index) toolCallIds).2 := by
  intro turn member id listed
  have held := remembers turn member id listed
  have kept := @entryOf_restore shadow fingerprint (keyOf hash fingerprint id) hash fingerprint
    (clock index) toolCallIds
  split at held
  next silent =>
    rw [if_pos silent]
    rcases kept with same | ⟨gone, -⟩
    · exact same.trans held
    · exact gone
  next said =>
    rw [if_neg said]
    obtain ⟨entry, found, reasoning, fresh⟩ := held
    refine ⟨entry, ?_, reasoning, fun later => restore_ttl.symm ▸ fresh later⟩
    rcases kept with same | ⟨-, other, foundOther, late⟩
    · exact same.trans found
    · obtain rfl := Option.some.inj (found.symm.trans foundOther)
      exact absurd late (fresh index)

theorem Remembers.found (remembers : Remembers hash fingerprint clock turns shadow)
    (member : turn ∈ turns) (called : turn.ids ≠ []) (index : Nat) :
    (shadow.restore hash fingerprint (clock index) turn.ids).1 =
      if turn.reasoning = "" then none else some turn.reasoning := by
  rw [restore_eq]
  split
  next silent =>
    have unheld : (turn.ids.findSome? fun id =>
        shadow.entryOf fingerprint (keyOf hash fingerprint id)) = none := by
      refine List.findSome?_eq_none_iff.mpr fun id listed => ?_
      have held := remembers turn member id listed
      rwa [if_pos silent] at held
    rw [unheld, Option.bind_none]
  next said =>
    obtain ⟨first, rest, ids⟩ := List.exists_cons_of_ne_nil called
    have held := remembers turn member first (ids ▸ List.mem_cons_self)
    rw [if_neg said] at held
    obtain ⟨entry, found, reasoning, fresh⟩ := held
    rw [ids, List.findSome?_cons, found]
    dsimp only
    rw [Option.bind_some, if_neg (fresh index), reasoning]

end Remembered

section Messages

variable {hash : String → UInt64} {fingerprint : String} {clock : Nat → Instant} {codec : Codec}
  {turns : List LoopTurn} {turn : LoopTurn} {shadow : ReasoningShadowStore}

theorem restoreMessages_append (start : Nat) (first second : List Value)
    (shadow : ReasoningShadowStore) :
    restoreMessages hash clock fingerprint start shadow (first ++ second) =
      let (before, read) := restoreMessages hash clock fingerprint start shadow first
      let (after, left) := restoreMessages hash clock fingerprint (start + first.length) read second
      (before ++ after, left) := by
  induction first generalizing start shadow with
  | nil => rfl
  | cons message rest ih =>
      rw [List.cons_append, restoreMessages, restoreMessages, List.length_cons,
        Nat.add_comm rest.length 1, ← Nat.add_assoc]
      generalize restoreMessage hash clock fingerprint start shadow message = head
      obtain ⟨changed, read⟩ := head
      dsimp only
      rw [ih]
      rfl

theorem restoreMessages_plain {messages : List Value} (start : Nat)
    (plain : ∀ message ∈ messages, restorableIds message = none) :
    restoreMessages hash clock fingerprint start shadow messages = (messages, shadow) := by
  induction messages generalizing start with
  | nil => rfl
  | cons message rest ih =>
      rw [restoreMessages, restoreMessage, plain message List.mem_cons_self]
      dsimp only
      rw [ih (start + 1) fun other member => plain other (List.mem_cons_of_mem _ member)]

theorem restorableIds_answer (answer : ToolAnswer) :
    restorableIds answer.message.intoWire = none := by
  simp [restorableIds, role, ToolAnswer.message, WireMessage.intoWire, OrderedMap.lookup]

theorem restorableIds_user {message : Value} (user : isUser message = true) :
    restorableIds message = none := by
  rw [isUser, beq_iff_eq] at user
  rw [restorableIds, if_pos (.inl (by simp [user]))]

namespace LoopTurn

theorem callIds_sent : callIds (turn.calls.map (ReplayedCall.sent codec)) = turn.ids := by
  rw [callIds, List.filterMap_map, ids]
  exact List.filterMap_eq_map ▸ rfl

theorem restorableIds_spoken (called : turn.calls ≠ []) :
    restorableIds (turn.spoken codec false).intoWire = some turn.ids := by
  have ids := @callIds_sent codec turn
  rw [spoken, shownReasoning, if_neg Bool.false_ne_true]
  simp [restorableIds, role, WireMessage.intoWire, OrderedMap.lookup, called, ids]

theorem spoken_restored (said : turn.reasoning ≠ "") :
    (turn.spoken codec false).intoWire.mapObject
        (Map.insert "reasoning_content" (.string turn.reasoning)) =
      (turn.spoken codec true).intoWire := by
  have filled : (reasoningText (upstreamMessage turn.upstream)).isEmpty = false := by
    rw [Bool.eq_false_iff, ne_eq, String.isEmpty_iff]
    exact said
  rw [spoken, spoken, shownReasoning, shownReasoning, if_neg Bool.false_ne_true, if_pos rfl]
  by_cases uncalled : turn.calls = []
  · simp [WireMessage.intoWire, Value.mapObject, Map.insert, uncalled, filled, reasoning]
  · simp [WireMessage.intoWire, Value.mapObject, Map.insert, uncalled, filled, reasoning]

theorem spoken_silent (silent : turn.reasoning = "") :
    turn.spoken codec false = turn.spoken codec true := by
  rw [reasoning] at silent
  rw [spoken, spoken, shownReasoning, shownReasoning, if_neg Bool.false_ne_true, if_pos rfl, silent]

end LoopTurn

/-- A turn of the loop gets its reasoning back. -/
theorem restoreMessages_turn (remembers : Remembers hash fingerprint clock turns shadow)
    (member : turn ∈ turns) (called : turn.calls ≠ []) (start : Nat) :
    ∃ left, restoreMessages hash clock fingerprint start shadow
        ((turn.wire codec false).map WireMessage.intoWire) =
          ((turn.wire codec true).map WireMessage.intoWire, left) ∧
      Remembers hash fingerprint clock turns left := by
  have ids : turn.ids ≠ [] := by
    rw [LoopTurn.ids, ne_eq, List.map_eq_nil_iff]
    exact called
  have answers : ∀ message ∈ (turn.answers.map ToolAnswer.message).map WireMessage.intoWire,
      restorableIds message = none := by
    intro message listed
    rw [List.map_map] at listed
    obtain ⟨answer, -, rfl⟩ := List.mem_map.mp listed
    exact restorableIds_answer answer
  have found := remembers.found member ids start
  have kept := remembers.restore start turn.ids
  refine ⟨_, ?_, kept⟩
  rw [LoopTurn.wire, LoopTurn.wire, List.map_cons, List.map_cons, restoreMessages, restoreMessage,
    LoopTurn.restorableIds_spoken called]
  dsimp only
  generalize shadow.restore hash fingerprint (clock start) turn.ids = read at found ⊢
  obtain ⟨given, read⟩ := read
  dsimp only at found
  split at found
  next silent =>
    subst found
    dsimp only
    rw [restoreMessages_plain _ answers, LoopTurn.spoken_silent silent]
  next said =>
    subst found
    dsimp only
    rw [restoreMessages_plain _ answers, LoopTurn.spoken_restored said]

theorem restoreMessages_loop {some_ : List LoopTurn} (within : ∀ turn ∈ some_, turn ∈ turns)
    (called : ∀ turn ∈ some_, turn.calls ≠ [])
    (remembers : Remembers hash fingerprint clock turns shadow) (start : Nat) :
    ∃ left, restoreMessages hash clock fingerprint start shadow (loopWire codec false some_) =
      (loopWire codec true some_, left) := by
  induction some_ generalizing start shadow with
  | nil => exact ⟨shadow, rfl⟩
  | cons turn rest ih =>
      obtain ⟨read, first, kept⟩ := @restoreMessages_turn hash fingerprint clock codec turns turn
        shadow remembers (within turn List.mem_cons_self) (called turn List.mem_cons_self) start
      obtain ⟨left, later⟩ := ih (fun other member => within other (List.mem_cons_of_mem _ member))
        (fun other member => called other (List.mem_cons_of_mem _ member)) kept
        (start + ((turn.wire codec false).map WireMessage.intoWire).length)
      refine ⟨left, ?_⟩
      rw [loopWire, List.flatMap_cons, List.map_append, ← loopWire, restoreMessages_append, first]
      dsimp only
      rw [later, loopWire, loopWire, List.flatMap_cons, List.map_append]

theorem isUser_loopWire {exposeThinking : Bool} {message : Value}
    (member : message ∈ loopWire codec exposeThinking turns) : isUser message = false := by
  obtain ⟨wire, listed, rfl⟩ := List.mem_map.mp member
  obtain ⟨turn, -, inside⟩ := List.mem_flatMap.mp listed
  exact LoopTurn.isUser_wire inside

/-- Behind a user message, the whole loop is the current epoch. -/
theorem epochBoundary_loop {before : List Value} {last : Value} {exposeThinking : Bool}
    (user : isUser last = true) :
    epochBoundary (before ++ [last] ++ loopWire codec exposeThinking turns) = before.length := by
  have none_ : rposition isUser (loopWire codec exposeThinking turns) = none :=
    rposition_none isUser fun message member => isUser_loopWire member
  rw [epochBoundary, rposition_append, none_, rposition_snoc, if_pos user]
  rfl

theorem restoredMessages_loop {before : List Value} {last : Value} (user : isUser last = true)
    (called : ∀ turn ∈ turns, turn.calls ≠ [])
    (remembers : Remembers hash fingerprint clock turns shadow) :
    restoredMessages hash clock fingerprint shadow
        (before ++ [last] ++ loopWire codec false turns) =
      before ++ [last] ++ loopWire codec true turns := by
  rw [restoredMessages, epochBoundary_loop user, List.append_assoc, List.take_left,
    List.drop_left, List.singleton_append, restoreMessages, restoreMessage, restorableIds_user user]
  dsimp only
  obtain ⟨left, later⟩ := restoreMessages_loop (fun _ member => member) called remembers
    (before.length + 1)
  rw [later, List.append_assoc, List.singleton_append]

end Messages

end ClineProxy
