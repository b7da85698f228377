import ClineProxy.ResponsesAnnounce
import ClineProxy.ResponsesIndexes
import Mathlib.Data.List.Forall2

/-! Every tool call of a run against the tool items of the response. -/

namespace ClineProxy

open Json ResponsesConverter

def ResponsesItem.searchFailed : ResponsesItem → Option Bool
  | .webSearchCall _ failed _ _ => some failed
  | _ => none

def OutputItem.searchFailed : OutputItem → Option Bool
  | .webSearchCall item => item.searchFailed
  | _ => none

def ConverterMove.searchFailed : ConverterMove → Option Bool
  | .searched outcome => some outcome.error.isSome
  | _ => none

namespace ResponsesConverter

def searchFlags (converter : ResponsesConverter) : List Bool :=
  converter.outputItems.filterMap OutputItem.searchFailed

variable (converter : ResponsesConverter)

theorem searchFlags_feedTextItem (kind : TextKind) (partFirst : TextItemState → Bool)
    (text : String) :
    (converter.feedTextItem kind partFirst text).1.searchFlags = converter.searchFlags := by
  have made : (converter.ensureTextState kind).2.outputItems = converter.outputItems := by
    rw [ensureTextState]
    split <;> rfl
  simp only [feedTextItem, emitAll_fst, searchFlags, made]
  split <;> simp [OutputItem.searchFailed]

theorem searchFlags_addToolSlot (call : Value) :
    (converter.addToolSlot call).1.searchFlags = converter.searchFlags := by
  rw [addToolSlot_eq, emitAll_fst]
  simp only [searchFlags]
  split <;> simp [OutputItem.searchFailed]

theorem searchFlags_move (move : ConverterMove) : (converter.move move).1.searchFlags =
    converter.searchFlags ++ move.searchFailed.toList := by
  cases move with
  | start =>
      rw [ResponsesConverter.move, ensureStarted]
      split
      next => exact (List.append_nil _).symm
      next =>
        rw [emitAll_fst]
        exact (List.append_nil _).symm
  | note chunk | finish reason | newRound => exact (List.append_nil _).symm
  | reasoning text =>
      rw [ResponsesConverter.move, feedReasoning]
      refine Eq.trans ?_ (List.append_nil _).symm
      split
      next => exact converter.searchFlags_feedTextItem _ _ _
      next =>
        simp only [ensureTextState]
        split <;> rfl
  | text text =>
      exact (converter.searchFlags_feedTextItem .message _ text).trans (List.append_nil _).symm
  | register call =>
      rw [ResponsesConverter.move, ensureToolItemAdded]
      refine Eq.trans ?_ (List.append_nil _).symm
      split
      next => rfl
      next =>
        refine (searchFlags_addToolSlot _ call).trans ?_
        split
        next =>
          exact congrArg (List.filterMap OutputItem.searchFailed)
            (kept_closeTextItem converter .message _).2.1
        next => rfl
  | extend call =>
      rw [ResponsesConverter.move, feedToolCallArguments]
      refine Eq.trans ?_ (List.append_nil _).symm
      split
      next => rfl
      next =>
        rw [emitAll_fst]
        rfl
  | searched outcome =>
      rw [ResponsesConverter.move, emitWebSearchCall, emitAll_fst]
      simp [searchFlags, OutputItem.searchFailed, ConverterMove.searchFailed, searchItem,
        ResponsesItem.searchFailed]

theorem searchFlags_moveAll (moves : List ConverterMove) :
    (converter.moveAll moves).1.searchFlags =
      converter.searchFlags ++ moves.filterMap ConverterMove.searchFailed := by
  induction moves generalizing converter with
  | nil => exact (List.append_nil _).symm
  | cons move rest ih =>
      rw [moveAll, ResponsesEmission.andThen]
      rw [ih, searchFlags_move, List.append_assoc]
      cases failed : move.searchFailed with
      | none => rw [List.filterMap_cons_none failed, Option.toList_none, List.nil_append]
      | some flag =>
          rw [List.filterMap_cons_some failed, Option.toList_some, List.singleton_append]

end ResponsesConverter

variable {names : List String} {exposeThinking : Bool} {track : Track}
  {converter : ResponsesConverter} {events : List ResponsesEvent}

theorem Board.slot_of_call (board : Board names exposeThinking track converter events)
    {call : Value} (member : call ∈ track.round.registered) :
    ∃ slot, OrderedMap.lookup (signedCallIndex call) converter.tools = some slot ∧
      SlotBoard names call (track.round.fragmentsAt (signedCallIndex call)) slot
        converter.idsMade events := by
  have found := board.own call member
  cases held : OrderedMap.lookup (signedCallIndex call) converter.tools with
  | none =>
      have absent := (board.noSlots _ held).1
      simp [found] at absent
  | some slot =>
      obtain ⟨first, begun, slotted⟩ := board.slots _ slot held
      obtain rfl := Option.some.inj (found.symm.trans begun)
      exact ⟨slot, rfl, slotted⟩

theorem trackOf_distinct (names : List String) (exposeThinking : Bool)
    (moves : List ConverterMove) :
    ((trackOf names exposeThinking moves).round.registered.map signedCallIndex).Nodup := by
  induction moves using List.reverseRecOn with
  | nil => exact List.nodup_nil
  | append_singleton moves last ih =>
      rw [trackOf_snoc]
      cases last with
      | start | note | finish | searched => exact ih
      | reasoning text | text text => simpa [Track.move] using ih
      | newRound => exact List.nodup_nil
      | extend call =>
          rw [Track.move]
          split <;> exact ih
      | register call =>
          rw [Track.move]
          split
          next => exact ih
          next absent =>
            have new : signedCallIndex call ∉
                (trackOf names exposeThinking moves).round.registered.map signedCallIndex := by
              intro member
              obtain ⟨other, there, same⟩ := List.mem_map.mp member
              have none_there : (trackOf names exposeThinking moves).round.firstAt
                  (signedCallIndex call) = none := by simpa using absent
              have different := List.find?_eq_none.mp none_there other there
              simp [same] at different
            simpa [Track.register, CallRound.register] using ih.concat new

theorem Board.indexes_perm (board : Board names exposeThinking track converter events)
    (distinct : (track.round.registered.map signedCallIndex).Nodup) :
    (converter.tools.map Prod.fst).Perm (track.round.registered.map signedCallIndex) := by
  have keys : (converter.tools.map Prod.fst).Nodup :=
    List.pairwise_map.mpr (board.sorted.imp fun below => by omega)
  rw [List.perm_ext_iff_of_nodup keys distinct]
  intro index
  simp only [List.mem_map]
  constructor
  · rintro ⟨entry, member, rfl⟩
    have held := OrderedMap.lookup_of_mem int_irrefl board.sorted member
    obtain ⟨first, found, _⟩ := board.slots _ _ held
    exact ⟨first, List.mem_of_find?_eq_some found, by simpa using List.find?_some found⟩
  · rintro ⟨call, member, rfl⟩
    obtain ⟨slot, held, _⟩ := board.slot_of_call member
    exact ⟨_, OrderedMap.mem_of_lookup held, rfl⟩

theorem Board.server_count (board : Board names exposeThinking track converter events)
    (distinct : (track.round.registered.map signedCallIndex).Nodup)
    (pure_ : converter.hasClientTools = false) :
    converter.serverToolCalls.length = track.round.registered.length := by
  have all : converter.tools.filter (fun entry => entry.2.server) = converter.tools := by
    rw [List.filter_eq_self]
    intro entry member
    simpa using List.any_eq_false.mp pure_ entry member
  have same := (board.indexes_perm distinct).length_eq
  rw [List.length_map, List.length_map] at same
  rw [serverToolCalls, all, List.length_map, same]

theorem search_chunkMoves (chunk : Value) :
    (chunkMoves chunk).filterMap ConverterMove.searchFailed = [] := by
  rw [List.filterMap_eq_nil_iff]
  intro move member
  cases move with
  | searched outcome =>
      simp only [chunkMoves, List.mem_append, List.mem_cons, List.not_mem_nil, or_false,
        reduceCtorEq, false_or, List.mem_flatMap, choiceMoves] at member
      obtain ⟨choice, _, delta⟩ := member
      cases given : choice.get "delta" with
      | none => simp [given] at delta
      | some value => simp [given, deltaMoves, textMoves] at delta
  | _ => rfl

/-- The searches of guarded calls are the calls of their earlier rounds. -/
theorem guarded_searches (responseId : String) (createdAt : UInt64) (model : String)
    (names : List String) (exposeThinking : Bool) {calls : List ConverterCall}
    (unfinished : Unfinished calls)
    (guarded : Guarded (withServerTools responseId createdAt model exposeThinking names) calls) :
    ((calls.flatMap callMoves).filterMap ConverterMove.searchFailed).length =
      ((trackOf names exposeThinking (calls.flatMap callMoves)).earlier.flatMap
        CallRound.registered).length := by
  induction calls using List.reverseRecOn with
  | nil => rfl
  | append_singleton calls last ih =>
      obtain ⟨before, now⟩ := guarded.last
      have going : Unfinished calls := fun call member =>
        unfinished call (List.mem_append_left _ member)
      rw [List.flatMap_append, List.flatMap_singleton, trackOf_append, List.filterMap_append,
        List.length_append, ih going before]
      cases last with
      | finish error => exact absurd rfl (unfinished _ (by simp) error)
      | feedChunk chunk =>
          rw [callMoves, search_chunkMoves, earlier_moveAll (newRound_chunkMoves chunk),
            List.length_nil, Nat.add_zero]
      | searchRound asked outcomes =>
          have board := (board_new responseId createdAt model exposeThinking names).movedAll
            (calls.flatMap callMoves)
          have at_ := applyAll_eq calls
            (withServerTools responseId createdAt model exposeThinking names) going
          obtain ⟨⟨_, pure_, rfl, length⟩, _⟩ := now
          rw [at_] at pure_ length
          let asked := ((withServerTools responseId createdAt model exposeThinking names).moveAll
            (calls.flatMap callMoves)).1.serverToolCalls
          have count : asked.length =
              (trackOf names exposeThinking (calls.flatMap callMoves)).round.registered.length :=
            board.server_count (trackOf_distinct names exposeThinking _) pure_
          have shown : ((((asked.zip outcomes).map Prod.snd).map ConverterMove.searched).filterMap
              ConverterMove.searchFailed).length = asked.length := by
            rw [List.filterMap_map]
            have each : ConverterMove.searchFailed ∘ ConverterMove.searched =
                fun outcome => some outcome.error.isSome := rfl
            rw [each, List.filterMap_eq_map', List.length_map, List.length_map, List.length_zip]
            simp only [asked]
            omega
          rw [at_, earlier_searchRound, List.flatMap_append, List.length_append,
            List.flatMap_singleton, ← count, callMoves_searchRound, List.filterMap_append,
            List.length_append, shown]
          rfl

def ResponsesItem.isCall : ResponsesItem → Bool
  | .functionCall .. => true
  | _ => false

theorem call_not_search {item : ResponsesItem} (isCall : item.isCall = true) :
    item.isSearch = false := by
  cases item with
  | functionCall => rfl
  | text | webSearchCall => cases isCall

def callItems (converter : ResponsesConverter) (indexes : List Int) : List ResponsesItem :=
  indexes.filterMap fun index => (OrderedMap.lookup index converter.tools).map slotItem

theorem Board.callItems_nodup (board : Board names exposeThinking track converter events)
    {indexes : List Int} (distinct : indexes.Nodup) : (callItems converter indexes).Nodup := by
  refine distinct.filterMap fun first second item one two => ?_
  obtain ⟨slot, held, rfl⟩ := Option.map_eq_some_iff.mp one
  obtain ⟨other, found, same⟩ := Option.map_eq_some_iff.mp two
  exact (board.apart second other first slot found held
    (congrArg ResponsesItem.id same)).symm

def CallRound.clients (names : List String) (round : CallRound) : List Value :=
  round.registered.filter fun call => !names.contains (fragmentName call)

theorem Board.mem_callItems (board : Board names exposeThinking track converter events)
    (shelf : Shelf exposeThinking track.opened converter events) (item : ResponsesItem) :
    item ∈ callItems converter ((track.round.clients names).map signedCallIndex) ↔
      item ∈ shownOutput converter ∧ item.isCall = true := by
  simp only [callItems, CallRound.clients, List.mem_filterMap, List.mem_map, List.mem_filter]
  constructor
  · rintro ⟨_, ⟨call, ⟨member, client⟩, rfl⟩, made⟩
    obtain ⟨slot, held, rfl⟩ := Option.map_eq_some_iff.mp made
    obtain ⟨other, found, slotted⟩ := board.slot_of_call member
    obtain rfl := Option.some.inj (found.symm.trans held)
    have own : other.server = false := slotted.server.trans (by simpa using client)
    obtain ⟨⟨shown, there, mine⟩, same⟩ := shown_call board shelf held own
    exact ⟨same shown there mine ▸ there, rfl⟩
  · rintro ⟨shown, isCall⟩
    obtain ⟨entry, listed, final, same⟩ := mem_shownOutput shown
    cases entry with
    | text id =>
        cases final
        cases isCall
    | webSearchCall item =>
        cases final
        have search := (shelf.backed _ listed).2
        rw [call_not_search isCall] at search
        cases search
    | functionCall id =>
        obtain ⟨slot, found, rfl⟩ := Option.map_eq_some_iff.mp final
        obtain ⟨⟨place, value⟩, there, rfl⟩ := List.mem_map.mp (List.mem_of_find?_eq_some found)
        have mine : value.itemId = id := by simpa using List.find?_some found
        have held := OrderedMap.lookup_of_mem int_irrefl board.sorted there
        obtain ⟨first, begun, slotted⟩ := board.slots place value held
        have place_ : signedCallIndex first = place := by simpa using List.find?_some begun
        have client : value.server = false := by
          by_contra server
          obtain ⟨index, change, sent⟩ := shelf.entry_used listed
          have used := List.ne_nil_of_mem (changesOf_used sent)
          rw [show OutputItem.id (.functionCall id) = value.itemId from mine.symm,
            slotted.changes, if_pos (by simpa using server)] at used
          exact used rfl
        refine ⟨place, ⟨first, ⟨List.mem_of_find?_eq_some begun, ?_⟩, place_⟩, by rw [held]; rfl⟩
        rw [← slotted.server, client]
        rfl

theorem shownOutput_ids (converter : ResponsesConverter) :
    ((shownOutput converter).map ResponsesItem.id).Sublist
      (converter.outputItems.map OutputItem.id) := by
  rw [shownOutput]
  induction converter.outputItems with
  | nil => exact List.Sublist.refl _
  | cons entry rest ih =>
      cases made : converter.finalItem entry with
      | none =>
          rw [List.filterMap_cons_none made, List.map_cons]
          exact ih.cons _
      | some item =>
          rw [List.filterMap_cons_some made, List.map_cons, List.map_cons, finalItem_id made]
          exact ih.cons_cons _

theorem Shelf.output_nodup (shelf : Shelf exposeThinking track.opened converter events) :
    (shownOutput converter).Nodup :=
  List.Nodup.of_map _ (shelf.distinct.sublist (shownOutput_ids converter))

theorem shownOutput_searches (converter : ResponsesConverter) :
    (shownOutput converter).filterMap ResponsesItem.searchFailed = converter.searchFlags := by
  rw [shownOutput, searchFlags, List.filterMap_filterMap]
  refine List.filterMap_congr fun entry _ => ?_
  cases entry with
  | text id => rfl
  | webSearchCall item => rfl
  | functionCall id =>
      cases found : converter.slotOf id <;> simp [finalItem, found] <;> rfl

theorem searchFailed_length (items : List ResponsesItem) :
    (items.filterMap ResponsesItem.searchFailed).length = items.countP ResponsesItem.isSearch := by
  induction items with
  | nil => rfl
  | cons item rest ih =>
      cases item with
      | text | functionCall => exact ih
      | webSearchCall =>
          rw [List.countP_cons_of_pos rfl, ← ih]
          rfl

namespace CallRound

def finalArguments (round : CallRound) (call : Value) : String :=
  String.join ((round.fragmentsAt (signedCallIndex call)).map toolCallArguments)

end CallRound

def ResponsesItem.isTool (item : ResponsesItem) : Bool := item.isSearch || item.isCall

/-- The tool calls of some rounds, each with its round. -/
def callsOf (rounds : List CallRound) : List (CallRound × Value) :=
  rounds.flatMap fun round => round.registered.map fun call => (round, call)

/-- A call to the server's tool is answered by a search, which is completed or failed; any other
call by itself. -/
def AnswersCall (names : List String) (call : CallRound × Value) (item : ResponsesItem) : Prop :=
  if names.contains (call.1.finalName call.2) then item.isSearch = true
  else ∃ id, item = .functionCall id (call.1.finalId call.2) (call.1.finalName call.2)
    (call.1.finalArguments call.2) true

def AllAnswered (names : List String) (rounds : List CallRound) (output : List ResponsesItem) :
    Prop :=
  ∃ items, (output.filter ResponsesItem.isTool).Perm items ∧
    List.Forall₂ (AnswersCall names) (callsOf rounds) items

/-- The first fragment of a call names the server's tool when the whole call does. -/
def CallRound.NameSteady (names : List String) (round : CallRound) : Prop :=
  ∀ call ∈ round.registered,
    names.contains (fragmentName call) = names.contains (round.finalName call)

theorem answers_search {calls : List (CallRound × Value)} {items : List ResponsesItem}
    (answered : List.Forall₂ (AnswersCall names) calls items) :
    items.countP ResponsesItem.isSearch =
      calls.countP fun call => names.contains (call.1.finalName call.2) := by
  induction answered with
  | nil => rfl
  | @cons call item calls items one _ ih =>
      rw [List.countP_cons, List.countP_cons, ih]
      rw [AnswersCall] at one
      split at one
      next server => simp only [one, server]
      next client =>
        obtain ⟨id, rfl⟩ := one
        simpa [ResponsesItem.isSearch] using client

theorem answers_name {calls : List (CallRound × Value)} {items : List ResponsesItem}
    (answered : List.Forall₂ (AnswersCall names) calls items) :
    ∀ item ∈ items, ∀ callId name, item.called = some (callId, name) →
      names.contains name = false := by
  induction answered with
  | nil => exact fun _ member => by cases member
  | @cons call item calls items one _ ih =>
      intro other member callId name called
      rcases List.mem_cons.mp member with rfl | later
      · rw [AnswersCall] at one
        split at one
        next =>
          cases other with
          | functionCall => cases one
          | text | webSearchCall => cases called
        next client =>
          obtain ⟨id, rfl⟩ := one
          obtain ⟨rfl, rfl⟩ := Prod.mk.inj (Option.some.inj called)
          simpa using client
      · exact ih other later callId name called

def OwnItem (call : CallRound × Value) (item : ResponsesItem) : Prop :=
  ∃ id, item = .functionCall id (call.1.finalId call.2) (call.1.finalName call.2)
    (call.1.finalArguments call.2) true

theorem Board.ownItems (board : Board names exposeThinking track converter events)
    {calls : List Value} (members : ∀ call ∈ calls, call ∈ track.round.registered) :
    List.Forall₂ OwnItem (calls.map fun call => (track.round, call))
      (callItems converter (calls.map signedCallIndex)) := by
  induction calls with
  | nil => exact .nil
  | cons call rest ih =>
      obtain ⟨slot, held, slotted⟩ := board.slot_of_call (members call (by simp))
      have made : callItems converter ((call :: rest).map signedCallIndex) =
          slotItem slot :: callItems converter (rest.map signedCallIndex) := by
        simp [callItems, held]
      rw [List.map_cons, made]
      refine .cons ⟨slot.itemId, ?_⟩ (ih fun other member => members other (by simp [member]))
      rw [slotItem, slotted.callId, slotted.name, slotted.arguments]
      rfl

theorem forall₂_of_length {Left Right : Type} {related : Left → Right → Prop}
    {lefts : List Left} {rights : List Right} (length : lefts.length = rights.length)
    (all : ∀ left ∈ lefts, ∀ right ∈ rights, related left right) :
    List.Forall₂ related lefts rights := by
  induction lefts generalizing rights with
  | nil =>
      obtain rfl := List.length_eq_zero_iff.mp length.symm
      exact .nil
  | cons left rest ih =>
      cases rights with
      | nil => simp at length
      | cons right later =>
          refine .cons (all left (by simp) right (by simp)) (ih (by simpa using length) ?_)
          exact fun one member other there => all one (by simp [member]) other (by simp [there])

theorem forall₂_member {Left Right : Type} {related : Left → Right → Prop} {lefts : List Left}
    {rights : List Right} (all : List.Forall₂ related lefts rights) {left : Left}
    (member : left ∈ lefts) : ∃ right ∈ rights, related left right := by
  induction all with
  | nil => cases member
  | @cons first right lefts rights one _ ih =>
      rcases List.mem_cons.mp member with rfl | later
      · exact ⟨right, by simp, one⟩
      · obtain ⟨other, there, found⟩ := ih later
        exact ⟨other, by simp [there], found⟩

theorem tools_perm (output : List ResponsesItem) : (output.filter ResponsesItem.isTool).Perm
    (output.filter ResponsesItem.isSearch ++ output.filter ResponsesItem.isCall) := by
  induction output with
  | nil => exact .nil
  | cons item rest ih =>
      cases item with
      | text => exact ih
      | webSearchCall => exact ih.cons _
      | functionCall => exact (ih.cons _).trans List.perm_middle.symm

structure ToolItems (names : List String) (earlier : List CallRound) (last : CallRound)
    (output : List ResponsesItem) : Prop where
  served : ∀ round ∈ earlier, ∀ call ∈ round.registered,
    names.contains (fragmentName call) = true
  searches : output.countP ResponsesItem.isSearch = (callsOf earlier).length
  calls : ∃ items, (output.filter ResponsesItem.isCall).Perm items ∧
    List.Forall₂ OwnItem ((last.clients names).map fun call => (last, call)) items

theorem callsOf_append (first second : List CallRound) :
    callsOf (first ++ second) = callsOf first ++ callsOf second := List.flatMap_append

theorem mem_callsOf {rounds : List CallRound} {call : CallRound × Value} :
    call ∈ callsOf rounds ↔ call.1 ∈ rounds ∧ call.2 ∈ call.1.registered := by
  simp only [callsOf, List.mem_flatMap, List.mem_map]
  constructor
  · rintro ⟨round, member, value, registered, rfl⟩
    exact ⟨member, registered⟩
  · rintro ⟨member, registered⟩
    exact ⟨call.1, member, call.2, registered, rfl⟩

theorem CallRound.clients_all {round : CallRound}
    (clients : ∀ call ∈ round.registered, names.contains (fragmentName call) = false) :
    round.clients names = round.registered := by
  rw [CallRound.clients, List.filter_eq_self]
  intro call member
  simpa using clients call member

theorem own_names {rounds : List CallRound} {last : CallRound} {calls : List Value}
    {output items own : List ResponsesItem}
    (answered : List.Forall₂ (AnswersCall names) (callsOf rounds) items)
    (same : (output.filter ResponsesItem.isTool).Perm items)
    (perm : (output.filter ResponsesItem.isCall).Perm own)
    (owned : List.Forall₂ OwnItem (calls.map fun call => (last, call)) own) :
    ∀ call ∈ calls, names.contains (last.finalName call) = false := by
  intro call member
  obtain ⟨item, there, id, rfl⟩ := forall₂_member owned (List.mem_map.mpr ⟨call, member, rfl⟩)
  have listed := List.mem_filter.mp (perm.mem_iff.mpr there)
  have among : ResponsesItem.functionCall id (last.finalId call) (last.finalName call)
      (last.finalArguments call) true ∈ items :=
    same.mem_iff.mp (List.mem_filter.mpr ⟨listed.1, rfl⟩)
  exact answers_name answered _ among _ _ rfl

theorem ToolItems.answered_iff {earlier : List CallRound} {last : CallRound}
    {output : List ResponsesItem} (tools : ToolItems names earlier last output) :
    AllAnswered names (earlier ++ [last]) output ↔
      (∀ round ∈ earlier ++ [last], round.NameSteady names) ∧
        ∀ call ∈ last.registered, names.contains (fragmentName call) = false := by
  obtain ⟨own, perm, owned⟩ := tools.calls
  have split : callsOf (earlier ++ [last]) =
      callsOf earlier ++ last.registered.map fun call => (last, call) := by
    rw [callsOf_append]
    simp [callsOf]
  have ownLength := owned.length_eq
  rw [List.length_map] at ownLength
  constructor
  · rintro ⟨items, same, answered⟩
    have total := answered.length_eq
    have count := same.countP_eq ResponsesItem.isSearch
    have length := (same.symm.trans ((tools_perm output).trans (.append_left _ perm))).length_eq
    rw [split, List.length_append, List.length_map] at total
    rw [List.length_append, ← List.countP_eq_length_filter, tools.searches, ← ownLength] at length
    have clients : ∀ call ∈ last.registered, names.contains (fragmentName call) = false := by
      have full : (last.clients names).length = last.registered.length := by omega
      intro call member
      have kept := List.length_filter_eq_length_iff.mp full call member
      simpa using kept
    rw [CallRound.clients_all clients] at owned
    refine ⟨?_, clients⟩
    have own_ := own_names answered same perm owned
    have searches : (output.filter ResponsesItem.isTool).countP ResponsesItem.isSearch =
        (callsOf earlier).length := by
      rw [List.countP_filter, ← tools.searches]
      refine List.countP_congr fun item _ => ?_
      cases item <;> simp [ResponsesItem.isTool, ResponsesItem.isSearch]
    have lastNone : (last.registered.map fun call => (last, call)).countP
        (fun call => names.contains (call.1.finalName call.2)) = 0 := by
      rw [List.countP_map, List.countP_eq_zero]
      intro call member
      simpa using own_ call member
    rw [answers_search answered, split, List.countP_append, lastNone, searches] at count
    have server := List.countP_eq_length.mp count.symm
    intro round member call registered
    rcases List.mem_append.mp member with before | latest
    · rw [tools.served round before call registered]
      exact (server (round, call) (mem_callsOf.mpr ⟨before, registered⟩)).symm
    · obtain rfl := List.mem_singleton.mp latest
      rw [clients call registered, own_ call registered]
  · rintro ⟨steady, clients⟩
    rw [CallRound.clients_all clients] at owned
    refine ⟨output.filter ResponsesItem.isSearch ++ own, (tools_perm output).trans
      (.append_left _ perm), ?_⟩
    rw [split]
    refine List.rel_append ?_ ?_
    · refine forall₂_of_length ?_ fun call member item search => ?_
      · rw [← List.countP_eq_length_filter, tools.searches]
      · obtain ⟨inEarlier, registered⟩ := mem_callsOf.mp member
        have server := tools.served call.1 inEarlier call.2 registered
        rw [steady call.1 (by simp [inEarlier]) call.2 registered] at server
        rw [AnswersCall, if_pos server]
        exact (List.mem_filter.mp search).2
    · have client : ∀ call ∈ last.registered.map fun call => (last, call),
          names.contains (call.1.finalName call.2) = false := by
        intro call member
        obtain ⟨value, registered, rfl⟩ := List.mem_map.mp member
        rw [← steady last (by simp) value registered, clients value registered]
      refine ((List.forall₂_and_left _ _).mpr ⟨client, owned⟩).imp fun call item both => ?_
      rw [AnswersCall, if_neg (by rw [both.1]; exact Bool.false_ne_true)]
      exact both.2

theorem Finish.callsPerm {closed : ResponsesConverter} {sent : List ResponsesEvent}
    {response : ResponseObject}
    (finish : Finish names exposeThinking track converter events closed sent response)
    (distinct : (track.round.registered.map signedCallIndex).Nodup) :
    (response.output.filter ResponsesItem.isCall).Perm
      (callItems closed ((track.round.clients names).map signedCallIndex)) := by
  obtain ⟨round, opened⟩ := round_finished exposeThinking track
  have member := finish.board.mem_callItems (opened ▸ finish.shelf)
  rw [round] at member
  have apart : ((track.round.clients names).map signedCallIndex).Nodup :=
    distinct.sublist (List.filter_sublist.map _)
  rw [finish.output, List.perm_ext_iff_of_nodup (finish.shelf.output_nodup.filter _)
    (finish.board.callItems_nodup apart)]
  intro item
  rw [List.mem_filter, member]

theorem callsOf_length (rounds : List CallRound) :
    (callsOf rounds).length = (rounds.flatMap CallRound.registered).length := by
  simp [callsOf, List.length_flatMap]

theorem Finish.toolItems (responseId : String) (createdAt : UInt64) (model : String)
    (names : List String) (exposeThinking : Bool) {calls : List ConverterCall}
    {closed : ResponsesConverter} {sent : List ResponsesEvent} {response : ResponseObject}
    (unfinished : Unfinished calls)
    (guarded : Guarded (withServerTools responseId createdAt model exposeThinking names) calls)
    (finish : Finish names exposeThinking
      (trackOf names exposeThinking (calls.flatMap callMoves))
      ((withServerTools responseId createdAt model exposeThinking names).moveAll
        (calls.flatMap callMoves)).1
      ((withServerTools responseId createdAt model exposeThinking names).moveAll
        (calls.flatMap callMoves)).events closed sent response) :
    ToolItems names (trackOf names exposeThinking (calls.flatMap callMoves)).earlier
      (trackOf names exposeThinking (calls.flatMap callMoves)).round response.output where
  served := @guarded_rounds
    (fun round => ∀ call ∈ round.registered, names.contains (fragmentName call) = true)
    responseId createdAt model names exposeThinking
    (fun _ _ _ board pure_ => board.allServer pure_) calls unfinished guarded
  searches := by
    have none_ : (withServerTools responseId createdAt model exposeThinking names).searchFlags =
      [] := rfl
    have items : closed.searchFlags = ((withServerTools responseId createdAt model exposeThinking
        names).moveAll (calls.flatMap callMoves)).1.searchFlags := by
      rw [searchFlags, finish.items, searchFlags]
    rw [← searchFailed_length, finish.output, shownOutput_searches, items, searchFlags_moveAll,
      none_, List.nil_append, guarded_searches responseId createdAt model names exposeThinking
        unfinished guarded, callsOf_length]
  calls := by
    obtain ⟨round, _⟩ := round_finished exposeThinking
      (trackOf names exposeThinking (calls.flatMap callMoves))
    refine ⟨_, finish.callsPerm (trackOf_distinct names exposeThinking _), ?_⟩
    have owned := @Board.ownItems _ _ _ _ _ finish.board
      ((trackOf names exposeThinking (calls.flatMap callMoves)).round.clients names)
      (fun call member => round ▸ (List.mem_filter.mp member).1)
    rw [round] at owned
    exact owned

/-- Every call is answered by one item exactly when the names are steady and the last round has
no call to the server's tool. -/
theorem responses_calls_answered (codec : Codec) (delivery : Delivery) (responseId : String)
    (createdAt : UInt64) (model : String) (exposeThinking : Bool)
    (webSearch : Option ResponsesWebSearchContext) (chatBody : Value)
    (arrivals : List PumpArrival) (response : ResponseObject) :
    let pump := ResponsesPump.start delivery responseId createdAt model exposeThinking webSearch
      chatBody
    let names := ResponsesPump.serverToolNames webSearch
    let rounds := roundsOf names exposeThinking (pump.moves codec arrivals)
    pump.terminal codec arrivals = some response → response.status ≠ .failed →
      (AllAnswered names rounds response.output ↔
        (∀ round ∈ rounds, round.NameSteady names) ∧
          ∀ last ∈ rounds.getLast?, ∀ call ∈ last.registered,
            names.contains (fragmentName call) = false) := by
  intro pump names rounds ended success
  obtain ⟨going, closed, sent, _, unfinished, guarded, moves, finish⟩ := terminal_finish codec
    delivery responseId createdAt model exposeThinking webSearch chatBody arrivals ended success
  rw [moves] at finish
  have tools := finish.toolItems responseId createdAt model names exposeThinking unfinished guarded
  rw [← moves] at tools
  rw [show rounds = (trackOf names exposeThinking (pump.moves codec arrivals)).earlier ++
    [(trackOf names exposeThinking (pump.moves codec arrivals)).round] from rfl,
    tools.answered_iff, List.getLast?_concat]
  simp only [Option.mem_some_iff, forall_eq']
  rfl

instance (names : List String) (round : CallRound) : Decidable (round.NameSteady names) :=
  inferInstanceAs (Decidable (∀ call ∈ round.registered, _))

theorem responses_calls_answered_searched : ∃ response,
    searchedPump.terminal searchedCodec searchedArrivals = some response ∧
      response.status ≠ .failed ∧
        AllAnswered [webSearchFunctionName]
          (roundsOf [webSearchFunctionName] false
            (searchedPump.moves searchedCodec searchedArrivals)) response.output := by
  obtain ⟨response, ended, known⟩ := Option.map_eq_some_iff.mp searched_terminal
  have success : response.status ≠ .failed := by simp [(Prod.mk.inj known).1]
  exact ⟨response, ended, success, (responses_calls_answered searchedCodec .streamed "resp_1" 0
    "glm" false (some ⟨2, none⟩) (.object []) searchedArrivals response ended success).mpr
      (by decide +kernel)⟩

theorem AllAnswered.length {rounds : List CallRound} {output : List ResponsesItem}
    (answered : AllAnswered names rounds output) :
    output.countP ResponsesItem.isTool = (callsOf rounds).length := by
  obtain ⟨items, perm, each⟩ := answered
  rw [List.countP_eq_length_filter, perm.length_eq, each.length_eq]

def mixedChunk : Value :=
  chunkOf [("tool_calls", .array [wholeCall 0 "call_0" webSearchFunctionName leanQueryText,
    wholeCall 1 "call_1" "f" "\x7b\x7d"])] (finished "tool_calls")

def mixedCodec : Codec := documentCodec [leanQuery, mixedChunk]

theorem mixed_terminal : (searchedPump.terminal mixedCodec [searchArrival mixedChunk]).map
    (fun response => (response.status, response.output.countP ResponsesItem.isTool)) =
      some (.completed, 1) := by
  decide +kernel

theorem responses_calls_answered_fails : ∃ response,
    searchedPump.terminal mixedCodec [searchArrival mixedChunk] = some response ∧
      response.status ≠ .failed ∧
        ¬AllAnswered [webSearchFunctionName]
          (roundsOf [webSearchFunctionName] false
            (searchedPump.moves mixedCodec [searchArrival mixedChunk])) response.output := by
  obtain ⟨response, ended, known⟩ := Option.map_eq_some_iff.mp mixed_terminal
  obtain ⟨status, tools⟩ := Prod.mk.inj known
  refine ⟨response, ended, by simp [status], fun answered => ?_⟩
  have calls : (callsOf (roundsOf [webSearchFunctionName] false
      (searchedPump.moves mixedCodec [searchArrival mixedChunk]))).length = 2 := by
    decide +kernel
  have same := answered.length
  omega

end ClineProxy
