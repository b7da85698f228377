import ClineProxy.Positions
import ClineProxy.ResponsesSlots

/-! Where the items of a response stand: their output indexes and the list of items. -/

namespace ClineProxy

open Json Positions

def OutputItem.id : OutputItem → ItemId
  | text id | functionCall id => id
  | webSearchCall item => item.id

/-- The ids in the order of the response; each has the index of its opening. -/
structure Shelved (ids : List ItemId) (opened : List Bool) (events : List ResponsesEvent) :
    Prop where
  length : ids.length = (marked 0 opened).length
  placed : ∀ id index change, .item id index change ∈ events →
    (id, index) ∈ ids.zip (marked 0 opened)
  used : ∀ id index, (id, index) ∈ ids.zip (marked 0 opened) →
    ∃ change, .item id index change ∈ events

section Shelved

variable {ids : List ItemId} {opened : List Bool} {events : List ResponsesEvent}

theorem shelved_new : Shelved [] [] [] := ⟨rfl, by simp, by simp⟩

theorem Shelved.more (shelved : Shelved ids opened events) {more : List ResponsesEvent}
    (noItems : NoItems more) : Shelved ids opened (events ++ more) where
  length := shelved.length
  placed := fun id index change member => (List.mem_append.mp member).elim
    (shelved.placed id index change) fun now => absurd now (noItems id index change)
  used := fun id index member => by
    obtain ⟨change, before⟩ := shelved.used id index member
    exact ⟨change, List.mem_append_left _ before⟩

theorem Shelved.touch (shelved : Shelved ids opened events) {id : ItemId} {index : Nat}
    {changes : List ItemChange} (there : changes ≠ [] → (id, index) ∈ ids.zip (marked 0 opened)) :
    Shelved ids opened (events ++ itemEvents id index changes) where
  length := shelved.length
  placed := fun other position change member => by
    rcases List.mem_append.mp member with before | now
    · exact shelved.placed other position change before
    · obtain ⟨rfl, rfl, said⟩ := mem_itemEvents now
      exact there (List.ne_nil_of_mem said)
  used := fun other position member => by
    obtain ⟨change, before⟩ := shelved.used other position member
    exact ⟨change, List.mem_append_left _ before⟩

theorem Shelved.withhold (shelved : Shelved ids opened events) :
    Shelved ids (opened ++ [false]) events := by
  have same : marked 0 (opened ++ [false]) = marked 0 opened := by simp [marked_snoc]
  exact ⟨same ▸ shelved.length, same ▸ shelved.placed, same ▸ shelved.used⟩

theorem zip_open (length : ids.length = (marked 0 opened).length) (id : ItemId) :
    (ids ++ [id]).zip (marked 0 (opened ++ [true])) =
      ids.zip (marked 0 opened) ++ [(id, opened.length)] := by
  rw [marked_snoc, if_pos rfl, List.zip_append length]
  rfl

theorem Shelved.open (shelved : Shelved ids opened events) (id : ItemId)
    {changes : List ItemChange} (announced : changes ≠ []) :
    Shelved (ids ++ [id]) (opened ++ [true])
      (events ++ itemEvents id opened.length changes) where
  length := by simp [marked_snoc, shelved.length]
  placed := fun other position change member => by
    rw [zip_open shelved.length, List.mem_append]
    rcases List.mem_append.mp member with before | now
    · exact .inl (shelved.placed other position change before)
    · obtain ⟨rfl, rfl, _⟩ := mem_itemEvents now
      exact .inr (by simp)
  used := fun other position member => by
    rw [zip_open shelved.length] at member
    rcases List.mem_append.mp member with before | now
    · obtain ⟨change, sent⟩ := shelved.used other position before
      exact ⟨change, List.mem_append_left _ sent⟩
    · obtain ⟨rfl, rfl⟩ := Prod.mk.inj (List.mem_singleton.mp now)
      obtain ⟨change, said⟩ := List.exists_mem_of_ne_nil _ announced
      exact ⟨change, List.mem_append_right _ (List.mem_map_of_mem said)⟩

end Shelved

def TextHeld (exposeThinking : Bool) (converter : ResponsesConverter) (id : ItemId) : Prop :=
  ∃ kind state, TextKind.shown exposeThinking kind = true ∧
    converter.textState kind = some state ∧ state.itemId = id

/-- The state of an item that is shown, with the output index it keeps. -/
def Holds (exposeThinking : Bool) (converter : ResponsesConverter) (id : ItemId) (index : Nat) :
    Prop :=
  (∃ kind state, TextKind.shown exposeThinking kind = true ∧
    converter.textState kind = some state ∧ state.itemId = id ∧
      state.outputIndex = some index) ∨
  ∃ place slot, OrderedMap.lookup place converter.tools = some slot ∧ slot.server = false ∧
    slot.itemId = id ∧ slot.outputIndex = index

def ResponsesItem.isSearch : ResponsesItem → Bool
  | .webSearchCall .. => true
  | _ => false

def Backed (exposeThinking : Bool) (converter : ResponsesConverter) : OutputItem → Prop
  | .text id => TextHeld exposeThinking converter id
  | .functionCall id => id.kind = .functionCall
  | .webSearchCall item => item.id.kind = .webSearchCall ∧ item.isSearch = true

structure Shelf (exposeThinking : Bool) (opened : List Bool) (converter : ResponsesConverter)
    (events : List ResponsesEvent) : Prop where
  shelved : Shelved (converter.outputItems.map OutputItem.id) opened events
  next : converter.nextOutputIndex = opened.length
  distinct : (converter.outputItems.map OutputItem.id).Nodup
  holds : ∀ id index, Holds exposeThinking converter id index →
    (id, index) ∈ (converter.outputItems.map OutputItem.id).zip (marked 0 opened)
  backed : ∀ item ∈ converter.outputItems, Backed exposeThinking converter item

variable {names : List String} {exposeThinking : Bool} {track : Track} {opened : List Bool}
  {converter next : ResponsesConverter} {events : List ResponsesEvent}

theorem shelf_new (responseId : String) (createdAt : UInt64) (model : String)
    (exposeThinking : Bool) (names : List String) : Shelf exposeThinking []
      (.withServerTools responseId createdAt model exposeThinking names) [] where
  shelved := shelved_new
  next := rfl
  distinct := List.nodup_nil
  holds := by
    rintro id index (⟨kind, state, _, held, _⟩ | ⟨place, slot, held, _⟩)
    · cases kind <;> cases held
    · cases held
  backed := fun _ member => by cases member

theorem Backed.keep {item : OutputItem} (backed : Backed exposeThinking converter item)
    (texts : ∀ id, TextHeld exposeThinking converter id → TextHeld exposeThinking next id) :
    Backed exposeThinking next item := by
  cases item with
  | text id => exact texts id backed
  | functionCall id => exact backed
  | webSearchCall item => exact backed

theorem Shelf.keep (shelf : Shelf exposeThinking opened converter events)
    (items : next.outputItems = converter.outputItems)
    (index : next.nextOutputIndex = converter.nextOutputIndex)
    (holds : ∀ id index, Holds exposeThinking next id index → Holds exposeThinking converter id index)
    (texts : ∀ id, TextHeld exposeThinking converter id → TextHeld exposeThinking next id)
    {more : List ResponsesEvent}
    (shelved : Shelved (converter.outputItems.map OutputItem.id) opened (events ++ more)) :
    Shelf exposeThinking opened next (events ++ more) where
  shelved := items ▸ shelved
  next := index.trans shelf.next
  distinct := items ▸ shelf.distinct
  holds := fun id index held => items ▸ shelf.holds id index (holds id index held)
  backed := fun item member => (shelf.backed item (items ▸ member)).keep texts

/-- A server call takes an index and is not shown. -/
theorem Shelf.withhold (shelf : Shelf exposeThinking opened converter events)
    (items : next.outputItems = converter.outputItems)
    (index : next.nextOutputIndex = converter.nextOutputIndex + 1)
    (holds : ∀ id index, Holds exposeThinking next id index → Holds exposeThinking converter id index)
    (texts : ∀ id, TextHeld exposeThinking converter id → TextHeld exposeThinking next id) :
    Shelf exposeThinking (opened ++ [false]) next events where
  shelved := items ▸ shelf.shelved.withhold
  next := by simp [index, shelf.next]
  distinct := items ▸ shelf.distinct
  holds := fun id index held => by
    have before := shelf.holds id index (holds id index held)
    simpa [marked_snoc, items] using before
  backed := fun item member => (shelf.backed item (items ▸ member)).keep texts

theorem Shelf.open (shelf : Shelf exposeThinking opened converter events) (item : OutputItem)
    (fresh : item.id ∉ converter.outputItems.map OutputItem.id)
    (items : next.outputItems = converter.outputItems ++ [item])
    (index : next.nextOutputIndex = converter.nextOutputIndex + 1)
    (holds : ∀ id index, Holds exposeThinking next id index →
      Holds exposeThinking converter id index ∨
        id = item.id ∧ index = converter.nextOutputIndex)
    (texts : ∀ id, TextHeld exposeThinking converter id → TextHeld exposeThinking next id)
    (backed : Backed exposeThinking next item) {changes : List ItemChange}
    (announced : changes ≠ []) :
    Shelf exposeThinking (opened ++ [true]) next
      (events ++ itemEvents item.id converter.nextOutputIndex changes) where
  shelved := by
    rw [items, List.map_append, shelf.next]
    exact shelf.shelved.open item.id announced
  next := by simp [index, shelf.next]
  distinct := by
    rw [items]
    simpa using shelf.distinct.concat fresh
  holds := fun id position held => by
    rw [items, List.map_append, List.map_singleton, zip_open shelf.shelved.length,
      List.mem_append]
    rcases holds id position held with before | ⟨rfl, rfl⟩
    · exact .inl (shelf.holds id position before)
    · exact .inr (by simp [shelf.next])
  backed := fun other member => by
    rw [items] at member
    rcases List.mem_append.mp member with before | now
    · exact (shelf.backed other before).keep texts
    · exact List.mem_singleton.mp now ▸ backed

theorem TextStep.holds {kind : TextKind} {state : TextItemState}
    (step : TextStep converter next kind state) {id : ItemId} {index : Nat}
    (held : Holds exposeThinking next id index) : Holds exposeThinking converter id index ∨
      kind.shown exposeThinking = true ∧ state.itemId = id ∧ state.outputIndex = some index := by
  rcases held with ⟨other, now, shows, has, same, placed⟩ | ⟨place, slot, has, rest⟩
  · by_cases matching : other = kind
    · subst matching
      obtain rfl := Option.some.inj (step.now.symm.trans has)
      exact .inr ⟨shows, same, placed⟩
    · exact .inl (.inl ⟨other, now, shows, (step.others other matching).symm.trans has, same,
        placed⟩)
  · exact .inl (.inr ⟨place, slot, step.tools ▸ has, rest⟩)

theorem TextStep.textHeld {kind : TextKind} {state : TextItemState}
    (step : TextStep converter next kind state) {id : ItemId}
    (held : TextHeld exposeThinking converter id) : TextHeld exposeThinking next id := by
  obtain ⟨other, old, shows, was, same⟩ := held
  by_cases matching : other = kind
  · subst matching
    exact ⟨other, state, shows, step.now, (step.before old was).symm.trans same⟩
  · exact ⟨other, old, shows, (step.others other matching).trans was, same⟩

theorem ToolStep.holds {place : Int} {slot : ToolSlot} (step : ToolStep converter next place slot)
    {id : ItemId} {index : Nat} (held : Holds exposeThinking next id index) :
    Holds exposeThinking converter id index ∨
      slot.server = false ∧ slot.itemId = id ∧ slot.outputIndex = index := by
  rcases held with ⟨kind, state, shows, has, rest⟩ | ⟨other, now, has, rest⟩
  · exact .inl (.inl ⟨kind, state, shows, (step.texts kind).symm.trans has, rest⟩)
  · rw [step.lookup] at has
    by_cases same : other = place
    · rw [if_pos same] at has
      obtain rfl := Option.some.inj has
      exact .inr rest
    · rw [if_neg same] at has
      exact .inl (.inr ⟨other, now, has, rest⟩)

theorem ToolStep.textHeld {place : Int} {slot : ToolSlot}
    (step : ToolStep converter next place slot) {id : ItemId}
    (held : TextHeld exposeThinking converter id) : TextHeld exposeThinking next id := by
  obtain ⟨kind, state, shows, was, same⟩ := held
  exact ⟨kind, state, shows, (step.texts kind).trans was, same⟩

theorem Shelf.replace (shelf : Shelf exposeThinking opened converter events) {kind : TextKind}
    {state old : TextItemState} (step : TextStep converter next kind state)
    (was : converter.textState kind = some old) (same : state.itemId = old.itemId)
    (placed : state.outputIndex = old.outputIndex)
    (items : next.outputItems = converter.outputItems)
    (count : next.nextOutputIndex = converter.nextOutputIndex) {index : Nat}
    {changes : List ItemChange} (where_ : changes ≠ [] →
      kind.shown exposeThinking = true ∧ old.outputIndex = some index) :
    Shelf exposeThinking opened next (events ++ itemEvents state.itemId index changes) := by
  refine shelf.keep items count (fun id position held => ?_) (fun id held => step.textHeld held)
    (shelf.shelved.touch fun said => ?_)
  · rcases step.holds held with before | ⟨shows, mine, at_⟩
    · exact before
    · exact .inl ⟨kind, old, shows, was, same.symm.trans mine, placed.symm.trans at_⟩
  · obtain ⟨shows, at_⟩ := where_ said
    exact shelf.holds _ _ (.inl ⟨kind, old, shows, was, same.symm, at_⟩)

theorem Shelf.unmade (shelf : Shelf exposeThinking opened converter events)
    (board : Board names exposeThinking track converter events) {id : ItemId}
    (unmade : converter.idsMade ≤ id.serial) :
    id ∉ converter.outputItems.map OutputItem.id := by
  intro member
  obtain ⟨place, bound, at_⟩ := List.getElem_of_mem member
  have within : place < (marked 0 opened).length := shelf.shelved.length ▸ bound
  obtain ⟨change, sent⟩ := shelf.shelved.used id ((marked 0 opened)[place])
    (List.mem_iff_getElem.mpr ⟨place, by simpa using ⟨by simpa using bound, within⟩, by simp [at_]⟩)
  have made := board.fresh _ _ _ sent
  omega

theorem Shelf.feed (shelf : Shelf exposeThinking track.opened converter events)
    (board : Board names exposeThinking track converter events) (kind : TextKind)
    (partFirst : TextItemState → Bool) (text : String)
    (shows : kind.shown exposeThinking = true)
    (first : ∀ serial, partFirst (ResponsesConverter.newTextState kind serial) = true)
    (later : ∀ state : TextItemState, state.itemAdded = true → state.partAdded = true →
      partFirst state = false) :
    Shelf exposeThinking (track.hear kind true text).opened
      (converter.feedTextItem kind partFirst text).1
      (events ++ (converter.feedTextItem kind partFirst text).events) := by
  cases held : converter.textState kind with
  | none =>
      have fed := ResponsesConverter.feedTextItem_fresh partFirst text held (first _)
      have step := textStep_fresh partFirst text held (first _)
      have opened : (track.hear kind true text).opened = track.opened ++ [true] := by
        rw [Track.hear, board.silent kind held]
        rfl
      rw [congrArg ResponsesEmission.events fed, ResponsesConverter.emitAll_events, opened]
      refine shelf.open (.text ⟨.text kind, converter.idsMade⟩) (shelf.unmade board (Nat.le_refl _))
        ?_ ?_ (fun id index has => ?_) (fun id has => step.textHeld has) ?_ (by simp)
      · rw [fed, ResponsesConverter.emitAll_fst]
      · rw [fed, ResponsesConverter.emitAll_fst]
      · rcases step.holds has with before | ⟨_, same, placed⟩
        · exact .inl before
        · exact .inr ⟨same.symm, (Option.some.inj placed).symm⟩
      · exact ⟨kind, _, shows, step.now, rfl⟩
  | some state =>
      have shown := board.shown kind state shows held
      obtain ⟨index, placed⟩ := Option.isSome_iff_exists.mp shown.placed
      obtain ⟨isText, made⟩ := board.textIds kind state held
      have silentPart := later state shown.itemAdded shown.partAdded
      have fed := ResponsesConverter.feedTextItem_held partFirst text held silentPart
        shown.itemAdded placed
      have step := textStep_held partFirst text held silentPart shown.itemAdded placed isText made
      have opened : (track.hear kind true text).opened = track.opened := by
        have begun := board.said kind state held
        rw [Track.hear]
        cases spoken : (track.said kind).spoken with
        | nil => exact absurd spoken begun
        | cons head rest => cases kind <;> simp
      rw [congrArg ResponsesEmission.events fed, ResponsesConverter.emitAll_events, opened]
      refine shelf.replace step held rfl rfl ?_ ?_ fun _ => ⟨shows, placed⟩
      · rw [fed, ResponsesConverter.emitAll_fst]
        cases kind <;> rfl
      · rw [fed, ResponsesConverter.emitAll_fst]
        cases kind <;> rfl

theorem Shelf.feedHidden (shelf : Shelf exposeThinking track.opened converter events)
    (board : Board names exposeThinking track converter events) (hides : exposeThinking = false)
    (text : String) : Shelf exposeThinking (track.hear .reasoning exposeThinking text).opened
      (converter.feedReasoning text).1 (events ++ (converter.feedReasoning text).events) := by
  have opened : (track.hear .reasoning exposeThinking text).opened = track.opened := by
    simp [Track.hear, hides]
  have exposes := board.exposes.trans hides
  have kept {state : TextItemState} (step : TextStep converter (converter.feedReasoning text).1
      .reasoning state) (unsent : Unsent converter (converter.feedReasoning text)) :
      Shelf exposeThinking track.opened (converter.feedReasoning text).1
        (events ++ (converter.feedReasoning text).events) := by
    refine shelf.keep unsent.2.1 unsent.2.2 (fun id index has => ?_) (fun id has => step.textHeld has)
      (shelf.shelved.more (by simp [NoItems, unsent.1]))
    rcases step.holds has with before | ⟨shows, _⟩
    · exact before
    · simp [TextKind.shown, hides] at shows
  rw [opened]
  cases held : converter.textState .reasoning with
  | none =>
      obtain ⟨step, unsent⟩ := hidden_fresh text exposes held
      exact kept step unsent
  | some state =>
      obtain ⟨isText, made⟩ := board.textIds .reasoning state held
      obtain ⟨step, unsent⟩ := hidden_held text exposes held isText made
      exact kept step unsent

theorem Shelf.close (shelf : Shelf exposeThinking opened converter events)
    (board : Board names exposeThinking track converter events) (kind : TextKind)
    (closes : TextItemState → Bool) (shows : kind.shown exposeThinking = true) :
    Shelf exposeThinking opened (converter.closeTextItem kind closes).1
      (events ++ (converter.closeTextItem kind closes).events) := by
  have nothing (same : converter.closeTextItem kind closes = (converter, [])) :
      Shelf exposeThinking opened (converter.closeTextItem kind closes).1
        (events ++ (converter.closeTextItem kind closes).events) := by
    rw [same]
    simpa [ResponsesEmission.events] using shelf
  cases held : converter.textState kind with
  | none => exact nothing (by rw [ResponsesConverter.closeTextItem, held])
  | some state =>
      cases closed : closes state with
      | false => exact nothing (ResponsesConverter.closeTextItem_closed held closed)
      | true =>
          have shown := board.shown kind state shows held
          obtain ⟨index, placed⟩ := Option.isSome_iff_exists.mp shown.placed
          obtain ⟨isText, made⟩ := board.textIds kind state held
          have sent : ∃ changes, converter.closeTextItem kind closes =
              (converter.setTextState kind { state with itemDone := true, partDone := true }).emitAll
                (itemEvents state.itemId index changes) := by
            rw [ResponsesConverter.closeTextItem, held]
            simp only [closed, if_true, ResponsesConverter.closingEvents, placed,
              Option.getD_some]
            split
            next => exact ⟨closingChanges state.itemId state.accum, rfl⟩
            next => exact ⟨[.done (.text state.itemId (some state.accum))], rfl⟩
          obtain ⟨changes, fed⟩ := sent
          have step : TextStep converter (converter.closeTextItem kind closes).1 kind
              { state with itemDone := true, partDone := true } := by
            rw [fed, ResponsesConverter.emitAll_fst]
            exact textStep_replace { state with itemDone := true, partDone := true } held rfl
              isText made _
          rw [congrArg ResponsesEmission.events fed, ResponsesConverter.emitAll_events]
          refine shelf.replace step held rfl rfl ?_ ?_ fun _ => ⟨shows, placed⟩
          · rw [fed, ResponsesConverter.emitAll_fst]
            cases kind <;> rfl
          · rw [fed, ResponsesConverter.emitAll_fst]
            cases kind <;> rfl

theorem Shelf.addSlot (shelf : Shelf exposeThinking track.opened converter events)
    (board : Board names exposeThinking track converter events) (call : Value)
    (absent : OrderedMap.lookup (signedCallIndex call) converter.tools = none) :
    Shelf exposeThinking (track.register names call).opened (converter.addToolSlot call).1
      (events ++ (converter.addToolSlot call).events) := by
  have added := converter.addToolSlot_eq call
  have step := toolStep_add call absent
  have server : (converter.newSlot call).server = names.contains (fragmentName call) :=
    congrArg (List.contains · _) board.serverNames
  have opened : (track.register names call).opened =
      track.opened ++ [!(converter.newSlot call).server] := by
    rw [Track.register, server]
  have count : (converter.addToolSlot call).1.nextOutputIndex = converter.nextOutputIndex + 1 := by
    rw [added, ResponsesConverter.emitAll_fst]
  have items : (converter.addToolSlot call).1.outputItems = converter.outputItems ++
      if (converter.newSlot call).server then []
      else [.functionCall (converter.newSlot call).itemId] := by
    rw [added, ResponsesConverter.emitAll_fst]
  have same : converter.serverToolNames.contains (fragmentName call) =
      (converter.newSlot call).server := rfl
  rw [congrArg ResponsesEmission.events added, ResponsesConverter.emitAll_events, opened,
    ResponsesConverter.newSlotChanges, same]
  cases hides : (converter.newSlot call).server with
  | true =>
      rw [hides, if_pos rfl, List.append_nil] at items
      rw [if_pos rfl]
      simp only [itemEvents, List.map_nil, List.append_nil]
      refine shelf.withhold items count (fun id index has => ?_) fun id has => step.textHeld has
      rcases step.holds has with before | ⟨client, _⟩
      · exact before
      · simp [hides] at client
  | false =>
      rw [hides, if_neg (by simp)] at items
      rw [if_neg (by simp)]
      refine shelf.open (.functionCall (converter.newSlot call).itemId)
        (shelf.unmade board (Nat.le_refl _)) items count (fun id index has => ?_)
        (fun id has => step.textHeld has) rfl (by simp [callScript])
      rcases step.holds has with before | ⟨_, mine, placed⟩
      · exact .inl before
      · exact .inr ⟨mine.symm, placed.symm⟩

theorem Shelf.extend (shelf : Shelf exposeThinking opened converter events)
    (board : Board names exposeThinking track converter events) (call : Value) {slot : ToolSlot}
    (held : OrderedMap.lookup (signedCallIndex call) converter.tools = some slot) :
    Shelf exposeThinking opened (converter.feedToolCallArguments call).1
      (events ++ (converter.feedToolCallArguments call).events) := by
  have fed := ResponsesConverter.feedToolCallArguments_held held
  obtain ⟨_, _, slotted⟩ := board.slots _ slot held
  have step := toolStep_extend call held slotted.kind slotted.serial
  have before {id : ItemId} {index : Nat} (client : slot.server = false) (mine : slot.itemId = id)
      (placed : slot.outputIndex = index) : Holds exposeThinking converter id index :=
    .inr ⟨_, slot, held, client, mine, placed⟩
  rw [congrArg ResponsesEmission.events fed, ResponsesConverter.emitAll_events]
  refine shelf.keep ?_ ?_ (fun id index has => ?_) (fun id has => step.textHeld has)
    (shelf.shelved.touch fun said => shelf.holds _ _ (before ?_ rfl rfl))
  · rw [fed, ResponsesConverter.emitAll_fst]
  · rw [fed, ResponsesConverter.emitAll_fst]
  · exact (step.holds has).elim (fun was => was) fun ⟨client, mine, placed⟩ => before client mine placed
  · cases server : slot.server with
    | false => rfl
    | true => simp [server] at said

theorem Shelf.search (shelf : Shelf exposeThinking opened converter events)
    (board : Board names exposeThinking track converter events) (outcome : SearchOutcome) :
    Shelf exposeThinking (opened ++ [true]) (converter.emitWebSearchCall outcome).1
      (events ++ (converter.emitWebSearchCall outcome).events) := by
  let id : ItemId := ⟨.webSearchCall, converter.idsMade⟩
  have emitted : (converter.emitWebSearchCall outcome).events =
      itemEvents id converter.nextOutputIndex
        [.searchStarted, .done (ResponsesConverter.searchItem id outcome)] :=
    ResponsesConverter.emitAll_events ..
  have kept : ∀ kind, (converter.emitWebSearchCall outcome).1.textState kind =
      converter.textState kind := by
    intro kind
    rw [ResponsesConverter.emitWebSearchCall, ResponsesConverter.emitAll_fst]
    cases kind <;> rfl
  have tools : (converter.emitWebSearchCall outcome).1.tools = converter.tools := by
    rw [ResponsesConverter.emitWebSearchCall, ResponsesConverter.emitAll_fst]
  rw [emitted]
  refine shelf.open (.webSearchCall (ResponsesConverter.searchItem id outcome))
    (shelf.unmade board (Nat.le_refl _)) ?_ ?_ (fun other index has => .inl ?_)
    (fun other has => ?_) ⟨rfl, rfl⟩ (by simp)
  · rw [ResponsesConverter.emitWebSearchCall, ResponsesConverter.emitAll_fst]
  · rw [ResponsesConverter.emitWebSearchCall, ResponsesConverter.emitAll_fst]
  · rcases has with ⟨kind, state, shows, held, rest⟩ | ⟨place, slot, held, rest⟩
    · exact .inl ⟨kind, state, shows, (kept kind).symm.trans held, rest⟩
    · exact .inr ⟨place, slot, tools ▸ held, rest⟩
  · obtain ⟨kind, state, shows, held, same⟩ := has
    exact ⟨kind, state, shows, (kept kind).trans held, same⟩

theorem Shelf.aside (shelf : Shelf exposeThinking opened converter events)
    (next : ResponsesConverter) (items : next.outputItems = converter.outputItems)
    (index : next.nextOutputIndex = converter.nextOutputIndex)
    (texts : ∀ kind, next.textState kind = converter.textState kind)
    (tools : next.tools = converter.tools ∨ next.tools = []) {more : List ResponsesEvent}
    (noItems : NoItems more) : Shelf exposeThinking opened next (events ++ more) := by
  refine shelf.keep items index (fun id position held => ?_) (fun id held => ?_)
    (shelf.shelved.more noItems)
  · rcases held with ⟨kind, state, shows, has, rest⟩ | ⟨place, slot, has, rest⟩
    · exact .inl ⟨kind, state, shows, (texts kind).symm.trans has, rest⟩
    · rcases tools with same | dropped
      · exact .inr ⟨place, slot, same ▸ has, rest⟩
      · rw [dropped] at has
        cases has
  · obtain ⟨kind, state, shows, has, same⟩ := held
    exact ⟨kind, state, shows, (texts kind).trans has, same⟩

theorem Shelf.started (shelf : Shelf exposeThinking opened converter events) :
    Shelf exposeThinking opened converter.ensureStarted.1
      (events ++ converter.ensureStarted.events) := by
  rw [ResponsesConverter.ensureStarted]
  split
  next => simpa [ResponsesEmission.events] using shelf
  next =>
    rw [ResponsesConverter.emitAll_events]
    refine shelf.aside _ ?_ ?_ (fun kind => ?_) (.inl ?_) (by simp [NoItems]) <;>
      rw [ResponsesConverter.emitAll_fst]
    cases kind <;> rfl

theorem Shelf.registered (shelf : Shelf exposeThinking track.opened converter events)
    (board : Board names exposeThinking track converter events) (call : Value) :
    Shelf exposeThinking (track.move names exposeThinking (.register call)).opened
      (converter.ensureToolItemAdded call).1
      (events ++ (converter.ensureToolItemAdded call).events) := by
  cases held : OrderedMap.lookup (signedCallIndex call) converter.tools with
  | some slot =>
      obtain ⟨first, found, _⟩ := board.slots _ slot held
      have nothing : converter.ensureToolItemAdded call = (converter, []) := by
        rw [ResponsesConverter.ensureToolItemAdded, held]
        rfl
      rw [nothing, Track.move, if_pos (by rw [found]; rfl)]
      simpa [ResponsesEmission.events] using shelf
  | none =>
      let closed : ResponsesEmission :=
        if converter.tools.isEmpty then converter.closeMessageItem else (converter, [])
      have made : converter.ensureToolItemAdded call =
          closed.andThen fun next => next.addToolSlot call := by
        rw [ResponsesConverter.ensureToolItemAdded, held]
        rfl
      obtain ⟨after, kept⟩ := @Board.closing _ _ _ _ _ board closed rfl
      have closedShelf : Shelf exposeThinking track.closing.opened closed.1
          (events ++ closed.events) := by
        have same : track.closing.opened = track.opened := by
          rw [Track.closing]
          split <;> rfl
        rw [same]
        simp only [closed]
        split
        next => exact shelf.close board .message _ rfl
        next => simpa [ResponsesEmission.events] using shelf
      rw [made, Track.move, if_neg (by rw [(board.noSlots _ held).1]; simp),
        ResponsesEmission.events_andThen, ← List.append_assoc]
      exact closedShelf.addSlot after call (kept ▸ held)

theorem Shelf.moved (shelf : Shelf exposeThinking track.opened converter events)
    (board : Board names exposeThinking track converter events) (move : ConverterMove) :
    Shelf exposeThinking (track.move names exposeThinking move).opened (converter.move move).1
      (events ++ (converter.move move).events) := by
  have quiet : NoItems [] := by simp [NoItems]
  cases move with
  | start => exact shelf.started
  | note chunk =>
      exact shelf.aside (converter.noteChunk chunk) rfl rfl (fun kind => by cases kind <;> rfl)
        (.inl rfl) quiet
  | finish reason =>
      exact shelf.aside { converter with finishReason := reason.or converter.finishReason } rfl rfl
        (fun kind => by cases kind <;> rfl) (.inl rfl) quiet
  | reasoning text =>
      cases exposeThinking with
      | false => exact shelf.feedHidden board rfl text
      | true =>
          have fed := shelf.feed board .reasoning (fun state => !state.partAdded) text rfl
            (fun _ => rfl) fun _ _ partAdded => by simp [partAdded]
          have same : converter.feedReasoning text =
              converter.feedTextItem .reasoning (fun state => !state.partAdded) text := by
            rw [ResponsesConverter.feedReasoning, if_pos board.exposes]
          change Shelf _ _ (converter.feedReasoning text).1
            (events ++ (converter.feedReasoning text).events)
          rw [same]
          exact fed
  | text text =>
      exact shelf.feed board .message (fun state => !state.itemAdded) text rfl (fun _ => rfl)
        fun _ itemAdded _ => by simp [itemAdded]
  | register call => exact shelf.registered board call
  | extend call =>
      have same : (track.move names exposeThinking (.extend call)).opened = track.opened := by
        rw [Track.move]
        split <;> rfl
      rw [same]
      cases held : OrderedMap.lookup (signedCallIndex call) converter.tools with
      | some slot => exact shelf.extend board call held
      | none =>
          have nothing : converter.feedToolCallArguments call = (converter, []) := by
            rw [ResponsesConverter.feedToolCallArguments, held]
          change Shelf _ _ (converter.feedToolCallArguments call).1
            (events ++ (converter.feedToolCallArguments call).events)
          rw [nothing]
          simpa [ResponsesEmission.events] using shelf
  | searched outcome => exact shelf.search board outcome
  | newRound =>
      exact shelf.aside converter.beginNewUpstreamRound rfl rfl (fun kind => by cases kind <;> rfl)
        (.inr rfl) quiet

theorem Shelf.movedAll (shelf : Shelf exposeThinking track.opened converter events)
    (board : Board names exposeThinking track converter events) (moves : List ConverterMove) :
    Shelf exposeThinking (track.moveAll names exposeThinking moves).opened
      (converter.moveAll moves).1 (events ++ (converter.moveAll moves).events) := by
  induction moves generalizing track converter events with
  | nil => simpa [ResponsesConverter.moveAll, ResponsesEmission.events, Track.moveAll] using shelf
  | cons move rest ih =>
      rw [ResponsesConverter.moveAll, ResponsesEmission.events_andThen, ← List.append_assoc]
      exact ih (shelf.moved board move) (board.moved move)

end ClineProxy
