import ClineProxy.ResponsesShelf

/-! The events and the response that a call to finish makes of the board and the shelf. -/

namespace ClineProxy

open Json Positions

variable {names : List String} {exposeThinking : Bool} {track : Track} {opened : List Bool}
  {converter : ResponsesConverter} {events : List ResponsesEvent}

namespace ResponsesConverter

theorem itemText_held {state : TextItemState} {kind : TextKind}
    (held : converter.textState kind = some state) (isText : state.itemId.kind = .text kind) :
    converter.itemText state.itemId = state.accum := by
  simp [itemText, isText, held, Option.filter]

theorem finalItem_id {item : OutputItem} {shown : ResponsesItem}
    (final : converter.finalItem item = some shown) : shown.id = item.id := by
  cases item with
  | text id =>
      cases final
      rfl
  | functionCall id =>
      obtain ⟨slot, found, rfl⟩ := Option.map_eq_some_iff.mp final
      have same : slot.itemId = id := by simpa using List.find?_some found
      exact same
  | webSearchCall item =>
      cases final
      rfl

theorem finalItem_finishTools (converter : ResponsesConverter) (item : OutputItem) :
    converter.finishTools.1.finalItem item = converter.finalItem item := by
  rw [finishTools, emitAll_fst]
  cases item with
  | text id =>
      simp only [finalItem, itemText]
      cases id.kind with
      | text kind => cases kind <;> rfl
      | functionCall | webSearchCall => rfl
  | functionCall id =>
      simp only [finalItem, slotOf, List.map_map, List.find?_map, Option.map_map]
      rfl
  | webSearchCall item => rfl

end ResponsesConverter

open ResponsesConverter

theorem int_irrefl (key : Int) : ¬key < key := by omega

theorem Board.slotOf_held (board : Board names exposeThinking track converter events)
    {place : Int} {slot : ToolSlot} (held : OrderedMap.lookup place converter.tools = some slot) :
    converter.slotOf slot.itemId = some slot := by
  have member : slot ∈ converter.tools.map Prod.snd :=
    List.mem_map_of_mem (OrderedMap.mem_of_lookup held)
  cases found : converter.slotOf slot.itemId with
  | none =>
      have different := List.find?_eq_none.mp found slot member
      simp at different
  | some other =>
      have same : other.itemId = slot.itemId := by simpa using List.find?_some found
      obtain ⟨⟨key, value⟩, there, rfl⟩ := List.mem_map.mp (List.mem_of_find?_eq_some found)
      have kept := OrderedMap.lookup_of_mem int_irrefl board.sorted there
      obtain rfl := board.apart key value place slot kept held same
      exact kept.symm.trans held

def shownOutput (converter : ResponsesConverter) : List ResponsesItem :=
  converter.outputItems.filterMap converter.finalItem

theorem mem_shownOutput {item : ResponsesItem} (member : item ∈ shownOutput converter) :
    ∃ entry ∈ converter.outputItems, converter.finalItem entry = some item ∧
      entry.id = item.id := by
  obtain ⟨entry, there, final⟩ := List.mem_filterMap.mp member
  exact ⟨entry, there, final, (finalItem_id final).symm⟩

theorem Shelf.entry_text (shelf : Shelf exposeThinking opened converter events)
    (board : Board names exposeThinking track converter events) {entry : OutputItem}
    (member : entry ∈ converter.outputItems) {kind : TextKind}
    (isText : entry.id.kind = .text kind) : ∃ state, kind.shown exposeThinking = true ∧
      converter.textState kind = some state ∧ entry = .text state.itemId := by
  have backed := shelf.backed entry member
  cases entry with
  | text id =>
      obtain ⟨other, state, shows, held, rfl⟩ := backed
      have own := (board.textIds other state held).1
      obtain rfl : other = kind := ItemKind.text.inj (own.symm.trans isText)
      exact ⟨state, shows, held, rfl⟩
  | functionCall id => cases isText.symm.trans backed
  | webSearchCall item => cases isText.symm.trans backed.1

theorem Shelf.entry_call (shelf : Shelf exposeThinking opened converter events)
    (board : Board names exposeThinking track converter events) {entry : OutputItem}
    (member : entry ∈ converter.outputItems) (isCall : entry.id.kind = .functionCall) :
    entry = .functionCall entry.id := by
  have backed := shelf.backed entry member
  cases entry with
  | text id =>
      obtain ⟨kind, state, _, held, rfl⟩ := backed
      cases (board.textIds kind state held).1.symm.trans isCall
  | functionCall id => rfl
  | webSearchCall item => cases isCall.symm.trans backed.1

theorem Shelf.entry_of_holds (shelf : Shelf exposeThinking opened converter events) {id : ItemId}
    {index : Nat} (holds : Holds exposeThinking converter id index) :
    ∃ entry ∈ converter.outputItems, entry.id = id :=
  List.mem_map.mp (List.of_mem_zip (shelf.holds id index holds)).1

theorem Shelf.entry_used (shelf : Shelf exposeThinking opened converter events)
    {entry : OutputItem} (member : entry ∈ converter.outputItems) :
    ∃ index change, .item entry.id index change ∈ events := by
  have listed : entry.id ∈ converter.outputItems.map OutputItem.id := List.mem_map_of_mem member
  obtain ⟨place, bound, at_⟩ := List.getElem_of_mem listed
  have within : place < (marked 0 opened).length := shelf.shelved.length ▸ bound
  obtain ⟨change, sent⟩ := shelf.shelved.used entry.id ((marked 0 opened)[place])
    (List.mem_iff_getElem.mpr ⟨place, by simpa using ⟨by simpa using bound, within⟩, by simp [at_]⟩)
  exact ⟨_, change, sent⟩

theorem changesOf_used {id : ItemId} {index : Nat} {change : ItemChange}
    (sent : .item id index change ∈ events) : change ∈ changesOf id events :=
  List.mem_filterMap.mpr ⟨_, sent, by simp⟩

theorem shown_text (board : Board names exposeThinking track converter events)
    (shelf : Shelf exposeThinking opened converter events) {kind : TextKind} {state : TextItemState}
    (shows : kind.shown exposeThinking = true) (held : converter.textState kind = some state) :
    (∃ item ∈ shownOutput converter, item.id = state.itemId) ∧
      ∀ item ∈ shownOutput converter, item.id = state.itemId →
        item = .text state.itemId (some state.accum) := by
  have isText := (board.textIds kind state held).1
  have final : converter.finalItem (.text state.itemId) =
      some (.text state.itemId (some state.accum)) :=
    congrArg (fun text => some (ResponsesItem.text state.itemId (some text)))
      (itemText_held held isText)
  have entry {entry : OutputItem} (member : entry ∈ converter.outputItems)
      (mine : entry.id = state.itemId) : entry = .text state.itemId := by
    obtain ⟨other, _, found, same⟩ := shelf.entry_text board member (mine ▸ isText)
    obtain rfl := Option.some.inj (held.symm.trans found)
    exact same
  obtain ⟨index, placed⟩ := Option.isSome_iff_exists.mp (board.shown kind state shows held).placed
  constructor
  · obtain ⟨there, member, mine⟩ := shelf.entry_of_holds
      (.inl ⟨kind, state, shows, held, rfl, placed⟩)
    obtain rfl := entry member mine
    exact ⟨_, List.mem_filterMap.mpr ⟨_, member, final⟩, rfl⟩
  · intro item member mine
    obtain ⟨there, listed, made, same⟩ := mem_shownOutput member
    obtain rfl := entry listed (same.trans mine)
    exact Option.some.inj (made.symm.trans final)

theorem shown_call (board : Board names exposeThinking track converter events)
    (shelf : Shelf exposeThinking opened converter events) {place : Int} {slot : ToolSlot}
    (held : OrderedMap.lookup place converter.tools = some slot) (client : slot.server = false) :
    (∃ item ∈ shownOutput converter, item.id = slot.itemId) ∧
      ∀ item ∈ shownOutput converter, item.id = slot.itemId → item = slotItem slot := by
  obtain ⟨_, _, slotted⟩ := board.slots place slot held
  have final : converter.finalItem (.functionCall slot.itemId) = some (slotItem slot) := by
    rw [finalItem, board.slotOf_held held]
    rfl
  have entry {entry : OutputItem} (member : entry ∈ converter.outputItems)
      (mine : entry.id = slot.itemId) : entry = .functionCall slot.itemId :=
    mine ▸ shelf.entry_call board member (mine ▸ slotted.kind)
  constructor
  · obtain ⟨there, member, mine⟩ := shelf.entry_of_holds (.inr ⟨place, slot, held, client, rfl, rfl⟩)
    obtain rfl := entry member mine
    exact ⟨_, List.mem_filterMap.mpr ⟨_, member, final⟩, rfl⟩
  · intro item member mine
    obtain ⟨there, listed, made, same⟩ := mem_shownOutput member
    obtain rfl := entry listed (same.trans mine)
    exact Option.some.inj (made.symm.trans final)

def slotsDone (tools : List (Int × ToolSlot)) : List ResponsesEvent :=
  tools.flatMap fun entry => slotDoneEvents entry.2

def slotClosing (slot : ToolSlot) : List ItemChange :=
  if slot.server then [] else [.textDone slot.arguments, .done (slotItem slot)]

theorem slotDoneEvents_open {slot : ToolSlot} (going : slot.done = false) :
    slotDoneEvents slot = itemEvents slot.itemId slot.outputIndex (slotClosing slot) := by
  rw [slotDoneEvents, slotClosing, going, Bool.false_or]
  split <;> rfl

theorem changesOf_slotsDone_other {id : ItemId} {tools : List (Int × ToolSlot)}
    (going : ∀ entry ∈ tools, entry.2.done = false)
    (apart : ∀ entry ∈ tools, entry.2.itemId ≠ id) : changesOf id (slotsDone tools) = [] := by
  induction tools with
  | nil => rfl
  | cons entry rest ih =>
      rw [slotsDone, List.flatMap_cons, changesOf_append,
        slotDoneEvents_open (going entry (by simp)),
        changesOf_other (apart entry (by simp))]
      exact ih (fun other member => going other (List.mem_cons_of_mem _ member))
        fun other member => apart other (List.mem_cons_of_mem _ member)

theorem Board.going (board : Board names exposeThinking track converter events) :
    ∀ entry ∈ converter.tools, entry.2.done = false := by
  intro entry member
  have held := OrderedMap.lookup_of_mem int_irrefl board.sorted member
  obtain ⟨_, _, slotted⟩ := board.slots _ _ held
  exact slotted.done

theorem Board.changesOf_slotsDone (board : Board names exposeThinking track converter events)
    {place : Int} {slot : ToolSlot} (held : OrderedMap.lookup place converter.tools = some slot) :
    changesOf slot.itemId (slotsDone converter.tools) = slotClosing slot := by
  obtain ⟨before, after, split⟩ := List.append_of_mem (OrderedMap.mem_of_lookup held)
  have going := board.going
  have sorted := board.sorted
  rw [OrderedMap.Sorted, split, List.pairwise_append, List.pairwise_cons] at sorted
  have apart (entry : Int × ToolSlot) (member : entry ∈ before ∨ entry ∈ after) :
      entry.2.itemId ≠ slot.itemId := by
    intro same
    have there : entry ∈ converter.tools := by
      rw [split, List.mem_append, List.mem_cons]
      exact member.imp_right .inr
    have kept := OrderedMap.lookup_of_mem int_irrefl board.sorted there
    have equal := board.apart entry.1 entry.2 place slot kept held same
    rcases member with early | late
    · have below := sorted.2.2 entry early (place, slot) (by simp)
      simp [equal] at below
    · have above := sorted.2.1.1 entry late
      simp [equal] at above
  rw [split] at going ⊢
  have own : slotsDone (before ++ (place, slot) :: after) =
      slotsDone before ++ (slotDoneEvents slot ++ slotsDone after) := by
    simp [slotsDone]
  rw [own, changesOf_append, changesOf_append,
    changesOf_slotsDone_other (fun entry member => going entry (by simp [member]))
      fun entry member => apart entry (.inl member),
    changesOf_slotsDone_other (fun entry member => going entry (by simp [member]))
      fun entry member => apart entry (.inr member),
    slotDoneEvents_open (going (place, slot) (by simp)), changesOf_same, List.nil_append,
    List.append_nil]

def Track.finished (exposeThinking : Bool) (track : Track) : Track :=
  let reasoned :=
    if exposeThinking then track.setSaid .reasoning (track.said .reasoning).close else track
  reasoned.setSaid .message (reasoned.said .message).close

/-- What a call to finish leaves: every text is closed, and the slots come last. -/
structure Finish (names : List String) (exposeThinking : Bool) (track : Track)
    (converter : ResponsesConverter) (events : List ResponsesEvent)
    (closed : ResponsesConverter) (sent : List ResponsesEvent) (response : ResponseObject) :
    Prop where
  board : Board names exposeThinking (track.finished exposeThinking) closed (events ++ sent)
  shelf : Shelf exposeThinking track.opened closed (events ++ sent)
  emitted : (converter.finish none).events = sent ++ slotsDone closed.tools ++ [.terminal response]
  output : response.output = shownOutput closed
  answered : (converter.finish none).1.nonstreamResponse = response
  status : response.status = .completed ∨ response.status = .incomplete
  tools : closed.tools = converter.tools
  items : closed.outputItems = converter.outputItems

theorem kept_closeTextItem (converter : ResponsesConverter) (kind : TextKind)
    (closes : TextItemState → Bool) :
    (converter.closeTextItem kind closes).1.tools = converter.tools ∧
      (converter.closeTextItem kind closes).1.outputItems = converter.outputItems ∧
        (converter.closeTextItem kind closes).1.error = converter.error := by
  rw [closeTextItem]
  split
  next => exact ⟨rfl, rfl, rfl⟩
  next state _ =>
    split
    next =>
      rw [emitAll_fst]
      cases kind <;> exact ⟨rfl, rfl, rfl⟩
    next => exact ⟨rfl, rfl, rfl⟩

theorem closeReasoningItem_board (board : Board names exposeThinking track converter events)
    (shelf : Shelf exposeThinking track.opened converter events) :
    Board names exposeThinking
        (if exposeThinking then track.setSaid .reasoning (track.said .reasoning).close else track)
        converter.closeReasoningItem.1 (events ++ converter.closeReasoningItem.events) ∧
      Shelf exposeThinking track.opened converter.closeReasoningItem.1
        (events ++ converter.closeReasoningItem.events) := by
  cases exposeThinking with
  | true =>
      exact ⟨board.close .reasoning _ rfl fun state added => by simp [added],
        shelf.close board .reasoning _ rfl⟩
  | false =>
      have nothing : converter.closeReasoningItem = (converter, []) := by
        rw [closeReasoningItem]
        cases held : converter.textState .reasoning with
        | none => rw [closeTextItem, held]
        | some state =>
            have hidden := (board.hidden .reasoning state rfl held).1
            exact closeTextItem_closed held (by simp [hidden])
      rw [nothing]
      exact ⟨by simpa [ResponsesEmission.events] using board,
        by simpa [ResponsesEmission.events] using shelf⟩

theorem finish_finish (board : Board names exposeThinking track converter events)
    (shelf : Shelf exposeThinking track.opened converter events) :
    ∃ closed sent response, Finish names exposeThinking track converter events closed sent
      response := by
  let noted : ResponsesConverter := { converter with error := none }
  have notedBoard : Board names exposeThinking track noted events :=
    board.same ⟨rfl, rfl, rfl, rfl, rfl, rfl⟩
  have notedShelf : Shelf exposeThinking track.opened noted events := by
    have kept : Shelf exposeThinking track.opened noted (events ++ []) :=
      shelf.aside noted rfl rfl (fun kind => by cases kind <;> rfl) (.inl rfl) (by simp [NoItems])
    simpa using kept
  let reasoned := noted.closeReasoningItem
  let messaged := reasoned.1.closeMessageItem
  obtain ⟨firstBoard, firstShelf⟩ := closeReasoningItem_board notedBoard notedShelf
  have secondBoard := firstBoard.close .message (fun state => !state.itemDone) rfl fun _ _ => rfl
  have secondShelf := firstShelf.close firstBoard .message (fun state => !state.itemDone) rfl
  have finished : converter.finish none =
      ((reasoned.andThen closeMessageItem).andThen finishTools).andThen
        fun next => next.emit (.terminal next.successResponse) := rfl
  have first := kept_closeTextItem noted .reasoning fun state => state.itemAdded && !state.itemDone
  have second := kept_closeTextItem reasoned.1 .message fun state => !state.itemDone
  have whole : (converter.finish none).1.error = none := by
    have slots : messaged.1.finishTools.1.error = messaged.1.error := by
      rw [finishTools, emitAll_fst]
    exact slots.trans (second.2.2.trans first.2.2)
  refine ⟨messaged.1, reasoned.events ++ messaged.events, messaged.1.finishTools.1.successResponse,
    ?_, ?_, ?_, ?_, ?_, ?_, second.1.trans first.1, second.2.1.trans first.2.1⟩
  · rw [← List.append_assoc]
    exact secondBoard
  · rw [← List.append_assoc]
    exact secondShelf
  · rw [finished, ResponsesEmission.events_andThen, ResponsesEmission.events_andThen,
      ResponsesEmission.events_andThen]
    have slots : messaged.1.finishTools.events = slotsDone messaged.1.tools :=
      emitAll_events ..
    exact congrArg (fun done => reasoned.events ++ messaged.events ++ done ++ _) slots
  · have same : messaged.1.finishTools.1.outputItems = messaged.1.outputItems := by
      rw [finishTools, emitAll_fst]
    change messaged.1.finishTools.1.outputItems.filterMap messaged.1.finishTools.1.finalItem = _
    rw [same]
    exact List.filterMap_congr fun item _ => finalItem_finishTools _ item
  · rw [nonstreamResponse, whole]
    rfl
  · have either (last : ResponsesConverter) :
        last.successStatus = .completed ∨ last.successStatus = .incomplete := by
      rw [successStatus]
      split
      next => exact .inr rfl
      next => exact .inl rfl
    exact either _

theorem Finish.lost_iff {closed : ResponsesConverter} {sent : List ResponsesEvent}
    {response : ResponseObject}
    (_ : Finish names exposeThinking track converter events closed sent response) :
    (track.finished exposeThinking).Lost names ↔ track.Lost names := by
  rw [Track.Lost, Track.finished, Track.earlier_setSaid]
  split
  next => rw [Track.earlier_setSaid, Track.Lost]
  next => rw [Track.Lost]

end ClineProxy
