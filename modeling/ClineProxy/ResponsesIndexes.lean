import ClineProxy.ResponsesBudget
import ClineProxy.ResponsesRuns

/-! Output indexes against positions in the response that ends the stream. -/

namespace ClineProxy

open Json Positions ResponsesConverter

/-- Every event of an item carries its position in the response, and every position is used. -/
structure IndexesArePositions (events : List ResponsesEvent) (output : List ResponsesItem) :
    Prop where
  distinct : (output.map ResponsesItem.id).Nodup
  position : ∀ id index change, .item id index change ∈ events →
    (output[index]?).map ResponsesItem.id = some id
  alone : ∀ id other index change changed, .item id index change ∈ events →
    .item other index changed ∈ events → id = other
  filled : ∀ index, (∃ id change, .item id index change ∈ events) ↔ index < output.length

variable {names : List String} {exposeThinking : Bool} {track : Track} {opened : List Bool}
  {converter closed : ResponsesConverter} {events sent : List ResponsesEvent}
  {response : ResponseObject}

theorem Shelved.slotsDone {ids : List ItemId} {tools : List (Int × ToolSlot)}
    (shelved : Shelved ids opened events)
    (placed : ∀ entry ∈ tools, entry.2.done = false ∧ (entry.2.server = false →
      (entry.2.itemId, entry.2.outputIndex) ∈ ids.zip (marked 0 opened))) :
    Shelved ids opened (events ++ ClineProxy.slotsDone tools) := by
  induction tools generalizing events with
  | nil => simpa [ClineProxy.slotsDone] using shelved
  | cons entry rest ih =>
      obtain ⟨going, client⟩ := placed entry (by simp)
      have split : ClineProxy.slotsDone (entry :: rest) =
          itemEvents entry.2.itemId entry.2.outputIndex (slotClosing entry.2) ++
            ClineProxy.slotsDone rest := by
        rw [ClineProxy.slotsDone, List.flatMap_cons, slotDoneEvents_open going]
        rfl
      rw [split, ← List.append_assoc]
      refine ih (shelved.touch fun ends => client ?_) fun other member =>
        placed other (List.mem_cons_of_mem _ member)
      cases server : entry.2.server with
      | false => rfl
      | true => simp [slotClosing, server] at ends

theorem Finish.shelved (finish : Finish names exposeThinking track converter events closed sent
    response) : Shelved (closed.outputItems.map OutputItem.id) track.opened
      (events ++ (converter.finish none).events) := by
  rw [finish.emitted, ← List.append_assoc, ← List.append_assoc]
  refine (finish.shelf.shelved.slotsDone fun entry member => ?_).more (by simp [NoItems])
  have held := OrderedMap.lookup_of_mem int_irrefl finish.board.sorted member
  exact ⟨finish.board.going entry member, fun client =>
    finish.shelf.holds _ _ (.inr ⟨entry.1, entry.2, held, client, rfl, rfl⟩)⟩

theorem Finish.output_ids (finish : Finish names exposeThinking track converter events closed sent
    response) (kept : ¬track.Lost names) :
    response.output.map ResponsesItem.id = closed.outputItems.map OutputItem.id := by
  have final {entry : OutputItem} (member : entry ∈ closed.outputItems) :
      ∃ item, closed.finalItem entry = some item := by
    cases entry with
    | text id => exact ⟨_, rfl⟩
    | webSearchCall item => exact ⟨_, rfl⟩
    | functionCall id =>
        have isCall : id.kind = .functionCall := finish.shelf.backed _ member
        obtain ⟨index, change, sent⟩ := finish.shelf.entry_used member
        have used := List.ne_nil_of_mem (changesOf_used sent)
        by_contra absent
        refine used ((finish.board.left id isCall fun place slot held same => absent ?_).2 ?_)
        · subst same
          exact ⟨slotItem slot, by rw [finalItem, finish.board.slotOf_held held]; rfl⟩
        · exact fun lost => kept (finish.lost_iff.mp lost)
  rw [finish.output, shownOutput]
  generalize closed.outputItems = entries at final
  induction entries with
  | nil => rfl
  | cons entry rest ih =>
      obtain ⟨item, made⟩ := final (List.mem_cons_self ..)
      rw [List.filterMap_cons_some made, List.map_cons, List.map_cons, finalItem_id made,
        ih fun member => final (List.mem_cons_of_mem _ member)]

theorem Finish.indexes_iff (finish : Finish names exposeThinking track converter events closed sent
    response) (kept : ¬track.Lost names) :
    IndexesArePositions (events ++ (converter.finish none).events) response.output ↔
      Packed track.opened := by
  have shelved := finish.shelved
  have ids := finish.output_ids kept
  have distinct := finish.shelf.distinct
  have length : response.output.length = (marked 0 track.opened).length := by
    rw [← shelved.length, ← ids, List.length_map]
  rw [← ids] at shelved distinct
  constructor
  · intro positions
    rw [packed_iff]
    intro index member
    obtain ⟨place, bound, rfl⟩ := List.getElem_of_mem member
    have within : place < (response.output.map ResponsesItem.id).length := shelved.length ▸ bound
    obtain ⟨change, sent⟩ := shelved.used ((response.output.map ResponsesItem.id)[place])
      ((marked 0 track.opened)[place])
      (List.mem_iff_getElem.mpr ⟨place, by simpa using ⟨by simpa using within, bound⟩, by simp⟩)
    exact length ▸ (positions.filled _).mp ⟨_, change, sent⟩
  · intro packed
    have zipped : (response.output.map ResponsesItem.id).zip (marked 0 track.opened) =
        (response.output.map ResponsesItem.id).zipIdx := by
      rw [marked_of_packed packed, ← shelved.length, List.zipIdx_eq_zip_range',
        List.range_eq_range']
    have at_ {id : ItemId} {index : Nat} {change : ItemChange}
        (sent : .item id index change ∈ events ++ (converter.finish none).events) :
        (response.output.map ResponsesItem.id)[index]? = some id := by
      have member := shelved.placed id index change sent
      rw [zipped] at member
      exact List.mk_mem_zipIdx_iff_getElem?.mp member
    refine ⟨distinct, fun id index change sent => ?_, fun id other index change changed one two => ?_,
      fun index => ⟨?_, fun bound => ?_⟩⟩
    · rw [← List.getElem?_map]
      exact at_ sent
    · exact Option.some.inj ((at_ one).symm.trans (at_ two))
    · rintro ⟨id, change, sent⟩
      simpa using (List.getElem?_eq_some_iff.mp (at_ sent)).1
    · have within : index < (response.output.map ResponsesItem.id).length := by simpa using bound
      have member : ((response.output.map ResponsesItem.id)[index], index) ∈
          (response.output.map ResponsesItem.id).zip (marked 0 track.opened) := by
        rw [zipped]
        exact List.mk_mem_zipIdx_iff_getElem?.mpr (List.getElem?_eq_getElem within)
      obtain ⟨change, sent⟩ := shelved.used _ _ member
      exact ⟨_, change, sent⟩

/-- What the moves of a run opened: whether each item is shown. -/
def openings (names : List String) (exposeThinking : Bool) (moves : List ConverterMove) :
    List Bool := (trackOf names exposeThinking moves).opened

/-- Indexes are positions exactly when the run opens no item behind a server call. -/
theorem responses_output_indexes (codec : Codec) (responseId : String) (createdAt : UInt64)
    (model : String) (exposeThinking : Bool) (webSearch : Option ResponsesWebSearchContext)
    (chatBody : Value) (arrivals : List PumpArrival) (response : ResponseObject) :
    let pump := ResponsesPump.start .streamed responseId createdAt model exposeThinking webSearch
      chatBody
    pump.terminal codec arrivals = some response → response.status ≠ .failed →
      (IndexesArePositions ((pump.events codec arrivals).map SequencedEvent.event)
          response.output ↔
        Packed (openings (ResponsesPump.serverToolNames webSearch) exposeThinking
          (pump.moves codec arrivals))) := by
  intro pump ended success
  obtain ⟨going, closed, sent, made, unfinished, guarded, moves, finish⟩ := terminal_finish codec
    .streamed responseId createdAt model exposeThinking webSearch chatBody arrivals ended success
  have emitted := finishing_events pump.converter unfinished none
  rw [← made, ← moves] at emitted
  have events : (pump.events codec arrivals).map SequencedEvent.event =
      (pump.converter.moveAll (pump.moves codec arrivals)).events ++
        ((pump.converter.moveAll (pump.moves codec arrivals)).1.finish none).events := emitted
  have kept := guarded_kept responseId createdAt model (ResponsesPump.serverToolNames webSearch)
    exposeThinking unfinished guarded
  rw [← moves] at kept
  rw [events]
  exact finish.indexes_iff kept

def spokenChunk : Value :=
  chunkOf [("reasoning_content", .string "look"), ("content", .string "hi")] []

def lookupChunk : Value :=
  chunkOf [("tool_calls", .array [wholeCall 0 "call_0" "lookup" "\x7b\x7d"])]
    (finished "tool_calls")

def spokenPump : ResponsesPump := .start .streamed "resp_1" 0 "glm" true none .null

def spokenCodec : Codec := documentCodec [spokenChunk, lookupChunk]

def spokenArrivals : List PumpArrival :=
  [.bytes (eventBytes [spokenChunk]) searchReplies,
    .bytes (eventBytes [lookupChunk] ++ doneBytes) searchReplies]

theorem spoken_terminal : (spokenPump.terminal spokenCodec spokenArrivals).map
    (fun response => (response.status, response.output.length)) = some (.completed, 3) := by
  decide +kernel

theorem responses_output_indexes_spoken :
    ∃ response, spokenPump.terminal spokenCodec spokenArrivals = some response ∧
      response.output.length = 3 ∧ IndexesArePositions
        ((spokenPump.events spokenCodec spokenArrivals).map SequencedEvent.event)
          response.output := by
  obtain ⟨response, ended, known⟩ := Option.map_eq_some_iff.mp spoken_terminal
  obtain ⟨status, length⟩ := Prod.mk.inj known
  have opened : openings [] true (spokenPump.moves spokenCodec spokenArrivals) =
      [true, true, true] := by decide +kernel
  have packed : Packed [true, true, true] := by simp [Packed]
  exact ⟨response, ended, length, (responses_output_indexes spokenCodec "resp_1" 0 "glm" true none
    .null spokenArrivals response ended (by simp [status])).mpr (opened ▸ packed)⟩

def stopArrival : PumpArrival := .bytes (eventBytes [stopChunk] ++ doneBytes) searchReplies

def searchedPump : ResponsesPump :=
  .start .streamed "resp_1" 0 "glm" false (some ⟨2, none⟩) (.object [])

def searchedCodec : Codec := documentCodec [leanQuery, twoSearches, stopChunk]

def searchedArrivals : List PumpArrival := [searchArrival twoSearches, stopArrival]

theorem searched_terminal : (searchedPump.terminal searchedCodec searchedArrivals).map
    (fun response => (response.status, response.output.length)) = some (.completed, 3) := by
  decide +kernel

theorem searched_delta : .item ⟨.text .message, 4⟩ 4 (.delta "hi") ∈
    (searchedPump.events searchedCodec searchedArrivals).map SequencedEvent.event := by
  decide +kernel

theorem responses_output_indexes_fails :
    ∃ response, searchedPump.terminal searchedCodec searchedArrivals = some response ∧
      response.status ≠ .failed ∧ ¬IndexesArePositions
        ((searchedPump.events searchedCodec searchedArrivals).map SequencedEvent.event)
          response.output := by
  obtain ⟨response, ended, known⟩ := Option.map_eq_some_iff.mp searched_terminal
  obtain ⟨status, length⟩ := Prod.mk.inj known
  refine ⟨response, ended, by simp [status], fun positions => ?_⟩
  have bound := (positions.filled 4).mp ⟨_, _, searched_delta⟩
  omega

end ClineProxy
