import ClineProxy.JsonText
import ClineProxy.ResponsesFinish
import ClineProxy.ResponsesHistory
import ClineProxy.ResponsesPumpFacts

/-! The life of an output item, from its announcement to the response that ends the stream. -/

namespace ClineProxy

open Json ResponsesConverter

def ResponsesItem.finalText : ResponsesItem → Option String
  | .text _ content => content
  | .functionCall _ _ _ arguments _ => some arguments
  | .webSearchCall .. => none

namespace ItemChange

def deltaText : ItemChange → Option String
  | delta text => some text
  | _ => none

def finalText : ItemChange → Option String
  | textDone text | partDone text => some text
  | done item => item.finalText
  | _ => none

def announces : ItemChange → Bool
  | added _ => true
  | _ => false

def endsText : ItemChange → Bool
  | textDone _ => true
  | _ => false

def endsPart : ItemChange → Bool
  | partDone _ => true
  | _ => false

def endsItem : ItemChange → Bool
  | done _ => true
  | _ => false

end ItemChange

def deltasOf (changes : List ItemChange) : String :=
  String.join (changes.filterMap ItemChange.deltaText)

/-- A text item has a part, which is ended too. -/
structure ItemLifecycle (id : ItemId) (changes : List ItemChange) (output : List ResponsesItem) :
    Prop where
  announced : ∀ before text after, changes = before ++ .delta text :: after →
    before.any ItemChange.announces = true
  ended : ∀ before change after, changes = before ++ change :: after → change.closes = true →
    ∀ text, .delta text ∉ after
  oneText : changes.countP ItemChange.endsText = 1
  onePart : changes.countP ItemChange.endsPart = if id.kind = .functionCall then 0 else 1
  oneItem : changes.countP ItemChange.endsItem = 1
  repeated : ∀ change ∈ changes, change.closes = true → change.finalText = some (deltasOf changes)
  answered : ∃ item ∈ output, item.id = id
  same : ∀ item ∈ output, item.id = id → item.finalText = some (deltasOf changes)

def KeepsLifecycles (events : List ResponsesEvent) (output : List ResponsesItem) : Prop :=
  ∀ id, id.kind ≠ .webSearchCall →
    (changesOf id events ≠ [] ∨ ∃ item ∈ output, item.id = id) →
      ItemLifecycle id (changesOf id events) output

theorem announced_of_first {item : ResponsesItem} {rest before after : List ItemChange}
    {text : String} (split : .added item :: rest = before ++ .delta text :: after) :
    before.any ItemChange.announces = true := by
  cases before with
  | nil => cases split
  | cons head tail =>
      obtain ⟨rfl, _⟩ := List.cons.inj split
      rfl

theorem ended_of_parts {opening closing before after : List ItemChange} {change : ItemChange}
    (open_ : ∀ one ∈ opening, one.closes = false) (quiet : ∀ text, .delta text ∉ closing)
    (split : opening ++ closing = before ++ change :: after) (closes : change.closes = true) :
    ∀ text, .delta text ∉ after := by
  intro text member
  rcases List.append_eq_append_iff.mp split with ⟨between, _, rfl⟩ | ⟨between, rfl, rest⟩
  · exact quiet text (by simp [member])
  · cases between with
    | nil =>
        rw [List.nil_append] at rest
        exact quiet text (by simp [← rest, member])
    | cons head tail =>
        obtain ⟨rfl, rfl⟩ := List.cons.inj rest
        have never := open_ change (by simp)
        rw [closes] at never
        cases never

theorem deltasOf_append (first second : List ItemChange) :
    deltasOf (first ++ second) = deltasOf first ++ deltasOf second := by
  simp [deltasOf, List.filterMap_append, String.join_append]

theorem deltasOf_deltas (texts : List String) :
    deltasOf (texts.map .delta) = String.join texts := by
  rw [deltasOf, List.filterMap_map]
  exact congrArg String.join (List.filterMap_some ..)

theorem countP_deltas (counts : ItemChange → Bool) (none_ : ∀ text, counts (.delta text) = false)
    (texts : List String) : (texts.map ItemChange.delta).countP counts = 0 := by
  simp [List.countP_eq_zero, none_]

theorem textScript_lifecycle_iff {id : ItemId} {kind : TextKind} (isText : id.kind = .text kind)
    {said : Said} (closed : said.closed = true) {output : List ResponsesItem}
    (answered : ∃ item ∈ output, item.id = id)
    (same : ∀ item ∈ output, item.id = id →
      item.finalText = some (String.join (said.spoken ++ said.resumed))) :
    ItemLifecycle id (textScript id said) output ↔ said.resumed = [] := by
  constructor
  · intro life
    cases resumed : said.resumed with
    | nil => rfl
    | cons text rest =>
        have split : textScript id said =
            (openingChanges id ++ said.spoken.map .delta ++
              [.textDone (String.join said.spoken), .partDone (String.join said.spoken)]) ++
              .done (.text id (some (String.join said.spoken))) ::
                (.delta text :: rest.map .delta) := by
          simp [textScript, closed, closingChanges, resumed]
        exact absurd (by simp) (life.ended _ _ _ split rfl text)
  · intro nothing
    have script : textScript id said = (openingChanges id ++ said.spoken.map .delta) ++
        closingChanges id (String.join said.spoken) := by
      simp [textScript, closed, nothing]
    have deltas : deltasOf (textScript id said) = String.join said.spoken := by
      have front : deltasOf (openingChanges id) = "" := rfl
      have back : deltasOf (closingChanges id (String.join said.spoken)) = "" := rfl
      rw [script, deltasOf_append, deltasOf_append, deltasOf_deltas, front, back, String.empty_append,
        String.append_empty]
    have count (counts : ItemChange → Bool) (none_ : ∀ text, counts (.delta text) = false) :
        (textScript id said).countP counts = (openingChanges id).countP counts +
          (closingChanges id (String.join said.spoken)).countP counts := by
      rw [script, List.countP_append, List.countP_append, countP_deltas counts none_,
        Nat.add_zero]
    refine ⟨fun before text after split => ?_, fun before change after split closes => ?_, ?_, ?_,
      ?_, fun change member closes => ?_, answered, fun item member mine => ?_⟩
    · rw [script, openingChanges] at split
      exact announced_of_first split
    · rw [script] at split
      refine ended_of_parts (fun one member => ?_) (fun text member => ?_) split closes
      · simp only [openingChanges, List.mem_append, List.mem_cons, List.not_mem_nil, or_false,
          List.mem_map] at member
        rcases member with (rfl | rfl) | ⟨text, _, rfl⟩ <;> rfl
      · simp [closingChanges] at member
    · rw [count _ fun _ => rfl]
      rfl
    · rw [count _ fun _ => rfl, if_neg (by simp [isText])]
      rfl
    · rw [count _ fun _ => rfl]
      rfl
    · rw [deltas]
      rw [script, List.mem_append] at member
      rcases member with early | late
      · simp only [openingChanges, List.mem_append, List.mem_cons, List.not_mem_nil, or_false,
          List.mem_map] at early
        rcases early with (rfl | rfl) | ⟨text, _, rfl⟩ <;> cases closes
      · simp only [closingChanges, List.mem_cons, List.not_mem_nil, or_false] at late
        rcases late with rfl | rfl | rfl <;> rfl
    · rw [deltas, same item member mine, nothing, List.append_nil]

theorem callScript_lifecycle {id : ItemId} (isCall : id.kind = .functionCall) {first : Value}
    {fragments : List Value} {slot : ToolSlot} (client : slot.server = false)
    (arguments : slot.arguments = String.join (fragments.map toolCallArguments))
    {output : List ResponsesItem} (answered : ∃ item ∈ output, item.id = id)
    (same : ∀ item ∈ output, item.id = id → item = slotItem slot) :
    ItemLifecycle id (callScript id first fragments ++ slotClosing slot) output := by
  let opening : List ItemChange :=
    [.added (.functionCall id (fragmentId first) (fragmentName first) "" false)]
  have closing : slotClosing slot = [.textDone slot.arguments, .done (slotItem slot)] := by
    rw [slotClosing, client, if_neg (by simp)]
  have script : callScript id first fragments ++ slotClosing slot =
      (opening ++ (argumentDeltas fragments).map .delta) ++ slotClosing slot := rfl
  have deltas : deltasOf (callScript id first fragments ++ slotClosing slot) = slot.arguments := by
    have front : deltasOf opening = "" := rfl
    have back : deltasOf (slotClosing slot) = "" := by
      rw [closing]
      rfl
    rw [script, deltasOf_append, deltasOf_append, deltasOf_deltas, front, back, String.empty_append,
      String.append_empty, join_argumentDeltas, arguments]
  have count (counts : ItemChange → Bool) (none_ : ∀ text, counts (.delta text) = false) :
      (callScript id first fragments ++ slotClosing slot).countP counts =
        opening.countP counts + (slotClosing slot).countP counts := by
    rw [script, List.countP_append, List.countP_append, countP_deltas counts none_, Nat.add_zero]
  refine ⟨fun before text after split => announced_of_first split,
    fun before change after split closes => ?_, ?_, ?_, ?_, fun change member closes => ?_, answered,
    fun item member mine => ?_⟩
  · rw [script] at split
    refine ended_of_parts (fun one member => ?_) (fun text member => ?_) split closes
    · simp only [opening, List.mem_append, List.mem_singleton, List.mem_map] at member
      rcases member with rfl | ⟨text, _, rfl⟩ <;> rfl
    · simp [closing] at member
  · rw [count _ fun _ => rfl, closing]
    rfl
  · rw [count _ fun _ => rfl, closing, if_pos isCall]
    rfl
  · rw [count _ fun _ => rfl, closing]
    rfl
  · rw [deltas]
    rw [script, closing, List.mem_append] at member
    rcases member with early | late
    · simp only [opening, List.mem_append, List.mem_singleton, List.mem_map] at early
      rcases early with rfl | ⟨text, _, rfl⟩ <;> cases closes
    · simp only [List.mem_cons, List.not_mem_nil, or_false] at late
      rcases late with rfl | rfl <;> rfl
  · rw [deltas, same item member mine]
    rfl

section Finish

variable {names : List String} {exposeThinking : Bool} {track : Track}
  {converter closed : ResponsesConverter} {events sent : List ResponsesEvent}
  {response : ResponseObject}

theorem said_finished_message (exposeThinking : Bool) (track : Track) :
    (track.finished exposeThinking).message = track.message.close := by
  rw [Track.finished]
  split <;> rfl

theorem said_finished_reasoning (exposeThinking : Bool) (track : Track) :
    (track.finished exposeThinking).reasoning =
      if exposeThinking then track.reasoning.close else track.reasoning := by
  rw [Track.finished]
  split <;> rfl

theorem Finish.changes (finish : Finish names exposeThinking track converter events closed sent
    response) (id : ItemId) : changesOf id (events ++ (converter.finish none).events) =
      changesOf id (events ++ sent) ++ changesOf id (slotsDone closed.tools) := by
  rw [finish.emitted]
  simp only [changesOf_append, ← List.append_assoc]
  exact List.append_nil _

theorem Board.slots_quiet (board : Board names exposeThinking track closed events) {id : ItemId}
    (apart : ∀ place slot, OrderedMap.lookup place closed.tools = some slot → slot.itemId ≠ id) :
    changesOf id (slotsDone closed.tools) = [] :=
  changesOf_slotsDone_other board.going fun entry member =>
    apart entry.1 entry.2 (OrderedMap.lookup_of_mem int_irrefl board.sorted member)

theorem Finish.changes_text (finish : Finish names exposeThinking track converter events closed sent
    response) {id : ItemId} {kind : TextKind} (isText : id.kind = .text kind) :
    changesOf id (events ++ (converter.finish none).events) = changesOf id (events ++ sent) := by
  rw [finish.changes, finish.board.slots_quiet, List.append_nil]
  intro place slot held same
  obtain ⟨_, _, slotted⟩ := finish.board.slots place slot held
  subst same
  cases isText.symm.trans slotted.kind

theorem Finish.said_closed (_ : Finish names exposeThinking track converter events closed sent
    response) {kind : TextKind} (shows : kind.shown exposeThinking = true)
    (spoken : ((track.finished exposeThinking).said kind).spoken ≠ []) :
    ((track.finished exposeThinking).said kind).closed = true ∧
      ((track.finished exposeThinking).said kind).resumed = (track.said kind).resumed := by
  have same : (track.finished exposeThinking).said kind = (track.said kind).close := by
    cases kind with
    | message => exact said_finished_message exposeThinking track
    | reasoning => exact (said_finished_reasoning exposeThinking track).trans (if_pos shows)
  rw [same] at spoken ⊢
  have begun : (track.said kind).spoken ≠ [] := spoken
  exact ⟨by rw [Said.close_of_spoken begun], rfl⟩

theorem Finish.text_lifecycle_iff (finish : Finish names exposeThinking track converter events
    closed sent response) {kind : TextKind} {state : TextItemState}
    (shows : kind.shown exposeThinking = true) (held : closed.textState kind = some state) :
    ItemLifecycle state.itemId (changesOf state.itemId (events ++ (converter.finish none).events))
      response.output ↔ (track.said kind).resumed = [] := by
  have isText := (finish.board.textIds kind state held).1
  have shown := finish.board.shown kind state shows held
  obtain ⟨ended, resumed⟩ := finish.said_closed shows (finish.board.said kind state held)
  obtain ⟨answered, same⟩ := shown_text finish.board finish.shelf shows held
  rw [finish.changes_text isText, shown.changes, finish.output, ← resumed]
  refine textScript_lifecycle_iff isText ended answered fun item member mine => ?_
  rw [same item member mine, ← shown.accum]
  rfl

theorem Finish.call_lifecycle (finish : Finish names exposeThinking track converter events closed
    sent response) {place : Int} {slot : ToolSlot}
    (held : OrderedMap.lookup place closed.tools = some slot) (client : slot.server = false) :
    ItemLifecycle slot.itemId (changesOf slot.itemId (events ++ (converter.finish none).events))
      response.output := by
  obtain ⟨first, _, slotted⟩ := finish.board.slots place slot held
  obtain ⟨answered, same⟩ := shown_call finish.board finish.shelf held client
  rw [finish.changes, finish.board.changesOf_slotsDone held, slotted.changes, finish.output, client,
    if_neg (by simp)]
  exact callScript_lifecycle slotted.kind client slotted.arguments answered same

theorem Finish.output_used (finish : Finish names exposeThinking track converter events closed sent
    response) {item : ResponsesItem} (member : item ∈ response.output) :
    changesOf item.id (events ++ (converter.finish none).events) ≠ [] := by
  rw [finish.output] at member
  obtain ⟨entry, listed, _, same⟩ := mem_shownOutput member
  obtain ⟨index, change, there⟩ := finish.shelf.entry_used listed
  rw [finish.changes, ← same]
  exact List.ne_nil_of_mem (List.mem_append_left _ (changesOf_used there))

theorem Finish.lifecycles_iff (finish : Finish names exposeThinking track converter events closed
    sent response) (reasoning : track.reasoning.resumed = []) :
    KeepsLifecycles (events ++ (converter.finish none).events) response.output ↔
      track.message.resumed = [] ∧ ¬track.Lost names := by
  have board := finish.board
  have earlier := finish.lost_iff
  constructor
  · intro keeps
    constructor
    · cases held : closed.textState .message with
      | none =>
          have silent := board.silent .message held
          have message := said_finished_message exposeThinking track
          exact congrArg Said.resumed (message.symm.trans silent)
      | some state =>
          have shows : TextKind.message.shown exposeThinking = true := rfl
          have isText := (board.textIds .message state held).1
          obtain ⟨item, member, mine⟩ := (shown_text board finish.shelf shows held).1
          exact (finish.text_lifecycle_iff shows held).mp
            (keeps state.itemId (by simp [isText]) (.inr ⟨item, finish.output ▸ member, mine⟩))
    · intro lost
      obtain ⟨id, isCall, apart, used⟩ := board.lost (earlier.mpr lost)
      have all : changesOf id (events ++ (converter.finish none).events) =
          changesOf id (events ++ sent) := by
        rw [finish.changes, board.slots_quiet apart, List.append_nil]
      have life := keeps id (by simp [isCall]) (.inl (all ▸ used))
      have never : (changesOf id (events ++ sent)).countP ItemChange.endsItem = 0 := by
        rw [List.countP_eq_zero]
        intro change member ends
        have open_ := (board.left id isCall apart).1 change member
        cases change <;> simp [ItemChange.closes, ItemChange.endsItem] at open_ ends
      rw [all] at life
      have once := life.oneItem
      omega
  · rintro ⟨message, kept⟩ id notSearch mentioned
    have used : changesOf id (events ++ (converter.finish none).events) ≠ [] := by
      rcases mentioned with used | ⟨item, member, rfl⟩
      · exact used
      · exact finish.output_used member
    cases kind : id.kind with
    | text text =>
        rw [finish.changes_text kind] at used
        have held : ∃ state, closed.textState text = some state ∧ state.itemId = id := by
          by_contra absent
          exact used (board.otherTexts id text kind fun state held same =>
            absent ⟨state, held, same⟩)
        obtain ⟨state, held, rfl⟩ := held
        have shows : text.shown exposeThinking = true := by
          by_contra hides
          exact used (board.hidden text state (by simpa using hides) held).2
        refine (finish.text_lifecycle_iff shows held).mpr ?_
        cases text with
        | message => exact message
        | reasoning => exact reasoning
    | functionCall =>
        have held : ∃ place slot, OrderedMap.lookup place closed.tools = some slot ∧
            slot.itemId = id := by
          by_contra absent
          have apart : ∀ place slot, OrderedMap.lookup place closed.tools = some slot →
              slot.itemId ≠ id := fun place slot held same => absent ⟨place, slot, held, same⟩
          rw [finish.changes, board.slots_quiet apart, List.append_nil] at used
          exact used ((board.left id kind apart).2 (fun lost => kept (earlier.mp lost)))
        obtain ⟨place, slot, held, rfl⟩ := held
        cases client : slot.server with
        | false => exact finish.call_lifecycle held client
        | true =>
            obtain ⟨_, _, slotted⟩ := board.slots place slot held
            rw [finish.changes, board.changesOf_slotsDone held, slotted.changes, slotClosing,
              client] at used
            exact absurd rfl used
    | webSearchCall => exact absurd kind notSearch

end Finish

/-- The items live as they should exactly when the message is not resumed after a call closed
it, and no call of the client is dropped. -/
theorem responses_item_lifecycle (responseId : String) (createdAt : UInt64) (model : String)
    (exposeThinking : Bool) (names : List String) (calls : List ConverterCall)
    (going : Unfinished calls) :
    let sent := ((withServerTools responseId createdAt model exposeThinking names).applyAll
      (calls ++ [.finish none])).events
    (∃ response, sent.getLast? = some (.terminal response) ∧
      KeepsLifecycles sent response.output) ↔
        ¬Resumes (calls.flatMap callMoves) ∧ ¬Drops names (calls.flatMap callMoves) := by
  intro sent
  let fresh := withServerTools responseId createdAt model exposeThinking names
  let moves := calls.flatMap callMoves
  have start := board_new responseId createdAt model exposeThinking names
  have board := start.movedAll moves
  have shelf : Shelf exposeThinking (trackOf names exposeThinking moves).opened
      (fresh.moveAll moves).1 ([] ++ (fresh.moveAll moves).events) :=
    Shelf.movedAll (shelf_new responseId createdAt model exposeThinking names) start moves
  obtain ⟨closed, more, response, finish⟩ := finish_finish board shelf
  have all : sent = [] ++ (fresh.moveAll moves).events ++
      ((fresh.moveAll moves).1.finish none).events := finishing_events fresh going none
  have last : sent.getLast? = some (.terminal response) := by
    rw [all, finish.emitted, ← List.append_assoc, List.getLast?_concat]
  have message := trackOf_message names exposeThinking moves
  have lost := (trackOf_clients names exposeThinking moves).2
  have lives := finish.lifecycles_iff (trackOf_reasoning names exposeThinking moves).2
  rw [← all] at lives
  have condition : (trackOf names exposeThinking moves).message.resumed = [] ∧
      ¬(trackOf names exposeThinking moves).Lost names ↔ ¬Resumes moves ∧ ¬Drops names moves := by
    rw [← message.resumed, not_not, lost]
  constructor
  · rintro ⟨other, ends, keeps⟩
    obtain rfl := ResponsesEvent.terminal.inj (Option.some.inj (last.symm.trans ends))
    exact condition.mp (lives.mp keeps)
  · intro held
    exact ⟨response, last, lives.mpr (condition.mpr held)⟩

def deltaCall (delta : Map) : ConverterCall :=
  .feedChunk (chunkOf delta [])

theorem responses_item_lifecycle_text :
    let calls := [deltaCall [("content", .string "a")], deltaCall [("content", .string "b")]]
    let sent := ((withServerTools "resp_1" 0 "glm" false [] ).applyAll
      (calls ++ [.finish none])).events
    ∃ response, sent.getLast? = some (.terminal response) ∧
      KeepsLifecycles sent response.output := by
  intro calls
  have told := trackOf_message [] false (calls.flatMap callMoves)
  have clients := (trackOf_clients [] false (calls.flatMap callMoves)).2
  refine (responses_item_lifecycle "resp_1" 0 "glm" false [] calls ?_).mpr ⟨?_, ?_⟩
  · intro call member error
    simp only [calls, List.mem_cons, List.not_mem_nil, or_false] at member
    rcases member with rfl | rfl <;> simp [deltaCall]
  · rw [← told.resumed, not_not]
    decide +kernel
  · rw [← clients]
    rintro ⟨round, member, _⟩
    revert member
    exact List.not_mem_nil

def resumedCalls : List ConverterCall := [
  deltaCall [("content", .string "a")],
  deltaCall [("tool_calls", .array [wholeCall 0 "c" "f" ""])],
  deltaCall [("content", .string "b")]]

def resumedEvents : List ResponsesEvent :=
  ((withServerTools "resp_1" 0 "glm" false []).applyAll (resumedCalls ++ [.finish none])).events

theorem changesOf_resumed : changesOf ⟨.text .message, 0⟩ resumedEvents =
    openingChanges ⟨.text .message, 0⟩ ++ [.delta "a", .textDone "a", .partDone "a",
      .done (.text ⟨.text .message, 0⟩ (some "a")), .delta "b"] := by
  decide +kernel

theorem responses_item_lifecycle_fails :
    Unfinished resumedCalls ∧ ¬∃ response, resumedEvents.getLast? = some (.terminal response) ∧
      KeepsLifecycles resumedEvents response.output := by
  constructor
  · intro call member error
    simp only [resumedCalls, List.mem_cons, List.not_mem_nil, or_false] at member
    rcases member with rfl | rfl | rfl <;> simp [deltaCall]
  · rintro ⟨response, _, keeps⟩
    have life := keeps ⟨.text .message, 0⟩ (by simp) (.inl (by simp [changesOf_resumed]))
    rw [changesOf_resumed] at life
    have quiet := life.ended (openingChanges ⟨.text .message, 0⟩ ++
      [.delta "a", .textDone "a", .partDone "a"]) (.done (.text ⟨.text .message, 0⟩ (some "a")))
      [.delta "b"] rfl rfl "b"
    simp at quiet

end ClineProxy
