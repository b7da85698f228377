import ClineProxy.ResponsesBudget
import ClineProxy.ResponsesLifecycle
import ClineProxy.ResponsesRuns

/-! Function calls: what is announced of them and what they turn out to be. -/

namespace ClineProxy

open Json ResponsesConverter

def ResponsesItem.called : ResponsesItem → Option (String × String)
  | .functionCall _ callId name _ _ => some (callId, name)
  | _ => none

/-- Every function call is announced with the id and the name that it ends with. -/
def AnnouncedComplete (events : List ResponsesEvent) (response : ResponseObject) : Prop :=
  ∀ id index shown callId name, .item id index (.added shown) ∈ events →
    shown.called = some (callId, name) →
      callId ≠ "" ∧ name ≠ "" ∧
      (∃ item ∈ response.output, item.id = id) ∧
      (∀ item ∈ response.output, item.id = id → item.called = some (callId, name)) ∧
      (response.status ≠ .failed → ∃ position item, .item id position (.done item) ∈ events) ∧
      ∀ position item, .item id position (.done item) ∈ events →
        item.called = some (callId, name)

namespace CallRound

def finalId (round : CallRound) (call : Value) : String :=
  lastOr toolCallId (fragmentId call) (round.fragmentsAt (signedCallIndex call))

def finalName (round : CallRound) (call : Value) : String :=
  lastOr toolCallName (fragmentName call) (round.fragmentsAt (signedCallIndex call))

/-- The first fragment of each call of the client says all of its id and name. -/
def NamedAtOnce (names : List String) (round : CallRound) : Prop :=
  ∀ call ∈ round.registered, names.contains (fragmentName call) = false →
    fragmentId call ≠ "" ∧ fragmentName call ≠ "" ∧
      round.finalId call = fragmentId call ∧ round.finalName call = fragmentName call

instance (names : List String) (round : CallRound) : Decidable (round.NamedAtOnce names) :=
  inferInstanceAs (Decidable (∀ call ∈ round.registered, _))

end CallRound

/-- The rounds of a run, with the calls of each. -/
def roundsOf (names : List String) (exposeThinking : Bool) (moves : List ConverterMove) :
    List CallRound :=
  (trackOf names exposeThinking moves).earlier ++ [(trackOf names exposeThinking moves).round]

structure Given (names : List String) (exposeThinking : Bool) (track : Track)
    (converter : ResponsesConverter) (events all : List ResponsesEvent)
    (response : ResponseObject) : Prop where
  board : Board names exposeThinking track converter events
  shelf : Shelf exposeThinking track.opened converter events
  changes : ∀ id, changesOf id all = changesOf id events ++
    if response.status = .failed then [] else changesOf id (slotsDone converter.tools)
  output : response.output = shownOutput converter

theorem textScript_added {id : ItemId} {said : Said} {shown : ResponsesItem}
    (member : .added shown ∈ textScript id said) : shown = .text id none := by
  rw [textScript, List.mem_append, List.mem_append, List.mem_append] at member
  rcases member with ((opening | spoken) | ended) | resumed
  · simpa [openingChanges] using opening
  · simp at spoken
  · split at ended
    next => simp [closingChanges] at ended
    next => cases ended
  · simp at resumed

section Given

variable {names : List String} {exposeThinking : Bool} {track : Track}
  {converter : ResponsesConverter} {events all : List ResponsesEvent} {response : ResponseObject}

theorem mem_of_changesOf {id : ItemId} {change : ItemChange}
    (member : change ∈ changesOf id events) : ∃ index, .item id index change ∈ events := by
  obtain ⟨event, present, same⟩ := List.mem_filterMap.mp member
  cases event with
  | item other index held =>
      simp only [Option.ite_none_right_eq_some, Option.some.injEq] at same
      exact ⟨index, same.1 ▸ same.2 ▸ present⟩
  | created response | inProgress response | terminal response => cases same

theorem Board.called_kind (board : Board names exposeThinking track converter events)
    {id : ItemId} {shown : ResponsesItem} (member : .added shown ∈ changesOf id events)
    (called : shown.called ≠ none) : id.kind = .functionCall := by
  cases kind : id.kind with
  | functionCall => rfl
  | webSearchCall => exact absurd member (board.searches id kind shown)
  | text text =>
      have held : ∃ state, converter.textState text = some state ∧ state.itemId = id := by
        by_contra absent
        rw [board.otherTexts id text kind fun state held same => absent ⟨state, held, same⟩]
          at member
        cases member
      obtain ⟨state, held, rfl⟩ := held
      cases shows : text.shown exposeThinking with
      | false =>
          rw [(board.hidden text state shows held).2] at member
          cases member
      | true =>
          rw [(board.shown text state shows held).changes] at member
          exact absurd (congrArg ResponsesItem.called (textScript_added member)) called

theorem Given.mem_added (given : Given names exposeThinking track converter events all response)
    {id : ItemId} {shown : ResponsesItem} (member : .added shown ∈ changesOf id all) :
    .added shown ∈ changesOf id events := by
  rw [given.changes] at member
  rcases List.mem_append.mp member with before | now
  · exact before
  · split at now
    next => cases now
    next =>
      obtain ⟨index, ended⟩ := mem_of_changesOf now
      obtain ⟨entry, _, done⟩ := List.mem_flatMap.mp ended
      rw [slotDoneEvents] at done
      split at done <;> simp at done

theorem Given.call_changes (given : Given names exposeThinking track converter events all response)
    {place : Int} {slot : ToolSlot} (held : OrderedMap.lookup place converter.tools = some slot)
    (client : slot.server = false) {first : Value} {fragments : List Value}
    (script : changesOf slot.itemId events = callScript slot.itemId first fragments) :
    changesOf slot.itemId all = callScript slot.itemId first fragments ++
      if response.status = .failed then []
      else [.textDone slot.arguments, .done (slotItem slot)] := by
  rw [given.changes, script]
  split
  next => rfl
  next => rw [given.board.changesOf_slotsDone held, slotClosing, client, if_neg (by simp)]

theorem Given.announced_iff (given : Given names exposeThinking track converter events all response)
    (kept : ¬track.Lost names) :
    AnnouncedComplete all response ↔ track.round.NamedAtOnce names := by
  have board := given.board
  constructor
  · intro announced call registered client
    have found := board.own call registered
    cases held : OrderedMap.lookup (signedCallIndex call) converter.tools with
    | none =>
        have absent := (board.noSlots _ held).1
        simp [found] at absent
    | some slot =>
        obtain ⟨first, begun, slotted⟩ := board.slots _ slot held
        obtain rfl := Option.some.inj (found.symm.trans begun)
        have own : slot.server = false := slotted.server.trans client
        have script := slotted.changes
        rw [own, if_neg (by simp)] at script
        have changes := given.call_changes held own script
        obtain ⟨index, added⟩ := @mem_of_changesOf all slot.itemId
          (.added (.functionCall slot.itemId (fragmentId call) (fragmentName call) "" false))
          (by simp [changes, callScript])
        obtain ⟨hasId, hasName, _, same, _⟩ := announced _ _ _ _ _ added rfl
        obtain ⟨⟨item, member, mine⟩, final⟩ := shown_call board given.shelf held own
        have called := same item (given.output ▸ member) mine
        rw [final item member mine] at called
        obtain ⟨idSame, nameSame⟩ := Prod.mk.inj (Option.some.inj called)
        exact ⟨hasId, hasName, slotted.callId.symm.trans idSame,
          slotted.name.symm.trans nameSame⟩
  · intro named id index shown callId name added called
    have member := given.mem_added (changesOf_used added)
    have isCall := board.called_kind member (by simp [called])
    have held : ∃ place slot, OrderedMap.lookup place converter.tools = some slot ∧
        slot.itemId = id := by
      by_contra absent
      rw [(board.left id isCall fun place slot held same => absent ⟨place, slot, held, same⟩).2 kept]
        at member
      cases member
    obtain ⟨place, slot, held, rfl⟩ := held
    obtain ⟨first, begun, slotted⟩ := board.slots _ slot held
    have script := slotted.changes
    cases server : slot.server with
    | true =>
        rw [script, server] at member
        cases member
    | false =>
        rw [server, if_neg (by simp)] at script
        have changes := given.call_changes held server script
        rw [script, callScript] at member
        have whose : shown = .functionCall slot.itemId (fragmentId first) (fragmentName first) "" false := by
          simpa using member
        subst whose
        obtain ⟨rfl, rfl⟩ := Prod.mk.inj (Option.some.inj called)
        obtain ⟨hasId, hasName, finalId, finalName⟩ := named first
          (List.mem_of_find?_eq_some begun) (slotted.server.symm.trans server)
        have place_ : signedCallIndex first = place := by simpa using List.find?_some begun
        rw [CallRound.finalId, place_, ← slotted.callId] at finalId
        rw [CallRound.finalName, place_, ← slotted.name] at finalName
        have final : (slotItem slot).called = some (fragmentId first, fragmentName first) := by
          rw [← finalId, ← finalName]
          rfl
        obtain ⟨⟨item, listed, mine⟩, same⟩ := shown_call board given.shelf held server
        refine ⟨hasId, hasName, ⟨item, given.output ▸ listed, mine⟩, fun other listed mine => ?_,
          fun success => ?_, fun position other done => ?_⟩
        · rw [same other (given.output ▸ listed) mine, final]
        · rw [if_neg success] at changes
          obtain ⟨position, done⟩ := @mem_of_changesOf all slot.itemId (.done (slotItem slot))
            (by simp [changes])
          exact ⟨position, _, done⟩
        · have ended := changesOf_used done
          rw [changes, callScript] at ended
          split at ended
          next => simp at ended
          next =>
            have whose : other = slotItem slot := by simpa using ended
            rw [whose, final]

end Given

theorem round_finished (exposeThinking : Bool) (track : Track) :
    (track.finished exposeThinking).round = track.round ∧
      (track.finished exposeThinking).opened = track.opened := by
  rw [Track.finished]
  split <;> exact ⟨rfl, rfl⟩

theorem EndsIn.given {names : List String} {exposeThinking : Bool} {moves : List ConverterMove}
    {responseId : String} {createdAt : UInt64} {model : String} {response : ResponseObject}
    {error : Option String}
    (ends : EndsIn names exposeThinking moves
      (withServerTools responseId createdAt model exposeThinking names) response error) :
    ∃ track converter events, track.round = (trackOf names exposeThinking moves).round ∧
      track.earlier = (trackOf names exposeThinking moves).earlier ∧
        Given names exposeThinking track converter events
          (((withServerTools responseId createdAt model exposeThinking names).moveAll moves).events ++
            (((withServerTools responseId createdAt model exposeThinking names).moveAll
              moves).1.finish error).events) response := by
  cases error with
  | none =>
      obtain ⟨closed, sent, finish⟩ := ends
      obtain ⟨round, opened⟩ := round_finished exposeThinking (trackOf names exposeThinking moves)
      have success : response.status ≠ .failed := by
        rcases finish.status with status | status <;> simp [status]
      refine ⟨_, closed, _, round, ?_, finish.board, opened ▸ finish.shelf, fun id => ?_,
        finish.output⟩
      · rw [Track.finished, Track.earlier_setSaid]
        split
        next => exact Track.earlier_setSaid ..
        next => rfl
      · rw [finish.changes, if_neg success]
  | some message =>
      have start := board_new responseId createdAt model exposeThinking names
      have board := start.movedAll moves
      have shelf := Shelf.movedAll (shelf_new responseId createdAt model exposeThinking names) start
        moves
      refine ⟨_, _, _, rfl, rfl, board, shelf, fun id => ?_, congrArg ResponseObject.output ends⟩
      have status : response.status = .failed := congrArg ResponseObject.status ends
      have last : changesOf id (((((withServerTools responseId createdAt model exposeThinking
          names).moveAll moves).1).finish (some message)).events) = [] := rfl
      rw [changesOf_append, last, if_pos status]
      rfl

/-- The calls of a run are announced complete exactly when each is named by its first fragment. -/
theorem responses_calls_announced (codec : Codec) (responseId : String) (createdAt : UInt64)
    (model : String) (exposeThinking : Bool) (webSearch : Option ResponsesWebSearchContext)
    (chatBody : Value) (arrivals : List PumpArrival) (response : ResponseObject) :
    let pump := ResponsesPump.start .streamed responseId createdAt model exposeThinking webSearch
      chatBody
    let names := ResponsesPump.serverToolNames webSearch
    pump.terminal codec arrivals = some response →
      (AnnouncedComplete ((pump.events codec arrivals).map SequencedEvent.event) response ↔
        ∀ round ∈ roundsOf names exposeThinking (pump.moves codec arrivals),
          round.NamedAtOnce names) := by
  intro pump names ended
  obtain ⟨going, error, made, unfinished, guarded, moves, ends⟩ := terminal_calls codec .streamed
    responseId createdAt model exposeThinking webSearch chatBody arrivals ended
  obtain ⟨track, converter, events, round, earlier, given⟩ := ends.given
  have emitted := finishing_events pump.converter unfinished error
  rw [← made, ← moves] at emitted
  have all : (pump.events codec arrivals).map SequencedEvent.event =
      (pump.converter.moveAll (pump.moves codec arrivals)).events ++
        ((pump.converter.moveAll (pump.moves codec arrivals)).1.finish error).events := emitted
  have kept := guarded_kept responseId createdAt model names exposeThinking unfinished guarded
  have before : ∀ round ∈ (trackOf names exposeThinking (pump.moves codec arrivals)).earlier,
      round.NamedAtOnce names := by
    intro past member call registered client
    rw [moves] at member
    exact absurd ⟨past, member, call, registered, client⟩ kept
  have unlost : ¬track.Lost names := by
    intro lost
    rw [Track.Lost, earlier, moves] at lost
    exact kept lost
  have announced : AnnouncedComplete ((pump.events codec arrivals).map SequencedEvent.event)
      response ↔ track.round.NamedAtOnce names := by
    rw [all]
    exact given.announced_iff unlost
  rw [announced, round]
  constructor
  · intro now past member
    rcases List.mem_append.mp member with earlier | latest
    · exact before past earlier
    · exact List.mem_singleton.mp latest ▸ now
  · exact fun every => every _ (by simp [roundsOf, names, pump])

def plainPump : ResponsesPump := .start .streamed "resp_1" 0 "glm" false none (.object [])

def chunkArrivals (chunks : List Value) : List PumpArrival :=
  [.bytes (eventBytes chunks ++ doneBytes) searchReplies]

def wholeChunk : Value :=
  chunkOf [("tool_calls", .array [wholeCall 0 "call_0" "f" "{}"])] (finished "tool_calls")

theorem responses_calls_announced_whole : ∃ response,
    plainPump.terminal (documentCodec [wholeChunk]) (chunkArrivals [wholeChunk]) = some response ∧
      AnnouncedComplete ((plainPump.events (documentCodec [wholeChunk])
        (chunkArrivals [wholeChunk])).map SequencedEvent.event) response := by
  have given : (plainPump.terminal (documentCodec [wholeChunk])
      (chunkArrivals [wholeChunk])).isSome = true := by decide +kernel
  obtain ⟨response, ended⟩ := Option.isSome_iff_exists.mp given
  exact ⟨response, ended, (responses_calls_announced (documentCodec [wholeChunk]) "resp_1" 0 "glm"
    false none (.object []) (chunkArrivals [wholeChunk]) response ended).mpr (by decide +kernel)⟩

def lateName : List Value := [
  chunkOf [("tool_calls", .array [.object [("index", .ofNat 0), ("id", .string "call_0")]])] [],
  chunkOf [("tool_calls", .array [wholeCall 0 "call_0" "f" "{}"])] (finished "tool_calls")]

theorem lateName_added :
    .item ⟨.functionCall, 0⟩ 0 (.added (.functionCall ⟨.functionCall, 0⟩ "call_0" "" "" false)) ∈
      (plainPump.events (documentCodec lateName) (chunkArrivals lateName)).map
        SequencedEvent.event := by
  decide +kernel

theorem responses_calls_announced_fails : ∃ response,
    plainPump.terminal (documentCodec lateName) (chunkArrivals lateName) = some response ∧
      ¬AnnouncedComplete ((plainPump.events (documentCodec lateName)
        (chunkArrivals lateName)).map SequencedEvent.event) response := by
  have given : (plainPump.terminal (documentCodec lateName)
      (chunkArrivals lateName)).isSome = true := by decide +kernel
  obtain ⟨response, ended⟩ := Option.isSome_iff_exists.mp given
  exact ⟨response, ended, fun announced => (announced _ _ _ _ _ lateName_added rfl).2.1 rfl⟩

end ClineProxy
