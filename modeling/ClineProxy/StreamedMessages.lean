import ClineProxy.JsonText
import ClineProxy.StreamedBlocks

/-! The message that a client has at the end of a stream without server tools. -/

namespace ClineProxy

open Json FirstSeen OpenedBlocks
open StreamState (fragmentCalls)

def SseFrame.isContent : SseFrame → Bool
  | .blockStart .. | .blockDelta .. | .blockStop _ => true
  | _ => false

namespace StreamState

theorem isContent_delta (state : StreamState) (index : Option Nat) (kind field text : String) :
    ∀ frame ∈ (state.delta index kind field text).2, frame.isContent = true := by
  cases index <;> simp [delta, SseFrame.isContent]

theorem isContent_appendArguments (state : StreamState) (index : UInt64) (arguments : String) :
    ∀ frame ∈ (state.appendArguments index arguments).2, frame.isContent = true := by
  rw [appendArguments]
  split
  next => simp
  next => split <;> simp [SseFrame.isContent]

theorem isContent_startTool (state : StreamState) (index : UInt64) (tool : ToolStream) :
    ∀ frame ∈ (state.startTool index tool).2, frame.isContent = true := by
  simp only [startTool, pushBlock]
  split <;> simp [SseFrame.isContent]

theorem isContent_handleFragment (state : StreamState) (fragment : Fragment) :
    ∀ frame ∈ (state.handleFragment fragment).2, frame.isContent = true := by
  intro frame member
  cases fragment with
  | reasoning said =>
      rcases List.mem_append.mp member with opened | added
      · rw [ensureThinking] at opened
        split at opened
        next => cases opened
        next =>
          rw [List.mem_singleton.mp opened]
          rfl
      · exact isContent_delta _ _ _ _ _ frame added
  | text said =>
      rcases List.mem_append.mp member with opened | added
      · rw [ensureText] at opened
        split at opened
        next => cases opened
        next =>
          rw [List.mem_singleton.mp opened]
          rfl
      · exact isContent_delta _ _ _ _ _ frame added
  | call call =>
      rcases List.mem_append.mp member with opened | added
      · split at opened
        next => exact isContent_startTool _ _ _ frame opened
        next => cases opened
      · exact isContent_appendArguments _ _ _ frame added

theorem isContent_handleFragments (fragments : List Fragment) (state : StreamState) :
    ∀ frame ∈ (state.handleFragments fragments).2, frame.isContent = true := by
  induction fragments generalizing state with
  | nil => simp [handleFragments]
  | cons fragment rest ih =>
      intro frame member
      rcases List.mem_append.mp member with first | later
      · exact isContent_handleFragment state fragment frame first
      · exact ih _ frame later

end StreamState

theorem ClientMessage.read_content (client : ClientMessage) {frames : List SseFrame}
    (content : ∀ frame ∈ frames, frame.isContent = true) :
    client.readAll frames = { client with blocks := (client.readAll frames).blocks } := by
  induction frames generalizing client with
  | nil => rfl
  | cons frame rest ih =>
      have later := ih (client.read frame) fun other member =>
        content other (List.mem_cons_of_mem _ member)
      rw [readAll, List.foldl_cons, ← readAll, later]
      have first := content frame List.mem_cons_self
      cases frame with
      | blockStart | blockDelta | blockStop => rfl
      | messageStart | messageDelta | messageStop | error | ping => cases first

def streamFragments (exposeThinking : Bool) (values : List Value) : List Fragment :=
  values.flatMap (chunkFragments exposeThinking)

/-- The last usage that is there, whatever it is. -/
def lastUsageMember (values : List Value) : Value :=
  (values.reverse.findSome? fun value => value.get "usage").getD (.object [])

def chunkStop (value : Value) : Option Value :=
  (firstChoice value).bind fun choice => choice.get "stop_sequence"

def lastStop (values : List Value) : Value := (values.reverse.findSome? chunkStop).getD .null

def startedMessage (requestId fallbackModel : String) (value : Value) : Value := .object [
  ("id", .string (((value.get "id").bind Value.asStr).getD requestId)),
  ("type", .string "message"), ("role", .string "assistant"), ("content", .array []),
  ("model", .string (((value.get "model").bind Value.asStr).getD fallbackModel)),
  ("stop_reason", .null), ("stop_sequence", .null),
  ("usage", .object [("input_tokens", .ofNat 0), ("output_tokens", .ofNat 0),
    ("cache_creation_input_tokens", .ofNat 0), ("cache_read_input_tokens", .ofNat 0)])]

/-- A stream that was read up to some chunk. -/
structure StreamedTo (requestId fallbackModel : String) (exposeThinking : Bool)
    (values : List Value) (state : StreamState) (client : ClientMessage) : Prop where
  assembled : Assembled (streamFragments exposeThinking values) state client
  tools : StreamState.ToolsRead (allCalls values) state.tools
  noted : state = { StreamState.new requestId fallbackModel exposeThinking with
    started := !values.isEmpty
    blocks := state.blocks
    textIndex := state.textIndex
    thinkingIndex := state.thinkingIndex
    tools := state.tools
    finishReason := lastFinish values
    stopSequence := lastStop values
    usage := lastUsageMember values }
  read : client = ⟨values.head?.map (startedMessage requestId fallbackModel), client.blocks, none,
    false⟩

namespace StreamedTo

variable {requestId fallbackModel : String} {exposeThinking : Bool} {values : List Value}
  {state : StreamState} {client : ClientMessage}

theorem start (requestId fallbackModel : String) (exposeThinking : Bool) :
    StreamedTo requestId fallbackModel exposeThinking []
      (.new requestId fallbackModel exposeThinking) .empty where
  assembled := ⟨rfl, rfl, rfl, rfl, fun _ => rfl, rfl, rfl⟩
  tools := StreamState.toolsRead_nil
  noted := rfl
  read := rfl

theorem chunk (held : StreamedTo requestId fallbackModel exposeThinking values state client)
    (value : Value) :
    StreamedTo requestId fallbackModel exposeThinking (values ++ [value])
      (state.handleValue value).1 (client.readAll (state.handleValue value).2) := by
  have exposes : state.exposeThinking = exposeThinking := by
    rw [held.noted]
    rfl
  have begun : client.readAll (state.start value).2 = { client with
      message := (values ++ [value]).head?.map (startedMessage requestId fallbackModel) } := by
    rw [StreamState.start]
    cases values with
    | nil =>
        have fresh : state.started = false := by
          rw [held.noted]
          rfl
        rw [if_neg (by simp [fresh])]
        have frame : state.messageStart value =
            .messageStart (startedMessage requestId fallbackModel value) := by
          rw [held.noted]
          rfl
        rw [frame]
        rfl
    | cons first rest =>
        have started : state.started = true := by
          rw [held.noted]
          rfl
        rw [if_pos started, held.read]
        rfl
  have assembled : Assembled (streamFragments exposeThinking values) (state.noted value)
      (client.readAll (state.start value).2) := by
    rw [begun]
    exact { held.assembled with }
  have read := assembled.readFragments (chunkFragments exposeThinking value)
  have grown := StreamState.grows_handleValue state value
  have tools := StreamState.toolsRead_handleValue held.tools value
  have calls : allCalls values ++ chunkCalls value = allCalls (values ++ [value]) := by
    simp [allCalls]
  rw [calls] at tools
  have same : (state.handleValue value).2 = (state.start value).2 ++
      ((state.noted value).handleFragments (chunkFragments exposeThinking value)).2 := by
    rw [StreamState.handleValue_eq, exposes]
    rfl
  refine ⟨?_, tools, ?_, ?_⟩
  · have fragments : streamFragments exposeThinking (values ++ [value]) =
        streamFragments exposeThinking values ++ chunkFragments exposeThinking value := by
      simp [streamFragments]
    rw [fragments, same, ClientMessage.readAll_append, StreamState.handleValue_eq, exposes]
    exact read
  · rw [StreamState.Grows] at grown
    have finish : (chunkFinish value).or (lastFinish values) = lastFinish (values ++ [value]) := by
      cases said : chunkFinish value <;> simp [lastFinish, said]
    have stop : (chunkStop value).getD (lastStop values) = lastStop (values ++ [value]) := by
      cases said : chunkStop value <;> simp [lastStop, said]
    have usage : (value.get "usage").getD (lastUsageMember values) = lastUsageMember (values ++ [value]) := by
      cases said : value.get "usage" <;> simp [lastUsageMember, said]
    have filled : (!(values ++ [value]).isEmpty) = true := by simp
    rw [← finish, ← stop, ← usage, filled, grown, StreamState.noted, held.noted]
    rfl
  · rw [same, ClientMessage.readAll_append, begun, ClientMessage.read_content _
      (StreamState.isContent_handleFragments _ _), held.read]

theorem chunks (requestId fallbackModel : String) (exposeThinking : Bool) (values : List Value) :
    let run := values.foldl (fun (run : Emission) value =>
      run.andThen fun state => state.handleValue value)
      (.new requestId fallbackModel exposeThinking, [])
    StreamedTo requestId fallbackModel exposeThinking values run.1
      (ClientMessage.empty.readAll run.2) := by
  induction values using List.reverseRecOn with
  | nil => exact start requestId fallbackModel exposeThinking
  | append_singleton values value ih =>
      dsimp only at ih ⊢
      rw [List.foldl_append, List.foldl_cons, List.foldl_nil, Emission.andThen,
        ClientMessage.readAll_append]
      exact ih.chunk value

end StreamedTo

/-- The tools without a name and without arguments, in the order in which they were seen. -/
def lateIndexes (fragments : List Fragment) : List UInt64 :=
  (seenIndexes (fragmentCalls fragments)).filter fun index =>
    .tool index ∉ openedKeys fragments

def lateBlock (fragments : List Fragment) (index : UInt64) : ClientBlock :=
  .start (toolBlock (idOr index (lastIdAt toolCallIndex index (fragmentCalls fragments)))
    "unknown" (.object []))

namespace Assembled

variable {fragments : List Fragment} {state : StreamState} {client : ClientMessage}

theorem unopenedTools_perm (held : Assembled fragments state client)
    (sorted : OrderedMap.Sorted state.tools) (platform : Platform) :
    (state.unopenedTools platform).Perm (lateIndexes fragments) := by
  have keys : (state.tools.map Prod.fst).Perm (seenIndexes (fragmentCalls fragments)) := by
    refine (List.perm_ext_iff_of_nodup
      (OrderedMap.nodup_of_sorted (fun _ => UInt64.lt_irrefl _) sorted)
      (nodup_firstSeen _)).mpr fun index => ?_
    rw [← not_iff_not, ← OrderedMap.lookup_of_fresh_key, ← seenIndexes, mem_seenIndexes, held.tools,
      heldTool, not_not]
    split
    next unsaid => simp [unsaid]
    next said => simp [said]
  refine ((platform.order_perm _).trans keys |>.filter _).trans (List.Perm.of_eq ?_)
  refine List.filter_congr fun index member => ?_
  have said : callsAt index (fragmentCalls fragments) ≠ [] := mem_seenIndexes.mp member
  rw [held.tools, heldTool, if_neg said, Option.any_some, Bool.not_false, Bool.and_true]
  cases place : position (.tool index) (openedKeys fragments) with
  | none => simpa using position_eq_none.mp place
  | some found =>
      have opened : BlockKey.tool index ∈ openedKeys fragments := by
        by_contra closed
        rw [position_eq_none.mpr closed] at place
        cases place
      simpa using opened

theorem openTools_blocks {late : List UInt64} (distinct : late.Nodup)
    (tools : ∀ index ∈ late, OrderedMap.lookup index state.tools = heldTool fragments index)
    (closed : ∀ index ∈ late, index ∈ lateIndexes fragments)
    (aligned : state.blocks.length = client.blocks.length) :
    (state.openTools late).1.blocks = state.blocks ++ late.map (fun _ => .tool) ∧
      client.readAll (state.openTools late).2 = { client with
        blocks := client.blocks ++ late.map (lateBlock fragments) } := by
  induction late generalizing state client with
  | nil => simp [StreamState.openTools, ClientMessage.readAll]
  | cons index rest ih =>
      obtain ⟨apart, distinct⟩ := List.nodup_cons.mp distinct
      obtain ⟨seen, fresh⟩ := List.mem_filter.mp (closed index List.mem_cons_self)
      have fresh := of_decide_eq_true fresh
      have unnamed := lastName_silent (silent_of_closed fresh)
      have tool : (OrderedMap.lookup index state.tools).getD .empty = {
          blockIndex := none
          id := lastIdAt toolCallIndex index (fragmentCalls fragments)
          name := none
          pendingArguments := ""
          server := false } := by
        rw [tools index List.mem_cons_self, heldTool_getD, unnamed, position_eq_none.mpr fresh]
      have started : state.startTool index ((OrderedMap.lookup index state.tools).getD .empty) =
          ({ state with
              blocks := state.blocks ++ [.tool]
              tools := OrderedMap.insert index {
                blockIndex := some state.blocks.length
                id := lastIdAt toolCallIndex index (fragmentCalls fragments)
                name := none
                pendingArguments := ""
                server := false } state.tools },
            [.blockStart state.blocks.length (lateBlock fragments index).opened]) := by
        rw [tool]
        rfl
      have others : ∀ other ∈ rest, OrderedMap.lookup other (OrderedMap.insert index
          ⟨some state.blocks.length, lastIdAt toolCallIndex index (fragmentCalls fragments), none,
            "", false⟩ state.tools) = heldTool fragments other := by
        intro other member
        rw [OrderedMap.lookup_insert, if_neg fun same : other = index => apart (same ▸ member)]
        exact tools other (List.mem_cons_of_mem _ member)
      obtain ⟨blocks, read⟩ := @ih
        { state with
          blocks := state.blocks ++ [.tool]
          tools := OrderedMap.insert index ⟨some state.blocks.length,
            lastIdAt toolCallIndex index (fragmentCalls fragments), none, "", false⟩ state.tools }
        (client.read (.blockStart state.blocks.length (lateBlock fragments index).opened))
        distinct others (fun other member => closed other (List.mem_cons_of_mem _ member))
        (by simp [ClientMessage.read, aligned])
      simp only [StreamState.openTools, Emission.andThen, started]
      refine ⟨?_, ?_⟩
      · rw [blocks, List.append_assoc]
        rfl
      · rw [ClientMessage.readAll_append]
        refine read.trans ?_
        simp [ClientMessage.read, lateBlock, ClientBlock.start]

end Assembled

theorem StreamState.grows_openTools (late : List UInt64) (state : StreamState) :
    Grows state (state.openTools late).1 := by
  induction late generalizing state with
  | nil => rfl
  | cons index rest ih =>
      have first : Grows state (state.startTool index
        ((OrderedMap.lookup index state.tools).getD .empty)).1 := rfl
      exact first.trans (ih _)

def ClientBlock.close (signature : String) (kind : BlockKind) (block : ClientBlock) : ClientBlock :=
  match kind with
  | .closed => block
  | .thinking => { block with signature := some signature, closed := true }
  | .text | .tool => { block with closed := true }

theorem read_closingFrames (platform : Platform) (state : StreamState) (kinds : List BlockKind)
    {client : ClientMessage} {before rest : List ClientBlock}
    (blocks : client.blocks = before ++ rest) (aligned : kinds.length = rest.length) :
    client.readAll ((kinds.zipIdx before.length).flatMap (state.closingFrames platform)) =
      { client with
        blocks := before ++ List.zipWith
          (ClientBlock.close (platform.thinkingSignature "streamed" state.requestId)) kinds rest } := by
  obtain ⟨message, held, ending, complete⟩ := client
  dsimp only at blocks
  subst held
  induction kinds generalizing before rest with
  | nil =>
      rw [List.length_nil, eq_comm, List.length_eq_zero_iff] at aligned
      rw [aligned]
      rfl
  | cons kind kinds ih =>
      cases rest with
      | nil => cases aligned
      | cons block rest =>
          have length : (before ++ [ClientBlock.close
              (platform.thinkingSignature "streamed" state.requestId) kind block]).length =
                before.length + 1 := by simp
          have step : ClientMessage.readAll ⟨message, before ++ block :: rest, ending, complete⟩
              (state.closingFrames platform (kind, before.length)) =
                ⟨message, before ++ ClientBlock.close
                  (platform.thinkingSignature "streamed" state.requestId) kind block :: rest,
                  ending, complete⟩ := by
            cases kind <;>
              simp [StreamState.closingFrames, ClientMessage.readAll, ClientMessage.read,
                modify_middle, ClientBlock.close, ClientBlock.addDelta]
          have later := @ih (before ++ [ClientBlock.close
            (platform.thinkingSignature "streamed" state.requestId) kind block]) rest
            (Nat.succ.inj aligned)
          rw [List.zipIdx_cons, List.flatMap_cons, ClientMessage.readAll_append, step,
            List.append_cons, ← length, later]
          simp

def finishedBlock (signature : String) (fragments : List Fragment) (key : BlockKey) :
    ClientBlock :=
  (clientBlock fragments key).close signature key.kind

/-- The message of a stream that ended, the tools of `late` being shown at its end. -/
def streamedMessage (platform : Platform) (requestId fallbackModel : String)
    (exposeThinking : Bool) (values : List Value) (late : List UInt64) : ClientMessage where
  message := values.head?.map (startedMessage requestId fallbackModel)
  blocks := (openedKeys (streamFragments exposeThinking values)).map (finishedBlock
      (platform.thinkingSignature "streamed" requestId) (streamFragments exposeThinking values)) ++
    late.map fun index =>
      { lateBlock (streamFragments exposeThinking values) index with closed := true }
  ending := some (mapStopReason (lastFinish values), lastStop values,
    convertUsageWith (some (lastUsageMember values)) 0)
  complete := true

namespace StreamedTo

variable {requestId fallbackModel : String} {exposeThinking : Bool} {values : List Value}
  {state : StreamState} {client : ClientMessage}

theorem finalize (held : StreamedTo requestId fallbackModel exposeThinking values state client)
    (platform : Platform) :
    ∃ late, late.Perm (lateIndexes (streamFragments exposeThinking values)) ∧
      client.readAll (state.finalize platform).2 =
        streamedMessage platform requestId fallbackModel exposeThinking values late := by
  have perm := held.assembled.unopenedTools_perm held.tools.sorted platform
  refine ⟨state.unopenedTools platform, perm, ?_⟩
  have going : state.terminal = false := by
    rw [held.noted]
    rfl
  have distinct : (state.unopenedTools platform).Nodup :=
    perm.nodup_iff.mpr ((nodup_firstSeen _).filter _)
  obtain ⟨kinds, read⟩ := Assembled.openTools_blocks distinct
    (fun index _ => held.assembled.tools index) (fun index member => perm.mem_iff.mp member)
    held.assembled.length_eq
  have grown := StreamState.grows_openTools (state.unopenedTools platform) state
  rw [StreamState.finalize, if_neg (by simp [going]), Emission.andThen,
    ClientMessage.readAll_append, read, StreamState.finishWithStop, ClientMessage.readAll_append]
  generalize state.unopenedTools platform = late at distinct kinds grown ⊢
  have ending : (state.openTools late).1.messageDelta none =
      .messageDelta (mapStopReason (lastFinish values)) (lastStop values)
        (convertUsageWith (some (lastUsageMember values)) 0) := by
    rw [grown, held.noted]
    rfl
  have request : (state.openTools late).1.requestId = requestId := by
    rw [grown, held.noted]
    rfl
  have aligned : (state.openTools late).1.blocks.length =
      (client.blocks ++ late.map (lateBlock (streamFragments exposeThinking values))).length := by
    rw [kinds, List.length_append, List.length_append, held.assembled.length_eq, List.length_map,
      List.length_map]
  have closed := @read_closingFrames platform (state.openTools late).1
    (state.openTools late).1.blocks { client with
      blocks := client.blocks ++ late.map (lateBlock (streamFragments exposeThinking values)) }
    [] _ rfl aligned
  refine (congrArg (fun client : ClientMessage => client.readAll
    [(state.openTools late).1.messageDelta none, .messageStop]) closed).trans ?_
  have blocks : List.zipWith (ClientBlock.close (platform.thinkingSignature "streamed" requestId))
      (state.openTools late).1.blocks
      (client.blocks ++ late.map (lateBlock (streamFragments exposeThinking values))) =
        (streamedMessage platform requestId fallbackModel exposeThinking values late).blocks := by
    rw [kinds, held.assembled.kinds, held.assembled.clientBlocks, List.zipWith_append
      (by rw [List.length_map, List.length_map]), List.zipWith_map, List.zipWith_map,
      List.zipWith_self, List.zipWith_self]
    rfl
  have announced : client.message =
      values.head?.map (startedMessage requestId fallbackModel) := by
    rw [held.read]
  rw [ending, request]
  have whole := congrArg (fun blocks : List ClientBlock =>
    ClientMessage.mk client.message blocks (some (mapStopReason (lastFinish values),
      lastStop values, convertUsageWith (some (lastUsageMember values)) 0)) true) blocks
  refine whole.trans ?_
  rw [announced]
  rfl

theorem goesOn (held : StreamedTo requestId fallbackModel exposeThinking values state client) :
    (state.terminal || state.roundComplete) = false := by
  rw [held.noted]
  rfl

theorem handleDone (held : StreamedTo requestId fallbackModel exposeThinking values state client)
    (platform : Platform) {data : String} (done : isDone data = true)
    (finished : (lastFinish values).isSome = true) :
    state.handle platform data = state.finalize platform := by
  have finish : state.finishReason = lastFinish values := by rw [held.noted]
  obtain ⟨reason, said⟩ := Option.isSome_iff_exists.mp finished
  rw [StreamState.handle, if_pos done, finish, said, held.assembled.noServerTools]
  rfl

theorem events (held : StreamedTo requestId fallbackModel exposeThinking values state client)
    (platform : Platform) {events : List SseEvent} {more : List Value} {done : SseEvent}
    (chunks : events.map (fun event => readPayload platform.codec (String.ofList event.data)) =
      more.map .chunk)
    (last : isDone (String.ofList done.data) = true)
    (finished : (lastFinish (values ++ more)).isSome = true) :
    ∃ late, late.Perm (lateIndexes (streamFragments exposeThinking (values ++ more))) ∧
      client.readAll (StreamBody.handleEvents platform state (events ++ [done])).2 =
        streamedMessage platform requestId fallbackModel exposeThinking (values ++ more) late := by
  induction events generalizing values state client more with
  | nil =>
      obtain rfl := List.map_eq_nil_iff.mp chunks.symm
      rw [List.append_nil] at finished ⊢
      obtain ⟨late, perm, read⟩ := held.finalize platform
      refine ⟨late, perm, ?_⟩
      rw [List.nil_append, StreamBody.handleEvents, held.handleDone platform last finished]
      split
      next => exact read
      next => simpa [Emission.andThen, StreamBody.handleEvents] using read
  | cons event rest ih =>
      cases more with
      | nil => cases chunks
      | cons value more =>
          rw [List.map_cons, List.map_cons, List.cons.injEq] at chunks
          have step : state.handle platform (String.ofList event.data) = state.handleValue value := by
            rw [StreamState.handle_eq, chunks.1]
          have next := held.chunk value
          rw [← List.singleton_append, ← List.append_assoc] at finished ⊢
          obtain ⟨late, perm, read⟩ := ih next chunks.2 finished
          refine ⟨late, perm, ?_⟩
          rw [List.cons_append, StreamBody.handleEvents]
          simp only [step, next.goesOn, Bool.false_eq_true, ↓reduceIte]
          rw [Emission.andThen, ClientMessage.readAll_append]
          exact read

end StreamedTo

/-- A client without server tools puts together, from any chunks that end with a finish reason,
one block for each kind of content and for each call, in the order in which they were first shown,
with all that the chunks say of it and nothing else. -/
theorem streamed_message (platform : Platform) (requestId fallbackModel : String)
    (exposeThinking : Bool) {events : List SseEvent} {values : List Value} {done : SseEvent}
    (chunks : events.map (fun event => readPayload platform.codec (String.ofList event.data)) =
      values.map .chunk)
    (last : isDone (String.ofList done.data) = true)
    (finished : (lastFinish values).isSome = true) :
    ∃ late, late.Perm (lateIndexes (streamFragments exposeThinking values)) ∧
      ClientMessage.empty.readAll (StreamBody.handleEvents platform
        (.new requestId fallbackModel exposeThinking) (events ++ [done])).2 =
          streamedMessage platform requestId fallbackModel exposeThinking values late :=
  (StreamedTo.start requestId fallbackModel exposeThinking).events platform chunks last
    (by simpa using finished)

def chunkEvent (codec : Codec) (value : Value) : SseEvent := ⟨none, (codec.toText value).toList⟩

theorem readPayload_events {codec : Codec} {values : List Value}
    (read : ∀ value ∈ values, isDone (codec.toText value) = false ∧
      codec.fromStr (codec.toText value) = some value ∧ (value.get "error").isSome = false) :
    (values.map (chunkEvent codec)).map
        (fun event => readPayload codec (String.ofList event.data)) = values.map .chunk := by
  rw [List.map_map]
  refine List.map_congr_left fun value member => ?_
  obtain ⟨goesOn, found, sound⟩ := read value member
  simp [chunkEvent, readPayload, goesOn, found, sound]

def scatteredChunks : List Value := [
  chunkOf [("tool_calls", .array [wholeCall 3 "call_3" "lookup" "\x7b\"query\":",
    .object [("index", .ofNat 1), ("id", .string "call_1")]])] [],
  chunkOf [("content", .string "Looking")] [],
  chunkOf [("tool_calls", .array [.object [("index", .ofNat 3), ("function", .object [
    ("arguments", .string "\"lean\"\x7d")])]])] (finished "tool_calls")]

def scatteredPlatform : Platform where
  codec := documentCodec (leanQuery :: scatteredChunks)
  thinkingSignature := fun _ requestId => "cline-proxy-v1-" ++ requestId
  order := id
  order_perm := perm_id

theorem streamed_message_scattered :
    ∃ late, late.Perm (lateIndexes (streamFragments true scatteredChunks)) ∧
      ClientMessage.empty.readAll (StreamBody.handleEvents scatteredPlatform
        (.new "req" "glm" true) (scatteredChunks.map (chunkEvent scatteredPlatform.codec) ++
          [⟨none, "[DONE]".toList⟩])).2 =
        streamedMessage scatteredPlatform "req" "glm" true scatteredChunks late :=
  streamed_message scatteredPlatform "req" "glm" true
    (readPayload_events (by decide +kernel)) (by decide +kernel) (by decide +kernel)

end ClineProxy
