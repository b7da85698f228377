import ClineProxy.ShadowInputs
import ClineProxy.SummaryChecks

/-! What a stream commits to the shadow store, as its chunks say it. -/

namespace ClineProxy

open Json FirstSeen StreamState

namespace StreamState

theorem Grows.exposes {state next : StreamState} (grown : Grows state next) :
    next.exposeThinking = state.exposeThinking := by
  rw [Grows] at grown
  rw [grown]

theorem Shows.exposes {state next : StreamState} (shown : state.Shows next) :
    next.exposeThinking = state.exposeThinking := by
  rw [Shows] at shown
  rw [shown]

theorem exposes_handle (platform : Platform) (state : StreamState) (data : String) :
    (state.handle platform data).1.exposeThinking = state.exposeThinking := by
  have opened (keys : List UInt64) (first : StreamState) :
      (first.openTools keys).1.exposeThinking = first.exposeThinking := by
    induction keys generalizing first with
    | nil => rfl
    | cons key rest ih => exact (ih _).trans rfl
  rw [handle_eq]
  cases readPayload platform.codec data with
  | malformed | failed => rfl
  | chunk value => exact (state.grows_handleValue value).exposes
  | done =>
      dsimp only
      split
      next => rfl
      next =>
        split
        next =>
          rw [finalize]
          split
          next => rfl
          next => exact opened _ state
        next => rfl

end StreamState

namespace StreamBody

variable {calls : List Value} {state : StreamState}

theorem toolsRead_handleEvents (platform : Platform) (events : List SseEvent)
    (read : ToolsRead calls state.tools) :
    ToolsRead (calls ++ allCalls (handledValues platform state events))
      (handleEvents platform state events).1.tools := by
  induction events generalizing calls state with
  | nil => simpa [handledValues, handleEvents, allCalls] using read
  | cons event rest ih =>
      have step := toolsRead_handle platform read (String.ofList event.data)
      rw [handleEvents, handledValues]
      split
      next => rwa [List.append_nil]
      next =>
        have later := ih step
        rwa [List.append_assoc, allCalls, allCalls, ← List.flatMap_append, ← allCalls] at later

theorem exposes_handleEvents (platform : Platform) (events : List SseEvent) :
    (handleEvents platform state events).1.exposeThinking = state.exposeThinking := by
  induction events generalizing state with
  | nil => rfl
  | cons event rest ih =>
      have step := exposes_handle platform state (String.ofList event.data)
      rw [handleEvents]
      split
      next => exact step
      next => exact ih.trans step

theorem toolsRead_handleTrailing (platform : Platform) (events : List SseEvent)
    (read : ToolsRead calls state.tools) :
    ToolsRead (calls ++ allCalls (trailingValues platform.codec events))
      (handleTrailing platform state events).1.tools := by
  induction events generalizing calls state with
  | nil => simpa [trailingValues, handleTrailing, allCalls] using read
  | cons event rest ih =>
      have later := ih (toolsRead_handle platform read (String.ofList event.data))
      have values : trailingValues platform.codec (event :: rest) =
          (readPayload platform.codec (String.ofList event.data)).value?.toList ++
            trailingValues platform.codec rest := by
        rw [trailingValues, List.filterMap_cons]
        cases (readPayload platform.codec (String.ofList event.data)).value? <;> rfl
      rw [handleTrailing, values]
      rwa [List.append_assoc, allCalls, allCalls, ← List.flatMap_append, ← allCalls] at later

theorem exposes_handleTrailing (platform : Platform) (events : List SseEvent) :
    (handleTrailing platform state events).1.exposeThinking = state.exposeThinking := by
  induction events generalizing state with
  | nil => rfl
  | cons event rest ih => exact ih.trans (exposes_handle platform state _)

inductive RoundKeeps (calls : List Value) (state : StreamState) :
    Option StreamExit → StreamState → Prop
  | going {next : StreamState} (tools : next.tools = [])
      (exposes : next.exposeThinking = state.exposeThinking) : RoundKeeps calls state none next
  | left {exit : StreamExit} {next : StreamState}
      (tools : exit.commits = true → ToolsRead calls next.tools) :
      RoundKeeps calls state (some exit) next

variable {body : StreamBody}

theorem roundKeeps_continueWith (continuation : Continuation) {shown : Emission}
    (shows : state.Shows shown.1) :
    RoundKeeps calls state continuation.exit (body.continueWith continuation shown).1.state := by
  cases continuation with
  | success => exact .going rfl shows.exposes
  | unwritable | unsent | httpError => exact .left fun commits => by cases commits

theorem toolsRead_shown {next : StreamState} (read : ToolsRead calls state.tools)
    (shown : state.Shows next) : ToolsRead calls next.tools := by
  rw [Shows] at shown
  rw [shown]
  exact read

theorem roundKeeps_serverRound (platform : Platform) (replies : RoundReplies)
    (read : ToolsRead calls body.state.tools) :
    RoundKeeps calls body.state (body.serverExit platform replies)
      (body.serverRound platform replies).1.state := by
  have shows (called : List OpenAiToolCall) (outcomes : List SearchOutcome) :=
    shows_searchRound platform replies called outcomes body.state
  have kept (called : List OpenAiToolCall) (outcomes : List SearchOutcome) :
      ToolsRead calls (searchRound platform replies called outcomes body.state).1.tools :=
    toolsRead_shown read (shows called outcomes)
  rw [serverRound, serverExit]
  dsimp only
  cases kind : classifyRound body.state.openaiToolCalls (serverNames body.serverLoop) with
  | none | clientOnly =>
      rw [leavesLoop_other _ _ (by simp [kind])]
      exact .left fun _ => toolsRead_finalize platform read
  | mixed =>
      rw [leavesLoop_other _ _ (by simp [kind])]
      exact .left fun _ => toolsRead_finalize platform (kept _ _)
  | serverOnly =>
      rw [leavesLoop_serverOnly _ _ kind]
      dsimp only
      cases spent : body.usesLeft == 0 ||
          decide (maxInternalGenerationRounds ≤ body.generationRounds) with
      | true =>
          refine .left fun _ => ?_
          rw [if_pos rfl]
          exact kept _ _
      | false =>
          simp only [Bool.false_eq_true, ↓reduceIte, continueRound, searched]
          cases appendRound (body.state.openaiToolCalls.filter fun call =>
              (serverNames body.serverLoop).contains call.name)
            (body.searchOutcomes platform replies false (body.state.openaiToolCalls.filter
              fun call => (serverNames body.serverLoop).contains call.name)).1
            body.serverLoop with
          | error abort => exact .left fun commits => by cases commits
          | ok serverLoop =>
              exact roundKeeps_continueWith replies.continuation (shows _ _)

theorem roundKeeps_endOfRound (platform : Platform) (replies : RoundReplies)
    (running : body.state.terminal = false) (read : ToolsRead calls body.state.tools) :
    RoundKeeps calls body.state (body.roundExit platform replies)
      (body.onEndOfRound platform replies).1.state := by
  rw [onEndOfRound, if_neg (by simp [running]), roundExit]
  by_cases alone : body.serverLoop.isNone = true
  · rw [if_pos alone, if_pos alone]
    by_cases finished : body.state.finishReason.isSome = true
    · rw [if_pos finished, if_pos finished]
      exact .left fun _ => toolsRead_finalize platform read
    · rw [if_neg finished, if_neg finished]
      exact .left fun commits => by cases commits
  · rw [if_neg alone, if_neg alone]
    by_cases cut : (body.state.finishReason.isNone && !body.state.roundComplete) = true
    · rw [if_pos cut, if_pos cut]
      exact .left fun commits => by cases commits
    · rw [if_neg cut, if_neg cut]
      exact roundKeeps_serverRound platform replies read

inductive StepKeeps (calls : List Value) (state : StreamState) (isEnd : Bool) :
    Option StreamExit → StreamState → Prop
  | going {next : StreamState} (inRound : isEnd = false) (tools : ToolsRead calls next.tools)
      (exposes : next.exposeThinking = state.exposeThinking) : StepKeeps calls state isEnd none next
  | nextRound {next : StreamState} (ended : isEnd = true) (tools : next.tools = [])
      (exposes : next.exposeThinking = state.exposeThinking) : StepKeeps calls state isEnd none next
  | left {exit : StreamExit} {next : StreamState}
      (tools : exit.commits = true → ToolsRead calls next.tools) :
      StepKeeps calls state isEnd (some exit) next

theorem stepKeeps_bytes (platform : Platform) (chunk : List UInt8)
    (read : ToolsRead calls body.state.tools) :
    StepKeeps (calls ++ allCalls (body.valuesOf platform (.bytes chunk))) body.state false
      (body.exit platform (.bytes chunk)) (body.onBytes platform chunk).1.state := by
  rw [onBytes, exit, valuesOf]
  cases pushed : body.decoder.push chunk with
  | none => exact .left fun commits => by cases commits
  | some decoded =>
      obtain ⟨decoder, events⟩ := decoded
      have tools := toolsRead_handleEvents platform events read
      dsimp only
      split
      next => exact .left fun _ => tools
      next => exact .going rfl tools (exposes_handleEvents platform events)

theorem stepKeeps_ended (platform : Platform) (replies : RoundReplies)
    (running : body.state.terminal = false) (read : ToolsRead calls body.state.tools) :
    StepKeeps (calls ++ allCalls (body.valuesOf platform (.ended replies))) body.state true
      (body.exit platform (.ended replies)) (body.onEnded platform replies).1.state := by
  rw [onEnded, if_neg (by simp [running]), exit, valuesOf]
  cases finished : body.decoder.finish with
  | none => exact .left fun commits => by cases commits
  | some events =>
      have tools := toolsRead_handleTrailing platform events read
      dsimp only [Option.getD_some]
      split
      next => exact .left fun commits => by cases commits
      next alive =>
        have kept := @roundKeeps_endOfRound _
          { body with state := (handleTrailing platform body.state events).1 } platform replies
          (Bool.not_eq_true _ ▸ alive) tools
        generalize roundExit platform replies _ = ends at kept ⊢
        cases kept with
        | going none_left exposes =>
            exact .nextRound rfl none_left
              (exposes.trans (exposes_handleTrailing platform events))
        | left held => exact .left held

theorem stepKeeps_step (platform : Platform) (arrival : Arrival) (alive : body.returned = false)
    (running : body.state.terminal = false) (read : ToolsRead calls body.state.tools) :
    StepKeeps (calls ++ allCalls (body.valuesOf platform arrival)) body.state arrival.isEnd
      (body.exit platform arrival) (body.step platform arrival).1.state := by
  unfold step
  rw [if_neg (by simp [alive])]
  cases arrival with
  | bytes chunk => exact stepKeeps_bytes platform chunk read
  | interrupted | stalled kind => exact .left fun commits => by cases commits
  | idle => exact .going rfl (by simpa [valuesOf, allCalls] using read) rfl
  | ended replies => exact stepKeeps_ended platform replies running read

end StreamBody

namespace Generations

theorem all_read (generations : Generations) (values : List Value) :
    (generations.read values).all = generations.all ++ values :=
  (List.append_assoc ..).symm

theorem all_next (generations : Generations) : generations.next.all = generations.all := by
  simp [all, next]

end Generations

namespace ShadowStream

structure Going (stream : ShadowStream) : Prop where
  alive : stream.body.returned = false
  attended : ∃ client, Attends stream.body client
  tools : ToolsRead (allCalls stream.generations.current) stream.body.state.tools
  hidden : stream.body.state.exposeThinking = false
  reasoning : stream.shadowReasoning = reasoningOf stream.generations.all
  unset : stream.action = .keep

def LeftBy (platform : Platform) (exit : Option StreamExit) (stream : ShadowStream) : Prop :=
  if exit.any StreamExit.commits then
    ∃ state : StreamState, ToolsRead (allCalls stream.generations.current) state.tools ∧
      stream.action = state.commitShadow platform (reasoningOf stream.generations.all)
  else stream.action = .keep

variable {stream : ShadowStream}

theorem Going.running (going : Going stream) : stream.body.state.terminal = false := by
  obtain ⟨client, attends⟩ := going.attended
  rcases attends with ⟨returned, -⟩ | ⟨-, -, running, -⟩
  · simp [going.alive] at returned
  · exact running

theorem Going.unexposed (going : Going stream) (values : List Value) :
    stream.shadowReasoning ++ stream.body.state.unexposed values =
      reasoningOf (stream.generations.all ++ values) := by
  rw [StreamState.unexposed, if_neg (by simp [going.hidden]), going.reasoning, reasoningOf_append]
  rfl

theorem allCalls_append (first second : List Value) :
    allCalls (first ++ second) = allCalls first ++ allCalls second := List.flatMap_append

theorem step_stays (platform : Platform) {arrival : Arrival} (alive : stream.body.returned = false)
    (stays : stream.body.exit platform arrival = none) :
    stream.step platform arrival =
      ⟨(stream.body.step platform arrival).1,
        if arrival.isEnd then (stream.generations.read
          (stream.body.valuesOf platform arrival)).next
        else stream.generations.read (stream.body.valuesOf platform arrival),
        stream.shadowReasoning ++
          stream.body.state.unexposed (stream.body.valuesOf platform arrival),
        stream.action⟩ := by
  rw [step, if_neg (by simp [alive])]
  simp only [stays]

theorem step_leaves (platform : Platform) {arrival : Arrival} {exit : StreamExit}
    (alive : stream.body.returned = false)
    (leaves : stream.body.exit platform arrival = some exit) :
    stream.step platform arrival =
      ⟨(stream.body.step platform arrival).1,
        stream.generations.read (stream.body.valuesOf platform arrival),
        stream.shadowReasoning ++
          stream.body.state.unexposed (stream.body.valuesOf platform arrival),
        if exit.commits then (stream.body.step platform arrival).1.state.commitShadow platform
          (stream.shadowReasoning ++
            stream.body.state.unexposed (stream.body.valuesOf platform arrival))
        else stream.action⟩ := by
  rw [step, if_neg (by simp [alive])]
  simp only [leaves]

theorem going_step (platform : Platform) {arrival : Arrival} (going : Going stream)
    (stays : stream.body.exit platform arrival = none) :
    Going (stream.step platform arrival) := by
  have kept := StreamBody.stepKeeps_step platform arrival going.alive going.running going.tools
  have reasoning := going.unexposed (stream.body.valuesOf platform arrival)
  obtain ⟨client, attends⟩ := going.attended
  obtain ⟨later, -, attended⟩ := serves_step platform arrival attends
  have alive : (stream.body.step platform arrival).1.returned = false := by
    cases stepEnd_step platform arrival going.alive going.running with
    | going _ alive => exact alive
    | delivered exit left | cut exit left => cases stays.symm.trans left
  rw [step_stays platform going.alive stays]
  rw [stays] at kept
  cases kept with
  | going inRound tools exposes =>
      rw [inRound, if_neg (by simp)]
      refine ⟨alive, ⟨later, attended⟩, ?_, exposes.trans going.hidden, ?_, going.unset⟩
      · rwa [← allCalls_append] at tools
      · rw [Generations.all_read]
        exact reasoning
  | nextRound ended tools exposes =>
      rw [ended, if_pos rfl]
      refine ⟨alive, ⟨later, attended⟩, ?_, exposes.trans going.hidden, ?_, going.unset⟩
      · dsimp only
        rw [tools]
        exact toolsRead_nil
      · rw [Generations.all_next, Generations.all_read]
        exact reasoning

theorem leftBy_step (platform : Platform) {arrival : Arrival} {exit : StreamExit}
    (going : Going stream) (leaves : stream.body.exit platform arrival = some exit) :
    (stream.step platform arrival).body.returned = true ∧
      LeftBy platform (some exit) (stream.step platform arrival) := by
  have kept := StreamBody.stepKeeps_step platform arrival going.alive going.running going.tools
  have reasoning := going.unexposed (stream.body.valuesOf platform arrival)
  rw [step_leaves platform going.alive leaves]
  constructor
  · cases stepEnd_step platform arrival going.alive going.running with
    | going stays => cases stays.symm.trans leaves
    | delivered _ _ returned | cut _ _ returned => exact returned
  · rw [leaves, ← allCalls_append] at kept
    cases kept with
    | left tools =>
        rw [LeftBy, Option.any_some, going.unset]
        cases commits : exit.commits with
        | true =>
            rw [if_pos rfl, if_pos rfl, reasoning, Generations.all_read]
            exact ⟨_, tools commits, rfl⟩
        | false =>
            rw [if_neg (by simp), if_neg (by simp)]

theorem run_returned (platform : Platform) (returned : stream.body.returned = true)
    (arrivals : List Arrival) : stream.run platform arrivals = stream := by
  induction arrivals with
  | nil => rfl
  | cons arrival rest ih =>
      have stuck : stream.step platform arrival = stream := by rw [step, if_pos returned]
      rw [run, List.foldl_cons, stuck]
      exact ih

/-- A run commits where it is left, with what it has read until then. -/
theorem run_leftBy (platform : Platform) (arrivals : List Arrival) (going : Going stream) :
    LeftBy platform (stream.body.leftBy platform arrivals) (stream.run platform arrivals) := by
  induction arrivals generalizing stream with
  | nil => exact going.unset
  | cons arrival rest ih =>
      rw [StreamBody.leftBy, if_neg (by simp [going.alive]), run, List.foldl_cons]
      cases leaves : stream.body.exit platform arrival with
      | none =>
          have body : (stream.body.step platform arrival).1 =
              (stream.step platform arrival).body := by
            rw [step_stays platform going.alive leaves]
          rw [Option.none_or, body]
          exact ih (going_step platform going leaves)
      | some exit =>
          obtain ⟨returned, left⟩ := leftBy_step platform going leaves
          have stuck := run_returned platform returned rest
          rw [run] at stuck
          rw [Option.some_or, stuck]
          exact left

end ShadowStream

namespace StreamState

variable {values : List Value} {state : StreamState}

theorem ToolsRead.seen (read : ToolsRead (allCalls values) state.tools) :
    (state.tools.map Prod.fst).Perm (seenIndexes (allCalls values)) := by
  have distinct := OrderedMap.nodup_of_sorted (fun key : UInt64 => UInt64.lt_irrefl key) read.sorted
  refine (List.perm_ext_iff_of_nodup distinct (nodup_firstSeen _)).mpr fun index => ?_
  rw [← not_iff_not, ← OrderedMap.lookup_of_fresh_key, ← Option.map_eq_none_iff, read.ids index]
  have seen := @mem_seenIndexes (allCalls values) index
  rw [seenIndexes] at seen
  rw [seen]
  simp

theorem ToolsRead.storedIds (platform : Platform)
    (read : ToolsRead (allCalls values) state.tools) :
    ((platform.order (state.tools.map Prod.fst)).filterMap fun index =>
      (OrderedMap.lookup index state.tools).bind ToolStream.id).Perm (streamedIds values) := by
  have said (index : UInt64) (seen : index ∈ seenIndexes (allCalls values)) :
      (OrderedMap.lookup index state.tools).bind ToolStream.id =
        lastIdAt toolCallIndex index (allCalls values) := by
    have held := read.ids index
    rw [if_neg (mem_seenIndexes.mp seen), Option.map_eq_some_iff] at held
    obtain ⟨tool, found, id⟩ := held
    rw [found, Option.bind_some, id]
  rw [streamedIds, ← List.filterMap_congr said]
  exact ((platform.order_perm _).trans read.seen).filterMap _

theorem seenIndexes_eq_nil {calls : List Value} : seenIndexes calls = [] ↔ calls = [] := by
  constructor
  · intro unseen
    refine List.eq_nil_iff_forall_not_mem.mpr fun call member => ?_
    have seen : toolCallIndex call ∈ seenIndexes calls :=
      mem_firstSeen.mpr (List.mem_map.mpr ⟨call, member, rfl⟩)
    rw [unseen] at seen
    cases seen
  · rintro rfl
    rfl

theorem ToolsRead.isEmpty (read : ToolsRead (allCalls values) state.tools) :
    state.tools.isEmpty = true ↔ allCalls values = [] := by
  rw [List.isEmpty_iff, ← seenIndexes_eq_nil, ← List.map_eq_nil_iff]
  have seen := read.seen
  exact ⟨fun none_held => (none_held ▸ seen).nil_eq.symm, fun unseen => (unseen ▸ seen).eq_nil⟩

theorem commitShadow_alike (platform : Platform) (read : ToolsRead (allCalls values) state.tools)
    (reasoning : String) :
    (state.commitShadow platform reasoning).Alike
      (if allCalls values = [] then .clear else .store (streamedIds values) reasoning) := by
  have ids := read.storedIds platform
  rw [commitShadow]
  dsimp only
  by_cases uncalled : allCalls values = []
  · rw [if_pos (read.isEmpty.mpr uncalled), if_pos uncalled]
    exact ShadowAction.Alike.refl _
  · rw [if_neg (mt read.isEmpty.mp uncalled), if_neg uncalled]
    by_cases silent : reasoning = ""
    · rw [if_pos (by simp [silent]), ShadowAction.Alike,
        ShadowAction.settled_keep (.inr silent)]
      exact .keep
    · rw [if_neg (by simpa using silent)]
      generalize ((platform.order (state.tools.map Prod.fst)).filterMap fun index =>
        (OrderedMap.lookup index state.tools).bind ToolStream.id) = stored at ids ⊢
      by_cases unnamed : stored = []
      · rw [if_pos (by simp [unnamed]), ShadowAction.Alike,
          ShadowAction.settled_keep (.inl (unnamed ▸ ids).nil_eq.symm)]
        exact .keep
      · rw [if_neg (by simpa using unnamed)]
        exact ShadowAction.alike_store ids reasoning

end StreamState

namespace StreamRun

variable {platform : Platform} {eligible : Bool} {run : StreamRun}

theorem going_start (hidden : run.exposeThinking = false) :
    ShadowStream.Going (.start run.body) where
  alive := rfl
  attended := ⟨_, attends_start run.requestId run.fallbackModel run.exposeThinking run.serverLoop⟩
  tools := toolsRead_nil
  hidden := hidden
  reasoning := rfl
  unset := rfl

/-- A stream with a whole message is left where it commits, unless its response ends unclosed. -/
theorem commits_left (stays : run.suspended platform = false) (complete : run.complete platform) :
    (run.body.leftBy platform run.arrivals).any StreamExit.commits =
      run.body.neverEndsUnclosed platform run.arrivals := by
  have stop : .messageStop ∈ run.frames platform := by
    rw [StreamRun.complete, run.produced_eq platform stays] at complete
    exact complete
  cases run.runEnd_frames platform with
  | going _ alive => exact absurd stop (run.waiting_unstopped platform alive)
  | cut _ _ _ error => exact absurd stop (run.cut_unstopped platform error)
  | delivered exit left _ _ _ which =>
      rw [left, Option.any_some]
      split at which
      next closed =>
        rw [closed]
        rcases which with rfl | rfl <;> rfl
      next unclosed =>
        rw [which, Bool.eq_false_iff.mpr unclosed]
        rfl

theorem shadowAction_alike (hidden : run.exposeThinking = false)
    (complete : run.complete platform) :
    (run.shadowAction platform eligible).Alike
      ((run.generations platform).streamedAction (run.commits platform eligible)) := by
  have left := ShadowStream.run_leftBy platform run.arrivals (going_start hidden)
  have begun : (ShadowStream.start run.body).body = run.body := rfl
  rw [StreamRun.shadowAction, Generations.streamedAction]
  cases given : eligible && !run.suspended platform with
  | false =>
      have without : run.commits platform eligible = false := by
        rw [StreamRun.commits, given, Bool.false_and]
      have kept : (!eligible || run.suspended platform) = true := by
        cases eligible <;> simp_all
      rw [without, if_pos kept]
      exact ShadowAction.Alike.refl _
  | true =>
      simp only [Bool.and_eq_true, Bool.not_eq_true'] at given
      have kept : (!eligible || run.suspended platform) = false := by simp [given.1, given.2]
      have does : run.commits platform eligible =
          run.body.neverEndsUnclosed platform run.arrivals := by
        simp [commits, given.1, given.2]
      rw [ShadowStream.LeftBy, begun, commits_left given.2 complete] at left
      rw [kept, does, if_neg (by simp)]
      cases closed : run.body.neverEndsUnclosed platform run.arrivals with
      | false =>
          rw [closed, if_neg (by simp)] at left
          rw [shadow, left]
          exact ShadowAction.Alike.refl _
      | true =>
          rw [closed, if_pos rfl] at left
          obtain ⟨state, read, action⟩ := left
          rw [shadow, action]
          exact StreamState.commitShadow_alike platform read _

end StreamRun

end ClineProxy
