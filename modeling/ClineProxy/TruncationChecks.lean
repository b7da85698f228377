import ClineProxy.AggregateChecks
import ClineProxy.SseLifecycle
import ClineProxy.StreamFacts

/-! Which upstream streams end in a message on the streaming and on the other path. -/

namespace ClineProxy

open Json

def payloadsFrom (decoder : SseDecoder) : List (List UInt8) → List String × Bool
  | [] =>
      match decoder.finish with
      | none => ([], false)
      | some events => (events.map fun event => String.ofList event.data, true)
  | chunk :: rest =>
      match decoder.push chunk with
      | none => ([], false)
      | some (next, events) =>
          let (later, bounded) := payloadsFrom next rest
          (events.map (fun event => String.ofList event.data) ++ later, bounded)

def responsePayloads (codec : Codec) (chunks : List (List UInt8)) : List Payload :=
  (payloadsFrom .empty chunks).1.map (readPayload codec)

def eventsBounded (chunks : List (List UInt8)) : Bool := (payloadsFrom .empty chunks).2

/-- A finish reason comes before the first `[DONE]`, or before the end when there is none,
and nothing before that is malformed, an error, or too long. -/
def finishesInTime (finished bounded : Bool) : List Payload → Bool
  | [] => finished && bounded
  | .done :: _ => finished
  | .malformed :: _ => false
  | .failed :: _ => false
  | .chunk value :: rest =>
      finishesInTime (finished || (chunkFinish value).isSome) bounded rest

/-! The streaming path -/

def EndsInStop (frames : List SseFrame) : Prop := frames.getLast? = some .messageStop

def EndsInError (frames : List SseFrame) : Prop :=
  ∃ envelope, frames.getLast? = some (.error envelope)

def EndsAs (success : Bool) (frames : List SseFrame) : Prop :=
  if success then EndsInStop frames else EndsInError frames

theorem EndsAs.append {success : Bool} {later : List SseFrame} (ends : EndsAs success later)
    (frames : List SseFrame) : EndsAs success (frames ++ later) := by
  have kept {frame : SseFrame} (last : later.getLast? = some frame) :
      (frames ++ later).getLast? = some frame := by
    rw [List.getLast?_append, last]
    rfl
  cases success with
  | true => exact kept ends
  | false =>
      obtain ⟨envelope, last⟩ := ends
      exact ⟨envelope, kept last⟩

structure Plain (state : StreamState) : Prop where
  running : state.terminal = false
  noServerTools : state.serverToolNames = []
  noRound : state.roundComplete = false

theorem endsInStop_finalize (platform : Platform) {state : StreamState}
    (running : state.terminal = false) : EndsInStop (state.finalize platform).2 := by
  rw [StreamState.finalize, if_neg (by simp [running])]
  have stop (last : StreamState) : EndsAs true (last.finishWithStop platform none).2 := by
    simp [EndsAs, EndsInStop, StreamState.finishWithStop]
  exact (stop _).append _

theorem endsAs_error (message requestId : String) :
    EndsAs false [errorFrame message requestId] := ⟨_, rfl⟩

theorem plain_handleValue {state : StreamState} (plain : Plain state) (value : Value) :
    Plain (state.handleValue value).1 ∧ (state.handleValue value).1.finishReason.isSome =
      (state.finishReason.isSome || (chunkFinish value).isSome) := by
  have grown := state.grows_handleValue value
  rw [StreamState.Grows] at grown
  rw [grown]
  refine ⟨⟨plain.running, plain.noServerTools, plain.noRound⟩, ?_⟩
  simp only [StreamState.noted, Option.isSome_or]
  exact Bool.or_comm _ _

theorem handleEvents_ends (platform : Platform) (events : List SseEvent) {state : StreamState}
    (plain : Plain state) (later : List Payload) (bounded : Bool) :
    let handled := StreamBody.handleEvents platform state events
    let payloads := events.map fun event =>
      readPayload platform.codec (String.ofList event.data)
    (handled.1.terminal = true ∧
        EndsAs (finishesInTime state.finishReason.isSome bounded (payloads ++ later)) handled.2) ∨
      (Plain handled.1 ∧ finishesInTime state.finishReason.isSome bounded (payloads ++ later) =
        finishesInTime handled.1.finishReason.isSome bounded later) := by
  induction events generalizing state with
  | nil => exact .inr ⟨plain, rfl⟩
  | cons event rest ih =>
      simp only [StreamBody.handleEvents, StreamState.handle_eq, List.map_cons, List.cons_append]
      cases payload : readPayload platform.codec (String.ofList event.data) with
      | done =>
          refine .inl ?_
          simp only [finishesInTime]
          rcases finished : state.finishReason with _ | reason
          · simp [StreamState.fail, endsAs_error]
          · simp [plain.noServerTools, finalize_terminal platform plain.running, EndsAs,
              endsInStop_finalize platform plain.running]
      | malformed => exact .inl (by simp [StreamState.fail, finishesInTime, endsAs_error])
      | failed => exact .inl (by simp [StreamState.fail, finishesInTime, endsAs_error])
      | chunk value =>
          obtain ⟨kept, finish⟩ := plain_handleValue plain value
          simp only [kept.running, kept.noRound, Bool.or_self, Bool.false_eq_true, ↓reduceIte,
            finishesInTime, ← finish, Emission.andThen]
          rcases ih kept with ⟨ended, frames⟩ | going
          · exact .inl ⟨ended, frames.append _⟩
          · exact .inr going

theorem handleTrailing_one (platform : Platform) (state : StreamState) (event : SseEvent) :
    StreamBody.handleTrailing platform state [event] =
      StreamBody.handleEvents platform state [event] := by
  simp [StreamBody.handleTrailing, StreamBody.handleEvents, Emission.andThen]

theorem finishesInTime_unbounded (finished : Bool) : finishesInTime finished false [] = false := by
  simp [finishesInTime]

theorem onEnded_ends (platform : Platform) (replies : RoundReplies) {body : StreamBody}
    (plain : Plain body.state) (noLoop : body.serverLoop = none) :
    EndsAs (finishesInTime body.state.finishReason.isSome (payloadsFrom body.decoder []).2
      ((payloadsFrom body.decoder []).1.map (readPayload platform.codec)))
      (body.onEnded platform replies).2 := by
  have atEnd {state : StreamState} (plainState : Plain state) :
      EndsAs state.finishReason.isSome
        (StreamBody.onEndOfRound platform replies { body with state := state }).2 := by
    rw [StreamBody.onEndOfRound, if_neg (by simp [plainState.running]), if_pos (by simp [noLoop])]
    split
    next finished =>
      rw [show state.finishReason.isSome = true from finished]
      exact endsInStop_finalize platform plainState.running
    next unfinished =>
      rw [show state.finishReason.isSome = false by simpa using unfinished]
      exact endsAs_error _ _
  rw [StreamBody.onEnded, if_neg (by simp [plain.running]), payloadsFrom]
  cases finish : body.decoder.finish with
  | none =>
      simp only [List.map_nil, finishesInTime_unbounded]
      exact endsAs_error _ _
  | some events =>
      have few := SseDecoder.finish_length finish
      cases events with
      | nil => simpa [StreamBody.handleTrailing, finishesInTime] using atEnd plain
      | cons event later =>
          have alone : later = [] := List.length_eq_zero_iff.mp (by simpa using few)
          subst alone
          simp only [handleTrailing_one, List.map_cons, List.map_nil]
          rcases handleEvents_ends platform [event] plain [] true with
            ⟨terminal, ends⟩ | ⟨kept, same⟩
          · rw [StreamBody.onEndOfRound, if_pos terminal]
            simpa [StreamBody.returnWith] using ends
          · have last := atEnd kept
            simp only [List.map_cons, List.map_nil, List.append_nil, finishesInTime,
              Bool.and_true] at same
            rw [← same] at last
            exact last.append _

theorem run_ends (platform : Platform) (replies : RoundReplies) (chunks : List (List UInt8))
    (body : StreamBody) (going : body.returned = false) (plain : Plain body.state)
    (noLoop : body.serverLoop = none) :
    EndsAs (finishesInTime body.state.finishReason.isSome (payloadsFrom body.decoder chunks).2
      ((payloadsFrom body.decoder chunks).1.map (readPayload platform.codec)))
      (body.run platform (chunks.map .bytes ++ [.ended replies])).2 := by
  induction chunks generalizing body with
  | nil =>
      simp only [List.map_nil, List.nil_append, StreamBody.run, List.append_nil]
      unfold StreamBody.step
      rw [if_neg (by simp [going])]
      exact onEnded_ends platform replies plain noLoop
  | cons chunk rest ih =>
      simp only [List.map_cons, List.cons_append, StreamBody.run]
      unfold StreamBody.step
      simp only [going, Bool.false_eq_true, ↓reduceIte, StreamBody.onBytes, payloadsFrom]
      cases pushed : body.decoder.push chunk with
      | none =>
          rw [StreamBody.run_returned platform rfl, List.append_nil, List.map_nil,
            finishesInTime_unbounded]
          exact endsAs_error _ _
      | some decoded =>
          obtain ⟨decoder, events⟩ := decoded
          simp only [List.map_append, List.map_map]
          rcases handleEvents_ends platform events plain
            ((payloadsFrom decoder rest).1.map (readPayload platform.codec))
            (payloadsFrom decoder rest).2 with ⟨terminal, ends⟩ | ⟨kept, same⟩
          · rw [StreamBody.run_returned platform terminal, List.append_nil]
            exact ends
          · refine EndsAs.append ?_ _
            have composed : (readPayload platform.codec ∘ fun event : SseEvent =>
                String.ofList event.data) =
              fun event => readPayload platform.codec (String.ofList event.data) := rfl
            rw [composed, same]
            exact ih { body with
              state := (StreamBody.handleEvents platform body.state events).1
              decoder := decoder
              returned := (StreamBody.handleEvents platform body.state events).1.terminal }
              kept.running kept noLoop

/-! The other path -/

def payloadValues (payloads : List Payload) : List Value := payloads.filterMap Payload.value?

@[simp] theorem payloadValues_done (rest : List Payload) :
    payloadValues (.done :: rest) = payloadValues rest := rfl

@[simp] theorem payloadValues_chunk (value : Value) (rest : List Payload) :
    payloadValues (.chunk value :: rest) = value :: payloadValues rest := rfl

theorem payloadValues_append (first second : List Payload) :
    payloadValues (first ++ second) = payloadValues first ++ payloadValues second :=
  List.filterMap_append

theorem aggregateEvents_ok (codec : Codec) (events : List SseEvent)
    (accumulator next : NonStreamAccumulator) :
    Aggregation.handleEvents codec accumulator events = .ok next ↔
      ∃ payloads, (events.map fun event => readPayload codec (String.ofList event.data)) = payloads ∧
        payloads.all Payload.wellFormed = true ∧
        (payloadValues payloads).foldl NonStreamAccumulator.handleValue accumulator = next := by
  simp only [exists_eq_left']
  induction events generalizing accumulator with
  | nil => simp [Aggregation.handleEvents, payloadValues]
  | cons event rest ih =>
      simp only [Aggregation.handleEvents, bind_eq_ok, NonStreamAccumulator.handle_eq,
        List.map_cons, List.all_cons]
      cases readPayload codec (String.ofList event.data) with
      | done =>
          have step := ih accumulator
          simp only [Except.ok.injEq, exists_eq_left', payloadValues_done, Payload.wellFormed,
            Bool.true_and]
          exact step
      | malformed => simp [Payload.wellFormed, upstreamError]
      | failed => simp [Payload.wellFormed, upstreamError]
      | chunk value =>
          have step := ih (accumulator.handleValue value)
          simp only [Except.ok.injEq, exists_eq_left', payloadValues_chunk, Payload.wellFormed,
            Bool.true_and, List.foldl_cons]
          exact step

theorem onBytes_ok {codec : Codec} {aggregation next : Aggregation} {chunk : List UInt8} :
    aggregation.onBytes codec chunk = .ok next ↔
      aggregation.aggregatedBytes + chunk.length ≤ maxAggregatedResponseBytes ∧
        ∃ decoder events accumulator, aggregation.decoder.push chunk = some (decoder, events) ∧
          Aggregation.handleEvents codec aggregation.accumulator events = .ok accumulator ∧
          next = ⟨accumulator, decoder, aggregation.aggregatedBytes + chunk.length⟩ := by
  rw [Aggregation.onBytes]
  split
  next ended =>
    simp only [upstreamError, reduceCtorEq, false_iff, not_and]
    omega
  next fits =>
    have small : aggregation.aggregatedBytes + chunk.length ≤ maxAggregatedResponseBytes := by omega
    simp only [small, true_and]
    constructor
    · intro done
      obtain ⟨⟨decoder, events⟩, pushed, done⟩ := bind_eq_ok.mp done
      obtain ⟨accumulator, handled, done⟩ := bind_eq_ok.mp done
      cases done
      refine ⟨decoder, events, accumulator, ?_, handled, rfl⟩
      cases held : aggregation.decoder.push chunk with
      | none => simp [held, orUpstreamError, upstreamError] at pushed
      | some decoded => simpa [held, orUpstreamError] using pushed
    · rintro ⟨decoder, events, accumulator, pushed, handled, rfl⟩
      simp [pushed, orUpstreamError, handled, bind, Except.bind, pure, Except.pure]

theorem aggregate_ok (codec : Codec) (requestId : String) (chunks : List (List UInt8))
    (body : Value) {aggregation : Aggregation}
    (fits : aggregation.aggregatedBytes ≤ maxAggregatedResponseBytes) :
    ((chunks.map Arrival.bytes).foldlM (Aggregation.step codec) aggregation >>=
        fun last => last.onEnded codec requestId) = .ok body ↔
      let payloads := (payloadsFrom aggregation.decoder chunks).1.map (readPayload codec)
      (payloadsFrom aggregation.decoder chunks).2 = true ∧
        aggregation.aggregatedBytes + chunks.flatten.length ≤ maxAggregatedResponseBytes ∧
        payloads.all Payload.wellFormed = true ∧
        ((payloadValues payloads).foldl NonStreamAccumulator.handleValue
          aggregation.accumulator).intoResponse requestId = .ok body := by
  induction chunks generalizing aggregation with
  | nil =>
      simp only [List.map_nil, List.foldlM_nil, payloadsFrom]
      cases finish : aggregation.decoder.finish with
      | none =>
          simp [Aggregation.onEnded, finish, orUpstreamError, upstreamError, bind, Except.bind,
            pure, Except.pure]
      | some events =>
          simp only [Aggregation.onEnded, finish, orUpstreamError, pure_bind, bind_eq_ok,
            aggregateEvents_ok, Except.ok.injEq, exists_eq_left', List.flatten_nil,
            List.length_nil, Nat.add_zero, fits, true_and, List.map_map, and_assoc]
          constructor
          · rintro ⟨accumulator, formed, rfl, done⟩
            exact ⟨formed, done⟩
          · rintro ⟨formed, done⟩
            exact ⟨_, formed, rfl, done⟩
  | cons chunk rest ih =>
      rw [List.map_cons, List.foldlM_cons, bind_assoc, bind_eq_ok]
      simp only [Aggregation.step, onBytes_ok, payloadsFrom, List.flatten_cons, List.length_append]
      cases pushed : aggregation.decoder.push chunk with
      | none => simp
      | some decoded =>
          obtain ⟨decoder, events⟩ := decoded
          simp only [Option.some.injEq, Prod.mk.injEq, List.map_append, List.all_append,
            payloadValues_append, List.foldl_append, List.map_map]
          constructor
          · rintro ⟨next, ⟨small, _, _, accumulator, ⟨rfl, rfl⟩, handled, rfl⟩, done⟩
            obtain ⟨payloads, rfl, formed, rfl⟩ := (aggregateEvents_ok ..).mp handled
            obtain ⟨bounded, total, rest, converted⟩ := (ih small).mp done
            refine ⟨bounded, ?_, ?_, ?_⟩
            · dsimp only at total
              omega
            · simp only [Bool.and_eq_true]
              exact ⟨formed, rest⟩
            · exact converted
          · rintro ⟨bounded, total, formed, converted⟩
            simp only [Bool.and_eq_true] at formed
            have small : aggregation.aggregatedBytes + chunk.length ≤
                maxAggregatedResponseBytes := by omega
            refine ⟨_, ⟨small, _, _, _, ⟨rfl, rfl⟩,
              (aggregateEvents_ok ..).mpr ⟨_, rfl, formed.1, rfl⟩, rfl⟩, ?_⟩
            refine (ih small).mpr ⟨bounded, ?_, formed.2, converted⟩
            dsimp only
            omega

/-- The frames for a response that arrives in these chunks and then ends. -/
def streamFrames (platform : Platform) (requestId fallbackModel : String)
    (exposeThinking : Bool) (chunks : List (List UInt8)) (replies : RoundReplies) :
    List SseFrame :=
  ((StreamBody.start requestId fallbackModel exposeThinking none).run platform
    (chunks.map .bytes ++ [.ended replies])).2

/-- The message for the same response when the client does not stream. -/
def nonStreamMessage (platform : Platform) (requestId fallbackModel : String)
    (exposeThinking : Bool) (chunks : List (List UInt8)) : Fallible Value := do
  let body ← Aggregation.aggregateStreamResponse platform.codec requestId (chunks.map .bytes)
  convertResponse platform body requestId fallbackModel exposeThinking

def responseValues (codec : Codec) (chunks : List (List UInt8)) : List Value :=
  payloadValues (responsePayloads codec chunks)

def FinishedInTime (codec : Codec) (chunks : List (List UInt8)) : Prop :=
  finishesInTime false (eventsBounded chunks) (responsePayloads codec chunks) = true

/-- Every payload can be read, also those after the first `[DONE]`, the response and each of
its events are in their limits, and so can be the arguments of all tool calls. -/
structure ResponseSound (codec : Codec) (chunks : List (List UInt8)) : Prop where
  formed : (responsePayloads codec chunks).all Payload.wellFormed = true
  bounded : eventsBounded chunks = true
  fits : chunks.flatten.length ≤ maxAggregatedResponseBytes
  arguments : ArgumentsParse codec (allCalls (responseValues codec chunks))

def Speaks (codec : Codec) (chunks : List (List UInt8)) : Prop :=
  (responseValues codec chunks).any chunkSpeaks = true

theorem nonStreamMessage_ok (platform : Platform) (requestId fallbackModel : String)
    (exposeThinking : Bool) (chunks : List (List UInt8)) :
    (∃ message, nonStreamMessage platform requestId fallbackModel exposeThinking chunks =
        .ok message) ↔
      ResponseSound platform.codec chunks ∧ Speaks platform.codec chunks := by
  have accumulated := accumulated_values (responseValues platform.codec chunks)
  have converted := accumulated.convert_ok platform requestId fallbackModel exposeThinking
  have small : Aggregation.start.aggregatedBytes ≤ maxAggregatedResponseBytes := Nat.zero_le _
  have aggregated (body : Value) := aggregate_ok platform.codec requestId chunks body small
  simp only [nonStreamMessage, bind_eq_ok, Aggregation.aggregateStreamResponse, aggregated]
  simp only [convertAccumulated, bind_eq_ok] at converted
  constructor
  · rintro ⟨message, body, ⟨bounded, fits, formed, response⟩, done⟩
    obtain ⟨speaks, arguments⟩ := converted.mp ⟨message, body, response, done⟩
    exact ⟨⟨formed, bounded, by simpa [Aggregation.start] using fits, arguments⟩, speaks⟩
  · rintro ⟨sound, speaks⟩
    obtain ⟨message, body, response, done⟩ := converted.mpr ⟨speaks, sound.arguments⟩
    exact ⟨message, body,
      ⟨sound.bounded, by simpa [Aggregation.start] using sound.fits, sound.formed, response⟩, done⟩

theorem streamFrames_ends (platform : Platform) (requestId fallbackModel : String)
    (exposeThinking : Bool) (chunks : List (List UInt8)) (replies : RoundReplies) :
    EndsAs (finishesInTime false (eventsBounded chunks)
        (responsePayloads platform.codec chunks))
      (streamFrames platform requestId fallbackModel exposeThinking chunks replies) := by
  have plain : Plain (StreamBody.start requestId fallbackModel exposeThinking none).state :=
    ⟨rfl, rfl, rfl⟩
  exact run_ends platform replies chunks _ rfl plain rfl

theorem EndsAs.stop_iff {success : Bool} {frames : List SseFrame} (ends : EndsAs success frames) :
    EndsInStop frames ↔ success = true := by
  cases success with
  | true => exact iff_of_true ends rfl
  | false =>
      obtain ⟨envelope, last⟩ := ends
      simp [EndsInStop, last]

theorem EndsAs.error_iff {success : Bool} {frames : List SseFrame} (ends : EndsAs success frames) :
    EndsInError frames ↔ success = false := by
  cases success with
  | true =>
      have last : frames.getLast? = some .messageStop := ends
      simp [EndsInError, last]
  | false => exact iff_of_true ends rfl

theorem finishesInTime_speaks {payloads : List Payload} {finished bounded : Bool}
    (inTime : finishesInTime finished bounded payloads = true) :
    finished = true ∨ (payloadValues payloads).any chunkSpeaks = true := by
  induction payloads generalizing finished with
  | nil =>
      rw [finishesInTime, Bool.and_eq_true] at inTime
      exact .inl inTime.1
  | cons payload rest ih =>
      cases payload with
      | done => exact .inl inTime
      | malformed => cases inTime
      | failed => cases inTime
      | chunk value =>
          rcases ih inTime with before | later
          · rcases Bool.or_eq_true_iff.mp before with early | now
            · exact .inl early
            · exact .inr (by simp [chunkSpeaks, now])
          · exact .inr (by simp [later])

def EndAlike (platform : Platform) (requestId fallbackModel : String) (exposeThinking : Bool)
    (chunks : List (List UInt8)) (replies : RoundReplies) : Prop :=
  let message := nonStreamMessage platform requestId fallbackModel exposeThinking chunks
  let frames := streamFrames platform requestId fallbackModel exposeThinking chunks replies
  ((∃ value, message = .ok value) ↔ EndsInStop frames) ∧
    ((∃ abort, message = .error abort) ↔ EndsInError frames)

theorem truncated_streams_agree (platform : Platform) (requestId fallbackModel : String)
    (exposeThinking : Bool) (chunks : List (List UInt8)) (replies : RoundReplies) :
    EndAlike platform requestId fallbackModel exposeThinking chunks replies ↔
      (FinishedInTime platform.codec chunks → ResponseSound platform.codec chunks) ∧
      (¬FinishedInTime platform.codec chunks →
        ¬(ResponseSound platform.codec chunks ∧ Speaks platform.codec chunks)) := by
  have ends := streamFrames_ends platform requestId fallbackModel exposeThinking chunks replies
  have succeeds := nonStreamMessage_ok platform requestId fallbackModel exposeThinking chunks
  have fails : (∃ abort, nonStreamMessage platform requestId fallbackModel exposeThinking chunks =
      .error abort) ↔ ¬(ResponseSound platform.codec chunks ∧ Speaks platform.codec chunks) := by
    rw [← succeeds]
    cases nonStreamMessage platform requestId fallbackModel exposeThinking chunks <;> simp
  rw [EndAlike, succeeds, fails, ends.stop_iff, ends.error_iff]
  have speaks : FinishedInTime platform.codec chunks → Speaks platform.codec chunks := fun inTime =>
    (finishesInTime_speaks inTime).resolve_left (by simp)
  by_cases inTime : FinishedInTime platform.codec chunks
  · have stops : finishesInTime false (eventsBounded chunks)
        (responsePayloads platform.codec chunks) = true := inTime
    simp [inTime, stops, speaks inTime]
  · have fails : finishesInTime false (eventsBounded chunks)
        (responsePayloads platform.codec chunks) = false := by
      simpa [FinishedInTime] using inTime
    simp [inTime, fails]

/-- A sound response without a finish reason is a message on one path and an error on the
other. -/
theorem late_finish_differs {platform : Platform} {requestId fallbackModel : String}
    {exposeThinking : Bool} {chunks : List (List UInt8)} {replies : RoundReplies}
    (late : finishesInTime false (eventsBounded chunks)
      (responsePayloads platform.codec chunks) = false)
    (sound : ResponseSound platform.codec chunks) (speaks : Speaks platform.codec chunks) :
    ¬EndAlike platform requestId fallbackModel exposeThinking chunks replies := by
  intro alike
  have ends := streamFrames_ends platform requestId fallbackModel exposeThinking chunks replies
  have accepted := (nonStreamMessage_ok platform requestId fallbackModel exposeThinking
    chunks).mpr ⟨sound, speaks⟩
  have stops := ends.stop_iff.mp (alike.1.mp accepted)
  rw [late] at stops
  cases stops

def unfinishedText : String :=
  "\x7b\"choices\":[\x7b\"delta\":\x7b\"content\":\"x\"\x7d\x7d]\x7d"

def unfinishedValue : Value :=
  .object [("choices", .array [.object [("delta", .object [("content", .string "x")])]])]

def unfinishedResponse : List (List UInt8) :=
  [("data: " ++ unfinishedText ++ "\n\n").toList.map fun character =>
    UInt8.ofNat character.toNat]

def unfinishedPlatform : Platform where
  codec := {
    fromStr := fun text => if text = unfinishedText then some unfinishedValue else none
    fromSlice := fun _ => none
    toText := fun _ => "\x7b\x7d" }
  thinkingSignature := fun _ _ => "cline-proxy-v1-0"
  order := id
  order_perm := perm_id

def noReplies : RoundReplies := ⟨fun _ => "", fun _ query => .failed query .unavailable, .unsent⟩

theorem truncated_streams_agree_fails :
    ¬EndAlike unfinishedPlatform "req" "glm" false unfinishedResponse noReplies := by
  refine late_finish_differs ?_ ⟨?_, ?_, ?_, ?_⟩ ?_
  · decide +kernel
  · decide +kernel
  · decide +kernel
  · decide +kernel
  · have quiet : seenIndexes (allCalls (responseValues unfinishedPlatform.codec
        unfinishedResponse)) = [] := by decide +kernel
    intro index member
    rw [quiet] at member
    cases member
  · rw [Speaks]
    decide +kernel

end ClineProxy
