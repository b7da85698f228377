import ClineProxy.ResponsesMoves
import ClineProxy.ResponsesPump

/-! What the pump has asked of the converter, and how a run of it ends. -/

namespace ClineProxy

open Json

/-- Calls none of which finishes. -/
def Unfinished (calls : List ConverterCall) : Prop := ∀ call ∈ calls, ∀ error, call ≠ .finish error

theorem unfinished_nil : Unfinished [] := fun _ member => by simp at member

theorem Unfinished.append {first second : List ConverterCall} (begun : Unfinished first)
    (later : Unfinished second) : Unfinished (first ++ second) := fun call member =>
  (List.mem_append.mp member).elim (begun call) (later call)

open ResponsesConverter in
theorem finishing_events (converter : ResponsesConverter) {calls : List ConverterCall}
    (going : Unfinished calls) (error : Option String) :
    (converter.applyAll (calls ++ [.finish error])).events =
      (converter.moveAll (calls.flatMap callMoves)).events ++
        ((converter.moveAll (calls.flatMap callMoves)).1.finish error).events := by
  have last (next : ResponsesConverter) : next.applyAll [.finish error] = next.finish error :=
    ResponsesEmission.andThen_nil _
  rw [applyAll_append, ResponsesEmission.events_andThen, last, applyAll_eq calls converter going]

/-- Every search round answers the server calls of a round without client calls. -/
def Guarded (converter : ResponsesConverter) : List ConverterCall → Prop
  | [] => True
  | call :: rest =>
      (match call with
        | .searchRound calls outcomes => converter.hasServerTools = true ∧
            converter.hasClientTools = false ∧ calls = converter.serverToolCalls ∧
            outcomes.length = calls.length
        | .finish none => converter.finishReason.isSome = true
        | _ => True) ∧
        Guarded (converter.apply call).1 rest

theorem Guarded.append {first second : List ConverterCall} {converter : ResponsesConverter}
    (begun : Guarded converter first) (later : Guarded (converter.applyAll first).1 second) :
    Guarded converter (first ++ second) := by
  induction first generalizing converter with
  | nil => exact later
  | cons call rest ih => exact ⟨begun.1, ih begun.2 later⟩

namespace ResponsesPump

/-- What a pump that is not done makes of an arrival. -/
inductive Outcome (delivery : Delivery) (output : PumpOutput) : Prop where
  | running (alive : output.1.done = false) (whole : output.1.crashed = false)
      (noFailure : output.1.failure = none) (unfinished : Unfinished output.2)
  | crashed (ended : output.1.done = true) (cut : output.1.crashed = true)
      (unfinished : Unfinished output.2)
  | finished (going : List ConverterCall) (error : Option String)
      (made : output.2 = going ++ [.finish error]) (ended : output.1.done = true)
      (whole : output.1.crashed = false) (unfinished : Unfinished going)
      (noFailure : output.1.failure = none)
      (delivered : error.isSome = true → delivery = .streamed)
  | failed (ended : output.1.done = true) (whole : output.1.crashed = false)
      (unfinished : Unfinished output.2) (failure : output.1.failure.isSome = true)
      (aggregated : delivery = .aggregated)

structure Progress (before : ResponsesPump) (output : PumpOutput) : Prop where
  outcome : Outcome before.delivery output
  delivery : output.1.delivery = before.delivery
  webSearch : output.1.webSearch = before.webSearch
  converter : output.1.crashed = false →
    output.1.converter = (before.converter.applyAll output.2).1
  guarded : Guarded before.converter output.2

variable {pump : ResponsesPump}

theorem progress_fail (error : ProtocolError) (whole : pump.crashed = false)
    (noFailure : pump.failure = none) : Progress pump (pump.fail error) := by
  rw [fail]
  split
  next streamed =>
    exact ⟨.finished [] (some error.message) rfl rfl whole unfinished_nil noFailure fun _ => streamed,
      rfl, rfl, fun _ => rfl, trivial, trivial⟩
  next aggregated =>
    exact ⟨.failed rfl whole unfinished_nil rfl aggregated, rfl, rfl, fun _ => rfl, trivial⟩

theorem progress_endOfStream (whole : pump.crashed = false) (noFailure : pump.failure = none) :
    Progress pump pump.endOfStream := by
  rw [endOfStream]
  split
  next => exact progress_fail _ whole noFailure
  next finished =>
    refine ⟨.finished [] none rfl rfl whole unfinished_nil noFailure (by simp), rfl, rfl,
      fun _ => rfl, ?_, trivial⟩
    simpa [Option.isSome_iff_ne_none] using finished

theorem Progress.andThen {first : PumpOutput} {second : PumpOutput}
    (begun : Progress pump first) (alive : first.1.done = false)
    (later : Progress first.1 second) : Progress pump (second.1, first.2 ++ second.2) := by
  have running : first.1.crashed = false ∧ Unfinished first.2 := by
    cases begun.outcome with
    | running _ whole _ unfinished => exact ⟨whole, unfinished⟩
    | crashed ended | finished _ _ _ ended | failed ended => simp [ended] at alive
  have between := begun.converter running.1
  refine ⟨?_, later.delivery.trans begun.delivery, later.webSearch.trans begun.webSearch,
    fun whole => ?_, begun.guarded.append (between ▸ later.guarded)⟩
  · cases later.outcome with
    | running alive whole noFailure unfinished =>
        exact .running alive whole noFailure (running.2.append unfinished)
    | crashed ended cut unfinished => exact .crashed ended cut (running.2.append unfinished)
    | finished going error made ended whole unfinished noFailure delivered =>
        exact .finished (first.2 ++ going) error (by simp [made]) ended whole
          (running.2.append unfinished) noFailure fun some => begun.delivery ▸ delivered some
    | failed ended whole unfinished failure aggregated =>
        exact .failed ended whole (running.2.append unfinished) failure (begun.delivery ▸ aggregated)
  · rw [later.converter whole, between, ResponsesConverter.applyAll_append]
    rfl

theorem progress_startContinuation (continuation : Continuation) (chatBody : Value)
    (alive : pump.done = false) (whole : pump.crashed = false) (noFailure : pump.failure = none) :
    Progress pump (pump.startContinuation continuation chatBody) := by
  simp only [startContinuation]
  split
  next =>
    exact ⟨.running alive whole noFailure unfinished_nil, rfl, rfl, fun _ => rfl, trivial⟩
  next message _ =>
    have failed := @progress_fail { pump with
      chatBody := chatBody
      buffer := []
      requests := pump.requests ++ if continuation = .unwritable then [] else [chatBody] }
      (.upstream message) whole noFailure
    exact ⟨failed.outcome, failed.delivery, failed.webSearch, failed.converter, failed.guarded⟩

theorem progress_serverRound (codec : Codec) (replies : RoundReplies)
    (alive : pump.done = false) (whole : pump.crashed = false) (noFailure : pump.failure = none)
    (server : pump.converter.hasServerTools = true)
    (pure : pump.converter.hasClientTools = false) :
    Progress pump (pump.serverRound codec replies) := by
  let calls := pump.converter.serverToolCalls
  let outcomes := pump.executeServerRound codec replies calls
  let executed : ResponsesPump := { pump with
    roundsLeft := pump.roundsLeft - 1
    rounds := pump.rounds ++ [⟨calls, outcomes⟩]
    searches := pump.searches ++ searchedQueries codec (maxUses pump.webSearch) calls }
  let shown : PumpOutput := executed.call (.searchRound calls outcomes)
  have unfinished : Unfinished shown.2 := by
    intro call member error
    rw [List.mem_singleton.mp member]
    simp
  have guarded : Guarded pump.converter shown.2 :=
    ⟨⟨server, pure, rfl, executeWebSearchRound_length codec replies.search _ _⟩, trivial⟩
  have begun : Progress pump shown :=
    ⟨.running alive whole noFailure unfinished, rfl, rfl, fun _ => rfl, guarded⟩
  simp only [serverRound]
  split
  next => exact ⟨.crashed rfl rfl unfinished, rfl, rfl, (by simp), guarded⟩
  next chatBody _ =>
    exact begun.andThen alive
      (progress_startContinuation replies.continuation chatBody alive whole noFailure)

theorem progress_onDone (codec : Codec) (replies : RoundReplies) (alive : pump.done = false)
    (whole : pump.crashed = false) (noFailure : pump.failure = none) :
    Progress pump (pump.onDone codec replies) := by
  rw [onDone]
  split
  next => exact progress_fail _ whole noFailure
  next =>
    split
    next round =>
      simp only [Bool.and_eq_true, Bool.not_eq_true', decide_eq_true_eq] at round
      exact progress_serverRound codec replies alive whole noFailure round.1.1 round.1.2
    next => exact progress_endOfStream whole noFailure

theorem progress_feed (chunk : Value) (alive : pump.done = false) (whole : pump.crashed = false)
    (noFailure : pump.failure = none) : Progress pump (pump.call (.feedChunk chunk)) := by
  refine ⟨.running alive whole noFailure ?_, rfl, rfl, fun _ => rfl, trivial, trivial⟩
  intro call member error
  rw [List.mem_singleton.mp member]
  simp

theorem progress_refl (alive : pump.done = false) (whole : pump.crashed = false)
    (noFailure : pump.failure = none) : Progress pump (pump, []) :=
  ⟨.running alive whole noFailure unfinished_nil, rfl, rfl, fun _ => rfl, trivial⟩

theorem progress_processLines (codec : Codec) (replies : RoundReplies)
    (lines : List (List UInt8)) (alive : pump.done = false) (whole : pump.crashed = false)
    (noFailure : pump.failure = none) :
    Progress pump (pump.processLines codec replies lines) := by
  induction lines generalizing pump with
  | nil => exact progress_refl alive whole noFailure
  | cons line rest ih =>
      rw [processLines]
      split
      next => exact ih alive whole noFailure
      next => exact progress_onDone codec replies alive whole noFailure
      next chunk _ =>
        exact (progress_feed chunk alive whole noFailure).andThen alive (ih alive whole noFailure)

theorem progress_onBytes (codec : Codec) (replies : RoundReplies) (chunk : List UInt8)
    (alive : pump.done = false) (whole : pump.crashed = false) (noFailure : pump.failure = none) :
    Progress pump (pump.onBytes codec replies chunk) := by
  have processed := @progress_processLines { pump with
    buffer := (splitLines (pump.buffer ++ chunk)).2 } codec replies
    (splitLines (pump.buffer ++ chunk)).1 alive whole noFailure
  simp only [onBytes]
  split
  next cut =>
    refine ⟨?_, processed.delivery, processed.webSearch, fun intact => ?_, trivial⟩
    · cases processed.outcome with
      | running _ whole | finished _ _ _ _ whole | failed _ whole => simp [whole] at cut
      | crashed ended cut _ => exact .crashed ended cut unfinished_nil
    · simp [cut] at intact
  next =>
    exact ⟨processed.outcome, processed.delivery, processed.webSearch, processed.converter,
      processed.guarded⟩

theorem progress_step (codec : Codec) (arrival : PumpArrival) (alive : pump.done = false)
    (whole : pump.crashed = false) (noFailure : pump.failure = none) :
    Progress pump (pump.step codec arrival) := by
  unfold step
  rw [if_neg (by simp [alive])]
  cases arrival with
  | bytes chunk replies => exact progress_onBytes codec replies chunk alive whole noFailure
  | interrupted | stalled kind => exact progress_fail _ whole noFailure
  | idle => exact progress_refl alive whole noFailure
  | ended => exact progress_endOfStream whole noFailure

theorem run_done (codec : Codec) (arrivals : List PumpArrival) (ended : pump.done = true) :
    pump.run codec arrivals = (pump, []) := by
  induction arrivals with
  | nil => rfl
  | cons arrival rest ih => simp [run, step, ended, ih]

theorem progress_run (codec : Codec) (arrivals : List PumpArrival) (alive : pump.done = false)
    (whole : pump.crashed = false) (noFailure : pump.failure = none) :
    Progress pump (pump.run codec arrivals) := by
  induction arrivals generalizing pump with
  | nil => exact progress_refl alive whole noFailure
  | cons arrival rest ih =>
      have stepped := progress_step codec arrival alive whole noFailure
      rw [run]
      cases ended : (pump.step codec arrival).1.done with
      | true =>
          simp only [run_done codec rest ended, List.append_nil]
          exact stepped
      | false =>
          cases stepped.outcome with
          | running alive whole noFailure unfinished =>
              exact stepped.andThen alive (ih alive whole noFailure)
          | crashed done | finished _ _ _ done | failed done => simp [ended] at done

end ResponsesPump

/-- The part of a pump that only search rounds change. -/
structure PumpLog where
  chatBody : Value
  rounds : List SearchRound
  searches : List String
  requests : List Value
  crashed : Bool

def ResponsesPump.log (pump : ResponsesPump) : PumpLog :=
  ⟨pump.chatBody, pump.rounds, pump.searches, pump.requests, pump.crashed⟩

def PumpLog.record (codec : Codec) (maxUses : Nat) (replies : RoundReplies)
    (calls : List OpenAiToolCall) (log : PumpLog) : PumpLog :=
  let outcomes := (executeWebSearchRound codec replies.search maxUses calls).1
  let searched : PumpLog := { log with
    rounds := log.rounds ++ [⟨calls, outcomes⟩]
    searches := log.searches ++ searchedQueries codec maxUses calls }
  match appendServerRound log.chatBody calls outcomes with
  | .error _ => { searched with crashed := true }
  | .ok chatBody => { searched with
      chatBody := chatBody
      requests := log.requests ++
        if replies.continuation = .unwritable then [] else [chatBody] }

namespace ResponsesPump

variable {pump : ResponsesPump}

theorem log_fail (error : ProtocolError) (pump : ResponsesPump) :
    (pump.fail error).1.log = pump.log := by
  rw [fail]
  split <;> rfl

theorem log_endOfStream (pump : ResponsesPump) : pump.endOfStream.1.log = pump.log := by
  rw [endOfStream]
  split
  next => exact log_fail _ pump
  next => rfl

theorem log_serverRound (codec : Codec) (replies : RoundReplies) (pump : ResponsesPump) :
    (pump.serverRound codec replies).1.log =
      pump.log.record codec (maxUses pump.webSearch) replies pump.converter.serverToolCalls := by
  simp only [serverRound, PumpLog.record, executeServerRound, ResponsesPump.log]
  cases appendServerRound pump.chatBody pump.converter.serverToolCalls
    (executeWebSearchRound codec replies.search (maxUses pump.webSearch)
      pump.converter.serverToolCalls).1 with
  | error abort => rfl
  | ok chatBody =>
      simp only [startContinuation]
      split
      next => rfl
      next => exact log_fail _ _

/-- What holds of the log at the start and after every recorded round holds after a run. -/
theorem log_run (codec : Codec) (webSearch : Option ResponsesWebSearchContext)
    {held : PumpLog → Prop}
    (recorded : ∀ log replies calls, held log → log.crashed = false →
      held (log.record codec (maxUses webSearch) replies calls))
    (arrivals : List PumpArrival) (alive : pump.done = false) (whole : pump.crashed = false)
    (noFailure : pump.failure = none) (declared : pump.webSearch = webSearch)
    (start : held pump.log) : held (pump.run codec arrivals).1.log := by
  have onDone {pump : ResponsesPump} (replies : RoundReplies) (whole : pump.crashed = false)
      (declared : pump.webSearch = webSearch) (start : held pump.log) :
      held (pump.onDone codec replies).1.log := by
    rw [ResponsesPump.onDone]
    split
    next => exact log_fail _ pump ▸ start
    next =>
      split
      next =>
        rw [log_serverRound, declared]
        exact recorded _ _ _ start whole
      next => exact log_endOfStream pump ▸ start
  have lines (replies : RoundReplies) (batch : List (List UInt8)) {pump : ResponsesPump}
      (whole : pump.crashed = false) (declared : pump.webSearch = webSearch)
      (start : held pump.log) : held (pump.processLines codec replies batch).1.log := by
    induction batch generalizing pump with
    | nil => exact start
    | cons line rest ih =>
        rw [processLines]
        split
        next => exact ih whole declared start
        next => exact onDone replies whole declared start
        next => exact ih whole declared start
  induction arrivals generalizing pump with
  | nil => exact start
  | cons arrival rest ih =>
      have stepped := progress_step codec arrival alive whole noFailure
      have kept : held (pump.step codec arrival).1.log := by
        unfold ResponsesPump.step
        rw [if_neg (by simp [alive])]
        cases arrival with
        | bytes chunk replies => exact lines replies _ whole declared start
        | interrupted | stalled kind => exact log_fail _ pump ▸ start
        | idle => exact start
        | ended => exact log_endOfStream pump ▸ start
      rw [run]
      cases ended : (pump.step codec arrival).1.done with
      | true => simpa only [run_done codec rest ended] using kept
      | false =>
          cases stepped.outcome with
          | running alive whole noFailure _ =>
              exact ih alive whole noFailure (stepped.webSearch.trans declared) kept
          | crashed done | finished _ _ _ done | failed done => simp [ended] at done

end ResponsesPump

end ClineProxy
