import ClineProxy.ResponsesIndexes
import ClineProxy.ResponsesRuns

/-! What a client that streams is told, beside what one that does not is told. -/

namespace ClineProxy

open Json

namespace ResponsesConverter

variable (responseId : String) (createdAt : UInt64) (error : Option String)
  (converter : ResponsesConverter)

def signed : ResponsesConverter :=
  { converter with responseId := responseId, createdAt := createdAt, error := error }

theorem signed_ensureTextState (kind : TextKind) :
    (converter.signed responseId createdAt error).ensureTextState kind =
      ((converter.ensureTextState kind).1,
        (converter.ensureTextState kind).2.signed responseId createdAt error) := by
  have held : (converter.signed responseId createdAt error).textState kind =
      converter.textState kind := by cases kind <;> rfl
  rw [ensureTextState, ensureTextState, held]
  split <;> rfl

theorem signed_setTextState (kind : TextKind) (state : TextItemState) :
    (converter.signed responseId createdAt error).setTextState kind state =
      (converter.setTextState kind state).signed responseId createdAt error := by
  cases kind <;> rfl

theorem signed_feedTextItem (kind : TextKind) (partFirst : TextItemState → Bool) (text : String) :
    ((converter.signed responseId createdAt error).feedTextItem kind partFirst text).1 =
      (converter.feedTextItem kind partFirst text).1.signed responseId createdAt error := by
  rw [feedTextItem, feedTextItem, signed_ensureTextState]
  simp only [signed_setTextState]
  rw [emitAll_fst, emitAll_fst]
  rfl

theorem signed_closeTextItem (kind : TextKind) (closes : TextItemState → Bool) :
    ((converter.signed responseId createdAt error).closeTextItem kind closes).1 =
      (converter.closeTextItem kind closes).1.signed responseId createdAt error := by
  have held : (converter.signed responseId createdAt error).textState kind =
      converter.textState kind := by cases kind <;> rfl
  rw [closeTextItem, closeTextItem, held]
  cases converter.textState kind with
  | none => rfl
  | some state =>
      dsimp only
      split
      next =>
        rw [signed_setTextState, emitAll_fst, emitAll_fst]
        rfl
      next => rfl

theorem signed_addToolSlot (call : Value) :
    ((converter.signed responseId createdAt error).addToolSlot call).1 =
      (converter.addToolSlot call).1.signed responseId createdAt error := by
  have names : (converter.signed responseId createdAt error).serverToolNames =
      converter.serverToolNames := rfl
  unfold addToolSlot
  dsimp only
  rw [names]
  split
  next => rfl
  next =>
    rw [emitAll_fst, emitAll_fst]
    rfl

theorem signed_ensureToolItemAdded (call : Value) :
    ((converter.signed responseId createdAt error).ensureToolItemAdded call).1 =
      (converter.ensureToolItemAdded call).1.signed responseId createdAt error := by
  have tools : (converter.signed responseId createdAt error).tools = converter.tools := rfl
  rw [ensureToolItemAdded, ensureToolItemAdded, tools]
  split
  next => rfl
  next =>
    simp only [ResponsesEmission.andThen]
    rw [← signed_addToolSlot]
    congr 2
    split
    next => exact signed_closeTextItem responseId createdAt error _ _ _
    next => rfl

theorem signed_move (move : ConverterMove) :
    ((converter.signed responseId createdAt error).move move).1 =
      (converter.move move).1.signed responseId createdAt error := by
  cases move with
  | start =>
      have started : (converter.signed responseId createdAt error).started =
          converter.started := rfl
      rw [ResponsesConverter.move, ResponsesConverter.move, ensureStarted, ensureStarted, started]
      split
      next => rfl
      next =>
        dsimp only
        rw [emitAll_fst, emitAll_fst]
        rfl
  | note chunk | finish reason | newRound => rfl
  | reasoning text =>
      have shown : (converter.signed responseId createdAt error).exposeThinking =
          converter.exposeThinking := rfl
      rw [ResponsesConverter.move, ResponsesConverter.move, feedReasoning, feedReasoning, shown]
      split
      next => exact signed_feedTextItem responseId createdAt error _ _ _ text
      next =>
        rw [signed_ensureTextState]
        exact signed_setTextState responseId createdAt error
          (converter.ensureTextState .reasoning).2 .reasoning _
  | text text => exact signed_feedTextItem responseId createdAt error _ _ _ text
  | register call => exact signed_ensureToolItemAdded responseId createdAt error _ call
  | extend call =>
      have tools : (converter.signed responseId createdAt error).tools = converter.tools := rfl
      rw [ResponsesConverter.move, ResponsesConverter.move, feedToolCallArguments,
        feedToolCallArguments, tools]
      split
      next => rfl
      next =>
        dsimp only
        rw [emitAll_fst, emitAll_fst]
        rfl
  | searched outcome =>
      rw [ResponsesConverter.move, ResponsesConverter.move, emitWebSearchCall, emitWebSearchCall,
        emitAll_fst, emitAll_fst]
      rfl

theorem signed_moveAll (moves : List ConverterMove) :
    ((converter.signed responseId createdAt error).moveAll moves).1 =
      (converter.moveAll moves).1.signed responseId createdAt error := by
  induction moves generalizing converter with
  | nil => rfl
  | cons move rest ih =>
      change (moveAll ((converter.signed responseId createdAt error).move move).1 rest).1 = _
      rw [signed_move, ih]
      rfl

theorem signed_apply (call : ConverterCall) (going : ∀ error, call ≠ .finish error) :
    ((converter.signed responseId createdAt error).apply call).1 =
      (converter.apply call).1.signed responseId createdAt error := by
  rw [apply_eq _ call going, apply_eq _ call going, signed_moveAll]

theorem error_apply (call : ConverterCall) (going : ∀ error, call ≠ .finish error) :
    (converter.apply call).1.error = converter.error := by
  have same := signed_apply converter.responseId converter.createdAt converter.error converter call
    going
  exact (congrArg ResponsesConverter.error same :)

theorem signed_finish :
    ((converter.signed responseId createdAt error).finish none).1 =
      (converter.finish none).1.signed responseId createdAt none := by
  have slots (other : ResponsesConverter) :
      (other.signed responseId createdAt none).finishTools.1 =
        other.finishTools.1.signed responseId createdAt none := by
    rw [finishTools, finishTools, emitAll_fst, emitAll_fst]
    rfl
  have noted : { converter.signed responseId createdAt error with error := none } =
      ({ converter with error := none } : ResponsesConverter).signed responseId createdAt none :=
    rfl
  rw [finish, finish, noted]
  simp only [ResponsesEmission.andThen, closeReasoningItem, closeMessageItem, signed_closeTextItem,
    slots]
  rfl

theorem error_closeTextItem (kind : TextKind) (closes : TextItemState → Bool) :
    (converter.closeTextItem kind closes).1.error = converter.error := by
  have same := signed_closeTextItem converter.responseId converter.createdAt converter.error
    converter kind closes
  exact (congrArg ResponsesConverter.error same :)

theorem error_finish : (converter.finish none).1.error = none := by
  have slots (other : ResponsesConverter) : other.finishTools.1.error = other.error := by
    rw [finishTools, emitAll_fst]
  change ResponsesConverter.error
    ((({ converter with error := none } : ResponsesConverter).closeReasoningItem.andThen
      closeMessageItem).andThen finishTools).1 = none
  simp only [ResponsesEmission.andThen, slots, closeMessageItem, closeReasoningItem,
    error_closeTextItem]

theorem finish_answer :
    (converter.finish error).events.getLast?.bind ResponsesEvent.response =
      some (converter.finish error).1.nonstreamResponse := by
  cases error with
  | some message => rfl
  | none =>
      rw [nonstreamResponse, error_finish, finish, ResponsesEmission.events_andThen]
      exact congrArg (fun event => Option.bind event ResponsesEvent.response)
        List.getLast?_concat

theorem nonstreamResponse_success {converter : ResponsesConverter}
    (noError : converter.error = none) :
    converter.nonstreamResponse = converter.successResponse := by
  rw [nonstreamResponse, noError]

theorem success_status : converter.successResponse.status ≠ .failed := by
  change converter.successStatus ≠ .failed
  rw [successStatus]
  split <;> simp

end ResponsesConverter

namespace ResponsesPump

variable {pump : ResponsesPump}

theorem terminal_streamed (codec : Codec) (arrivals : List PumpArrival)
    (streams : pump.delivery = .streamed) (alive : pump.done = false)
    (whole : pump.crashed = false) (noFailure : pump.failure = none) :
    let last := (pump.run codec arrivals).1
    pump.terminal codec arrivals =
      if last.done && !last.crashed then some last.converter.nonstreamResponse else none := by
  intro last
  have progress := progress_run codec arrivals alive whole noFailure
  have sent : pump.terminal codec arrivals =
      ((pump.converter.applyAll (pump.run codec arrivals).2).2.getLast?.bind
        fun sent => sent.event.response) := by
    rw [terminal, streams]
    rfl
  cases progress.outcome with
  | running alive whole noFailure unfinished =>
      rw [sent, response_unfinished _ unfinished, show last.done = false from alive]
      rfl
  | crashed ended cut unfinished =>
      rw [sent, response_unfinished _ unfinished, show last.crashed = true from cut]
      simp
  | failed ended whole unfinished failure aggregated => simp [streams] at aggregated
  | finished going error made ended whole unfinished noFailure delivered =>
      have held := progress.converter whole
      have finishing (next : ResponsesConverter) :
          next.applyAll [.finish error] = next.finish error :=
        ResponsesEmission.andThen_nil _
      rw [show last.done = true from ended, show last.crashed = false from whole,
        show last.converter = _ from held, sent, last_response, made,
        ResponsesConverter.applyAll_append, ResponsesEmission.events_andThen]
      simp only [finishing, ResponsesEmission.andThen]
      have answer := ResponsesConverter.finish_answer error
        (pump.converter.applyAll going).1
      cases final : ((pump.converter.applyAll going).1.finish error).events.getLast? with
      | none => simp [final] at answer
      | some event =>
          rw [final] at answer
          simpa [List.getLast?_append, final] using answer

def linesAtDone (codec : Codec) (pump : ResponsesPump) : List (List UInt8) → List ResponsesPump
  | [] => []
  | line :: rest =>
      match readLine codec line with
      | .skipped => linesAtDone codec pump rest
      | .done => [pump]
      | .chunk value => linesAtDone codec (pump.call (.feedChunk value)).1 rest

def arrivalAtDone (codec : Codec) (pump : ResponsesPump) : PumpArrival → List ResponsesPump
  | .bytes chunk _ =>
      let (lines, left) := splitLines (pump.buffer ++ chunk)
      if pump.done then [] else linesAtDone codec { pump with buffer := left } lines
  | _ => []

def statesAtDone (codec : Codec) (pump : ResponsesPump) : List PumpArrival → List ResponsesPump
  | [] => []
  | arrival :: rest =>
      pump.arrivalAtDone codec arrival ++ statesAtDone codec (pump.step codec arrival).1 rest

/-- Server tool calls only, with rounds left, but no `finish_reason`. -/
def searchesUnfinished (pump : ResponsesPump) : Bool :=
  pump.converter.finishReason.isNone && pump.converter.hasServerTools &&
    !pump.converter.hasClientTools && 0 < pump.roundsLeft

def aggregating (responseId : String) (createdAt : UInt64) (pump : ResponsesPump) :
    ResponsesPump :=
  { pump with
    delivery := .aggregated
    converter := pump.converter.signed responseId createdAt none }

/-- How far two deliveries agree, until both fail. -/
inductive Mirrored (responseId : String) (createdAt : UInt64)
    (streamed aggregated : ResponsesPump) : Prop where
  | same (equal : aggregated = streamed.aggregating responseId createdAt)
      (streams : streamed.delivery = .streamed) (noError : streamed.converter.error = none)
      (noFailure : streamed.failure = none)
  | failed (streamedDone : streamed.done = true) (aggregatedDone : aggregated.done = true)
      (message : streamed.converter.error.isSome = true)
      (failure : aggregated.failure.isSome = true) (rounds : aggregated.rounds = streamed.rounds)

/-- The client that waits has been refused a round that the other one got. -/
structure Ahead (streamed aggregated : ResponsesPump) : Prop where
  refused : aggregated.done = true
  further : aggregated.rounds.length < streamed.rounds.length

structure Follows (responseId : String) (createdAt : UInt64) (states : List ResponsesPump)
    (streamed aggregated : ResponsesPump) : Prop where
  mirrored : states.any searchesUnfinished = false →
    Mirrored responseId createdAt streamed aggregated
  ahead : states.any searchesUnfinished = true → Ahead streamed aggregated

def searched (codec : Codec) (replies : RoundReplies) (pump : ResponsesPump) : ResponsesPump :=
  let calls := pump.converter.serverToolCalls
  let outcomes := pump.executeServerRound codec replies calls
  (call { pump with
    roundsLeft := pump.roundsLeft - 1
    rounds := pump.rounds ++ [⟨calls, outcomes⟩]
    searches := pump.searches ++ searchedQueries codec (maxUses pump.webSearch) calls }
    (.searchRound calls outcomes)).1

theorem serverRound_fst (codec : Codec) (replies : RoundReplies) (pump : ResponsesPump) :
    (pump.serverRound codec replies).1 =
      match appendServerRound pump.chatBody pump.converter.serverToolCalls
        (pump.executeServerRound codec replies pump.converter.serverToolCalls) with
      | .error _ => { pump.searched codec replies with done := true, crashed := true }
      | .ok chatBody =>
          ((pump.searched codec replies).startContinuation replies.continuation chatBody).1 := by
  simp only [serverRound]
  cases appendServerRound pump.chatBody pump.converter.serverToolCalls
    (pump.executeServerRound codec replies pump.converter.serverToolCalls) <;> rfl

theorem Follows.after {responseId : String} {createdAt : UInt64}
    {earlier later : List ResponsesPump} {streamed aggregated : ResponsesPump}
    (quiet : earlier.any searchesUnfinished = false)
    (follows : Follows responseId createdAt later streamed aggregated) :
    Follows responseId createdAt (earlier ++ later) streamed aggregated := by
  constructor <;> rw [List.any_append, quiet, Bool.false_or]
  · exact follows.mirrored
  · exact follows.ahead

section Steps

variable (responseId : String) (createdAt : UInt64)

theorem mirrored_fail (error : ProtocolError) (streams : pump.delivery = .streamed) :
    Mirrored responseId createdAt (pump.fail error).1
      ((pump.aggregating responseId createdAt).fail error).1 := by
  have failed : pump.fail error =
      { pump with done := true }.call (.finish (some error.message)) := by rw [fail, streams]
  rw [failed]
  exact .failed rfl rfl rfl rfl rfl

theorem mirrored_endOfStream (streams : pump.delivery = .streamed)
    (noFailure : pump.failure = none) :
    Mirrored responseId createdAt pump.endOfStream.1
      (pump.aggregating responseId createdAt).endOfStream.1 := by
  have reason : (pump.aggregating responseId createdAt).converter.finishReason =
      pump.converter.finishReason := rfl
  rw [endOfStream, endOfStream, reason]
  split
  next => exact mirrored_fail responseId createdAt _ streams
  next =>
    refine .same ?_ streams (ResponsesConverter.error_finish _) noFailure
    have finished := ResponsesConverter.signed_finish responseId createdAt none pump.converter
    exact congrArg (fun converter : ResponsesConverter =>
      { pump with done := true, delivery := .aggregated, converter := converter }) finished

theorem aggregating_call (call : ConverterCall) (going : ∀ error, call ≠ .finish error) :
    ((pump.aggregating responseId createdAt).call call).1 =
      (pump.call call).1.aggregating responseId createdAt :=
  congrArg (fun converter : ResponsesConverter =>
      { pump with delivery := .aggregated, converter := converter })
    (ResponsesConverter.signed_apply responseId createdAt none pump.converter call going)

theorem searched_aggregating (codec : Codec) (replies : RoundReplies) :
    (pump.aggregating responseId createdAt).searched codec replies =
      (pump.searched codec replies).aggregating responseId createdAt :=
  let calls := pump.converter.serverToolCalls
  let outcomes := pump.executeServerRound codec replies calls
  @aggregating_call { pump with
    roundsLeft := pump.roundsLeft - 1
    rounds := pump.rounds ++ [⟨calls, outcomes⟩]
    searches := pump.searches ++ searchedQueries codec (maxUses pump.webSearch) calls }
    responseId createdAt (.searchRound calls outcomes) (by simp)

theorem mirrored_startContinuation (continuation : Continuation) (chatBody : Value)
    (streams : pump.delivery = .streamed) (noError : pump.converter.error = none)
    (noFailure : pump.failure = none) :
    Mirrored responseId createdAt (pump.startContinuation continuation chatBody).1
      ((pump.aggregating responseId createdAt).startContinuation continuation chatBody).1 := by
  simp only [startContinuation]
  split
  next => exact .same rfl streams noError noFailure
  next =>
    exact @mirrored_fail { pump with
      chatBody := chatBody
      buffer := []
      requests := pump.requests ++ if continuation = .unwritable then [] else [chatBody] }
      responseId createdAt _ streams

theorem mirrored_serverRound (codec : Codec) (replies : RoundReplies)
    (streams : pump.delivery = .streamed) (noError : pump.converter.error = none)
    (noFailure : pump.failure = none) :
    Mirrored responseId createdAt (pump.serverRound codec replies).1
      ((pump.aggregating responseId createdAt).serverRound codec replies).1 := by
  have noError : (pump.searched codec replies).converter.error = none :=
    (ResponsesConverter.error_apply _ _ (by simp)).trans noError
  rw [serverRound_fst, serverRound_fst, searched_aggregating]
  change Mirrored responseId createdAt _ (match appendServerRound pump.chatBody
      pump.converter.serverToolCalls
      (pump.executeServerRound codec replies pump.converter.serverToolCalls) with
    | .error _ => _
    | .ok chatBody => _)
  cases appendServerRound pump.chatBody pump.converter.serverToolCalls
    (pump.executeServerRound codec replies pump.converter.serverToolCalls) with
  | error abort => exact .same rfl streams noError noFailure
  | ok chatBody =>
      exact mirrored_startContinuation responseId createdAt _ chatBody streams noError noFailure

theorem follows_onDone (codec : Codec) (replies : RoundReplies)
    (streams : pump.delivery = .streamed) (noError : pump.converter.error = none)
    (noFailure : pump.failure = none) :
    Follows responseId createdAt [pump] (pump.onDone codec replies).1
      ((pump.aggregating responseId createdAt).onDone codec replies).1 := by
  have goes : pump.onDone codec replies =
      if (pump.converter.hasServerTools && !pump.converter.hasClientTools &&
        decide (0 < pump.roundsLeft)) = true then pump.serverRound codec replies
      else pump.endOfStream := by
    rw [onDone, streams]
    rfl
  have waits : (pump.aggregating responseId createdAt).onDone codec replies =
      if pump.converter.finishReason.isNone = true then
        (pump.aggregating responseId createdAt).fail unexpectedEnd
      else if (pump.converter.hasServerTools && !pump.converter.hasClientTools &&
        decide (0 < pump.roundsLeft)) = true then
        (pump.aggregating responseId createdAt).serverRound codec replies
      else (pump.aggregating responseId createdAt).endOfStream := by
    rw [onDone]
    simp only [aggregating, decide_true, Bool.true_and]
    rfl
  rw [goes, waits]
  constructor
  · intro fine
    split
    next round =>
      have finished : pump.converter.finishReason.isNone = false := by
        simp only [Bool.and_eq_true, decide_eq_true_eq] at round
        simpa [searchesUnfinished, round] using fine
      rw [if_neg (by simp [finished])]
      exact mirrored_serverRound responseId createdAt codec replies streams noError noFailure
    next =>
      split
      next unfinished =>
        rw [endOfStream, if_pos unfinished]
        exact mirrored_fail responseId createdAt _ streams
      next => exact mirrored_endOfStream responseId createdAt streams noFailure
  · intro searches
    simp only [List.any_cons, List.any_nil, Bool.or_false, searchesUnfinished,
      Bool.and_eq_true] at searches
    have rounds : (pump.serverRound codec replies).1.rounds =
        pump.rounds ++ [⟨pump.converter.serverToolCalls,
          pump.executeServerRound codec replies pump.converter.serverToolCalls⟩] := by
      refine (congrArg PumpLog.rounds (log_serverRound codec replies pump)).trans ?_
      rw [PumpLog.record]
      dsimp only
      split <;> rfl
    rw [if_pos (by simp [searches]), if_pos searches.1.1.1]
    refine ⟨rfl, ?_⟩
    rw [rounds, List.length_append]
    exact Nat.lt_succ_self _

theorem follows_processLines (codec : Codec) (replies : RoundReplies)
    (lines : List (List UInt8)) (streams : pump.delivery = .streamed)
    (noError : pump.converter.error = none) (noFailure : pump.failure = none) :
    Follows responseId createdAt (pump.linesAtDone codec lines)
      (pump.processLines codec replies lines).1
      ((pump.aggregating responseId createdAt).processLines codec replies lines).1 := by
  induction lines generalizing pump with
  | nil => exact ⟨fun _ => .same rfl streams noError noFailure, by simp [linesAtDone]⟩
  | cons line rest ih =>
      rw [linesAtDone, processLines, processLines]
      cases readLine codec line with
      | skipped => exact ih streams noError noFailure
      | done => exact follows_onDone responseId createdAt codec replies streams noError noFailure
      | chunk value =>
          have noError : (pump.call (.feedChunk value)).1.converter.error = none :=
            (ResponsesConverter.error_apply _ (.feedChunk value) (by simp)).trans noError
          have fed := @aggregating_call pump responseId createdAt (.feedChunk value) (by simp)
          dsimp only
          rw [fed]
          exact ih streams noError noFailure

theorem follows_step (codec : Codec) (arrival : PumpArrival) (streams : pump.delivery = .streamed)
    (alive : pump.done = false) (noError : pump.converter.error = none)
    (noFailure : pump.failure = none) :
    Follows responseId createdAt (pump.arrivalAtDone codec arrival) (pump.step codec arrival).1
      ((pump.aggregating responseId createdAt).step codec arrival).1 := by
  have running : (pump.aggregating responseId createdAt).done = false := alive
  unfold step
  rw [if_neg (by simp [alive]), if_neg (by simp [running])]
  cases arrival with
  | bytes chunk replies =>
      have states : pump.arrivalAtDone codec (.bytes chunk replies) =
          linesAtDone codec { pump with buffer := (splitLines (pump.buffer ++ chunk)).2 }
            (splitLines (pump.buffer ++ chunk)).1 := if_neg (by simp [alive])
      rw [states]
      exact @follows_processLines { pump with buffer := (splitLines (pump.buffer ++ chunk)).2 }
        responseId createdAt codec replies _ streams noError noFailure
  | interrupted | stalled kind =>
      exact ⟨fun _ => mirrored_fail responseId createdAt _ streams, by simp [arrivalAtDone]⟩
  | idle => exact ⟨fun _ => .same rfl streams noError noFailure, by simp [arrivalAtDone]⟩
  | ended =>
      exact ⟨fun _ => mirrored_endOfStream responseId createdAt streams noFailure,
        by simp [arrivalAtDone]⟩

theorem answer_aggregating (noFailure : pump.failure = none) :
    (pump.aggregating responseId createdAt).answer =
      if pump.done && !pump.crashed then
        some (.ok { pump.converter.successResponse with
          responseId := responseId, createdAt := createdAt })
      else none := by
  have failure : (pump.aggregating responseId createdAt).failure = none := noFailure
  rw [answer, failure]
  rfl

end Steps

theorem rounds_run (codec : Codec) (arrivals : List PumpArrival) (alive : pump.done = false)
    (whole : pump.crashed = false) (noFailure : pump.failure = none) :
    pump.rounds.length ≤ (pump.run codec arrivals).1.rounds.length := by
  refine @log_run pump codec pump.webSearch (fun log => pump.rounds.length ≤ log.rounds.length)
    (fun log replies calls held _ => ?_) arrivals alive whole noFailure rfl (Nat.le_refl _)
  rw [PumpLog.record]
  dsimp only
  split
  all_goals
    simp only [List.length_append]
    omega

theorem statesAtDone_done (codec : Codec) (arrivals : List PumpArrival) (ended : pump.done = true) :
    pump.statesAtDone codec arrivals = [] := by
  induction arrivals with
  | nil => rfl
  | cons arrival rest ih =>
      have stays : (pump.step codec arrival).1 = pump := by simp [step, ended]
      have quiet : pump.arrivalAtDone codec arrival = [] := by
        cases arrival <;> simp [arrivalAtDone, ended]
      rw [statesAtDone, stays, ih, quiet]
      rfl

theorem Progress.running {output : PumpOutput} (progress : Progress pump output)
    (alive : output.1.done = false) : output.1.crashed = false ∧ output.1.failure = none := by
  cases progress.outcome with
  | running _ whole noFailure => exact ⟨whole, noFailure⟩
  | crashed ended | finished _ _ _ ended | failed ended => simp [ended] at alive

theorem follows_run (responseId : String) (createdAt : UInt64) (codec : Codec)
    (arrivals : List PumpArrival) (streams : pump.delivery = .streamed)
    (alive : pump.done = false) (whole : pump.crashed = false)
    (noError : pump.converter.error = none) (noFailure : pump.failure = none) :
    Follows responseId createdAt (pump.statesAtDone codec arrivals) (pump.run codec arrivals).1
      ((pump.aggregating responseId createdAt).run codec arrivals).1 := by
  induction arrivals generalizing pump with
  | nil => exact ⟨fun _ => .same rfl streams noError noFailure, by simp [statesAtDone]⟩
  | cons arrival rest ih =>
      have stepped := follows_step responseId createdAt codec arrival streams alive noError
        noFailure
      have progress := progress_step codec arrival alive whole noFailure
      rw [statesAtDone, run, run]
      dsimp only
      cases searches : (pump.arrivalAtDone codec arrival).any searchesUnfinished with
      | true =>
          obtain ⟨refused, further⟩ := stepped.ahead searches
          refine ⟨fun fine => by simp [searches] at fine, fun _ => ?_⟩
          rw [run_done codec rest refused]
          cases ended : (pump.step codec arrival).1.done with
          | true => rw [run_done codec rest ended]; exact ⟨refused, further⟩
          | false =>
              obtain ⟨whole, noFailure⟩ := progress.running ended
              exact ⟨refused, Nat.lt_of_lt_of_le further
                (rounds_run codec rest ended whole noFailure)⟩
      | false =>
          refine Follows.after searches ?_
          cases stepped.mirrored searches with
          | failed streamedDone aggregatedDone message failure rounds =>
              rw [run_done codec rest streamedDone, run_done codec rest aggregatedDone,
                statesAtDone_done codec rest streamedDone]
              exact ⟨fun _ => .failed streamedDone aggregatedDone message failure rounds,
                by simp⟩
          | same equal streams noError noFailure =>
              rw [equal]
              cases ended : (pump.step codec arrival).1.done with
              | true =>
                  rw [run_done codec rest ended, run_done codec rest
                    (show ((pump.step codec arrival).1.aggregating _ _).done = true from ended),
                    statesAtDone_done codec rest ended]
                  exact ⟨fun _ => .same rfl streams noError noFailure, by simp⟩
              | false =>
                  exact ih streams ended (progress.running ended).1 noError noFailure

end ResponsesPump

/-- A client that waits gets an answer exactly when one that streams gets a success, after the
same rounds, and the same response but for its id and timestamp. -/
structure DeliveriesAgree (codec : Codec) (streamed aggregated : ResponsesPump)
    (arrivals : List PumpArrival) : Prop where
  success : (∃ sent, streamed.terminal codec arrivals = some sent ∧ sent.status ≠ .failed) ↔
    ∃ returned, (aggregated.run codec arrivals).1.answer = some (.ok returned)
  rounds : (aggregated.run codec arrivals).1.rounds = (streamed.run codec arrivals).1.rounds
  response : ∀ sent returned, streamed.terminal codec arrivals = some sent →
    (aggregated.run codec arrivals).1.answer = some (.ok returned) →
    returned = { sent with responseId := returned.responseId, createdAt := returned.createdAt }

open ResponsesPump in
/-- The deliveries agree exactly when no `[DONE]` ends a round of searches that has not named a
`finish_reason`: only the client that streams gets that round. -/
theorem responses_deliveries (codec : Codec) (responseId otherId : String)
    (createdAt otherAt : UInt64) (model : String) (exposeThinking : Bool)
    (webSearch : Option ResponsesWebSearchContext) (chatBody : Value)
    (arrivals : List PumpArrival) :
    let streamed := start .streamed responseId createdAt model exposeThinking webSearch chatBody
    let aggregated := start .aggregated otherId otherAt model exposeThinking webSearch chatBody
    DeliveriesAgree codec streamed aggregated arrivals ↔
      ∀ state ∈ streamed.statesAtDone codec arrivals, state.searchesUnfinished = false := by
  intro streamed aggregated
  have follows : Follows otherId otherAt (streamed.statesAtDone codec arrivals)
      (streamed.run codec arrivals).1 (aggregated.run codec arrivals).1 :=
    follows_run otherId otherAt codec arrivals rfl rfl rfl rfl rfl
  have terminal := @terminal_streamed streamed codec arrivals rfl rfl rfl rfl
  dsimp only at terminal
  constructor
  · intro agree state member
    by_contra searches
    have unfinished := List.any_eq_true.mpr ⟨state, member, by simpa using searches⟩
    have further := (follows.ahead unfinished).further
    rw [agree.rounds] at further
    exact Nat.lt_irrefl _ further
  · intro fine
    have quiet : (streamed.statesAtDone codec arrivals).any searchesUnfinished = false := by
      simpa using fine
    cases follows.mirrored quiet with
    | same equal streams noError noFailure =>
        have answer := (congrArg answer equal).trans
          (answer_aggregating otherId otherAt noFailure)
        rw [ResponsesConverter.nonstreamResponse_success noError] at terminal
        refine ⟨?_, (congrArg ResponsesPump.rounds equal).trans rfl, ?_⟩
        · rw [terminal, answer]
          split
          next =>
            exact ⟨fun _ => ⟨_, rfl⟩, fun _ => ⟨_, rfl, ResponsesConverter.success_status _⟩⟩
          next => simp
        · rw [terminal, answer]
          split
          next =>
            intro sent returned given told
            cases given
            cases told
            rfl
          next => simp
    | failed streamedDone aggregatedDone message failure rounds =>
        have unanswered (returned : ResponseObject) :
            (aggregated.run codec arrivals).1.answer ≠ some (.ok returned) := by
          obtain ⟨error, known⟩ := Option.isSome_iff_exists.mp failure
          rw [ResponsesPump.answer, known]
          split <;> simp
        refine ⟨⟨?_, ?_⟩, rounds,
          fun sent returned given told => absurd told (unanswered returned)⟩
        · rintro ⟨sent, given, success⟩
          obtain ⟨error, known⟩ := Option.isSome_iff_exists.mp message
          rw [terminal, ResponsesConverter.nonstreamResponse, known] at given
          split at given
          next => exact absurd (congrArg ResponseObject.status (Option.some.inj given).symm) success
          next => cases given
        · rintro ⟨returned, told⟩
          exact absurd told (unanswered returned)

def unfinishedSearch : Value :=
  chunkOf [("tool_calls", .array [wholeCall 0 "call_0" webSearchFunctionName leanQueryText])] []

def unfinishedCodec : Codec := documentCodec [leanQuery, unfinishedSearch, stopChunk]

theorem responses_deliveries_fail :
    let arrivals := [searchArrival unfinishedSearch, stopArrival]
    let start (delivery : Delivery) := ResponsesPump.start delivery "resp_1" 0 "glm" false
      (some ⟨2, none⟩) (.object [])
    ((start .streamed).terminal unfinishedCodec arrivals).map ResponseObject.status =
        some .completed ∧
      ((start .aggregated).run unfinishedCodec arrivals).1.answer.map Except.isOk =
        some false ∧
      ¬DeliveriesAgree unfinishedCodec (start .streamed) (start .aggregated) arrivals := by
  refine ⟨by decide +kernel, by decide +kernel, fun agree => ?_⟩
  have same := congrArg List.length agree.rounds
  revert same
  decide +kernel

end ClineProxy
