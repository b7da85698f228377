import ClineProxy.RequestSummaries

/-! For which requests exactly one summary is emitted, with the true outcome. -/

namespace ClineProxy

open Json

/-- Exactly one summary, that is `complete` for a complete response only. -/
def OneTrueSummary (summaries : List String) (complete : Prop) : Prop :=
  ∃ outcome, summaries = [outcome] ∧ (outcome = completeOutcome ↔ complete)

theorem oneTrueSummary_nil (complete : Prop) : ¬OneTrueSummary [] complete := by
  rintro ⟨outcome, made, -⟩
  cases made

theorem oneTrueSummary_one {outcome : String} {complete : Prop} :
    OneTrueSummary [outcome] complete ↔ (outcome = completeOutcome ↔ complete) := by
  constructor
  · rintro ⟨other, made, right⟩
    exact (List.cons.inj made).1 ▸ right
  · exact fun right => ⟨outcome, rfl, right⟩

theorem oneTrueSummary_complete {complete : Prop} :
    OneTrueSummary [completeOutcome] complete ↔ complete := by
  rw [oneTrueSummary_one]
  simp

theorem oneTrueSummary_other {outcome : String} {complete : Prop}
    (other : outcome ≠ completeOutcome) : OneTrueSummary [outcome] complete ↔ ¬complete := by
  rw [oneTrueSummary_one]
  simp [other]

theorem asStr_not_complete (kind : StallKind) : kind.asStr ≠ completeOutcome := by
  cases kind <;> decide

/-! Streams of Anthropic requests -/

namespace Client

theorem phase_ended {client last : Client} {frames : List SseFrame}
    (ended : client.phase = .ended) (followed : client.follow frames = some last) :
    last.phase = .ended := by
  induction frames generalizing client with
  | nil =>
      cases followed
      exact ended
  | cons frame rest ih =>
      obtain ⟨next, accepted, later⟩ := Option.bind_eq_some_iff.mp followed
      refine ih ?_ later
      cases frame <;> simp_all [accept]

theorem phase_stop {client last : Client} {frames : List SseFrame}
    (followed : client.follow frames = some last) (stop : .messageStop ∈ frames) :
    last.phase = .ended := by
  induction frames generalizing client with
  | nil => cases stop
  | cons frame rest ih =>
      obtain ⟨next, accepted, later⟩ := Option.bind_eq_some_iff.mp followed
      rcases List.mem_cons.mp stop with rfl | member
      · refine phase_ended ?_ later
        rw [accept] at accepted
        split at accepted
        next =>
          cases accepted
          rfl
        next => cases accepted
      · exact ih later member

theorem stop_first {client last : Client} {front : List SseFrame} {frame : SseFrame}
    (real : frame.isPing = false) (followed : client.follow (front ++ [frame]) = some last) :
    .messageStop ∉ front := by
  intro stop
  rw [follow_append] at followed
  obtain ⟨middle, first, later⟩ := Option.bind_eq_some_iff.mp followed
  have ended := phase_stop first stop
  obtain ⟨next, accepted, -⟩ := Option.bind_eq_some_iff.mp later
  cases frame <;> simp_all [accept, SseFrame.isPing]

end Client

namespace StreamRun

/-- The client does not leave with the whole message before the stream is finished; when it stays,
nothing goes wrong after a finish reason, and the response does not end unclosed. -/
def RecordsTruly (platform : Platform) (run : StreamRun) : Prop :=
  if run.suspended platform then
    ¬(run.taken = some (run.frames platform).length ∧ EndsInStop (run.frames platform))
  else run.body.neverFailsLate platform run.arrivals = true ∧
    run.body.neverEndsUnclosed platform run.arrivals = true

variable (platform : Platform) (run : StreamRun)

theorem produced_eq (stays : run.suspended platform = false) :
    run.produced platform = run.frames platform := by
  rw [suspended] at stays
  rw [produced]
  cases taken : run.taken with
  | none => rfl
  | some count =>
      simp only [taken, Option.any_some, decide_eq_false_iff_not] at stays
      exact List.take_of_length_le (by omega)

theorem endsInStop_mem {frames : List SseFrame} (ends : EndsInStop frames) :
    .messageStop ∈ frames := List.mem_of_getLast? ends

theorem runEnd_frames : RunEnd platform run.body run.arrivals
    (run.body.run platform run.arrivals) :=
  runEnd_run platform run.arrivals (attends_start run.requestId run.fallbackModel
    run.exposeThinking run.serverLoop) rfl

theorem follows_frames : ∃ last, Client.new.follow (run.frames platform) = some last ∧
    Attends (run.body.run platform run.arrivals).1 last :=
  serves_run platform run.arrivals (attends_start run.requestId run.fallbackModel
    run.exposeThinking run.serverLoop)

theorem stop_last {front : List SseFrame} {frame : SseFrame} (real : frame.isPing = false)
    (split : run.frames platform = front ++ [frame]) : .messageStop ∉ front := by
  obtain ⟨last, followed, -⟩ := run.follows_frames platform
  exact Client.stop_first real (split ▸ followed)

theorem waiting_unstopped (alive : (run.body.run platform run.arrivals).1.returned = false) :
    .messageStop ∉ run.frames platform := by
  intro member
  obtain ⟨last, followed, attends⟩ := run.follows_frames platform
  have ended := Client.phase_stop followed member
  rcases attends with ⟨returned, -⟩ | ⟨-, -, -, synced⟩
  · simp [returned] at alive
  · rw [synced.phase] at ended
    split at ended <;> cases ended

theorem cut_unstopped (error : (run.body.run platform run.arrivals).1.crashed = true ∨
    EndsInError (run.frames platform)) : .messageStop ∉ run.frames platform := by
  intro member
  rcases error with crashed | ⟨envelope, final⟩
  · obtain ⟨last, followed, attends⟩ := run.follows_frames platform
    have ended := Client.phase_stop followed member
    rcases attends with ⟨-, phase⟩ | ⟨-, whole, -⟩
    · rw [crashed, ended] at phase
      cases phase
    · simp [whole] at crashed
  · obtain ⟨front, split⟩ := List.getLast?_eq_some_iff.mp final
    have none_before := @run.stop_last platform front (.error envelope) rfl split
    rw [split] at member
    rcases List.mem_append.mp member with before | now
    · exact absurd before none_before
    · simp at now

theorem stop_of_mem (member : .messageStop ∈ run.frames platform) :
    EndsInStop (run.frames platform) := by
  cases run.runEnd_frames platform with
  | delivered exit left returned stop => exact stop
  | going stays alive => exact absurd member (run.waiting_unstopped platform alive)
  | cut exit left returned error => exact absurd member (run.cut_unstopped platform error)

theorem stop_taken {count : Nat} (few : count ≤ (run.frames platform).length) :
    .messageStop ∈ (run.frames platform).take count ↔
      count = (run.frames platform).length ∧ EndsInStop (run.frames platform) := by
  constructor
  · intro member
    have ends := run.stop_of_mem platform (List.mem_of_mem_take member)
    refine ⟨Nat.le_antisymm few (Nat.le_of_not_lt fun short => ?_), ends⟩
    obtain ⟨front, split⟩ := List.getLast?_eq_some_iff.mp ends
    refine run.stop_last platform rfl split ?_
    rw [split, List.length_append, List.length_singleton] at short
    rw [split, List.take_append_of_le_length (by omega)] at member
    exact List.mem_of_mem_take member
  · rintro ⟨rfl, ends⟩
    rw [List.take_length]
    exact endsInStop_mem ends

theorem suspended_iff (leaves : run.suspended platform = true) :
    OneTrueSummary (run.summaries platform) (run.complete platform) ↔
      ¬(run.taken = some (run.frames platform).length ∧ EndsInStop (run.frames platform)) := by
  have dropped : run.summaries platform = ["client_disconnected"] := by
    rw [summaries, if_pos leaves]
    rfl
  rw [dropped, oneTrueSummary_other (by decide), complete, produced]
  refine not_congr ?_
  rw [suspended] at leaves
  cases taken : run.taken with
  | none => simp [taken] at leaves
  | some count =>
      rw [Option.elim_some, run.stop_taken platform (by simpa [taken] using leaves)]
      simp

theorem summaries_stays (stays : run.suspended platform = false) :
    run.summaries platform =
      [((run.body.leftBy platform run.arrivals).bind (StreamExit.outcome run.timedOut)).getD
        "client_disconnected"] := by
  rw [summaries, if_neg (by simp [stays])]
  cases (run.body.leftBy platform run.arrivals).bind (StreamExit.outcome run.timedOut) <;> rfl

theorem outcome_complete {exit : StreamExit} :
    (exit.outcome run.timedOut).getD "client_disconnected" = completeOutcome ↔
      exit = .finished ∨ exit = .terminal true := by
  cases exit with
  | terminal finished => cases finished <;> simp [StreamExit.outcome, completeOutcome]
  | interrupted =>
      cases timed : run.timedOut <;> simp [StreamExit.outcome, completeOutcome]
  | stalled kind => simp [StreamExit.outcome, asStr_not_complete]
  | finished => simp [StreamExit.outcome]
  | decodeError | trailing | unexpectedEof | unwritable | httpError | unsent | crashed =>
      simp [StreamExit.outcome, completeOutcome]

theorem stays_iff (stays : run.suspended platform = false) :
    OneTrueSummary (run.summaries platform) (run.complete platform) ↔
      run.body.neverFailsLate platform run.arrivals = true ∧
        run.body.neverEndsUnclosed platform run.arrivals = true := by
  rw [run.summaries_stays platform stays, oneTrueSummary_one, complete,
    run.produced_eq platform stays]
  cases run.runEnd_frames platform with
  | going left alive early closed =>
      rw [left]
      have unstopped := run.waiting_unstopped platform alive
      simp [early, closed, unstopped, completeOutcome]
  | delivered exit left returned stop early which =>
      have stopped : .messageStop ∈ run.frames platform := endsInStop_mem stop
      rw [left, Option.bind_some, outcome_complete, iff_true_right stopped]
      simp only [early, true_and]
      split at which
      next closed => simp [closed, which]
      next unclosed => simp [unclosed, which]
  | cut exit left returned error unfinished closed late =>
      rw [left, Option.bind_some, outcome_complete,
        iff_false_right (run.cut_unstopped platform error)]
      simp [unfinished, late, closed]

theorem oneTrueSummary_iff :
    OneTrueSummary (run.summaries platform) (run.complete platform) ↔
      run.RecordsTruly platform := by
  rw [RecordsTruly]
  cases stays : run.suspended platform with
  | true => exact run.suspended_iff platform stays
  | false => exact run.stays_iff platform stays

end StreamRun

/-! Handlers of Anthropic requests -/

theorem aggregation_told {codec : Codec} {requestId : String} {arrivals : List Arrival}
    {abort : Abort} (failed : Aggregation.aggregateStreamResponse codec requestId arrivals =
      .error abort) :
    ∃ error, abort = .rejected error ∧ errorKind error ≠ completeOutcome := by
  obtain ⟨error, rejected, kinds⟩ := told_aggregate codec requestId arrivals abort failed
  refine ⟨error, rejected, ?_⟩
  rw [errorKind]
  cases kind : error.stallKind with
  | none => decide
  | some name =>
      obtain ⟨stall, rfl⟩ := kinds name kind
      exact asStr_not_complete stall

theorem conversion_iff {Result : Type} {converted : Fallible Result} (whole : Whole converted) :
    OneTrueSummary (conversionSummaries converted) (∃ value, converted = .ok value) := by
  cases converted with
  | ok value => exact oneTrueSummary_complete.mpr ⟨value, rfl⟩
  | error abort =>
      cases abort with
      | panicked => exact absurd rfl whole
      | rejected error => exact (oneTrueSummary_other (by decide)).mpr (by simp)

theorem PlainRun.oneTrueSummary_iff (platform : Platform) (run : PlainRun) :
    OneTrueSummary (run.summaries platform) (run.complete platform) ↔
      run.response.isSome = true := by
  rw [summaries, complete]
  cases response : run.response with
  | none =>
      simp only [aggregated, response, Option.map_none, Option.isSome_none, Bool.false_eq_true,
        iff_false]
      exact oneTrueSummary_nil _
  | some arrivals =>
      simp only [aggregated, response, Option.map_some, Option.isSome_some, iff_true]
      cases made : Aggregation.aggregateStreamResponse platform.codec run.requestId arrivals with
      | error abort =>
          obtain ⟨error, rfl, other⟩ := aggregation_told made
          exact (oneTrueSummary_other other).mpr (by simp)
      | ok body =>
          have told := conversion_iff (whole_convertResponseWith platform body run.requestId
            run.fallbackModel run.exposeThinking plainOptions)
          simpa [PlainRun.converted, convertResponse] using told

namespace NonStreamLoop

variable (platform : Platform)

/-- The result texts of a round of server calls are cut between characters, and the next request
gets a response. -/
def Continues (upstream : UpstreamRound) (body : Value) (loop : NonStreamLoop) : Prop :=
  let calls := (extractOpenaiToolCalls body).filter fun call => serverNames.contains call.name
  let outcomes := (executeWebSearchRound platform.codec upstream.replies.search loop.usesLeft
    calls).1
  (TakesRounds loop.chatBody → SearchRound.TextsCut ⟨calls, outcomes⟩) ∧
    upstream.replies.continuation = .success

/-- Each round that goes on can go on, and the client waits for the last. -/
def Served (loop : NonStreamLoop) : List UpstreamRound → Prop
  | [] => False
  | upstream :: rest =>
      match Aggregation.aggregateStreamResponse platform.codec loop.requestId
          upstream.arrivals with
      | .error _ => True
      | .ok body =>
          leavesLoop (extractOpenaiToolCalls body) serverNames loop.usesLeft
              (loop.generationRounds + 1) = true ∨
            loop.Continues platform upstream body ∧
              (loop.round platform upstream).1.Served rest

inductive RoundAnswer (platform : Platform) (loop : NonStreamLoop) (upstream : UpstreamRound)
    (body : Value) (answer : Option LoopAnswer) : Prop where
  | answered (leaves : leavesLoop (extractOpenaiToolCalls body) serverNames loop.usesLeft
        (loop.generationRounds + 1) = true)
      (converted : (∃ value, answer = some (.message value)) ∨
        ∃ error, answer = some (.protocolError error))
  | cut (stays : leavesLoop (extractOpenaiToolCalls body) serverNames loop.usesLeft
        (loop.generationRounds + 1) = false)
      (stopped : ¬loop.Continues platform upstream body)
      (unanswered : answer = some .crashed ∨
        ∃ continuation, answer = some (.continuationFailed continuation))
  | goesOn (stays : leavesLoop (extractOpenaiToolCalls body) serverNames loop.usesLeft
        (loop.generationRounds + 1) = false)
      (going : loop.Continues platform upstream body) (waits : answer = none)

theorem roundAnswer_round {loop : NonStreamLoop} {upstream : UpstreamRound} {body : Value}
    (aggregated : Aggregation.aggregateStreamResponse platform.codec loop.requestId
      upstream.arrivals = .ok body) :
    RoundAnswer platform loop upstream body (loop.round platform upstream).2 := by
  have answers (last : NonStreamLoop) (stopOverride : Option String)
      (leaves : leavesLoop (extractOpenaiToolCalls body) serverNames loop.usesLeft
        (loop.generationRounds + 1) = true) :
      RoundAnswer platform loop upstream body (last.answer platform body stopOverride).2 := by
    refine .answered leaves ?_
    have whole := whole_convertResponseWith platform body last.requestId last.fallbackModel
      last.exposeThinking ⟨last.extraBlocks, serverNames, last.webSearchRequests, stopOverride⟩
    rw [answer]
    split
    next value _ => exact .inl ⟨value, rfl⟩
    next abort failed =>
      cases abort with
      | panicked => exact absurd failed whole
      | rejected error => exact .inr ⟨error, rfl⟩
  simp only [round, aggregated, onAggregated]
  cases kind : classifyRound (extractOpenaiToolCalls body) serverNames with
  | none => exact answers _ _ (leavesLoop_other _ _ (by simp [kind]))
  | clientOnly => exact answers _ _ (leavesLoop_other _ _ (by simp [kind]))
  | mixed => exact answers _ _ (leavesLoop_other _ _ (by simp [kind]))
  | serverOnly =>
      have leaves := leavesLoop_serverOnly loop.usesLeft (loop.generationRounds + 1) kind
      dsimp only
      split
      next spent => exact answers _ _ (leaves.trans spent)
      next more =>
        have stays := leaves.trans (Bool.not_eq_true _ ▸ more)
        have written : loop.Continues platform upstream body ↔
            (appendServerRound loop.chatBody _ _).isOk = true ∧
              upstream.replies.continuation = .success :=
          and_congr_left' (SearchRound.writable_iff loop.chatBody ⟨_, _⟩).symm
        simp only [search, continueRound, showOutcomes]
        cases appended : appendServerRound loop.chatBody
            ((extractOpenaiToolCalls body).filter fun call => serverNames.contains call.name)
            (executeWebSearchRound platform.codec upstream.replies.search loop.usesLeft
              ((extractOpenaiToolCalls body).filter fun call =>
                serverNames.contains call.name)).1 with
        | error abort =>
            obtain rfl := appendServerRound_error appended
            refine .cut stays ?_ (.inl rfl)
            rw [written, appended]
            simp [Except.isOk, Except.toBool]
        | ok chatBody =>
            have next : loop.Continues platform upstream body ↔
                upstream.replies.continuation = .success := by
              rw [written, appended]
              simp [Except.isOk, Except.toBool]
            simp only [continueWith]
            split
            next success => exact .goesOn stays (next.mpr success) rfl
            next failed => exact .cut stays (mt next.mp failed) (.inr ⟨_, rfl⟩)

theorem oneTrueSummary_iff (rounds : List UpstreamRound) (loop : NonStreamLoop) :
    OneTrueSummary (loop.summaries platform rounds)
        (∃ value, (loop.run platform rounds).2 = some (.message value)) ↔
      loop.Served platform rounds := by
  induction rounds generalizing loop with
  | nil => exact iff_of_false (oneTrueSummary_nil _) id
  | cons upstream rest ih =>
      rw [NonStreamLoop.summaries, run, Served]
      cases made : Aggregation.aggregateStreamResponse platform.codec loop.requestId
          upstream.arrivals with
      | error abort =>
          obtain ⟨error, rfl, other⟩ := aggregation_told made
          simp only [round, made, abortAnswer, iff_true]
          exact (oneTrueSummary_other other).mpr (by simp)
      | ok body =>
          have answered := roundAnswer_round platform made
          generalize loop.round platform upstream = output at answered ⊢
          obtain ⟨next, answer⟩ := output
          dsimp only at answered ⊢
          cases answered with
          | answered leaves converted =>
              rcases converted with ⟨value, rfl⟩ | ⟨error, rfl⟩
              · exact iff_of_true (oneTrueSummary_complete.mpr ⟨value, rfl⟩) (.inl leaves)
              · exact iff_of_true ((oneTrueSummary_other (by decide)).mpr (by simp)) (.inl leaves)
          | cut stays stopped unanswered =>
              have unserved : ¬(leavesLoop (extractOpenaiToolCalls body) serverNames
                  loop.usesLeft (loop.generationRounds + 1) = true ∨
                  loop.Continues platform upstream body ∧ next.Served platform rest) := by
                simp [stays, stopped]
              rcases unanswered with rfl | ⟨continuation, rfl⟩
              · exact iff_of_false (oneTrueSummary_nil _) unserved
              · exact iff_of_false (oneTrueSummary_nil _) unserved
          | goesOn stays going waits =>
              subst waits
              simpa [stays, going] using ih next

end NonStreamLoop

/-! Responses requests -/

namespace ResponsesPump

/-- At `[DONE]`, an aggregation fails for want of a finish reason or with the request for the next
round. -/
def doneFails (replies : RoundReplies) (pump : ResponsesPump) : Bool :=
  pump.converter.finishReason.isNone ||
    (pump.converter.hasServerTools && !pump.converter.hasClientTools &&
      decide (0 < pump.roundsLeft) && (continuationFailure replies.continuation).isSome)

def linesFail (codec : Codec) (replies : RoundReplies) (pump : ResponsesPump) :
    List (List UInt8) → Bool
  | [] => false
  | line :: rest =>
      match readLine codec line with
      | .skipped => linesFail codec replies pump rest
      | .done => pump.doneFails replies
      | .chunk value => linesFail codec replies (pump.call (.feedChunk value)).1 rest

def stepFails (codec : Codec) (pump : ResponsesPump) : PumpArrival → Bool
  | .bytes chunk replies => pump.linesFail codec replies (splitLines (pump.buffer ++ chunk)).1
  | .interrupted | .stalled _ => true
  | .idle => false
  | .ended => pump.converter.finishReason.isNone

/-- No arrival fails an aggregation before it is over. -/
def neverFails (codec : Codec) (pump : ResponsesPump) : List PumpArrival → Bool
  | [] => true
  | arrival :: rest =>
      pump.done || !pump.stepFails codec arrival && neverFails codec (pump.step codec arrival).1 rest

variable {codec : Codec} {replies : RoundReplies} {pump : ResponsesPump}

theorem linesFail_buffer (buffer : List UInt8) (lines : List (List UInt8)) :
    linesFail codec replies { pump with buffer := buffer } lines =
      pump.linesFail codec replies lines := by
  induction lines generalizing pump with
  | nil => rfl
  | cons line rest ih =>
      rw [linesFail, linesFail]
      cases readLine codec line with
      | skipped => exact ih
      | done => rfl
      | chunk value => exact @ih (pump.call (.feedChunk value)).1

theorem failure_fail (aggregates : pump.delivery = .aggregated) (error : ProtocolError) :
    (pump.fail error).1.failure = some error := by
  rw [fail, aggregates]

theorem failure_endOfStream (aggregates : pump.delivery = .aggregated)
    (noFailure : pump.failure = none) :
    pump.endOfStream.1.failure = none ↔ pump.converter.finishReason.isNone = false := by
  rw [endOfStream]
  cases unnamed : pump.converter.finishReason.isNone with
  | true => simp [failure_fail aggregates]
  | false => simpa [call] using noFailure

theorem failure_serverRound (aggregates : pump.delivery = .aggregated)
    (noFailure : pump.failure = none)
    (whole : (pump.serverRound codec replies).1.crashed = false) :
    (pump.serverRound codec replies).1.failure = none ↔
      (continuationFailure replies.continuation).isSome = false := by
  unfold serverRound at whole ⊢
  dsimp only at whole ⊢
  split
  next crash =>
    rw [crash] at whole
    cases whole
  next chatBody written =>
    rw [startContinuation]
    cases continuationFailure replies.continuation with
    | none => simpa [call] using noFailure
    | some message => simp [failure_fail, call, aggregates]

theorem failure_onDone (aggregates : pump.delivery = .aggregated) (noFailure : pump.failure = none)
    (whole : (pump.onDone codec replies).1.crashed = false) :
    (pump.onDone codec replies).1.failure = none ↔ pump.doneFails replies = false := by
  rw [onDone] at whole ⊢
  rw [doneFails]
  cases unnamed : pump.converter.finishReason.isNone with
  | true => simp [aggregates, failure_fail]
  | false =>
      rw [unnamed] at whole
      rw [Bool.and_false, if_neg Bool.false_ne_true] at whole ⊢
      rw [Bool.false_or]
      split at whole
      next goesOn =>
        rw [if_pos goesOn, goesOn, Bool.true_and]
        exact failure_serverRound aggregates noFailure whole
      next stays =>
        rw [if_neg stays, Bool.eq_false_iff.mpr stays, Bool.false_and]
        exact (failure_endOfStream aggregates noFailure).trans (iff_of_true unnamed rfl)

theorem failure_processLines (lines : List (List UInt8)) (aggregates : pump.delivery = .aggregated)
    (noFailure : pump.failure = none)
    (whole : (pump.processLines codec replies lines).1.crashed = false) :
    (pump.processLines codec replies lines).1.failure = none ↔
      pump.linesFail codec replies lines = false := by
  induction lines generalizing pump with
  | nil => simp [processLines, linesFail, noFailure]
  | cons line rest ih =>
      rw [processLines] at whole ⊢
      rw [linesFail]
      cases read : readLine codec line with
      | skipped =>
          rw [read] at whole
          exact ih aggregates noFailure whole
      | done =>
          rw [read] at whole
          exact failure_onDone aggregates noFailure whole
      | chunk value =>
          rw [read] at whole
          exact ih aggregates noFailure whole

theorem failure_step (arrival : PumpArrival) (aggregates : pump.delivery = .aggregated)
    (alive : pump.done = false) (noFailure : pump.failure = none)
    (whole : (pump.step codec arrival).1.crashed = false) :
    (pump.step codec arrival).1.failure = none ↔ pump.stepFails codec arrival = false := by
  unfold step at whole ⊢
  rw [if_neg (by simp [alive])] at whole ⊢
  cases arrival with
  | bytes chunk replies =>
      exact (@failure_processLines codec replies { pump with
        buffer := (splitLines (pump.buffer ++ chunk)).2 } (splitLines (pump.buffer ++ chunk)).1
        aggregates noFailure whole).trans (by rw [stepFails, linesFail_buffer])
  | interrupted | stalled kind => simp [failure_fail aggregates, stepFails]
  | idle => simpa [stepFails] using noFailure
  | ended => exact failure_endOfStream aggregates noFailure

/-- An aggregation that does not panic fails only with one of its arrivals. -/
theorem failure_run (arrivals : List PumpArrival) (aggregates : pump.delivery = .aggregated)
    (alive : pump.done = false) (intact : pump.crashed = false) (noFailure : pump.failure = none)
    (whole : (pump.run codec arrivals).1.crashed = false) :
    (pump.run codec arrivals).1.failure = none ↔ pump.neverFails codec arrivals = true := by
  induction arrivals generalizing pump with
  | nil => simp [run, neverFails, noFailure]
  | cons arrival rest ih =>
      have stepped := progress_step codec arrival alive intact noFailure
      have fails := @failure_step codec pump arrival aggregates alive noFailure
      rw [run] at whole ⊢
      rw [neverFails, alive, Bool.false_or, Bool.and_eq_true, Bool.not_eq_true']
      cases ended : (pump.step codec arrival).1.done with
      | true =>
          have rested : neverFails codec (pump.step codec arrival).1 rest = true := by
            cases rest <;> simp [neverFails, ended]
          simp only [run_done codec rest ended] at whole ⊢
          rw [rested, and_iff_left rfl]
          exact fails whole
      | false =>
          cases stepped.outcome with
          | running going kept sound =>
              rw [← fails kept, and_iff_right sound]
              exact ih (stepped.delivery.trans aggregates) going kept sound whole
          | crashed stopped | finished _ _ _ stopped | failed stopped => simp [stopped] at ended

end ResponsesPump

namespace PumpRun

variable (codec : Codec) (run : PumpRun)

/-- The client waits for the end, the result texts of all rounds are cut between characters, and
no arrival fails an aggregation. -/
def RecordsTruly : Prop :=
  let last := run.last codec
  last.done = true ∧ (TakesRounds run.chatBody → ∀ round ∈ last.rounds, round.TextsCut) ∧
    (run.delivery = .streamed ∨ run.pump.neverFails codec run.arrivals = true)

theorem status_iff (converter : ResponsesConverter) :
    (converter.nonstreamResponse.status = .completed ∨
      converter.nonstreamResponse.status = .incomplete) ↔ converter.error = none := by
  cases failed : converter.error with
  | some message =>
      rw [ResponsesConverter.nonstreamResponse, failed]
      simp [ResponsesConverter.failedResponse, ResponsesConverter.terminalResponse,
        ResponsesConverter.baseResponse]
  | none =>
      rw [ResponsesConverter.nonstreamResponse_success failed]
      change converter.successStatus = .completed ∨ converter.successStatus = .incomplete ↔ _
      rw [ResponsesConverter.successStatus]
      split <;> simp

theorem outcome_last : ResponsesPump.Outcome run.delivery (run.pump.run codec run.arrivals) :=
  (@ResponsesPump.progress_run run.pump codec run.arrivals rfl rfl rfl).outcome

/-- A stream keeps its errors to its converter, an aggregation to itself. -/
theorem failure_streamed (streams : run.delivery = .streamed)
    (whole : (run.last codec).crashed = false) : (run.last codec).failure = none := by
  cases run.outcome_last codec with
  | running alive _ noFailure => exact noFailure
  | finished going error made ended _ unfinished noFailure => exact noFailure
  | failed ended _ unfinished failure aggregated => simp [streams] at aggregated
  | crashed ended cut => simp [last, cut] at whole

theorem error_aggregated (aggregates : run.delivery = .aggregated)
    (ended : (run.last codec).done = true) (whole : (run.last codec).crashed = false)
    (noFailure : (run.last codec).failure = none) : (run.last codec).converter.error = none := by
  have taken :=
    (@ResponsesPump.progress_run run.pump codec run.arrivals rfl rfl rfl).converter whole
  cases run.outcome_last codec with
  | running alive => simp [last, alive] at ended
  | crashed _ cut => simp [last, cut] at whole
  | failed _ _ _ failure =>
      rw [last] at noFailure
      simp [noFailure] at failure
  | finished going error made _ _ _ _ delivered =>
      have succeeded : error = none := by
        cases error with
        | none => rfl
        | some message => simp [aggregates] at delivered
      subst succeeded
      rw [last, taken, made, ResponsesConverter.applyAll_append]
      exact ResponsesConverter.error_finish _

theorem terminal_last : run.pump.terminal codec run.arrivals =
    if (run.last codec).done && !(run.last codec).crashed && (run.last codec).failure.isNone then
      some (run.last codec).converter.nonstreamResponse
    else none := by
  cases delivered : run.delivery with
  | streamed =>
      have held : run.pump.terminal codec run.arrivals =
          if (run.last codec).done && !(run.last codec).crashed then
            some (run.last codec).converter.nonstreamResponse
          else none :=
        @ResponsesPump.terminal_streamed run.pump codec run.arrivals delivered rfl rfl rfl
      rw [held]
      cases whole : (run.last codec).crashed with
      | true => simp
      | false => simp [run.failure_streamed codec delivered whole]
  | aggregated =>
      have kept : run.pump.delivery = .aggregated := delivered
      rw [ResponsesPump.terminal, kept, show (run.pump.run codec run.arrivals).1 = run.last codec
        from rfl, ResponsesPump.answer]
      cases ended : (run.last codec).done && !(run.last codec).crashed with
      | false => simp
      | true => cases failure : (run.last codec).failure <;> simp

theorem complete_iff : run.complete codec ↔ (run.last codec).done = true ∧
    (run.last codec).crashed = false ∧ (run.last codec).failure = none ∧
      (run.last codec).converter.error = none := by
  rw [complete, terminal_last]
  split
  next ended =>
    simp only [Bool.and_eq_true, Bool.not_eq_true', Option.isNone_iff_eq_none] at ended
    simp [ended.1.1, ended.1.2, ended.2, status_iff]
  next running =>
    simp only [Bool.and_eq_true, Bool.not_eq_true', Option.isNone_iff_eq_none] at running
    refine iff_of_false (by simp) fun ended => running ⟨⟨ended.1, ended.2.1⟩, ended.2.2.1⟩

theorem whole_iff : (run.last codec).crashed = false ↔
    (TakesRounds run.chatBody → ∀ round ∈ (run.last codec).rounds, round.TextsCut) := by
  have crashes : (run.last codec).crashed =
      !(run.last codec).rounds.all (SearchRound.writable run.chatBody) :=
    run_crashes codec run.pump run.arrivals rfl rfl rfl rfl
  rw [← writable_rounds_iff, ← List.all_eq_true, crashes, Bool.not_eq_false']

theorem failure_iff (aggregates : run.delivery = .aggregated)
    (whole : (run.last codec).crashed = false) :
    (run.last codec).failure = none ↔ run.pump.neverFails codec run.arrivals = true :=
  ResponsesPump.failure_run run.arrivals aggregates rfl rfl rfl whole

theorem oneTrueSummary_iff :
    OneTrueSummary (run.summaries codec) (run.complete codec) ↔ run.RecordsTruly codec := by
  rw [complete_iff, summaries, RecordsTruly, ← whole_iff]
  cases ended : (run.last codec).done && !(run.last codec).crashed with
  | false =>
      refine iff_of_false ?_ fun truly => ?_
      · rw [if_neg (by simp)]
        exact oneTrueSummary_nil _
      · simp [truly.1, truly.2.1] at ended
  | true =>
      simp only [Bool.and_eq_true, Bool.not_eq_true'] at ended
      rw [if_pos rfl]
      simp only [ended.1, ended.2, true_and]
      cases delivered : run.delivery with
      | streamed =>
          have noFailure := run.failure_streamed codec delivered ended.2
          refine iff_of_true ?_ (by simp)
          cases failed : (run.last codec).converter.error with
          | none => exact oneTrueSummary_complete.mpr ⟨noFailure, rfl⟩
          | some message =>
              exact (oneTrueSummary_other (by simp [completeOutcome])).mpr (by simp)
      | aggregated =>
          rw [← run.failure_iff codec delivered ended.2]
          cases failure : (run.last codec).failure with
          | some error =>
              exact iff_of_false (oneTrueSummary_nil _) (by simp)
          | none =>
              have noError := run.error_aggregated codec delivered ended.1 ended.2 failure
              exact iff_of_true (oneTrueSummary_complete.mpr ⟨rfl, noError⟩) (by simp)

end PumpRun

namespace RequestRun

/-- The kinds of runs that are recorded with one summary that tells the truth. -/
def RecordsTruly (platform : Platform) : RequestRun → Prop
  | anthropicUnsent => True
  | anthropicStream run => run.RecordsTruly platform
  | anthropicPlain run => run.response.isSome = true
  | anthropicLoop run => run.loop.Served platform run.rounds
  | responses run => run.RecordsTruly platform.codec
  | anthropicLeft | anthropicHttpError | anthropicUnpolled | responsesLeft | responsesUnsent
  | responsesHttpError => False

end RequestRun

theorem request_summaries (platform : Platform) (run : RequestRun) :
    OneTrueSummary (run.summaries platform) (run.complete platform) ↔
      run.RecordsTruly platform := by
  cases run with
  | anthropicUnsent =>
      exact iff_of_true ((oneTrueSummary_other (by decide)).mpr id) trivial
  | anthropicStream run => exact run.oneTrueSummary_iff platform
  | anthropicPlain run => exact run.oneTrueSummary_iff platform
  | anthropicLoop run => exact NonStreamLoop.oneTrueSummary_iff platform run.rounds run.loop
  | responses run => exact run.oneTrueSummary_iff platform.codec
  | anthropicLeft | anthropicHttpError | anthropicUnpolled | responsesLeft | responsesUnsent
  | responsesHttpError => exact iff_of_false (oneTrueSummary_nil _) id

def stopEvent : Value := chunkOf [("content", .string "hi")] (finished "stop")

def errorEvent : Value := .object [("error", .object [("message", .string "overloaded")])]

def lateErrorRun : StreamRun where
  requestId := "req_1"
  fallbackModel := "glm"
  exposeThinking := false
  serverLoop := none
  arrivals := [.bytes (eventBytes [stopEvent, errorEvent]), .ended silentReplies]
  timedOut := false
  taken := none

def lateErrorPlatform : Platform := searchPlatform [stopEvent, errorEvent]

theorem request_summaries_fail :
    (RequestRun.anthropicStream lateErrorRun).summaries lateErrorPlatform = ["complete"] ∧
      ¬OneTrueSummary ((RequestRun.anthropicStream lateErrorRun).summaries lateErrorPlatform)
        ((RequestRun.anthropicStream lateErrorRun).complete lateErrorPlatform) := by
  refine ⟨by decide +kernel, fun one => ?_⟩
  have truly := (lateErrorRun.oneTrueSummary_iff lateErrorPlatform).mp one
  rw [StreamRun.RecordsTruly, if_neg (by decide +kernel)] at truly
  have late : lateErrorRun.body.neverFailsLate lateErrorPlatform lateErrorRun.arrivals = false := by
    decide +kernel
  simp [late] at truly

end ClineProxy
