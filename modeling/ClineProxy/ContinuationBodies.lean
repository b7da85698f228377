import ClineProxy.NonStreamLoop
import ClineProxy.ResponsesPumpFacts

/-!
The requests of a search loop after the first one: what each of them says is the first request
with the rounds so far behind its messages.
-/

namespace ClineProxy

open Json

/-- The call messages and the answers of a round, each call answered by its outcome. -/
def replayedMessages (round : SearchRound) : List Value :=
  assistantRound round.calls :: (round.calls.zip round.outcomes).map fun entry =>
    toolMessage entry.1 ((toolResultText entry.2).toOption.getD "")

def addMessages (more : List Value) : Value → Value
  | .array messages => .array (messages ++ more)
  | other => other

/-- The chat body with rounds behind its messages. -/
def withRounds (rounds : List SearchRound) : Value → Value
  | .object fields =>
      .object (Map.update "messages" (addMessages (rounds.flatMap replayedMessages)) fields)
  | other => other

def bodiesAfter (chatBody : Value) (rounds : List SearchRound) : List Value :=
  (List.range rounds.length).map fun before => withRounds (rounds.take (before + 1)) chatBody

theorem addMessages_nil : addMessages [] = id := by
  funext value
  cases value <;> simp [addMessages]

theorem addMessages_twice (first second : List Value) :
    addMessages second ∘ addMessages first = addMessages (first ++ second) := by
  funext value
  cases value <;> simp [addMessages]

theorem withRounds_nil (chatBody : Value) : withRounds [] chatBody = chatBody := by
  cases chatBody with
  | object fields =>
      rw [withRounds, List.flatMap_nil, addMessages_nil]
      exact congrArg Value.object (Map.update_eq_self.mpr fun held _ => rfl)
  | _ => rfl

theorem withRounds_append (first second : List SearchRound) (chatBody : Value) :
    withRounds second (withRounds first chatBody) = withRounds (first ++ second) chatBody := by
  cases chatBody with
  | object fields =>
      simp only [withRounds, Map.update_update, addMessages_twice, List.flatMap_append]
  | _ => rfl

theorem toolMessages_ok {entries : List (OpenAiToolCall × SearchOutcome)} {answers : List Value}
    (made : toolMessages entries = .ok answers) :
    answers = entries.map fun entry =>
      toolMessage entry.1 ((toolResultText entry.2).toOption.getD "") := by
  induction entries generalizing answers with
  | nil =>
      cases made
      rfl
  | cons entry rest ih =>
      obtain ⟨call, outcome⟩ := entry
      rw [toolMessages] at made
      obtain ⟨text, cut, made⟩ := bind_eq_ok.mp made
      obtain ⟨later, others, made⟩ := bind_eq_ok.mp made
      cases made
      rw [ih others, List.map_cons, cut]
      rfl

theorem appendServerRound_eq {chatBody next : Value} {calls : List OpenAiToolCall}
    {outcomes : List SearchOutcome} (appended : appendServerRound chatBody calls outcomes = .ok next) :
    next = withRounds [⟨calls, outcomes⟩] chatBody := by
  rw [appendServerRound] at appended
  split at appended
  next fields messages found list =>
    obtain ⟨answers, made, rfl⟩ := map_eq_ok.mp appended
    obtain rfl := Value.asObject_eq_some found
    obtain ⟨held, stored, items⟩ := Option.bind_eq_some_iff.mp list
    obtain rfl := Value.asArray_eq_some items
    rw [toolMessages_ok made, Map.insert_eq_update stored, withRounds]
    refine congrArg Value.object (Map.update_congr fun other found => ?_)
    obtain rfl : .array messages = other := Option.some.inj (stored.symm.trans found)
    simp [addMessages, replayedMessages]
  next unfit =>
    cases appended
    cases chatBody with
    | object fields =>
        refine (congrArg Value.object (Map.update_eq_self.mpr fun held found => ?_)).symm
        cases held with
        | array messages =>
            have stored : (Value.object fields).get "messages" = some (.array messages) := found
            exact absurd (by rw [stored]; rfl) (unfit fields messages rfl)
        | _ => rfl
    | _ => rfl

theorem bodiesAfter_snoc (chatBody : Value) (rounds : List SearchRound) (last : SearchRound) :
    bodiesAfter chatBody (rounds ++ [last]) =
      bodiesAfter chatBody rounds ++ [withRounds (rounds ++ [last]) chatBody] := by
  rw [bodiesAfter, List.length_append, List.length_singleton, List.range_succ, List.map_append,
    List.map_singleton, bodiesAfter]
  refine congr (congrArg _ (List.map_congr_left fun before member => ?_)) ?_
  · rw [List.take_append_of_le_length (List.mem_range.mp member)]
  · rw [List.take_of_length_le (by simp)]

def SearchRound.Answered (round : SearchRound) : Prop :=
  round.calls ≠ [] ∧ round.outcomes.length = round.calls.length

/-- Every round answers its calls, and all rounds but possibly the last were sent. -/
def Continues (chatBody : Value) (rounds : List SearchRound) (requests : List Value) : Prop :=
  (∀ round ∈ rounds, round.Answered) ∧ ∃ sent unsent, rounds = sent ++ unsent ∧
    unsent.length ≤ 1 ∧ requests = bodiesAfter chatBody sent

/-- A loop that can go on has sent all its rounds. -/
structure GoesOn (chatBody current : Value) (rounds : List SearchRound) (requests : List Value) :
    Prop where
  answered : ∀ round ∈ rounds, round.Answered
  current : current = withRounds rounds chatBody
  requests : requests = bodiesAfter chatBody rounds

namespace GoesOn

variable {chatBody current next : Value} {rounds : List SearchRound} {requests : List Value}
  {calls : List OpenAiToolCall} {outcomes : List SearchOutcome}

theorem start (chatBody : Value) : GoesOn chatBody chatBody [] [] where
  answered := by simp
  current := (withRounds_nil chatBody).symm
  requests := rfl

theorem continues (going : GoesOn chatBody current rounds requests) :
    Continues chatBody rounds requests :=
  ⟨going.answered, rounds, [], (List.append_nil rounds).symm, Nat.zero_le 1, going.requests⟩

theorem unsent (going : GoesOn chatBody current rounds requests)
    (answered : (SearchRound.mk calls outcomes).Answered) :
    Continues chatBody (rounds ++ [⟨calls, outcomes⟩]) requests := by
  refine ⟨fun round member => ?_, rounds, _, rfl, Nat.le_refl 1, going.requests⟩
  rcases List.mem_append.mp member with earlier | last
  · exact going.answered round earlier
  · rwa [List.mem_singleton.mp last]

theorem sent (going : GoesOn chatBody current rounds requests)
    (answered : (SearchRound.mk calls outcomes).Answered)
    (appended : appendServerRound current calls outcomes = .ok next) :
    GoesOn chatBody next (rounds ++ [⟨calls, outcomes⟩]) (requests ++ [next]) where
  answered := (going.unsent answered).1
  current := by rw [appendServerRound_eq appended, going.current, withRounds_append]
  requests := by
    rw [bodiesAfter_snoc, ← going.requests, appendServerRound_eq appended, going.current,
      withRounds_append]

end GoesOn

/-! The streaming loop -/

namespace StreamBody

variable {config : WebSearchConfig} {chatBody : Value} {body : StreamBody}

/-- The loop is open with everything sent, or over. -/
def Recorded (config : WebSearchConfig) (chatBody : Value) (body : StreamBody) : Prop :=
  Continues chatBody body.rounds body.requests ∧ (body.returned = false →
    ∃ current, body.serverLoop = some ⟨config, current⟩ ∧
      GoesOn chatBody current body.rounds body.requests)

theorem recorded_open {current : Value} (declared : body.serverLoop = some ⟨config, current⟩)
    (going : GoesOn chatBody current body.rounds body.requests) : body.Recorded config chatBody :=
  ⟨going.continues, fun _ => ⟨current, declared, going⟩⟩

theorem recorded_return (continues : Continues chatBody body.rounds body.requests)
    (emission : Emission) : (body.returnWith emission).1.Recorded config chatBody :=
  ⟨continues, fun running => nomatch running⟩

theorem recorded_continueRound {current : Value} {calls : List OpenAiToolCall}
    {outcomes : List SearchOutcome} (declared : body.serverLoop = some ⟨config, current⟩)
    (going : GoesOn chatBody current body.rounds body.requests)
    (answered : (SearchRound.mk calls outcomes).Answered) (replies : RoundReplies)
    (shown : Emission) :
    (body.continueRound replies calls outcomes shown).1.Recorded config chatBody := by
  rw [continueRound, declared, appendRound]
  cases appended : appendServerRound current calls outcomes with
  | error abort => exact recorded_return (going.unsent answered) _
  | ok next =>
      have sent := going.sent answered appended
      simp only [Except.map, continueWith]
      cases replies.continuation with
      | success => exact recorded_open rfl sent
      | unwritable => exact recorded_return (going.unsent answered) _
      | unsent | httpError => exact recorded_return sent.continues _

theorem filter_of_serverOnly {calls : List OpenAiToolCall} {names : List String}
    (kind : classifyRound calls names = .serverOnly) :
    (calls.filter fun call => names.contains call.name) ≠ [] := by
  rw [classifyRound] at kind
  split at kind <;> try cases kind
  next searches _ =>
    obtain ⟨call, member, server⟩ := List.any_eq_true.mp searches
    exact List.ne_nil_of_mem (List.mem_filter.mpr ⟨member, server⟩)

theorem length_searchOutcomes (platform : Platform) (replies : RoundReplies) (body : StreamBody)
    (exhausted : Bool) (calls : List OpenAiToolCall) :
    (body.searchOutcomes platform replies exhausted calls).1.length = calls.length := by
  rw [searchOutcomes]
  split
  next => exact List.length_map _
  next => exact executeWebSearchRound_length _ _ _ _

theorem recorded_serverRound (platform : Platform) (replies : RoundReplies) {current : Value}
    (declared : body.serverLoop = some ⟨config, current⟩)
    (going : GoesOn chatBody current body.rounds body.requests) :
    (body.serverRound platform replies).1.Recorded config chatBody := by
  simp only [serverRound]
  cases kind : classifyRound body.state.openaiToolCalls (serverNames body.serverLoop) with
  | none | clientOnly => exact recorded_return going.continues _
  | mixed => exact @recorded_return _ _ (body.searched platform false _) going.continues _
  | serverOnly =>
      dsimp only
      split
      next =>
        refine recorded_return ?_ _
        exact going.continues
      next =>
        refine @recorded_continueRound config chatBody _ current _ _ ?_ ?_ ?_ replies _
        · exact declared
        · exact going
        · exact ⟨filter_of_serverOnly kind, length_searchOutcomes platform replies body _ _⟩

theorem recorded_endOfRound (platform : Platform) (replies : RoundReplies) {current : Value}
    (declared : body.serverLoop = some ⟨config, current⟩)
    (going : GoesOn chatBody current body.rounds body.requests) :
    (body.onEndOfRound platform replies).1.Recorded config chatBody := by
  rw [onEndOfRound]
  split
  next => exact recorded_return going.continues _
  next =>
    rw [declared]
    dsimp only [Option.isNone_some]
    split
    next off => cases off
    next =>
      split
      next => exact recorded_return going.continues _
      next => exact recorded_serverRound platform replies declared going

theorem recorded_step (platform : Platform) (arrival : Arrival)
    (recorded : body.Recorded config chatBody) :
    (body.step platform arrival).1.Recorded config chatBody := by
  unfold step
  split
  next => exact recorded
  next running =>
    obtain ⟨current, declared, going⟩ := recorded.2 (Bool.eq_false_iff.mpr running)
    cases arrival with
    | bytes chunk =>
        simp only [onBytes]
        split
        next => exact recorded_return going.continues _
        next => exact ⟨going.continues, fun _ => ⟨current, declared, going⟩⟩
    | interrupted | stalled kind => exact recorded_return going.continues _
    | idle => exact recorded
    | ended replies =>
        simp only [onEnded]
        split
        next => exact recorded_return going.continues _
        next =>
          split
          next => exact recorded_return going.continues _
          next => exact recorded_endOfRound platform replies declared going

theorem recorded_run (platform : Platform) (arrivals : List Arrival)
    (recorded : body.Recorded config chatBody) :
    (body.run platform arrivals).1.Recorded config chatBody := by
  induction arrivals generalizing body with
  | nil => exact recorded
  | cons arrival rest ih => exact ih (recorded_step platform arrival recorded)

end StreamBody

/-! The loop for clients that do not stream -/

namespace NonStreamLoop

variable {chatBody : Value} {loop : NonStreamLoop}

def Recorded (chatBody : Value) (output : LoopOutput) : Prop :=
  Continues chatBody output.1.rounds output.1.requests ∧ (output.2 = none →
    GoesOn chatBody output.1.chatBody output.1.rounds output.1.requests)

theorem recorded_answer (continues : Continues chatBody loop.rounds loop.requests)
    (platform : Platform) (body : Value) (stopOverride : Option String) :
    Recorded chatBody (loop.answer platform body stopOverride) :=
  ⟨continues, fun open_ => nomatch open_⟩

theorem recorded_continueRound {calls : List OpenAiToolCall} {outcomes : List SearchOutcome}
    (going : GoesOn chatBody loop.chatBody loop.rounds loop.requests)
    (answered : (SearchRound.mk calls outcomes).Answered) (replies : RoundReplies) :
    Recorded chatBody (loop.continueRound replies calls outcomes) := by
  simp only [continueRound]
  cases appended : appendServerRound loop.chatBody calls outcomes with
  | error abort => exact ⟨going.unsent answered, fun open_ => nomatch open_⟩
  | ok next =>
      have sent := going.sent answered appended
      simp only [continueWith]
      cases replies.continuation with
      | success => exact ⟨sent.continues, fun _ => sent⟩
      | unwritable =>
          refine ⟨?_, fun open_ => nomatch open_⟩
          have unsent := going.unsent answered
          rw [← List.append_nil loop.requests] at unsent
          exact unsent
      | unsent | httpError => exact ⟨sent.continues, fun open_ => nomatch open_⟩

theorem recorded_onAggregated (platform : Platform) (replies : RoundReplies) (body : Value)
    (going : GoesOn chatBody loop.chatBody loop.rounds loop.requests) :
    Recorded chatBody (loop.onAggregated platform replies body) := by
  simp only [onAggregated]
  cases kind : classifyRound (extractOpenaiToolCalls body) serverNames with
  | none | clientOnly => exact recorded_answer going.continues platform body _
  | mixed => exact @recorded_answer _ (loop.search platform.codec replies _).1 going.continues _ _ _
  | serverOnly =>
      dsimp only
      split
      next =>
        exact @recorded_answer _ (loop.exhaust platform.codec replies _) going.continues _ _ _
      next =>
        exact @recorded_continueRound _ (loop.search platform.codec replies _).1 _ _ going
          ⟨StreamBody.filter_of_serverOnly kind, executeWebSearchRound_length _ _ _ _⟩ replies

theorem recorded_run (platform : Platform) (upstream : List UpstreamRound)
    (going : GoesOn chatBody loop.chatBody loop.rounds loop.requests) :
    Recorded chatBody (loop.run platform upstream) := by
  induction upstream generalizing loop with
  | nil => exact ⟨going.continues, fun _ => going⟩
  | cons first rest ih =>
      have stepped : Recorded chatBody (loop.round platform first) := by
        rw [round]
        split
        next => exact ⟨going.continues, fun open_ => nomatch open_⟩
        next => exact recorded_onAggregated platform first.replies _ going
      rw [run]
      split
      next next_ answer same =>
        rw [same] at stepped
        exact ⟨stepped.1, fun open_ => nomatch open_⟩
      next next_ same =>
        rw [same] at stepped
        exact ih (stepped.2 rfl)

end NonStreamLoop

/-! The pump of the Responses frontend -/

namespace ResponsesPump

variable {chatBody : Value} {pump : ResponsesPump}

def Recorded (chatBody : Value) (pump : ResponsesPump) : Prop :=
  Continues chatBody pump.rounds pump.requests ∧ (pump.done = false →
    GoesOn chatBody pump.chatBody pump.rounds pump.requests)

theorem recorded_done (continues : Continues chatBody pump.rounds pump.requests)
    (done : pump.done = true) : pump.Recorded chatBody :=
  ⟨continues, fun open_ => absurd done (Bool.eq_false_iff.mp open_)⟩

theorem recorded_fail (continues : Continues chatBody pump.rounds pump.requests)
    (error : ProtocolError) : (pump.fail error).1.Recorded chatBody := by
  rw [fail]
  split <;> exact recorded_done continues rfl

theorem recorded_endOfStream (continues : Continues chatBody pump.rounds pump.requests) :
    pump.endOfStream.1.Recorded chatBody := by
  rw [endOfStream]
  split
  next => exact recorded_fail continues _
  next => exact recorded_done continues rfl

theorem recorded_serverRound (codec : Codec) (replies : RoundReplies)
    (searches : pump.converter.serverToolCalls ≠ [])
    (going : GoesOn chatBody pump.chatBody pump.rounds pump.requests) :
    (pump.serverRound codec replies).1.Recorded chatBody := by
  have answered : (SearchRound.mk pump.converter.serverToolCalls
      (executeServerRound codec replies pump pump.converter.serverToolCalls)).Answered :=
    ⟨searches, executeWebSearchRound_length _ _ _ _⟩
  simp only [serverRound]
  cases appended : appendServerRound pump.chatBody pump.converter.serverToolCalls
      (executeServerRound codec replies pump pump.converter.serverToolCalls) with
  | error abort => exact recorded_done (going.unsent answered) rfl
  | ok next =>
      have sent := going.sent answered appended
      simp only [startContinuation]
      cases replies.continuation with
      | success => exact ⟨sent.continues, fun _ => sent⟩
      | unwritable =>
          refine recorded_fail ?_ _
          have unsent := going.unsent answered
          rw [← List.append_nil pump.requests] at unsent
          exact unsent
      | unsent | httpError => exact recorded_fail sent.continues _

theorem recorded_onDone (codec : Codec) (replies : RoundReplies)
    (going : GoesOn chatBody pump.chatBody pump.rounds pump.requests) :
    (pump.onDone codec replies).1.Recorded chatBody := by
  rw [onDone]
  split
  next => exact recorded_fail going.continues _
  next =>
    split
    next searches =>
      refine recorded_serverRound codec replies ?_ going
      simp only [Bool.and_eq_true] at searches
      obtain ⟨entry, member, server⟩ := List.any_eq_true.mp searches.1.1
      exact List.ne_nil_of_mem (List.mem_map_of_mem (List.mem_filter.mpr ⟨member, server⟩))
    next => exact recorded_endOfStream going.continues

theorem recorded_processLines (codec : Codec) (replies : RoundReplies) (lines : List (List UInt8))
    (going : GoesOn chatBody pump.chatBody pump.rounds pump.requests) :
    (pump.processLines codec replies lines).1.Recorded chatBody := by
  induction lines generalizing pump with
  | nil => exact ⟨going.continues, fun _ => going⟩
  | cons line rest ih =>
      rw [processLines]
      split
      next => exact ih going
      next => exact recorded_onDone codec replies going
      next => exact ih going

theorem recorded_step (codec : Codec) (arrival : PumpArrival) (recorded : pump.Recorded chatBody) :
    (pump.step codec arrival).1.Recorded chatBody := by
  unfold step
  split
  next => exact recorded
  next running =>
    have going := recorded.2 (Bool.eq_false_iff.mpr running)
    cases arrival with
    | bytes chunk replies => exact recorded_processLines codec replies _ going
    | interrupted | stalled kind => exact recorded_fail going.continues _
    | idle => exact recorded
    | ended => exact recorded_endOfStream going.continues

theorem recorded_run (codec : Codec) (arrivals : List PumpArrival)
    (recorded : pump.Recorded chatBody) : (pump.run codec arrivals).1.Recorded chatBody := by
  induction arrivals generalizing pump with
  | nil => exact recorded
  | cons arrival rest ih => exact ih (recorded_step codec arrival recorded)

end ResponsesPump

/-- In every run of the three search loops, the request after the first so many rounds is the
first request with their calls and answers behind its messages, each call answered once. -/
theorem continuation_requests (platform : Platform) (requestId fallbackModel : String)
    (exposeThinking : Bool) (config : WebSearchConfig) (chatBody : Value) :
    (∀ arrivals, let body := ((StreamBody.start requestId fallbackModel exposeThinking
        (some ⟨config, chatBody⟩)).run platform arrivals).1
      Continues chatBody body.rounds body.requests) ∧
    (∀ upstream, let loop := ((NonStreamLoop.start config chatBody requestId fallbackModel
        exposeThinking).run platform upstream).1
      Continues chatBody loop.rounds loop.requests) ∧
    ∀ delivery responseId createdAt webSearch arrivals,
      let pump := ((ResponsesPump.start delivery responseId createdAt fallbackModel exposeThinking
        webSearch chatBody).run platform.codec arrivals).1
      Continues chatBody pump.rounds pump.requests :=
  ⟨fun arrivals => (StreamBody.recorded_run platform arrivals
      (StreamBody.recorded_open rfl (.start chatBody))).1,
    fun upstream => (NonStreamLoop.recorded_run platform upstream (.start chatBody)).1,
    fun _ _ _ _ arrivals => (ResponsesPump.recorded_run platform.codec arrivals
        ⟨(GoesOn.start chatBody).continues, fun _ => .start chatBody⟩).1⟩

end ClineProxy
