import ClineProxy.GroundingChecks
import ClineProxy.JsonText
import ClineProxy.NonStreamLoop
import ClineProxy.SseLifecycle

/-! What the two search loops of Anthropic requests spend, and how they end. -/

namespace ClineProxy

open Json Text

inductive Ending where
  | answer
  | toolUse
  | pauseTurn
  | failed
  deriving DecidableEq

def stopEnding (reason : Value) : Ending :=
  if reason.asStr = some "tool_use" then .toolUse
  else if reason.asStr = some "pause_turn" then .pauseTurn
  else .answer

def SseFrame.ending : SseFrame → Option Ending
  | messageDelta reason .. => some (stopEnding reason)
  | error _ => some .failed
  | _ => none

def LoopAnswer.ending : LoopAnswer → Option Ending
  | message value => some (stopEnding ((value.get "stop_reason").getD .null))
  | protocolError _ => some .failed
  | continuationFailed _ => some .failed
  | crashed => none

def declaredBudget (tool : Value) : Nat :=
  ((tool.get "max_uses").bind Value.asU64).elim maxWebSearchUsesPerRequest.toNat fun uses =>
    min uses.toNat maxWebSearchUsesPerRequest.toNat

theorem parseMaxUses_budget {object : Map} {uses : UInt64} (parsed : parseMaxUses object = .ok uses) :
    uses.toNat = declaredBudget (.object object) := by
  rw [parseMaxUses] at parsed
  simp only [declaredBudget, Value.get_object]
  split at parsed
  next absent =>
    rw [show OrderedMap.lookup "max_uses" object = none from absent]
    cases parsed
    rfl
  next value found =>
    rw [show OrderedMap.lookup "max_uses" object = some value from found]
    obtain ⟨asked, kept, least⟩ := bind_eq_ok.mp parsed
    have read := (Option.filter_eq_some_iff.mp (orReject_eq_ok.mp kept)).1
    cases least
    simp only [Option.bind_some, read, Option.elim_some]
    change (if asked ≤ maxWebSearchUsesPerRequest then asked else maxWebSearchUsesPerRequest).toNat =
      _
    split
    next within =>
      rw [UInt64.le_iff_toNat_le] at within
      omega
    next beyond =>
      rw [UInt64.le_iff_toNat_le] at beyond
      omega

theorem parseDeclaration_budget {tool : Value} {config : WebSearchConfig}
    (accepted : parseDeclaration tool = .ok config) :
    config.maxUses.toNat = declaredBudget tool := by
  obtain ⟨object, isObject, typed⟩ := bind_eq_ok.mp accepted
  obtain ⟨kind, -, versioned⟩ := bind_eq_ok.mp typed
  obtain ⟨version, -, named⟩ := bind_eq_ok.mp versioned
  rw [Value.asObject_eq_some (orReject_eq_ok.mp isObject)]
  split at named
  next => cases named
  next =>
    obtain ⟨-, -, supported⟩ := bind_eq_ok.mp named
    obtain ⟨uses, parsed, budgeted⟩ := bind_eq_ok.mp supported
    obtain ⟨domains, -, made⟩ := bind_eq_ok.mp budgeted
    cases made
    exact parseMaxUses_budget parsed

/-- Every search takes one of the uses that are left. -/
theorem searched_and_left (codec : Codec) (search : Nat → String → SearchOutcome)
    (calls : List OpenAiToolCall) (usesLeft : Nat) :
    (searchedQueries codec usesLeft calls).length +
      (executeWebSearchRound codec search usesLeft calls).2 = usesLeft := by
  induction calls generalizing usesLeft with
  | nil => simp [searchedQueries, executeWebSearchRound]
  | cons call rest ih =>
      by_cases spent : usesLeft = 0
      · simpa [searchedQueries, executeWebSearchRound, spent] using ih 0
      · cases asked : queryFromArguments codec call.arguments with
        | error code =>
            simpa [searchedQueries, executeWebSearchRound, spent, asked] using ih usesLeft
        | ok query =>
            have later := ih (usesLeft - 1)
            simp only [searchedQueries, executeWebSearchRound, spent, asked, ↓reduceIte,
              List.length_cons]
            omega

/-! The streaming loop -/

/-- What a stream that is still going on has spent. -/
structure Going (uses : Nat) (chatBody : Value) (body : StreamBody) : Prop where
  generation : body.requests.length + 1 = body.generationRounds
  few : body.generationRounds ≤ maxInternalGenerationRounds
  left : body.searches.length + body.usesLeft ≤ uses
  whole : body.crashed = false
  written : body.rounds.all (SearchRound.writable chatBody) = true
  context : ∃ context, body.serverLoop = some context ∧
    SearchRound.writable context.chatBody = SearchRound.writable chatBody

structure Spent (uses : Nat) (chatBody : Value) (body : StreamBody) : Prop where
  asked : body.requests.length < maxInternalGenerationRounds
  searched : body.searches.length ≤ uses
  crashed : body.crashed = !body.rounds.all (SearchRound.writable chatBody)

variable {uses : Nat} {chatBody : Value} {body : StreamBody}

theorem Going.spent (going : Going uses chatBody body) : Spent uses chatBody body where
  asked := by
    have generation := going.generation
    have few := going.few
    omega
  searched := by
    have left := going.left
    omega
  crashed := by rw [going.whole, going.written]; rfl

/-- A stream that goes on counts `ended` more generations. -/
def Accounted (uses : Nat) (chatBody : Value) (body : StreamBody) (ended : Nat)
    (next : StreamBody) : Prop :=
  (next.returned = false ∧ Going uses chatBody next ∧
    next.generationRounds = body.generationRounds + ended) ∨
  (next.returned = true ∧ Spent uses chatBody next)

theorem accounted_return {ended : Nat} (going : Going uses chatBody body) (emission : Emission) :
    Accounted uses chatBody body ended (body.returnWith emission).1 :=
  .inr ⟨rfl, going.spent.asked, going.spent.searched, going.spent.crashed⟩

theorem accounted_continueWith (continuation : Continuation) (shown : Emission)
    (going : Going uses chatBody body) (alive : body.returned = false)
    (more : body.generationRounds < maxInternalGenerationRounds) :
    Accounted uses chatBody body 1 (body.continueWith continuation shown).1 := by
  have generation := going.generation
  obtain ⟨context, present, same⟩ := going.context
  have asked : body.request.requests.length = body.requests.length + 1 := by
    simp [StreamBody.request, present]
  have failed (message : String) : Spent uses chatBody
      (StreamBody.continueWith.fail shown body.request message).1 :=
    ⟨show body.request.requests.length < _ by omega, going.spent.searched, going.spent.crashed⟩
  unfold StreamBody.continueWith
  split
  next =>
    refine .inl ⟨alive, ⟨?_, ?_, going.left, going.whole, going.written, context, present, same⟩,
      rfl⟩
    · change body.request.requests.length + 1 = body.generationRounds + 1
      omega
    · change body.generationRounds + 1 ≤ maxInternalGenerationRounds
      omega
  next => exact .inr ⟨rfl, going.spent.asked, going.spent.searched, going.spent.crashed⟩
  next => exact .inr ⟨rfl, failed _⟩
  next => exact .inr ⟨rfl, failed _⟩

theorem accounted_continueRound (replies : RoundReplies) (calls : List OpenAiToolCall)
    (outcomes : List SearchOutcome) (shown : Emission) (going : Going uses chatBody body)
    (alive : body.returned = false) (more : body.generationRounds < maxInternalGenerationRounds) :
    Accounted uses chatBody body 1 (body.continueRound replies calls outcomes shown).1 := by
  obtain ⟨context, present, same⟩ := going.context
  have now : SearchRound.writable chatBody ⟨calls, outcomes⟩ =
      (appendServerRound context.chatBody calls outcomes).isOk := by
    rw [← same]
    rfl
  simp only [StreamBody.continueRound, present, StreamBody.appendRound]
  cases appended : appendServerRound context.chatBody calls outcomes with
  | error abort =>
      refine .inr ⟨rfl, going.spent.asked, going.spent.searched, ?_⟩
      simp [StreamBody.returnWith, now, appended, Except.map, Except.isOk, Except.toBool]
  | ok written =>
      refine @accounted_continueWith uses chatBody { body with
        rounds := body.rounds ++ [⟨calls, outcomes⟩]
        serverLoop := some { context with chatBody := written } } _ shown ?_ alive more
      refine ⟨going.generation, going.few, going.left, going.whole, ?_, _, rfl,
        (writable_append appended).trans same⟩
      simp [going.written, now, appended, Except.isOk, Except.toBool]

theorem accounted_serverRound (platform : Platform) (replies : RoundReplies)
    (going : Going uses chatBody body) (alive : body.returned = false) :
    Accounted uses chatBody body 1 (body.serverRound platform replies).1 := by
  have searched (calls : List OpenAiToolCall) : Going uses chatBody
      { body.searched platform false calls with
        usesLeft := (body.searchOutcomes platform replies false calls).2 } := by
    have spent := searched_and_left platform.codec replies.search calls body.usesLeft
    have left := going.left
    refine ⟨going.generation, going.few, ?_, going.whole, going.written, going.context⟩
    simp only [StreamBody.searched, StreamBody.searchOutcomes, Bool.false_eq_true, ↓reduceIte,
      List.length_append]
    omega
  simp only [StreamBody.serverRound]
  split
  next => exact accounted_return going _
  next => exact accounted_return going _
  next => exact .inr ⟨rfl, (searched _).spent.asked, (searched _).spent.searched, going.spent.crashed⟩
  next =>
    split
    next spent =>
      refine .inr ⟨rfl, going.spent.asked, ?_, going.spent.crashed⟩
      simpa [StreamBody.searched, StreamBody.returnWith, spent] using going.spent.searched
    next more =>
      have fresh : (body.usesLeft == 0 ||
          decide (maxInternalGenerationRounds ≤ body.generationRounds)) = false := by
        simpa using more
      rw [fresh]
      refine accounted_continueRound replies _ _ _ (searched _) alive ?_
      simp only [Bool.or_eq_true, not_or, decide_eq_true_eq] at more
      exact Nat.lt_of_not_le more.2

theorem accounted_endOfRound (platform : Platform) (replies : RoundReplies)
    (going : Going uses chatBody body) (alive : body.returned = false) :
    Accounted uses chatBody body 1 (body.onEndOfRound platform replies).1 := by
  obtain ⟨context, present, -⟩ := going.context
  rw [StreamBody.onEndOfRound, if_neg (show ¬body.serverLoop.isNone = true by simp [present])]
  split
  next => exact accounted_return going _
  next =>
    split
    next => exact accounted_return going _
    next => exact accounted_serverRound platform replies going alive

theorem accounted_ended (platform : Platform) (replies : RoundReplies)
    (going : Going uses chatBody body) (alive : body.returned = false) :
    Accounted uses chatBody body 1 (body.onEnded platform replies).1 := by
  rw [StreamBody.onEnded]
  split
  next => exact accounted_return going _
  next =>
    split
    next => exact accounted_return going _
    next events _ =>
      exact @accounted_endOfRound uses chatBody { body with
        state := (StreamBody.handleTrailing platform body.state events).1 } platform replies
        ⟨going.generation, going.few, going.left, going.whole, going.written, going.context⟩ alive

def Arrival.isEnd : Arrival → Bool
  | ended _ => true
  | _ => false

theorem accounted_step (platform : Platform) (arrival : Arrival)
    (going : Going uses chatBody body) (alive : body.returned = false) :
    Accounted uses chatBody body arrival.isEnd.toNat
      (body.step platform arrival).1 := by
  unfold StreamBody.step
  rw [if_neg (by simp [alive])]
  cases arrival with
  | bytes chunk =>
      simp only [StreamBody.onBytes]
      split
      next => exact accounted_return going _
      next decoder events _ =>
        cases (StreamBody.handleEvents platform body.state events).1.terminal with
        | true =>
            exact .inr ⟨rfl, going.spent.asked, going.spent.searched, going.spent.crashed⟩
        | false =>
            exact .inl ⟨rfl, ⟨going.generation, going.few, going.left, going.whole,
              going.written, going.context⟩, rfl⟩
  | interrupted | stalled kind => exact accounted_return going _
  | idle => exact .inl ⟨alive, going, rfl⟩
  | ended replies => exact accounted_ended platform replies going alive

theorem accounted_run (platform : Platform) (arrivals : List Arrival)
    (going : Going uses chatBody body) (alive : body.returned = false) :
    Accounted uses chatBody body (arrivals.countP Arrival.isEnd)
      (body.run platform arrivals).1 := by
  induction arrivals generalizing body with
  | nil => exact .inl ⟨alive, going, rfl⟩
  | cons arrival rest ih =>
      simp only [StreamBody.run]
      rcases accounted_step platform arrival going alive with ⟨aliveNext, goingNext, more⟩ |
        ⟨returned, spent⟩
      · rcases ih goingNext aliveNext with ⟨aliveLast, goingLast, later⟩ | left
        · refine .inl ⟨aliveLast, goingLast, ?_⟩
          rw [later, more, List.countP_cons]
          cases arrival.isEnd <;> grind
        · exact .inr left
      · rw [StreamBody.run_returned platform returned]
        exact .inr ⟨returned, spent⟩

def endings (frames : List SseFrame) : List Ending := frames.filterMap SseFrame.ending

def ClientPhase.endings : ClientPhase → Nat
  | fresh => 0
  | running => 0
  | closing => 1
  | ended => 1

theorem endings_accept {client next : Client} {frame : SseFrame}
    (accepted : client.accept frame = some next) :
    client.phase.endings + (frame.ending.toList).length = next.phase.endings := by
  cases frame <;> simp only [Client.accept] at accepted
  case ping =>
    cases accepted
    rfl
  case error envelope =>
    split at accepted
    next begun =>
      cases accepted
      rcases begun with begun | begun <;> simp [begun, ClientPhase.endings, SseFrame.ending]
    next => cases accepted
  all_goals
    split at accepted
    next legal =>
      cases accepted
      simp [legal, ClientPhase.endings, SseFrame.ending]
    next => cases accepted

theorem endings_follow {client last : Client} {frames : List SseFrame}
    (followed : client.follow frames = some last) :
    client.phase.endings + (endings frames).length = last.phase.endings := by
  induction frames generalizing client with
  | nil =>
      cases followed
      rfl
  | cons frame rest ih =>
      obtain ⟨next, accepted, later⟩ := Option.bind_eq_some_iff.mp followed
      have first := endings_accept accepted
      have second := ih later
      simp only [endings, List.filterMap_cons] at second ⊢
      cases ending : frame.ending <;> grind

/-! The loop for clients that do not stream -/

def Whole {Result : Type} (result : Fallible Result) : Prop := result ≠ .error .panicked

theorem whole_ok {Result : Type} (result : Result) : Whole (.ok result) := by simp [Whole]

theorem whole_upstreamError {Result : Type} (message : String) :
    Whole (upstreamError message : Fallible Result) := by simp [Whole, upstreamError]

theorem whole_orUpstreamError {Result : Type} (message : String) (found : Option Result) :
    Whole (orUpstreamError message found) := by
  cases found with
  | none => exact whole_upstreamError message
  | some result => exact whole_ok result

theorem Whole.bind {First Second : Type} {first : Fallible First}
    {next : First → Fallible Second} (begun : Whole first) (later : ∀ value, Whole (next value)) :
    Whole (first >>= next) := by
  cases first with
  | error abort => simpa [Whole, Bind.bind, Except.bind] using begun
  | ok value => exact later value

theorem Whole.map {First Second : Type} {first : Fallible First} (begun : Whole first)
    (next : First → Second) : Whole (first.map next) := by
  cases first with
  | error abort => simpa [Whole, Except.map] using begun
  | ok value => exact whole_ok _

theorem whole_mapM {First Second : Type} {convert : First → Fallible Second}
    (each : ∀ item, Whole (convert item)) (items : List First) : Whole (items.mapM convert) := by
  induction items with
  | nil => exact whole_ok []
  | cons item rest ih =>
      rw [List.mapM_cons]
      exact (each item).bind fun _ => ih.bind fun _ => whole_ok _

def Told {Result : Type} (result : Fallible Result) : Prop :=
  ∀ abort, result = .error abort → ∃ error, abort = .rejected error ∧
    ∀ kind, error.stallKind = some kind → ∃ stall : StallKind, kind = stall.asStr

theorem Told.whole {Result : Type} {result : Fallible Result} (told : Told result) :
    Whole result := by
  intro panicked
  obtain ⟨error, rejected, -⟩ := told _ panicked
  cases rejected

theorem told_ok {Result : Type} (result : Result) : Told (.ok result) := by simp [Told]

theorem told_upstreamError {Result : Type} (message : String) :
    Told (upstreamError message : Fallible Result) := by
  simp [Told, upstreamError, ProtocolError.upstream]

theorem told_orUpstreamError {Result : Type} (message : String) (found : Option Result) :
    Told (orUpstreamError message found) := by
  cases found with
  | none => exact told_upstreamError message
  | some result => exact told_ok result

theorem Told.bind {First Second : Type} {first : Fallible First}
    {next : First → Fallible Second} (begun : Told first) (later : ∀ value, Told (next value)) :
    Told (first >>= next) := by
  cases first with
  | error abort => exact fun failed same => begun failed (by simpa [Bind.bind, Except.bind] using same)
  | ok value => exact later value

theorem told_handle (codec : Codec) (accumulator : NonStreamAccumulator) (data : String) :
    Told (accumulator.handle codec data) := by
  rw [NonStreamAccumulator.handle]
  split
  next => exact told_ok _
  next =>
    split
    next => exact told_upstreamError _
    next =>
      split
      next => exact told_upstreamError _
      next => exact told_ok _

theorem told_handleEvents (codec : Codec) (events : List SseEvent)
    (accumulator : NonStreamAccumulator) :
    Told (Aggregation.handleEvents codec accumulator events) := by
  induction events generalizing accumulator with
  | nil => exact told_ok _
  | cons event rest ih => exact (told_handle codec accumulator _).bind fun next => ih next

theorem told_step (codec : Codec) (aggregation : Aggregation) (arrival : Arrival) :
    Told (aggregation.step codec arrival) := by
  cases arrival with
  | bytes chunk =>
      simp only [Aggregation.step, Aggregation.onBytes]
      split
      next => exact told_upstreamError _
      next =>
        exact (told_orUpstreamError _ _).bind fun decoded =>
          (told_handleEvents codec decoded.2 _).bind fun _ => told_ok _
  | interrupted => exact told_upstreamError _
  | stalled kind =>
      rintro abort ⟨⟩
      exact ⟨_, rfl, fun _ same => ⟨kind, (Option.some.inj same).symm⟩⟩
  | idle | ended replies => exact told_ok _

theorem told_aggregate (codec : Codec) (requestId : String) (arrivals : List Arrival) :
    Told (Aggregation.aggregateStreamResponse codec requestId arrivals) := by
  have folded (aggregation : Aggregation) :
      Told (arrivals.foldlM (Aggregation.step codec) aggregation) := by
    induction arrivals generalizing aggregation with
    | nil => exact told_ok _
    | cons arrival rest ih =>
        rw [List.foldlM_cons]
        exact (told_step codec aggregation arrival).bind ih
  refine (folded .start).bind fun aggregation => ?_
  refine (told_orUpstreamError _ _).bind fun events => ?_
  refine (told_handleEvents codec events _).bind fun accumulator => ?_
  rw [NonStreamAccumulator.intoResponse]
  split
  next => exact told_upstreamError _
  next => exact told_ok _

theorem whole_convertResponseWith (platform : Platform) (upstream : Value)
    (requestId fallbackModel : String) (exposeThinking : Bool)
    (options : ConvertedResponseOptions) :
    Whole (convertResponseWith platform upstream requestId fallbackModel exposeThinking
      options) := by
  have tools (calls : Option Value) :
      Whole (convertToolCalls platform.codec options.skipToolNames calls) := by
    rw [convertToolCalls]
    split
    next => exact whole_ok _
    next =>
      refine (whole_mapM (fun call => ?_) _).map _
      refine (whole_orUpstreamError _ _).bind fun function => ?_
      dsimp only
      split
      next => exact whole_ok _
      next => exact (whole_orUpstreamError _ _).bind fun _ => whole_ok _
  exact (whole_orUpstreamError _ _).bind fun _ => (whole_orUpstreamError _ _).bind fun _ =>
    (tools _).bind fun _ => whole_ok _

structure Waiting (uses : Nat) (chatBody : Value) (loop : NonStreamLoop) : Prop where
  generation : loop.requests.length = loop.generationRounds
  few : loop.generationRounds < maxInternalGenerationRounds
  left : loop.searches.length + loop.usesLeft ≤ uses
  written : loop.rounds.all (SearchRound.writable chatBody) = true
  context : SearchRound.writable loop.chatBody = SearchRound.writable chatBody

structure Answered (uses : Nat) (chatBody : Value) (loop : NonStreamLoop) (answer : LoopAnswer) :
    Prop where
  asked : loop.requests.length < maxInternalGenerationRounds
  searched : loop.searches.length ≤ uses
  ending : answer.ending.isSome = loop.rounds.all (SearchRound.writable chatBody)

def Settled (uses : Nat) (chatBody : Value) (loop : NonStreamLoop) (begun : Nat)
    (output : LoopOutput) : Prop :=
  (output.2 = none ∧ Waiting uses chatBody output.1 ∧
    output.1.generationRounds = loop.generationRounds + begun) ∨
  ∃ answer, output.2 = some answer ∧ Answered uses chatBody output.1 answer

theorem abortAnswer_ending {Result : Type} {result : Fallible Result} {abort : Abort}
    (whole : Whole result) (failed : result = .error abort) :
    (NonStreamLoop.abortAnswer abort).ending.isSome = true := by
  cases abort with
  | rejected error => rfl
  | panicked => exact absurd failed whole

variable {loop : NonStreamLoop}

theorem answer_ending (platform : Platform) (loop : NonStreamLoop) (body : Value)
    (stopOverride : Option String) : ∃ answer,
      (loop.answer platform body stopOverride) = (loop, some answer) ∧
        answer.ending.isSome = true := by
  refine ⟨_, rfl, ?_⟩
  have whole := whole_convertResponseWith platform body loop.requestId loop.fallbackModel
    loop.exposeThinking
    ⟨loop.extraBlocks, NonStreamLoop.serverNames, loop.webSearchRequests, stopOverride⟩
  split
  next => rfl
  next abort failed => exact abortAnswer_ending whole failed

structure InRound (uses : Nat) (chatBody : Value) (loop : NonStreamLoop) : Prop where
  generation : loop.requests.length + 1 = loop.generationRounds
  few : loop.generationRounds ≤ maxInternalGenerationRounds
  left : loop.searches.length + loop.usesLeft ≤ uses
  written : loop.rounds.all (SearchRound.writable chatBody) = true
  context : SearchRound.writable loop.chatBody = SearchRound.writable chatBody

theorem InRound.answered (inRound : InRound uses chatBody loop) {answer : LoopAnswer}
    (ending : answer.ending.isSome = true) : Answered uses chatBody loop answer where
  asked := by
    have generation := inRound.generation
    have few := inRound.few
    omega
  searched := by
    have left := inRound.left
    omega
  ending := ending.trans inRound.written.symm

theorem settled_answer (platform : Platform) (body : Value) (stopOverride : Option String)
    {before : NonStreamLoop} {begun : Nat} (inRound : InRound uses chatBody loop) :
    Settled uses chatBody before begun (loop.answer platform body stopOverride) := by
  obtain ⟨answer, given, ending⟩ := answer_ending platform loop body stopOverride
  rw [given]
  exact .inr ⟨answer, rfl, inRound.answered ending⟩

theorem settled_continueRound (replies : RoundReplies) (calls : List OpenAiToolCall)
    (outcomes : List SearchOutcome) {before : NonStreamLoop} (inRound : InRound uses chatBody loop)
    (counted : loop.generationRounds = before.generationRounds + 1)
    (more : loop.generationRounds < maxInternalGenerationRounds) :
    Settled uses chatBody before 1 (loop.continueRound replies calls outcomes) := by
  have generation := inRound.generation
  have left := inRound.left
  have now : SearchRound.writable chatBody ⟨calls, outcomes⟩ =
      (appendServerRound loop.chatBody calls outcomes).isOk := by
    rw [← inRound.context]
    rfl
  simp only [NonStreamLoop.continueRound]
  cases appended : appendServerRound loop.chatBody calls outcomes with
  | error abort =>
      obtain rfl := appendServerRound_error appended
      refine .inr ⟨_, rfl, by dsimp only; omega, by dsimp only; omega, ?_⟩
      simp [NonStreamLoop.abortAnswer, LoopAnswer.ending, now, appended, Except.isOk,
        Except.toBool]
  | ok chatBody' =>
      have written : (loop.rounds ++ [SearchRound.mk calls outcomes]).all
          (SearchRound.writable chatBody) = true := by
        simp [inRound.written, now, appended, Except.isOk, Except.toBool]
      have asked (continuation : Continuation) : (loop.requests ++
          if continuation = .unwritable then [] else [chatBody']).length ≤
          loop.requests.length + 1 := by
        split <;> simp
      by_cases success : replies.continuation = .success
      · refine .inl ⟨if_pos success, ⟨?_, more, left, written,
          (writable_append appended).trans inRound.context⟩, counted⟩
        simpa [NonStreamLoop.continueWith, success] using generation
      · refine .inr ⟨_, if_neg success, ?_, ?_, written.symm⟩
        · have few := asked replies.continuation
          change (loop.requests ++ _).length < _
          omega
        · change loop.searches.length ≤ uses
          omega

theorem settled_onAggregated (platform : Platform) (replies : RoundReplies) (body : Value)
    {before : NonStreamLoop} (inRound : InRound uses chatBody loop)
    (counted : loop.generationRounds = before.generationRounds + 1) :
    Settled uses chatBody before 1 (loop.onAggregated platform replies body) := by
  have searched (calls : List OpenAiToolCall) :
      InRound uses chatBody (loop.search platform.codec replies calls).1 := by
    have spent := searched_and_left platform.codec replies.search calls loop.usesLeft
    have left := inRound.left
    refine ⟨inRound.generation, inRound.few, ?_, inRound.written, inRound.context⟩
    simp only [NonStreamLoop.search, NonStreamLoop.showOutcomes, List.length_append]
    omega
  simp only [NonStreamLoop.onAggregated]
  split
  next => exact settled_answer platform body none inRound
  next => exact settled_answer platform body none inRound
  next => exact settled_answer platform body none (searched _)
  next =>
    split
    next =>
      exact @settled_answer _ _ (loop.exhaust platform.codec replies _) platform body _ _ _
        ⟨inRound.generation, inRound.few, inRound.left, inRound.written, inRound.context⟩
    next more =>
      simp only [Bool.or_eq_true, not_or, decide_eq_true_eq] at more
      exact settled_continueRound replies _ _ (searched _) counted (Nat.lt_of_not_le more.2)

theorem settled_round (platform : Platform) (upstream : UpstreamRound)
    (waiting : Waiting uses chatBody loop) :
    Settled uses chatBody loop 1 (loop.round platform upstream) := by
  have begun : InRound uses chatBody
      { loop with generationRounds := loop.generationRounds + 1 } :=
    ⟨congrArg (· + 1) waiting.generation, waiting.few, waiting.left, waiting.written,
      waiting.context⟩
  have whole := (told_aggregate platform.codec loop.requestId upstream.arrivals).whole
  simp only [NonStreamLoop.round]
  split
  next abort failed => exact .inr ⟨_, rfl, begun.answered (abortAnswer_ending whole failed)⟩
  next body _ => exact settled_onAggregated platform upstream.replies body begun rfl

theorem settled_run (platform : Platform) (rounds : List UpstreamRound)
    (waiting : Waiting uses chatBody loop) :
    Settled uses chatBody loop rounds.length (loop.run platform rounds) := by
  induction rounds generalizing loop with
  | nil => exact .inl ⟨rfl, waiting, rfl⟩
  | cons upstream rest ih =>
      have settled := settled_round platform upstream waiting
      rw [NonStreamLoop.run]
      generalize loop.round platform upstream = output at settled ⊢
      obtain ⟨next, made⟩ := output
      rcases settled with ⟨rfl, waitingNext, counted⟩ | ⟨answer, rfl, answered⟩
      · rcases ih waitingNext with ⟨more, waitingLast, later⟩ | left
        · refine .inl ⟨more, waitingLast, ?_⟩
          rw [later, List.length_cons, show next.generationRounds = _ from counted]
          omega
        · exact .inr left
      · exact .inr ⟨answer, rfl, answered⟩

/-- What a stream may spend, and how it has to end. -/
structure StreamKeepsBudget (uses : Nat) (arrivals : List Arrival) (output : Output) : Prop where
  generations : output.1.requests.length + 1 ≤ maxInternalGenerationRounds
  searches : output.1.searches.length ≤ uses
  ends : maxInternalGenerationRounds ≤ arrivals.countP Arrival.isEnd → output.1.returned = true
  one_ending : output.1.returned = true → ∃ ending, endings output.2 = [ending]

structure LoopKeepsBudget (uses : Nat) (rounds : List UpstreamRound) (output : LoopOutput) :
    Prop where
  generations : output.1.requests.length + 1 ≤ maxInternalGenerationRounds
  searches : output.1.searches.length ≤ uses
  ends : maxInternalGenerationRounds ≤ rounds.length → output.2.isSome = true
  one_ending : ∀ answer, output.2 = some answer → answer.ending.isSome = true

theorem streamKeepsBudget_iff (platform : Platform) (requestId fallbackModel : String)
    (exposeThinking : Bool) (config : WebSearchConfig) (chatBody : Value)
    (arrivals : List Arrival) :
    let output := (StreamBody.start requestId fallbackModel exposeThinking
      (some ⟨config, chatBody⟩)).run platform arrivals
    StreamKeepsBudget config.maxUses.toNat arrivals output ↔
      ∀ round ∈ output.1.rounds, round.writable chatBody = true := by
  intro output
  let body := StreamBody.start requestId fallbackModel exposeThinking (some ⟨config, chatBody⟩)
  have begun : Going config.maxUses.toNat chatBody body :=
    ⟨rfl, show 1 ≤ 8 by omega, Nat.le_of_eq (Nat.zero_add _), rfl, rfl, _, rfl, rfl⟩
  have accounted : Accounted config.maxUses.toNat chatBody body (arrivals.countP Arrival.isEnd)
      output.1 := accounted_run platform arrivals begun rfl
  obtain ⟨client, followed, attends⟩ := serves_run platform arrivals
    (attends_start requestId fallbackModel exposeThinking (some ⟨config, chatBody⟩))
  have seen := endings_follow followed
  change 0 + (endings output.2).length = client.phase.endings at seen
  rw [← List.all_eq_true]
  rcases accounted with ⟨alive, going, counted⟩ | ⟨returned, spent⟩
  · have generation := going.generation
    have few := going.few
    refine iff_of_true ⟨?_, going.spent.searched, fun enough => ?_, ?_⟩ going.written
    · omega
    · rw [show body.generationRounds = 1 from rfl] at counted
      omega
    · exact fun returned => absurd returned (by simp [alive])
  · have phase : client.phase = if output.1.crashed then .running else .ended := by
      rcases attends with ⟨-, phase⟩ | ⟨alive, -⟩
      · exact phase
      · exact absurd (returned.symm.trans alive) (by simp)
    have written : output.1.rounds.all (SearchRound.writable chatBody) = !output.1.crashed := by
      rw [spent.crashed, Bool.not_not]
    rw [written]
    constructor
    · intro keeps
      obtain ⟨ending, one⟩ := keeps.one_ending returned
      cases crashed : output.1.crashed with
      | false => rfl
      | true => simp [one, phase, crashed, ClientPhase.endings] at seen
    · intro whole
      refine ⟨spent.asked, spent.searched, fun _ => returned, fun _ => ?_⟩
      refine List.length_eq_one_iff.mp ?_
      simp only [Bool.not_eq_true'] at whole
      simpa [phase, whole, ClientPhase.endings] using seen

theorem loopKeepsBudget_iff (platform : Platform) (requestId fallbackModel : String)
    (exposeThinking : Bool) (config : WebSearchConfig) (chatBody : Value)
    (rounds : List UpstreamRound) :
    let output := (NonStreamLoop.start config chatBody requestId fallbackModel
      exposeThinking).run platform rounds
    LoopKeepsBudget config.maxUses.toNat rounds output ↔
      ∀ round ∈ output.1.rounds, round.writable chatBody = true := by
  intro output
  have begun : Waiting config.maxUses.toNat chatBody
      (NonStreamLoop.start config chatBody requestId fallbackModel exposeThinking) :=
    ⟨rfl, show 0 < 8 by omega, Nat.le_of_eq (Nat.zero_add _), rfl, rfl⟩
  have settled : Settled config.maxUses.toNat chatBody _ rounds.length output :=
    settled_run platform rounds begun
  rw [← List.all_eq_true]
  rcases settled with ⟨going, waiting, counted⟩ | ⟨answer, given, answered⟩
  · have generation := waiting.generation
    have few := waiting.few
    have left := waiting.left
    refine iff_of_true ⟨?_, ?_, fun enough => ?_, ?_⟩ waiting.written
    · omega
    · omega
    · rw [show (NonStreamLoop.start config chatBody requestId fallbackModel
        exposeThinking).generationRounds = 0 from rfl] at counted
      omega
    · intro answer given
      rw [going] at given
      cases given
  · constructor
    · exact fun keeps => answered.ending.symm.trans (keeps.one_ending answer given)
    · intro written
      refine ⟨answered.asked, answered.searched, fun _ => ?_, fun other same => ?_⟩
      · rw [given]
        rfl
      · obtain rfl := Option.some.inj (given.symm.trans same)
        exact answered.ending.trans written

/-- Both loops keep the declared budget and end in one way, unless a round they replay has a
result text whose cut falls inside a character. -/
theorem anthropic_search_budget (platform : Platform) (requestId fallbackModel : String)
    (exposeThinking : Bool) (tool : Value) (config : WebSearchConfig) (chatBody : Value)
    (accepted : parseDeclaration tool = .ok config) :
    (∀ arrivals, let output := (StreamBody.start requestId fallbackModel exposeThinking
        (some ⟨config, chatBody⟩)).run platform arrivals
      StreamKeepsBudget (declaredBudget tool) arrivals output ↔
        (TakesRounds chatBody → ∀ round ∈ output.1.rounds, round.TextsCut)) ∧
    ∀ rounds, let output := (NonStreamLoop.start config chatBody requestId fallbackModel
        exposeThinking).run platform rounds
      LoopKeepsBudget (declaredBudget tool) rounds output ↔
        (TakesRounds chatBody → ∀ round ∈ output.1.rounds, round.TextsCut) := by
  rw [← parseDeclaration_budget accepted]
  constructor
  · intro arrivals
    exact (streamKeepsBudget_iff platform requestId fallbackModel exposeThinking config chatBody
      arrivals).trans (writable_rounds_iff chatBody _)
  · intro rounds
    exact (loopKeepsBudget_iff platform requestId fallbackModel exposeThinking config chatBody
      rounds).trans (writable_rounds_iff chatBody _)

def searchTool : Value :=
  .object [("type", .string "web_search_20250305"), ("name", .string "web_search")]

def searchConfig : WebSearchConfig := ⟨.v20250305, 5, none⟩

def searchPlatform (documents : List Value) : Platform where
  codec := documentCodec documents
  thinkingSignature := fun _ _ => "cline-proxy-v1-0"
  order := id
  order_perm := perm_id

def searchChunk : Value :=
  chunkOf [("tool_calls", .array [wholeCall 0 "call_0" webSearchFunctionName leanQueryText])]
    (finished "tool_calls")

def answerChunk : Value :=
  chunkOf [("content", .string "hi")] (finished "stop")

def foundReplies : RoundReplies where
  toolIds := fun _ => "srvtoolu_1"
  search := fun _ query => ⟨query, [.object [("title", .string "Lean")]], none⟩
  continuation := .success

def foundArrivals : List Arrival :=
  [.bytes (eventBytes [searchChunk]), .ended foundReplies, .bytes (eventBytes [answerChunk]),
    .ended foundReplies]

def foundRounds : List UpstreamRound :=
  [⟨[.bytes (eventBytes [searchChunk])], foundReplies⟩,
    ⟨[.bytes (eventBytes [answerChunk])], foundReplies⟩]

def foundPlatform : Platform := searchPlatform [leanQuery, searchChunk, answerChunk]

def askingBody : Value :=
  .object [("messages", .array [.object [("role", .string "user"), ("content", .string "?")]])]

def foundStream : Output :=
  (StreamBody.start "req_1" "glm" false (some ⟨searchConfig, askingBody⟩)).run foundPlatform
    foundArrivals

def foundLoop : LoopOutput :=
  (NonStreamLoop.start searchConfig askingBody "req_1" "glm" false).run foundPlatform foundRounds

theorem foundStream_searches : textsShort foundStream.1.rounds = true ∧
    foundStream.1.searches = ["lean"] ∧ foundStream.1.rounds.length = 1 ∧
    endings foundStream.2 = [.answer] := by
  decide +kernel

theorem foundLoop_searches : textsShort foundLoop.1.rounds = true ∧
    foundLoop.1.searches = ["lean"] ∧ foundLoop.1.rounds.length = 1 := by
  decide +kernel

theorem anthropic_search_budget_found :
    (StreamKeepsBudget (declaredBudget searchTool) foundArrivals foundStream ∧
      foundStream.1.searches = ["lean"] ∧ foundStream.1.rounds.length = 1 ∧
      endings foundStream.2 = [.answer]) ∧
    LoopKeepsBudget (declaredBudget searchTool) foundRounds foundLoop ∧
      foundLoop.1.searches = ["lean"] ∧ foundLoop.1.rounds.length = 1 := by
  obtain ⟨streams, loops⟩ := anthropic_search_budget foundPlatform "req_1" "glm" false searchTool
    searchConfig askingBody rfl
  obtain ⟨streamed, shown⟩ := foundStream_searches
  obtain ⟨looped, made⟩ := foundLoop_searches
  exact ⟨⟨(streams foundArrivals).mpr fun _ => textsCut_of_short streamed, shown⟩,
    (loops foundRounds).mpr fun _ => textsCut_of_short looped, made⟩

def wideCall : OpenAiToolCall := ⟨"toolu_0", webSearchFunctionName, leanQueryText⟩

def wideChunk : Value :=
  chunkOf [("tool_calls", .array [.object [("function", .object [
    ("name", .string webSearchFunctionName), ("arguments", .string leanQueryText)])]])] []

def wideRound : UpstreamRound where
  arrivals := [.bytes (eventBytes [wideChunk])]
  replies := ⟨fun _ => "srvtoolu_1", fun _ query => ⟨query, [wideResult 11000], none⟩, .success⟩

def widePlatform : Platform := searchPlatform [leanQuery, wideChunk]

theorem wide_aggregated : ((Aggregation.aggregateStreamResponse widePlatform.codec "req_1"
    wideRound.arrivals).toOption.map extractOpenaiToolCalls) = some [wideCall] := by
  decide +kernel

theorem wide_crashes {loop : NonStreamLoop} {platform : Platform} {replies : RoundReplies}
    {body : Value} {count : Nat}
    (calls : extractOpenaiToolCalls body = [wideCall])
    (asks : queryFromArguments platform.codec leanQueryText = .ok "lean")
    (uses : loop.usesLeft = 5) (generation : loop.generationRounds = 1)
    (finds : ∀ number, replies.search number "lean" = ⟨"lean", [wideResult count], none⟩)
    (wide : maxGroundingBytes ≤ 3 * count)
    (chat : loop.chatBody = .object [("messages", .array [])]) :
    (loop.onAggregated platform replies body).2 = some .crashed := by
  have kept : [wideCall].filter (fun call => NonStreamLoop.serverNames.contains call.name) =
      [wideCall] := rfl
  have classified : classifyRound [wideCall] NonStreamLoop.serverNames = .serverOnly := rfl
  have outcomes : (loop.search platform.codec replies [wideCall]).2 =
      [⟨"lean", [wideResult count], none⟩] := by
    simp only [NonStreamLoop.search, executeWebSearchRound, wideCall, asks, uses, finds,
      reduceIte, Nat.succ_ne_zero]
  have unwritten : appendServerRound loop.chatBody [wideCall]
      [⟨"lean", [wideResult count], none⟩] = .error .panicked := by
    rw [chat]
    simp only [appendServerRound, Value.asObject_object, Value.get_object, OrderedMap.lookup,
      ↓reduceIte, Option.bind_some, Value.asArray_array, List.zip_cons_cons, toolMessages,
      wide_panics count wide]
    rfl
  simp only [NonStreamLoop.onAggregated, calls, classified, kept, outcomes]
  rw [if_neg (by simp [uses, generation, maxInternalGenerationRounds]),
    NonStreamLoop.continueRound]
  have chatKept : (loop.search platform.codec replies [wideCall]).1.chatBody = loop.chatBody := rfl
  simp only [chatKept, unwritten]
  rfl

theorem anthropic_search_budget_fails :
    parseDeclaration searchTool = .ok searchConfig ∧
      ¬LoopKeepsBudget (declaredBudget searchTool) [wideRound]
        ((NonStreamLoop.start searchConfig (.object [("messages", .array [])]) "req_1" "glm"
          false).run widePlatform [wideRound]) := by
  refine ⟨rfl, fun keeps => ?_⟩
  have asks : queryFromArguments widePlatform.codec leanQueryText = .ok "lean" := by
    decide +kernel
  have aggregated := wide_aggregated
  cases result : Aggregation.aggregateStreamResponse widePlatform.codec "req_1"
      wideRound.arrivals with
  | error abort =>
      rw [result] at aggregated
      cases aggregated
  | ok body =>
      rw [result] at aggregated
      have crashed : ((NonStreamLoop.start searchConfig (.object [("messages", .array [])]) "req_1"
          "glm" false).run widePlatform [wideRound]).2 = some .crashed := by
        have round := @wide_crashes { NonStreamLoop.start searchConfig
          (.object [("messages", .array [])]) "req_1" "glm" false with generationRounds := 1 }
          widePlatform wideRound.replies body 11000 (Option.some.inj aggregated) asks rfl rfl
          (fun _ => rfl) (by decide) rfl
        have step : (NonStreamLoop.start searchConfig (.object [("messages", .array [])]) "req_1"
            "glm" false).round widePlatform wideRound = NonStreamLoop.onAggregated widePlatform
            wideRound.replies body { NonStreamLoop.start searchConfig
              (.object [("messages", .array [])]) "req_1" "glm" false with
              generationRounds := 1 } := by
          simp only [NonStreamLoop.round, NonStreamLoop.start, result]
        rw [NonStreamLoop.run, step]
        generalize NonStreamLoop.onAggregated widePlatform wideRound.replies body _ = output at round
        obtain ⟨last, answer⟩ := output
        obtain rfl : answer = some .crashed := round
        rfl
      have ending := keeps.one_ending _ crashed
      cases ending

end ClineProxy
