import ClineProxy.SearchBudget
import ClineProxy.TruncationChecks

/-! At which of its exits `stream_body` is left, and which of them deliver a whole message. -/

namespace ClineProxy

open Json

/-- `terminal` and `trailing` are left because an event ended the stream state, the first with
or without a finish reason. -/
inductive StreamExit where
  | decodeError
  | terminal (finished : Bool)
  | interrupted
  | stalled (kind : StallKind)
  | trailing
  | finished
  | unexpectedEof
  | unwritable
  | httpError
  | unsent
  | crashed
  deriving DecidableEq

/-- Only a round of server calls with budget left goes on to another. -/
def leavesLoop (calls : List OpenAiToolCall) (serverNames : List String)
    (usesLeft generationRounds : Nat) : Bool :=
  match classifyRound calls serverNames with
  | .none | .clientOnly | .mixed => true
  | .serverOnly => usesLeft == 0 || maxInternalGenerationRounds ≤ generationRounds

def Continuation.exit : Continuation → Option StreamExit
  | success => none
  | unwritable => some .unwritable
  | unsent => some .unsent
  | httpError => some .httpError

namespace StreamBody

def serverExit (platform : Platform) (replies : RoundReplies) (body : StreamBody) :
    Option StreamExit :=
  let calls := body.state.openaiToolCalls
  let names := serverNames body.serverLoop
  if leavesLoop calls names body.usesLeft body.generationRounds then some .finished
  else
    let serverCalls := calls.filter fun call => names.contains call.name
    let outcomes := (body.searchOutcomes platform replies false serverCalls).1
    match appendRound serverCalls outcomes body.serverLoop with
    | .error _ => some .crashed
    | .ok _ => replies.continuation.exit

def roundExit (platform : Platform) (replies : RoundReplies) (body : StreamBody) :
    Option StreamExit :=
  if body.serverLoop.isNone then
    some (if body.state.finishReason.isSome then .finished else .unexpectedEof)
  else if body.state.finishReason.isNone && !body.state.roundComplete then some .unexpectedEof
  else body.serverExit platform replies

def exit (platform : Platform) (body : StreamBody) : Arrival → Option StreamExit
  | .bytes chunk =>
      match body.decoder.push chunk with
      | none => some .decodeError
      | some (_, events) =>
          let state := (handleEvents platform body.state events).1
          if state.terminal then some (.terminal state.finishReason.isSome) else none
  | .interrupted => some .interrupted
  | .stalled kind => some (.stalled kind)
  | .idle => none
  | .ended replies =>
      match body.decoder.finish with
      | none => some .decodeError
      | some events =>
          let state := (handleTrailing platform body.state events).1
          if state.terminal then some .trailing
          else { body with state := state }.roundExit platform replies

def leftBy (platform : Platform) (body : StreamBody) : List Arrival → Option StreamExit
  | [] => none
  | arrival :: rest =>
      if body.returned then none
      else (body.exit platform arrival).or ((body.step platform arrival).1.leftBy platform rest)

/-- An error or a malformed payload is handled after a finish reason. -/
def failsLate (platform : Platform) (state : StreamState) : List SseEvent → Bool
  | [] => false
  | event :: rest =>
      let data := String.ofList event.data
      let next := (state.handle platform data).1
      if !(readPayload platform.codec data).wellFormed then state.finishReason.isSome
      else if next.terminal || next.roundComplete then false
      else failsLate platform next rest

def failsAfterReason (platform : Platform) (body : StreamBody) : Arrival → Bool
  | .bytes chunk =>
      (body.decoder.push chunk).any fun pushed => failsLate platform body.state pushed.2
  | _ => false

/-- The response ends in a `[DONE]` without its blank line, which ends the stream at once when no
search is declared. -/
def endsUnclosed (body : StreamBody) : Arrival → Bool
  | .ended _ => body.state.serverToolNames.isEmpty && body.state.finishReason.isSome &&
      (body.decoder.finish.getD []).any fun event => isDone (String.ofList event.data)
  | _ => false

def keeps (platform : Platform) (rule : StreamBody → Arrival → Bool) (body : StreamBody) :
    List Arrival → Bool
  | [] => true
  | arrival :: rest =>
      body.returned || rule body arrival && (body.step platform arrival).1.keeps platform rule rest

def neverFailsLate (platform : Platform) (body : StreamBody) (arrivals : List Arrival) : Bool :=
  body.keeps platform (fun body arrival => !body.failsAfterReason platform arrival) arrivals

def neverEndsUnclosed (platform : Platform) (body : StreamBody) (arrivals : List Arrival) : Bool :=
  body.keeps platform (fun body arrival => !body.endsUnclosed arrival) arrivals

end StreamBody

theorem finalize_finishReason (platform : Platform) (state : StreamState) :
    (state.finalize platform).1.finishReason = state.finishReason := by
  have grown (keys : List UInt64) (first : StreamState) :
      (first.openTools keys).1.finishReason = first.finishReason := by
    induction keys generalizing first with
    | nil => rfl
    | cons key rest ih => exact (ih _).trans rfl
  rw [StreamState.finalize]
  split
  next => rfl
  next => exact grown _ state

theorem running_handleValue {state : StreamState} (running : state.terminal = false)
    (value : Value) : (state.handleValue value).1.terminal = false := by
  have grown := state.grows_handleValue value
  rw [StreamState.Grows] at grown
  rw [grown]
  exact running

inductive PayloadEnd (state : StreamState) (formed : Bool) (handled : Emission) : Prop where
  | running (terminal : handled.1.terminal = false) (read : formed = true)
      (names : handled.1.serverToolNames = state.serverToolNames)
  | stopped (terminal : handled.1.terminal = true) (stop : EndsInStop handled.2)
      (finished : handled.1.finishReason.isSome = true) (read : formed = true)
      (plain : state.serverToolNames = [])
  | failed (terminal : handled.1.terminal = true) (error : EndsInError handled.2)
      (same : handled.1.finishReason = state.finishReason)
      (late : formed = true → state.finishReason = none)

theorem payloadEnd_handle (platform : Platform) {state : StreamState}
    (running : state.terminal = false) (data : String) :
    PayloadEnd state (readPayload platform.codec data).wellFormed (state.handle platform data) := by
  rw [StreamState.handle_eq]
  cases readPayload platform.codec data with
  | malformed => exact .failed rfl ⟨_, rfl⟩ rfl (by simp [Payload.wellFormed])
  | failed => exact .failed rfl ⟨_, rfl⟩ rfl (by simp [Payload.wellFormed])
  | chunk value =>
      have grown := state.grows_handleValue value
      rw [StreamState.Grows] at grown
      exact .running (running_handleValue running value) rfl (by rw [grown]; rfl)
  | done =>
      dsimp only
      by_cases unfinished : state.finishReason = none
      · rw [if_pos (by simp [unfinished])]
        exact .failed rfl ⟨_, rfl⟩ rfl fun _ => unfinished
      · rw [if_neg (by simp [unfinished])]
        by_cases plain : state.serverToolNames = []
        · rw [if_pos (by simp [plain])]
          refine .stopped (finalize_terminal platform running)
            (endsInStop_finalize platform running) ?_ rfl plain
          rw [finalize_finishReason]
          exact Option.isSome_iff_ne_none.mpr unfinished
        · rw [if_neg (by simp [plain])]
          exact .running running rfl rfl

inductive EventsEnd (platform : Platform) (state : StreamState) (events : List SseEvent)
    (handled : Emission) : Prop where
  | running (terminal : handled.1.terminal = false)
      (early : StreamBody.failsLate platform state events = false)
  | stopped (terminal : handled.1.terminal = true) (stop : EndsInStop handled.2)
      (finished : handled.1.finishReason.isSome = true)
      (early : StreamBody.failsLate platform state events = false)
      (plain : state.serverToolNames = [])
  | failed (terminal : handled.1.terminal = true) (error : EndsInError handled.2)
      (late : StreamBody.failsLate platform state events = handled.1.finishReason.isSome)

theorem eventsEnd_handleEvents (platform : Platform) (events : List SseEvent)
    {state : StreamState} (running : state.terminal = false) :
    EventsEnd platform state events (StreamBody.handleEvents platform state events) := by
  induction events generalizing state with
  | nil => exact .running running rfl
  | cons event rest ih =>
      rw [StreamBody.handleEvents]
      cases payloadEnd_handle platform running (String.ofList event.data) with
      | stopped terminal stop finished read plain =>
          rw [if_pos (by simp [terminal])]
          exact .stopped terminal stop finished (by simp [StreamBody.failsLate, read, terminal])
            plain
      | failed terminal error same unread =>
          rw [if_pos (by simp [terminal])]
          refine .failed terminal error ?_
          rw [StreamBody.failsLate, same]
          rcases read : (readPayload platform.codec (String.ofList event.data)).wellFormed with _ | _
          · simp
          · simp [terminal, unread read]
      | running terminal read names =>
          split
          next complete =>
            exact .running terminal (by simp [StreamBody.failsLate, read, complete])
          next more =>
            have later : StreamBody.failsLate platform state (event :: rest) =
                StreamBody.failsLate platform
                  (state.handle platform (String.ofList event.data)).1 rest := by
              simp [StreamBody.failsLate, read, more]
            cases ih terminal with
            | running terminal early => exact .running terminal (later.trans early)
            | stopped terminal stop finished early plain =>
                exact .stopped terminal (@EndsAs.append true _ stop _) finished
                  (later.trans early) (names ▸ plain)
            | failed terminal error late =>
                exact .failed terminal (@EndsAs.append false _ error _) (later.trans late)

inductive StepEnd (platform : Platform) (body : StreamBody) (arrival : Arrival)
    (output : Output) : Prop where
  | going (stays : body.exit platform arrival = none) (alive : output.1.returned = false)
      (early : body.failsAfterReason platform arrival = false)
      (closed : body.endsUnclosed arrival = false)
  | delivered (exit : StreamExit) (left : body.exit platform arrival = some exit)
      (returned : output.1.returned = true) (stop : EndsInStop output.2)
      (early : body.failsAfterReason platform arrival = false)
      (which : if body.endsUnclosed arrival then exit = .trailing
        else exit = .finished ∨ exit = .terminal true)
  | cut (exit : StreamExit) (left : body.exit platform arrival = some exit)
      (returned : output.1.returned = true)
      (error : output.1.crashed = true ∨ EndsInError output.2)
      (unfinished : exit ≠ .finished) (closed : body.endsUnclosed arrival = false)
      (late : exit = .terminal true ↔ body.failsAfterReason platform arrival = true)

variable {body : StreamBody}

theorem stepEnd_error {platform : Platform} {arrival : Arrival} {output : Output}
    (exit : StreamExit) (left : body.exit platform arrival = some exit)
    (returned : output.1.returned = true) (error : output.1.crashed = true ∨ EndsInError output.2)
    (unfinished : exit ≠ .finished) (closed : body.endsUnclosed arrival = false)
    (running : exit ≠ .terminal true) (early : body.failsAfterReason platform arrival = false) :
    StepEnd platform body arrival output :=
  .cut exit left returned error unfinished closed (iff_of_false running (by simp [early]))

theorem stepEnd_bytes (platform : Platform) (chunk : List UInt8)
    (running : body.state.terminal = false) :
    StepEnd platform body (.bytes chunk) (body.onBytes platform chunk) := by
  rw [StreamBody.onBytes]
  split
  next pushed =>
    exact stepEnd_error .decodeError (by simp [StreamBody.exit, pushed]) rfl
      (.inr ⟨_, rfl⟩) (by simp) rfl (by simp) (by simp [StreamBody.failsAfterReason, pushed])
  next decoder events pushed =>
    have early : body.failsAfterReason platform (.bytes chunk) =
        StreamBody.failsLate platform body.state events := by
      simp [StreamBody.failsAfterReason, pushed]
    cases eventsEnd_handleEvents platform events running with
    | running terminal late =>
        exact .going (by simp [StreamBody.exit, pushed, terminal]) terminal (early.trans late) rfl
    | stopped terminal stop finished late plain =>
        exact .delivered (.terminal true) (by simp [StreamBody.exit, pushed, terminal, finished])
          terminal stop (early.trans late) (.inr rfl)
    | failed terminal error late =>
        refine .cut (.terminal (StreamBody.handleEvents platform body.state
          events).1.finishReason.isSome) (by simp [StreamBody.exit, pushed, terminal]) terminal
          (.inr error) (by simp) rfl ?_
        rw [early, late]
        simp

inductive RoundEnd (exit : Option StreamExit) (output : Output) : Prop where
  | going (stays : exit = none) (alive : output.1.returned = false)
  | finished (left : exit = some .finished) (returned : output.1.returned = true)
      (stop : EndsInStop output.2)
  | cut (reason : StreamExit) (left : exit = some reason) (returned : output.1.returned = true)
      (error : output.1.crashed = true ∨ EndsInError output.2)
      (unfinished : reason ≠ .finished) (outside : reason ≠ .terminal true)

theorem endsInStop_finishWithStop (platform : Platform) (stopOverride : Option String)
    (state : StreamState) : EndsInStop (state.finishWithStop platform stopOverride).2 := by
  simp [EndsInStop, StreamState.finishWithStop]

theorem roundEnd_continueWith (continuation : Continuation) (shown : Emission)
    (alive : body.returned = false) :
    RoundEnd continuation.exit (body.continueWith continuation shown) := by
  have failed (last : StreamBody) (message : String) :
      EndsInError (StreamBody.continueWith.fail shown last message).2 :=
    @EndsAs.append false _ ⟨_, rfl⟩ _
  cases continuation with
  | success => exact .going rfl alive
  | unwritable => exact .cut .unwritable rfl rfl (.inr (failed _ _)) (by simp) (by simp)
  | unsent => exact .cut .unsent rfl rfl (.inr (failed _ _)) (by simp) (by simp)
  | httpError => exact .cut .httpError rfl rfl (.inr (failed _ _)) (by simp) (by simp)

theorem leavesLoop_serverOnly {calls : List OpenAiToolCall} {names : List String} (uses rounds : Nat)
    (kind : classifyRound calls names = .serverOnly) :
    leavesLoop calls names uses rounds =
      (uses == 0 || decide (maxInternalGenerationRounds ≤ rounds)) := by
  rw [leavesLoop, kind]

theorem leavesLoop_other {calls : List OpenAiToolCall} {names : List String} (uses rounds : Nat)
    (kind : classifyRound calls names ≠ .serverOnly) : leavesLoop calls names uses rounds = true := by
  rw [leavesLoop]
  split <;> simp_all

def StreamState.Shows (state next : StreamState) : Prop :=
  next = { state with
    blocks := next.blocks
    textIndex := next.textIndex
    thinkingIndex := next.thinkingIndex
    webSearchRequests := next.webSearchRequests
    pendingServerIds := next.pendingServerIds }

theorem StreamState.Shows.trans {first second third : StreamState} (begun : first.Shows second)
    (later : second.Shows third) : first.Shows third := by
  unfold StreamState.Shows at begun later ⊢
  rw [later, begun]

theorem shows_closeOpenContentBlocks (platform : Platform) (state : StreamState) :
    state.Shows (state.closeOpenContentBlocks platform).1 := by
  have thinking (state : StreamState) : state.Shows (state.closeThinking platform).1 := by
    rw [StreamState.closeThinking]
    split
    next => rfl
    next => dsimp only; split <;> rfl
  have text (state : StreamState) : state.Shows (state.closeText platform).1 := by
    rw [StreamState.closeText]
    split
    next => rfl
    next => dsimp only; split <;> rfl
  exact StreamState.Shows.trans (thinking state) (text _)

theorem shows_serverToolUses (codec : Codec) (ids : Nat → String) (calls : List OpenAiToolCall)
    (state : StreamState) : state.Shows (state.serverToolUses codec ids calls).1 := by
  induction calls generalizing state with
  | nil => rfl
  | cons call rest ih =>
      have shown : state.Shows (state.serverToolUse codec call (ids rest.length)).1 := rfl
      exact StreamState.Shows.trans shown (ih _)

theorem shows_serverToolResults (results : List (String × SearchOutcome)) (state : StreamState) :
    state.Shows (state.serverToolResults results).1 := by
  induction results generalizing state with
  | nil => rfl
  | cons result rest ih =>
      refine StreamState.Shows.trans ?_ (ih _)
      rfl

theorem shows_searchRound (platform : Platform) (replies : RoundReplies)
    (calls : List OpenAiToolCall) (outcomes : List SearchOutcome) (state : StreamState) :
    state.Shows (StreamBody.searchRound platform replies calls outcomes state).1 := by
  have used : state.Shows (state.emitServerToolUse platform replies.toolIds calls).1 := by
    refine StreamState.Shows.trans (shows_closeOpenContentBlocks platform state)
      (StreamState.Shows.trans ?_ (shows_serverToolUses platform.codec replies.toolIds calls _))
    rfl
  refine StreamState.Shows.trans used (StreamState.Shows.trans ?_ (shows_serverToolResults _ _))
  rfl

theorem roundEnd_serverRound (platform : Platform) (replies : RoundReplies)
    (alive : body.returned = false) (running : body.state.terminal = false) :
    RoundEnd (body.serverExit platform replies) (body.serverRound platform replies) := by
  have shown (calls : List OpenAiToolCall) (outcomes : List SearchOutcome) :
      (StreamBody.searchRound platform replies calls outcomes body.state).1.terminal = false := by
    rw [shows_searchRound platform replies calls outcomes body.state]
    exact running
  rw [StreamBody.serverRound, StreamBody.serverExit]
  dsimp only
  cases kind : classifyRound body.state.openaiToolCalls (StreamBody.serverNames body.serverLoop) with
  | none =>
      rw [leavesLoop_other _ _ (by simp [kind])]
      exact .finished rfl rfl (endsInStop_finalize platform running)
  | clientOnly =>
      rw [leavesLoop_other _ _ (by simp [kind])]
      exact .finished rfl rfl (endsInStop_finalize platform running)
  | mixed =>
      rw [leavesLoop_other _ _ (by simp [kind])]
      refine .finished rfl rfl ?_
      exact @EndsAs.append true _ (endsInStop_finalize platform (shown _ _)) _
  | serverOnly =>
      rw [leavesLoop_serverOnly _ _ kind]
      dsimp only
      cases spent : body.usesLeft == 0 ||
          decide (maxInternalGenerationRounds ≤ body.generationRounds) with
      | true =>
          refine .finished rfl rfl ?_
          exact @EndsAs.append true _ (endsInStop_finishWithStop platform (some "pause_turn") _) _
      | false =>
          simp only [Bool.false_eq_true, ↓reduceIte, StreamBody.continueRound, StreamBody.searched]
          cases StreamBody.appendRound (body.state.openaiToolCalls.filter fun call =>
              (StreamBody.serverNames body.serverLoop).contains call.name)
            (body.searchOutcomes platform replies false (body.state.openaiToolCalls.filter
              fun call => (StreamBody.serverNames body.serverLoop).contains call.name)).1
            body.serverLoop with
          | error abort => exact .cut .crashed rfl rfl (.inl rfl) (by simp) (by simp)
          | ok serverLoop => exact roundEnd_continueWith _ _ alive

theorem roundEnd_endOfRound (platform : Platform) (replies : RoundReplies)
    (alive : body.returned = false) (running : body.state.terminal = false) :
    RoundEnd (body.roundExit platform replies) (body.onEndOfRound platform replies) := by
  rw [StreamBody.onEndOfRound, if_neg (by simp [running]), StreamBody.roundExit]
  by_cases alone : body.serverLoop.isNone = true
  · rw [if_pos alone, if_pos alone]
    by_cases finished : body.state.finishReason.isSome = true
    · rw [if_pos finished, if_pos finished]
      exact .finished rfl rfl (endsInStop_finalize platform running)
    · rw [if_neg finished, if_neg finished]
      exact .cut .unexpectedEof rfl rfl (.inr ⟨_, rfl⟩) (by simp) (by simp)
  · rw [if_neg alone, if_neg alone]
    by_cases cut : (body.state.finishReason.isNone && !body.state.roundComplete) = true
    · rw [if_pos cut, if_pos cut]
      exact .cut .unexpectedEof rfl rfl (.inr ⟨_, rfl⟩) (by simp) (by simp)
    · rw [if_neg cut, if_neg cut]
      exact roundEnd_serverRound platform replies alive running

theorem endsUnclosed_one {event : SseEvent} (replies : RoundReplies)
    (finish : body.decoder.finish = some [event]) :
    body.endsUnclosed (.ended replies) = (body.state.serverToolNames.isEmpty &&
      body.state.finishReason.isSome && isDone (String.ofList event.data)) := by
  simp [StreamBody.endsUnclosed, finish]

theorem handle_unclosed (platform : Platform) {state : StreamState}
    (running : state.terminal = false) (data : String) :
    (state.serverToolNames.isEmpty && state.finishReason.isSome && isDone data) = true ↔
      (state.handle platform data).1.terminal = true ∧ EndsInStop (state.handle platform data).2 := by
  constructor
  · intro unclosed
    simp only [Bool.and_eq_true] at unclosed
    obtain ⟨⟨plain, finished⟩, done⟩ := unclosed
    rw [StreamState.handle, if_pos done, if_neg (by simpa using Option.isSome_iff_ne_none.mp finished),
      if_pos plain]
    exact ⟨finalize_terminal platform running, endsInStop_finalize platform running⟩
  · rintro ⟨terminal, stop⟩
    have failed (message : String) : ¬EndsInStop (state.fail message).2 := by
      simp [EndsInStop, StreamState.fail, errorFrame]
    rw [StreamState.handle_eq] at terminal stop
    cases payload : readPayload platform.codec data with
    | malformed => exact absurd (by simpa only [payload] using stop) (failed _)
    | failed => exact absurd (by simpa only [payload] using stop) (failed _)
    | chunk value =>
        rw [payload] at terminal
        exact absurd terminal (by simp [running_handleValue running value])
    | done =>
        rw [payload] at terminal stop
        dsimp only at terminal stop
        have done : isDone data = true := by
          rw [readPayload] at payload
          split at payload
          next done => exact done
          next =>
            split at payload
            next => cases payload
            next => split at payload <;> cases payload
        by_cases unfinished : state.finishReason = none
        · rw [if_pos (by simp [unfinished])] at stop
          exact absurd stop (failed _)
        · by_cases plain : state.serverToolNames = []
          · simp [plain, done, Option.isSome_iff_ne_none, unfinished]
          · rw [if_neg (by simp [unfinished]), if_neg (by simp [plain])] at terminal
            exact absurd terminal (by simp [running])

theorem stepEnd_ended (platform : Platform) (replies : RoundReplies)
    (alive : body.returned = false) (running : body.state.terminal = false) :
    StepEnd platform body (.ended replies) (body.onEnded platform replies) := by
  rw [StreamBody.onEnded, if_neg (by simp [running])]
  split
  next finish =>
    exact stepEnd_error .decodeError (by simp [StreamBody.exit, finish]) rfl
      (.inr ⟨_, rfl⟩) (by simp) (by simp [StreamBody.endsUnclosed, finish]) (by simp) rfl
  next events finish =>
    have few := SseDecoder.finish_length finish
    have left : body.exit platform (.ended replies) =
        if (StreamBody.handleTrailing platform body.state events).1.terminal then some .trailing
        else StreamBody.roundExit platform replies
          { body with state := (StreamBody.handleTrailing platform body.state events).1 } := by
      simp only [StreamBody.exit, finish]
    have atEnd (closed : body.endsUnclosed (.ended replies) = false)
        (going : (StreamBody.handleTrailing platform body.state events).1.terminal = false) :
        StepEnd platform body (.ended replies)
          ((StreamBody.onEndOfRound platform replies
            { body with state := (StreamBody.handleTrailing platform body.state events).1 }).1,
            (StreamBody.handleTrailing platform body.state events).2 ++
              (StreamBody.onEndOfRound platform replies
                { body with state := (StreamBody.handleTrailing platform body.state events).1 }).2) := by
      rw [going, if_neg (by simp)] at left
      cases @roundEnd_endOfRound { body with
        state := (StreamBody.handleTrailing platform body.state events).1 } platform replies alive
          going with
      | going stays live => exact .going (left.trans stays) live rfl closed
      | finished exits returned stop =>
          exact .delivered .finished (left.trans exits) returned (@EndsAs.append true _ stop _) rfl
            (by simp [closed])
      | cut reason exits returned error unfinished outside =>
          exact stepEnd_error reason (left.trans exits) returned
            (error.imp_right fun ends => @EndsAs.append false _ ends _) unfinished closed outside rfl
    cases events with
    | nil => exact atEnd (by simp [StreamBody.endsUnclosed, finish]) running
    | cons event rest =>
        obtain rfl : rest = [] := List.length_eq_zero_iff.mp (by simpa using few)
        have one : StreamBody.handleTrailing platform body.state [event] =
            body.state.handle platform (String.ofList event.data) := by
          simp [StreamBody.handleTrailing, Emission.andThen]
        have closes := endsUnclosed_one replies finish
        have stops := handle_unclosed platform running (String.ofList event.data)
        rw [one] at left atEnd ⊢
        rcases terminal : (body.state.handle platform (String.ofList event.data)).1.terminal with _ | _
        · refine atEnd ?_ terminal
          rw [closes, ← Bool.not_eq_true, stops]
          simp [terminal]
        · rw [terminal, if_pos rfl] at left
          have over_ : StreamBody.onEndOfRound platform replies
              { body with state := (body.state.handle platform (String.ofList event.data)).1 } =
                StreamBody.returnWith
                  { body with state := (body.state.handle platform (String.ofList event.data)).1 }
                  ((body.state.handle platform (String.ofList event.data)).1, []) := by
            rw [StreamBody.onEndOfRound, if_pos terminal]
          simp only [over_, StreamBody.returnWith, List.append_nil]
          cases payloadEnd_handle platform running (String.ofList event.data) with
          | running going => simp [terminal] at going
          | stopped _ stop =>
              refine .delivered .trailing left rfl stop rfl ?_
              rw [closes, if_pos (stops.mpr ⟨terminal, stop⟩)]
          | failed _ error =>
              refine stepEnd_error .trailing left rfl (.inr error) (by simp) ?_ (by simp) rfl
              obtain ⟨envelope, last⟩ := error
              rw [closes, ← Bool.not_eq_true, stops]
              rintro ⟨-, stop⟩
              rw [EndsInStop, last] at stop
              cases stop

theorem stepEnd_step (platform : Platform) (arrival : Arrival) (alive : body.returned = false)
    (running : body.state.terminal = false) :
    StepEnd platform body arrival (body.step platform arrival) := by
  unfold StreamBody.step
  rw [if_neg (by simp [alive])]
  cases arrival with
  | bytes chunk => exact stepEnd_bytes platform chunk running
  | interrupted =>
      exact stepEnd_error .interrupted rfl rfl (.inr ⟨_, rfl⟩) (by simp) rfl (by simp) rfl
  | stalled kind =>
      exact stepEnd_error (.stalled kind) rfl rfl (.inr ⟨_, rfl⟩) (by simp) rfl (by simp) rfl
  | idle => exact .going rfl alive rfl rfl
  | ended replies => exact stepEnd_ended platform replies alive running

inductive RunEnd (platform : Platform) (body : StreamBody) (arrivals : List Arrival)
    (output : Output) : Prop where
  | going (stays : body.leftBy platform arrivals = none) (alive : output.1.returned = false)
      (early : body.neverFailsLate platform arrivals = true)
      (closed : body.neverEndsUnclosed platform arrivals = true)
  | delivered (exit : StreamExit) (left : body.leftBy platform arrivals = some exit)
      (returned : output.1.returned = true) (stop : EndsInStop output.2)
      (early : body.neverFailsLate platform arrivals = true)
      (which : if body.neverEndsUnclosed platform arrivals
        then exit = .finished ∨ exit = .terminal true else exit = .trailing)
  | cut (exit : StreamExit) (left : body.leftBy platform arrivals = some exit)
      (returned : output.1.returned = true)
      (error : output.1.crashed = true ∨ EndsInError output.2) (unfinished : exit ≠ .finished)
      (closed : body.neverEndsUnclosed platform arrivals = true)
      (late : exit = .terminal true ↔ body.neverFailsLate platform arrivals = false)

theorem keeps_returned (platform : Platform) (rule : StreamBody → Arrival → Bool)
    (returned : body.returned = true) (arrivals : List Arrival) :
    body.keeps platform rule arrivals = true := by
  cases arrivals with
  | nil => rfl
  | cons arrival rest => simp [StreamBody.keeps, returned]

theorem runEnd_run (platform : Platform) (arrivals : List Arrival) {client : Client}
    (attends : Attends body client) (alive : body.returned = false) :
    RunEnd platform body arrivals (body.run platform arrivals) := by
  induction arrivals generalizing body client with
  | nil => exact .going rfl alive rfl rfl
  | cons arrival rest ih =>
      have running : body.state.terminal = false := by
        rcases attends with ⟨returned, -⟩ | ⟨-, -, running, -⟩
        · simp [returned] at alive
        · exact running
      have stays (rule : StreamBody → Arrival → Bool) :
          body.keeps platform rule (arrival :: rest) = (rule body arrival &&
            (body.step platform arrival).1.keeps platform rule rest) := by
        simp [StreamBody.keeps, alive]
      have left : body.leftBy platform (arrival :: rest) = (body.exit platform arrival).or
          ((body.step platform arrival).1.leftBy platform rest) := by
        simp [StreamBody.leftBy, alive]
      have earlyKept : body.neverFailsLate platform (arrival :: rest) =
          (!body.failsAfterReason platform arrival &&
            (body.step platform arrival).1.neverFailsLate platform rest) := stays _
      have closedKept : body.neverEndsUnclosed platform (arrival :: rest) =
          (!body.endsUnclosed arrival &&
            (body.step platform arrival).1.neverEndsUnclosed platform rest) := stays _
      simp only [StreamBody.run]
      cases stepEnd_step platform arrival alive running with
      | going exits aliveNext early closed =>
          rw [exits, Option.none_or] at left
          rw [early, Bool.not_false, Bool.true_and] at earlyKept
          rw [closed, Bool.not_false, Bool.true_and] at closedKept
          obtain ⟨next, -, attendsNext⟩ := serves_step platform arrival attends
          cases ih attendsNext aliveNext with
          | going exitsLater aliveLast earlyLater closedLater =>
              exact .going (left.trans exitsLater) aliveLast (earlyKept.trans earlyLater)
                (closedKept.trans closedLater)
          | delivered exit exitsLater returned stop earlyLater which =>
              exact .delivered exit (left.trans exitsLater) returned (@EndsAs.append true _ stop _)
                (earlyKept.trans earlyLater) (closedKept ▸ which)
          | cut exit exitsLater returned error unfinished closedLater late =>
              exact .cut exit (left.trans exitsLater) returned
                (error.imp_right fun ends => @EndsAs.append false _ ends _) unfinished
                (closedKept.trans closedLater) (earlyKept ▸ late)
      | delivered exit exits returned stop early which =>
          rw [exits, Option.some_or] at left
          have keptLast (rule : StreamBody → Arrival → Bool) :=
            keeps_returned platform rule returned rest
          rw [early, Bool.not_false, Bool.true_and] at earlyKept
          have unclosed : body.neverEndsUnclosed platform (arrival :: rest) =
              !body.endsUnclosed arrival := by
            rw [closedKept, StreamBody.neverEndsUnclosed, keptLast, Bool.and_true]
          rw [StreamBody.run_returned platform returned, List.append_nil]
          refine .delivered exit left returned stop (earlyKept.trans (keptLast _)) ?_
          rw [unclosed]
          cases held : body.endsUnclosed arrival <;> simpa [held] using which
      | cut exit exits returned error unfinished closed late =>
          rw [exits, Option.some_or] at left
          have keptLast (rule : StreamBody → Arrival → Bool) :=
            keeps_returned platform rule returned rest
          rw [closed, Bool.not_false, Bool.true_and] at closedKept
          have failed : body.neverFailsLate platform (arrival :: rest) =
              !body.failsAfterReason platform arrival := by
            rw [earlyKept, StreamBody.neverFailsLate, keptLast, Bool.and_true]
          rw [StreamBody.run_returned platform returned, List.append_nil]
          refine .cut exit left returned error unfinished (closedKept.trans (keptLast _)) ?_
          rw [failed, late]
          simp

end ClineProxy
