import ClineProxy.ResponsesFinish
import ClineProxy.ResponsesFraming
import ClineProxy.ResponsesHistory

/-! Runs of the pump that end in a response, and what is known of their calls. -/

namespace ClineProxy

open Json ResponsesConverter

def ResponsesEvent.response : ResponsesEvent → Option ResponseObject
  | .terminal response => some response
  | _ => none

/-- The response that a run ends in: the last event of a stream, or the answer. -/
def ResponsesPump.terminal (codec : Codec) (pump : ResponsesPump) (arrivals : List PumpArrival) :
    Option ResponseObject :=
  match pump.delivery with
  | .streamed => ((pump.events codec arrivals).getLast?).bind fun sent => sent.event.response
  | .aggregated =>
      match (pump.run codec arrivals).1.answer with
      | some (.ok response) => some response
      | _ => none

/-- What the upstream and the searches gave in a run. -/
def ResponsesPump.moves (codec : Codec) (pump : ResponsesPump) (arrivals : List PumpArrival) :
    List ConverterMove := (pump.run codec arrivals).2.flatMap callMoves

section Moves

variable (converter : ResponsesConverter)

theorem response_move (move : ConverterMove) :
    ∀ event ∈ (converter.move move).events, event.response = none := by
  intro event member
  by_cases starts : move = .start
  · subst starts
    rw [ResponsesConverter.move, ensureStarted] at member
    split at member
    next => cases member
    next =>
      rw [emitAll_events] at member
      rcases List.mem_pair.mp member with rfl | rfl <;> rfl
  · have items := converter.onlyItems_move (fun same => absurd same starts)
    have item := List.all_eq_true.mp items event member
    cases event with
    | item => rfl
    | created | inProgress | terminal => cases item

theorem response_moveAll (moves : List ConverterMove) :
    ∀ event ∈ (converter.moveAll moves).events, event.response = none := by
  induction moves generalizing converter with
  | nil => simp [moveAll, ResponsesEmission.events]
  | cons move rest ih =>
      intro event member
      rw [moveAll, ResponsesEmission.events_andThen] at member
      exact (List.mem_append.mp member).elim (response_move converter move event) (ih _ event)

end Moves

theorem last_response (emission : ResponsesEmission) :
    (emission.2.getLast?.bind fun sent => sent.event.response) =
      emission.events.getLast?.bind ResponsesEvent.response := by
  rw [ResponsesEmission.events, List.getLast?_map]
  cases emission.2.getLast? <;> rfl

theorem response_unfinished (converter : ResponsesConverter) {calls : List ConverterCall}
    (unfinished : Unfinished calls) :
    ((converter.applyAll calls).2.getLast?.bind fun sent => sent.event.response) = none := by
  rw [last_response, applyAll_eq calls converter unfinished]
  cases last : (converter.moveAll (calls.flatMap callMoves)).events.getLast? with
  | none => rfl
  | some event => exact response_moveAll converter _ event (List.mem_of_getLast? last)

theorem moves_finish (going : List ConverterCall) (error : Option String) :
    (going ++ [ConverterCall.finish error]).flatMap callMoves = going.flatMap callMoves := by
  simp [callMoves]

/-- How the run of some calls ended, with the response it gave. -/
def EndsIn (names : List String) (exposeThinking : Bool) (moves : List ConverterMove)
    (converter : ResponsesConverter) (response : ResponseObject) : Option String → Prop
  | none => ∃ closed sent, Finish names exposeThinking (trackOf names exposeThinking moves)
      (converter.moveAll moves).1 (converter.moveAll moves).events closed sent response
  | some message => response =
      failedResponse { (converter.moveAll moves).1 with error := some message } message

theorem terminal_calls (codec : Codec) (delivery : Delivery) (responseId : String)
    (createdAt : UInt64) (model : String) (exposeThinking : Bool)
    (webSearch : Option ResponsesWebSearchContext) (chatBody : Value)
    (arrivals : List PumpArrival) {response : ResponseObject} :
    let pump := ResponsesPump.start delivery responseId createdAt model exposeThinking webSearch
      chatBody
    let names := ResponsesPump.serverToolNames webSearch
    let moves := pump.moves codec arrivals
    pump.terminal codec arrivals = some response →
      ∃ going error, (pump.run codec arrivals).2 = going ++ [.finish error] ∧
        Unfinished going ∧ Guarded pump.converter going ∧ moves = going.flatMap callMoves ∧
          EndsIn names exposeThinking moves pump.converter response error := by
  intro pump names moves ended
  have progress := @ResponsesPump.progress_run pump codec arrivals rfl rfl rfl
  have guarded := progress.guarded
  have taken := progress.converter
  have streamed (same : delivery = .streamed) :
      (pump.converter.applyAll (pump.run codec arrivals).2).events.getLast?.bind
        ResponsesEvent.response = some response := by
    subst same
    rw [← last_response]
    exact ended
  have aggregated (same : delivery = .aggregated) :
      (pump.run codec arrivals).1.answer = some (.ok response) := by
    subst same
    change (match (pump.run codec arrivals).1.answer with
      | some (.ok response) => some response
      | _ => none) = some response at ended
    split at ended
    next answer known => rw [known, Option.some.inj ended]
    next => cases ended
  have silent (unfinished : Unfinished (pump.run codec arrivals).2)
      (unanswered : (pump.run codec arrivals).1.answer ≠ some (.ok response)) : False := by
    cases delivery with
    | streamed =>
        have nothing := response_unfinished pump.converter unfinished
        rw [last_response] at nothing
        cases nothing.symm.trans (streamed rfl)
    | aggregated => exact unanswered (aggregated rfl)
  cases progress.outcome with
  | running alive whole noFailure unfinished =>
      exact (silent unfinished (by simp [ResponsesPump.answer, alive])).elim
  | crashed ended cut unfinished =>
      exact (silent unfinished (by simp [ResponsesPump.answer, cut])).elim
  | failed ended whole unfinished failure aggregated =>
      obtain ⟨error, known⟩ := Option.isSome_iff_exists.mp failure
      exact (silent unfinished (by simp [ResponsesPump.answer, ended, whole, known])).elim
  | finished going error made over_ whole unfinished noFailure delivered =>
      have same : moves = going.flatMap callMoves := by
        rw [← moves_finish going error, ← made]
        rfl
      have start := board_new responseId createdAt model exposeThinking names
      have board : Board names exposeThinking (trackOf names exposeThinking moves)
          (pump.converter.moveAll moves).1 (pump.converter.moveAll moves).events :=
        start.movedAll moves
      have shelf : Shelf exposeThinking (trackOf names exposeThinking moves).opened
          (pump.converter.moveAll moves).1 (pump.converter.moveAll moves).events :=
        Shelf.movedAll (shelf_new responseId createdAt model exposeThinking names) start moves
      have emitted := finishing_events pump.converter unfinished error
      rw [← made, ← same] at emitted
      rw [made] at guarded
      refine ⟨going, error, made, unfinished, guarded.last.1, same, ?_⟩
      cases error with
      | some message =>
          have last := streamed (delivered rfl)
          rw [emitted] at last
          have failed : ((pump.converter.moveAll moves).1.finish (some message)).events =
            [.terminal (failedResponse { (pump.converter.moveAll moves).1 with
              error := some message } message)] := rfl
          rw [failed, List.getLast?_concat] at last
          exact (Option.some.inj last).symm
      | none =>
          obtain ⟨closed, sent, given, finish⟩ := finish_finish board shelf
          have equal : given = response := by
            cases delivery with
            | streamed =>
                have last := streamed rfl
                rw [emitted, finish.emitted, ← List.append_assoc, List.getLast?_concat] at last
                exact Option.some.inj last
            | aggregated =>
                have answer := aggregated rfl
                simp only [ResponsesPump.answer, over_, whole, noFailure] at answer
                have last : (pump.run codec arrivals).1.converter =
                    ((pump.converter.moveAll moves).1.finish none).1 := by
                  rw [taken whole, made, applyAll_append, same,
                    ← applyAll_eq going pump.converter unfinished]
                  rfl
                rw [last, finish.answered] at answer
                simpa using answer
          exact ⟨closed, sent, equal ▸ finish⟩

/-- A run that succeeds ends in a call to finish without an error. -/
theorem terminal_finish (codec : Codec) (delivery : Delivery) (responseId : String)
    (createdAt : UInt64) (model : String) (exposeThinking : Bool)
    (webSearch : Option ResponsesWebSearchContext) (chatBody : Value)
    (arrivals : List PumpArrival) {response : ResponseObject} :
    let pump := ResponsesPump.start delivery responseId createdAt model exposeThinking webSearch
      chatBody
    let names := ResponsesPump.serverToolNames webSearch
    let moves := pump.moves codec arrivals
    pump.terminal codec arrivals = some response → response.status ≠ .failed →
      ∃ going closed sent, (pump.run codec arrivals).2 = going ++ [.finish none] ∧
        Unfinished going ∧ Guarded pump.converter going ∧ moves = going.flatMap callMoves ∧
          Finish names exposeThinking (trackOf names exposeThinking moves)
            (pump.converter.moveAll moves).1 (pump.converter.moveAll moves).events closed sent
            response := by
  intro pump names moves ended success
  obtain ⟨going, error, made, unfinished, guarded, same, ends⟩ := terminal_calls codec delivery
    responseId createdAt model exposeThinking webSearch chatBody arrivals ended
  cases error with
  | none =>
      obtain ⟨closed, sent, finish⟩ := ends
      exact ⟨going, closed, sent, made, unfinished, guarded, same, finish⟩
  | some message =>
      have failed : response.status = .failed := congrArg ResponseObject.status ends
      exact absurd failed success

section Guarded

variable {names : List String} {exposeThinking : Bool} {track : Track}
  {converter : ResponsesConverter} {events : List ResponsesEvent}

theorem Board.allServer (board : Board names exposeThinking track converter events)
    (pure_ : converter.hasClientTools = false) :
    ∀ call ∈ track.round.registered, names.contains (fragmentName call) = true := by
  intro call member
  cases held : OrderedMap.lookup (signedCallIndex call) converter.tools with
  | none =>
      have absent := (board.noSlots _ held).1
      simp [board.own call member] at absent
  | some slot =>
      obtain ⟨first, found, slotted⟩ := board.slots _ slot held
      obtain rfl := Option.some.inj ((board.own call member).symm.trans found)
      rw [← slotted.server]
      have all := List.any_eq_false.mp pure_ _ (OrderedMap.mem_of_lookup held)
      simpa using all

theorem earlier_move {move : ConverterMove} (going : move ≠ .newRound) :
    (track.move names exposeThinking move).earlier = track.earlier := by
  cases move with
  | start | note | finish | searched => rfl
  | reasoning text | text text => exact Track.earlier_setSaid ..
  | register call =>
      rw [Track.move]
      split
      next => rfl
      next => exact Track.earlier_closing track
  | extend call =>
      rw [Track.move]
      split <;> rfl
  | newRound => exact absurd rfl going

theorem earlier_moveAll {moves : List ConverterMove} (going : .newRound ∉ moves) :
    (track.moveAll names exposeThinking moves).earlier = track.earlier := by
  induction moves generalizing track with
  | nil => rfl
  | cons move rest ih =>
      simp only [List.mem_cons, not_or] at going
      exact (ih going.2).trans (earlier_move (Ne.symm going.1))

theorem newRound_chunkMoves (chunk : Value) : ConverterMove.newRound ∉ chunkMoves chunk := by
  intro member
  simp only [chunkMoves, List.mem_append, List.mem_cons, List.not_mem_nil, or_false, reduceCtorEq,
    false_or, List.mem_flatMap, choiceMoves] at member
  obtain ⟨choice, _, delta⟩ := member
  cases given : choice.get "delta" with
  | none => simp [given] at delta
  | some value => simp [given, deltaMoves, textMoves] at delta

theorem searched_moves (track : Track) (outcomes : List SearchOutcome) :
    (track.moveAll names exposeThinking (outcomes.map .searched)).round = track.round ∧
      (track.moveAll names exposeThinking (outcomes.map .searched)).earlier = track.earlier := by
  induction outcomes generalizing track with
  | nil => exact ⟨rfl, rfl⟩
  | cons outcome rest ih => exact ih _

theorem callMoves_searchRound (calls : List OpenAiToolCall) (outcomes : List SearchOutcome) :
    callMoves (.searchRound calls outcomes) =
      ((calls.zip outcomes).map Prod.snd).map .searched ++ [.newRound] := by
  simp [callMoves]

theorem earlier_searchRound (track : Track) (calls : List OpenAiToolCall)
    (outcomes : List SearchOutcome) :
    (track.moveAll names exposeThinking (callMoves (.searchRound calls outcomes))).earlier =
      track.earlier ++ [track.round] := by
  have searched := @searched_moves names exposeThinking track ((calls.zip outcomes).map Prod.snd)
  rw [callMoves_searchRound, Track.moveAll, List.foldl_append]
  exact congrArg₂ (fun earlier round => earlier ++ [round]) searched.2 searched.1

theorem trackOf_append (first second : List ConverterMove) :
    trackOf names exposeThinking (first ++ second) =
      (trackOf names exposeThinking first).moveAll names exposeThinking second := by
  simp [trackOf, Track.moveAll]

theorem guarded_rounds {held : CallRound → Prop} (responseId : String) (createdAt : UInt64)
    (model : String) (names : List String) (exposeThinking : Bool)
    (whole : ∀ track converter events, Board names exposeThinking track converter events →
      converter.hasClientTools = false → held track.round)
    {calls : List ConverterCall} (unfinished : Unfinished calls)
    (guarded : Guarded (withServerTools responseId createdAt model exposeThinking names) calls) :
    ∀ round ∈ (trackOf names exposeThinking (calls.flatMap callMoves)).earlier, held round := by
  induction calls using List.reverseRecOn with
  | nil => exact fun _ member => by cases member
  | append_singleton calls last ih =>
      obtain ⟨before, now⟩ := guarded.last
      have going : Unfinished calls := fun call member =>
        unfinished call (List.mem_append_left _ member)
      have known := ih going before
      rw [List.flatMap_append, List.flatMap_singleton, trackOf_append]
      cases last with
      | finish error => exact absurd rfl (unfinished _ (by simp) error)
      | feedChunk chunk =>
          rw [callMoves, earlier_moveAll (newRound_chunkMoves chunk)]
          exact known
      | searchRound asked outcomes =>
          have board := (board_new responseId createdAt model exposeThinking names).movedAll
            (calls.flatMap callMoves)
          have at_ := applyAll_eq calls
            (withServerTools responseId createdAt model exposeThinking names) going
          have done := whole _ _ _ board (at_ ▸ now.1.2.1)
          rw [earlier_searchRound]
          intro round member
          rcases List.mem_append.mp member with earlier | latest
          · exact known round earlier
          · exact List.mem_singleton.mp latest ▸ done

theorem guarded_kept (responseId : String) (createdAt : UInt64) (model : String)
    (names : List String) (exposeThinking : Bool) {calls : List ConverterCall}
    (unfinished : Unfinished calls)
    (guarded : Guarded (withServerTools responseId createdAt model exposeThinking names) calls) :
    ¬(trackOf names exposeThinking (calls.flatMap callMoves)).Lost names := by
  rintro ⟨round, member, call, registered, client⟩
  have server := @guarded_rounds
    (fun round => ∀ call ∈ round.registered, names.contains (fragmentName call) = true)
    responseId createdAt model names exposeThinking
    (fun _ _ _ board pure_ => board.allServer pure_) calls unfinished guarded round member call
    registered
  rw [server] at client
  cases client

end Guarded

end ClineProxy
