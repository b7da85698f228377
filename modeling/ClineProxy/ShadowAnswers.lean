import ClineProxy.ShadowInputs
import ClineProxy.SummaryChecks

/-! What a request that does not stream commits to the shadow store, as its chunks say it. -/

namespace ClineProxy

open Json

namespace Aggregation

theorem step_chunk {codec : Codec} {aggregation next : Aggregation} {arrival : Arrival}
    (stepped : aggregation.step codec arrival = .ok next) :
    arrival.chunk.toList.foldlM (onBytes codec) aggregation = .ok next := by
  cases arrival with
  | bytes chunk =>
      rw [step] at stepped
      simpa [Arrival.chunk] using stepped
  | interrupted | stalled kind => cases stepped
  | idle | ended replies => exact stepped

theorem steps_chunks {codec : Codec} (arrivals : List Arrival) {aggregation last : Aggregation}
    (stepped : arrivals.foldlM (step codec) aggregation = .ok last) :
    ((arrivals.filterMap Arrival.chunk).map Arrival.bytes).foldlM (step codec) aggregation =
      .ok last := by
  induction arrivals generalizing aggregation with
  | nil => exact stepped
  | cons arrival rest ih =>
      rw [List.foldlM_cons] at stepped
      obtain ⟨next, first, later⟩ := bind_eq_ok.mp stepped
      have here := step_chunk first
      have after := ih later
      cases chunk : arrival.chunk with
      | none =>
          rw [chunk] at here
          cases here
          rwa [List.filterMap_cons_none chunk]
      | some bytes =>
          rw [chunk, Option.toList_some, List.foldlM_cons] at here
          obtain ⟨reached, now, same⟩ := bind_eq_ok.mp here
          cases same
          rw [List.filterMap_cons_some chunk, List.map_cons, List.foldlM_cons]
          exact bind_eq_ok.mpr ⟨_, now, after⟩

theorem aggregate_chunks {codec : Codec} {requestId : String} {arrivals : List Arrival}
    {body : Value} (aggregated : aggregateStreamResponse codec requestId arrivals = .ok body) :
    ∃ accumulator, Accumulated (arrivedValues codec arrivals) accumulator ∧
      accumulator.intoResponse requestId = .ok body := by
  obtain ⟨last, stepped, ended⟩ := bind_eq_ok.mp aggregated
  have small : start.aggregatedBytes ≤ maxAggregatedResponseBytes := Nat.zero_le _
  obtain ⟨-, -, -, response⟩ := (aggregate_ok codec requestId _ body small).mp
    (bind_eq_ok.mpr ⟨last, steps_chunks arrivals stepped, ended⟩)
  exact ⟨_, accumulated_values _, response⟩

end Aggregation

namespace Accumulated

variable {values : List Value} {accumulator : NonStreamAccumulator}

theorem messageIds (held : Accumulated values accumulator) :
    callIds (((accumulator.responseMessage.get "tool_calls").bind Value.asArray).getD []) =
      aggregatedIds values := by
  have said : callIds ((usableIndexes values).map (callOf (allCalls values))) =
      aggregatedIds values := by
    rw [callIds, List.filterMap_map, aggregatedIds, ← List.filterMap_eq_map]
    rfl
  rw [held.messageCalls]
  split
  next none_used => rw [aggregatedIds, none_used]; rfl
  next => exact said

theorem storeReasoningShadow_alike (held : Accumulated values accumulator) {requestId : String}
    {body : Value} (response : accumulator.intoResponse requestId = .ok body) :
    (storeReasoningShadow body).Alike
      (if usableIndexes values = [] then .clear
        else .store (aggregatedIds values) (reasoningOf values)) := by
  have message : ((firstChoice body).bind fun choice => choice.get "message").bind
      Value.asObject = some accumulator.responseMessage := by
    rw [NonStreamAccumulator.intoResponse] at response
    split at response
    next => cases response
    next =>
      cases response
      rfl
  have unused : aggregatedIds values = [] ↔ usableIndexes values = [] := List.map_eq_nil_iff
  rw [storeReasoningShadow, message]
  dsimp only
  rw [held.messageIds, held.messageReasoning, ← reasoningOf]
  by_cases uncalled : usableIndexes values = []
  · rw [if_pos (by simpa using unused.mpr uncalled), if_pos uncalled]
    exact ShadowAction.Alike.refl _
  · rw [if_neg (by simpa using mt unused.mp uncalled), if_neg uncalled]
    split
    next silent =>
      rw [ShadowAction.Alike, ShadowAction.settled_keep (.inr (String.isEmpty_iff.mp silent))]
      exact .keep
    next => exact ShadowAction.Alike.refl _

end Accumulated

theorem PlainRun.shadowAction_alike {platform : Platform} {run : PlainRun}
    (complete : run.complete platform) :
    (run.shadowAction platform.codec).Alike (run.generations platform.codec).aggregatedAction := by
  obtain ⟨body, value, aggregated, -⟩ := complete
  obtain ⟨arrivals, arrived, aggregates⟩ := Option.map_eq_some_iff.mp aggregated
  obtain ⟨accumulator, held, response⟩ := Aggregation.aggregate_chunks aggregates
  rw [shadowAction, aggregated, generations, arrived, Option.map_some, Option.getD_some,
    Generations.aggregatedAction]
  exact held.storeReasoningShadow_alike response

namespace NonStreamLoop

theorem generations_behind (values : List Value) (generations : Generations) :
    (generations.behind values).aggregatedAction = generations.aggregatedAction := rfl

theorem shadowAction_alike (platform : Platform) (rounds : List UpstreamRound)
    (loop : NonStreamLoop)
    (complete : ∃ value, (loop.run platform rounds).2 = some (.message value)) :
    (loop.shadowAction platform rounds).Alike
      (loop.generations platform rounds).aggregatedAction := by
  induction rounds generalizing loop with
  | nil =>
      obtain ⟨value, answered⟩ := complete
      cases answered
  | cons upstream rest ih =>
      rw [run] at complete
      rw [shadowAction, generations]
      cases aggregated : Aggregation.aggregateStreamResponse platform.codec loop.requestId
          upstream.arrivals with
      | error abort =>
          obtain ⟨value, answered⟩ := complete
          have failed : (loop.round platform upstream).2 = some (abortAnswer abort) := by
            rw [round, aggregated]
          cases made : loop.round platform upstream with
          | mk next answer =>
              rw [made] at failed answered
              cases failed
              cases abort <;> cases answered
      | ok body =>
          obtain ⟨accumulator, held, response⟩ := Aggregation.aggregate_chunks aggregated
          have answers := roundAnswer_round platform aggregated
          cases made : loop.round platform upstream with
          | mk next answer =>
              rw [made] at complete answers
              dsimp only at complete ⊢
              cases answers with
              | answered leaves converted =>
                  have shown : ∃ answer', answer = some answer' := by
                    rcases converted with ⟨value, rfl⟩ | ⟨error, rfl⟩ <;> exact ⟨_, rfl⟩
                  obtain ⟨_, rfl⟩ := shown
                  rw [if_pos leaves]
                  exact held.storeReasoningShadow_alike response
              | cut stays stopped unanswered =>
                  obtain ⟨value, answered⟩ := complete
                  rcases unanswered with rfl | ⟨continuation, rfl⟩ <;> cases answered
              | goesOn stays going waits =>
                  obtain rfl : answer = none := waits
                  rw [if_neg (by simp [stays]), generations_behind]
                  exact ih next complete

end NonStreamLoop

theorem NonStreamRun.shadowAction_alike {platform : Platform} {run : NonStreamRun}
    (complete : run.complete platform) :
    (run.shadowAction platform).Alike (run.generations platform).aggregatedAction := by
  cases run with
  | plain run => exact PlainRun.shadowAction_alike complete
  | loop run => exact NonStreamLoop.shadowAction_alike platform run.rounds run.loop complete

end ClineProxy
