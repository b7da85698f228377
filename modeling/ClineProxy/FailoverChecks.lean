import ClineProxy.SingleFlight
import Mathlib.Data.List.Range
import Mathlib.Data.List.Perm.Subperm

/-! What one request does in the failover loop while others change the pool. -/

namespace ClineProxy

open Clock KeyPool TransitionSystem

def Answer.effective429 (upstream : ClineUpstream) (answer : Answer) : Bool :=
  match answer.outcome with
  | .transport _ => false
  | .response response =>
      !isSuccess response.status &&
        (upstream.classify answer.now response).disposition.isRateLimited

theorem classify_hint {upstream : ClineUpstream} {now : SystemTime} {response : HttpResponse}
    (limited : (upstream.classify now response).disposition.isRateLimited = true) :
    ∃ hint, (upstream.classify now response).retryHint = some hint := by
  apply Option.isSome_iff_exists.mp
  rw [ClineUpstream.classify, classify_retryHint_isSome]
  exact limited

theorem judge_spec (upstream : ClineUpstream) (index : Nat) (now : SystemTime)
    (outcome : Outcome) :
    match judge upstream now outcome with
    | .transportFailed error => outcome = .transport error
    | .succeeded response => outcome = .response response ∧ isSuccess response.status = true
    | .rejected headers body classification => ∃ response, outcome = .response response ∧
        isSuccess response.status = false ∧ headers = response.headers ∧
        body = response.chunks.flatten.take maxErrorBodyBytes ∧
        classification = upstream.classify now response ∧
        classification.disposition.isRateLimited = false
    | .limited _ => Answer.effective429 upstream ⟨index, now, outcome⟩ = true := by
  cases outcome with
  | transport error => rfl
  | response response =>
      simp only [judge, Answer.effective429]
      cases success : isSuccess response.status with
      | true => exact ⟨rfl, success⟩
      | false =>
          cases limited : (upstream.classify now response).disposition.isRateLimited with
          | false =>
              have cut := readLimited_eq response.chunks maxErrorBodyBytes
              exact ⟨response, rfl, success, rfl, cut, rfl, limited⟩
          | true =>
              obtain ⟨hint, found⟩ := classify_hint limited
              simp [found]

def PoolOp.limits : PoolOp → Option Nat
  | .markHttp429 index _ _ _ _ => some index
  | _ => none

def PoolOp.heals : PoolOp → Option Nat
  | .markSuccess index => some index
  | _ => none

def Phase.returning : Phase → Option SendResult
  | .settled _ exit => exit
  | .finished result => some result
  | _ => none

def successKey : SendResult → Option Nat
  | .ok ⟨.success _, selected, _, _⟩ => some selected.index
  | _ => none

/-- The result that the last answer calls for, every earlier one being an effective 429. -/
inductive ReturnsAnswer (upstream : ClineUpstream) (before : List Answer) (last : Answer) :
    SendResult → Prop
  | success (response : HttpResponse) (selected : SelectedKey) :
      last.outcome = .response response → isSuccess response.status = true →
      selected.index = last.index →
      ReturnsAnswer upstream before last
        (.ok ⟨.success response, selected, before.length + 1, before.length⟩)
  | httpError (response : HttpResponse) (selected : SelectedKey) :
      last.outcome = .response response → isSuccess response.status = false →
      (upstream.classify last.now response).disposition.isRateLimited = false →
      selected.index = last.index →
      ReturnsAnswer upstream before last
        (.ok ⟨.httpError response.headers (response.chunks.flatten.take maxErrorBodyBytes)
          (upstream.classify last.now response), selected, before.length + 1, before.length⟩)
  | transport (error : String) : last.outcome = .transport error →
      ReturnsAnswer upstream before last (.error (.transport error))

def Unavailable (upstream : ClineUpstream) (answers : List Answer)
    (lastSelect : Option (KeyPool × Reading)) (index : Nat) : Prop :=
  (∃ answer ∈ answers, answer.index = index ∧ answer.effective429 upstream = true) ∨
    ∃ pool clock key, lastSelect = some (pool, clock) ∧
      pool.keys[index]? = some key ∧ key.runtime.isCooling clock.mono = true

/-- Why a request over `n` keys returns what it returns. -/
inductive Returns (upstream : ClineUpstream) (n : Nat) (answers : List Answer)
    (lastSelect : Option (KeyPool × Reading)) : SendResult → Prop
  | answered (before : List Answer) (last : Answer) (result : SendResult) :
      answers = before ++ [last] →
      (∀ answer ∈ before, answer.effective429 upstream = true) →
      ReturnsAnswer upstream before last result → Returns upstream n answers lastSelect result
  | allRateLimited (retryAfter : Option Duration) :
      (∀ answer ∈ answers, answer.effective429 upstream = true) →
      (∀ index < n, Unavailable upstream answers lastSelect index) →
      Returns upstream n answers lastSelect (.error (.allRateLimited retryAfter))

/-- The contract of the loop at every moment of a request over `n` keys. -/
structure FailoverContract (upstream : ClineUpstream) (n : Nat) (request : Request) : Prop where
  at_most_n : request.attempted.length ≤ n
  never_twice : request.attempted.Nodup
  enabled_keys : ∀ index ∈ request.attempted, index < n
  answers_in_order : request.answers.map Answer.index <+: request.attempted.reverse
  again_only_after_429 : request.attempted.length - 1 ≤ request.answers.length ∧
    ∀ answer ∈ request.answers.take (request.attempted.length - 1),
      answer.effective429 upstream = true
  limits_once : request.calls.filterMap PoolOp.limits =
    (request.answers.filter (Answer.effective429 upstream)).map Answer.index
  heals_on_success : request.calls.filterMap PoolOp.heals =
    (request.phase.returning.bind successKey).toList
  returned : ∀ result, request.phase.returning = some result →
    Returns upstream n request.answers request.lastSelect result

structure Refused (upstream : ClineUpstream) (attempted : List Nat) (answers : List Answer) :
    Prop where
  in_order : answers.map Answer.index = attempted.reverse
  limited : ∀ answer ∈ answers, answer.effective429 upstream = true

structure InFlight (upstream : ClineUpstream) (attempted : List Nat) (answers : List Answer)
    (index : Nat) : Prop where
  attempts : ∃ earlier, attempted = index :: earlier ∧
    answers.map Answer.index = earlier.reverse
  limited : ∀ answer ∈ answers, answer.effective429 upstream = true

structure Concluded (upstream : ClineUpstream) (n : Nat) (attempted : List Nat)
    (answers : List Answer) (lastSelect : Option (KeyPool × Reading)) (result : SendResult) :
    Prop where
  in_order : answers.map Answer.index = attempted.reverse
  returns : Returns upstream n answers lastSelect result

def Stage (upstream : ClineUpstream) (n : Nat) (attempted : List Nat) (answers : List Answer)
    (lastSelect : Option (KeyPool × Reading)) : Phase → Prop
  | .idle | .selecting | .limited _ | .settled _ none => Refused upstream attempted answers
  | .exhausted => Refused upstream attempted answers ∧
      ∀ index < n, Unavailable upstream answers lastSelect index
  | .sending selected => InFlight upstream attempted answers selected.index
  | .cancelled => ∃ index, InFlight upstream attempted answers index
  | .settled _ (some result) | .finished result =>
      Concluded upstream n attempted answers lastSelect result

/-- What the steps of a request keep. -/
structure Request.Log (upstream : ClineUpstream) (n : Nat) (request : Request) : Prop where
  nodup : request.attempted.Nodup
  bounded : ∀ index ∈ request.attempted, index < n
  limits : request.calls.filterMap PoolOp.limits =
    (request.answers.filter (Answer.effective429 upstream)).map Answer.index
  heals : request.calls.filterMap PoolOp.heals =
    (request.phase.returning.bind successKey).toList
  stage : Stage upstream n request.attempted request.answers request.lastSelect request.phase

theorem length_le_of_bounded {indexes : List Nat} {n : Nat} (nodup : indexes.Nodup)
    (bounded : ∀ index ∈ indexes, index < n) : indexes.length ≤ n := by
  have inside : indexes ⊆ List.range n := fun index member => List.mem_range.mpr (bounded index member)
  simpa using (nodup.subperm inside).length_le

theorem mem_of_length_ge {indexes : List Nat} {n : Nat} (nodup : indexes.Nodup)
    (bounded : ∀ index ∈ indexes, index < n) (full : n ≤ indexes.length) {index : Nat}
    (bound : index < n) : index ∈ indexes := by
  have inside : indexes ⊆ List.range n := fun index member => List.mem_range.mpr (bounded index member)
  have same := (nodup.subperm inside).perm_of_length_le (by simpa using full)
  exact same.mem_iff.mpr (List.mem_range.mpr bound)

theorem Refused.answered {upstream : ClineUpstream} {attempted : List Nat}
    {answers : List Answer} (refused : Refused upstream attempted answers) {index : Nat}
    (member : index ∈ attempted) :
    ∃ answer ∈ answers, answer.index = index ∧ answer.effective429 upstream = true := by
  have listed : index ∈ answers.map Answer.index := by
    rw [refused.in_order]
    simpa using member
  obtain ⟨answer, found, indexEq⟩ := List.mem_map.mp listed
  exact ⟨answer, found, indexEq, refused.limited answer found⟩

theorem select_limits (attempted : List Nat) :
    [PoolOp.select attempted].filterMap PoolOp.limits = [] := rfl

theorem select_heals (attempted : List Nat) :
    [PoolOp.select attempted].filterMap PoolOp.heals = [] := rfl

theorem leaseOp_limits (selected : SelectedKey) :
    (leaseOp selected).toList.filterMap PoolOp.limits = [] := by
  simp only [leaseOp]
  split <;> rfl

theorem leaseOp_heals (selected : SelectedKey) :
    (leaseOp selected).toList.filterMap PoolOp.heals = [] := by
  simp only [leaseOp]
  split <;> rfl

theorem respond_log {upstream : ClineUpstream} {n : Nat} {request : Request}
    {selected : SelectedKey} {clock : Reading} (outcome : Outcome)
    (log : request.Log upstream n) (sending : request.phase = .sending selected) :
    Request.Log upstream n
      { request with
        phase := (request.conclude upstream selected (judge upstream clock.wall outcome)).2
        answers := request.answers ++ [⟨selected.index, clock.wall, outcome⟩]
        calls := request.calls ++
          (request.conclude upstream selected (judge upstream clock.wall outcome)).1.toList } := by
  have flight : InFlight upstream request.attempted request.answers selected.index := by
    simpa only [Stage, sending] using log.stage
  obtain ⟨earlier, attempts, answers⟩ := flight.attempts
  have limited := flight.limited
  have order : (request.answers ++
      [(⟨selected.index, clock.wall, outcome⟩ : Answer)]).map Answer.index =
      request.attempted.reverse := by
    simp [answers, attempts]
  have count : request.attempted.length = request.answers.length + 1 := by
    have lengths := congrArg List.length answers
    simp only [List.length_map, List.length_reverse] at lengths
    simp [attempts, lengths]
  have limits := log.limits
  have heals : request.calls.filterMap PoolOp.heals = [] := by
    simpa [sending, Phase.returning] using log.heals
  have spec := judge_spec upstream selected.index clock.wall outcome
  cases judged : judge upstream clock.wall outcome with
  | transportFailed error =>
      rw [judged] at spec
      subst spec
      refine ⟨log.nodup, log.bounded, ?_, ?_, order, ?_⟩
      · simp [Request.conclude, limits, leaseOp_limits, Answer.effective429]
      · simp [Request.conclude, heals, leaseOp_heals, Phase.returning, successKey]
      · exact .answered _ _ _ rfl limited (.transport error rfl)
  | succeeded response =>
      rw [judged] at spec
      obtain ⟨rfl, success⟩ := spec
      refine ⟨log.nodup, log.bounded, ?_, ?_, order, ?_⟩
      · simp [Request.conclude, limits, PoolOp.limits, Answer.effective429, success]
      · simp [Request.conclude, heals, PoolOp.heals, Phase.returning, successKey, failoverResult]
      · refine .answered _ _ _ rfl limited ?_
        simp only [failoverResult, count, Nat.add_sub_cancel]
        exact .success response selected rfl success rfl
  | rejected headers body classification =>
      rw [judged] at spec
      obtain ⟨response, rfl, failed, rfl, rfl, rfl, notLimited⟩ := spec
      refine ⟨log.nodup, log.bounded, ?_, ?_, order, ?_⟩
      · simp [Request.conclude, limits, leaseOp_limits, Answer.effective429, failed, notLimited]
      · simp [Request.conclude, heals, leaseOp_heals, Phase.returning, successKey, failoverResult]
      · refine .answered _ _ _ rfl limited ?_
        simp only [failoverResult, count, Nat.add_sub_cancel]
        exact .httpError response selected rfl failed notLimited rfl
  | limited hint =>
      rw [judged] at spec
      refine ⟨log.nodup, log.bounded, ?_, ?_, order, ?_⟩
      · simp [Request.conclude, limitedOp, limits, PoolOp.limits, spec]
      · simp [Request.conclude, limitedOp, heals, PoolOp.heals, Phase.returning]
      · intro answer member
        rcases List.mem_append.mp member with old | new
        · exact limited answer old
        · rw [List.mem_singleton.mp new]
          exact spec

theorem log_step {upstream : ClineUpstream} {pool : KeyPool} {clock : Reading}
    {request next : Request} {event : RequestEvent} {op : Option PoolOp} (valid : pool.Valid)
    (log : request.Log upstream pool.len)
    (stepped : request.step upstream pool clock event = some (op, next)) :
    Request.Log upstream pool.len { next with calls := request.calls ++ op.toList } := by
  have limits := log.limits
  have heals := log.heals
  have stage := log.stage
  cases Request.step_cases stepped with
  | start phaseEq =>
      simp only [Stage, phaseEq] at stage
      refine ⟨log.nodup, log.bounded, by simpa using limits, ?_, stage⟩
      simpa [Phase.returning, phaseEq] using heals
  | selectNone phaseEq nothing =>
      simp only [Stage, phaseEq] at stage
      refine ⟨log.nodup, log.bounded, by simpa [select_limits] using limits, ?_, stage, ?_⟩
      · simpa [Phase.returning, phaseEq, select_heals] using heals
      · intro index bound
        by_cases member : index ∈ request.attempted
        · exact Or.inl (stage.answered member)
        · have at_ : pool.keys[index]? = some (pool.keys.get ⟨index, bound⟩) :=
            List.getElem?_eq_getElem bound
          exact Or.inr ⟨pool, clock, _, rfl, at_, (select_none valid _ _).mp nothing _ _ at_ member⟩
  | selectSome selected taken phaseEq found =>
      simp only [Stage, phaseEq] at stage
      obtain ⟨key, spec⟩ := select_spec valid found
      refine ⟨List.nodup_cons.mpr ⟨spec.fresh, log.nodup⟩, ?_,
        by simpa [select_limits] using limits, ?_, ?_⟩
      · intro index member
        rcases List.mem_cons.mp member with rfl | earlier
        · exact (List.getElem?_eq_some_iff.mp spec.at_index).1
        · exact log.bounded index earlier
      · simpa [Phase.returning, phaseEq, select_heals] using heals
      · exact ⟨⟨request.attempted, rfl, stage.in_order⟩, stage.limited⟩
  | exhaust phaseEq =>
      simp only [Stage, phaseEq] at stage
      refine ⟨log.nodup, log.bounded, by simpa using limits, ?_, stage.1.in_order, ?_⟩
      · simpa [Phase.returning, phaseEq, allRateLimited, successKey] using heals
      · exact .allRateLimited _ stage.1.limited stage.2
  | respond selected outcome verdict phaseEq judged =>
      subst judged
      exact respond_log outcome log phaseEq
  | cancel selected phaseEq =>
      simp only [Stage, phaseEq] at stage
      refine ⟨log.nodup, log.bounded, by simpa [leaseOp_limits] using limits, ?_,
        selected.index, stage⟩
      simpa [Phase.returning, phaseEq, leaseOp_heals] using heals
  | retry selected phaseEq =>
      simp only [Stage, phaseEq] at stage
      simp only [phaseEq, Phase.returning, Option.bind_none, Option.toList_none] at heals
      refine ⟨log.nodup, log.bounded, by simpa using limits, ?_, ?_⟩
      · split <;> simp [Phase.returning, heals, allRateLimited, successKey]
      · by_cases full : pool.len ≤ request.attempted.length
        · simp only [Stage, full, if_true]
          refine ⟨stage.in_order, .allRateLimited _ stage.limited ?_⟩
          intro index bound
          exact Or.inl (stage.answered (mem_of_length_ge log.nodup log.bounded full bound))
        · simp only [Stage, full, if_false]
          exact stage
  | settle selected exit phaseEq =>
      simp only [Stage, phaseEq] at stage
      simp only [phaseEq, Phase.returning] at heals
      refine ⟨log.nodup, log.bounded, by simpa [leaseOp_limits] using limits, ?_, ?_⟩
      · cases exit <;> simpa [Phase.returning, leaseOp_heals] using heals
      · cases exit with
        | none => exact stage
        | some result => exact ⟨stage.in_order, stage.returns⟩

theorem fresh_log (upstream : ClineUpstream) (n : Nat) : Request.fresh.Log upstream n :=
  ⟨List.nodup_nil, by simp [Request.fresh], rfl, rfl, ⟨rfl, by simp [Request.fresh]⟩⟩

theorem applyOp_len {pool : KeyPool} (valid : pool.Valid) (clock : Reading)
    (op : Option PoolOp) : (applyOp clock pool op).len = pool.len := by
  cases op with
  | none => rfl
  | some op => exact op.apply_len valid clock

theorem step_len {upstream : ClineUpstream} {world next : World} {event : Event}
    (valid : world.pool.Valid) (stepped : (gateway upstream).step world event = some next) :
    next.pool.len = world.pool.len := by
  cases World.step_cases stepped with
  | tick | wake | flush => rfl
  | request id event op request _ => exact applyOp_len valid world.clock op

def World.Logged (upstream : ClineUpstream) (world : World) : Prop :=
  ∀ id, (world.requests id).Log upstream world.pool.len

theorem reachable_logged {upstream : ClineUpstream} {world : World}
    (reached : (gateway upstream).Reachable world) : world.Logged upstream := by
  apply reached.invariant
  · intro world (start : World.Initial world) id
    rw [start.no_requests id]
    exact fresh_log upstream _
  · intro world event next before logs stepped id
    have valid := reachable_pool_valid before
    rw [step_len valid stepped]
    cases World.step_cases stepped with
    | tick | wake | flush => exact logs id
    | request own event op request moved =>
        by_cases same : id = own
        · subst id
          simpa using log_step valid (logs own) moved
        · simpa [Function.update, same] using logs id

structure Ordered (upstream : ClineUpstream) (attempted : List Nat) (answers : List Answer) :
    Prop where
  order : answers.map Answer.index <+: attempted.reverse
  answered : attempted.length - 1 ≤ answers.length
  limited : ∀ answer ∈ answers.take (attempted.length - 1), answer.effective429 upstream = true

theorem Stage.ordered {upstream : ClineUpstream} {n : Nat} {attempted : List Nat}
    {answers : List Answer} {lastSelect : Option (KeyPool × Reading)} {phase : Phase}
    (stage : Stage upstream n attempted answers lastSelect phase) :
    Ordered upstream attempted answers := by
  have ofRefused (refused : Refused upstream attempted answers) :
      Ordered upstream attempted answers := by
    have lengths := congrArg List.length refused.in_order
    simp only [List.length_map, List.length_reverse] at lengths
    exact ⟨refused.in_order ▸ List.prefix_rfl, by omega,
      fun answer member => refused.limited answer (List.mem_of_mem_take member)⟩
  have ofFlight (index : Nat) (flight : InFlight upstream attempted answers index) :
      Ordered upstream attempted answers := by
    obtain ⟨earlier, rfl, order⟩ := flight.attempts
    have lengths := congrArg List.length order
    simp only [List.length_map, List.length_reverse] at lengths
    refine ⟨?_, by simp [lengths],
      fun answer member => flight.limited answer (List.mem_of_mem_take member)⟩
    rw [order, List.reverse_cons]
    exact List.prefix_append _ _
  have ofConcluded (result : SendResult)
      (concluded : Concluded upstream n attempted answers lastSelect result) :
      Ordered upstream attempted answers := by
    have lengths := congrArg List.length concluded.in_order
    simp only [List.length_map, List.length_reverse] at lengths
    refine ⟨concluded.in_order ▸ List.prefix_rfl, by omega, ?_⟩
    intro answer member
    cases concluded.returns with
    | answered before last _ split limited _ =>
        subst split
        rw [← lengths, List.length_append, List.length_singleton, Nat.add_sub_cancel,
          List.take_left] at member
        exact limited answer member
    | allRateLimited _ limited _ => exact limited answer (List.mem_of_mem_take member)
  match phase, stage with
  | .idle, refused | .selecting, refused | .limited _, refused | .settled _ none, refused =>
      exact ofRefused refused
  | .exhausted, both => exact ofRefused both.1
  | .sending selected, flight => exact ofFlight selected.index flight
  | .cancelled, ⟨index, flight⟩ => exact ofFlight index flight
  | .settled _ (some result), concluded | .finished result, concluded =>
      exact ofConcluded result concluded

theorem Request.Log.contract {upstream : ClineUpstream} {n : Nat} {request : Request}
    (log : request.Log upstream n) : FailoverContract upstream n request := by
  have ordered := log.stage.ordered
  refine ⟨length_le_of_bounded log.nodup log.bounded, log.nodup, log.bounded, ordered.order,
    ⟨ordered.answered, ordered.limited⟩, log.limits, log.heals, ?_⟩
  intro result returning
  have stage := log.stage
  cases phaseEq : request.phase with
  | idle | selecting | exhausted | sending | limited | cancelled =>
      simp [phaseEq, Phase.returning] at returning
  | settled selected exit =>
      simp only [phaseEq, Phase.returning] at returning
      subst returning
      simp only [Stage, phaseEq] at stage
      exact stage.returns
  | finished held =>
      simp only [phaseEq, Phase.returning, Option.some.injEq] at returning
      subst held
      simp only [Stage, phaseEq] at stage
      exact stage.returns

/-- An upper bound on the steps that a request over `n` keys has left. -/
def Request.remaining (n : Nat) (request : Request) : Nat :=
  let left := 4 * (n - request.attempted.length)
  match request.phase with
  | .idle => left + 3
  | .selecting => left + 2
  | .exhausted => 1
  | .sending _ => left + 5
  | .limited _ => left + 4
  | .settled _ _ => left + 3
  | .finished _ | .cancelled => 0

theorem remaining_step {upstream : ClineUpstream} {pool : KeyPool} {clock : Reading}
    {request next : Request} {event : RequestEvent} {op : Option PoolOp} (valid : pool.Valid)
    (log : request.Log upstream pool.len)
    (stepped : request.step upstream pool clock event = some (op, next)) :
    next.remaining pool.len + 1 ≤ request.remaining pool.len := by
  cases Request.step_cases stepped with
  | start phaseEq => simp [Request.remaining, phaseEq]
  | selectNone phaseEq nothing => simp [Request.remaining, phaseEq]
  | selectSome selected taken phaseEq found =>
      have after := log_step valid log stepped
      have count := length_le_of_bounded after.nodup after.bounded
      simp only [List.length_cons] at count
      simp only [Request.remaining, phaseEq, List.length_cons]
      omega
  | exhaust phaseEq => simp [Request.remaining, phaseEq]
  | respond selected outcome verdict phaseEq judged =>
      cases verdict <;> simp [Request.remaining, phaseEq, Request.conclude]
  | cancel selected phaseEq => simp [Request.remaining, phaseEq]
  | retry selected phaseEq => simp [Request.remaining, phaseEq]
  | settle selected exit phaseEq => cases exit <;> simp [Request.remaining, phaseEq]

def Event.isOf (id : Nat) : Event → Bool
  | .request other _ => other == id
  | _ => false

theorem world_remaining_step {upstream : ClineUpstream} {world next : World} {event : Event}
    (reached : (gateway upstream).Reachable world) (id : Nat)
    (stepped : (gateway upstream).step world event = some next) :
    (next.requests id).remaining next.pool.len + (if event.isOf id then 1 else 0) ≤
      (world.requests id).remaining world.pool.len := by
  have valid := reachable_pool_valid reached
  rw [step_len valid stepped]
  cases World.step_cases stepped with
  | tick | wake | flush => simp [Event.isOf]
  | request own event op request moved =>
      by_cases same : own = id
      · subst own
        have drop := remaining_step valid (reachable_logged reached id) moved
        simpa [Event.isOf, Request.remaining] using drop
      · simp [Event.isOf, Function.update, same, Ne.symm same]

/-- The request is over, or it can go on whatever the upstream answers. -/
def World.Advances (upstream : ClineUpstream) (world : World) (id : Nat) : Prop :=
  (∃ result, (world.requests id).phase = .finished result) ∨
    (world.requests id).phase = .cancelled ∨
    ∀ outcome, ∃ event ∈ [.start, .select, .exhaust, .respond outcome, .retry, .settle],
      ((gateway upstream).step world (.request id event)).isSome = true

theorem advances (upstream : ClineUpstream) (world : World) (id : Nat) :
    world.Advances upstream id := by
  have enabled : ∀ event, ((gateway upstream).step world (.request id event)).isSome =
      ((world.requests id).step upstream world.pool world.clock event).isSome := by
    intro event
    simp [gateway, World.step]
  cases phaseEq : (world.requests id).phase with
  | finished result => exact Or.inl ⟨result, phaseEq⟩
  | cancelled => exact Or.inr (Or.inl phaseEq)
  | idle => exact Or.inr (Or.inr fun _ => ⟨.start, by simp, by simp [enabled, Request.step, phaseEq]⟩)
  | selecting =>
      refine Or.inr (Or.inr fun _ => ⟨.select, by simp, ?_⟩)
      simp only [enabled, Request.step, phaseEq]
      split <;> rfl
  | exhausted =>
      exact Or.inr (Or.inr fun _ => ⟨.exhaust, by simp, by simp [enabled, Request.step, phaseEq]⟩)
  | sending selected =>
      exact Or.inr (Or.inr fun outcome =>
        ⟨.respond outcome, by simp, by simp [enabled, Request.step, phaseEq]⟩)
  | limited selected =>
      exact Or.inr (Or.inr fun _ => ⟨.retry, by simp, by simp [enabled, Request.step, phaseEq]⟩)
  | settled selected exit =>
      exact Or.inr (Or.inr fun _ => ⟨.settle, by simp, by simp [enabled, Request.step, phaseEq]⟩)

/-- The failover loop, whatever other requests do to the pool between its steps. -/
theorem failover_loop (upstream : ClineUpstream) (start world : World) (events : List Event)
    (begun : start.Initial) (ran : (gateway upstream).runFrom start events = some world)
    (id : Nat) :
    FailoverContract upstream start.pool.len (world.requests id) ∧
      events.countP (Event.isOf id) ≤ 4 * start.pool.len + 3 ∧ world.Advances upstream id := by
  have reachedStart : (gateway upstream).Reachable start := .initial begun
  have reached := System.runFrom_reachable reachedStart ran
  have sameLen : world.pool.len = start.pool.len :=
    System.runFrom_kept (fun world => world.pool.len = start.pool.len)
      (fun _ _ _ before held stepped =>
        (step_len (reachable_pool_valid before) stepped).trans held) reachedStart rfl ran
  refine ⟨sameLen ▸ (reachable_logged reached id).contract, ?_, advances upstream world id⟩
  have counted := System.countP_add_measure_le (Event.isOf id)
    (fun world => (world.requests id).remaining world.pool.len)
    (fun _ _ _ before stepped => world_remaining_step before id stepped) reachedStart ran
  have budget : (start.requests id).remaining start.pool.len = 4 * start.pool.len + 3 := by
    simp [begun.no_requests id, Request.fresh, Request.remaining]
  omega

def refusedAfterLimit : List Event :=
  [.request 0 .start, .request 0 .select, .request 0 (.respond limitedResponse),
    .request 0 .retry, .request 0 .settle, .request 0 .select,
    .request 0 (.respond (.response ⟨404, [], [[110, 111], [33]]⟩))]

def twoKeys : List ClineKeyConfig := [⟨"a", "secret-a", true⟩, ⟨"b", "secret-b", true⟩]

theorem failover_loop_runs : ∃ world,
    (gateway plainUpstream).runFrom (freshWorld twoKeys) refusedAfterLimit = some world ∧
      FailoverContract plainUpstream 2 (world.requests 0) ∧
      refusedAfterLimit.countP (Event.isOf 0) ≤ 11 ∧ world.Advances plainUpstream 0 := by
  obtain ⟨world, ran⟩ := Option.isSome_iff_exists.mp
    (show ((gateway plainUpstream).runFrom (freshWorld twoKeys) refusedAfterLimit).isSome = true by
      decide)
  exact ⟨world, ran, failover_loop plainUpstream (freshWorld twoKeys) world refusedAfterLimit
    (freshWorld_initial twoKeys) ran 0⟩

end ClineProxy
