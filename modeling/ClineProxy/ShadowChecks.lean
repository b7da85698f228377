import ClineProxy.ShadowFacts

/-!
Runs of the shadow store: its representation and bounds.
-/

namespace ClineProxy

open Clock ReasoningShadowStore TransitionSystem.System

variable {hash : String → UInt64} {limits : ShadowLimits} {ttl : Duration}

section Step

variable {run next : ShadowRun} {fingerprint reasoning : String} {now swept : Instant}
  {toolCallIds : List String} {event : ShadowEvent}

theorem step_store : run.step hash limits (.store fingerprint now swept toolCallIds reasoning) =
      some next ↔ (run.clock ≤ now ∧ now ≤ swept) ∧
        ⟨run.shadow.store hash limits fingerprint now swept toolCallIds reasoning, swept⟩ = next := by
  rw [ShadowRun.step, Option.ite_none_right_eq_some, Option.some.injEq]

theorem step_restore : run.step hash limits (.restore fingerprint now toolCallIds) = some next ↔
    run.clock ≤ now ∧ ⟨(run.shadow.restore hash fingerprint now toolCallIds).2, now⟩ = next := by
  rw [ShadowRun.step, Option.ite_none_right_eq_some, Option.some.injEq]

theorem step_clear : run.step hash limits (.clear fingerprint) = some next ↔
    ⟨run.shadow.clearSession fingerprint, run.clock⟩ = next := by
  rw [ShadowRun.step, Option.some.injEq]

theorem store_skipped {shadow : ReasoningShadowStore}
    (skipped : skips limits toolCallIds reasoning = true) :
    shadow.store hash limits fingerprint now swept toolCallIds reasoning = shadow :=
  if_pos skipped

theorem store_kept {shadow : ReasoningShadowStore}
    (kept : skips limits toolCallIds reasoning = false) :
    shadow.store hash limits fingerprint now swept toolCallIds reasoning =
      enforceLimits limits swept
        (shadow.insertReasoning hash fingerprint now toolCallIds reasoning) :=
  if_neg (kept ▸ Bool.false_ne_true)

theorem le_of_kept (kept : skips limits toolCallIds reasoning = false) :
    reasoning.utf8ByteSize ≤ limits.maxEntryBytes := by
  simp only [skips, Bool.or_eq_false_iff, decide_eq_false_iff_not, Nat.not_lt] at kept
  exact kept.2

theorem enforced_represented {shadow : ReasoningShadowStore}
    (represented : shadow.Represented limits) (now : Instant) :
    (enforceLimits limits now shadow).Represented limits := by
  obtain ⟨gone, -, made, -⟩ := enforceLimits_cases represented now
  rw [made]
  exact (represented.sweep now).clearAll gone

theorem step_represented (represented : run.shadow.Represented limits)
    (stepped : run.step hash limits event = some next) : next.shadow.Represented limits := by
  cases event with
  | store fingerprint now swept toolCallIds reasoning =>
      obtain ⟨-, rfl⟩ := step_store.mp stepped
      cases skipped : skips limits toolCallIds reasoning with
      | true => exact store_skipped skipped ▸ represented
      | false =>
          rw [store_kept skipped]
          exact enforced_represented (represented.insertReasoning (le_of_kept skipped)) swept
  | restore fingerprint now toolCallIds =>
      obtain ⟨-, rfl⟩ := step_restore.mp stepped
      exact represented.restore
  | clear fingerprint =>
      obtain rfl := step_clear.mp stepped
      exact represented.clear

theorem start_represented : (ShadowRun.start ttl).shadow.Represented limits :=
  ⟨List.nodup_nil, .nil, rfl, nofun, nofun⟩

theorem reachable_represented (reached : (shadowStore hash limits ttl).Reachable run) :
    run.shadow.Represented limits := by
  induction reached with
  | initial begun =>
      obtain rfl : _ = ShadowRun.start ttl := begun
      exact start_represented
  | step _ _ stepped ih => exact step_represented ih stepped

end Step

/-- The queue, the counters and the map agree in every state, and after a store that is not skipped
the limits hold. -/
theorem shadow_bounds {run : ShadowRun} (reached : (shadowStore hash limits ttl).Reachable run) :
    run.shadow.Represented limits ∧
    ∀ fingerprint now swept toolCallIds reasoning next,
      run.step hash limits (.store fingerprint now swept toolCallIds reasoning) = some next →
      skips limits toolCallIds reasoning = false →
      next.shadow.Represented limits ∧ next.shadow.totalBytes ≤ limits.maxTotalBytes ∧
        next.shadow.sessions.length ≤ limits.maxSessions := by
  have represented := reachable_represented reached
  refine ⟨represented, ?_⟩
  intro fingerprint now swept toolCallIds reasoning next stepped kept
  refine ⟨step_represented represented stepped, ?_⟩
  obtain ⟨-, rfl⟩ := step_store.mp stepped
  obtain ⟨gone, -, -, -, bounds⟩ := enforceLimits_cases
    (represented.insertReasoning (le_of_kept kept)) swept
  rw [store_kept kept]
  exact bounds

def firstStore : ShadowEvent := .store "agent" 1 2 ["call"] "plan"

def firstRun : ShadowRun :=
  ((ShadowRun.start 600).step (fun _ => 0) ⟨2, 10, 8⟩ firstStore).get (by decide +kernel)

theorem firstRun_reachable : (shadowStore (fun _ => 0) ⟨2, 10, 8⟩ 600).Reachable firstRun := by
  have stepped : (shadowStore (fun _ => 0) ⟨2, 10, 8⟩ 600).step (.start 600) firstStore =
      some firstRun := (Option.some_get _).symm
  exact .step (.initial rfl) trivial stepped

theorem shadow_bounds_first : firstRun.shadow.Represented ⟨2, 10, 8⟩ ∧
    ∀ fingerprint now swept toolCallIds reasoning next,
      firstRun.step (fun _ => 0) ⟨2, 10, 8⟩
        (.store fingerprint now swept toolCallIds reasoning) = some next →
      skips ⟨2, 10, 8⟩ toolCallIds reasoning = false →
      next.shadow.Represented ⟨2, 10, 8⟩ ∧ next.shadow.totalBytes ≤ 10 ∧
        next.shadow.sessions.length ≤ 2 :=
  shadow_bounds firstRun_reachable

end ClineProxy
