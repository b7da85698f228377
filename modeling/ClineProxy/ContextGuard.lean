import ClineProxy.PolicyChecks
import ClineProxy.Saturating

/-! `context_guard.rs`: the budget of a configured context window, and its fast path. -/

namespace ClineProxy

structure ContextLimits where
  windowTokens : UInt64
  safetyMarginTokens : UInt64
  minOutputTokens : UInt64

inductive ContextDecision where
  | allow (reservedOutputTokens totalContextBudget headroomTokens : UInt64)
  | reduceOutput (reservedOutputTokens totalContextBudget headroomTokens
      requestedOutputTokens : UInt64)
  | rejectInput (totalNeeded window : UInt64)
  deriving DecidableEq

namespace ContextDecision

def reserved : ContextDecision → Option UInt64
  | allow reserved _ _ => some reserved
  | reduceOutput reserved _ _ _ => some reserved
  | rejectInput _ _ => none

def Unchanged (requested : UInt64) : ContextDecision → Prop
  | allow reserved _ _ => reserved = requested
  | reduceOutput _ _ _ _ | rejectInput _ _ => False

end ContextDecision

def wellBelowWindow (estimatedInputTokens : UInt64) (limits : ContextLimits) (output : UInt64) :
    Bool :=
  let needed := Saturating.add (Saturating.add estimatedInputTokens output)
    limits.safetyMarginTokens
  Saturating.mul needed 4 < limits.windowTokens

def evaluate (inputTokens requestedOutputTokens : UInt64) (limits : ContextLimits) :
    ContextDecision :=
  let window := limits.windowTokens
  let margin := limits.safetyMarginTokens
  let minOut := max limits.minOutputTokens 1
  let usable := Saturating.sub window margin
  let remaining := Saturating.sub usable inputTokens
  if remaining < minOut then
    .rejectInput (Saturating.add (Saturating.add inputTokens minOut) margin) window
  else if requestedOutputTokens ≤ remaining then
    .allow requestedOutputTokens (Saturating.add inputTokens requestedOutputTokens)
      (Saturating.sub remaining requestedOutputTokens)
  else
    .reduceOutput remaining (Saturating.add inputTokens remaining) 0 requestedOutputTokens

def Glm53ContextConfig.limits (context : Glm53ContextConfig) (window : UInt64) : ContextLimits where
  windowTokens := window
  safetyMarginTokens := context.contextSafetyMarginTokens
  minOutputTokens := context.minOutputTokens.toUInt64

/-- The limits that the validation of a configuration admits. -/
structure ContextLimits.Valid (limits : ContextLimits) : Prop where
  output : 0 < limits.minOutputTokens.toNat
  window : limits.safetyMarginTokens.toNat + limits.minOutputTokens.toNat <
    limits.windowTokens.toNat

theorem validate_limits {glm : Glm53Config} {window : UInt64} (valid : glm.validate = .ok ())
    (configured : glm.context.upstreamContextWindowTokens = some window) :
    (glm.context.limits window).Valid := by
  obtain ⟨_, -, valid⟩ := bind_eq_ok.mp valid
  obtain ⟨_, -, valid⟩ := bind_eq_ok.mp valid
  obtain ⟨_, -, valid⟩ := bind_eq_ok.mp valid
  obtain ⟨_, positive, valid⟩ := bind_eq_ok.mp valid
  rw [configured] at valid
  have some_ : glm.context.minOutputTokens ≠ 0 := by
    intro zero
    rw [zero] at positive
    cases positive
  have least : (glm.context.minOutputTokens.toUInt64).toNat = glm.context.minOutputTokens.toNat :=
    UInt32.toNat_toUInt64 _
  refine ⟨?_, ?_⟩
  · rw [Glm53ContextConfig.limits, least]
    exact Nat.pos_of_ne_zero fun zero => some_ (UInt32.toNat_inj.mp zero)
  · have window_ := bailIf_ok (show bailIf _ _ = .ok () from valid)
    have top := window.toNat_lt
    rw [Glm53ContextConfig.limits]
    dsimp only
    rw [decide_eq_false_iff_not] at window_
    omega

/-- What remains of the window behind the margin and the input. -/
def ContextLimits.remaining (limits : ContextLimits) (input : UInt64) : Nat :=
  limits.windowTokens.toNat - limits.safetyMarginTokens.toNat - input.toNat

structure GuardHolds (limits : ContextLimits) (input estimate requested : UInt64) : Prop where
  fits : ∀ reserved, (evaluate input requested limits).reserved = some reserved →
    input.toNat + reserved.toNat + limits.safetyMarginTokens.toNat ≤ limits.windowTokens.toNat ∧
      reserved ≤ requested ∧
      min requested.toNat limits.minOutputTokens.toNat ≤ reserved.toNat
  rejects : (evaluate input requested limits).reserved = none ↔
    limits.remaining input < limits.minOutputTokens.toNat
  skips : wellBelowWindow estimate limits requested = true → input ≤ estimate →
    (evaluate input requested limits).Unchanged requested

section Evaluation

variable {limits : ContextLimits} {input estimate requested : UInt64}

theorem toNat_remaining :
    (Saturating.sub (Saturating.sub limits.windowTokens limits.safetyMarginTokens) input).toNat =
      limits.remaining input := by
  rw [Saturating.toNat_sub, Saturating.toNat_sub, ContextLimits.remaining]

theorem max_minOutput (valid : limits.Valid) :
    max limits.minOutputTokens 1 = limits.minOutputTokens := by
  have positive := valid.output
  have one : (1 : UInt64).toNat = 1 := rfl
  change (if limits.minOutputTokens ≤ 1 then 1 else limits.minOutputTokens) = _
  split
  next small =>
    rw [UInt64.le_iff_toNat_le] at small
    exact UInt64.toNat_inj.mp (by omega)
  next => rfl

theorem evaluate_eq (valid : limits.Valid) : evaluate input requested limits =
    let remaining := UInt64.ofNat (limits.remaining input)
    if limits.remaining input < limits.minOutputTokens.toNat then
      .rejectInput (Saturating.add (Saturating.add input limits.minOutputTokens)
        limits.safetyMarginTokens) limits.windowTokens
    else if requested.toNat ≤ limits.remaining input then
      .allow requested (Saturating.add input requested) (Saturating.sub remaining requested)
    else .reduceOutput remaining (Saturating.add input remaining) 0 requested := by
  have remaining := @toNat_remaining limits input
  rw [evaluate, max_minOutput valid, ← remaining]
  simp only [UInt64.lt_iff_toNat_lt, UInt64.le_iff_toNat_le, UInt64.ofNat_toNat]

theorem reserved_fits (valid : limits.Valid) {reserved : UInt64}
    (accepted : (evaluate input requested limits).reserved = some reserved) :
    input.toNat + reserved.toNat + limits.safetyMarginTokens.toNat ≤ limits.windowTokens.toNat ∧
      reserved ≤ requested ∧
      min requested.toNat limits.minOutputTokens.toNat ≤ reserved.toNat := by
  have top := limits.windowTokens.toNat_lt
  have positive := valid.output
  rw [evaluate_eq valid] at accepted
  dsimp only at accepted
  split at accepted
  next => cases accepted
  next enough =>
    rw [ContextLimits.remaining] at enough accepted
    split at accepted
    next within =>
      cases accepted
      exact ⟨by omega, UInt64.le_refl _, Nat.min_le_left _ _⟩
    next past =>
      cases accepted
      have held : (UInt64.ofNat (limits.windowTokens.toNat - limits.safetyMarginTokens.toNat -
          input.toNat)).toNat =
            limits.windowTokens.toNat - limits.safetyMarginTokens.toNat - input.toNat :=
        UInt64.toNat_ofNat_of_lt' (Nat.lt_of_le_of_lt (by omega) top)
      rw [UInt64.le_iff_toNat_le, held]
      omega

theorem reserved_none (valid : limits.Valid) :
    (evaluate input requested limits).reserved = none ↔
      limits.remaining input < limits.minOutputTokens.toNat := by
  rw [evaluate_eq valid]
  dsimp only
  split
  next few => exact iff_of_true rfl few
  next enough =>
    refine iff_of_false ?_ enough
    split <;> simp [ContextDecision.reserved]

/-- A request that is well below the window has room for the requested output. -/
theorem wellBelow_room (below : wellBelowWindow estimate limits requested = true)
    (least : input ≤ estimate) : requested.toNat ≤ limits.remaining input := by
  rw [UInt64.le_iff_toNat_le] at least
  have top := limits.windowTokens.toNat_lt
  simp only [wellBelowWindow, decide_eq_true_eq, UInt64.lt_iff_toNat_lt, Saturating.toNat_mul,
    Saturating.toNat_add] at below
  have four : (4 : UInt64).toNat = 4 := rfl
  rw [four] at below
  rw [ContextLimits.remaining]
  omega

theorem unchanged_iff (valid : limits.Valid)
    (below : wellBelowWindow estimate limits requested = true) (least : input ≤ estimate) :
    (evaluate input requested limits).Unchanged requested ↔
      limits.minOutputTokens.toNat ≤ limits.remaining input := by
  rw [evaluate_eq valid]
  dsimp only
  split
  next few => exact iff_of_false id (Nat.not_le.mpr few)
  next enough =>
    rw [if_pos (wellBelow_room below least)]
    exact iff_of_true rfl (Nat.not_lt.mp enough)

end Evaluation

/-- The guard keeps its promises exactly when the configured least output fits behind every input
that the fast path lets through. -/
theorem context_guard {glm : Glm53Config} {window : UInt64} (valid : glm.validate = .ok ())
    (configured : glm.context.upstreamContextWindowTokens = some window)
    (input estimate requested : UInt64) :
    GuardHolds (glm.context.limits window) input estimate requested ↔
      (wellBelowWindow estimate (glm.context.limits window) requested = true →
        input ≤ estimate → (glm.context.limits window).minOutputTokens.toNat ≤
          (glm.context.limits window).remaining input) := by
  have admitted := validate_limits valid configured
  constructor
  · intro holds below least
    exact (unchanged_iff admitted below least).mp (holds.skips below least)
  · exact fun room => ⟨fun _ => reserved_fits admitted, reserved_none admitted,
      fun below least => (unchanged_iff admitted below least).mpr (room below least)⟩

def windowConfig (minOutputTokens : UInt32) : Glm53Config :=
  ⟨⟨.high, .high, true, .requestedOnly⟩, 65536, ⟨true, true, true, some 4000, 0, minOutputTokens⟩⟩

theorem context_guard_small :
    GuardHolds ((windowConfig 256).context.limits 4000) 400 400 100 := by
  refine (context_guard rfl rfl 400 400 100).mpr fun _ _ => ?_
  decide

theorem context_guard_fails : ¬∀ (glm : Glm53Config) (window : UInt64), glm.validate = .ok () →
    glm.context.upstreamContextWindowTokens = some window → ∀ input estimate requested,
      GuardHolds (glm.context.limits window) input estimate requested := by
  intro claim
  have skips := (claim (windowConfig 3900) 4000 rfl rfl 400 400 100).skips rfl (by decide)
  exact skips

end ClineProxy
