import ClineProxy.JsonAlike
import ClineProxy.JsonNumbers
import ClineProxy.PassthroughChecks

/-! What the policy writes into the body of a request: the effort and the output bound. -/

namespace ClineProxy

open Json

def bailIf (wrong : Bool) (message : String) : Except String Unit :=
  if wrong then .error message else .ok ()

theorem bailIf_ok {wrong : Bool} {message : String} (passed : bailIf wrong message = .ok ()) :
    wrong = false := by
  cases wrong with
  | false => rfl
  | true => cases passed

def checkEffort (field : String) (effort : GlmReasoningEffort) : Except String Unit :=
  bailIf (effort = .max)
    (field ++ " must not be `max`; explicit max stays available via output_config.effort")

def checkWindow (context : Glm53ContextConfig) (window : UInt64) : Except String Unit :=
  let margin := context.contextSafetyMarginTokens
  let least := context.minOutputTokens.toUInt64
  bailIf (window.toNat ≤ min (margin.toNat + least.toNat) 18446744073709551615)
    ("glm53.context.upstream_context_window_tokens (" ++ toString window ++
      ") must be greater than safety_margin (" ++ toString margin ++ ") + min_output (" ++
      toString least ++ ")")

def Glm53Config.validate (glm : Glm53Config) : Except String Unit := do
  let cap := glm.maxOutputTokens
  bailIf (cap < 1024 || 131072 < cap)
    ("glm53.limits.max_output_tokens must be between 1024 and 131072 (got " ++ toString cap ++ ")")
  checkEffort "glm53.reasoning.default_effort" glm.reasoning.defaultEffort
  checkEffort "glm53.reasoning.adaptive_effort" glm.reasoning.adaptiveEffort
  bailIf (glm.context.minOutputTokens = 0)
    "glm53.context.min_output_tokens must be greater than zero"
  match glm.context.upstreamContextWindowTokens with
  | none => return
  | some window => checkWindow glm.context window

def Origin.asksMax (object : Map) : Origin → Prop
  | .anthropic _ outputEffort => outputEffort = some "max"
  | .openAi => object.get "reasoning_effort" = some (.string "max")

theorem checkEffort_ok {field : String} {effort : GlmReasoningEffort}
    (passed : checkEffort field effort = .ok ()) : effort ≠ .max := by
  exact of_decide_eq_false (bailIf_ok passed)

theorem validate_effort {glm : Glm53Config} (valid : glm.validate = .ok ()) :
    glm.reasoning.defaultEffort ≠ .max ∧ glm.reasoning.adaptiveEffort ≠ .max := by
  obtain ⟨_, -, valid⟩ := bind_eq_ok.mp valid
  obtain ⟨_, first, valid⟩ := bind_eq_ok.mp valid
  obtain ⟨_, second, -⟩ := bind_eq_ok.mp valid
  exact ⟨checkEffort_ok first, checkEffort_ok second⟩

theorem fromOutputEffort_max {effort : String} (read : fromOutputEffort effort = .ok .max) :
    effort = "max" := by
  unfold fromOutputEffort at read
  split at read
  next => cases read
  next => cases read
  next => cases read
  next => cases read
  next => rfl
  next => cases read

theorem fromThinking_max {value : Value} {maxTokens : UInt64} :
    fromThinking value maxTokens ≠ .ok (some .max) := by
  intro read
  rw [fromThinking] at read
  split at read
  next => cases read
  next =>
    split at read
    next => cases read
    next => cases read
    next => cases read
    next =>
      obtain ⟨budget, -, read⟩ := bind_eq_ok.mp read
      split at read
      next => cases read
      next =>
        have chosen := Option.some.inj (Except.ok.inj read)
        split at chosen <;> cases chosen
    next => cases read

theorem openaiEffortToGlm_max {effort : String} (read : openaiEffortToGlm effort = "max") :
    effort = "max" := by
  unfold openaiEffortToGlm at read
  split at read
  next => exact absurd read (by decide)
  next => exact absurd read (by decide)
  next => exact absurd read (by decide)
  next => exact absurd read (by decide)
  next => exact absurd read (by decide)
  next => exact read

theorem resolveEffort_max {thinking : Option Value} {outputEffort : Option String}
    {maxTokens : UInt64} {fallback adaptive : GlmReasoningEffort} {effort : GlmReasoningEffort}
    (notFallback : fallback ≠ .max) (notAdaptive : adaptive ≠ .max)
    (resolved : resolveEffort thinking outputEffort maxTokens fallback adaptive =
      .ok (some effort)) (greatest : effort = .max) : outputEffort = some "max" := by
  subst greatest
  unfold resolveEffort at resolved
  split at resolved
  next asked =>
    obtain ⟨read, found, same⟩ := map_eq_ok.mp resolved
    obtain rfl := Option.some.inj same
    rw [fromOutputEffort_max found]
  next value =>
    obtain ⟨read, found, same⟩ := bind_eq_ok.mp resolved
    split at same
    next => exact absurd (Option.some.inj (Except.ok.inj same)) notAdaptive
    next => exact absurd (Except.ok.inj same ▸ found) fromThinking_max
  next => exact absurd (Option.some.inj (Except.ok.inj resolved)) notFallback

theorem resolveReasoningPolicy_max {thinking : Option Value} {outputEffort : Option String}
    {maxTokens : UInt64} {fallback adaptive : GlmReasoningEffort} {exposure : ThinkingExposure}
    {policy : ReasoningPolicy} (notFallback : fallback ≠ .max) (notAdaptive : adaptive ≠ .max)
    (resolved : resolveReasoningPolicy thinking outputEffort maxTokens fallback adaptive exposure =
      .ok policy) (greatest : policy.effort = .max) : outputEffort = some "max" := by
  obtain ⟨effort, found, made⟩ := bind_eq_ok.mp resolved
  obtain rfl := Except.ok.inj made
  cases effort with
  | none => exact absurd greatest notFallback
  | some effort => exact resolveEffort_max notFallback notAdaptive found greatest

def policyBody (glm : Glm53Config) (origin : Origin) (effort : GlmReasoningEffort)
    (object : Map) : Map :=
  let explicit := object.insert "reasoning_effort" (.string effort.asStr)
  let compacted := stripAndCompact glm
    (capOutput glm.maxOutputTokens.toUInt64 (clientMaxTokens object) explicit)
  if origin.dropsMetadata glm then compacted.remove "metadata" else compacted

section Sent

variable {glm : Glm53Config} {origin : Origin} {object : Map}

/-- The policy of a request that is accepted. -/
def policyOf (glm : Glm53Config) (origin : Origin) (object : Map) : Except String ReasoningPolicy :=
  resolveReasoningPolicy (origin.controls object).1
    ((origin.controls object).2.map openaiEffortToGlm)
    ((clientMaxTokens object).getD 18446744073709551615) glm.reasoning.defaultEffort
    glm.reasoning.adaptiveEffort glm.reasoning.exposeThinking

theorem optimizeGlm_eq : optimizeGlm glm origin object =
    (policyOf glm origin object).map fun policy =>
      (policyBody glm origin policy.effort object,
        ⟨.glm53, policy.effort.asStr, policy.exposeThinking, clientMaxTokens object,
          some ((clientMaxTokens object).elim glm.maxOutputTokens.toUInt64 fun client =>
            min client glm.maxOutputTokens.toUInt64)⟩) := by
  rw [optimizeGlm, policyOf]
  obtain ⟨thinking, outputEffort⟩ := origin.controls object
  dsimp only
  cases resolveReasoningPolicy thinking (outputEffort.map openaiEffortToGlm)
    ((clientMaxTokens object).getD 18446744073709551615) glm.reasoning.defaultEffort
    glm.reasoning.adaptiveEffort glm.reasoning.exposeThinking <;> rfl

def IsGlm (object : Map) : Prop :=
  ModelFamily.fromUpstreamModel (((object.get "model").bind Value.asStr).getD "") = .glm53

theorem optimizeRequest_glm (family : IsGlm object) : optimizeRequest glm origin (.object object) =
    (optimizeGlm glm origin object).map fun (sent, done) => (.object sent, done) := by
  rw [IsGlm] at family
  simp only [optimizeRequest, Value.asObject_object, family]

theorem distinct_capOutput (distinct : object.Distinct) (cap : UInt64)
    (maxTokens : Option UInt64) : (capOutput cap maxTokens object).Distinct := by
  cases maxTokens with
  | none => exact distinct.insert _ _
  | some client => exact (distinct.remove _).insert _ _

theorem get_capOutput (distinct : object.Distinct) (cap : UInt64) (maxTokens : Option UInt64)
    (query : String) : (capOutput cap maxTokens object).get query =
      if query = "max_tokens" then
        some (u64Value (maxTokens.elim cap fun client => min client cap))
      else if query = "max_completion_tokens" ∧ maxTokens.isSome = true then none
      else object.get query := by
  cases maxTokens with
  | none =>
      rw [capOutput, Map.get_insert]
      simp
  | some client =>
      rw [capOutput, Map.get_insert]
      by_cases same : query = "max_completion_tokens"
      · subst same
        rw [Map.get_remove_self distinct]
        simp
      · rw [Map.get_remove distinct same]
        simp [same]

theorem get_stripAndCompact (query : String) : (stripAndCompact glm object).get query =
    if query = "messages" ∧
        (glm.reasoning.stripHistoricalThinking || glm.context.safeCompaction) = true then
      (object.get "messages").map (Value.mapArray (optimizeMessages glm))
    else object.get query := by
  rw [stripAndCompact]
  split
  next passes =>
    rw [Map.get_update]
    simp [passes]
  next idle => simp [idle]

theorem get_policyBody (distinct : object.Distinct) (effort : GlmReasoningEffort) {query : String}
    (notMetadata : query ≠ "metadata") : (policyBody glm origin effort object).get query =
      if query = "messages" ∧
          (glm.reasoning.stripHistoricalThinking || glm.context.safeCompaction) = true then
        (object.get "messages").map (Value.mapArray (optimizeMessages glm))
      else if query = "max_tokens" then
        some (u64Value ((clientMaxTokens object).elim glm.maxOutputTokens.toUInt64 fun client =>
          min client glm.maxOutputTokens.toUInt64))
      else if query = "max_completion_tokens" ∧ (clientMaxTokens object).isSome = true then none
      else if query = "reasoning_effort" then some (.string effort.asStr)
      else object.get query := by
  have explicit := distinct.insert "reasoning_effort" (.string effort.asStr)
  have capped := distinct_capOutput explicit glm.maxOutputTokens.toUInt64 (clientMaxTokens object)
  have compacted : (stripAndCompact glm (capOutput glm.maxOutputTokens.toUInt64
      (clientMaxTokens object) (object.insert "reasoning_effort" (.string effort.asStr)))).Distinct := by
    rw [stripAndCompact]
    split
    next => exact capped.update _ _
    next => exact capped
  have kept : (policyBody glm origin effort object).get query =
      (stripAndCompact glm (capOutput glm.maxOutputTokens.toUInt64 (clientMaxTokens object)
        (object.insert "reasoning_effort" (.string effort.asStr)))).get query := by
    rw [policyBody]
    split
    next => exact Map.get_remove compacted notMetadata
    next => rfl
  have messages : (capOutput glm.maxOutputTokens.toUInt64 (clientMaxTokens object)
      (object.insert "reasoning_effort" (.string effort.asStr))).get "messages" =
        object.get "messages" := by
    rw [get_capOutput explicit, Map.get_insert]
    simp
  rw [kept, get_stripAndCompact, messages]
  split
  next => rfl
  next => rw [get_capOutput explicit, Map.get_insert]

end Sent

/-- The bound that the client gives, whichever number it is. -/
def askedBound (object : Map) : Option ℚ :=
  ((object.get "max_tokens").bind Value.numeric).or
    ((object.get "max_completion_tokens").bind Value.numeric)

def outputCap (glm : Glm53Config) : ℚ := glm.maxOutputTokens.toNat

/-- What a body for the model has to say about the effort and the output. -/
structure OutputPolicy (glm : Glm53Config) (origin : Origin) (object sent : Map) : Prop where
  effort : ∃ effort : GlmReasoningEffort,
    sent.get "reasoning_effort" = some (.string effort.asStr) ∧
      (effort = .max → origin.asksMax object)
  bound : (sent.get "max_tokens").bind Value.numeric =
    some ((askedBound object).elim (outputCap glm) (min (outputCap glm)))
  within : ∀ field ∈ ["max_tokens", "max_completion_tokens"], ∀ held, sent.get field = some held →
    ∃ value, held.numeric = some value ∧ value ≤ outputCap glm

/-- How a client gives its bound: as an unsigned integer, or not at all. The other numbers count
where they change nothing. -/
inductive BoundRead (cap : ℚ) (object : Map) : Prop
  | integer (bound : UInt64) (first : (object.get "max_tokens").bind Value.asU64 = some bound)
  | fallback (bound : UInt64) (first : (object.get "max_tokens").bind Value.numeric = none)
      (second : (object.get "max_completion_tokens").bind Value.asU64 = some bound)
  | unbounded (first : (object.get "max_tokens").bind Value.numeric = none)
      (second : object.get "max_completion_tokens" = none)
  | equal (bound : UInt64)
      (first : (object.get "max_tokens").bind Value.numeric = some (bound.toNat : ℚ))
      (second : (object.get "max_completion_tokens").bind Value.asU64 = some bound)
  | above (value : ℚ) (first : (object.get "max_tokens").bind Value.numeric = some value)
      (least : cap ≤ value)
      (second : ∀ bound, (object.get "max_completion_tokens").bind Value.asU64 = some bound →
        cap ≤ bound.toNat)
      (other : ∀ held, object.get "max_completion_tokens" = some held → held.asU64 = none →
        ∃ value, held.numeric = some value ∧ value ≤ cap)
  | exact (first : (object.get "max_tokens").bind Value.numeric = none)
      (second : (object.get "max_completion_tokens").bind Value.numeric = some cap)

section Bound

variable {glm : Glm53Config} {origin : Origin} {object : Map} {effort : GlmReasoningEffort}

theorem numeric_u64Value (bound : UInt64) :
    (u64Value bound).numeric = some (bound.toNat : ℚ) := rfl

theorem bind_numeric {found : Option Value} {bound : UInt64}
    (read : found.bind Value.asU64 = some bound) :
    found.bind Value.numeric = some (bound.toNat : ℚ) := by
  obtain ⟨value, rfl, given⟩ := Option.bind_eq_some_iff.mp read
  exact Value.numeric_of_asU64 given

theorem cap_toNat : ((glm.maxOutputTokens.toUInt64.toNat : Nat) : ℚ) = outputCap glm := by
  rw [UInt32.toNat_toUInt64, outputCap]

theorem min_toNat (client : UInt64) :
    (((min client glm.maxOutputTokens.toUInt64).toNat : Nat) : ℚ) =
      min (outputCap glm) client.toNat := by
  rw [← cap_toNat, ← Nat.cast_min]
  congr 1
  change (if client ≤ glm.maxOutputTokens.toUInt64 then client
    else glm.maxOutputTokens.toUInt64).toNat = _
  split
  next below => exact (Nat.min_eq_right (UInt64.le_iff_toNat_le.mp below)).symm
  next above =>
    have least := Nat.le_of_not_le (mt UInt64.le_iff_toNat_le.mpr above)
    exact (Nat.min_eq_left least).symm

theorem sent_bound (distinct : object.Distinct) :
    ((policyBody glm origin effort object).get "max_tokens").bind Value.numeric =
      some ((clientMaxTokens object).elim (outputCap glm) fun client =>
        min (outputCap glm) client.toNat) := by
  rw [get_policyBody distinct effort (by decide)]
  simp only [String.reduceEq, false_and, ↓reduceIte, Option.bind_some, numeric_u64Value]
  cases clientMaxTokens object with
  | none => exact congrArg some cap_toNat
  | some client => exact congrArg some (min_toNat client)

theorem sent_other (distinct : object.Distinct) :
    (policyBody glm origin effort object).get "max_completion_tokens" =
      if (clientMaxTokens object).isSome = true then none
      else object.get "max_completion_tokens" := by
  rw [get_policyBody distinct effort (by decide)]
  simp

theorem sent_within (distinct : object.Distinct) :
    (∀ field ∈ ["max_tokens", "max_completion_tokens"], ∀ held,
      (policyBody glm origin effort object).get field = some held →
        ∃ value, held.numeric = some value ∧ value ≤ outputCap glm) ↔
      (clientMaxTokens object = none → ∀ held, object.get "max_completion_tokens" = some held →
        ∃ value, held.numeric = some value ∧ value ≤ outputCap glm) := by
  have first : ∀ held, (policyBody glm origin effort object).get "max_tokens" = some held →
      ∃ value, held.numeric = some value ∧ value ≤ outputCap glm := by
    intro held found
    have bound := @sent_bound glm origin object effort distinct
    rw [found, Option.bind_some] at bound
    refine ⟨_, bound, ?_⟩
    cases clientMaxTokens object with
    | none => exact le_refl _
    | some client => exact min_le_left _ _
  simp only [List.forall_mem_cons, List.not_mem_nil, false_implies, implies_true, and_true]
  rw [sent_other distinct]
  refine ⟨fun both unread => ?_, fun second => ⟨first, ?_⟩⟩
  · have other := both.2
    rwa [unread, if_neg (by simp)] at other
  · cases read : clientMaxTokens object with
    | none => simpa using second read
    | some client => simp

theorem boundRead_iff (distinct : object.Distinct) :
    (((policyBody glm origin effort object).get "max_tokens").bind Value.numeric =
        some ((askedBound object).elim (outputCap glm) (min (outputCap glm))) ∧
      ∀ field ∈ ["max_tokens", "max_completion_tokens"], ∀ held,
        (policyBody glm origin effort object).get field = some held →
          ∃ value, held.numeric = some value ∧ value ≤ outputCap glm) ↔
      BoundRead (outputCap glm) object := by
  rw [sent_within distinct, sent_bound distinct, Option.some.injEq]
  rw [askedBound, clientMaxTokens]
  cases first : (object.get "max_tokens").bind Value.asU64 with
  | some bound =>
      refine iff_of_true ⟨?_, by simp⟩ (.integer bound first)
      simp [bind_numeric first]
  | none =>
      rw [Option.none_or]
      cases given : (object.get "max_tokens").bind Value.numeric with
      | none =>
          rw [Option.none_or]
          cases second : (object.get "max_completion_tokens").bind Value.asU64 with
          | some bound =>
              refine iff_of_true ⟨?_, by simp⟩ (.fallback bound given second)
              simp [bind_numeric second]
          | none =>
              simp only [Option.elim_none, forall_const]
              cases other : object.get "max_completion_tokens" with
              | none => exact iff_of_true ⟨rfl, by simp⟩ (.unbounded given other)
              | some held =>
                  rw [Option.bind_some]
                  constructor
                  · rintro ⟨same, within⟩
                    obtain ⟨value, number, below⟩ := within held rfl
                    rw [number, Option.elim_some, eq_comm, min_eq_left_iff] at same
                    exact .exact given (by rw [other, Option.bind_some, number,
                      le_antisymm below same])
                  · intro read
                    cases read with
                    | integer bound known => simp [first] at known
                    | fallback bound _ known => simp [second] at known
                    | unbounded _ absent => simp [other] at absent
                    | equal bound known => simp [given] at known
                    | above value known => simp [given] at known
                    | exact _ number =>
                        rw [other, Option.bind_some] at number
                        refine ⟨by simp [number], fun found same => ?_⟩
                        obtain rfl := Option.some.inj same
                        exact ⟨_, number, le_refl _⟩
      | some value =>
          rw [Option.some_or, Option.elim_some]
          cases second : (object.get "max_completion_tokens").bind Value.asU64 with
          | some bound =>
              simp only [Option.elim_some, reduceCtorEq, false_implies, and_true]
              constructor
              · intro same
                rcases le_total (outputCap glm) value with above | below
                · rw [min_eq_left above, min_eq_left_iff] at same
                  refine .above value given above (fun other known => ?_) fun held found unread => ?_
                  · rw [second] at known
                    exact Option.some.inj known ▸ same
                  · rw [found, Option.bind_some, unread] at second
                    cases second
                · rw [min_eq_right below] at same
                  rcases le_total (outputCap glm) (bound.toNat : ℚ) with high | low
                  · rw [min_eq_left high] at same
                    refine .above value given same.le (fun other known => ?_)
                      fun held found unread => ?_
                    · rw [second] at known
                      exact Option.some.inj known ▸ high
                    · rw [found, Option.bind_some, unread] at second
                      cases second
                  · rw [min_eq_right low] at same
                    exact .equal bound (same ▸ given) second
              · intro read
                cases read with
                | integer other known => simp [first] at known
                | fallback other known => simp [given] at known
                | unbounded known => simp [given] at known
                | exact known => simp [given] at known
                | equal other known number =>
                    obtain rfl := Option.some.inj (second.symm.trans number)
                    rw [Option.some.inj (given.symm.trans known)]
                | above other known least high =>
                    obtain rfl := Option.some.inj (given.symm.trans known)
                    rw [min_eq_left least, min_eq_left (high bound second)]
          | none =>
              simp only [Option.elim_none, forall_const]
              rw [eq_comm, min_eq_left_iff]
              constructor
              · rintro ⟨above, within⟩
                exact .above value given above (by simp [second]) fun held found _ =>
                  within held found
              · intro read
                cases read with
                | integer other known => simp [first] at known
                | fallback other known => simp [given] at known
                | unbounded known => simp [given] at known
                | exact known => simp [given] at known
                | equal other _ number => simp [second] at number
                | above other known least _ within =>
                    obtain rfl := Option.some.inj (given.symm.trans known)
                    refine ⟨least, fun held found => within held found ?_⟩
                    rw [found, Option.bind_some] at second
                    exact second

end Bound

/-- The effort is explicit, and the greatest one is asked for; the output is bounded by the cap and
the client's bound just when that bound is read. -/
theorem output_policy {glm : Glm53Config} {origin : Origin} {object sent : Map}
    {done : RequestOptimization} (valid : glm.validate = .ok ()) (distinct : object.Distinct)
    (family : IsGlm object)
    (accepted : optimizeRequest glm origin (.object object) = .ok (.object sent, done)) :
    OutputPolicy glm origin object sent ↔ BoundRead (outputCap glm) object := by
  rw [optimizeRequest_glm family, optimizeGlm_eq] at accepted
  obtain ⟨⟨body, other⟩, made, same⟩ := map_eq_ok.mp accepted
  obtain ⟨policy, resolved, made⟩ := map_eq_ok.mp made
  cases made
  cases same
  obtain ⟨notFallback, notAdaptive⟩ := validate_effort valid
  have effort : ∃ effort : GlmReasoningEffort,
      (policyBody glm origin policy.effort object).get "reasoning_effort" =
        some (.string effort.asStr) ∧ (effort = .max → origin.asksMax object) := by
    refine ⟨policy.effort, ?_, fun greatest => ?_⟩
    · rw [get_policyBody distinct policy.effort (by decide)]
      simp
    · have asked := resolveReasoningPolicy_max notFallback notAdaptive resolved greatest
      obtain ⟨raw, given, mapped⟩ := Option.map_eq_some_iff.mp asked
      obtain rfl := openaiEffortToGlm_max mapped
      cases origin with
      | anthropic thinking outputEffort => exact given
      | openAi =>
          obtain ⟨value, found, text⟩ := Option.bind_eq_some_iff.mp given
          rw [Origin.asksMax, found, Value.asStr_eq_some text]
  rw [← @boundRead_iff glm origin object policy.effort distinct]
  exact ⟨fun all => ⟨all.bound, all.within⟩, fun read => ⟨effort, read.1, read.2⟩⟩

def boundedBody (bound : Value) : Map :=
  [("model", .string "z-ai/glm-5.3-flash"),
    ("messages", .array [.object [("role", .string "user"), ("content", .string "hi")]]),
    ("max_completion_tokens", bound)]

def boundedSent (bound : Value) : Map :=
  policyBody (plainConfig true).glm53 .openAi .high (boundedBody bound)

theorem boundedBody_glm (bound : Value) : IsGlm (boundedBody bound) := by
  have read : ModelFamily.fromUpstreamModel "z-ai/glm-5.3-flash" = .glm53 := by decide +kernel
  exact read

theorem boundedBody_sent (bound : Value) : ∃ done,
    optimizeRequest (plainConfig true).glm53 .openAi (.object (boundedBody bound)) =
      .ok (.object (boundedSent bound), done) := by
  rw [optimizeRequest_glm (boundedBody_glm bound), optimizeGlm_eq]
  exact ⟨_, rfl⟩

theorem output_policy_integer :
    OutputPolicy (plainConfig true).glm53 .openAi (boundedBody (.ofNat 100000))
      (boundedSent (.ofNat 100000)) := by
  obtain ⟨done, sent⟩ := boundedBody_sent (.ofNat 100000)
  have distinct : (boundedBody (.ofNat 100000)).Distinct := by
    rw [Map.Distinct, boundedBody]
    decide
  exact (output_policy rfl distinct (boundedBody_glm _) sent).mpr (.fallback 100000 rfl rfl)

def floatBound : Value := .number (.float 0x412E848000000000)

theorem output_policy_fails :
    IsGlm (boundedBody floatBound) ∧
      (∃ done, optimizeRequest (plainConfig true).glm53 .openAi (.object (boundedBody floatBound)) =
        .ok (.object (boundedSent floatBound), done)) ∧
      ¬OutputPolicy (plainConfig true).glm53 .openAi (boundedBody floatBound)
        (boundedSent floatBound) := by
  refine ⟨boundedBody_glm _, boundedBody_sent _, fun policy => ?_⟩
  obtain ⟨value, known, below⟩ := policy.within "max_completion_tokens" (by decide) floatBound rfl
  obtain rfl := Option.some.inj known
  exact absurd below (by decide +kernel)

end ClineProxy
