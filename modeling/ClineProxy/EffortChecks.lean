import ClineProxy.GlmMessages
import ClineProxy.PolicyChecks
import ClineProxy.PrivacyChecks

/-! The reasoning effort of a request, as it is sent and as its tokens are counted. -/

namespace ClineProxy

open Json

/-! The counting handler of `server.rs`, up to the chat template -/

def outputEffort (value : Value) : Option String :=
  ((value.get "output_config").bind fun config => config.get "effort").bind Value.asStr

/-- The request whose tokens are counted. -/
def countedRequest (glm : Glm53Config) (value : Value) : Except String Value := do
  let counted :=
    if glm.context.stripVolatileBillingHeader then stripBillingHeaderInAnthropicSystem value
    else value
  let counted :=
    if glm.reasoning.stripHistoricalThinking then stripAnthropicThinking counted else counted
  let policy ← resolveReasoningPolicy (value.get "thinking") (outputEffort value)
    (((value.get "max_tokens").bind Value.asU64).getD 18446744073709551615)
    glm.reasoning.defaultEffort glm.reasoning.adaptiveEffort glm.reasoning.exposeThinking
  return if glm.reasoning.stripHistoricalThinking then
      counted.mapObject (Map.insert "output_config"
        (.object [("effort", .string policy.effort.asStr)]))
    else counted

def countPrompt (config : ProxyConfig) (value : Value) : Fallible Glm.GlmConversion := do
  let requested ← orReject "model must be a non-empty string"
    (((value.get "model").bind Value.asStr).filter fun model => !model.isEmpty)
  let upstreamModel := config.resolveModel requested
  if ModelFamily.fromUpstreamModel upstreamModel ≠ .glm53 then
    reject ("exact token counting is only available for GLM models (requested upstream model: " ++
      upstreamModel ++ ")")
  else
    let counted ← Glm.orInvalid (countedRequest config.glm53 value)
    Glm.convertAnthropicToGlm counted

/-- What the counting handler does with the reasoning controls. -/
def countedControls (glm : Glm53Config) (value : Value) : Fallible (Option GlmReasoningEffort) := do
  let counted ← Glm.orInvalid (countedRequest glm value)
  let object ← orReject "request body must be a JSON object" counted.asObject
  Glm.convertEffort object

def effectiveReasoningEffort : Option GlmReasoningEffort → String
  | some effort => if effort.asStr ∈ ["low", "high"] then effort.asStr else "max"
  | none => "max"

theorem effectiveReasoningEffort_some (effort : GlmReasoningEffort) :
    effectiveReasoningEffort (some effort) = effort.asStr := by
  cases effort <;> rfl

theorem fromOutputEffort_asStr (effort : GlmReasoningEffort) :
    fromOutputEffort effort.asStr = .ok effort := by
  cases effort <;> rfl

theorem countPrompt_controls {config : ProxyConfig} {value : Value}
    {conversion : Glm.GlmConversion} (counts : countPrompt config value = .ok conversion) :
    countedControls config.glm53 value = .ok conversion.reasoningEffort := by
  obtain ⟨requested, -, counts⟩ := bind_eq_ok.mp counts
  dsimp only at counts
  split at counts
  next => cases counts
  next =>
    obtain ⟨counted, made, counts⟩ := bind_eq_ok.mp counts
    obtain ⟨object, isObject, counts⟩ := bind_eq_ok.mp counts
    obtain ⟨model, -, counts⟩ := bind_eq_ok.mp counts
    obtain ⟨inputs, -, counts⟩ := bind_eq_ok.mp counts
    obtain ⟨system, -, counts⟩ := bind_eq_ok.mp counts
    obtain ⟨messages, -, counts⟩ := bind_eq_ok.mp counts
    obtain ⟨tools, -, counts⟩ := bind_eq_ok.mp counts
    obtain ⟨effort, resolved, counts⟩ := bind_eq_ok.mp counts
    cases counts
    refine bind_eq_ok.mpr ⟨counted, made, bind_eq_ok.mpr ⟨object, ?_, resolved⟩⟩
    exact isObject

section Sent

variable {codec : Codec} {path : MessagePath} {shadow : Option ReasoningShadowStore}
  {fields object : Map} {converted : ConvertedRequest}

theorem get_restoreInto {hash : String → UInt64} {clock : Nat → Clock.Instant}
    {fingerprint : String} {store : ReasoningShadowStore} {key : String}
    (other : key ≠ "messages") :
    (restoreInto hash clock fingerprint store fields).1.get key = fields.get key := by
  rw [restoreInto]
  split
  next => rfl
  next => rw [Map.get_insert, if_neg other]

theorem distinct_restoreInto {hash : String → UInt64} {clock : Nat → Clock.Instant}
    {fingerprint : String} {store : ReasoningShadowStore} (distinct : fields.Distinct) :
    (restoreInto hash clock fingerprint store fields).1.Distinct := by
  rw [restoreInto]
  split
  next => exact distinct
  next => exact distinct.insert _ _

theorem restoreShadow_object (thinking : Option Value) (session : Option String)
    (distinct : fields.Distinct) :
    ∃ restored : Map, (path.restoreShadow thinking session shadow (.object fields)).1 =
        .object restored ∧ restored.Distinct ∧
      ∀ key, key ≠ "messages" → restored.get key = fields.get key := by
  unfold MessagePath.restoreShadow
  split
  next store fingerprint _ =>
    split
    next => exact ⟨fields, rfl, distinct, fun _ _ => rfl⟩
    next => exact ⟨_, rfl, distinct_restoreInto distinct, fun _ other => get_restoreInto other⟩
  next => exact ⟨fields, rfl, distinct, fun _ _ => rfl⟩

theorem convertRequestValue_object
    (accepted : convertRequestValue codec (.object object) = .ok converted) :
    ∃ (bound : UInt64) (output : Map), (object.get "max_tokens").bind Value.asU64 = some bound ∧
      converted.body = .object output ∧ output.Distinct ∧
      output.get "max_tokens" = some (u64Value bound) ∧
      converted.thinking = object.get "thinking" ∧
      converted.outputEffort = outputEffort (.object object) := by
  obtain ⟨fields, isObject, done⟩ := bind_eq_ok.mp accepted
  obtain ⟨model, -, done⟩ := bind_eq_ok.mp done
  obtain ⟨bound, given, done⟩ := bind_eq_ok.mp done
  obtain ⟨stream, -, done⟩ := bind_eq_ok.mp done
  obtain ⟨system, -, done⟩ := bind_eq_ok.mp done
  obtain ⟨inputs, -, done⟩ := bind_eq_ok.mp done
  obtain ⟨messages, -, done⟩ := bind_eq_ok.mp done
  obtain ⟨⟨output, serverTools⟩, settings, done⟩ := bind_eq_ok.mp done
  cases done
  obtain rfl := Option.some.inj (orReject_eq_ok.mp isObject)
  have positive := orReject_eq_ok.mp given
  have head : BodiesAlike (fun _ _ => True)
      [("model", .string model), ("max_tokens", .number (.posInt bound)),
        ("stream", .bool (stream.getD false)),
        ("messages", .array ((system ++ messages).map WireMessage.intoWire))]
      [("model", .string model), ("max_tokens", .number (.posInt bound)),
        ("stream", .bool (stream.getD false)),
        ("messages", .array ((system ++ messages).map WireMessage.intoWire))] :=
    ⟨by simp [Map.Distinct], Map.Alike.refl _, _, _, rfl, rfl, trivial⟩
  refine ⟨bound, output, ?_, rfl, (copySettings_bodies _ head settings settings).distinct, ?_,
    rfl, rfl⟩
  · exact (Option.filter_eq_some_iff.mp positive).1
  · exact (copySettings_get (by decide) settings).trans rfl

/-- The path accepts the request just when its controls resolve, and sends the effort. -/
theorem anthropicPrompt_effort (accepted : convertRequestValue codec (.object object) = .ok converted)
    (family : ModelFamily.fromUpstreamModel (path.config.resolveModel converted.model) = .glm53) :
    ∃ bound, (object.get "max_tokens").bind Value.asU64 = some bound ∧
      match resolveReasoningPolicy (object.get "thinking")
        ((outputEffort (.object object)).map openaiEffortToGlm) bound
        path.config.glm53.reasoning.defaultEffort path.config.glm53.reasoning.adaptiveEffort
        path.config.glm53.reasoning.exposeThinking with
      | .error message => path.anthropicPrompt codec shadow (.object object) = reject message
      | .ok policy => ∃ sent left,
          path.anthropicPrompt codec shadow (.object object) = .ok (sent, left) ∧
            sent.body.get "reasoning_effort" = some (.string policy.effort.asStr) := by
  obtain ⟨bound, output, given, made, distinct, found, thinking, effort⟩ :=
    convertRequestValue_object accepted
  refine ⟨bound, given, ?_⟩
  have normalized : ∃ fields : Map, (if path.config.glm53.context.stripVolatileBillingHeader then
        normalizeSystemMessages (MessagePath.applyModel converted
          (path.config.resolveModel converted.model)).body
      else (MessagePath.applyModel converted (path.config.resolveModel converted.model)).body) =
        .object fields ∧ fields.Distinct ∧
      ∀ key, key ≠ "messages" → fields.get key =
        (output.insert "model" (.string (path.config.resolveModel converted.model))).get key := by
    have named := distinct.insert "model"
      (.string (path.config.resolveModel converted.model))
    rw [MessagePath.applyModel, made]
    split
    next =>
      refine ⟨_, rfl, named.update _ _, fun key other => ?_⟩
      rw [Map.get_update, if_neg other]
    next => exact ⟨_, rfl, named, fun _ _ => rfl⟩
  obtain ⟨fields, isObject, whole, kept⟩ := normalized
  obtain ⟨restored, restores, distinctRestored, same⟩ := @restoreShadow_object path shadow fields
    converted.thinking ((sessionRawId (.object object)).map path.fingerprint) whole
  have resolved : IsGlm restored := by
    rw [IsGlm, same "model" (by decide), kept "model" (by decide), Map.get_insert, if_pos rfl]
    exact family
  have asked : clientMaxTokens restored = some bound := by
    rw [clientMaxTokens, same "max_tokens" (by decide), kept "max_tokens" (by decide),
      Map.get_insert, if_neg (by decide), found]
    rfl
  have optimizes := @optimizeRequest_glm path.config.glm53
    (.anthropic converted.thinking converted.outputEffort) restored resolved
  rw [optimizeGlm_eq, policyOf, asked] at optimizes
  simp only [Origin.controls, Option.getD_some, thinking, effort] at optimizes
  have keptThinking : (MessagePath.applyModel converted
      (path.config.resolveModel converted.model)).thinking = converted.thinking := rfl
  have keptEffort : (MessagePath.applyModel converted
      (path.config.resolveModel converted.model)).outputEffort = converted.outputEffort := rfl
  unfold MessagePath.anthropicPrompt MessagePath.anthropicOptimized
  rw [accepted]
  dsimp only [bind, Except.bind]
  rw [isObject, keptThinking, restores, keptEffort, thinking, effort, optimizes]
  cases resolveReasoningPolicy (object.get "thinking")
    ((outputEffort (.object object)).map openaiEffortToGlm) bound
    path.config.glm53.reasoning.defaultEffort path.config.glm53.reasoning.adaptiveEffort
    path.config.glm53.reasoning.exposeThinking with
  | error message => rfl
  | ok policy =>
      refine ⟨_, _, rfl, ?_⟩
      have explicit : (policyBody path.config.glm53
          (.anthropic (object.get "thinking") (outputEffort (.object object))) policy.effort
            restored).get "reasoning_effort" = some (.string policy.effort.asStr) := by
        rw [get_policyBody distinctRestored policy.effort (by decide)]
        simp
      dsimp only
      split
      next =>
        refine Eq.trans ?_ explicit
        exact (Map.get_update _ _ _ _).trans (if_neg (by decide))
      next => exact explicit

end Sent

section Counted

variable {glm : Glm53Config} {object : Map}

theorem counted_object : ∃ counted : Map,
    (let stripped :=
      if glm.context.stripVolatileBillingHeader then
        stripBillingHeaderInAnthropicSystem (.object object)
      else .object object
    stripAnthropicThinking stripped) = .object counted ∧
      ∀ key, key ≠ "system" → key ≠ "messages" → counted.get key = object.get key := by
  dsimp only
  split
  next =>
    refine ⟨_, rfl, fun key notSystem notMessages => ?_⟩
    rw [Map.get_update, if_neg notMessages, Map.get_update, if_neg notSystem]
  next =>
    refine ⟨_, rfl, fun key _ notMessages => ?_⟩
    rw [Map.get_update, if_neg notMessages]

/-- With the resolved effort in the counted request, only its `thinking` is read once more. -/
theorem countedControls_eq (strips : glm.reasoning.stripHistoricalThinking = true) :
    let maxTokens := ((object.get "max_tokens").bind Value.asU64).getD 18446744073709551615
    countedControls glm (.object object) =
      match resolveReasoningPolicy (object.get "thinking") (outputEffort (.object object)) maxTokens
        glm.reasoning.defaultEffort glm.reasoning.adaptiveEffort glm.reasoning.exposeThinking with
      | .error message => reject message
      | .ok policy =>
          match object.get "thinking" with
          | none => .ok (some policy.effort)
          | some thinking =>
              (Glm.orInvalid (fromThinking thinking maxTokens)).map fun _ => some policy.effort := by
  intro maxTokens
  obtain ⟨counted, made, kept⟩ := @counted_object glm object
  have request : countedRequest glm (.object object) = (resolveReasoningPolicy
      (object.get "thinking") (outputEffort (.object object)) maxTokens
      glm.reasoning.defaultEffort glm.reasoning.adaptiveEffort
      glm.reasoning.exposeThinking).map fun policy => .object (counted.insert "output_config"
        (.object [("effort", .string policy.effort.asStr)])) := by
    simp only [countedRequest, strips, if_true]
    rw [made]
    change (resolveReasoningPolicy (object.get "thinking") (outputEffort (.object object))
      maxTokens _ _ _).bind _ = _
    cases resolveReasoningPolicy (object.get "thinking") (outputEffort (.object object)) maxTokens
      glm.reasoning.defaultEffort glm.reasoning.adaptiveEffort glm.reasoning.exposeThinking <;> rfl
  rw [countedControls, request]
  cases resolveReasoningPolicy (object.get "thinking") (outputEffort (.object object)) maxTokens
    glm.reasoning.defaultEffort glm.reasoning.adaptiveEffort glm.reasoning.exposeThinking with
  | error message => rfl
  | ok policy =>
      have bound : (((counted.insert "output_config" (.object
          [("effort", .string policy.effort.asStr)])).get "max_tokens").bind Value.asU64).getD
            18446744073709551615 = maxTokens := by
        rw [Map.get_insert, if_neg (by decide), kept _ (by decide) (by decide)]
      have asked : (counted.insert "output_config" (.object
          [("effort", .string policy.effort.asStr)])).get "thinking" = object.get "thinking" := by
        rw [Map.get_insert, if_neg (by decide), kept _ (by decide) (by decide)]
      change Glm.convertEffort _ = _
      rw [Glm.convertEffort, asked, bound, Map.get_insert, if_pos rfl]
      cases object.get "thinking" with
      | none =>
          change (Glm.orInvalid (fromOutputEffort policy.effort.asStr)).map some = _
          rw [fromOutputEffort_asStr]
          rfl
      | some thinking =>
          dsimp only
          cases fromThinking thinking maxTokens with
          | error message => rfl
          | ok effort =>
              change (Glm.orInvalid (fromOutputEffort policy.effort.asStr)).map some = _
              rw [fromOutputEffort_asStr]
              rfl

end Counted

section Resolved

variable {thinking : Option Value} {maxTokens : UInt64} {fallback adaptive : GlmReasoningEffort}
  {exposure : ThinkingExposure} {asked : String}

theorem resolve_unsupported {message : String} (bad : fromOutputEffort asked = .error message) :
    resolveReasoningPolicy thinking (some asked) maxTokens fallback adaptive exposure =
      .error message := by
  have failed : resolveEffort thinking (some asked) maxTokens fallback adaptive =
      .error message := by
    change (fromOutputEffort asked).map some = _
    rw [bad]
    rfl
  unfold resolveReasoningPolicy
  rw [failed]
  rfl

theorem resolve_supported {effort : GlmReasoningEffort} (read : fromOutputEffort asked = .ok effort) :
    ∃ policy, resolveReasoningPolicy thinking (some asked) maxTokens fallback adaptive exposure =
      .ok policy ∧ policy.effort = effort := by
  have found : resolveEffort thinking (some asked) maxTokens fallback adaptive =
      .ok (some effort) := by
    change (fromOutputEffort asked).map some = _
    rw [read]
    rfl
  unfold resolveReasoningPolicy
  rw [found]
  exact ⟨_, rfl, rfl⟩

theorem resolve_thinking {value : Value} {policy : ReasoningPolicy}
    (resolved : resolveReasoningPolicy (some value) none maxTokens fallback adaptive exposure =
      .ok policy) : (fromThinking value maxTokens).isOk = true := by
  obtain ⟨effort, found, -⟩ := bind_eq_ok.mp resolved
  obtain ⟨read, given, -⟩ := bind_eq_ok.mp found
  rw [given]
  rfl

theorem fromOutputEffort_alias (other : asked ≠ "minimal") :
    fromOutputEffort (openaiEffortToGlm asked) = fromOutputEffort asked := by
  unfold openaiEffortToGlm
  split
  next => exact absurd rfl other
  next => rfl
  next => rfl
  next => rfl
  next => rfl
  next => rfl

end Resolved

def Rejected {Result : Type} (outcome : Fallible Result) : Prop := ∃ abort, outcome = .error abort

theorem not_rejected {Result : Type} {outcome : Fallible Result} {result : Result}
    (done : outcome = .ok result) : ¬Rejected outcome := by
  rintro ⟨abort, failed⟩
  rw [done] at failed
  cases failed

/-- The counting handler refuses the controls that the path refuses, and counts the effort that is
sent. The path refuses nothing else of a converted request, while the count may refuse its
messages. -/
structure EffortAgrees (codec : Codec) (path : MessagePath) (shadow : Option ReasoningShadowStore)
    (value : Value) : Prop where
  rejected : Rejected (countedControls path.config.glm53 value) ↔
    Rejected (path.anthropicPrompt codec shadow value)
  rendered : ∀ conversion sent left, countPrompt path.config value = .ok conversion →
    path.anthropicPrompt codec shadow value = .ok (sent, left) →
      sent.body.get "reasoning_effort" =
        some (.string (effectiveReasoningEffort conversion.reasoningEffort))

/-- The effort is no `minimal`, and a supported one does not stand beside unusable thinking. -/
structure ControlsAgree (value : Value) : Prop where
  notMinimal : outputEffort value ≠ some "minimal"
  usable : ∀ asked, outputEffort value = some asked → (fromOutputEffort asked).isOk = true →
    ∀ thinking, value.get "thinking" = some thinking →
      (fromThinking thinking
        (((value.get "max_tokens").bind Value.asU64).getD 18446744073709551615)).isOk = true

section Agreement

variable {codec : Codec} {path : MessagePath} {shadow : Option ReasoningShadowStore} {value : Value}

theorem effortAgrees_of_rejected {first second : Abort}
    (counts : countedControls path.config.glm53 value = .error first)
    (sends : path.anthropicPrompt codec shadow value = .error second) :
    EffortAgrees codec path shadow value where
  rejected := iff_of_true ⟨first, counts⟩ ⟨second, sends⟩
  rendered := fun _ _ _ _ done => by
    rw [sends] at done
    cases done

theorem effortAgrees_of_accepted {effort : GlmReasoningEffort} {sent : ConvertedRequest}
    {left : Option ReasoningShadowStore}
    (counts : countedControls path.config.glm53 value = .ok (some effort))
    (sends : path.anthropicPrompt codec shadow value = .ok (sent, left))
    (explicit : sent.body.get "reasoning_effort" = some (.string effort.asStr)) :
    EffortAgrees codec path shadow value where
  rejected := iff_of_false (not_rejected counts) (not_rejected sends)
  rendered := fun conversion other kept counted done => by
    obtain ⟨rfl, rfl⟩ := Prod.mk.inj (Except.ok.inj (sends.symm.trans done))
    rw [← Except.ok.inj (counts.symm.trans (countPrompt_controls counted)),
      effectiveReasoningEffort_some]
    exact explicit

end Agreement

theorem effort_agrees {codec : Codec} {path : MessagePath} {shadow : Option ReasoningShadowStore}
    {value : Value} {converted : ConvertedRequest}
    (accepted : convertRequestValue codec value = .ok converted)
    (family : ModelFamily.fromUpstreamModel (path.config.resolveModel converted.model) = .glm53)
    (strips : path.config.glm53.reasoning.stripHistoricalThinking = true) :
    EffortAgrees codec path shadow value ↔ ControlsAgree value := by
  obtain ⟨object, -, -, rfl, -⟩ := convertRequestValue_messages accepted
  obtain ⟨bound, given, sends⟩ := @anthropicPrompt_effort codec path shadow object converted
    accepted family
  have counts := @countedControls_eq path.config.glm53 object strips
  dsimp only at counts
  rw [given, Option.getD_some] at counts
  have usable : ControlsAgree (.object object) ↔ outputEffort (.object object) ≠ some "minimal" ∧
      ∀ asked, outputEffort (.object object) = some asked →
        (fromOutputEffort asked).isOk = true → ∀ thinking, Map.get "thinking" object = some thinking →
          (fromThinking thinking bound).isOk = true := by
    have same : (((Value.object object).get "max_tokens").bind Value.asU64).getD
        18446744073709551615 = bound := by
      change ((Map.get "max_tokens" object).bind Value.asU64).getD _ = bound
      rw [given, Option.getD_some]
    rw [← same]
    exact ⟨fun agree => ⟨agree.notMinimal, agree.usable⟩, fun agree => ⟨agree.1, agree.2⟩⟩
  rw [usable]
  cases effort : outputEffort (.object object) with
  | none =>
      rw [effort] at sends counts
      rw [Option.map_none] at sends
      refine iff_of_true ?_ (by simp)
      cases resolved : resolveReasoningPolicy (Map.get "thinking" object) none bound
        path.config.glm53.reasoning.defaultEffort path.config.glm53.reasoning.adaptiveEffort
        path.config.glm53.reasoning.exposeThinking with
      | error message =>
          rw [resolved] at sends counts
          exact effortAgrees_of_rejected counts sends
      | ok policy =>
          rw [resolved] at sends counts
          obtain ⟨sent, left, done, explicit⟩ := sends
          refine effortAgrees_of_accepted (counts.trans ?_) done explicit
          cases thinking : Map.get "thinking" object with
          | none => rfl
          | some value =>
              rw [thinking] at resolved
              have read := resolve_thinking resolved
              dsimp only
              cases level : fromThinking value bound with
              | error message =>
                  rw [level] at read
                  cases read
              | ok => rfl
  | some asked =>
      rw [effort] at sends counts
      rw [Option.map_some] at sends
      by_cases minimal : asked = "minimal"
      · subst minimal
        refine iff_of_false (fun agrees => ?_) (by simp)
        obtain ⟨policy, resolved, -⟩ := @resolve_supported (Map.get "thinking" object) bound
          path.config.glm53.reasoning.defaultEffort path.config.glm53.reasoning.adaptiveEffort
          path.config.glm53.reasoning.exposeThinking (openaiEffortToGlm "minimal") .low rfl
        rw [resolved] at sends
        obtain ⟨sent, left, done, -⟩ := sends
        exact not_rejected done (agrees.rejected.mp ⟨_, counts⟩)
      · have mapped := fromOutputEffort_alias minimal
        cases read : fromOutputEffort asked with
        | error message =>
            rw [read] at mapped
            rw [resolve_unsupported mapped] at sends
            rw [resolve_unsupported read] at counts
            refine iff_of_true (effortAgrees_of_rejected counts sends) ⟨by simpa using minimal, ?_⟩
            intro other same supported
            rw [← Option.some.inj same, read] at supported
            cases supported
        | ok chosen =>
            rw [read] at mapped
            obtain ⟨policy, resolved, picked⟩ := @resolve_supported (Map.get "thinking" object)
              bound path.config.glm53.reasoning.defaultEffort
              path.config.glm53.reasoning.adaptiveEffort
              path.config.glm53.reasoning.exposeThinking _ _ mapped
            obtain ⟨again, counted, pickedAgain⟩ := @resolve_supported (Map.get "thinking" object)
              bound path.config.glm53.reasoning.defaultEffort
              path.config.glm53.reasoning.adaptiveEffort
              path.config.glm53.reasoning.exposeThinking _ _ read
            rw [resolved] at sends
            rw [counted] at counts
            obtain ⟨sent, left, done, explicit⟩ := sends
            rw [picked] at explicit
            dsimp only at counts
            rw [pickedAgain] at counts
            cases thinking : Map.get "thinking" object with
            | none =>
                rw [thinking] at counts
                exact iff_of_true (effortAgrees_of_accepted counts done explicit)
                  ⟨by simpa using minimal, by simp⟩
            | some value =>
                rw [thinking] at counts
                dsimp only at counts
                cases usable : fromThinking value bound with
                | error message =>
                    rw [usable] at counts
                    refine iff_of_false (fun agrees => ?_) fun agree => ?_
                    · exact not_rejected done (agrees.rejected.mp ⟨_, counts⟩)
                    · have ok := agree.2 asked rfl (by rw [read]; rfl) value rfl
                      rw [usable] at ok
                      cases ok
                | ok level =>
                    rw [usable] at counts
                    refine iff_of_true (effortAgrees_of_accepted counts done explicit)
                      ⟨by simpa using minimal, fun other same supported given found => ?_⟩
                    rw [← Option.some.inj found, usable]
                    rfl

def effortRequest (effort : String) : Value :=
  .object [("model", .string "glm"), ("max_tokens", .ofNat 64),
    ("thinking", .object [("type", .string "adaptive")]),
    ("output_config", .object [("effort", .string effort)]),
    ("messages", .array [message "user" (.string "hello")])]

theorem effortRequest_accepted (effort : String) : ∃ converted,
    convertRequestValue plainCodec (effortRequest effort) = .ok converted ∧
      converted.model = "glm" := ⟨_, rfl, rfl⟩

theorem billedPath_glm :
    ModelFamily.fromUpstreamModel (billedPath.config.resolveModel "glm") = .glm53 := by
  decide +kernel

theorem effort_agrees_xhigh : EffortAgrees plainCodec billedPath none (effortRequest "xhigh") := by
  obtain ⟨converted, accepted, model⟩ := effortRequest_accepted "xhigh"
  refine (effort_agrees accepted (by rw [model]; exact billedPath_glm) rfl).mpr ⟨by decide, ?_⟩
  rintro asked - - thinking found
  obtain rfl := Option.some.inj found
  rfl

theorem effort_agrees_fails : ¬EffortAgrees plainCodec billedPath none (effortRequest "minimal") := by
  intro agrees
  obtain ⟨converted, accepted, model⟩ := effortRequest_accepted "minimal"
  obtain ⟨bound, given, sends⟩ := @anthropicPrompt_effort plainCodec billedPath none _ converted
    accepted (by rw [model]; exact billedPath_glm)
  obtain ⟨sent, left, done, -⟩ := sends
  exact not_rejected done (agrees.rejected.mp ⟨_, rfl⟩)

end ClineProxy
