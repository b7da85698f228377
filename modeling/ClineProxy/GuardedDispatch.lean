import ClineProxy.ChatTemplate
import ClineProxy.ContextGuard
import ClineProxy.JsonBytes

/-!
The Anthropic message path of `server.rs` through the context guard: what is sent upstream, and
what of it is known to fit the configured window.
-/

namespace ClineProxy

open Json

def conservativeTokensFromBytes (bytes : Nat) : UInt64 :=
  if bytes < UInt64.size then UInt64.ofNat bytes else 18446744073709551615

/-- A request on its way upstream, and the output that its summary counts on. -/
structure Dispatch where
  converted : ConvertedRequest
  upstreamBody : List UInt8
  effectiveMaxTokens : Option UInt64

def outputOf (body : Value) : Option UInt64 := (body.get "max_tokens").bind Value.asU64

def withMaxTokens (output : UInt64) (body : Value) : Value :=
  body.mapObject (Map.insert "max_tokens" (u64Value output))

/-- Upstream always streams; a client that does not gets the aggregate. -/
def asStreaming (converted : ConvertedRequest) : ConvertedRequest :=
  if converted.stream then converted
  else { converted with
    body := converted.body.mapObject fun object => (object.insert "stream" (.bool true)).insert
      "stream_options" (.object [("include_usage", .bool true)]) }

namespace MessagePath

variable (path : MessagePath) (codec : Codec)

def anthropicDispatch (shadow : Option ReasoningShadowStore) (input : Value) :
    Fallible (Dispatch × Option ReasoningShadowStore) := do
  let (converted, optimization, left) ← path.anthropicOptimized codec shadow input
  let streaming := asStreaming converted
  return (⟨streaming, textBytes (codec.toText streaming.body), optimization.effectiveMaxTokens⟩,
    left)

end MessagePath

/-! The guard -/

/-- How the gateway counts the tokens of a prompt. -/
structure TokenCounter (Refusal : Type) where
  exactInputTokens : Bool
  engine : Glm.JinjaEngine Refusal
  tokenizer : Glm.Tokenizer

section Guard

variable {Refusal : Type} (counter : TokenCounter Refusal) (codec : Codec)

def TokenCounter.countInputTokens (request : Value) : Option UInt64 :=
  match Glm.countInputTokens counter.engine codec counter.tokenizer request with
  | .ok tokens => some tokens.toUInt64
  | .error _ => none

def countOptimizedRequest (requestBytes : List UInt8) : Option UInt64 :=
  (codec.fromSlice requestBytes).bind (counter.countInputTokens codec)

def countOptimizedTokens (requestBytes : List UInt8) : Option UInt64 :=
  if counter.exactInputTokens then countOptimizedRequest counter codec requestBytes else none

def exceedsWindow (totalNeeded window : UInt64) : String :=
  "request exceeds the configured upstream context window (" ++ toString window ++
    " tokens; need about " ++ toString totalNeeded ++ ")"

def withReserved (reserved : UInt64) (dispatch : Dispatch) : Dispatch :=
  let body := withMaxTokens reserved dispatch.converted.body
  { converted := { dispatch.converted with body := body }
    upstreamBody := textBytes (codec.toText body)
    effectiveMaxTokens := some reserved }

def guardWithin (limits : ContextLimits) (dispatch : Dispatch) : Fallible Dispatch :=
  let requestedOut := dispatch.effectiveMaxTokens.getD 0
  let estimate := conservativeTokensFromBytes dispatch.upstreamBody.length
  if wellBelowWindow estimate limits requestedOut then .ok dispatch
  else
    match countOptimizedTokens counter codec dispatch.upstreamBody with
    | none => .ok dispatch
    | some count =>
        match evaluate count requestedOut limits with
        | .allow _ _ _ => .ok dispatch
        | .reduceOutput reserved _ _ _ => .ok (withReserved codec reserved dispatch)
        | .rejectInput totalNeeded window => reject (exceedsWindow totalNeeded window)

/-- The guard does nothing unless a window is configured. -/
def guardContext (context : Glm53ContextConfig) (dispatch : Dispatch) : Fallible Dispatch :=
  match context.upstreamContextWindowTokens with
  | none => .ok dispatch
  | some window => guardWithin counter codec (context.limits window) dispatch

end Guard

/-- The bytes of a prompt alone leave three quarters of the window. -/
def Dispatch.WellBelow (limits : ContextLimits) (dispatch : Dispatch) : Prop :=
  4 * (dispatch.upstreamBody.length + (dispatch.effectiveMaxTokens.getD 0).toNat +
    limits.safetyMarginTokens.toNat) < limits.windowTokens.toNat

theorem wellBelow_iff (limits : ContextLimits) (dispatch : Dispatch) :
    wellBelowWindow (conservativeTokensFromBytes dispatch.upstreamBody.length) limits
      (dispatch.effectiveMaxTokens.getD 0) = true ↔ dispatch.WellBelow limits := by
  have top := limits.windowTokens.toNat_lt
  have four : (4 : UInt64).toNat = 4 := rfl
  rw [Dispatch.WellBelow, wellBelowWindow, decide_eq_true_eq, UInt64.lt_iff_toNat_lt,
    Saturating.toNat_mul, Saturating.toNat_add, Saturating.toNat_add, four,
    conservativeTokensFromBytes]
  split
  next fits =>
    rw [UInt64.toNat_ofNat_of_lt' fits]
    omega
  next past =>
    have size : UInt64.size = 18446744073709551616 := rfl
    have most : (18446744073709551615 : UInt64).toNat = 18446744073709551615 := rfl
    rw [most]
    omega

/-- No member of the prompt steers how its tokens are counted, and it has its output. -/
structure Prepared (codec : Codec) (requested : UInt64) (prompt : Dispatch) : Prop where
  written : prompt.upstreamBody = textBytes (codec.toText prompt.converted.body)
  planned : prompt.effectiveMaxTokens = some requested
  asked : prompt.converted.body = withMaxTokens requested prompt.converted.body
  object : prompt.converted.body.isObject = true
  thinking : prompt.converted.body.get "thinking" = none
  outputConfig : prompt.converted.body.get "output_config" = none

theorem outputOf_withMaxTokens {body : Value} (object : body.isObject = true)
    (output : UInt64) : outputOf (withMaxTokens output body) = some output := by
  cases body with
  | object fields =>
      have held := Map.get_insert "max_tokens" "max_tokens" (u64Value output) fields
      rw [if_pos rfl] at held
      exact congrArg (Option.bind · Value.asU64) held
  | null | bool | number | string | array => cases object

theorem get_asStreaming {converted : ConvertedRequest} {key : String} (notStream : key ≠ "stream")
    (notOptions : key ≠ "stream_options") :
    (asStreaming converted).body.get key = converted.body.get key := by
  rw [asStreaming]
  split
  next => rfl
  next =>
    cases converted.body with
    | object fields =>
        exact (Map.get_insert _ _ _ _).trans ((if_neg notOptions).trans
          ((Map.get_insert _ _ _ fields).trans (if_neg notStream)))
    | null | bool | number | string | array => rfl

theorem isObject_asStreaming (converted : ConvertedRequest) :
    (asStreaming converted).body.isObject = converted.body.isObject := by
  rw [asStreaming]
  split
  next => rfl
  next => cases converted.body <;> rfl

section Path

variable {path : MessagePath} {codec : Codec} {shadow left : Option ReasoningShadowStore}
  {input : Value} {converted : ConvertedRequest} {optimization : RequestOptimization}

theorem convertRequestValue_get {requested : ConvertedRequest} {key : String}
    (accepted : convertRequestValue codec input = .ok requested) (setting : key ∉ settingFields)
    (head : key ∉ ["model", "max_tokens", "stream", "messages"]) :
    requested.body.get key = none := by
  obtain ⟨object, -, done⟩ := bind_eq_ok.mp accepted
  obtain ⟨model, -, done⟩ := bind_eq_ok.mp done
  obtain ⟨maxTokens, -, done⟩ := bind_eq_ok.mp done
  obtain ⟨stream, -, done⟩ := bind_eq_ok.mp done
  obtain ⟨system, -, done⟩ := bind_eq_ok.mp done
  obtain ⟨inputs, -, done⟩ := bind_eq_ok.mp done
  obtain ⟨messages, -, done⟩ := bind_eq_ok.mp done
  obtain ⟨⟨output, serverTools⟩, settings, done⟩ := bind_eq_ok.mp done
  cases done
  have absent := copySettings_get setting settings
  simp only [List.mem_cons, List.not_mem_nil, or_false, not_or] at head
  refine Eq.trans absent ?_
  simp [Map.get, OrderedMap.lookup, head]

def MessagePath.normalizedMessages (path : MessagePath) (messages : Value) : Value :=
  if path.config.glm53.context.stripVolatileBillingHeader then
    messages.mapArray (List.map normalizeSystemMessage)
  else messages

/-- The stages of the path around the request policy change messages only. -/
theorem anthropicOptimized_stages
    (accepted : path.anthropicOptimized codec shadow input = .ok (converted, optimization, left)) :
    ∃ (requested : ConvertedRequest) (fields restored optimized : Map),
      convertRequestValue codec input = .ok requested ∧
      fields.get "messages" = (requested.body.get "messages").map path.normalizedMessages ∧
      (path.restoreShadow requested.thinking ((sessionRawId input).map path.fingerprint) shadow
        (.object fields)).1 = .object restored ∧ restored.Distinct ∧
      restored.get "model" = some (.string converted.model) ∧
      (∀ key, key ≠ "messages" → key ≠ "model" → restored.get key = requested.body.get key) ∧
      optimizeRequest path.config.glm53 (.anthropic requested.thinking requested.outputEffort)
        (.object restored) = .ok (.object optimized, optimization) ∧
      converted.body = .object (if path.config.glm53.context.canonicalToolJson then
        canonicalizeToolArguments codec optimized else optimized) := by
  unfold MessagePath.anthropicOptimized at accepted
  obtain ⟨requested, made, accepted⟩ := bind_eq_ok.mp accepted
  obtain ⟨object, system, messages, rfl, -, -, -, -⟩ := convertRequestValue_messages made
  obtain ⟨bound, output, -, body, distinct, -, -, -⟩ := convertRequestValue_object made
  have normalized : ∃ fields : Map, (if path.config.glm53.context.stripVolatileBillingHeader then
        normalizeSystemMessages (MessagePath.applyModel requested
          (path.config.resolveModel requested.model)).body
      else (MessagePath.applyModel requested (path.config.resolveModel requested.model)).body) =
        .object fields ∧ fields.Distinct ∧
      fields.get "messages" = (output.get "messages").map path.normalizedMessages ∧
      ∀ key, key ≠ "messages" → fields.get key =
        (output.insert "model" (.string (path.config.resolveModel requested.model))).get key := by
    have named := distinct.insert "model"
      (.string (path.config.resolveModel requested.model))
    have messages : (output.insert "model"
        (.string (path.config.resolveModel requested.model))).get "messages" =
          output.get "messages" := by rw [Map.get_insert, if_neg (by decide)]
    rw [MessagePath.applyModel, body]
    unfold MessagePath.normalizedMessages
    split
    next =>
      refine ⟨_, rfl, named.update _ _, ?_, fun key other => ?_⟩
      · rw [Map.get_update, if_pos rfl, messages]
      · rw [Map.get_update, if_neg other]
    next => exact ⟨_, rfl, named, by simp [messages], fun _ _ => rfl⟩
  obtain ⟨fields, isObject, whole, messages, kept⟩ := normalized
  obtain ⟨restored, restores, distinctRestored, same⟩ := @restoreShadow_object path shadow fields
    requested.thinking ((sessionRawId (.object object)).map path.fingerprint) whole
  dsimp only at accepted
  rw [isObject, MessagePath.applyModel, restores] at accepted
  split at accepted
  next => cases accepted
  next optimizedValue done optimizes =>
    have shape : ∃ optimized, optimizedValue = .object optimized := by
      rw [optimizeRequest] at optimizes
      simp only [Value.asObject_object] at optimizes
      split at optimizes
      next =>
        obtain ⟨pair, -, same⟩ := map_eq_ok.mp optimizes
        cases same
        exact ⟨_, rfl⟩
      next =>
        cases optimizes
        exact ⟨_, rfl⟩
    obtain ⟨optimized, rfl⟩ := shape
    cases accepted
    refine ⟨requested, fields, restored, optimized, made, ?_, restores, distinctRestored, ?_, ?_,
      optimizes, ?_⟩
    · rw [messages, body]
      rfl
    · rw [same _ (by decide), kept _ (by decide), Map.get_insert, if_pos rfl]
    · intro key notMessages notModel
      rw [same _ notMessages, kept _ notMessages, Map.get_insert, if_neg notModel, body]
      rfl
    · dsimp only
      split <;> rfl

def pathFields : List String :=
  ["model", "max_tokens", "stream", "messages", "metadata", "max_completion_tokens",
    "reasoning_effort", "stream_options"]

section Family

variable {prompt : Dispatch}
  (accepted : path.anthropicDispatch codec shadow input = .ok (prompt, left))
  (family : ModelFamily.fromUpstreamModel prompt.converted.model = .glm53)
include accepted family

theorem anthropicDispatch_policy : ∃ (requested : ConvertedRequest) (restored : Map)
      (effort : GlmReasoningEffort), convertRequestValue codec input = .ok requested ∧
    restored.Distinct ∧ prompt.converted.body.isObject = true ∧
    prompt.upstreamBody = textBytes (codec.toText prompt.converted.body) ∧
    prompt.effectiveMaxTokens = some ((clientMaxTokens restored).elim
      path.config.glm53.maxOutputTokens.toUInt64 fun client =>
        min client path.config.glm53.maxOutputTokens.toUInt64) ∧
    restored.get "model" = some (.string prompt.converted.model) ∧
    (∀ key, key ≠ "messages" → key ≠ "model" → restored.get key = requested.body.get key) ∧
    ∀ key, key ∉ ["messages", "stream", "stream_options"] → prompt.converted.body.get key =
      (policyBody path.config.glm53 (.anthropic requested.thinking requested.outputEffort)
        effort restored).get key := by
  obtain ⟨⟨converted, optimization, _⟩, optimizes, done⟩ := bind_eq_ok.mp accepted
  cases done
  obtain ⟨requested, fields, restored, optimized, made, -, -, distinct, model, kept, policy, body⟩ :=
    anthropicOptimized_stages optimizes
  have named : (asStreaming converted).model = converted.model := by
    rw [asStreaming]
    split <;> rfl
  have glm : IsGlm restored := by
    rw [IsGlm, model]
    exact named ▸ family
  rw [optimizeRequest_glm glm, optimizeGlm_eq] at policy
  obtain ⟨⟨sent, _⟩, policy, same⟩ := map_eq_ok.mp policy
  obtain ⟨resolved, -, policy⟩ := map_eq_ok.mp policy
  cases policy
  cases same
  refine ⟨requested, restored, resolved.effort, made, distinct, ?_, rfl, rfl, ?_, kept, ?_⟩
  · rw [isObject_asStreaming, body]
    rfl
  · exact named.symm ▸ model
  · intro key other
    simp only [List.mem_cons, List.not_mem_nil, or_false, not_or] at other
    obtain ⟨notMessages, notStream, notOptions⟩ := other
    rw [get_asStreaming notStream notOptions, body, Value.get_object]
    split
    next => exact (Map.get_update _ _ _ _).trans (if_neg notMessages)
    next => rfl

theorem anthropicDispatch_get {key : String} (other : key ∉ pathFields) :
    ∃ requested, convertRequestValue codec input = .ok requested ∧
      prompt.converted.body.get key = requested.body.get key := by
  obtain ⟨requested, restored, effort, made, distinct, -, -, -, -, kept, members⟩ :=
    anthropicDispatch_policy accepted family
  simp only [pathFields, List.mem_cons, List.not_mem_nil, or_false, not_or] at other
  obtain ⟨notModel, notBound, notStream, notMessages, notMetadata, notOther, notEffort,
    notOptions⟩ := other
  refine ⟨requested, made, ?_⟩
  rw [members key (by simp [notMessages, notStream, notOptions]),
    get_policyBody distinct _ notMetadata, if_neg (fun both => notMessages both.1),
    if_neg notBound, if_neg (fun both => notOther both.1), if_neg notEffort,
    kept key notMessages notModel]

theorem anthropicDispatch_absent {key : String} (other : key ∉ pathFields)
    (setting : key ∉ settingFields) : prompt.converted.body.get key = none := by
  obtain ⟨requested, made, same⟩ := anthropicDispatch_get accepted family other
  simp only [pathFields, List.mem_cons, List.not_mem_nil, or_false, not_or] at other
  rw [same]
  exact convertRequestValue_get made setting (by simp [other])

theorem anthropicDispatch_prepared : ∃ requested, Prepared codec requested prompt := by
  obtain ⟨requested, restored, effort, made, distinct, object, written, planned, -, -, members⟩ :=
    anthropicDispatch_policy accepted family
  have bound := members "max_tokens" (by decide)
  rw [get_policyBody distinct _ (by decide)] at bound
  simp only [String.reduceEq, false_and, if_false, if_true] at bound
  refine ⟨_, written, planned, ?_, object, anthropicDispatch_absent accepted family (by decide)
    (by decide), anthropicDispatch_absent accepted family (by decide) (by decide)⟩
  cases shape : prompt.converted.body with
  | object fields =>
      rw [shape] at bound
      exact congrArg Value.object ((Map.insert_eq_self bound).mpr rfl).symm
  | null | bool | number | string | array => rfl

end Family

end Path

section Prompt

variable {Refusal : Type} {counter : TokenCounter Refusal} {codec : Codec}
  {limits : ContextLimits} {requested : UInt64} {prompt : Dispatch}

/-- The output that a body without controls asks for is not counted. -/
theorem countInputTokens_withMaxTokens {body : Value} (thinking : body.get "thinking" = none)
    (config : body.get "output_config" = none) (output : UInt64) :
    counter.countInputTokens codec (withMaxTokens output body) =
      counter.countInputTokens codec body := by
  have converts : Glm.convertAnthropicToGlm (withMaxTokens output body) =
      Glm.convertAnthropicToGlm body := by
    cases body with
    | object fields =>
        have kept (key : String) (other : key ≠ "max_tokens") :
            (Map.insert "max_tokens" (u64Value output) fields).get key = Map.get key fields :=
          (Map.get_insert _ _ _ fields).trans (if_neg other)
        have effort : Glm.convertEffort (Map.insert "max_tokens" (u64Value output) fields) =
            Glm.convertEffort fields := by
          have noThinking : Map.get "thinking" fields = none := thinking
          have noConfig : Map.get "output_config" fields = none := config
          simp only [Glm.convertEffort, kept "thinking" (by decide),
            kept "output_config" (by decide), noThinking, noConfig]
        simp only [withMaxTokens, Value.mapObject, Glm.convertAnthropicToGlm, orReject,
          Value.asObject_object, bind, Except.bind, requiredString, Glm.convertSystemMember,
          kept "model" (by decide), kept "messages" (by decide), kept "system" (by decide),
          kept "tools" (by decide), effort]
    | null | bool | number | string | array => rfl
  rw [TokenCounter.countInputTokens, TokenCounter.countInputTokens, Glm.countInputTokens,
    Glm.countInputTokens, Glm.countedPrompt, Glm.countedPrompt, converts]

/-- What is sent of a prompt within the limits. -/
structure SentWithin (counter : TokenCounter Refusal) (codec : Codec) (limits : ContextLimits)
    (requested reserved : UInt64) (prompt sent : Dispatch) : Prop where
  /-- Nothing but the output is changed. -/
  body : sent.converted.body = withMaxTokens reserved prompt.converted.body
  written : sent.upstreamBody = textBytes (codec.toText sent.converted.body)
  output : outputOf sent.converted.body = some reserved
  planned : sent.effectiveMaxTokens = some reserved
  capped : reserved ≤ requested
  /-- What is counted of the body that is sent is what was counted before. -/
  counted : counter.countInputTokens codec sent.converted.body =
    counter.countInputTokens codec prompt.converted.body
  fits : ∀ count, counter.countInputTokens codec sent.converted.body = some count →
    prompt.WellBelow limits ∨
      count.toNat + reserved.toNat + limits.safetyMarginTokens.toNat ≤ limits.windowTokens.toNat ∧
        min requested.toNat limits.minOutputTokens.toNat ≤ reserved.toNat

theorem reserved_of_allow {input reserved budget headroom : UInt64}
    (decided : evaluate input requested limits = .allow reserved budget headroom) :
    reserved = requested := by
  rw [evaluate] at decided
  split at decided
  next => cases decided
  next =>
    split at decided
    next =>
      cases decided
      rfl
    next => cases decided

/-- The guard rejects a prompt just when its tokens leave less than the least output. -/
structure GuardsPrompt (counter : TokenCounter Refusal) (codec : Codec) (limits : ContextLimits)
    (requested : UInt64) (prompt : Dispatch) (outcome : Fallible Dispatch) : Prop where
  rejects : (∃ abort, outcome = .error abort) ↔ ¬prompt.WellBelow limits ∧
    ∃ count, counter.countInputTokens codec prompt.converted.body = some count ∧
      limits.remaining count < limits.minOutputTokens.toNat
  sends : ∀ sent, outcome = .ok sent →
    ∃ reserved, SentWithin counter codec limits requested reserved prompt sent

theorem Prepared.unchanged (prepared : Prepared codec requested prompt)
    (fits : ∀ count, counter.countInputTokens codec prompt.converted.body = some count →
      prompt.WellBelow limits ∨
        count.toNat + requested.toNat + limits.safetyMarginTokens.toNat ≤
          limits.windowTokens.toNat) :
    SentWithin counter codec limits requested requested prompt prompt where
  body := prepared.asked
  written := prepared.written
  output := by
    rw [prepared.asked]
    exact outputOf_withMaxTokens prepared.object requested
  planned := prepared.planned
  capped := UInt64.le_refl _
  counted := rfl
  fits := fun count counted => (fits count counted).imp id fun room => ⟨room, Nat.min_le_left _ _⟩

theorem guardWithin_prompt (valid : limits.Valid) (prepared : Prepared codec requested prompt)
    (counting : counter.exactInputTokens = true)
    (readBack : codec.fromSlice prompt.upstreamBody = some prompt.converted.body) :
    GuardsPrompt counter codec limits requested prompt
      (guardWithin counter codec limits prompt) := by
  have counts : countOptimizedTokens counter codec prompt.upstreamBody =
      counter.countInputTokens codec prompt.converted.body := by
    rw [countOptimizedTokens, if_pos counting, countOptimizedRequest, readBack, Option.bind_some]
  have below := wellBelow_iff limits prompt
  unfold guardWithin
  rw [counts, prepared.planned, Option.getD_some] at *
  dsimp only
  split
  next small =>
    have small := below.mp small
    refine ⟨iff_of_false (by simp) (fun both => both.1 small), fun sent same => ?_⟩
    cases same
    exact ⟨requested, prepared.unchanged fun _ _ => .inl small⟩
  next large =>
    have large := fun held => large (below.mpr held)
    cases counted : counter.countInputTokens codec prompt.converted.body with
    | none =>
        refine ⟨iff_of_false (by simp) (by simp [counted]), fun sent same => ?_⟩
        cases same
        refine ⟨requested, prepared.unchanged fun count found => ?_⟩
        rw [counted] at found
        cases found
    | some count =>
        dsimp only
        have few := @reserved_none limits count requested valid
        have fits {reserved : UInt64} := @reserved_fits limits count requested valid reserved
        cases decided : evaluate count requested limits with
        | allow reserved budget headroom =>
            rw [decided] at few fits
            obtain rfl := reserved_of_allow decided
            refine ⟨iff_of_false (by simp) ?_, fun sent same => ?_⟩
            · rintro ⟨-, held, found, less⟩
              cases counted.symm.trans found
              cases few.mpr less
            · cases same
              refine ⟨reserved, prepared.unchanged fun held found => .inr ?_⟩
              cases counted.symm.trans found
              exact (fits rfl).1
        | reduceOutput reserved budget headroom asked =>
            rw [decided] at few fits
            obtain ⟨room, capped, least⟩ := fits rfl
            refine ⟨iff_of_false (by simp) ?_, fun sent same => ?_⟩
            · rintro ⟨-, held, found, less⟩
              cases counted.symm.trans found
              cases few.mpr less
            · cases same
              have again := @countInputTokens_withMaxTokens _ counter codec _ prepared.thinking
                prepared.outputConfig reserved
              refine ⟨reserved, rfl, rfl, outputOf_withMaxTokens prepared.object reserved, rfl,
                capped, again, fun held found => .inr ?_⟩
              cases (counted.symm.trans again.symm).trans found
              exact ⟨room, least⟩
        | rejectInput needed window =>
            rw [decided] at few
            refine ⟨iff_of_true ⟨_, rfl⟩ ⟨large, count, counted, few.mp rfl⟩, fun sent same => ?_⟩
            cases same

end Prompt

/-- Once a window is configured, the body that the message path sends fits it behind the margin,
as far as its tokens can be counted, and a prompt is rejected only where nothing would fit. -/
theorem guarded_prompt {Refusal : Type} (counter : TokenCounter Refusal) {path : MessagePath}
    {codec : Codec} {shadow left : Option ReasoningShadowStore} {input : Value}
    {prompt : Dispatch} {window : UInt64}
    (accepted : path.anthropicDispatch codec shadow input = .ok (prompt, left))
    (family : ModelFamily.fromUpstreamModel prompt.converted.model = .glm53)
    (valid : path.config.glm53.validate = .ok ())
    (configured : path.config.glm53.context.upstreamContextWindowTokens = some window)
    (counting : counter.exactInputTokens = true)
    (readBack : codec.fromSlice prompt.upstreamBody = some prompt.converted.body) :
    ∃ requested, outputOf prompt.converted.body = some requested ∧
      GuardsPrompt counter codec (path.config.glm53.context.limits window) requested prompt
        (guardContext counter codec path.config.glm53.context prompt) := by
  obtain ⟨requested, prepared⟩ := anthropicDispatch_prepared accepted family
  refine ⟨requested, ?_, ?_⟩
  · rw [prepared.asked]
    exact outputOf_withMaxTokens prepared.object requested
  · rw [guardContext, configured]
    exact guardWithin_prompt (validate_limits valid configured) prepared counting readBack

def guardedPath : MessagePath where
  config := { plainConfig true with
    glm53 := { (plainConfig true).glm53 with context := ⟨true, true, true, some 400, 16, 8⟩ } }
  shadowCurrentTurn := false
  fingerprint := id
  hash := fun _ => 0
  clock := fun _ => 0

def guardedRequest : Value :=
  .object [("model", .string "glm"), ("max_tokens", .ofNat 1000),
    ("messages", .array [message "user" (.string "Compare a.txt and b.txt")])]

def guardedBody (maxTokens : Nat) : Value :=
  .object [("model", .string "z-ai/glm-5.3-flash"), ("max_tokens", .ofNat maxTokens),
    ("stream", .bool true),
    ("messages", .array [message "user" (.string "Compare a.txt and b.txt")]),
    ("reasoning_effort", .string "high"),
    ("stream_options", .object [("include_usage", .bool true)])]

def characterCounter : TokenCounter String :=
  ⟨true, Glm.pythonEngine, .ok fun text => .ok (text.toList.map fun character => character.val)⟩

def guardedPrompt : Option Dispatch :=
  (guardedPath.anthropicDispatch (documentCodec [guardedBody 1000]) none
    guardedRequest).toOption.map Prod.fst

example : guardedPrompt.bind (fun prompt => (guardContext characterCounter
    (documentCodec [guardedBody 1000]) guardedPath.config.glm53.context prompt).toOption.map
      fun sent => (sent.converted.body, sent.effectiveMaxTokens)) =
    some (guardedBody 290, some 290) := by decide +kernel

theorem guarded_prompt_reduced : ∃ prompt left requested,
    guardedPath.anthropicDispatch (documentCodec [guardedBody 1000]) none guardedRequest =
      .ok (prompt, left) ∧ outputOf prompt.converted.body = some requested ∧
    GuardsPrompt characterCounter (documentCodec [guardedBody 1000])
      (guardedPath.config.glm53.context.limits 400) requested prompt
      (guardContext characterCounter (documentCodec [guardedBody 1000])
        guardedPath.config.glm53.context prompt) := by
  have made : ∃ prompt left, guardedPath.anthropicDispatch (documentCodec [guardedBody 1000])
      none guardedRequest = .ok (prompt, left) := ⟨_, _, rfl⟩
  obtain ⟨prompt, left, accepted⟩ := made
  have shape : guardedPrompt = some prompt := by rw [guardedPrompt, accepted]; rfl
  have checked : guardedPrompt.map (fun prompt =>
      decide (ModelFamily.fromUpstreamModel prompt.converted.model = .glm53 ∧
        prompt.converted.body = guardedBody 1000)) = some true := by decide +kernel
  rw [shape] at checked
  have checked := of_decide_eq_true (Option.some.inj checked)
  have readBack : (documentCodec [guardedBody 1000]).fromSlice prompt.upstreamBody =
      some prompt.converted.body := by
    obtain ⟨_, prepared⟩ := anthropicDispatch_prepared accepted checked.1
    rw [prepared.written, checked.2]
    exact documentCodec_reads (by decide +kernel)
  obtain ⟨requested, guarded⟩ := guarded_prompt characterCounter accepted checked.1 rfl rfl rfl
    readBack
  exact ⟨prompt, left, requested, accepted, guarded⟩

end ClineProxy
