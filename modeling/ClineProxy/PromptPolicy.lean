import ClineProxy.AnthropicRequest
import ClineProxy.Positions

/-!
The request policy of `optimize.rs`, with the reasoning policy of `glm53/reasoning.rs`. The
byte counts of the telemetry are left out.
-/

namespace ClineProxy

open Json Text

def role (message : Value) : Option String := (message.get "role").bind Value.asStr

inductive ModelFamily where
  | glm53
  | genericOpenAi
  deriving DecidableEq

def isGlmSegment (segment : List Char) : Bool :=
  let lower := toAsciiLowercase segment
  let rest := (stripPrefix "glm".toList lower).getD
    (if lower = "glm".toList then [] else "\x00not-a-match".toList)
  rest.isEmpty || (rest.head?.map isAsciiDigit).getD false

def ModelFamily.fromUpstreamModel (model : String) : ModelFamily :=
  let id := ((Text.split (· == '/') model.toList).getLast?).getD model.toList
  let separator := fun character => character == '-' || character == '_' || character == '.' ||
    character == '+'
  if (Text.split separator id).any isGlmSegment then .glm53 else .genericOpenAi

example : (ModelFamily.fromUpstreamModel "z-ai/glm-5.3-flash",
    ModelFamily.fromUpstreamModel "x/GLM47", ModelFamily.fromUpstreamModel "glm/gpt",
    ModelFamily.fromUpstreamModel "glmx") =
    (.glm53, .glm53, .genericOpenAi, .genericOpenAi) := by decide +kernel

inductive GlmReasoningEffort where
  | low
  | high
  | max
  deriving DecidableEq

def GlmReasoningEffort.asStr : GlmReasoningEffort → String
  | .low => "low"
  | .high => "high"
  | .max => "max"

inductive ThinkingExposure where
  | requestedOnly
  | always
  | never
  deriving DecidableEq

structure ReasoningPolicy where
  effort : GlmReasoningEffort
  exposeThinking : Bool

structure Glm53ReasoningConfig where
  defaultEffort : GlmReasoningEffort
  adaptiveEffort : GlmReasoningEffort
  stripHistoricalThinking : Bool
  exposeThinking : ThinkingExposure

structure Glm53ContextConfig where
  safeCompaction : Bool
  stripVolatileBillingHeader : Bool
  canonicalToolJson : Bool
  upstreamContextWindowTokens : Option UInt64
  contextSafetyMarginTokens : UInt64
  minOutputTokens : UInt32

structure Glm53Config where
  reasoning : Glm53ReasoningConfig
  maxOutputTokens : UInt32
  context : Glm53ContextConfig

/-! The reasoning policy -/

def lowBudgetLimit : UInt64 := 8192

def thinkingBudget (object : Map) : Except String UInt64 :=
  match ((object.get "budget_tokens").bind Value.asU64).filter fun value => 0 < value with
  | some budget => .ok budget
  | none => .error "thinking budget_tokens must be positive"

def fromThinking (value : Value) (maxTokens : UInt64) :
    Except String (Option GlmReasoningEffort) :=
  match value.asObject with
  | none => .error "thinking must be an object"
  | some object =>
      match (object.get "type").bind Value.asStr with
      | none => .error "thinking.type must be a string"
      | some "disabled" => .ok (some .low)
      | some "adaptive" => .ok (some .high)
      | some "enabled" => do
          let budget ← thinkingBudget object
          if maxTokens ≤ budget then .error "thinking budget_tokens must be less than max_tokens"
          else return some (if budget < lowBudgetLimit then .low else .high)
      | some other => .error ("unsupported thinking type " ++ quoteDebug other)

def fromOutputEffort (effort : String) : Except String GlmReasoningEffort :=
  match effort with
  | "low" => .ok .low
  | "medium" | "high" | "xhigh" => .ok .high
  | "max" => .ok .max
  | other => .error ("unsupported output_config.effort " ++ quoteDebug other)

def thinkingType (thinking : Option Value) : Option String :=
  (thinking.bind fun value => value.get "type").bind Value.asStr

def resolveEffort (thinking : Option Value) (outputEffort : Option String) (maxTokens : UInt64)
    (defaultEffort adaptiveEffort : GlmReasoningEffort) :
    Except String (Option GlmReasoningEffort) :=
  match outputEffort, thinking with
  | some effort, _ => (fromOutputEffort effort).map some
  | none, some value => do
      let effort ← fromThinking value maxTokens
      return if effort = some .high ∧ thinkingType (some value) = some "adaptive" then
        some adaptiveEffort
      else effort
  | none, none => .ok (some defaultEffort)

def resolveReasoningPolicy (thinking : Option Value) (outputEffort : Option String)
    (maxTokens : UInt64) (defaultEffort adaptiveEffort : GlmReasoningEffort)
    (exposure : ThinkingExposure) : Except String ReasoningPolicy := do
  let effort ← resolveEffort thinking outputEffort maxTokens defaultEffort adaptiveEffort
  return {
    effort := effort.getD defaultEffort
    exposeThinking := match exposure with
      | .always => true
      | .never => false
      | .requestedOnly =>
          thinkingType thinking == some "enabled" || thinkingType thinking == some "adaptive" }

def isEmptyText (block : Value) : Bool :=
  (block.get "type").bind Value.asStr == some "text" &&
    (block.get "text").bind Value.asStr == some ""

def plainBlockText (block : Value) : Option String :=
  if (block.get "type").bind Value.asStr = some "text" then (block.get "text").bind Value.asStr
  else none

def compactBlocks (blocks : List Value) : Value :=
  match blocks.filter fun block => !isEmptyText block with
  | [] => .string ""
  | [block] =>
      match plainBlockText block with
      | some text => .string text
      | none => .array [block]
  | kept => .array kept

def compactContent (object : Map) : Map :=
  match object.get "content" with
  | some (.array blocks) => object.insert "content" (compactBlocks blocks)
  | _ => object

def optimizeMessage (glm : Glm53Config) (epochBoundary index : Nat) (message : Value) : Value :=
  message.mapObject fun object =>
    let stripped :=
      if glm.reasoning.stripHistoricalThinking && role message == some "assistant" &&
        decide (index < epochBoundary) then object.remove "reasoning_content"
      else object
    if glm.context.safeCompaction then compactContent stripped else stripped

def isUser (message : Value) : Bool := role message == some "user"

def epochBoundary (messages : List Value) : Nat :=
  (Positions.rposition isUser messages).getD messages.length

def optimizeMessages (glm : Glm53Config) (messages : List Value) : List Value :=
  messages.mapIdx (optimizeMessage glm (epochBoundary messages))

/-! Thinking in Anthropic requests -/

def isThinking (block : Value) : Bool := (block.get "type").bind Value.asStr == some "thinking"

def isToolResult (block : Value) : Bool := (block.get "type").bind Value.asStr == some "tool_result"

def hasHumanContent (message : Value) : Bool :=
  match message.get "content" with
  | some (.string text) => !text.isEmpty
  | some (.array blocks) => blocks.any fun block => !isToolResult block
  | _ => false

def isHumanTurn (message : Value) : Bool := isUser message && hasHumanContent message

def reasoningEpochBoundary (messages : List Value) : Nat :=
  (Positions.rposition isHumanTurn messages).getD messages.length

def stripThinkingMessage (epochBoundary index : Nat) (message : Value) : Value :=
  if index < epochBoundary ∧ role message = some "assistant" then
    message.update "content" (Value.mapArray (List.filter fun block => !isThinking block))
  else message

def stripThinkingMessages (messages : List Value) : List Value :=
  messages.mapIdx (stripThinkingMessage (reasoningEpochBoundary messages))

def stripAnthropicThinking (request : Value) : Value :=
  request.update "messages" (Value.mapArray stripThinkingMessages)

inductive Origin where
  | anthropic (thinking : Option Value) (outputEffort : Option String)
  | openAi

structure RequestOptimization where
  modelFamily : ModelFamily
  reasoningEffort : String
  exposeThinking : Bool
  clientMaxTokens : Option UInt64
  effectiveMaxTokens : Option UInt64

def openaiEffortToGlm (effort : String) : String :=
  match effort with
  | "minimal" | "low" => "low"
  | "medium" | "high" | "xhigh" => "high"
  | other => other

def optimizeGeneric (object : Map) : Map × RequestOptimization :=
  (object, ⟨.genericOpenAi, "", false, none, none⟩)

def clientMaxTokens (object : Map) : Option UInt64 :=
  ((object.get "max_tokens").bind Value.asU64).or
    ((object.get "max_completion_tokens").bind Value.asU64)

def Origin.controls (object : Map) : Origin → Option Value × Option String
  | .anthropic thinking outputEffort => (thinking, outputEffort)
  | .openAi => (none, (object.get "reasoning_effort").bind Value.asStr)

def u64Value (value : UInt64) : Value := .number (.posInt value)

def capOutput (cap : UInt64) (maxTokens : Option UInt64) (object : Map) : Map :=
  match maxTokens with
  | some client =>
      -- the client's bound is known here, so `max_completion_tokens` is never written back
      let effective := u64Value (min client cap)
      (object.remove "max_completion_tokens").insert "max_tokens" effective
  | none => object.insert "max_tokens" (u64Value cap)

def stripAndCompact (glm : Glm53Config) (object : Map) : Map :=
  if glm.reasoning.stripHistoricalThinking || glm.context.safeCompaction then
    object.update "messages" (Value.mapArray (optimizeMessages glm))
  else object

def Origin.dropsMetadata (glm : Glm53Config) : Origin → Bool
  | .anthropic .. => glm.context.safeCompaction
  | .openAi => false

def optimizeGlm (glm : Glm53Config) (origin : Origin) (object : Map) :
    Except String (Map × RequestOptimization) := do
  let maxTokens := clientMaxTokens object
  let (thinking, outputEffort) := origin.controls object
  let policy ← resolveReasoningPolicy thinking (outputEffort.map openaiEffortToGlm)
    (maxTokens.getD 18446744073709551615) glm.reasoning.defaultEffort glm.reasoning.adaptiveEffort
    glm.reasoning.exposeThinking
  let cap := glm.maxOutputTokens.toUInt64
  let explicit := object.insert "reasoning_effort" (.string policy.effort.asStr)
  let compacted := stripAndCompact glm (capOutput cap maxTokens explicit)
  return (if origin.dropsMetadata glm then compacted.remove "metadata" else compacted,
    ⟨.glm53, policy.effort.asStr, policy.exposeThinking, maxTokens,
      some (maxTokens.elim cap fun client => min client cap)⟩)

def optimizeRequest (glm : Glm53Config) (origin : Origin) (body : Value) :
    Except String (Value × RequestOptimization) :=
  match body.asObject with
  | none => .error "request body must be a JSON object"
  | some object =>
      let upstreamModel := ((object.get "model").bind Value.asStr).getD ""
      match ModelFamily.fromUpstreamModel upstreamModel with
      | .glm53 => (optimizeGlm glm origin object).map fun (sent, done) => (.object sent, done)
      | .genericOpenAi =>
          let (sent, done) := optimizeGeneric object
          .ok (.object sent, done)

end ClineProxy
