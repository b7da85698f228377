import ClineProxy.JsonText
import ClineProxy.PromptCache

/-! The chat completion endpoint, and what it sends of a request for another model family. -/

namespace ClineProxy

open Json

structure ModelsConfig where
  default : String
  aliases : List (String × String)

structure ProxyConfig where
  models : ModelsConfig
  glm53 : Glm53Config

def ProxyConfig.resolveModel (config : ProxyConfig) (requested : String) : String :=
  (OrderedMap.lookup requested config.models.aliases).getD requested

structure SentChat where
  body : Value
  stream : Bool
  upstreamModel : String

def clientStream (object : Map) : Except String Bool :=
  match object.get "stream" with
  | some (.bool stream) => .ok stream
  | some _ => .error "stream must be a boolean"
  | none => .ok false

def requestedModel (object : Map) : Except String String :=
  match ((object.get "model").bind Value.asStr).filter fun model => model ≠ "" with
  | some model => .ok model
  | none => .error "model must be a non-empty string"

def openaiChat (codec : Codec) (config : ProxyConfig) (value : Value) :
    Except String SentChat := do
  match value.asObject with
  | none => .error "request body must be a JSON object"
  | some object =>
      let requested ← requestedModel object
      let stream ← clientStream object
      let upstreamModel := config.resolveModel requested
      let named := object.insert "model" (.string upstreamModel)
      let (optimized, _) ← optimizeRequest config.glm53 .openAi (.object named)
      return {
        body := if config.glm53.context.canonicalToolJson then
            optimized.mapObject (canonicalizeToolArguments codec)
          else optimized
        stream := stream
        upstreamModel := upstreamModel }

def CallSteady (codec : Codec) (call : Value) : Prop :=
  ∀ (function : Map) (arguments : String), call.get "function" = some (.object function) →
    function.get "arguments" = some (.string arguments) →
      rewrittenArguments codec arguments = none

def MessageSteady (codec : Codec) (message : Value) : Prop :=
  role message = some "assistant" → ∀ calls, message.get "tool_calls" = some (.array calls) →
    ∀ call ∈ calls, CallSteady codec call

/-- No message before the last user or tool message has arguments to rewrite. -/
def HistorySteady (codec : Codec) (messages : List Value) : Prop :=
  ∀ lastAction, Positions.rposition isAction messages = some lastAction →
    ∀ index message, messages[index]? = some message → index < lastAction →
      MessageSteady codec message

def BodySteady (codec : Codec) (body : Map) : Prop :=
  ∀ messages, body.get "messages" = some (.array messages) → HistorySteady codec messages

theorem rewritten_ne {codec : Codec} {arguments canonical : String}
    (rewritten : rewrittenArguments codec arguments = some canonical) : canonical ≠ arguments := by
  rw [rewrittenArguments] at rewritten
  split at rewritten
  next => cases rewritten
  next parsed _ =>
    by_cases same : canonicalJsonString codec parsed = arguments
    · simp [same] at rewritten
    · simp only [same, if_false, Option.some.injEq] at rewritten
      exact rewritten ▸ same

theorem canonicalizeFunction_eq_self {codec : Codec} {function : Map} :
    canonicalizeFunction codec function = function ↔
      ∀ arguments, function.get "arguments" = some (.string arguments) →
        rewrittenArguments codec arguments = none := by
  rw [canonicalizeFunction]
  split
  next absent =>
    refine ⟨fun _ arguments found => ?_, fun _ => rfl⟩
    rw [found] at absent
    cases absent
  next arguments known =>
    obtain ⟨value, found, text⟩ := Option.bind_eq_some_iff.mp known
    obtain rfl := Value.asStr_eq_some text
    simp only [found, Option.some.injEq, Value.string.injEq, forall_eq']
    split
    next steady => exact ⟨fun _ => steady, fun _ => rfl⟩
    next canonical rewritten =>
      rw [Map.insert_eq_self found, rewritten]
      simp [rewritten_ne rewritten]

theorem canonicalizeCall_eq_self {codec : Codec} {call : Value} :
    canonicalizeCall codec call = call ↔ CallSteady codec call := by
  rw [canonicalizeCall, Value.update_eq_self]
  constructor
  · intro same function arguments found
    have kept := Value.mapObject_eq_self.mp (same _ found) function rfl
    exact canonicalizeFunction_eq_self.mp kept arguments
  · intro steady held found
    rw [Value.mapObject_eq_self]
    rintro function rfl
    exact canonicalizeFunction_eq_self.mpr fun arguments => steady function arguments found

theorem map_eq_self {Item : Type} {change : Item → Item} {items : List Item} :
    items.map change = items ↔ ∀ item ∈ items, change item = item := by
  induction items with
  | nil => simp
  | cons item rest ih => simp [ih]

theorem canonicalizeCalls_eq_self {codec : Codec} {message : Value} :
    canonicalizeCalls codec message = message ↔
      ∀ calls, message.get "tool_calls" = some (.array calls) →
        ∀ call ∈ calls, CallSteady codec call := by
  rw [canonicalizeCalls, Value.update_eq_self]
  constructor
  · intro same calls found call member
    have kept := Value.mapArray_eq_self.mp (same _ found) calls rfl
    exact canonicalizeCall_eq_self.mp (map_eq_self.mp kept call member)
  · intro steady held found
    rw [Value.mapArray_eq_self]
    rintro calls rfl
    exact map_eq_self.mpr fun call member =>
      canonicalizeCall_eq_self.mpr (steady calls found call member)

theorem canonicalizeMessage_eq_self {codec : Codec} {lastAction index : Nat} {message : Value} :
    canonicalizeMessage codec lastAction index message = message ↔
      (index < lastAction → MessageSteady codec message) := by
  rw [canonicalizeMessage]
  split
  next history =>
    rw [canonicalizeCalls_eq_self]
    exact ⟨fun steady _ _ => steady, fun steady => steady history.2 history.1⟩
  next current =>
    exact ⟨fun _ below assistant => absurd ⟨assistant, below⟩ current, fun _ => rfl⟩

theorem canonicalizeMessages_eq_self {codec : Codec} {messages : List Value} :
    canonicalizeMessages codec messages = messages ↔ HistorySteady codec messages := by
  rw [canonicalizeMessages, HistorySteady]
  split
  next none_ => simp [none_]
  next lastAction found =>
    simp only [found, Option.some.injEq, forall_eq']
    rw [List.mapIdx_eq_iff]
    constructor
    · intro same index message there below
      have one := same index
      rw [there, Option.map_some, Option.some.injEq] at one
      exact canonicalizeMessage_eq_self.mp one.symm below
    · intro steady index
      cases there : messages[index]? with
      | none => rfl
      | some message =>
          rw [Option.map_some, canonicalizeMessage_eq_self.mpr (steady index message there)]

theorem canonicalizeToolArguments_eq_self {codec : Codec} {object : Map} :
    canonicalizeToolArguments codec object = object ↔ BodySteady codec object := by
  rw [canonicalizeToolArguments, Map.update_eq_self]
  constructor
  · intro same messages found
    exact canonicalizeMessages_eq_self.mp (Value.mapArray_eq_self.mp (same _ found) messages rfl)
  · intro steady held found
    rw [Value.mapArray_eq_self]
    rintro messages rfl
    exact canonicalizeMessages_eq_self.mpr (steady messages found)

theorem optimizeRequest_generic {glm : Glm53Config} {origin : Origin} {object : Map}
    {model : String} (named : object.get "model" = some (.string model))
    (generic : ModelFamily.fromUpstreamModel model = .genericOpenAi) :
    optimizeRequest glm origin (.object object) =
      .ok (.object object, ⟨.genericOpenAi, "", false, none, none⟩) := by
  simp [optimizeRequest, named, generic, optimizeGeneric]

/-- A request for a generic model is sent as it is, but for its model, exactly when arguments are
not made canonical or none of its history has to be. -/
theorem generic_passthrough (codec : Codec) (config : ProxyConfig) (body : Map)
    (sent : SentChat) : openaiChat codec config (.object body) = .ok sent →
      ModelFamily.fromUpstreamModel sent.upstreamModel = .genericOpenAi →
        (sent.body = .object (body.insert "model" (.string sent.upstreamModel)) ↔
          config.glm53.context.canonicalToolJson = false ∨ BodySteady codec body) := by
  intro accepted generic
  rw [openaiChat] at accepted
  simp only [Value.asObject_object] at accepted
  obtain ⟨requested, _, accepted⟩ := bind_eq_ok.mp accepted
  obtain ⟨stream, _, accepted⟩ := bind_eq_ok.mp accepted
  obtain ⟨⟨optimized, done⟩, policy, accepted⟩ := bind_eq_ok.mp accepted
  obtain rfl := Except.ok.inj accepted
  have named := Map.get_insert "model" "model" (.string (config.resolveModel requested)) body
  rw [if_pos rfl] at named
  rw [optimizeRequest_generic named generic] at policy
  obtain ⟨rfl, rfl⟩ := Prod.mk.inj (Except.ok.inj policy)
  have history : BodySteady codec (body.insert "model" (.string (config.resolveModel requested))) ↔
      BodySteady codec body := by
    rw [BodySteady, Map.get_insert, if_neg (by decide), BodySteady]
  cases canonical : config.glm53.context.canonicalToolJson with
  | false => simp
  | true =>
      rw [if_pos rfl, Value.mapObject, Value.object.injEq, canonicalizeToolArguments_eq_self,
        history]
      simp

def plainConfig (canonicalToolJson : Bool) : ProxyConfig where
  models := ⟨"z-ai/glm-5.3-flash", [("glm", "z-ai/glm-5.3-flash"), ("fast", "openai/gpt")]⟩
  glm53 := {
    reasoning := ⟨.high, .high, true, .requestedOnly⟩
    maxOutputTokens := 65536
    context := ⟨true, true, canonicalToolJson, none, 0, 1⟩ }

def looseArguments : Value := .object [("b", .ofNat 1), ("a", .ofNat 2)]

def historyOf (arguments : String) : List Value := [
  .object [("role", .string "assistant"),
    ("tool_calls", .array [wholeCall 0 "call_0" "f" arguments])],
  .object [("role", .string "tool"), ("tool_call_id", .string "call_0"),
    ("content", .string "done")]]

def genericBody : Map :=
  [("model", .string "fast"),
    ("messages", .array (historyOf "\x7b\"b\":1,\"a\":2\x7d"))]

theorem generic_passthrough_off : ∃ sent,
    openaiChat (documentCodec [looseArguments]) (plainConfig false) (.object genericBody) =
      .ok sent ∧
    sent.body = .object (Map.insert "model" (.string "openai/gpt") genericBody) := by
  refine ⟨⟨_, false, "openai/gpt"⟩, rfl, ?_⟩
  exact (generic_passthrough (documentCodec [looseArguments]) (plainConfig false) genericBody
    ⟨_, false, "openai/gpt"⟩ rfl (by decide +kernel)).mpr (.inl rfl)

def firstArguments (body : Value) : Option String := do
  let message ← ((body.get "messages").bind Value.asArray).bind List.head?
  let call ← ((message.get "tool_calls").bind Value.asArray).bind List.head?
  let function ← call.get "function"
  (function.get "arguments").bind Value.asStr

theorem sent_arguments : (openaiChat (documentCodec [looseArguments]) (plainConfig true)
    (.object genericBody)).toOption.map (fun sent => (sent.upstreamModel, firstArguments sent.body)) =
      some ("openai/gpt", some "\x7b\"a\":2,\"b\":1\x7d") := by
  decide +kernel

theorem generic_passthrough_fails : ∃ sent,
    openaiChat (documentCodec [looseArguments]) (plainConfig true) (.object genericBody) =
      .ok sent ∧
    ModelFamily.fromUpstreamModel sent.upstreamModel = .genericOpenAi ∧
    sent.body ≠ .object (Map.insert "model" (.string sent.upstreamModel) genericBody) := by
  obtain ⟨sent, accepted, known⟩ := Option.map_eq_some_iff.mp sent_arguments
  obtain ⟨model, arguments⟩ := Prod.mk.inj known
  refine ⟨sent, ?_, by rw [model]; decide +kernel, fun same => ?_⟩
  · cases done : openaiChat (documentCodec [looseArguments]) (plainConfig true)
        (.object genericBody) with
    | error message => simp [done, Except.toOption] at accepted
    | ok other => simpa [done, Except.toOption] using accepted
  · rw [same, model] at arguments
    revert arguments
    decide +kernel

end ClineProxy
