import ClineProxy.PassthroughChecks
import ClineProxy.ReasoningShadow

/-! The Anthropic message path of `server.rs`, up to the context guard. -/

namespace ClineProxy

open Json Clock

def sessionRawId (request : Value) : Option String :=
  match (request.get "metadata").bind Value.asObject with
  | none => none
  | some metadata =>
      (((metadata.get "user_id").bind Value.asStr).or
        ((metadata.get "session_id").bind Value.asStr)).filter fun id => !id.isEmpty

/-- The newest message is a user message. -/
def requestStartsNewEpoch (body : Value) : Bool :=
  match (body.get "messages").bind Value.asArray with
  | none => false
  | some messages => (messages.getLast?.map isUser).getD false

/-- What the path reads beside the request: the keyed hash of session ids, the hash of tool call
ids, and the clock. -/
structure MessagePath where
  config : ProxyConfig
  shadowCurrentTurn : Bool
  fingerprint : String → String
  hash : String → UInt64
  clock : Nat → Instant

namespace MessagePath

variable (path : MessagePath)

def applyModel (converted : ConvertedRequest) (model : String) : ConvertedRequest :=
  { converted with
    model := model
    body := converted.body.mapObject (Map.insert "model" (.string model)) }

def shadowEligible (thinking : Option Value) : Bool :=
  path.shadowCurrentTurn &&
    !(thinkingType thinking == some "enabled" || thinkingType thinking == some "adaptive")

def restoreShadow (thinking : Option Value) (session : Option String)
    (shadow : Option ReasoningShadowStore) (body : Value) :
    Value × Option ReasoningShadowStore :=
  match shadow.filter fun _ => path.shadowEligible thinking, session with
  | some store, some fingerprint =>
      if requestStartsNewEpoch body then (body, some (store.clearSession fingerprint))
      else
        match body with
        | .object object =>
            let (restored, left) := restoreInto path.hash path.clock fingerprint store object
            (.object restored, some left)
        | body => (body, some store)
  | _, _ => (body, shadow)

/-- The converted request that would be sent, with what the request policy tells of it and the
shadow store that is left. -/
def anthropicOptimized (codec : Codec) (shadow : Option ReasoningShadowStore) (input : Value) :
    Fallible (ConvertedRequest × RequestOptimization × Option ReasoningShadowStore) := do
  let session := (sessionRawId input).map path.fingerprint
  let requested ← convertRequestValue codec input
  let converted := applyModel requested (path.config.resolveModel requested.model)
  let normalized :=
    if path.config.glm53.context.stripVolatileBillingHeader then
      normalizeSystemMessages converted.body
    else converted.body
  let (restored, left) := path.restoreShadow converted.thinking session shadow normalized
  match optimizeRequest path.config.glm53 (.anthropic converted.thinking converted.outputEffort)
      restored with
  | .error message => reject message
  | .ok (optimized, optimization) =>
      let body :=
        if path.config.glm53.context.canonicalToolJson then
          optimized.mapObject (canonicalizeToolArguments codec)
        else optimized
      return ({ converted with body := body, exposeThinking := optimization.exposeThinking },
        optimization, left)

def anthropicPrompt (codec : Codec) (shadow : Option ReasoningShadowStore) (input : Value) :
    Fallible (ConvertedRequest × Option ReasoningShadowStore) :=
  (path.anthropicOptimized codec shadow input).map fun done => (done.1, done.2.2)

end MessagePath

end ClineProxy
