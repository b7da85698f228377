import ClineProxy.LogSegments
import ClineProxy.PolicyChecks
import ClineProxy.RuntimeState
import ClineProxy.StreamWatch

/-! `config.rs`: the configuration and its validation, which a process runs when it loads one. -/

namespace ClineProxy

open Clock

structure ServerConfig where
  bind : String
  apiKey : String

structure UpstreamConfig where
  baseUrl : String
  chatPath : String
  timeoutSecs : UInt64
  connectTimeoutSecs : UInt64
  firstEventTimeoutSecs : UInt64
  firstSemanticTimeoutSecs : UInt64
  streamIdleTimeoutSecs : UInt64
  semanticIdleTimeoutSecs : UInt64
  fallback429CooldownSecs : UInt64
  proxy : Option String
  headers : List (String × String)

structure RuntimeConfig where
  maxRequestBytes : UInt64
  logLevel : String
  shutdownTimeoutSecs : UInt64

structure Config where
  server : ServerConfig
  upstream : UpstreamConfig
  clineApiKeys : List ClineKeyConfig
  models : ModelsConfig
  runtime : RuntimeConfig
  logging : LoggingConfig
  glm53 : Glm53Config

def StreamTimeouts.fromSecs (firstEvent firstSemantic streamIdle semanticIdle : UInt64) :
    StreamTimeouts where
  firstEvent := Clock.fromSecs firstEvent.toNat
  firstSemantic := Clock.fromSecs firstSemantic.toNat
  streamIdle := Clock.fromSecs streamIdle.toNat
  semanticIdle := Clock.fromSecs semanticIdle.toNat

def UpstreamConfig.streamTimeouts (upstream : UpstreamConfig) : StreamTimeouts :=
  .fromSecs upstream.firstEventTimeoutSecs upstream.firstSemanticTimeoutSecs
    upstream.streamIdleTimeoutSecs upstream.semanticIdleTimeoutSecs

structure Url where
  scheme : String
  host : Option String
  query : Option String
  fragment : Option String
  username : String
  password : Option String

/-- The parsers of other crates, and how a text is quoted in a message. -/
structure Parsers where
  socketAddr : String → Bool
  headerName : String → Option String
  headerValue : String → Bool
  url : String → Option Url
  envFilter : String → Bool
  quoted : String → String

def eqIgnoreAsciiCase (first second : String) : Bool :=
  first.toList.map Char.toLower == second.toList.map Char.toLower

def isBlankText (text : String) : Bool := (Text.trim text.toList).isEmpty

inductive ProxyRoute where
  | direct
  | socks5 (target : Url)
  | socks5h (target : Url)

variable (parsers : Parsers)

def ProxyRoute.parse (raw : Option String) : Except String ProxyRoute :=
  match (raw.map fun text => String.ofList (Text.trim text.toList)).filter fun text =>
      !text.isEmpty with
  | none => .ok .direct
  | some raw =>
      if eqIgnoreAsciiCase raw "direct" || eqIgnoreAsciiCase raw "none" then .ok .direct
      else
        match parsers.url raw with
        | none => .error "upstream.proxy must be a valid URL"
        | some url => do
            bailIf (url.query.isSome || url.fragment.isSome)
              "upstream.proxy must not contain a query or fragment"
            bailIf url.host.isNone "upstream.proxy must include a host"
            if url.scheme = "socks5" then return .socks5 url
            else if url.scheme = "socks5h" then return .socks5h url
            else .error ("upstream.proxy scheme " ++ parsers.quoted url.scheme ++
              " is not supported; use socks5:// or socks5h:// (or omit for direct)")

/-! The validation, section by section -/

def ServerConfig.validate (server : ServerConfig) : Except String Unit := do
  bailIf (!parsers.socketAddr server.bind)
    "server.bind must be an IP socket address such as 127.0.0.1:8788"
  bailIf (isBlankText server.apiKey) "server.api_key must not be empty"
  bailIf (!parsers.headerValue ("Bearer " ++ server.apiKey))
    "server.api_key must be HTTP-header-safe"

def reservedHeaders : List String :=
  ["authorization", "host", "content-length", "transfer-encoding", "connection", "accept",
    "content-type", "accept-encoding", "cookie", "x-api-key", "x-task-id", "x-request-id"]

def validateHeader (header : String × String) : Except String Unit :=
  match parsers.headerName header.1 with
  | none => .error ("invalid upstream header name " ++ parsers.quoted header.1)
  | some parsed => do
      bailIf (!parsers.headerValue header.2)
        ("invalid value for upstream header " ++ parsers.quoted header.1)
      bailIf (reservedHeaders.any (eqIgnoreAsciiCase parsed))
        ("upstream header " ++ parsers.quoted header.1 ++ " is controlled by the gateway")

def validateHeaders (headers : List (String × String)) : Except String Unit :=
  headers.forM (validateHeader parsers)

def validateBaseUrl (baseUrl : String) : Except String Unit :=
  match parsers.url baseUrl with
  | none => .error "upstream.base_url must be a valid URL"
  | some url => do
      bailIf (!(url.scheme = "http" || url.scheme = "https") || url.host.isNone)
        "upstream.base_url must be an absolute HTTP(S) URL"
      bailIf (url.query.isSome || url.fragment.isSome)
        "upstream.base_url must not contain a query or fragment"
      bailIf (!url.username.isEmpty || url.password.isSome)
        "upstream.base_url must not contain credentials"

def UpstreamConfig.validate (upstream : UpstreamConfig) : Except String Unit := do
  validateBaseUrl parsers upstream.baseUrl
  bailIf (upstream.chatPath.toList.head? ≠ some '/' || upstream.chatPath.toList.contains '?' ||
      upstream.chatPath.toList.contains '#')
    "upstream.chat_path must be an absolute path without query or fragment"
  bailIf (upstream.timeoutSecs = 0 || upstream.connectTimeoutSecs = 0 ||
      upstream.fallback429CooldownSecs = 0)
    "upstream timeout and cooldown values must be greater than zero"
  let _route ← ProxyRoute.parse parsers upstream.proxy
  validateHeaders parsers upstream.headers

def validateKeys (index : Nat) (names : List String) : List ClineKeyConfig → Except String Unit
  | [] => .ok ()
  | key :: rest => do
      bailIf (isBlankText key.name)
        ("cline_api_keys[" ++ toString index ++ "].name must not be empty")
      bailIf (isBlankText key.apiKey)
        ("Cline API key at index " ++ toString index ++ " must not be empty")
      bailIf (!parsers.headerValue ("Bearer " ++ key.apiKey))
        ("Cline API key at index " ++ toString index ++ " is not HTTP-header-safe")
      bailIf (names.contains key.name)
        ("Cline API key names must be unique; duplicate name at index " ++ toString index)
      validateKeys (index + 1) (key.name :: names) rest

def validateKeyList (keys : List ClineKeyConfig) : Except String Unit := do
  bailIf keys.isEmpty "at least one Cline API key must be configured"
  validateKeys parsers 0 [] keys
  bailIf (!keys.any ClineKeyConfig.enabled) "at least one Cline API key must be enabled"

def ModelsConfig.validate (models : ModelsConfig) : Except String Unit := do
  bailIf (isBlankText models.default) "models.default must not be empty"
  models.aliases.forM fun (name, model) =>
    bailIf (isBlankText name || isBlankText model) "model aliases and targets must not be empty"

def RuntimeConfig.validate (runtime : RuntimeConfig) : Except String Unit := do
  bailIf (runtime.maxRequestBytes = 0 || runtime.shutdownTimeoutSecs = 0)
    "runtime size and shutdown limits must be greater than zero"
  bailIf (!parsers.envFilter runtime.logLevel) "runtime.log_level must be a valid tracing filter"

def Config.validate (config : Config) : Except String Unit := do
  config.server.validate parsers
  config.upstream.validate parsers
  validateKeyList parsers config.clineApiKeys
  config.models.validate
  config.runtime.validate parsers
  config.logging.validate
  config.glm53.validate

structure AdmittedConfig where
  config : Config
  valid : config.validate parsers = .ok ()

variable {parsers}

theorem validateKeys_ok {index : Nat} {names : List String} {keys : List ClineKeyConfig}
    (passed : validateKeys parsers index names keys = .ok ()) :
    (∀ key ∈ keys, isBlankText key.name = false ∧ key.name ∉ names) ∧
      (keys.map ClineKeyConfig.name).Nodup := by
  induction keys generalizing index names with
  | nil => exact ⟨fun _ member => absurd member List.not_mem_nil, List.nodup_nil⟩
  | cons key rest ih =>
      simp only [validateKeys, bind_eq_ok] at passed
      obtain ⟨_, named, _, -, _, -, _, fresh, later⟩ := passed
      obtain ⟨others, distinct⟩ := ih later
      have unused : key.name ∉ names := by simpa using bailIf_ok fresh
      rw [List.forall_mem_cons, List.map_cons, List.nodup_cons]
      refine ⟨⟨⟨bailIf_ok named, unused⟩, fun other member => ?_⟩, fun same => ?_, distinct⟩
      · obtain ⟨notBlank, apart⟩ := others other member
        exact ⟨notBlank, fun known => apart (List.mem_cons_of_mem _ known)⟩
      · obtain ⟨other, member, equal⟩ := List.mem_map.mp same
        exact (others other member).2 (equal ▸ List.mem_cons_self)

theorem validateKeyList_ok {keys : List ClineKeyConfig}
    (passed : validateKeyList parsers keys = .ok ()) : ValidKeyConfig keys := by
  simp only [validateKeyList, bind_eq_ok] at passed
  obtain ⟨_, -, _, each, enabled⟩ := passed
  obtain ⟨names, distinct⟩ := validateKeys_ok each
  refine ⟨fun key member => (names key member).1, distinct, ?_⟩
  have found := bailIf_ok enabled
  rw [Bool.not_eq_false', List.any_eq_true] at found
  exact found

theorem AdmittedConfig.sections (admitted : AdmittedConfig parsers) :
    ValidKeyConfig admitted.config.clineApiKeys ∧
      admitted.config.logging.validate = .ok () ∧ admitted.config.glm53.validate = .ok () := by
  have valid := admitted.valid
  simp only [Config.validate, bind_eq_ok] at valid
  obtain ⟨_, -, _, -, _, keys, _, -, _, -, _, logging, glm53⟩ := valid
  exact ⟨validateKeyList_ok keys, logging, glm53⟩

def Config.withStreamTimeouts (firstEvent firstSemantic streamIdle semanticIdle : UInt64)
    (config : Config) : Config :=
  { config with upstream := { config.upstream with
      firstEventTimeoutSecs := firstEvent
      firstSemanticTimeoutSecs := firstSemantic
      streamIdleTimeoutSecs := streamIdle
      semanticIdleTimeoutSecs := semanticIdle } }

theorem validate_withStreamTimeouts (config : Config)
    (firstEvent firstSemantic streamIdle semanticIdle : UInt64) :
    (config.withStreamTimeouts firstEvent firstSemantic streamIdle semanticIdle).validate parsers =
      config.validate parsers :=
  rfl

def AdmittedConfig.withStreamTimeouts
    (firstEvent firstSemantic streamIdle semanticIdle : UInt64)
    (admitted : AdmittedConfig parsers) : AdmittedConfig parsers where
  config := admitted.config.withStreamTimeouts firstEvent firstSemantic streamIdle semanticIdle
  valid := (validate_withStreamTimeouts _ _ _ _ _).trans admitted.valid

end ClineProxy
