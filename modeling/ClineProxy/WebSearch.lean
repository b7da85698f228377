import ClineProxy.Protocol

/-!
`websearch.rs`: the web search declaration, the text of replayed results, and the search
calls of one round with the content blocks that show them to the client.
-/

namespace ClineProxy

open Json Text

def webSearchFunctionName : String := "web_search"

def maxWebSearchUsesPerRequest : UInt64 := 5

def maxGroundingBytes : Nat := 32 * 1024

inductive WebSearchProtocolVersion where
  | v20250305
  | v20260209
  | v20260318
  deriving DecidableEq

def WebSearchProtocolVersion.typeStr : WebSearchProtocolVersion → String
  | v20250305 => "web_search_20250305"
  | v20260209 => "web_search_20260209"
  | v20260318 => "web_search_20260318"

inductive DomainFilter where
  | allowed (domains : List String)
  | blocked (domains : List String)
  deriving DecidableEq

structure WebSearchConfig where
  version : WebSearchProtocolVersion
  maxUses : UInt64
  domains : Option DomainFilter
  deriving DecidableEq

structure ServerToolConfig where
  webSearch : Option WebSearchConfig
  deriving DecidableEq

def isWebSearchType (tool : Value) : Bool :=
  ((tool.get "type").bind Value.asStr).any fun kind =>
    startsWith "web_search_".toList kind.toList

def requireDirectOnlyCaller (version : WebSearchProtocolVersion) (caller : Value) :
    Fallible Unit := do
  let name ← orReject "web_search allowed_callers entries must be strings" caller.asStr
  if name ≠ "direct" then
    reject (version.typeStr ++ " caller " ++ quoteDebug name ++
      " requires code execution, which this gateway cannot provide; set allowed_callers to [\"direct\"]")
  else return ()

def requireDirectOnlyCallers (callers : Value) (version : WebSearchProtocolVersion) :
    Fallible Unit := do
  let array ← orReject "web_search allowed_callers must be an array of strings" callers.asArray
  if array.isEmpty then reject "web_search allowed_callers must not be empty"
  else array.forM (requireDirectOnlyCaller version)

def validateCallers (version : WebSearchProtocolVersion) (object : Map) : Fallible Unit :=
  match object.get "allowed_callers", version with
  | some callers, _ => requireDirectOnlyCallers callers version
  | none, .v20250305 => .ok ()
  | none, _ =>
      reject (version.typeStr ++ " defaults to code-execution dynamic filtering, which this gateway cannot provide; set allowed_callers to [\"direct\"] for basic web search")

def validateInclusion (version : WebSearchProtocolVersion) (object : Map) : Fallible Unit :=
  if version = .v20260318 then
    if ((object.get "response_inclusion").bind Value.asStr).any fun text => text ≠ "full" then
      reject "web_search_20260318 response_inclusion other than \"full\" requires code-execution semantics this gateway cannot represent"
    else .ok ()
  else if (object.get "response_inclusion").isSome then
    reject (version.typeStr ++ " does not support response_inclusion")
  else .ok ()

def validateSupportedSemantics (version : WebSearchProtocolVersion) (object : Map) :
    Fallible Unit := do
  validateCallers version object
  validateInclusion version object
  if (object.get "user_location").isSome then
    reject "web_search user_location is not supported by this gateway"
  else return ()

def parseMaxUses (object : Map) : Fallible UInt64 :=
  match object.get "max_uses" with
  | none => .ok maxWebSearchUsesPerRequest
  | some value => do
      let uses ← orReject "web_search max_uses must be a positive integer"
        (value.asU64.filter fun uses => uses ≠ 0)
      return min uses maxWebSearchUsesPerRequest

def parseDomain (field : String) (entry : Value) : Fallible String :=
  (orReject ("web_search " ++ field ++ " entries must be strings") entry.asStr).map fun domain =>
    String.ofList (trim domain.toList)

def parseDomainList (object : Map) (field : String) : Fallible (Option (List String)) :=
  match object.get field with
  | none => .ok none
  | some value => do
      let array ← orReject ("web_search " ++ field ++ " must be an array") value.asArray
      let trimmed ← array.mapM (parseDomain field)
      let domains := trimmed.filter fun domain => !domain.isEmpty
      return if domains.isEmpty then none else some domains

def parseDomainFilter (object : Map) : Fallible (Option DomainFilter) := do
  let allowed ← parseDomainList object "allowed_domains"
  let blocked ← parseDomainList object "blocked_domains"
  match allowed, blocked with
  | some _, some _ =>
      reject "web_search allowed_domains and blocked_domains are mutually exclusive"
  | some domains, none => return some (.allowed domains)
  | none, some domains => return some (.blocked domains)
  | none, none => return none

def parseVersion (kind : String) : Fallible WebSearchProtocolVersion :=
  match kind with
  | "web_search_20250305" => .ok .v20250305
  | "web_search_20260209" => .ok .v20260209
  | "web_search_20260318" => .ok .v20260318
  | other => reject ("web_search tool type " ++ quoteDebug other ++ " is not supported")

def parseDeclaration (tool : Value) : Fallible WebSearchConfig := do
  let object ← orReject "web_search tool must be an object" tool.asObject
  let kind ← orReject "web_search tool type is required" ((object.get "type").bind Value.asStr)
  let version ← parseVersion kind
  if ((object.get "name").bind Value.asStr).getD "" ≠ webSearchFunctionName then
    reject "web_search tool name must be \"web_search\""
  else
    validateSupportedSemantics version object
    let maxUses ← parseMaxUses object
    let domains ← parseDomainFilter object
    return ⟨version, maxUses, domains⟩

def webSearchUpstreamFunction : Value :=
  .object [("type", .string "function"), ("function", .object [
    ("name", .string webSearchFunctionName),
    ("description", .string
      "Search the public web for current information and return relevant pages."),
    ("parameters", .object [
      ("type", .string "object"),
      ("properties", .object [("query", .object [("type", .string "string")])]),
      ("required", .array [.string "query"]),
      ("additionalProperties", .bool false)])])]

/-- Cuts the text to `limit` bytes; `none` when that is inside a character. -/
def truncateBytes (limit : Nat) (text : List Char) : Option (List Char) :=
  (List.range (text.length + 1)).findSome? fun count =>
    if utf8Len (text.take count) = limit then some (text.take count) else none

def resultField (name : String) (item : Value) : String :=
  ((item.get name).bind Value.asStr).getD ""

def groundingEntry (number : Nat) (item : Value) : List Char :=
  let heading := toString number ++ ". " ++ resultField "title" item ++ "\n   " ++
    resultField "url" item ++ "\n"
  let snippet := ((item.get "snippet").bind Value.asStr).elim "" fun text => "   " ++ text ++ "\n"
  (heading ++ snippet).toList

/-- Entries from `number` on, until the text is long enough to be cut. -/
def appendGrounding (output : List Char) (number : Nat) : List Value → Fallible (List Char)
  | [] => .ok output
  | item :: rest =>
      let extended := output ++ groundingEntry number item
      if maxGroundingBytes ≤ utf8Len extended then
        match truncateBytes maxGroundingBytes extended with
        | some cut => .ok cut
        | none => .error .panicked
      else appendGrounding extended (number + 1) rest

def replayedResultText (resultBlock : Value) : Fallible String :=
  match resultBlock.get "content" with
  | some (.string error) => .ok ("Web search failed: " ++ error)
  | some (.object object) =>
      if (Map.get "type" object).bind Value.asStr = some "web_search_tool_result_error" then
        .ok ("Web search failed: " ++
          ((Map.get "error_code" object).bind Value.asStr).getD "unavailable")
      else .ok "Web search returned no results."
  | some (.array items) =>
      (appendGrounding "Web search results:\n".toList 1 items).map String.ofList
  | _ => .ok "Web search returned no results."

/-! Rounds of search calls -/

def maxInternalGenerationRounds : Nat := 8

def maxQueryChars : Nat := 512

inductive SearchErrorCode where
  | tooManyRequests
  | invalidToolInput
  | maxUsesExceeded
  | queryTooLong
  | requestTooLarge
  | unavailable
  deriving DecidableEq

def SearchErrorCode.asStr : SearchErrorCode → String
  | tooManyRequests => "too_many_requests"
  | invalidToolInput => "invalid_tool_input"
  | maxUsesExceeded => "max_uses_exceeded"
  | queryTooLong => "query_too_long"
  | requestTooLarge => "request_too_large"
  | unavailable => "unavailable"

structure SearchOutcome where
  query : String
  results : List Value
  error : Option SearchErrorCode

def SearchOutcome.failed (query : String) (error : SearchErrorCode) : SearchOutcome :=
  ⟨query, [], some error⟩

structure OpenAiToolCall where
  id : String
  name : String
  arguments : String
  deriving DecidableEq

inductive ToolRoundKind where
  | none
  | clientOnly
  | serverOnly
  | mixed
  deriving DecidableEq

def classifyRound (calls : List OpenAiToolCall) (serverNames : List String) : ToolRoundKind :=
  match calls.any fun call => serverNames.contains call.name,
    calls.any fun call => !serverNames.contains call.name with
  | false, false => .none
  | false, true => .clientOnly
  | true, false => .serverOnly
  | true, true => .mixed

def queryFromArguments (codec : Codec) (arguments : String) : Except SearchErrorCode String :=
  match codec.fromStr arguments with
  | none => .error .invalidToolInput
  | some parsed =>
      match (((parsed.get "query").bind Value.asStr).map fun text => trim text.toList).filter
        fun query => !query.isEmpty with
      | none => .error .invalidToolInput
      | some query =>
          if maxQueryChars < query.length then .error .queryTooLong else .ok (String.ofList query)

def queryOrEmpty (codec : Codec) (call : OpenAiToolCall) : String :=
  (queryFromArguments codec call.arguments).toOption.getD ""

/-- The outcomes of a round and the uses that are left; `search` answers the n-th search. -/
def executeWebSearchRound (codec : Codec) (search : Nat → String → SearchOutcome)
    (usesLeft : Nat) : List OpenAiToolCall → List SearchOutcome × Nat
  | [] => ([], usesLeft)
  | call :: rest =>
      let (outcome, left) :=
        if usesLeft = 0 then
          (SearchOutcome.failed (queryOrEmpty codec call) .maxUsesExceeded, usesLeft)
        else
          match queryFromArguments codec call.arguments with
          | .error code => (SearchOutcome.failed "" code, usesLeft)
          | .ok query => (search usesLeft query, usesLeft - 1)
      let (outcomes, final) := executeWebSearchRound codec search left rest
      (outcome :: outcomes, final)

def searchResultEntry (item : Value) : Value :=
  .object ([("type", .string "web_search_result"),
      ("title", (item.get "title").getD .null), ("url", (item.get "url").getD .null)] ++
    ["snippet", "page_age", "site", "favicon"].filterMap fun key =>
      (item.get key).map fun value => (key, value))

def clientBlocks (toolUseId : String) (outcome : SearchOutcome) : Value × Value :=
  let content := match outcome.error with
    | some error => .object [("type", .string "web_search_tool_result_error"),
        ("error_code", .string error.asStr)]
    | none => .array (outcome.results.map searchResultEntry)
  (.object [("type", .string "server_tool_use"), ("id", .string toolUseId),
      ("name", .string webSearchFunctionName),
      ("input", .object [("query", .string outcome.query)])],
    .object [("type", .string "web_search_tool_result"), ("tool_use_id", .string toolUseId),
      ("content", content)])

/-- The queries that the round really sends to the search endpoint. -/
def searchedQueries (codec : Codec) (usesLeft : Nat) : List OpenAiToolCall → List String
  | [] => []
  | call :: rest =>
      if usesLeft = 0 then searchedQueries codec usesLeft rest
      else
        match queryFromArguments codec call.arguments with
        | .error _ => searchedQueries codec usesLeft rest
        | .ok query => query :: searchedQueries codec (usesLeft - 1) rest

/-! The next request -/

/-- The text of a `role=tool` message; cutting it inside a character panics. -/
def toolResultText (outcome : SearchOutcome) : Fallible String :=
  match outcome.error with
  | some error => .ok ("Web search failed: " ++ error.asStr)
  | none =>
      if outcome.results.isEmpty then .ok "Web search returned no results."
      else
        (appendGrounding ("Web search results for \"" ++ outcome.query ++ "\":\n").toList 1
          outcome.results).map String.ofList

def replayedCall (call : OpenAiToolCall) : Value :=
  .object [("id", .string call.id), ("type", .string "function"),
    ("function", .object [("name", .string call.name), ("arguments", .string call.arguments)])]

def assistantRound (calls : List OpenAiToolCall) : Value :=
  .object [("role", .string "assistant"), ("content", .null),
    ("tool_calls", .array (calls.map replayedCall))]

def toolMessage (call : OpenAiToolCall) (text : String) : Value :=
  .object [("role", .string "tool"), ("tool_call_id", .string call.id), ("content", .string text)]

def toolMessages : List (OpenAiToolCall × SearchOutcome) → Fallible (List Value)
  | [] => .ok []
  | (call, outcome) :: rest => do
      let text ← toolResultText outcome
      let later ← toolMessages rest
      return toolMessage call text :: later

def appendServerRound (chatBody : Value) (calls : List OpenAiToolCall)
    (outcomes : List SearchOutcome) : Fallible Value :=
  match chatBody.asObject, (chatBody.get "messages").bind Value.asArray with
  | some fields, some messages =>
      (toolMessages (calls.zip outcomes)).map fun answers =>
        .object (Map.insert "messages" (.array (messages ++ assistantRound calls :: answers)) fields)
  | _, _ => .ok chatBody

/-- The calls of a round that was replayed, and their outcomes. -/
structure SearchRound where
  calls : List OpenAiToolCall
  outcomes : List SearchOutcome

def SearchRound.writable (chatBody : Value) (round : SearchRound) : Bool :=
  (appendServerRound chatBody round.calls round.outcomes).isOk

theorem writable_append {chatBody next : Value} {calls : List OpenAiToolCall}
    {outcomes : List SearchOutcome} (appended : appendServerRound chatBody calls outcomes = .ok next) :
    SearchRound.writable next = SearchRound.writable chatBody := by
  unfold appendServerRound at appended
  split at appended
  next fields messages found list =>
    obtain ⟨answers, -, rfl⟩ := map_eq_ok.mp appended
    funext round
    have kept : (Value.get "messages" (.object (Map.insert "messages"
        (.array (messages ++ assistantRound calls :: answers)) fields))).bind Value.asArray =
        some (messages ++ assistantRound calls :: answers) := by
      have stored := Map.get_insert "messages" "messages"
        (.array (messages ++ assistantRound calls :: answers)) fields
      rw [if_pos rfl] at stored
      rw [Value.get_object, show OrderedMap.lookup "messages" _ = _ from stored]
      rfl
    simp only [SearchRound.writable, appendServerRound, Value.asObject_object, kept, found, list]
    cases toolMessages (round.calls.zip round.outcomes) <;> rfl
  next =>
    cases appended
    rfl

theorem appendGrounding_error {output : List Char} {number : Nat} {items : List Value}
    {abort : Abort} (failed : appendGrounding output number items = .error abort) :
    abort = .panicked := by
  induction items generalizing output number with
  | nil => cases failed
  | cons item rest ih =>
      simp only [appendGrounding] at failed
      split at failed
      next =>
        split at failed
        next => cases failed
        next =>
          cases failed
          rfl
      next => exact ih failed

theorem toolMessages_error {calls : List (OpenAiToolCall × SearchOutcome)} {abort : Abort}
    (failed : toolMessages calls = .error abort) : abort = .panicked := by
  have text {outcome : SearchOutcome} (failed : toolResultText outcome = .error abort) :
      abort = .panicked := by
    simp only [toolResultText] at failed
    split at failed
    next => cases failed
    next =>
      split at failed
      next => cases failed
      next => exact appendGrounding_error (map_eq_error.mp failed)
  induction calls with
  | nil => cases failed
  | cons call rest ih =>
      rcases bind_eq_error.mp failed with first | ⟨written, -, failed⟩
      · exact text first
      · rcases bind_eq_error.mp failed with later | ⟨others, -, failed⟩
        · exact ih later
        · cases failed

theorem appendServerRound_error {chatBody : Value} {calls : List OpenAiToolCall}
    {outcomes : List SearchOutcome} {abort : Abort}
    (failed : appendServerRound chatBody calls outcomes = .error abort) : abort = .panicked := by
  unfold appendServerRound at failed
  split at failed
  next => exact toolMessages_error (map_eq_error.mp failed)
  next => cases failed

theorem executeWebSearchRound_length (codec : Codec) (search : Nat → String → SearchOutcome)
    (calls : List OpenAiToolCall) (usesLeft : Nat) :
    (executeWebSearchRound codec search usesLeft calls).1.length = calls.length := by
  induction calls generalizing usesLeft with
  | nil => rfl
  | cons call rest ih =>
      rw [executeWebSearchRound]
      split
      exact congrArg (· + 1) (ih _)

end ClineProxy
