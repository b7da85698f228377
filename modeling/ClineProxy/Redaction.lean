import ClineProxy.JsonValue
import ClineProxy.Text

/-! `redaction.rs`: sanitizing upstream error text before it is stored or shown. -/

namespace ClineProxy

open Text

def maxPublicTextChars : Nat := 1024

def redacted : List Char := "[REDACTED]".toList

def isWordPunctuation (character : Char) : Bool :=
  [',', ';', ':', '"', '\'', '(', ')', '[', ']'].contains character

def looksLikeJwt (value : List Char) : Bool :=
  match split (· == '.') value with
  | [first, second, third] =>
      [first, second, third].all fun segment =>
        8 ≤ utf8Len segment &&
          segment.all fun c => isAsciiAlphanumeric c || c == '-' || c == '_'
  | _ => false

def sensitivePrefixes : List String :=
  ["authorization=", "authorization:", "x-api-key=", "x-api-key:", "api_key=", "api-key=",
    "access_token=", "refresh_token=", "cookie="]

def wordLabel (word : List Char) : List Char :=
  toAsciiLowercase (trimMatches isWordPunctuation word)

def sensitiveWord (word : List Char) : Bool :=
  let trimmed := trimMatches isWordPunctuation word
  let lower := wordLabel word
  (sensitivePrefixes.any fun label => startsWith label.toList lower) ||
    startsWith "sk-".toList lower ||
    (startsWith "key-".toList lower && 24 < utf8Len trimmed) ||
    looksLikeJwt trimmed

def isCredentialLabel (word : List Char) : Bool :=
  wordLabel word == "bearer".toList || wordLabel word == "authorization:".toList ||
    wordLabel word == "x-api-key:".toList

def redactWords (redactNext : Bool) : List (List Char) → List (List Char)
  | [] => []
  | word :: rest =>
      (if redactNext || sensitiveWord word then redacted else word) ::
        redactWords (isCredentialLabel word) rest

def truncateChars (input : List Char) (maximum : Nat) : List Char :=
  if maximum < input.length then input.take maximum ++ ['…'] else input

def redactExact (exactSecrets : List String) (input : List Char) : List Char :=
  exactSecrets.foldl
    (fun output secret => if secret.isEmpty then output else replace secret.toList redacted output)
    input

def sanitizeText (input : String) (exactSecrets : List String) : String :=
  let words := splitWhitespace (redactExact exactSecrets input.toList)
  String.ofList (truncateChars (join [' '] (redactWords false words)) maxPublicTextChars)

example : sanitizeText "authorization: Bearer s3cret  ok" ["s3cret"] =
    "authorization: Bearer [REDACTED] ok" := by decide

def sensitiveName (name : String) : Bool :=
  let normalized := (toAsciiLowercase name.toList).map fun character =>
    if character == '-' then '_' else character
  (["authorization", "x_api_key", "api_key", "access_token", "refresh_token", "cookie",
      "set_cookie"].any fun known => normalized == known.toList) ||
    "_secret".toList.isSuffixOf normalized

mutual

def redactValue (exactSecrets : List String) : Json.Value → Json.Value
  | .object fields => .object (redactFields exactSecrets fields)
  | .array items => .array (redactItems exactSecrets items)
  | .string text => .string (sanitizeText text exactSecrets)
  | .null => .null
  | .bool value => .bool value
  | .number value => .number value

def redactItems (exactSecrets : List String) : List Json.Value → List Json.Value
  | [] => []
  | item :: rest => redactValue exactSecrets item :: redactItems exactSecrets rest

def redactFields (exactSecrets : List String) :
    List (String × Json.Value) → List (String × Json.Value)
  | [] => []
  | (name, value) :: rest =>
      (name, if sensitiveName name then .string (String.ofList redacted)
        else redactValue exactSecrets value) :: redactFields exactSecrets rest

end

def sanitizeJson (value : Json.Value) (exactSecrets : List String) : Json.Value :=
  redactValue exactSecrets value

end ClineProxy
