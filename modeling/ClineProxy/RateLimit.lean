import ClineProxy.Clock
import ClineProxy.Text
import ClineProxy.JsonValue

/-!
`rate_limit.rs`: when an upstream response counts as an effective HTTP 429, and the
retry hint taken from its headers and body.
-/

namespace ClineProxy

open Clock Json Text

abbrev Bytes := List UInt8

/-- Header names are lower case, as in an HTTP header map. -/
abbrev HeaderMap := List (String × Bytes)

/-- Library functions the classification calls; `headerToStr` reads a header value as text. -/
structure ParseEnv where
  codec : Codec
  headerToStr : Bytes → Option String
  parseHttpDate : String → Option SystemTime

def maxParsedCooldown : Duration := fromSecs (366 * 24 * 60 * 60)

inductive RateLimitKind where
  | dailyQuota
  | freeQuota
  | transient
  | unknown
  deriving DecidableEq

def containsText (pattern : String) (text : List Char) : Bool := contains pattern.toList text

def classifyRateLimitKind (message : Option String) (duration : Duration) : RateLimitKind :=
  let lower := toAsciiLowercase (message.getD "").toList
  if message.isSome &&
      (containsText "daily free limit" lower ||
        (containsText "daily" lower && containsText "limit" lower)) then .dailyQuota
  else if message.isSome &&
      (containsText "free limit reached on model" lower ||
        (containsText "free" lower && containsText "limit" lower)) then .freeQuota
  else if duration ≤ fromSecs 60 then .transient
  else .unknown

inductive RetryHintSource where
  | retryAfter
  | structuredJson
  | humanText
  | fallback
  deriving DecidableEq

structure RetryHint where
  duration : Duration
  source : RetryHintSource
  message : Option String
  model : Option String

inductive UpstreamDisposition where
  | success
  | directRateLimited429
  | proxyWrappedRateLimited429
  | nonFailoverHttpError
  deriving DecidableEq

def UpstreamDisposition.isRateLimited : UpstreamDisposition → Bool
  | .directRateLimited429 => true
  | .proxyWrappedRateLimited429 => true
  | _ => false

structure ClassifiedUpstreamResponse where
  outerStatus : Nat
  effectiveStatus : Nat
  disposition : UpstreamDisposition
  retryHint : Option RetryHint

def isSuccess (status : Nat) : Bool := 200 ≤ status && status < 300

def isServerError (status : Nat) : Bool := 500 ≤ status && status < 600

def tooManyRequests : Nat := 429

def u64Bound : Nat := 2 ^ 64

def u128Bound : Nat := 2 ^ 128

def valueIsStatus (value : Value) (expected : Nat) : Bool :=
  decide (value.asU64.map UInt64.toNat = some expected) ||
    decide ((value.asStr.bind fun text => parseUnsigned u64Bound (trim text.toList)) = some expected)

def normalizeFieldName (name : String) : List Char :=
  (toAsciiLowercase name.toList).filter fun character => character != '-' && character != '_'

mutual

def structuredStatus (insideError : Bool) : Value → Bool
  | .object fields => structuredStatusFields insideError fields
  | .array items => structuredStatusItems insideError items
  | _ => false

def structuredStatusFields (insideError : Bool) : List (String × Value) → Bool
  | [] => false
  | (name, value) :: rest =>
      let normalized := normalizeFieldName name
      let explicitStatus := normalized == "upstreamstatus".toList ||
        normalized == "statuscode".toList || normalized == "httpstatus".toList
      ((explicitStatus || (insideError && normalized == "status".toList)) &&
        valueIsStatus value 429) ||
      structuredStatus (insideError || normalized == "error".toList) value ||
      structuredStatusFields insideError rest

def structuredStatusItems (insideError : Bool) : List Value → Bool
  | [] => false
  | value :: rest => structuredStatus insideError value || structuredStatusItems insideError rest

end

def structuredUpstream429 (value : Value) : Bool := structuredStatus false value

def isStatusFiller (character : Char) : Bool :=
  isAsciiWhitespace character || character == ':' || character == '=' || character == '-'

def leadingStatus (input : List Char) : Option Nat :=
  let trimmed := trimStartMatches isStatusFiller input
  let afterHttp :=
    if toAsciiLowercase (trimmed.take 4) == "http".toList &&
        (trimmed.drop 4).head?.all isAsciiWhitespace then
      trimStartMatches isStatusFiller (trimmed.drop 4)
    else trimmed
  let digits := afterHttp.takeWhile isAsciiDigit
  if digits.isEmpty then none else parseUnsigned (2 ^ 16) digits

/-- Every occurrence of the stem is tried; the fuel bounds how many there can be. -/
def stemReportsStatus (stem : List Char) (expected : Nat) : Nat → List Char → Bool
  | 0, _ => false
  | fuel + 1, remaining =>
      match find stem remaining with
      | none => false
      | some position =>
          let tail := remaining.drop (position + stem.length)
          leadingStatus tail == some expected || stemReportsStatus stem expected fuel tail

def wrapperReportsStatus (text : List Char) (expected : Nat) : Bool :=
  ["upstream returned", "upstream response status", "upstream status", "upstream error"].any
    fun stem => stemReportsStatus stem.toList expected (text.length + 1) text

def hasRateLimitSemantics (text : List Char) : Bool :=
  ["daily free limit reached", "rate limit", "rate-limit", "rate limited", "rate-limited",
    "quota exceeded", "too many requests", "try again in", "retry after", "retry-after"].any
    fun phrase => containsText phrase text

def isProxyWrapped429 (env : ParseEnv) (body : Bytes) : Bool :=
  (env.codec.fromSlice body).any structuredUpstream429 ||
    (let text := toAsciiLowercase (fromUtf8Lossy body)
     wrapperReportsStatus text 429 && hasRateLimitSemantics text)

def durationWithCap (duration : Duration) : Option Duration :=
  if duration ≤ maxParsedCooldown then some duration else none

def afterMarker (text : List Char) : List String → List Char
  | [] => text
  | marker :: rest =>
      match find marker.toList text with
      | some position => text.drop (position + marker.length)
      | none => afterMarker text rest

def unitOf (text : List Char) : Option (Nat × Nat) :=
  if startsWith "ms".toList text then some (1, 2)
  else
    match text.head? with
    | some 'd' => some (86400000, 1)
    | some 'h' => some (3600000, 1)
    | some 'm' => some (60000, 1)
    | some 's' => some (1000, 1)
    | _ => none

/-- Adds up `<number><unit>` components; `none` when a number or a sum leaves 128 bits. -/
def parseComponents : Nat → List Char → Nat → Nat → Option (Nat × Nat)
  | 0, _, totalMs, components => some (totalMs, components)
  | fuel + 1, text, totalMs, components =>
      let start := trimStartMatches (fun c => isAsciiWhitespace c || c == ',') text
      let digits := start.takeWhile isAsciiDigit
      if digits.isEmpty then some (totalMs, components)
      else
        match parseUnsigned u128Bound digits with
        | none => none
        | some number =>
            let unitText := trimStartMatches isAsciiWhitespace (start.drop digits.length)
            match unitOf unitText with
            | none => some (totalMs, components)
            | some (unitMs, unitLen) =>
                if number * unitMs < u128Bound && totalMs + number * unitMs < u128Bound then
                  parseComponents fuel (unitText.drop unitLen) (totalMs + number * unitMs)
                    (components + 1)
                else none

def parseRetryDuration (input : String) : Option Duration :=
  let lower := toAsciiLowercase input.toList
  let candidate := trimStart (afterMarker lower ["try again in", "retry after", "retry in"])
  if startsWith ['-'] candidate then none
  else
    match parseComponents (candidate.length + 1) candidate 0 0 with
    | none => none
    | some (totalMs, components) =>
        if components = 0 then none
        else if totalMs < u64Bound then durationWithCap (fromMillis totalMs) else none

def parseRetryAfterHeader (env : ParseEnv) (now : SystemTime) (input : String) : Option Duration :=
  let trimmed := trim input.toList
  match parseUnsigned u64Bound trimmed with
  | some seconds => durationWithCap (fromSecs seconds)
  | none =>
      match env.parseHttpDate (String.ofList trimmed) with
      | none => none
      | some time => durationWithCap ((systemDurationSince time now).getD 0)

def retryFieldNames : List String :=
  ["retryafter", "retryafterseconds", "retryin", "retryinseconds", "retryafterms", "retryinms",
    "cooldown", "cooldownseconds"]

def retryFieldDuration (name : String) (value : Value) : Option Duration :=
  let lower := normalizeFieldName name
  let milliseconds := lower == "retryafterms".toList || lower == "retryinms".toList
  if retryFieldNames.any fun field => field.toList == lower then
    match value with
    | .number number => number.asU64.bind fun amount =>
        durationWithCap (if milliseconds then fromMillis amount.toNat else fromSecs amount.toNat)
    | .string text => parseRetryDuration text
    | _ => none
  else none

mutual

def structuredRetryDuration : Value → Option Duration
  | .object fields =>
      (fields.findSome? fun field => retryFieldDuration field.1 field.2).or
        (structuredRetryFields fields)
  | .array items => structuredRetryItems items
  | _ => none

def structuredRetryFields : List (String × Value) → Option Duration
  | [] => none
  | (_, value) :: rest => (structuredRetryDuration value).or (structuredRetryFields rest)

def structuredRetryItems : List Value → Option Duration
  | [] => none
  | value :: rest => (structuredRetryDuration value).or (structuredRetryItems rest)

end

mutual

def extractErrorMessage : Value → Option String
  | .string text => some text
  | .object fields =>
      (["message", "detail", "error_description"].findSome? fun key =>
        (Map.get key fields).bind Value.asStr).or (errorMemberMessage fields)
  | _ => none

def errorMemberMessage : List (String × Value) → Option String
  | [] => none
  | (name, value) :: rest =>
      if "error" = name then extractErrorMessage value else errorMemberMessage rest

end

mutual

def extractModel : Value → Option String
  | .object fields =>
      ((Map.get "model" fields).bind Value.asStr).or (extractModelFields fields)
  | .array items => extractModelItems items
  | _ => none

def extractModelFields : List (String × Value) → Option String
  | [] => none
  | (_, value) :: rest => (extractModel value).or (extractModelFields rest)

def extractModelItems : List Value → Option String
  | [] => none
  | value :: rest => (extractModel value).or (extractModelItems rest)

end

def modelFromText (text : String) : Option String :=
  let marker := " on model ".toList
  (find marker (toAsciiLowercase text.toList)).bind fun position =>
    let tail := trimStart (text.toList.drop (position + marker.length))
    let word := (split isWhitespace tail).headD []
    let model := trim (trimEndMatches (fun c => c == '.' || c == ',' || c == ';') word)
    if model.isEmpty then none else some (String.ofList model)

def retryHint (env : ParseEnv) (now : SystemTime) (headers : HeaderMap) (body : Bytes)
    (fallback : Duration) : RetryHint :=
  let value := env.codec.fromSlice body
  let text := fromUtf8Lossy body
  let message := (value.bind extractErrorMessage).or
    (if (trim text).isEmpty then none else some (String.ofList (trim text)))
  let model := (value.bind extractModel).or (message.bind modelFromText)
  match (OrderedMap.lookup "retry-after" headers).bind env.headerToStr |>.bind
      (parseRetryAfterHeader env now) with
  | some duration => ⟨duration, .retryAfter, message, model⟩
  | none =>
      match value.bind structuredRetryDuration with
      | some duration => ⟨duration, .structuredJson, message, model⟩
      | none =>
          match message.bind parseRetryDuration with
          | some duration => ⟨duration, .humanText, message, model⟩
          | none => ⟨min fallback maxParsedCooldown, .fallback, message, model⟩

def disposition (env : ParseEnv) (outerStatus : Nat) (body : Bytes) : UpstreamDisposition :=
  if isSuccess outerStatus then .success
  else if outerStatus = tooManyRequests then .directRateLimited429
  else if isServerError outerStatus && isProxyWrapped429 env body then .proxyWrappedRateLimited429
  else .nonFailoverHttpError

def classifyUpstreamResponse (env : ParseEnv) (now : SystemTime) (outerStatus : Nat)
    (headers : HeaderMap) (body : Bytes) (fallback : Duration) : ClassifiedUpstreamResponse :=
  let classified := disposition env outerStatus body
  { outerStatus := outerStatus
    effectiveStatus := if classified.isRateLimited then tooManyRequests else outerStatus
    disposition := classified
    retryHint :=
      if classified.isRateLimited then some (retryHint env now headers body fallback) else none }

theorem classify_retryHint_isSome (env : ParseEnv) (now : SystemTime) (outerStatus : Nat)
    (headers : HeaderMap) (body : Bytes) (fallback : Duration) :
    (classifyUpstreamResponse env now outerStatus headers body fallback).retryHint.isSome =
      (classifyUpstreamResponse env now outerStatus headers body fallback).disposition.isRateLimited := by
  simp only [classifyUpstreamResponse]
  split <;> simp_all

theorem retryHint_model (env : ParseEnv) (now : SystemTime) (headers : HeaderMap) (body : Bytes)
    (fallback : Duration) {model : String}
    (found : (env.codec.fromSlice body).bind extractModel = some model) :
    (retryHint env now headers body fallback).model = some model := by
  simp only [retryHint, found, Option.some_or]
  split
  · rfl
  · split
    · rfl
    · split <;> rfl

example : parseRetryDuration "Daily limit. Try again in 2h 30m" = some (fromSecs 9000) := by decide

end ClineProxy
