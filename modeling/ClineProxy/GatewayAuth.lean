import ClineProxy.JsonText
import ClineProxy.RetryAfter
import Mathlib.Data.Nat.Bitwise

/-! The authentication of a client, and the comparison of its credential with the gateway's key. -/

namespace ClineProxy

open Json

def constantTimeEq (left right : List UInt8) : Bool :=
  (List.range (max left.length right.length)).foldl
    (fun difference index =>
      difference ||| ((left[index]?).getD 0 ^^^ (right[index]?).getD 0).toNat)
    (left.length ^^^ right.length) == 0

theorem foldl_or_eq_zero {indexes : List Nat} {part : Nat → Nat} {start : Nat} :
    indexes.foldl (fun total index => total ||| part index) start = 0 ↔
      start = 0 ∧ ∀ index ∈ indexes, part index = 0 := by
  induction indexes generalizing start with
  | nil => simp
  | cons first rest ih =>
      rw [List.foldl_cons, ih, Nat.or_eq_zero_iff, List.forall_mem_cons, and_assoc]

/-- Different lengths are seen although the shorter one is read as if it ended in zeros. -/
theorem constantTimeEq_iff {left right : List UInt8} :
    constantTimeEq left right = true ↔ left = right := by
  rw [constantTimeEq, beq_iff_eq, foldl_or_eq_zero, Nat.xor_eq_zero_iff]
  constructor
  · rintro ⟨length, parts⟩
    refine List.ext_getElem length fun index below more => ?_
    have part := parts index (List.mem_range.mpr (lt_max_of_lt_left below))
    rw [List.getElem?_eq_getElem below, List.getElem?_eq_getElem more] at part
    exact UInt8.xor_eq_zero_iff.mp (UInt8.toNat_inj.mp part)
  · rintro rfl
    exact ⟨rfl, fun index _ => by simp⟩

abbrev RequestHeaders := List (String × List UInt8)

section Middleware

/-! `visible` is whether a header value can be read as text, as which it has the same bytes. -/

variable (visible : List UInt8 → Bool)

def readHeader (name : String) (headers : RequestHeaders) : Option (List UInt8) :=
  (OrderedMap.lookup name headers).filter visible

def bearerScheme : List UInt8 := textBytes "Bearer "

def bearerCredential (headers : RequestHeaders) : Option (List UInt8) :=
  (readHeader visible "authorization" headers).bind fun value => value.dropPrefix? bearerScheme

def authMiddleware (apiKey path requestId : String) (headers : RequestHeaders) :
    Option FailureResponse :=
  let anthropic := Text.startsWith "/v1/messages".toList path.toList ||
    (OrderedMap.lookup "anthropic-version" headers).isSome
  let xApiKey := readHeader visible "x-api-key" headers
  if ((bearerCredential visible headers).or xApiKey).any fun candidate =>
      constantTimeEq candidate (textBytes apiKey) then none
  else if anthropic then
    some (anthropicError 401 "authentication_error" "invalid gateway API key" requestId)
  else some (openaiError 401 "invalid gateway API key")

/-- The first `Authorization` value can be read and has the credential behind its scheme. -/
def PresentsBearer (headers : RequestHeaders) (credential : List UInt8) : Prop :=
  ∃ value, OrderedMap.lookup "authorization" headers = some value ∧ visible value = true ∧
    value = bearerScheme ++ credential

/-- The first `x-api-key` value can be read and is the credential. -/
def PresentsKey (headers : RequestHeaders) (credential : List UInt8) : Prop :=
  OrderedMap.lookup "x-api-key" headers = some credential ∧ visible credential = true

/-- The bearer credential, or the key where there is no bearer credential. -/
def Selects (headers : RequestHeaders) (credential : List UInt8) : Prop :=
  PresentsBearer visible headers credential ∨
    (∀ other, ¬PresentsBearer visible headers other) ∧ PresentsKey visible headers credential

variable {visible} {headers : RequestHeaders} {credential : List UInt8}

theorem readHeader_eq_some {name : String} {value : List UInt8} :
    readHeader visible name headers = some value ↔
      OrderedMap.lookup name headers = some value ∧ visible value = true :=
  Option.filter_eq_some_iff

theorem bearerCredential_eq_some : bearerCredential visible headers = some credential ↔
    PresentsBearer visible headers credential := by
  rw [bearerCredential, Option.bind_eq_some_iff]
  refine exists_congr fun value => ?_
  rw [readHeader_eq_some, and_assoc, List.dropPrefix?_eq_some_iff]
  refine and_congr_right fun _ => and_congr_right fun _ => ?_
  constructor
  · rintro ⟨scheme, parts, same⟩
    rw [parts, eq_of_beq same]
  · intro parts
    exact ⟨bearerScheme, parts, beq_self_eq_true _⟩

theorem selected_iff :
    (bearerCredential visible headers).or (readHeader visible "x-api-key" headers) =
      some credential ↔ Selects visible headers credential := by
  rw [Option.or_eq_some_iff, bearerCredential_eq_some, readHeader_eq_some,
    Option.eq_none_iff_forall_ne_some]
  refine or_congr_right (and_congr_left fun _ => forall_congr' fun other => ?_)
  rw [Ne, bearerCredential_eq_some]

end Middleware

/-- The handler runs exactly when the credential that is selected is the gateway's key, and the
comparison decides whether two strings of bytes are equal. -/
theorem gateway_auth (visible : List UInt8 → Bool) (apiKey path requestId : String)
    (headers : RequestHeaders) :
    (authMiddleware visible apiKey path requestId headers = none ↔
      Selects visible headers (textBytes apiKey)) ∧
    ∀ left right, constantTimeEq left right = true ↔ left = right := by
  refine ⟨?_, fun left right => constantTimeEq_iff⟩
  rw [← selected_iff, authMiddleware]
  have matched : (((bearerCredential visible headers).or
      (readHeader visible "x-api-key" headers)).any fun candidate =>
        constantTimeEq candidate (textBytes apiKey)) = true ↔
      (bearerCredential visible headers).or (readHeader visible "x-api-key" headers) =
        some (textBytes apiKey) := by
    rw [Option.any_eq_true]
    constructor
    · rintro ⟨candidate, selected, same⟩
      rw [selected, constantTimeEq_iff.mp same]
    · intro selected
      exact ⟨_, selected, constantTimeEq_iff.mpr rfl⟩
  rw [← matched]
  split
  next reached => exact iff_of_true rfl reached
  next refused =>
    refine iff_of_false ?_ refused
    intro passed
    split at passed <;> cases passed

def visibleAscii (value : List UInt8) : Bool :=
  value.all fun byte => byte == 9 || (32 ≤ byte && byte < 127)

def mixedHeaders : RequestHeaders :=
  [("authorization", textBytes "Bearer other"), ("x-api-key", textBytes "gateway-secret")]

theorem gateway_auth_mixed : ¬ ∀ (apiKey path requestId : String) (headers : RequestHeaders),
    authMiddleware visibleAscii apiKey path requestId headers = none ↔
      PresentsBearer visibleAscii headers (textBytes apiKey) ∨
        PresentsKey visibleAscii headers (textBytes apiKey) := by
  intro claim
  have reached := (claim "gateway-secret" "/v1/models" "req_1" mixedHeaders).mpr
    (.inr ⟨rfl, by decide +kernel⟩)
  have refused : (authMiddleware visibleAscii "gateway-secret" "/v1/models" "req_1"
      mixedHeaders).isSome = true := by decide +kernel
  rw [reached] at refused
  cases refused

end ClineProxy
