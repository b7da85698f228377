import ClineProxy.FailoverCore
import ClineProxy.ResponseCore

/-! The answer to a request that the upstream did not serve, and its `Retry-After` header. -/

namespace ClineProxy

open Clock Json

/-- A response of the gateway; `Retry-After` is the only header that differs. -/
structure FailureResponse where
  status : Nat
  body : Value
  retryAfter : Option String

def anthropicError (status : Nat) (errorType message requestId : String) : FailureResponse :=
  ⟨status, errorEnvelope errorType message requestId, none⟩

def openaiError (status : Nat) (message : String) : FailureResponse :=
  ⟨status, .object [("error", .object [("type", .string "proxy_error"),
    ("message", .string message)])], none⟩

def transportMessage (errorClass : String) : String :=
  match errorClass with
  | "timeout" => "upstream request timed out"
  | "connect" => "could not connect to upstream"
  | _ => "upstream request failed"

def retryAfterSeconds (duration : Duration) : Nat :=
  max (duration / nanosPerSec) (if 0 < duration % nanosPerSec then 1 else 0)

def upstreamFailure (errorClass : String → String) (anthropic : Bool) (requestId : String) :
    UpstreamError → FailureResponse
  | .transport error =>
      let message := transportMessage (errorClass error)
      if anthropic then anthropicError 502 "api_error" message requestId
      else openaiError 502 message
  | .allRateLimited retryAfter =>
      let message := "all Cline API keys are currently rate-limited"
      let response := if anthropic then anthropicError 429 "rate_limit_error" message requestId
        else openaiError 429 message
      { response with
        retryAfter := retryAfter.map fun duration => toString (retryAfterSeconds duration) }

namespace KeyPool

variable {pool : KeyPool} {now : Instant}

/-- The deadline at which the first key leaves its cooldown. -/
def EarliestDeadline (pool : KeyPool) (deadline : Instant) : Prop :=
  (∃ key ∈ pool.keys, key.runtime.cooldownUntil = some deadline) ∧
    ∀ key ∈ pool.keys, ∀ other, key.runtime.cooldownUntil = some other → deadline ≤ other

/-- A client that waits as long as it is told finds a key that is not cooling. -/
def RetryFindsKey (pool : KeyPool) (now : Instant) (response : FailureResponse) : Prop :=
  ∃ seconds, response.retryAfter = some (toString seconds) ∧
    (∀ deadline, pool.EarliestDeadline deadline → deadline - now ≤ fromSecs seconds) ∧
    ∃ key ∈ pool.keys, key.runtime.isCooling (now + fromSecs seconds) = false

/-- The rest of the first cooldown is a number of whole seconds, or less than one. -/
def RoundRest (pool : KeyPool) (now : Instant) : Prop :=
  ∃ deadline, pool.EarliestDeadline deadline ∧
    ((deadline - now) % nanosPerSec = 0 ∨ deadline - now < nanosPerSec)

theorem cooling_deadline {key : KeyEntry} (cooling : key.runtime.isCooling now = true) :
    ∃ deadline, key.runtime.cooldownUntil = some deadline ∧ now < deadline := by
  rw [KeyRuntime.isCooling, Option.any_eq_true] at cooling
  obtain ⟨deadline, held, ahead⟩ := cooling
  exact ⟨deadline, held, by simpa using ahead⟩

theorem earliestDeadline_unique {first second : Instant} (one : pool.EarliestDeadline first)
    (other : pool.EarliestDeadline second) : first = second := by
  obtain ⟨⟨key, member, held⟩, least⟩ := one
  obtain ⟨⟨another, present, recorded⟩, smallest⟩ := other
  exact Nat.le_antisymm (least another present second recorded) (smallest key member first held)

theorem earliestRetryAfter_cooling (filled : pool.keys ≠ [])
    (cooling : ∀ key ∈ pool.keys, key.runtime.isCooling now = true) :
    ∃ deadline, pool.EarliestDeadline deadline ∧ now < deadline ∧
      pool.earliestRetryAfter now = some (deadline - now) := by
  have rests (key : KeyEntry) (member : key ∈ pool.keys) : ∃ deadline,
      key.runtime.cooldownUntil = some deadline ∧ now < deadline ∧
        (key.runtime.cooldownUntil.bind fun deadline =>
          instantCheckedDurationSince deadline now) = some (deadline - now) := by
    obtain ⟨deadline, held, ahead⟩ := cooling_deadline (cooling key member)
    refine ⟨deadline, held, ahead, ?_⟩
    rw [held, Option.bind_some, instantCheckedDurationSince, if_pos (Nat.le_of_lt ahead)]
  cases least : pool.earliestRetryAfter now with
  | none =>
      obtain ⟨key, member⟩ := List.exists_mem_of_ne_nil _ filled
      obtain ⟨deadline, -, -, rest⟩ := rests key member
      rw [earliestRetryAfter, List.min?_eq_none_iff, List.filterMap_eq_nil_iff] at least
      rw [least key member] at rest
      cases rest
  | some remaining =>
      rw [earliestRetryAfter, List.min?_eq_some_iff] at least
      obtain ⟨found, smallest⟩ := least
      obtain ⟨key, member, rest⟩ := List.mem_filterMap.mp found
      obtain ⟨deadline, held, ahead, same⟩ := rests key member
      obtain rfl := Option.some.inj (rest.symm.trans same)
      refine ⟨deadline, ⟨⟨key, member, held⟩, fun other present recorded holds => ?_⟩, ahead, rfl⟩
      obtain ⟨later, recordedLater, after, rest⟩ := rests other present
      obtain rfl := Option.some.inj (holds.symm.trans recordedLater)
      have least := smallest _ (List.mem_filterMap.mpr ⟨other, present, rest⟩)
      exact (Nat.sub_le_sub_iff_right (Nat.le_of_lt after)).mp least

end KeyPool

theorem le_retryAfterSeconds (nanos : Nat) : nanos ≤ fromSecs (retryAfterSeconds nanos) ↔
    nanos % nanosPerSec = 0 ∨ nanos < nanosPerSec := by
  rw [fromSecs, retryAfterSeconds, nanosPerSec]
  split
  next more =>
    rcases Nat.le_total (nanos / 1000000000) 1 with small | large
    · rw [Nat.max_eq_right small]
      omega
    · rw [Nat.max_eq_left large]
      omega
  next round =>
    have none_left := Nat.eq_zero_of_not_pos round
    rw [Nat.max_zero]
    omega

theorem toString_number {first second : Nat} (same : toString first = toString second) :
    first = second := by
  rw [Nat.toString_eq_ofList_toDigits, Nat.toString_eq_ofList_toDigits] at same
  have digits := congrArg (fun text => Nat.ofDigitChars 10 text.toList 0) same
  simpa using digits

/-- The seconds are enough just when the rest is round. -/
theorem retry_after_enough (errorClass : String → String) (anthropic : Bool) (requestId : String)
    (pool : KeyPool) (now : Instant)
    (cooling : ∀ key ∈ pool.keys, key.runtime.isCooling now = true) :
    pool.RetryFindsKey now (upstreamFailure errorClass anthropic requestId
      (.allRateLimited (pool.earliestRetryAfter now))) ↔ pool.RoundRest now := by
  by_cases filled : pool.keys = []
  · refine iff_of_false ?_ ?_
    · rintro ⟨seconds, -, -, key, member, -⟩
      simp [filled] at member
    · rintro ⟨deadline, ⟨⟨key, member, -⟩, -⟩, -⟩
      simp [filled] at member
  · obtain ⟨deadline, first, ahead, reported⟩ :=
      KeyPool.earliestRetryAfter_cooling filled cooling
    have rounded : pool.RoundRest now ↔
        deadline - now ≤ fromSecs (retryAfterSeconds (deadline - now)) := by
      rw [le_retryAfterSeconds]
      constructor
      · rintro ⟨other, least, round⟩
        exact KeyPool.earliestDeadline_unique least first ▸ round
      · exact fun round => ⟨deadline, first, round⟩
    have header : (upstreamFailure errorClass anthropic requestId
        (.allRateLimited (pool.earliestRetryAfter now))).retryAfter =
          some (toString (retryAfterSeconds (deadline - now))) := by
      rw [reported]
      rfl
    rw [rounded, KeyPool.RetryFindsKey, header]
    constructor
    · rintro ⟨seconds, told, enough, -⟩
      obtain rfl := toString_number (Option.some.inj told)
      exact enough deadline first
    · intro enough
      refine ⟨_, rfl, fun other least => ?_, ?_⟩
      · exact KeyPool.earliestDeadline_unique first least ▸ enough
      · obtain ⟨key, member, held⟩ := first.1
        refine ⟨key, member, ?_⟩
        rw [KeyRuntime.isCooling, held, Option.any_some, decide_eq_false_iff_not, Nat.not_lt]
        exact Nat.sub_le_iff_le_add'.mp enough

def coolingPool : KeyPool where
  keys := [⟨0, "only", "", { KeyRuntime.default with cooldownUntil := some 1500000000 }, 0, 0, 0⟩]
  active := 0
  activeSinceUnix := 0
  dirty := false

theorem retry_after_enough_whole :
    coolingPool.RetryFindsKey 500000000 (upstreamFailure id true "req_1"
      (.allRateLimited (coolingPool.earliestRetryAfter 500000000))) := by
  refine (retry_after_enough id true "req_1" coolingPool 500000000 ?_).mpr
    ⟨1500000000, ⟨?_, ?_⟩, .inl (by decide)⟩
  · decide
  · exact ⟨_, List.mem_singleton_self _, rfl⟩
  · intro key member other held
    rw [List.mem_singleton.mp member] at held
    exact (Option.some.inj held).le

theorem retry_after_enough_fails :
    (∀ key ∈ coolingPool.keys, key.runtime.isCooling 0 = true) ∧
      (upstreamFailure id true "req_1"
        (.allRateLimited (coolingPool.earliestRetryAfter 0))).retryAfter = some "1" ∧
      (∀ key ∈ coolingPool.keys, key.runtime.isCooling (fromSecs 1) = true) ∧
      ¬coolingPool.RetryFindsKey 0 (upstreamFailure id true "req_1"
        (.allRateLimited (coolingPool.earliestRetryAfter 0))) := by
  refine ⟨by decide, by decide, by decide, ?_⟩
  rintro ⟨seconds, told, -, key, member, warm⟩
  have header : (upstreamFailure id true "req_1"
      (.allRateLimited (coolingPool.earliestRetryAfter 0))).retryAfter = some (toString 1) := by
    decide
  obtain rfl := toString_number (Option.some.inj (header.symm.trans told))
  rw [List.mem_singleton.mp member] at warm
  exact absurd warm (by decide)

end ClineProxy
