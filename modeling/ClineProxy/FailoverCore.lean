import ClineProxy.TransitionSystem
import ClineProxy.Redaction
import ClineProxy.RuntimeState

/-!
`upstream.rs`: the failover loop of `send_chat`, cut at its awaits and pool operations,
and the gateway in which any number of such requests, the clock and the debounced state
writer take turns on one pool.
-/

namespace ClineProxy

open Clock

def maxErrorBodyBytes : Nat := 64 * 1024

/-- The body is the chunks that arrive before its end or a read error. -/
structure HttpResponse where
  status : Nat
  headers : HeaderMap
  chunks : List Bytes

inductive Outcome where
  | transport (error : String)
  | response (response : HttpResponse)

def readLimitedFrom (limit : Nat) (output : Bytes) : List Bytes → Bytes
  | [] => output
  | chunk :: rest =>
      let remaining := limit - output.length
      if remaining = 0 then output
      else
        let extended := output ++ chunk.take (min chunk.length remaining)
        if limit ≤ extended.length then extended else readLimitedFrom limit extended rest

def readLimited (chunks : List Bytes) (limit : Nat) : Bytes := readLimitedFrom limit [] chunks

theorem readLimitedFrom_eq {limit : Nat} (chunks : List Bytes) {output : Bytes}
    (room : output.length ≤ limit) :
    readLimitedFrom limit output chunks = (output ++ chunks.flatten).take limit := by
  induction chunks generalizing output with
  | nil => simp [readLimitedFrom, List.take_of_length_le room]
  | cons chunk rest ih =>
      simp only [readLimitedFrom, List.flatten_cons]
      by_cases full : limit - output.length = 0
      · have same : output.length = limit := by omega
        simp [← same]
      · rw [if_neg full, ← List.append_assoc]
        by_cases fits : chunk.length < limit - output.length
        · have whole : chunk.take (min chunk.length (limit - output.length)) = chunk :=
            List.take_of_length_le (by omega)
          have short : (output ++ chunk).length < limit := by
            rw [List.length_append]
            omega
          rw [whole, if_neg (by omega), ih (by omega)]
        · have long : limit ≤ (output ++ chunk).length := by
            rw [List.length_append]
            omega
          have cut : output ++ chunk.take (min chunk.length (limit - output.length)) =
              (output ++ chunk).take limit := by
            rw [List.take_append, List.take_of_length_le room, Nat.min_eq_right (by omega)]
          have reached : ((output ++ chunk).take limit).length = limit :=
            List.length_take_of_le long
          rw [cut, if_pos (by omega), List.take_append_of_le_length long]

/-- What is read of a body is its first bytes, up to the limit. -/
theorem readLimited_eq (chunks : List Bytes) (limit : Nat) :
    readLimited chunks limit = chunks.flatten.take limit :=
  readLimitedFrom_eq chunks (Nat.zero_le limit)

inductive UpstreamResponse where
  | success (response : HttpResponse)
  | httpError (headers : HeaderMap) (body : Bytes) (classification : ClassifiedUpstreamResponse)

structure UpstreamResult where
  response : UpstreamResponse
  selected : SelectedKey
  attempt : Nat
  failoverCount : Nat

inductive UpstreamError where
  | transport (error : String)
  | allRateLimited (retryAfter : Option Duration)

abbrev SendResult := Except UpstreamError UpstreamResult

structure ClineUpstream where
  env : ParseEnv
  fallbackCooldown : Duration
  exactSecrets : List String

inductive Verdict where
  | transportFailed (error : String)
  | succeeded (response : HttpResponse)
  | rejected (headers : HeaderMap) (body : Bytes) (classification : ClassifiedUpstreamResponse)
  | limited (hint : RetryHint)

def HttpResponse.errorBody (response : HttpResponse) : Bytes :=
  readLimited response.chunks maxErrorBodyBytes

def ClineUpstream.classify (upstream : ClineUpstream) (now : SystemTime)
    (response : HttpResponse) : ClassifiedUpstreamResponse :=
  classifyUpstreamResponse upstream.env now response.status response.headers response.errorBody
    upstream.fallbackCooldown

def judge (upstream : ClineUpstream) (now : SystemTime) : Outcome → Verdict
  | .transport error => .transportFailed error
  | .response response =>
      if isSuccess response.status then .succeeded response
      else
        let body := response.errorBody
        let classification := upstream.classify now response
        if !classification.disposition.isRateLimited then
          .rejected response.headers body classification
        else
          match classification.retryHint with
          | none => .rejected response.headers body classification
          | some hint => .limited hint

def limitedOp (upstream : ClineUpstream) (index : Nat) (hint : RetryHint) : PoolOp :=
  let safeMessage := hint.message.map fun text => sanitizeText text upstream.exactSecrets
  let safeModel := hint.model.map fun text => sanitizeText text upstream.exactSecrets
  .markHttp429 index hint.duration (classifyRateLimitKind safeMessage hint.duration)
    safeMessage safeModel

inductive Phase where
  | idle
  | selecting
  | exhausted
  | sending (selected : SelectedKey)
  | limited (selected : SelectedKey)
  | settled (selected : SelectedKey) (exit : Option SendResult)
  | finished (result : SendResult)
  | cancelled

structure Answer where
  index : Nat
  now : SystemTime
  outcome : Outcome

/-- `answers`, `calls` and `lastSelect` only record what the request has done: the outcome
of each attempt, the pool operations made, and what the last selection read. -/
structure Request where
  attempted : List Nat
  phase : Phase
  answers : List Answer
  calls : List PoolOp
  lastSelect : Option (KeyPool × Reading)

def Request.fresh : Request := ⟨[], .idle, [], [], none⟩

inductive RequestEvent where
  | start
  | select
  | exhaust
  | respond (outcome : Outcome)
  | retry
  | settle
  | cancel

def leaseOp (selected : SelectedKey) : Option PoolOp :=
  if selected.isProbe then some (.releaseProbe selected.index) else none

def failoverResult (request : Request) (selected : SelectedKey) (response : UpstreamResponse) :
    UpstreamResult :=
  { response := response
    selected := selected
    attempt := request.attempted.length
    failoverCount := request.attempted.length - 1 }

def allRateLimited (pool : KeyPool) (clock : Reading) : SendResult :=
  .error (.allRateLimited (pool.earliestRetryAfter clock.mono))

def Request.conclude (upstream : ClineUpstream) (request : Request) (selected : SelectedKey) :
    Verdict → Option PoolOp × Phase
  | .transportFailed error => (leaseOp selected, .finished (.error (.transport error)))
  | .succeeded response =>
      (some (.markSuccess selected.index),
        .settled selected (some (.ok (failoverResult request selected (.success response)))))
  | .rejected headers body classification =>
      (leaseOp selected,
        .finished (.ok (failoverResult request selected (.httpError headers body classification))))
  | .limited hint => (some (limitedOp upstream selected.index hint), .limited selected)

/-- One step of a request: the pool operation it makes, if any, and its next state. -/
def Request.step (upstream : ClineUpstream) (pool : KeyPool) (clock : Reading)
    (request : Request) (event : RequestEvent) : Option (Option PoolOp × Request) :=
  match request.phase, event with
  | .idle, .start => some (none, { request with phase := .selecting })
  | .selecting, .select =>
      match pool.select request.attempted clock with
      | none => some (some (.select request.attempted),
          { request with phase := .exhausted, lastSelect := some (pool, clock) })
      | some (selected, _) => some (some (.select request.attempted),
          { request with
            attempted := selected.index :: request.attempted
            phase := .sending selected
            lastSelect := some (pool, clock) })
  | .exhausted, .exhaust =>
      some (none, { request with phase := .finished (allRateLimited pool clock) })
  | .sending selected, .respond outcome =>
      let (op, phase) := request.conclude upstream selected (judge upstream clock.wall outcome)
      some (op, { request with
        phase := phase
        answers := request.answers ++ [⟨selected.index, clock.wall, outcome⟩] })
  | .sending selected, .cancel => some (leaseOp selected, { request with phase := .cancelled })
  | .limited selected, .retry =>
      let exit :=
        if pool.len ≤ request.attempted.length then some (allRateLimited pool clock) else none
      some (none, { request with phase := .settled selected exit })
  | .settled selected exit, .settle =>
      some (leaseOp selected, { request with phase := exit.elim .selecting .finished })
  | _, _ => none

inductive WriterPhase where
  | waiting
  | debouncing
  deriving DecidableEq

structure World where
  pool : KeyPool
  clock : Reading
  requests : Nat → Request
  file : Option PersistedState
  writer : WriterPhase

inductive Event where
  | tick (clock : Reading)
  | request (id : Nat) (event : RequestEvent)
  | wake
  | flush

def applyOp (clock : Reading) (pool : KeyPool) (op : Option PoolOp) : KeyPool :=
  op.elim pool (PoolOp.apply clock pool)

def World.step (upstream : ClineUpstream) (world : World) : Event → Option World
  | .tick clock =>
      if world.clock.mono ≤ clock.mono then some { world with clock := clock } else none
  | .request id event =>
      (Request.step upstream world.pool world.clock (world.requests id) event).map fun next =>
        { world with
          pool := applyOp world.clock world.pool next.1
          requests := Function.update world.requests id
            { next.2 with calls := (world.requests id).calls ++ next.1.toList } }
  | .wake =>
      if world.pool.dirty ∧ world.writer = .waiting then
        some { world with pool := { world.pool with dirty := false }, writer := .debouncing }
      else none
  | .flush =>
      if world.writer = .debouncing then
        some { world with
          file := some (world.pool.persistedState world.clock), writer := .waiting }
      else none

/-- No request has begun; the pool may be new or restored, at any clock reading. -/
structure World.Initial (world : World) : Prop where
  pool_valid : world.pool.Valid
  no_requests : ∀ id, world.requests id = Request.fresh

def gateway (upstream : ClineUpstream) : TransitionSystem.System World Event :=
  { initial := World.Initial, step := World.step upstream }

end ClineProxy
