import ClineProxy.RateLimit

/-!
`pool.rs`: sticky sequential selection over the configured Cline API keys. Every
operation reads both clocks once and is one atomic step on the pool.
-/

namespace ClineProxy

open Clock

def maxCooldown : Duration := fromSecs (366 * 24 * 60 * 60)

structure ClineKeyConfig where
  name : String
  apiKey : String
  enabled : Bool
  deriving DecidableEq

inductive KeyPhase where
  | healthy
  | cooling
  | halfOpen
  | probing
  deriving DecidableEq

structure KeyRuntime where
  cooldownUntil : Option Instant
  cooldownUntilWall : Option SystemTime
  probeInFlight : Bool
  rateLimitKind : Option RateLimitKind
  last429At : Option SystemTime
  last429Message : Option String
  last429Model : Option String
  lastSuccessAt : Option SystemTime
  deriving DecidableEq

def KeyRuntime.default : KeyRuntime :=
  { cooldownUntil := none
    cooldownUntilWall := none
    probeInFlight := false
    rateLimitKind := none
    last429At := none
    last429Message := none
    last429Model := none
    lastSuccessAt := none }

structure KeyEntry where
  configuredIndex : Nat
  name : String
  apiKey : String
  runtime : KeyRuntime
  requests : UInt64
  successes : UInt64
  rateLimits : UInt64
  deriving DecidableEq

/-- `dirty` is the permit that `notify_one` leaves for the state writer. -/
structure KeyPool where
  keys : List KeyEntry
  active : Nat
  activeSinceUnix : Nat
  dirty : Bool
  deriving DecidableEq

structure SelectedKey where
  index : Nat
  configuredIndex : Nat
  name : String
  isProbe : Bool
  apiKey : String
  deriving DecidableEq

def unixMs (time : SystemTime) : Nat :=
  ((systemDurationSince time unixEpoch).map fun duration =>
    duration / nanosPerMilli % u64Bound).getD 0

def unixSecs (time : SystemTime) : Nat :=
  ((systemDurationSince time unixEpoch).map fun duration => duration / nanosPerSec).getD 0

namespace KeyRuntime

def isCooling (runtime : KeyRuntime) (now : Instant) : Bool :=
  runtime.cooldownUntil.any fun deadline => now < deadline

def phase (runtime : KeyRuntime) (now : Instant) : KeyPhase :=
  match runtime.cooldownUntil with
  | none => .healthy
  | some deadline =>
      if now < deadline then .cooling else if runtime.probeInFlight then .probing else .halfOpen

def passesScan (runtime : KeyRuntime) (now : Instant) (allowProbed : Bool) : Bool :=
  !runtime.isCooling now &&
    !(runtime.cooldownUntil.isSome && runtime.probeInFlight && !allowProbed)

/-- The scan takes the probe lease of an expired key that has none. -/
def grantsProbe (runtime : KeyRuntime) : Bool :=
  runtime.cooldownUntil.isSome && !runtime.probeInFlight

def eligibleForAdvance (runtime : KeyRuntime) (now : Instant) : Bool :=
  !runtime.isCooling now && !runtime.probeInFlight

end KeyRuntime

namespace KeyPool

def new (configured : List ClineKeyConfig) (wallNow : SystemTime) : KeyPool :=
  { keys := (configured.zipIdx.filter fun entry => entry.1.enabled).map fun entry =>
      { configuredIndex := entry.2
        name := entry.1.name
        apiKey := entry.1.apiKey
        runtime := .default
        requests := 0
        successes := 0
        rateLimits := 0 }
    active := 0
    activeSinceUnix := unixSecs wallNow
    dirty := false }

def len (pool : KeyPool) : Nat := pool.keys.length

def cyclicFrom (pool : KeyPool) (start : Nat) : List Nat :=
  (List.range pool.len).map fun offset => (start + offset) % pool.len

def updateKey (pool : KeyPool) (index : Nat) (change : KeyEntry → KeyEntry) : KeyPool :=
  { pool with keys := pool.keys.modify index change }

def runtimeSatisfies (pool : KeyPool) (index : Nat) (test : KeyRuntime → Bool) : Bool :=
  pool.keys[index]?.any fun key => test key.runtime

def isCooling (pool : KeyPool) (index : Nat) (now : Instant) : Bool :=
  pool.keys[index]?.all fun key => key.runtime.isCooling now

/-- The swap succeeds only when `previous` is still the active key. -/
def setActive (pool : KeyPool) (index previous : Nat) (wallNow : SystemTime) : KeyPool :=
  { pool with
    active := if pool.active = previous then index else pool.active
    activeSinceUnix := unixSecs wallNow }

def scanIndex (pool : KeyPool) (attempted : List Nat) (active : Nat) (now : Instant)
    (allowProbed : Bool) : Option Nat :=
  (pool.cyclicFrom active).find? fun index =>
    !attempted.contains index &&
      pool.runtimeSatisfies index fun runtime => runtime.passesScan now allowProbed

def takeKey (key : KeyEntry) : KeyEntry :=
  { key with
    runtime := { key.runtime with
      probeInFlight := key.runtime.probeInFlight || key.runtime.grantsProbe }
    requests := key.requests + 1 }

def scan (pool : KeyPool) (attempted : List Nat) (active : Nat) (clock : Reading)
    (allowProbed : Bool) : Option (SelectedKey × KeyPool) := do
  let index ← pool.scanIndex attempted active clock.mono allowProbed
  let key ← pool.keys[index]?
  let taken := pool.updateKey index takeKey
  let moved := if index ≠ active then taken.setActive index active clock.wall else taken
  return ({ index := index
            configuredIndex := key.configuredIndex
            name := key.name
            isProbe := key.runtime.grantsProbe
            apiKey := key.apiKey }, moved)

def select (pool : KeyPool) (attempted : List Nat) (clock : Reading) :
    Option (SelectedKey × KeyPool) :=
  if pool.len = 0 then none
  else
    let active := pool.active % pool.len
    (pool.scan attempted active clock false).or (pool.scan attempted active clock true)

def advanceCandidate (pool : KeyPool) (rejected : Nat) (now : Instant) : Option Nat :=
  ((List.range' 1 (pool.len - 1)).map fun offset => (rejected + offset) % pool.len).find?
    fun candidate => pool.runtimeSatisfies candidate fun runtime => runtime.eligibleForAdvance now

def advanceIfActive (pool : KeyPool) (rejected : Nat) (clock : Reading) : KeyPool :=
  if pool.len = 0 ∨ pool.active % pool.len ≠ rejected then pool
  else
    match pool.advanceCandidate rejected clock.mono with
    | some candidate => pool.setActive candidate rejected clock.wall
    | none => pool

def notifyDirty (pool : KeyPool) : KeyPool := { pool with dirty := true }

def coolKey (cooldown : Duration) (kind : RateLimitKind) (message model : Option String)
    (clock : Reading) (key : KeyEntry) : KeyEntry :=
  let capped := min cooldown maxCooldown
  { key with
    runtime := { key.runtime with
      cooldownUntil := instantCheckedAdd clock.mono capped
      cooldownUntilWall := some ((systemCheckedAdd clock.wall capped).getD clock.wall)
      probeInFlight := false
      rateLimitKind := some kind
      last429At := some clock.wall
      last429Message := message
      last429Model := model }
    rateLimits := key.rateLimits + 1 }

def markHttp429 (pool : KeyPool) (index : Nat) (cooldown : Duration) (kind : RateLimitKind)
    (message model : Option String) (clock : Reading) : KeyPool :=
  ((pool.updateKey index (coolKey cooldown kind message model clock)).advanceIfActive
    index clock).notifyDirty

def healKey (wallNow : SystemTime) (key : KeyEntry) : KeyEntry :=
  { key with
    runtime := { key.runtime with
      cooldownUntil := none
      cooldownUntilWall := none
      probeInFlight := false
      lastSuccessAt := some wallNow }
    successes := key.successes + 1 }

def markSuccess (pool : KeyPool) (index : Nat) (clock : Reading) : KeyPool :=
  (pool.updateKey index (healKey clock.wall)).notifyDirty

def clearProbe (key : KeyEntry) : KeyEntry :=
  { key with runtime := { key.runtime with probeInFlight := false } }

def releaseProbe (pool : KeyPool) (index : Nat) : KeyPool := pool.updateKey index clearProbe

def earliestRetryAfter (pool : KeyPool) (now : Instant) : Option Duration :=
  (pool.keys.filterMap fun key =>
    key.runtime.cooldownUntil.bind fun deadline => instantCheckedDurationSince deadline now).min?

def activeKeyName (pool : KeyPool) : Option String :=
  if pool.len = 0 then none else pool.keys[pool.active % pool.len]?.map KeyEntry.name

end KeyPool

/-- The operations `send_chat` performs on the pool, its reads aside. -/
inductive PoolOp where
  | select (attempted : List Nat)
  | markHttp429 (index : Nat) (cooldown : Duration) (kind : RateLimitKind)
      (message model : Option String)
  | markSuccess (index : Nat)
  | releaseProbe (index : Nat)
  deriving DecidableEq

def PoolOp.apply (clock : Reading) (pool : KeyPool) : PoolOp → KeyPool
  | .select attempted => (pool.select attempted clock).elim pool Prod.snd
  | .markHttp429 index cooldown kind message model =>
      pool.markHttp429 index cooldown kind message model clock
  | .markSuccess index => pool.markSuccess index clock
  | .releaseProbe index => pool.releaseProbe index

end ClineProxy
