import ClineProxy.PoolChecks

/-!
`state.rs` and the persistence half of `pool.rs`: the state file, what the pool writes
to it and what a fresh pool takes back from it.
-/

namespace ClineProxy

open Clock Text

def stateSchemaVersion : Nat := 1

structure PersistedKeyState where
  cooldownUntilUnixMs : Option Nat
  rateLimitKind : Option RateLimitKind
  model : Option String
  last429AtUnixMs : Option Nat
  lastSuccessAtUnixMs : Option Nat
  deriving DecidableEq

/-- `keys` is ordered by name. -/
structure PersistedState where
  version : Nat
  updatedAtUnixMs : Nat
  activeKey : Option String
  keys : List (String × PersistedKeyState)
  deriving DecidableEq

/-- The serializer of the state file; decoding fails with a message. -/
structure StateCodec where
  encode : PersistedState → Bytes
  decode : Bytes → Except String PersistedState

inductive FileRead where
  | notFound
  | failed (error : String)
  | contents (bytes : Bytes)

inductive StateLoadOutcome where
  | missing
  | loaded (state : PersistedState)
  | corrupt (reason : String)

def entryComplaint (entry : String × PersistedKeyState) : Option String :=
  if (trim entry.1.toList).isEmpty then some "key names must not be empty"
  else if entry.2.model.any fun model => 256 < model.utf8ByteSize then
    some ("persisted model name for key " ++ quoteDebug entry.1 ++ " is implausibly long")
  else none

def load (codec : StateCodec) : FileRead → StateLoadOutcome
  | .notFound => .missing
  | .failed error => .corrupt ("could not read runtime state file: " ++ error)
  | .contents bytes =>
      match codec.decode bytes with
      | .error error => .corrupt ("invalid JSON: " ++ error)
      | .ok state =>
          if state.version ≠ stateSchemaVersion then
            .corrupt ("unsupported schema version " ++ toString state.version ++ " (expected " ++
              toString stateSchemaVersion ++ ")")
          else if state.updatedAtUnixMs = 0 then .corrupt "updated_at_unix_ms must be positive"
          else
            match state.keys.findSome? entryComplaint with
            | some complaint => .corrupt complaint
            | none => .loaded state

/-- The bytes that the rename puts in place of the file. -/
def store (codec : StateCodec) (state : PersistedState) : Bytes := codec.encode state

def persistKey (key : KeyEntry) : PersistedKeyState :=
  { cooldownUntilUnixMs := key.runtime.cooldownUntilWall.map unixMs
    rateLimitKind := key.runtime.rateLimitKind
    model := key.runtime.last429Model
    last429AtUnixMs := key.runtime.last429At.map unixMs
    lastSuccessAtUnixMs := key.runtime.lastSuccessAt.map unixMs }

def wallFromUnixMs (milliseconds : Nat) : Option SystemTime :=
  systemCheckedAdd unixEpoch (fromMillis milliseconds)

def restoreDeadline (clock : Reading) (deadlineMs : Nat) : Instant × SystemTime :=
  let deadline := (systemCheckedAdd unixEpoch (fromMillis deadlineMs)).getD clock.wall
  let resumed := (systemDurationSince deadline clock.wall).map fun remaining =>
    (instantCheckedAdd clock.mono (min remaining maxCooldown)).getD clock.mono
  (resumed.getD clock.mono, deadline)

def restoreRuntime (clock : Reading) (persisted : PersistedKeyState) (runtime : KeyRuntime) :
    KeyRuntime :=
  let deadlines := persisted.cooldownUntilUnixMs.map (restoreDeadline clock)
  { runtime with
    cooldownUntil := (deadlines.map Prod.fst).or runtime.cooldownUntil
    cooldownUntilWall := (deadlines.map Prod.snd).or runtime.cooldownUntilWall
    rateLimitKind := persisted.rateLimitKind
    last429Model := persisted.model
    last429At := persisted.last429AtUnixMs.bind wallFromUnixMs
    lastSuccessAt := persisted.lastSuccessAtUnixMs.bind wallFromUnixMs }

namespace KeyPool

def persistedState (pool : KeyPool) (clock : Reading) : PersistedState :=
  { version := stateSchemaVersion
    updatedAtUnixMs := unixMs clock.wall
    activeKey := pool.activeKeyName
    keys := OrderedMap.collect KeyEntry.name persistKey pool.keys }

def indexOfName (pool : KeyPool) (name : String) : Option Nat :=
  pool.keys.findIdx? fun key => key.name = name

/-- Entries of unknown names are dropped. -/
def restoreEntry (clock : Reading) (pool : KeyPool) (entry : String × PersistedKeyState) :
    KeyPool :=
  match pool.indexOfName entry.1 with
  | none => pool
  | some index => pool.updateKey index fun key =>
      { key with runtime := restoreRuntime clock entry.2 key.runtime }

def restoreActive (pool : KeyPool) (state : PersistedState) : KeyPool :=
  match state.activeKey.bind pool.indexOfName with
  | none => pool
  | some index =>
      { pool with active := index, activeSinceUnix := state.updatedAtUnixMs / 1000 }

def restore (pool : KeyPool) (state : PersistedState) (clock : Reading) : KeyPool :=
  (state.keys.foldl (restoreEntry clock) pool).restoreActive state

end KeyPool

structure ValidKeyConfig (configured : List ClineKeyConfig) : Prop where
  names_not_blank : ∀ key ∈ configured, (trim key.name.toList).isEmpty = false
  names_distinct : (configured.map ClineKeyConfig.name).Nodup
  some_enabled : ∃ key ∈ configured, key.enabled = true

end ClineProxy
