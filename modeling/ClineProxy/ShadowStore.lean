import ClineProxy.ReasoningShadow
import ClineProxy.TransitionSystem

/-!
Storing into the reasoning shadow store of `reasoning_shadow.rs` under its limits, and its runs.
Byte counts fit the machine word.
-/

namespace ClineProxy

open Clock

/-- The limits; the time to live is a member of the store. -/
structure ShadowLimits where
  maxSessions : Nat
  maxTotalBytes : Nat
  maxEntryBytes : Nat

namespace ReasoningShadowStore

def expired (ttl : Duration) (now : Instant) (session : SessionState) : Bool :=
  session.entries.all fun held => ttl < now - held.2.created

def clearAll (names : List String) (shadow : ReasoningShadowStore) : ReasoningShadowStore :=
  names.foldl (fun shadow name => shadow.clearSession name) shadow

def sweep (now : Instant) (shadow : ReasoningShadowStore) : ReasoningShadowStore :=
  let old := shadow.sessions.filter fun held => expired shadow.ttl now held.2
  shadow.clearAll (old.map Prod.fst)

def removeSession (fingerprint : String) (shadow : ReasoningShadowStore) : ReasoningShadowStore :=
  match OrderedMap.lookup fingerprint shadow.sessions with
  | none => shadow
  | some session =>
      { shadow with
        sessions := shadow.sessions.filter fun held => held.1 ≠ fingerprint
        totalBytes := shadow.totalBytes - session.bytes }

/-- Every round takes one name from the queue, so its length is enough of them. -/
def evictWhile (exceeds : ReasoningShadowStore → Bool) :
    Nat → ReasoningShadowStore → ReasoningShadowStore
  | 0, shadow => shadow
  | rounds + 1, shadow =>
      if exceeds shadow then
        match shadow.lru with
        | [] => shadow
        | victim :: rest =>
            evictWhile exceeds rounds { removeSession victim shadow with lru := rest }
      else shadow

def overBytes (limits : ShadowLimits) (shadow : ReasoningShadowStore) : Bool :=
  limits.maxTotalBytes < shadow.totalBytes

def overSessions (limits : ShadowLimits) (shadow : ReasoningShadowStore) : Bool :=
  limits.maxSessions < shadow.sessions.length

def enforceLimits (limits : ShadowLimits) (now : Instant) (shadow : ReasoningShadowStore) :
    ReasoningShadowStore :=
  let shadow := sweep now shadow
  let shadow := evictWhile (overBytes limits) shadow.lru.length shadow
  evictWhile (overSessions limits) shadow.lru.length shadow

def skips (limits : ShadowLimits) (toolCallIds : List String) (reasoning : String) : Bool :=
  reasoning.isEmpty || toolCallIds.isEmpty || limits.maxEntryBytes < reasoning.utf8ByteSize

variable (hash : String → UInt64)

def keyOf (fingerprint id : String) : ShadowKey := ⟨sessionKey fingerprint, hash id⟩

def insertEntries (keys : List ShadowKey) (entry : ShadowEntry)
    (entries : List (ShadowKey × ShadowEntry)) : List (ShadowKey × ShadowEntry) :=
  keys.foldl (fun entries key => OrderedMap.put key entry entries) entries

def insertReasoning (fingerprint : String) (now : Instant) (toolCallIds : List String)
    (reasoning : String) (shadow : ReasoningShadowStore) : ReasoningShadowStore :=
  let held := OrderedMap.lookup fingerprint shadow.sessions
  let session := held.getD ⟨[], 0⟩
  let keys := toolCallIds.map (keyOf hash fingerprint)
  let entries := insertEntries keys ⟨reasoning, now⟩ session.entries
  let addedBytes := toolCallIds.length * reasoning.utf8ByteSize
  { shadow with
    sessions := OrderedMap.put fingerprint ⟨entries, session.bytes + addedBytes⟩ shadow.sessions
    lru := if held.isNone then shadow.lru ++ [fingerprint] else shadow.lru
    totalBytes := shadow.totalBytes + addedBytes }

/-- The clock is read once for the entries and once for the limits. -/
def store (limits : ShadowLimits) (fingerprint : String) (now swept : Instant)
    (toolCallIds : List String) (reasoning : String) (shadow : ReasoningShadowStore) :
    ReasoningShadowStore :=
  if skips limits toolCallIds reasoning then shadow
  else enforceLimits limits swept (insertReasoning hash fingerprint now toolCallIds reasoning shadow)

end ReasoningShadowStore

inductive ShadowEvent
  | store (fingerprint : String) (now swept : Instant) (toolCallIds : List String)
      (reasoning : String)
  | restore (fingerprint : String) (now : Instant) (toolCallIds : List String)
  | clear (fingerprint : String)

/-- A store with the latest time at which its clock was read. -/
structure ShadowRun where
  shadow : ReasoningShadowStore
  clock : Instant

section Run

variable (hash : String → UInt64) (limits : ShadowLimits)

def ShadowRun.step (run : ShadowRun) : ShadowEvent → Option ShadowRun
  | .store fingerprint now swept toolCallIds reasoning =>
      if run.clock ≤ now ∧ now ≤ swept then
        some ⟨run.shadow.store hash limits fingerprint now swept toolCallIds reasoning, swept⟩
      else none
  | .restore fingerprint now toolCallIds =>
      if run.clock ≤ now then
        some ⟨(run.shadow.restore hash fingerprint now toolCallIds).2, now⟩
      else none
  | .clear fingerprint => some ⟨run.shadow.clearSession fingerprint, run.clock⟩

def ShadowRun.start (ttl : Duration) : ShadowRun := ⟨⟨[], [], 0, ttl⟩, 0⟩

def shadowStore (ttl : Duration) : TransitionSystem.System ShadowRun ShadowEvent where
  initial run := run = .start ttl
  step run event := run.step hash limits event

end Run

end ClineProxy
