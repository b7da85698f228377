import ClineProxy.Clock
import ClineProxy.PromptPolicy
import ClineProxy.ToolChain

/-!
Reading the reasoning shadow store of `reasoning_shadow.rs`, and restoring from it into a chat
completion body. Its counters are left out.
-/

namespace ClineProxy

open Json Clock

structure ShadowEntry where
  reasoning : String
  created : Instant

structure ShadowKey where
  session : List UInt8
  toolCall : UInt64
  deriving DecidableEq

structure SessionState where
  entries : List (ShadowKey × ShadowEntry)
  bytes : Nat

/-- `lru` names the sessions, the one to evict first at the head. -/
structure ReasoningShadowStore where
  sessions : List (String × SessionState)
  lru : List String
  totalBytes : Nat
  ttl : Duration

def hexValue (byte : UInt8) : Option Nat :=
  if 48 ≤ byte ∧ byte ≤ 57 then some (byte.toNat - 48)
  else if 97 ≤ byte ∧ byte ≤ 102 then some (byte.toNat - 87)
  else if 65 ≤ byte ∧ byte ≤ 70 then some (byte.toNat - 55)
  else none

def hexNumber : List UInt8 → Option Nat
  | [43, low] => hexValue low
  | [high, low] => (hexValue high).bind fun high => (hexValue low).map (16 * high + ·)
  | [low] => hexValue low
  | _ => none

def isUtf8Pair : List UInt8 → Bool
  | [first, second] => first < 128 && second < 128 ||
      0xC2 ≤ first && first ≤ 0xDF && Text.isContinuation second
  | chunk => chunk.all (· < 128)

def sessionKeyByte (index : Nat) (chunk : List UInt8) : UInt8 :=
  if isUtf8Pair chunk then UInt8.ofNat ((hexNumber chunk).getD index) else 0

def sessionKeyBytes (index : Nat) : List UInt8 → List UInt8
  | high :: low :: rest => sessionKeyByte index [high, low] :: sessionKeyBytes (index + 1) rest
  | [low] => [sessionKeyByte index [low]]
  | [] => []

def sessionKey (fingerprint : String) : List UInt8 :=
  let bytes := (sessionKeyBytes 0 fingerprint.toUTF8.toList).take 8
  bytes ++ List.replicate (8 - bytes.length) 0

namespace ReasoningShadowStore

/-- The first of the ids that has an entry decides; one that is too old is dropped. -/
def restoreEntries (ttl : Duration) (now : Instant) (keyOf : String → ShadowKey)
    (entries : List (ShadowKey × ShadowEntry)) :
    List String → Option String × List (ShadowKey × ShadowEntry)
  | [] => (none, entries)
  | id :: rest =>
      match OrderedMap.lookup (keyOf id) entries with
      | none => restoreEntries ttl now keyOf entries rest
      | some entry =>
          if ttl < now - entry.created then
            (none, entries.filter fun held => held.1 ≠ keyOf id)
          else (some entry.reasoning, entries)

def setSession (fingerprint : String) (state : SessionState) :
    List (String × SessionState) → List (String × SessionState)
  | [] => []
  | (name, held) :: rest =>
      if name = fingerprint then (name, state) :: rest
      else (name, held) :: setSession fingerprint state rest

variable (hash : String → UInt64)

def restore (fingerprint : String) (now : Instant) (toolCallIds : List String)
    (shadow : ReasoningShadowStore) : Option String × ReasoningShadowStore :=
  if toolCallIds.isEmpty then (none, shadow)
  else
    match OrderedMap.lookup fingerprint shadow.sessions with
    | none => (none, shadow)
    | some session =>
        let keyOf := fun id => ⟨sessionKey fingerprint, hash id⟩
        let (found, entries) := restoreEntries shadow.ttl now keyOf session.entries toolCallIds
        (found, { shadow with
          sessions := setSession fingerprint { session with entries := entries } shadow.sessions })

def clearSession (fingerprint : String) (shadow : ReasoningShadowStore) : ReasoningShadowStore :=
  match OrderedMap.lookup fingerprint shadow.sessions with
  | none => shadow
  | some session =>
      { shadow with
        sessions := shadow.sessions.filter fun held => held.1 ≠ fingerprint
        totalBytes := shadow.totalBytes - session.bytes
        lru := shadow.lru.filter (· ≠ fingerprint) }

end ReasoningShadowStore

/-- The ids of the calls of an assistant message that has no reasoning. -/
def restorableIds (message : Value) : Option (List String) :=
  if role message ≠ some "assistant" ∨ (message.get "reasoning_content").isSome then none
  else ((message.get "tool_calls").bind Value.asArray).map callIds

section Restore

variable (hash : String → UInt64) (clock : Nat → Instant) (fingerprint : String)

def restoreMessage (index : Nat) (shadow : ReasoningShadowStore) (message : Value) :
    Value × ReasoningShadowStore :=
  match restorableIds message with
  | none => (message, shadow)
  | some ids =>
      match shadow.restore hash fingerprint (clock index) ids with
      | (none, read) => (message, read)
      | (some reasoning, read) =>
          (message.mapObject (Map.insert "reasoning_content" (.string reasoning)), read)

/-- `clock` is read when the message at the index is looked up. -/
def restoreMessages (index : Nat) (shadow : ReasoningShadowStore) :
    List Value → List Value × ReasoningShadowStore
  | [] => ([], shadow)
  | message :: rest =>
      let (first, read) := restoreMessage hash clock fingerprint index shadow message
      let (later, left) := restoreMessages (index + 1) read rest
      (first :: later, left)

def restoreInto (shadow : ReasoningShadowStore) (object : Map) : Map × ReasoningShadowStore :=
  match (object.get "messages").bind Value.asArray with
  | none => (object, shadow)
  | some messages =>
      let boundary := epochBoundary messages
      let (restored, left) :=
        restoreMessages hash clock fingerprint boundary shadow (messages.drop boundary)
      (object.insert "messages" (.array (messages.take boundary ++ restored)), left)

end Restore

end ClineProxy
