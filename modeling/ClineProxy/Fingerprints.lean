import ClineProxy.Text
import Mathlib.Logic.Function.Basic

/-!
The identifiers that `cache.rs` derives from the server's secret: of Anthropic sessions, of
Responses sessions, and of the tasks that the upstream sees.
-/

namespace ClineProxy

open Text

def responsesSessionDomain : String := "cline-proxy/responses/v1\x00"

/-- Versioned, so that it collides with no other use of the secret. -/
def upstreamTaskIdDomain : String := "cline-proxy/x-task-id/v2\x00"

def sessionMessage (rawSessionId : String) : ByteArray := rawSessionId.toUTF8

def responsesMessage (rawSessionId : String) : ByteArray :=
  responsesSessionDomain.toUTF8 ++ "\x00".toUTF8 ++ rawSessionId.toUTF8

def taskMessage (sessionFp clineApiKey : String) : ByteArray :=
  upstreamTaskIdDomain.toUTF8 ++ sessionFp.toUTF8 ++ "\x00".toUTF8 ++ clineApiKey.toUTF8

section Identifiers

/-- The HMAC of a message under a secret, as its first sixteen hexadecimal digits. -/
abbrev ShortHmac := String → ByteArray → String

variable (hmac : ShortHmac) (secret : String)

def sessionFingerprint (rawSessionId : String) : String :=
  hmac secret (sessionMessage rawSessionId)

def responsesSessionFingerprint (rawSessionId : String) : String :=
  hmac secret (responsesMessage rawSessionId)

def upstreamTaskId (sessionFp clineApiKey : String) : String :=
  hmac secret (taskMessage sessionFp clineApiKey)

end Identifiers

def isLowerHex (digit : Char) : Bool := isAsciiDigit digit || ('a' ≤ digit && digit ≤ 'f')

/-- Sixteen lowercase hexadecimal digits. -/
structure Fingerprint where
  text : String
  length_eq : text.length = 16
  digits : text.toList.all isLowerHex = true

theorem sessionMessage_inj {first second : String} :
    sessionMessage first = sessionMessage second ↔ first = second :=
  String.toByteArray_inj

theorem responsesMessage_eq (rawSessionId : String) :
    responsesMessage rawSessionId =
      sessionMessage (responsesSessionDomain ++ "\x00" ++ rawSessionId) := by
  simp only [responsesMessage, sessionMessage, String.toUTF8, String.toByteArray_append]

theorem taskMessage_eq (sessionFp clineApiKey : String) :
    taskMessage sessionFp clineApiKey =
      sessionMessage (upstreamTaskIdDomain ++ sessionFp ++ "\x00" ++ clineApiKey) := by
  simp only [taskMessage, sessionMessage, String.toUTF8, String.toByteArray_append]

theorem responsesMessage_inj {first second : String} :
    responsesMessage first = responsesMessage second ↔ first = second := by
  rw [responsesMessage_eq, responsesMessage_eq, sessionMessage_inj, String.append_right_inj]

theorem taskMessage_inj {first second : Fingerprint} {key other : String} :
    taskMessage first.text key = taskMessage second.text other ↔
      first.text = second.text ∧ key = other := by
  rw [taskMessage_eq, taskMessage_eq, sessionMessage_inj]
  constructor
  · intro same
    simp only [String.append_assoc, String.append_right_inj] at same
    have texts := congrArg String.toList same
    simp only [String.toList_append] at texts
    have lengths : first.text.toList.length = second.text.toList.length := by
      rw [String.length_toList, String.length_toList, first.length_eq, second.length_eq]
    obtain ⟨digits, rest⟩ := List.append_inj texts lengths
    exact ⟨String.toList_inj.mp digits, String.toList_inj.mp (List.append_cancel_left rest)⟩
  · rintro ⟨same, rfl⟩
    rw [same]

theorem domains_differ (first second : String) :
    responsesSessionDomain ++ first ≠ upstreamTaskIdDomain ++ second := by
  intro same
  have starts := congrArg (fun text => text.toList.take 13) same
  have responses : (responsesSessionDomain ++ first).toList.take 13 =
      responsesSessionDomain.toList.take 13 := by
    rw [String.toList_append, List.take_append_of_le_length (by decide)]
  have task : (upstreamTaskIdDomain ++ second).toList.take 13 =
      upstreamTaskIdDomain.toList.take 13 := by
    rw [String.toList_append, List.take_append_of_le_length (by decide)]
  rw [responses, task] at starts
  exact absurd starts (by decide)

theorem responsesMessage_ne (rawSessionId sessionFp clineApiKey : String) :
    responsesMessage rawSessionId ≠ taskMessage sessionFp clineApiKey := by
  rw [responsesMessage_eq, taskMessage_eq, ne_eq, sessionMessage_inj]
  simp only [String.append_assoc]
  exact domains_differ _ _

def hasResponsesDomain (rawSessionId : String) : Bool :=
  startsWith (responsesSessionDomain ++ "\x00").toList rawSessionId.toList

def hasTaskDomain (rawSessionId : String) : Bool :=
  match stripPrefix upstreamTaskIdDomain.toList rawSessionId.toList with
  | none => false
  | some rest => (rest.take 16).length = 16 && (rest.take 16).all isLowerHex &&
      rest[16]? == some '\x00'

theorem startsWith_iff (before text : String) :
    startsWith before.toList text.toList = true ↔ ∃ rest, text = before ++ rest := by
  rw [startsWith, List.isPrefixOf_iff_prefix]
  constructor
  · rintro ⟨rest, same⟩
    refine ⟨String.ofList rest, String.toList_inj.mp ?_⟩
    rw [String.toList_append, String.toList_ofList, same]
  · rintro ⟨rest, rfl⟩
    exact ⟨rest.toList, String.toList_append.symm⟩

theorem hasResponsesDomain_iff (rawSessionId : String) :
    hasResponsesDomain rawSessionId = true ↔
      ∃ other, sessionMessage rawSessionId = responsesMessage other := by
  rw [hasResponsesDomain, startsWith_iff]
  exact exists_congr fun other => by rw [responsesMessage_eq, sessionMessage_inj]

theorem fingerprint_split {rest : List Char} (zero : rest[16]? = some '\x00') :
    rest = rest.take 16 ++ ('\x00' :: rest.drop 17) := by
  obtain ⟨inside, value⟩ := List.getElem?_eq_some_iff.mp zero
  rw [← value, ← List.drop_eq_getElem_cons inside, List.take_append_drop]

theorem hasTaskDomain_iff (rawSessionId : String) :
    hasTaskDomain rawSessionId = true ↔
      ∃ (sessionFp : Fingerprint) (clineApiKey : String),
        sessionMessage rawSessionId = taskMessage sessionFp.text clineApiKey := by
  simp only [taskMessage_eq, sessionMessage_inj]
  constructor
  · intro found
    rw [hasTaskDomain, stripPrefix] at found
    split at found
    next => cases found
    next rest stripped =>
      rw [Option.ite_none_right_eq_some] at stripped
      obtain ⟨begins, kept⟩ := stripped
      obtain rfl := Option.some.inj kept
      obtain ⟨rest, rfl⟩ := (startsWith_iff _ _).mp begins
      rw [String.toList_append, List.drop_left] at found
      simp only [Bool.and_eq_true, decide_eq_true_eq, beq_iff_eq] at found
      obtain ⟨⟨long, digits⟩, zero⟩ := found
      refine ⟨⟨String.ofList (rest.toList.take 16), ?_, ?_⟩, String.ofList (rest.toList.drop 17),
        ?_⟩
      · rw [String.length_ofList, long]
      · rw [String.toList_ofList, digits]
      · apply String.toList_inj.mp
        have split_ := fingerprint_split zero
        simp only [String.toList_append, String.toList_ofList, List.append_assoc]
        exact congrArg (upstreamTaskIdDomain.toList ++ ·) split_
  · rintro ⟨sessionFp, clineApiKey, rfl⟩
    have size : sessionFp.text.toList.length = 16 := by
      rw [String.length_toList, sessionFp.length_eq]
    have begins : startsWith upstreamTaskIdDomain.toList
        (upstreamTaskIdDomain ++ sessionFp.text ++ "\x00" ++ clineApiKey).toList = true :=
      (startsWith_iff _ _).mpr ⟨_, by simp only [String.append_assoc]; rfl⟩
    have zero : "\x00".toList = ['\x00'] := rfl
    rw [hasTaskDomain, stripPrefix, if_pos begins]
    simp only [String.toList_append, List.append_assoc, List.drop_left, zero]
    rw [List.take_left' size, List.getElem?_append_right (Nat.le_of_eq size), size]
    simp [sessionFp.digits]

/-- What is fed to the HMAC for an Anthropic session id is fed for nothing else. -/
structure Separate (rawSessionId : String) : Prop where
  session : ∀ other, sessionMessage rawSessionId = sessionMessage other → rawSessionId = other
  responses : ∀ other, sessionMessage rawSessionId ≠ responsesMessage other
  task : ∀ (sessionFp : Fingerprint) (clineApiKey : String),
    sessionMessage rawSessionId ≠ taskMessage sessionFp.text clineApiKey

structure DomainsSeparate : Prop where
  responses : ∀ first second, responsesMessage first = responsesMessage second → first = second
  task : ∀ (first second : Fingerprint) (key other : String),
    taskMessage first.text key = taskMessage second.text other →
      first.text = second.text ∧ key = other
  between : ∀ (rawSessionId : String) (sessionFp : Fingerprint) (clineApiKey : String),
    responsesMessage rawSessionId ≠ taskMessage sessionFp.text clineApiKey

structure NeverCoincides (hmac : ShortHmac) (secret rawSessionId : String) : Prop where
  responses : ∀ other, sessionFingerprint hmac secret rawSessionId ≠
    responsesSessionFingerprint hmac secret other
  task : ∀ (sessionFp : Fingerprint) (clineApiKey : String),
    sessionFingerprint hmac secret rawSessionId ≠
      upstreamTaskId hmac secret sessionFp.text clineApiKey

theorem separate_iff (rawSessionId : String) : Separate rawSessionId ↔
    hasResponsesDomain rawSessionId = false ∧ hasTaskDomain rawSessionId = false := by
  simp only [Bool.eq_false_iff, ne_eq, hasResponsesDomain_iff, hasTaskDomain_iff, not_exists]
  constructor
  · exact fun separate => ⟨separate.responses, separate.task⟩
  · exact fun foreign => ⟨fun other => sessionMessage_inj.mp, foreign.1, foreign.2⟩

theorem domainsSeparate : DomainsSeparate where
  responses := fun _ _ => responsesMessage_inj.mp
  task := fun _ _ _ _ => taskMessage_inj.mp
  between := fun rawSessionId sessionFp => responsesMessage_ne rawSessionId sessionFp.text

theorem neverCoincides_iff {hmac : ShortHmac} {secret : String}
    (injective : Function.Injective (hmac secret)) (rawSessionId : String) :
    NeverCoincides hmac secret rawSessionId ↔ Separate rawSessionId := by
  constructor
  · intro never
    exact {
      session := fun other => sessionMessage_inj.mp
      responses := fun other same => never.responses other (congrArg (hmac secret) same)
      task := fun sessionFp clineApiKey same =>
        never.task sessionFp clineApiKey (congrArg (hmac secret) same) }
  · intro separate
    exact {
      responses := fun other same => separate.responses other (injective same)
      task := fun sessionFp clineApiKey same =>
        separate.task sessionFp clineApiKey (injective same) }

theorem fingerprint_domains (rawSessionId : String) :
    ((Separate rawSessionId ∧ DomainsSeparate) ↔
      hasResponsesDomain rawSessionId = false ∧ hasTaskDomain rawSessionId = false) ∧
    ∀ (hmac : ShortHmac) (secret : String), Function.Injective (hmac secret) →
      (NeverCoincides hmac secret rawSessionId ↔
        hasResponsesDomain rawSessionId = false ∧ hasTaskDomain rawSessionId = false) := by
  constructor
  · rw [← separate_iff]
    exact and_iff_left domainsSeparate
  · intro hmac secret injective
    rw [neverCoincides_iff injective, separate_iff]

def plainHmac : ShortHmac := fun _ message =>
  String.ofList (message.data.toList.map fun byte => Char.ofNat byte.toNat)

theorem plainHmac_injective (secret : String) : Function.Injective (plainHmac secret) := by
  have bytes : Function.Injective fun byte : UInt8 => Char.ofNat byte.toNat := by
    intro first second same
    have values := congrArg Char.toNat same
    have small (byte : UInt8) : (Char.ofNat byte.toNat).toNat = byte.toNat := by
      have valid : byte.toNat.isValidChar := .inl (by have below := byte.toNat_lt; omega)
      rw [Char.ofNat, dif_pos valid]
      rfl
    rw [small, small] at values
    exact UInt8.toNat_inj.mp values
  intro first second same
  have lists := List.map_injective_iff.mpr bytes (String.ofList_injective same)
  exact ByteArray.ext (Array.toList_inj.mp lists)

theorem fingerprint_domains_plain :
    Separate "user_1" ∧ NeverCoincides plainHmac "secret" "user_1" := by
  obtain ⟨separate, never⟩ := fingerprint_domains "user_1"
  have own : hasResponsesDomain "user_1" = false ∧ hasTaskDomain "user_1" = false := by decide
  exact ⟨(separate.mpr own).1, (never plainHmac "secret" (plainHmac_injective _)).mpr own⟩

theorem fingerprint_domains_collide :
    sessionMessage "cline-proxy/responses/v1\x00\x00conversation" =
        responsesMessage "conversation" ∧
      sessionMessage "cline-proxy/x-task-id/v2\x000123456789abcdef\x00key" =
        taskMessage "0123456789abcdef" "key" := by
  rw [responsesMessage_eq, taskMessage_eq, sessionMessage_inj, sessionMessage_inj]
  decide

end ClineProxy
