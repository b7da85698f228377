import ClineProxy.Occurrences
import ClineProxy.Redaction

/-! Which secrets never occur in a sanitised text or document. -/

namespace ClineProxy

open Json Text

variable {secret : String} {secrets : List String}

theorem redactExact_absent (apart : Apart redacted secret.toList) (listed : secret ∈ secrets)
    (input : List Char) : ¬ secret.toList <:+: redactExact secrets input := by
  have kept (others : List String) (input : List Char)
      (occurs : secret.toList <:+: redactExact others input) : secret.toList <:+: input := by
    induction others generalizing input with
    | nil => exact occurs
    | cons other rest ih =>
        have before := ih _ occurs
        dsimp only at before
        split at before
        next => exact before
        next => exact apart.replace_other before
  induction secrets generalizing input with
  | nil => cases listed
  | cons first rest ih =>
      rcases List.mem_cons.mp listed with rfl | later
      · intro occurs
        have replaced := kept rest _ occurs
        dsimp only at replaced
        split at replaced
        next empty =>
          rw [String.isEmpty_iff] at empty
          exact apart.ne_nil (by rw [empty]; rfl)
        next => exact apart.replace_absent input replaced
      · exact ih later _

theorem mem_redactWords {redactNext : Bool} {words : List (List Char)} {shown : List Char}
    (member : shown ∈ redactWords redactNext words) : shown = redacted ∨ shown ∈ words := by
  induction words generalizing redactNext with
  | nil => cases member
  | cons word rest ih =>
      rw [redactWords] at member
      rcases List.mem_cons.mp member with rfl | later
      · split
        next => exact .inl rfl
        next => exact .inr (List.mem_cons_self ..)
      · exact (ih later).imp_right (List.mem_cons_of_mem _)

theorem infix_truncateChars {word input : List Char} {maximum : Nat}
    (unended : word.getLast? ≠ some '…') (occurs : word <:+: truncateChars input maximum) :
    word <:+: input := by
  rw [truncateChars] at occurs
  split at occurs
  next =>
    rcases List.infix_concat_iff.mp occurs with ends | inside
    · rcases List.suffix_concat_iff.mp ends with rfl | ⟨front, rfl, -⟩
      · exact List.nil_infix
      · simp at unended
    · exact inside.trans (List.take_prefix ..).isInfix
  next => exact occurs

/-- A secret that neither the marker, the spaces between words nor an ellipsis can bring back. -/
structure Redactable (secret : String) : Prop where
  apart : Apart redacted secret.toList
  unspaced : ' ' ∉ secret.toList
  unended : secret.toList.getLast? ≠ some '…'

theorem sanitizeText_absent (redactable : Redactable secret) (listed : secret ∈ secrets)
    (input : String) : ¬ secret.toList <:+: (sanitizeText input secrets).toList := by
  intro occurs
  rw [sanitizeText, String.toList_ofList] at occurs
  have joined := infix_truncateChars redactable.unended occurs
  obtain ⟨shown, member, found⟩ :=
    infix_join redactable.apart.ne_nil redactable.unspaced joined
  rcases mem_redactWords member with rfl | word
  · exact redactable.apart.within found
  · exact redactExact_absent redactable.apart listed input.toList
      (found.trans (infix_splitWhitespace word))

mutual

/-- The texts that are values in a document; the names of members are none. -/
def textsOf : Value → List String
  | .string text => [text]
  | .array items => textsOfItems items
  | .object fields => textsOfFields fields
  | .null => []
  | .bool _ => []
  | .number _ => []

def textsOfItems : List Value → List String
  | [] => []
  | item :: rest => textsOf item ++ textsOfItems rest

def textsOfFields : List (String × Value) → List String
  | [] => []
  | (_, value) :: rest => textsOf value ++ textsOfFields rest

end

/-- A text of a redacted document is the marker or a sanitised text. -/
def Sanitised (secrets : List String) (text : String) : Prop :=
  text = String.ofList redacted ∨ ∃ input, text = sanitizeText input secrets

mutual

theorem sanitised_value (secrets : List String) :
    ∀ value, ∀ text ∈ textsOf (redactValue secrets value), Sanitised secrets text
  | .string input, text, member => .inr ⟨input, List.mem_singleton.mp member⟩
  | .array items, text, member => sanitised_items secrets items text member
  | .object fields, text, member => sanitised_fields secrets fields text member
  | .null, _, member => by cases member
  | .bool _, _, member => by cases member
  | .number _, _, member => by cases member

theorem sanitised_items (secrets : List String) :
    ∀ items, ∀ text ∈ textsOfItems (redactItems secrets items), Sanitised secrets text
  | [], _, member => by cases member
  | item :: rest, text, member =>
      (List.mem_append.mp member).elim (sanitised_value secrets item text)
        (sanitised_items secrets rest text)

theorem sanitised_fields (secrets : List String) :
    ∀ fields, ∀ text ∈ textsOfFields (redactFields secrets fields), Sanitised secrets text
  | [], _, member => by cases member
  | (name, value) :: rest, text, member => by
      rcases List.mem_append.mp member with here | later
      · split at here
        · exact .inl (List.mem_singleton.mp here)
        · exact sanitised_value secrets value text here
      · exact sanitised_fields secrets rest text later

end

/-- Such a secret occurs in no sanitised text and in no text that is a value in a sanitised
document. -/
theorem secrets_removed (redactable : Redactable secret) (listed : secret ∈ secrets) :
    (∀ input, ¬secret.toList <:+: (sanitizeText input secrets).toList) ∧
    ∀ value, ∀ text ∈ textsOf (sanitizeJson value secrets), ¬secret.toList <:+: text.toList := by
  refine ⟨sanitizeText_absent redactable listed, fun value text member occurs => ?_⟩
  rcases sanitised_value secrets value text member with rfl | ⟨input, rfl⟩
  · rw [String.toList_ofList] at occurs
    exact redactable.apart.within occurs
  · exact sanitizeText_absent redactable listed input occurs

theorem gatewaySecret_apart : Apart redacted "gateway-secret".toList := by
  have other : "gateway-secret".toList.all (fun character => !redacted.contains character) =
      true := by decide
  refine apart_of_disjoint (by decide) (by decide) fun character member marked => ?_
  have apart := List.all_eq_true.mp other character member
  rw [List.contains_iff_mem.mpr marked] at apart
  cases apart

theorem secrets_removed_gateway :
    (∀ input, ¬"gateway-secret".toList <:+:
      (sanitizeText input ["cline-key", "gateway-secret"]).toList) ∧
    ∀ value, ∀ text ∈ textsOf (sanitizeJson value ["cline-key", "gateway-secret"]),
      ¬"gateway-secret".toList <:+: text.toList :=
  secrets_removed
    { apart := gatewaySecret_apart
      unspaced := by decide
      unended := by decide } (by decide)

theorem ellipsis_infix {input : String} (long : maxPublicTextChars < (join [' ']
    (redactWords false (splitWhitespace (redactExact secrets input.toList)))).length) :
    "…".toList <:+: (sanitizeText input secrets).toList := by
  rw [(by decide : "…".toList = ['…']), sanitizeText, String.toList_ofList, truncateChars, if_pos long]
  exact (List.suffix_append _ _).isInfix

def Leaks (secrets : List String) (secret input : String) : Prop :=
  secret ∈ secrets ∧ ¬secret.toList <:+: redacted ∧
    secret.toList <:+: (sanitizeText input secrets).toList

instance (secrets : List String) (secret input : String) :
    Decidable (Leaks secrets secret input) :=
  inferInstanceAs (Decidable (_ ∧ _ ∧ _))

def longText : String := String.ofList (List.replicate 1025 'a')

theorem longText_leaks : Leaks ["…"] "…" longText := by
  refine ⟨List.mem_singleton_self _, by decide +kernel, ellipsis_infix ?_⟩
  have text : longText.toList = List.replicate 1025 'a' := String.toList_ofList
  rw [text]
  decide +kernel

/-- The name of a member is shown. A space between words, either end of a marker, a whole marker
and an ellipsis bring back what was replaced. -/
theorem secrets_removed_fails :
    (¬"cline-key".toList <:+: redacted ∧
      sanitizeJson (.object [("cline-key", .null)]) ["cline-key"] =
        .object [("cline-key", .null)]) ∧
    Leaks ["a b"] "a b" "a\tb" ∧ Leaks ["]x", "k"] "]x" "kx" ∧ Leaks ["x[", "k"] "x[" "xk" ∧
      Leaks ["x[REDACTED]y", "k"] "x[REDACTED]y" "xky" ∧ Leaks ["…"] "…" longText := by
  refine ⟨⟨by decide +kernel, rfl⟩, by decide +kernel, by decide +kernel, by decide +kernel,
    by decide +kernel, longText_leaks⟩

end ClineProxy
