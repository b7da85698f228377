import ClineProxy.Redaction
import ClineProxy.TextScan

/-! Which words behind credential labels are redacted. -/

namespace ClineProxy

open Text

def isQuote (character : Char) : Bool := character == '"' || character == '\''

def unquoted (word : List Char) : List Char := toAsciiLowercase (trimMatches isQuote word)

def isBearer (word : List Char) : Bool := unquoted word == "bearer".toList

/-- `Authorization:` or `x-api-key:`; a quote may also stand before the colon. -/
def isColonLabel (word : List Char) : Bool :=
  ["authorization", "x-api-key"].any fun name => [name ++ ":", name ++ "\":", name ++ "':"].any
    fun label => unquoted word == label.toList

def isLabel (word : List Char) : Bool := isBearer word || isColonLabel word

theorem isWordPunctuation_lower (character : Char) :
    isWordPunctuation (toAsciiLower character) = isWordPunctuation character := by
  have other {code : Char} (marked : isWordPunctuation code = true) :
      ¬(65 ≤ code.toNat ∧ code.toNat ≤ 122 ∧ code.toNat ≠ 91 ∧ code.toNat ≠ 93) := by
    simp only [isWordPunctuation, List.contains_eq_mem, List.mem_cons, List.not_mem_nil, or_false,
      decide_eq_true_eq] at marked
    rcases marked with rfl | rfl | rfl | rfl | rfl | rfl | rfl | rfl | rfl <;> decide
  rcases toAsciiLower_cases character with ⟨same, -⟩ | ⟨low, high, moved⟩
  · rw [same]
  · rw [Bool.eq_iff_iff]
    constructor
    · intro marked
      exact absurd (other marked) (by omega)
    · intro marked
      exact absurd (other marked) (by omega)

def plainLetters (word : List Char) : List Char :=
  (toAsciiLowercase word).filter fun character => !isWordPunctuation character

theorem plainLetters_append (first second : List Char) :
    plainLetters (first ++ second) = plainLetters first ++ plainLetters second := by
  rw [plainLetters, toAsciiLowercase, List.map_append, List.filter_append]
  rfl

theorem plainLetters_punctuation {word : List Char}
    (marked : ∀ character ∈ word, isWordPunctuation character = true) : plainLetters word = [] := by
  refine List.filter_eq_nil_iff.mpr fun character member => ?_
  obtain ⟨given, listed, rfl⟩ := List.mem_map.mp member
  rw [isWordPunctuation_lower, marked given listed]
  decide

theorem plainLetters_trimMatches {drop : Char → Bool} (word : List Char)
    (marks : ∀ character, drop character = true → isWordPunctuation character = true) :
    plainLetters (trimMatches drop word) = plainLetters word := by
  obtain ⟨before, after, parts, begins, ends⟩ := trimMatches_parts drop word
  have whole := congrArg plainLetters parts
  rw [plainLetters_append, plainLetters_append, plainLetters_punctuation fun character member =>
    marks character (begins character member), plainLetters_punctuation fun character member =>
    marks character (ends character member), List.nil_append, List.append_nil] at whole
  exact whole.symm

theorem isWordPunctuation_quote {character : Char} (quote : isQuote character = true) :
    isWordPunctuation character = true := by
  rcases Bool.or_eq_true_iff.mp quote with same | same
  · rw [beq_iff_eq.mp same]
    rfl
  · rw [beq_iff_eq.mp same]
    rfl

theorem plainLetters_wordLabel (word : List Char) :
    (wordLabel word).filter (fun character => !isWordPunctuation character) = plainLetters word :=
  plainLetters_trimMatches word fun _ marked => marked

theorem plainLetters_unquoted (word : List Char) :
    (unquoted word).filter (fun character => !isWordPunctuation character) = plainLetters word :=
  plainLetters_trimMatches word fun _ => isWordPunctuation_quote

theorem plainLetters_colonLabel {word : List Char} (label : isColonLabel word = true) :
    plainLetters word = "authorization".toList ∨ plainLetters word = "x-api-key".toList := by
  have plain (name text : String) (same : text.toList.filter
      (fun character => !isWordPunctuation character) = name.toList)
      (found : (unquoted word == text.toList) = true) : plainLetters word = name.toList := by
    rw [← plainLetters_unquoted, beq_iff_eq.mp found, same]
  simp only [isColonLabel, List.any_cons, List.any_nil, Bool.or_false, Bool.or_eq_true] at label
  rcases label with (found | found | found) | (found | found | found)
  · exact .inl (plain "authorization" _ (by decide) found)
  · exact .inl (plain "authorization" _ (by decide) found)
  · exact .inl (plain "authorization" _ (by decide) found)
  · exact .inr (plain "x-api-key" _ (by decide) found)
  · exact .inr (plain "x-api-key" _ (by decide) found)
  · exact .inr (plain "x-api-key" _ (by decide) found)

theorem wordLabel_colon (word front : List Char) : wordLabel word ≠ front ++ [':'] := by
  intro same
  rw [wordLabel, toAsciiLowercase] at same
  obtain ⟨before, last, trimmed, -, ended⟩ := List.map_eq_append_iff.mp same
  obtain ⟨character, rest, rfl, lower, none_⟩ := List.map_eq_cons_iff.mp ended
  rw [List.map_eq_nil_iff.mp none_] at trimmed
  have stays := trimMatches_last trimmed
  rw [← isWordPunctuation_lower, lower] at stays
  exact absurd stays (by decide)

/-- The punctuation that is trimmed takes the colon of a label with it. -/
theorem isCredentialLabel_iff {word : List Char} :
    isCredentialLabel word = true ↔ wordLabel word = "bearer".toList := by
  have first := wordLabel_colon word "authorization".toList
  have second := wordLabel_colon word "x-api-key".toList
  simp only [isCredentialLabel, Bool.or_eq_true, beq_iff_eq]
  constructor
  · rintro ((bearer | colon) | colon)
    · exact bearer
    · exact absurd colon first
    · exact absurd colon second
  · exact fun bearer => .inl (.inl bearer)

theorem isCredentialLabel_bearer {word : List Char} (bearer : isBearer word = true) :
    isCredentialLabel word = true := by
  obtain ⟨before, after, parts, begins, ends⟩ := trimMatches_parts isQuote word
  have lower : toAsciiLowercase (trimMatches isQuote word) = "bearer".toList := beq_iff_eq.mp bearer
  have plain : ∀ character ∈ trimMatches isQuote word, isWordPunctuation character = false := by
    intro character member
    have listed : toAsciiLower character ∈ "bearer".toList :=
      lower ▸ List.mem_map_of_mem member
    have letters : "bearer".toList.all (fun letter => !isWordPunctuation letter) = true := by decide
    rw [← isWordPunctuation_lower]
    simpa using List.all_eq_true.mp letters _ listed
  have some_ : trimMatches isQuote word ≠ [] := by
    intro empty
    rw [empty] at lower
    exact absurd lower (by decide)
  have trimmed : trimMatches isWordPunctuation word = trimMatches isQuote word := by
    have middle := trimMatches_middle some_ plain
      (fun character member => isWordPunctuation_quote (begins character member))
      (fun character member => isWordPunctuation_quote (ends character member))
    rwa [← parts] at middle
  rw [isCredentialLabel_iff, wordLabel, trimmed, lower]

theorem isCredentialLabel_colon {word : List Char} (colon : isColonLabel word = true) :
    isCredentialLabel word = false := by
  rw [Bool.eq_false_iff]
  intro credential
  have bearer := plainLetters_wordLabel word
  rw [isCredentialLabel_iff.mp credential] at bearer
  rcases plainLetters_colonLabel colon with name | name
  · rw [name] at bearer
    exact absurd bearer (by decide)
  · rw [name] at bearer
    exact absurd bearer (by decide)

/-- The words of a text behind the replacement of the exact secrets. -/
def wordsOf (input : String) (exactSecrets : List String) : List (List Char) :=
  splitWhitespace (redactExact exactSecrets input.toList)

/-- The words that are shown, up to the limit of the text. -/
def shownWords (input : String) (exactSecrets : List String) : List (List Char) :=
  redactWords false (wordsOf input exactSecrets)

theorem sanitizeText_shownWords (input : String) (exactSecrets : List String) :
    sanitizeText input exactSecrets =
      String.ofList (truncateChars (join [' '] (shownWords input exactSecrets))
        maxPublicTextChars) := rfl

/-- The next word behind a label that is no label itself. -/
structure Labelled (words : List (List Char)) (first position : Nat) (value : List Char) :
    Prop where
  behind : first < position
  labels : ∀ between, first ≤ between → between < position →
    ∃ label, words[between]? = some label ∧ isLabel label = true
  next : words[position]? = some value
  plain : isLabel value = false

theorem redactWords_next {words : List (List Char)} {redactNext : Bool} {position : Nat}
    {label value : List Char} (held : words[position]? = some label)
    (next : words[position + 1]? = some value) :
    (redactWords redactNext words)[position + 1]? =
      some (if isCredentialLabel label || sensitiveWord value then redacted else value) := by
  induction words generalizing redactNext position with
  | nil => cases held
  | cons word rest ih =>
      cases position with
      | zero =>
          obtain rfl := Option.some.inj held
          cases rest with
          | nil => cases next
          | cons second others =>
              obtain rfl := Option.some.inj next
              rfl
      | succ position => exact ih held next

/-- A text is its shown words up to the limit, and every credential behind a label is redacted
exactly when no word that would be shown stands directly behind `Authorization:` or
`x-api-key:`. -/
theorem labels_redacted (input : String) (exactSecrets : List String) :
    sanitizeText input exactSecrets = String.ofList (truncateChars
      (join [' '] (shownWords input exactSecrets)) maxPublicTextChars) ∧
    ((∀ first position value, Labelled (wordsOf input exactSecrets) first position value →
      (shownWords input exactSecrets)[position]? = some redacted) ↔
    ∀ position label value, (wordsOf input exactSecrets)[position]? = some label →
      (wordsOf input exactSecrets)[position + 1]? = some value → isColonLabel label = true →
      isLabel value = false → sensitiveWord value = true ∨ value = redacted) := by
  refine ⟨sanitizeText_shownWords input exactSecrets, ?_⟩
  constructor
  · intro redacts position label value held next colon plain
    have labelled : Labelled (wordsOf input exactSecrets) position (position + 1) value := {
      behind := Nat.lt_succ_self position
      labels := by
        intro between least most
        rw [Nat.le_antisymm (Nat.le_of_lt_succ most) least]
        exact ⟨label, held, by rw [isLabel, colon, Bool.or_true]⟩
      next
      plain }
    have shown := redacts _ _ _ labelled
    rw [shownWords, redactWords_next held next, isCredentialLabel_colon colon,
      Bool.false_or] at shown
    split at shown
    next sensitive => exact .inl sensitive
    next => exact .inr (Option.some.inj shown)
  · rintro shown first position value ⟨behind, labels, next, plain⟩
    obtain ⟨before, rfl⟩ := Nat.exists_eq_succ_of_ne_zero (Nat.ne_zero_of_lt behind)
    obtain ⟨label, held, isLabel_⟩ := labels before (Nat.le_of_lt_succ behind) (Nat.lt_succ_self _)
    rw [shownWords, redactWords_next held next]
    rcases Bool.or_eq_true_iff.mp isLabel_ with bearer | colon
    · rw [isCredentialLabel_bearer bearer, Bool.true_or]
      rfl
    · rcases shown before label value held next colon plain with sensitive | marker
      · rw [sensitive, Bool.or_true]
        rfl
      · rw [marker, ite_self]

theorem labels_redacted_fails : ¬ ∀ input exactSecrets, ∀ first position value,
    Labelled (wordsOf input exactSecrets) first position value →
      (shownWords input exactSecrets)[position]? = some redacted := by
  intro claim
  have words : wordsOf "Authorization: token" [] =
      ["Authorization:".toList, "token".toList] := by decide
  have shown : (shownWords "Authorization: token" [])[1]? = some "token".toList := by decide
  have labelled : Labelled (wordsOf "Authorization: token" []) 0 1 "token".toList := by
    rw [words]
    exact {
      behind := by decide
      labels := by
        intro between least most
        rw [Nat.lt_one_iff.mp most]
        exact ⟨_, rfl, by decide⟩
      next := rfl
      plain := by decide }
  rw [claim _ _ _ _ _ labelled] at shown
  exact absurd shown (by decide)

end ClineProxy
