import Mathlib.Data.List.Induction
import ClineProxy.Text
import Mathlib.Data.List.TakeWhile

/-! Searching a text for a pattern, and reading maximal runs of characters. -/

namespace Text

theorem startsWith_iff_extends {pattern text : List Char} :
    startsWith pattern text = true ↔ pattern <+: text :=
  List.isPrefixOf_iff_prefix

theorem find_eq_some {pattern text : List Char} {position : Nat}
    (found : find pattern text = some position) :
    ∃ before after, text = before ++ pattern ++ after ∧ before.length = position := by
  induction text generalizing position with
  | nil =>
      rw [find] at found
      split at found
      next empty =>
        cases found
        exact ⟨[], [], by simpa using empty, rfl⟩
      next => cases found
  | cons character rest ih =>
      rw [find] at found
      split at found
      next starts =>
        cases found
        obtain ⟨after, same⟩ := startsWith_iff_extends.mp starts
        exact ⟨[], after, same.symm, rfl⟩
      next =>
        obtain ⟨later, foundLater, rfl⟩ := Option.map_eq_some_iff.mp found
        obtain ⟨before, after, rfl, rfl⟩ := ih foundLater
        exact ⟨character :: before, after, rfl, rfl⟩

theorem find_least (before pattern after : List Char) :
    ∃ position, find pattern (before ++ pattern ++ after) = some position ∧
      position ≤ before.length := by
  induction before with
  | nil =>
      refine ⟨0, ?_, Nat.le_refl _⟩
      have starts : startsWith pattern (pattern ++ after) = true :=
        startsWith_iff_extends.mpr (List.prefix_append _ _)
      simp only [List.nil_append]
      cases whole : pattern ++ after with
      | nil =>
          have empty : pattern = [] := (List.append_eq_nil_iff.mp whole).1
          simp [find, empty]
      | cons character rest => rw [find, ← whole, if_pos starts]
  | cons character before ih =>
      obtain ⟨position, found, early⟩ := ih
      simp only [List.cons_append, find]
      split
      next => exact ⟨0, rfl, Nat.zero_le _⟩
      next => exact ⟨position + 1, by rw [found]; rfl, Nat.succ_le_succ early⟩

theorem find_eq_none_iff {pattern text : List Char} :
    find pattern text = none ↔ ¬ pattern <:+: text := by
  constructor
  · rintro absent ⟨before, after, rfl⟩
    obtain ⟨position, found, -⟩ := find_least before pattern after
    rw [absent] at found
    cases found
  · intro absent
    cases found : find pattern text with
    | none => rfl
    | some position =>
        obtain ⟨before, after, same, -⟩ := find_eq_some found
        exact absurd ⟨before, after, same.symm⟩ absent

theorem contains_iff_infix {pattern text : List Char} :
    contains pattern text = true ↔ pattern <:+: text := by
  rw [contains, Option.isSome_iff_ne_none, ne_eq, find_eq_none_iff, not_not]

/-- No later part of the pattern is also its beginning. -/
def unbordered (pattern : List Char) : Bool :=
  (List.range pattern.length).all fun shift =>
    shift == 0 || !startsWith (pattern.drop shift) pattern

theorem unbordered_drop {pattern : List Char} {shift : Nat} (apart : unbordered pattern = true)
    (moved : 0 < shift) (inside : shift < pattern.length) : ¬ pattern.drop shift <+: pattern := by
  have one := List.all_eq_true.mp apart shift (List.mem_range.mpr inside)
  rw [Bool.or_eq_true, Bool.not_eq_true', beq_iff_eq] at one
  intro starts
  cases one with
  | inl still => omega
  | inr no => rw [startsWith_iff_extends.mpr starts] at no; cases no

theorem occurrences_apart {pattern first second afterFirst afterSecond : List Char}
    (apart : unbordered pattern = true)
    (same : first ++ pattern ++ afterFirst = second ++ pattern ++ afterSecond)
    (order : first.length ≤ second.length) :
    first = second ∨ ∃ between, second = first ++ pattern ++ between ∧
      afterFirst = between ++ pattern ++ afterSecond := by
  rw [List.append_assoc, List.append_assoc] at same
  obtain ⟨moved, rfl⟩ : first <+: second :=
    List.prefix_of_prefix_length_le ⟨_, same⟩ ⟨_, rfl⟩ order
  rw [List.append_assoc, List.append_cancel_left_eq] at same
  by_cases still : moved = []
  · exact .inl (by simp [still])
  · refine .inr ?_
    by_cases inside : moved.length < pattern.length
    · -- the end of the first occurrence would begin the second one
      refine absurd ?_ (unbordered_drop apart (List.length_pos_iff.mpr still) inside)
      have dropped := congrArg (List.drop moved.length) same
      rw [List.drop_left, List.drop_append_of_le_length (Nat.le_of_lt inside)] at dropped
      refine List.prefix_of_prefix_length_le ⟨_, dropped⟩ ⟨_, rfl⟩ ?_
      rw [List.length_drop]
      omega
    · obtain ⟨between, rfl⟩ : pattern <+: moved :=
        List.prefix_of_prefix_length_le ⟨_, same⟩ ⟨_, rfl⟩ (Nat.not_lt.mp inside)
      rw [List.append_assoc, List.append_cancel_left_eq] at same
      refine ⟨between, ?_, ?_⟩
      · rw [List.append_assoc]
      · rw [same, List.append_assoc]

/-- `run` begins the text, lies inside, and cannot be made longer. -/
structure MaximalRun (inside : Char → Bool) (text run rest : List Char) : Prop where
  whole : text = run ++ rest
  within : ∀ character ∈ run, inside character = true
  ends : ∀ character ∈ rest.head?, inside character = false

variable {inside : Char → Bool} {text run rest : List Char}

theorem maximalRun_takeWhile (inside : Char → Bool) (text : List Char) :
    MaximalRun inside text (text.takeWhile inside) (text.dropWhile inside) where
  whole := List.takeWhile_append_dropWhile.symm
  within := List.all_eq_true.mp List.all_takeWhile
  ends := by
    intro character next
    have stopped := List.head?_dropWhile_not inside text
    rw [Option.mem_def] at next
    rw [next] at stopped
    simpa using stopped

theorem MaximalRun.takeWhile_eq (maximal : MaximalRun inside text run rest) :
    text.takeWhile inside = run := by
  rw [maximal.whole, List.takeWhile_append_of_pos maximal.within]
  cases rest with
  | nil => simp
  | cons character rest => simp [maximal.ends character rfl]

theorem MaximalRun.dropWhile_eq (maximal : MaximalRun inside text run rest) :
    text.dropWhile inside = rest := by
  rw [maximal.whole, List.dropWhile_append_of_pos maximal.within]
  cases rest with
  | nil => rfl
  | cons character rest => simp [maximal.ends character rfl]

theorem MaximalRun.head_within (maximal : MaximalRun inside text run rest) (some_ : run ≠ []) :
    ∃ first others, text = first :: others ∧ inside first = true := by
  obtain ⟨first, others, rfl⟩ := List.exists_cons_of_ne_nil some_
  exact ⟨first, others ++ rest, maximal.whole, maximal.within first (List.mem_cons_self ..)⟩

theorem MaximalRun.head_any (maximal : MaximalRun inside text run rest) :
    text.head?.any inside = !run.isEmpty := by
  cases run with
  | nil =>
      rw [maximal.whole]
      cases rest with
      | nil => rfl
      | cons character rest => exact maximal.ends character rfl
  | cons first others =>
      rw [maximal.whole]
      exact maximal.within first (List.mem_cons_self ..)

theorem parseUnsigned_digits {bound : Nat} {digits : List Char} (some_ : digits ≠ [])
    (within : ∀ character ∈ digits, isAsciiDigit character = true) :
    parseUnsigned bound digits =
      if digitsValue digits < bound then some (digitsValue digits) else none := by
  have unsigned : stripPrefix ['+'] digits = none := by
    cases digits with
    | nil => contradiction
    | cons digit rest =>
        have plain : digit ≠ '+' := by
          rintro rfl
          exact absurd (within '+' (List.mem_cons_self ..)) (by decide)
        simp [stripPrefix, startsWith, List.isPrefixOf, Ne.symm plain]
  simp [parseUnsigned, unsigned, some_, List.all_eq_true.mpr within]

theorem digitsValue_lt {digits : List Char}
    (within : ∀ character ∈ digits, isAsciiDigit character = true) :
    digitsValue digits < 10 ^ digits.length := by
  induction digits using List.reverseRecOn with
  | nil => decide
  | append_singleton digits digit ih =>
      have before := ih fun character member => within character (List.mem_append_left _ member)
      have last := within digit (List.mem_append_right _ (List.mem_singleton_self _))
      simp only [isAsciiDigit, Bool.and_eq_true, decide_eq_true_eq] at last
      have high : digit.toNat ≤ 57 := last.2
      have zero : '0'.toNat = 48 := rfl
      rw [digitsValue, List.foldl_append, ← digitsValue, List.length_append,
        List.length_singleton, Nat.pow_succ]
      simp only [List.foldl_cons, List.foldl_nil]
      omega

theorem parseUnsigned_eq_some {bound number : Nat} {text : List Char} :
    parseUnsigned bound text = some number ↔
      number < bound ∧ ∃ sign digits, text = sign ++ digits ∧ (sign = [] ∨ sign = ['+']) ∧
        digits ≠ [] ∧ (∀ digit ∈ digits, isAsciiDigit digit = true) ∧
        digitsValue digits = number := by
  constructor
  · intro parsed
    have whole : ∃ sign, text = sign ++ (stripPrefix ['+'] text).getD text ∧
        (sign = [] ∨ sign = ['+']) := by
      by_cases plus : startsWith ['+'] text = true
      · obtain ⟨rest, rfl⟩ := startsWith_iff_extends.mp plus
        exact ⟨['+'], by simp [stripPrefix, startsWith], .inr rfl⟩
      · exact ⟨[], by simp [stripPrefix, plus], .inl rfl⟩
    obtain ⟨sign, same, signed⟩ := whole
    simp only [parseUnsigned] at parsed
    generalize (stripPrefix ['+'] text).getD text = digits at same parsed
    split at parsed
    next => cases parsed
    next accepted =>
      simp only [Bool.or_eq_true, List.isEmpty_iff, Bool.not_eq_true', not_or,
        Bool.not_eq_false, List.all_eq_true] at accepted
      split at parsed
      next fits =>
        cases parsed
        exact ⟨fits, sign, digits, same, signed, accepted.1, accepted.2, rfl⟩
      next => cases parsed
  · rintro ⟨fits, sign, digits, rfl, rfl | rfl, some_, within, rfl⟩
    · rw [List.nil_append, parseUnsigned_digits some_ within, if_pos fits]
    · have strip : stripPrefix ['+'] ('+' :: digits) = some digits := by
        simp [stripPrefix, startsWith]
      simp only [parseUnsigned, List.singleton_append, strip, Option.getD_some]
      simp [some_, List.all_eq_true.mpr within, fits]

theorem toAsciiLower_cases (character : Char) :
    (toAsciiLower character = character ∧ ¬ (65 ≤ character.toNat ∧ character.toNat ≤ 90)) ∨
      (65 ≤ character.toNat ∧ character.toNat ≤ 90 ∧
        (toAsciiLower character).toNat = character.toNat + 32) := by
  have small : ∀ letter < 26, (Char.ofNat (65 + letter + 32)).toNat = 65 + letter + 32 := by decide
  have test : (('A' ≤ character && character ≤ 'Z') = true) ↔
      65 ≤ character.toNat ∧ character.toNat ≤ 90 := by
    rw [Bool.and_eq_true, decide_eq_true_eq, decide_eq_true_eq]
    rfl
  by_cases upper : 65 ≤ character.toNat ∧ character.toNat ≤ 90
  · refine .inr ⟨upper.1, upper.2, ?_⟩
    rw [toAsciiLower, if_pos (test.mpr upper)]
    have known := small (character.toNat - 65) (by omega)
    rwa [Nat.add_sub_cancel' upper.1] at known
  · exact .inl ⟨if_neg (mt test.mp upper), upper⟩

theorem toAsciiLower_lower (character : Char) :
    toAsciiLower (toAsciiLower character) = toAsciiLower character := by
  cases toAsciiLower_cases character with
  | inl same => rw [same.1, same.1]
  | inr moved =>
      cases toAsciiLower_cases (toAsciiLower character) with
      | inl same => exact same.1
      | inr again => omega

theorem dropWhile_append_left {drop : Char → Bool} {before : List Char} (rest : List Char)
    (dropped : ∀ character ∈ before, drop character = true) :
    (before ++ rest).dropWhile drop = rest.dropWhile drop := by
  induction before with
  | nil => rfl
  | cons first others ih =>
      rw [List.forall_mem_cons] at dropped
      rw [List.cons_append, List.dropWhile_cons, if_pos dropped.1, ih dropped.2]

theorem trimMatches_parts (drop : Char → Bool) (text : List Char) :
    ∃ before after, text = before ++ (trimMatches drop text ++ after) ∧
      (∀ character ∈ before, drop character = true) ∧
        ∀ character ∈ after, drop character = true := by
  let started := text.dropWhile drop
  refine ⟨text.takeWhile drop, (started.reverse.takeWhile drop).reverse, ?_,
    fun _ => List.mem_takeWhile_imp, fun character member =>
      List.mem_takeWhile_imp (List.mem_reverse.mp member)⟩
  have ends : trimMatches drop text ++ (started.reverse.takeWhile drop).reverse = started := by
    rw [trimMatches, trimEndMatches, trimStartMatches, ← List.reverse_append,
      List.takeWhile_append_dropWhile, List.reverse_reverse]
  rw [ends, List.takeWhile_append_dropWhile]

theorem trimMatches_middle {drop : Char → Bool} {before middle after : List Char} (some_ : middle ≠ [])
    (begins : ∀ character ∈ middle, drop character = false)
    (dropped : ∀ character ∈ before, drop character = true)
    (ended : ∀ character ∈ after, drop character = true) :
    trimMatches drop (before ++ (middle ++ after)) = middle := by
  have stays {text : List Char} (first : text ≠ [])
      (kept : ∀ character ∈ text, drop character = false) (rest : List Char) :
      (text ++ rest).dropWhile drop = text ++ rest := by
    obtain ⟨head, others, rfl⟩ := List.exists_cons_of_ne_nil first
    rw [List.cons_append, List.dropWhile_cons, kept head (List.mem_cons_self ..)]
    rfl
  have back := stays (List.reverse_ne_nil_iff.mpr some_)
    (fun character member => begins character (List.mem_reverse.mp member)) []
  rw [trimMatches, trimStartMatches, trimEndMatches, dropWhile_append_left _ dropped,
    stays some_ begins, List.reverse_append, dropWhile_append_left _ fun character member =>
      ended character (List.mem_reverse.mp member), ← List.append_nil middle.reverse, back,
    List.append_nil, List.reverse_reverse]

theorem trimMatches_last {drop : Char → Bool} {text front : List Char} {last : Char}
    (kept : trimMatches drop text = front ++ [last]) : drop last = false := by
  rw [trimMatches, trimEndMatches, List.reverse_eq_iff, List.reverse_append, List.reverse_singleton,
    List.singleton_append] at kept
  have stays := List.head?_dropWhile_not drop (trimStartMatches drop text).reverse
  rw [kept, List.head?_cons] at stays
  simpa using stays

end Text
