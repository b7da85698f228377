import Mathlib.Data.String.Basic
import Mathlib.Tactic.Ring

/-!
Decimal digits in the order of texts: digits of one length compare as the numbers they write,
and fewer digits are behind more of them only when they write more than as many of those.
-/

namespace DigitOrder

def Digits (text : List Char) : Prop := ∀ digit ∈ text, digit.isDigit = true

def value (text : List Char) : Nat := Nat.ofDigitChars 10 text 0

variable {first second : List Char}

theorem value_append (first second : List Char) :
    value (first ++ second) = 10 ^ second.length * value first + value second := by
  rw [value, Nat.ofDigitChars_append, Nat.ofDigitChars_eq_ofDigitChars_zero]
  rfl

theorem value_cons (digit : Char) (rest : List Char) :
    value (digit :: rest) = 10 ^ rest.length * (digit.toNat - '0'.toNat) + value rest := by
  rw [value, Nat.ofDigitChars_cons, Nat.mul_zero, Nat.zero_add,
    Nat.ofDigitChars_eq_ofDigitChars_zero]
  rfl

theorem bounds_of_isDigit {digit : Char} (isDigit : digit.isDigit = true) :
    '0'.toNat ≤ digit.toNat ∧ digit.toNat ≤ '9'.toNat := by
  simp only [Char.isDigit, Bool.and_eq_true, decide_eq_true_eq] at isDigit
  exact isDigit

theorem value_lt (digits : Digits first) : value first < 10 ^ first.length := by
  induction first with
  | nil => decide
  | cons digit rest ih =>
      obtain ⟨low, high⟩ := bounds_of_isDigit (digits digit (List.mem_cons_self ..))
      have below := ih fun other member => digits other (List.mem_cons_of_mem _ member)
      have most : digit.toNat - '0'.toNat ≤ 9 := by
        have : '9'.toNat = '0'.toNat + 9 := rfl
        omega
      rw [value_cons, List.length_cons]
      calc 10 ^ rest.length * (digit.toNat - '0'.toNat) + value rest
          < 10 ^ rest.length * (digit.toNat - '0'.toNat) + 10 ^ rest.length :=
            Nat.add_lt_add_left below _
        _ ≤ 10 ^ rest.length * 9 + 10 ^ rest.length :=
            Nat.add_le_add_right (Nat.mul_le_mul_left _ most) _
        _ = 10 ^ (rest.length + 1) := by ring

theorem value_take (digits : Digits first) (count : Nat) :
    value (first.take count) = value first / 10 ^ (first.length - count) := by
  have behind : value (first.drop count) < 10 ^ (first.drop count).length :=
    value_lt fun digit member => digits digit (List.mem_of_mem_drop member)
  have parts := value_append (first.take count) (first.drop count)
  rw [List.take_append_drop] at parts
  rw [List.length_drop] at behind parts
  rw [parts, Nat.mul_add_div (Nat.pow_pos (by decide)), Nat.div_eq_of_lt behind, Nat.add_zero]

theorem value_lt_of_lt (firstDigits : Digits first) (secondDigits : Digits second)
    (same : first.length = second.length) (before : first < second) :
    value first < value second := by
  induction first generalizing second with
  | nil =>
      rw [List.length_nil, eq_comm, List.length_eq_zero_iff] at same
      rw [same] at before
      exact absurd before (List.lt_irrefl _)
  | cons digit rest ih =>
      cases second with
      | nil => cases before
      | cons other others =>
          have length : rest.length = others.length := Nat.succ_injective same
          have restDigits : Digits rest := fun _ member =>
            firstDigits _ (List.mem_cons_of_mem _ member)
          have othersDigits : Digits others := fun _ member =>
            secondDigits _ (List.mem_cons_of_mem _ member)
          rw [value_cons, value_cons, length]
          rcases List.cons_lt_cons_iff.mp before with less | ⟨rfl, behind⟩
          · have below := value_lt restDigits
            have low := (bounds_of_isDigit (firstDigits digit (List.mem_cons_self ..))).1
            have more : digit.toNat - '0'.toNat + 1 ≤ other.toNat - '0'.toNat := by
              have : digit.toNat < other.toNat := less
              omega
            rw [length] at below
            calc 10 ^ others.length * (digit.toNat - '0'.toNat) + value rest
                < 10 ^ others.length * (digit.toNat - '0'.toNat + 1) := by
                  rw [Nat.mul_succ]
                  exact Nat.add_lt_add_left below _
              _ ≤ 10 ^ others.length * (other.toNat - '0'.toNat) := Nat.mul_le_mul_left _ more
              _ ≤ 10 ^ others.length * (other.toNat - '0'.toNat) + value others :=
                  Nat.le_add_right ..
          · exact Nat.add_lt_add_left (ih restDigits othersDigits length behind) _

theorem lt_or_eq_of_value_le (firstDigits : Digits first) (secondDigits : Digits second)
    (same : first.length = second.length) (most : value first ≤ value second) :
    first < second ∨ first = second := by
  rcases lt_trichotomy first second with before | equal | behind
  · exact .inl before
  · exact .inr equal
  · have less := value_lt_of_lt secondDigits firstDigits same.symm behind
    exact absurd most (Nat.not_le.mpr less)

theorem append_lt_append (same : first.length = second.length) (before : first < second)
    (firstRest secondRest : List Char) : first ++ firstRest < second ++ secondRest := by
  induction first generalizing second with
  | nil =>
      rw [List.length_nil, eq_comm, List.length_eq_zero_iff] at same
      rw [same] at before
      exact absurd before (List.lt_irrefl _)
  | cons digit rest ih =>
      cases second with
      | nil => cases before
      | cons other others =>
          refine List.cons_lt_cons_iff.mpr ?_
          rcases List.cons_lt_cons_iff.mp before with less | ⟨equal, behind⟩
          · exact .inl less
          · exact .inr ⟨equal, ih (Nat.succ_injective same) behind⟩

/-- With a separator before all digits, a number is before a greater one that is not shorter if
it is at most what the first digits of that write. -/
theorem separated_lt {stop : Char} (stops : stop < '0') (firstDigits : Digits first)
    (secondDigits : Digits second) (short : first.length ≤ second.length)
    (most : value first ≤ value second / 10 ^ (second.length - first.length))
    (different : first ≠ second) (firstRest secondRest : List Char) :
    first ++ stop :: firstRest < second ++ stop :: secondRest := by
  have headDigits : Digits (second.take first.length) := fun digit member =>
    secondDigits digit (List.mem_of_mem_take member)
  have length : first.length = (second.take first.length).length := by
    rw [List.length_take, Nat.min_eq_left short]
  rw [← value_take secondDigits first.length] at most
  rw [← List.take_append_drop first.length second, List.append_assoc]
  rcases lt_or_eq_of_value_le firstDigits headDigits length most with before | equal
  · exact append_lt_append length before _ _
  · rw [← equal]
    refine List.append_left_lt ?_
    cases tail : second.drop first.length with
    | nil =>
        have whole := List.take_append_drop first.length second
        rw [tail, ← equal, List.append_nil] at whole
        exact absurd whole different
    | cons digit rest =>
        have member : digit ∈ second := List.mem_of_mem_drop (tail ▸ List.mem_cons_self ..)
        have low := (bounds_of_isDigit (secondDigits digit member)).1
        exact List.cons_lt_cons_iff.mpr (.inl (Nat.lt_of_lt_of_le stops low))

end DigitOrder
