import Mathlib.Data.List.TakeWhile
import Mathlib.Data.Rat.Defs
import Mathlib.Algebra.Field.Rat
import Mathlib.Tactic.IntervalCases

/-! The strings and the numbers of JSON text. -/

namespace JsonGrammar

/-! Strings -/

def hexDigit (digit : Nat) : Char := Char.ofNat (if digit < 10 then 48 + digit else 87 + digit)

def escape (character : Char) : List Char :=
  if character = '"' then ['\\', '"']
  else if character = '\\' then ['\\', '\\']
  else if character = '\x08' then ['\\', 'b']
  else if character = '\t' then ['\\', 't']
  else if character = '\n' then ['\\', 'n']
  else if character = '\x0c' then ['\\', 'f']
  else if character = '\r' then ['\\', 'r']
  else if character.toNat < 32 then
    ['\\', 'u', '0', '0', hexDigit (character.toNat / 16), hexDigit (character.toNat % 16)]
  else [character]

def quote (text : String) : List Char := '"' :: (text.toList.flatMap escape ++ ['"'])

def hexValue (character : Char) : Option Nat :=
  if '0' ≤ character ∧ character ≤ '9' then some (character.toNat - 48)
  else if 'a' ≤ character ∧ character ≤ 'f' then some (character.toNat - 87)
  else if 'A' ≤ character ∧ character ≤ 'F' then some (character.toNat - 55)
  else none

def readUnit : List Char → Option (Nat × List Char)
  | first :: second :: third :: fourth :: rest => do
      let first ← hexValue first
      let second ← hexValue second
      let third ← hexValue third
      let fourth ← hexValue fourth
      return (((first * 16 + second) * 16 + third) * 16 + fourth, rest)
  | _ => none

/-- A character by its number, in one unit or in a pair of surrogates. -/
def readNumbered (text : List Char) : Option (Char × List Char) := do
  let (unit, rest) ← readUnit text
  if 0xDC00 ≤ unit ∧ unit < 0xE000 then none
  else if 0xD800 ≤ unit ∧ unit < 0xDC00 then
    match rest with
    | '\\' :: 'u' :: rest => do
        let (low, rest) ← readUnit rest
        if 0xDC00 ≤ low ∧ low < 0xE000 then
          return (Char.ofNat (0x10000 + (unit - 0xD800) * 0x400 + (low - 0xDC00)), rest)
        else none
    | _ => none
  else return (Char.ofNat unit, rest)

def readEscape : List Char → Option (Char × List Char)
  | [] => none
  | mark :: rest =>
      if mark = '"' ∨ mark = '\\' ∨ mark = '/' then some (mark, rest)
      else if mark = 'b' then some ('\x08', rest)
      else if mark = 't' then some ('\t', rest)
      else if mark = 'n' then some ('\n', rest)
      else if mark = 'f' then some ('\x0c', rest)
      else if mark = 'r' then some ('\r', rest)
      else if mark = 'u' then readNumbered rest
      else none

/-- The characters up to the closing quote; every round takes at least one, so their number is
enough rounds. -/
def readChars : Nat → List Char → Option (List Char × List Char)
  | 0, _ => none
  | _ + 1, [] => none
  | rounds + 1, character :: rest =>
      if character = '"' then some ([], rest)
      else if character = '\\' then do
        let (first, rest) ← readEscape rest
        let (later, rest) ← readChars rounds rest
        return (first :: later, rest)
      else if character.toNat < 32 then none
      else do
        let (later, rest) ← readChars rounds rest
        return (character :: later, rest)

def readString (text : List Char) : Option (String × List Char) :=
  (readChars text.length text).map fun (characters, rest) => (String.ofList characters, rest)

theorem hexValue_hexDigit {digit : Nat} (small : digit < 16) :
    hexValue (hexDigit digit) = some digit := by
  interval_cases digit <;> decide

theorem readUnit_control {code : Nat} (control : code < 32) (rest : List Char) :
    readUnit ('0' :: '0' :: hexDigit (code / 16) :: hexDigit (code % 16) :: rest) =
      some (code, rest) := by
  have zero : hexValue '0' = some 0 := by decide
  have high := @hexValue_hexDigit (code / 16) (by omega)
  have low := @hexValue_hexDigit (code % 16) (by omega)
  simp only [readUnit, zero, high, low, Option.bind_eq_bind, Option.bind_some, Option.pure_def]
  congr 2
  omega

theorem readNumbered_control {character : Char} (control : character.toNat < 32)
    (rest : List Char) : readNumbered ('0' :: '0' :: hexDigit (character.toNat / 16) ::
      hexDigit (character.toNat % 16) :: rest) = some (character, rest) := by
  rw [readNumbered, readUnit_control control]
  simp only [Option.bind_eq_bind, Option.bind_some]
  rw [if_neg (by omega), if_neg (by omega), Char.ofNat_toNat]
  rfl

theorem readChars_escape (character : Char) (rounds : Nat) (rest : List Char) :
    readChars (rounds + 1) (escape character ++ rest) =
      (readChars rounds rest).map fun (later, rest) => (character :: later, rest) := by
  have escaped {mark : Char} (read : ∀ rest, readEscape (mark :: rest) = some (character, rest)) :
      readChars (rounds + 1) ('\\' :: mark :: rest) =
        (readChars rounds rest).map fun (later, rest) => (character :: later, rest) := by
    rw [readChars, if_neg (by decide), if_pos rfl, read]
    simp only [Option.bind_eq_bind, Option.bind_some]
    cases readChars rounds rest <;> rfl
  unfold escape
  split
  next same => subst same; exact escaped fun _ => rfl
  split
  next same => subst same; exact escaped fun _ => rfl
  split
  next same => subst same; exact escaped fun _ => rfl
  split
  next same => subst same; exact escaped fun _ => rfl
  split
  next same => subst same; exact escaped fun _ => rfl
  split
  next same => subst same; exact escaped fun _ => rfl
  split
  next same => subst same; exact escaped fun _ => rfl
  split
  next control =>
    have read : readEscape ('u' :: '0' :: '0' :: hexDigit (character.toNat / 16) ::
        hexDigit (character.toNat % 16) :: rest) = some (character, rest) :=
      readNumbered_control control rest
    change readChars (rounds + 1) ('\\' :: 'u' :: '0' :: '0' :: hexDigit (character.toNat / 16) ::
      hexDigit (character.toNat % 16) :: rest) = _
    rw [readChars, if_neg (by decide), if_pos rfl, read]
    simp only [Option.bind_eq_bind, Option.bind_some]
    cases readChars rounds rest <;> rfl
  next notQuote notBackslash _ _ _ _ _ printable =>
    rw [List.singleton_append, readChars, if_neg notQuote, if_neg notBackslash, if_neg printable]
    cases readChars rounds rest <;> rfl

theorem readChars_escapes (characters : List Char) (rounds : Nat)
    (enough : characters.length < rounds) (rest : List Char) :
    readChars rounds (characters.flatMap escape ++ '"' :: rest) = some (characters, rest) := by
  induction characters generalizing rounds with
  | nil =>
      obtain ⟨rounds, rfl⟩ := Nat.exists_eq_add_of_lt enough
      rw [List.length_nil, Nat.zero_add, List.flatMap_nil, List.nil_append, readChars, if_pos rfl]
  | cons character later ih =>
      obtain ⟨rounds, rfl⟩ := Nat.exists_eq_succ_of_ne_zero (Nat.ne_zero_of_lt enough)
      rw [List.flatMap_cons, List.append_assoc, readChars_escape,
        ih rounds (by simpa using enough)]
      rfl

theorem length_escape (character : Char) : 1 ≤ (escape character).length := by
  unfold escape
  split <;> [simp; split <;> [simp; split <;> [simp; split <;> [simp; split <;> [simp;
    split <;> [simp; split <;> [simp; split <;> simp]]]]]]]

theorem length_flatMap_escape (characters : List Char) :
    characters.length ≤ (characters.flatMap escape).length := by
  induction characters with
  | nil => simp
  | cons character later ih =>
      have first := length_escape character
      rw [List.flatMap_cons, List.length_append, List.length_cons]
      omega

theorem readString_quote (text : String) (rest : List Char) :
    readString (text.toList.flatMap escape ++ '"' :: rest) = some (text, rest) := by
  have shorter := length_flatMap_escape text.toList
  have enough : text.toList.length < (text.toList.flatMap escape ++ '"' :: rest).length := by
    rw [List.length_append, List.length_cons]
    omega
  rw [readString, readChars_escapes _ _ enough, Option.map_some]
  exact congrArg (fun text : String => some (text, rest)) String.ofList_toList

/-! Numbers -/

def isNumberChar (character : Char) : Bool :=
  character.isDigit || character == '-' || character == '+' || character == '.' ||
    character == 'e' || character == 'E'

/-- The digits before the point: no zero stands in front of others. -/
def readWhole (text : List Char) : Option (List Char × List Char) :=
  let digits := text.takeWhile Char.isDigit
  if digits = [] ∨ digits.head? = some '0' ∧ 1 < digits.length then none
  else some (digits, text.dropWhile Char.isDigit)

def readFraction : List Char → Option (List Char × List Char)
  | [] => some ([], [])
  | mark :: rest =>
      if mark = '.' then
        let digits := rest.takeWhile Char.isDigit
        if digits = [] then none else some (digits, rest.dropWhile Char.isDigit)
      else some ([], mark :: rest)

def readDigits (digits : List Char) : Option Nat :=
  if digits ≠ [] ∧ digits.all Char.isDigit then some (Nat.ofDigitChars 10 digits 0) else none

def readExponent : List Char → Option Int
  | [] => some 0
  | mark :: rest =>
      if mark = 'e' ∨ mark = 'E' then
        if rest.head? = some '-' then (readDigits rest.tail).map fun exponent => -(exponent : Int)
        else if rest.head? = some '+' then (readDigits rest.tail).map Int.ofNat
        else (readDigits rest).map Int.ofNat
      else none

/-- The exact value of an unsigned number. -/
def magnitude (text : List Char) : Option ℚ := do
  let (whole, rest) ← readWhole text
  let (fraction, rest) ← readFraction rest
  let exponent ← readExponent rest
  let digits : ℚ := Nat.ofDigitChars 10 (whole ++ fraction) 0
  let scale := exponent - fraction.length
  return if 0 ≤ scale then digits * 10 ^ scale.toNat else digits / 10 ^ (-scale).toNat

def decimal (literal : List Char) : Option ℚ :=
  if literal.head? = some '-' then (magnitude literal.tail).map (- ·) else magnitude literal

def isNumber (literal : List Char) : Bool :=
  literal.all isNumberChar && (decimal literal).isSome

example : [decimal "-12.50e-1".toList, decimal "3e2".toList, decimal "01".toList,
    decimal "1.".toList] = [some (-5 / 4), some 300, none, none] := by
  decide +kernel

def readNumber (text : List Char) : Option (List Char × List Char) :=
  let literal := text.takeWhile isNumberChar
  if isNumber literal then some (literal, text.dropWhile isNumberChar) else none

def Closed (rest : List Char) : Prop := ∀ next ∈ rest.head?, isNumberChar next = false

theorem readNumber_append {literal rest : List Char} (number : isNumber literal = true)
    (closed : Closed rest) : readNumber (literal ++ rest) = some (literal, rest) := by
  have every : literal.all isNumberChar = true := (Bool.and_eq_true_iff.mp number).1
  have every_ := List.all_eq_true.mp every
  have taken : (literal ++ rest).takeWhile isNumberChar = literal := by
    rw [List.takeWhile_append_of_pos every_]
    cases rest with
    | nil => rw [List.takeWhile_nil, List.append_nil]
    | cons next later =>
        rw [List.takeWhile_cons_of_neg (by simp [closed next rfl]), List.append_nil]
  have dropped : (literal ++ rest).dropWhile isNumberChar = rest := by
    rw [List.dropWhile_append_of_pos every_]
    cases rest with
    | nil => rfl
    | cons next later => rw [List.dropWhile_cons_of_neg (by simp [closed next rfl])]
  rw [readNumber, taken, dropped, if_pos number]

theorem isNumber_cons {literal : List Char} (number : isNumber literal = true) :
    ∃ first rest, literal = first :: rest ∧ isNumberChar first = true := by
  cases literal with
  | nil => exact absurd number (by decide)
  | cons first rest =>
      have every : (first :: rest).all isNumberChar = true := (Bool.and_eq_true_iff.mp number).1
      exact ⟨first, rest, rfl, List.all_eq_true.mp every first List.mem_cons_self⟩

theorem head_toDigits (value : Nat) : (Nat.toDigits 10 value).head? = some '0' → value = 0 := by
  induction value using Nat.strong_induction_on with
  | _ value ih =>
      intro leading
      by_cases small : value < 10
      · rw [Nat.toDigits_of_lt_base small] at leading
        exact Nat.digitChar_eq_zero.mp (Option.some.inj leading)
      · have below : value / 10 < value := by omega
        rw [Nat.toDigits_of_base_le (by decide) (by omega), List.head?_append,
          List.head?_eq_some_head Nat.toDigits_ne_nil, Option.some_or,
          ← List.head?_eq_some_head] at leading
        have := ih (value / 10) below leading
        omega

theorem digits_toDigits (value : Nat) : ∀ digit ∈ Nat.toDigits 10 value, digit.isDigit = true :=
  fun _ => Nat.isDigit_of_mem_toDigits (by decide) (by decide)

theorem readWhole_digits {text : List Char} (digits : ∀ digit ∈ text, digit.isDigit = true) :
    readWhole text =
      if text = [] ∨ text.head? = some '0' ∧ 1 < text.length then none else some (text, []) := by
  have taken : text.takeWhile Char.isDigit = text := List.takeWhile_eq_self_iff.mpr digits
  have dropped : text.dropWhile Char.isDigit = [] := List.dropWhile_eq_nil_iff.mpr digits
  rw [readWhole, taken, dropped]

theorem magnitude_of_whole {text digits : List Char} (read : readWhole text = some (digits, [])) :
    magnitude text = some (Nat.ofDigitChars 10 digits 0 : ℚ) := by
  have scale : (0 : Int) - ([] : List Char).length = 0 := rfl
  rw [magnitude, read]
  simp only [Option.bind_eq_bind, Option.bind_some, readFraction, readExponent, List.append_nil,
    scale, Option.pure_def]
  rw [if_pos (le_refl _), Int.toNat_zero, pow_zero, mul_one]

theorem magnitude_digits {text : List Char} (digits : ∀ digit ∈ text, digit.isDigit = true)
    (valid : (magnitude text).isSome = true) :
    magnitude text = some (Nat.ofDigitChars 10 text 0 : ℚ) := by
  refine magnitude_of_whole ?_
  rw [readWhole_digits digits]
  refine if_neg fun refused => ?_
  rw [magnitude, readWhole_digits digits, if_pos refused] at valid
  cases valid

theorem magnitude_toDigits (value : Nat) :
    magnitude (Nat.toDigits 10 value) = some (value : ℚ) := by
  have read : readWhole (Nat.toDigits 10 value) = some (Nat.toDigits 10 value, []) := by
    rw [readWhole_digits (digits_toDigits value), if_neg]
    rintro (empty | ⟨leading, longer⟩)
    · exact Nat.toDigits_ne_nil empty
    · have zero := head_toDigits value leading
      subst zero
      exact absurd longer (by decide)
  rw [magnitude_of_whole read, Nat.ofDigitChars_ten_toDigits]

theorem decimal_toDigits (value : Nat) : decimal (Nat.toDigits 10 value) = some (value : ℚ) := by
  rw [decimal, if_neg, magnitude_toDigits]
  intro minus
  have digit := digits_toDigits value '-' (List.mem_of_mem_head? minus)
  exact absurd digit (by decide)

theorem decimal_minus (value : Nat) :
    decimal ('-' :: Nat.toDigits 10 value) = some (-(value : ℚ)) := by
  rw [decimal, List.head?_cons, if_pos rfl, List.tail_cons, magnitude_toDigits, Option.map_some]

theorem isNumberChar_toDigits (value : Nat) :
    (Nat.toDigits 10 value).all isNumberChar = true := by
  rw [List.all_eq_true]
  intro digit member
  rw [isNumberChar, digits_toDigits value digit member]
  rfl

theorem isNumber_toDigits (value : Nat) : isNumber (Nat.toDigits 10 value) = true := by
  rw [isNumber, isNumberChar_toDigits, decimal_toDigits]
  rfl

theorem isNumber_minus (value : Nat) : isNumber ('-' :: Nat.toDigits 10 value) = true := by
  rw [isNumber, List.all_cons, isNumberChar_toDigits, decimal_minus]
  rfl

end JsonGrammar
