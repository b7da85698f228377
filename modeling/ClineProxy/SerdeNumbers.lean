import ClineProxy.JsonNormalForm

/-! Numbers as `serde_json` holds them: 64-bit integers, and floats for all others. -/

namespace Json

open JsonGrammar (decimal isNumber)

/-- How floats are written and how literals are rounded to them. -/
structure Floats where
  write : UInt64 → List Char
  read : List Char → Option UInt64

def Floats.Written (floats : Floats) : Prop :=
  ∀ literal bits, floats.read literal = some bits → isNumber (floats.write bits) = true

def isDigits (text : List Char) : Bool := text.all Char.isDigit

def wholeValue (digits : List Char) : Nat := Nat.ofDigitChars 10 digits 0

variable (floats : Floats)

def writeNumber : Number → List Char
  | .posInt value => Nat.toDigits 10 value.toNat
  | .negInt value =>
      if value.toInt < 0 then '-' :: Nat.toDigits 10 value.toInt.natAbs
      else Nat.toDigits 10 value.toInt.natAbs
  | .float bits => floats.write bits

/-- A whole number that fits in 64 bits is kept; a negative zero is a float. -/
def readNumber (literal : List Char) : Option Number :=
  if isNumber literal then
    if isDigits literal ∧ wholeValue literal < 2 ^ 64 then
      some (.posInt (UInt64.ofNat (wholeValue literal)))
    else if literal.head? = some '-' ∧ isDigits literal.tail ∧ 0 < wholeValue literal.tail ∧
        wholeValue literal.tail ≤ 2 ^ 63 then
      some (.negInt (Int64.ofInt (-(wholeValue literal.tail : Int))))
    else (floats.read literal).map .float
  else none

def Floats.numbers : NumberCoding where
  write := writeNumber floats
  read := readNumber floats

theorem isNumber_of_read {literal : List Char} {number : Number}
    (read : readNumber floats literal = some number) : isNumber literal = true := by
  rw [readNumber] at read
  split at read
  next valid => exact valid
  next => cases read

theorem decimal_digits {literal : List Char} (valid : isNumber literal = true)
    (digits : isDigits literal = true) : decimal literal = some (wholeValue literal : ℚ) := by
  have every := List.all_eq_true.mp digits
  have unsigned : literal.head? ≠ some '-' := fun minus =>
    absurd (every '-' (List.mem_of_mem_head? minus)) (by decide)
  have accepted := (Bool.and_eq_true_iff.mp valid).2
  rw [decimal, if_neg unsigned] at accepted ⊢
  exact JsonGrammar.magnitude_digits every accepted

theorem decimal_minus_digits {literal : List Char} (valid : isNumber literal = true)
    (minus : literal.head? = some '-') (digits : isDigits literal.tail = true) :
    decimal literal = some (-(wholeValue literal.tail : ℚ)) := by
  have accepted := (Bool.and_eq_true_iff.mp valid).2
  rw [decimal, if_pos minus, Option.isSome_map] at accepted
  rw [decimal, if_pos minus, JsonGrammar.magnitude_digits (List.all_eq_true.mp digits) accepted]
  rfl

theorem readNumber_cases {literal : List Char} {number : Number}
    (read : readNumber floats literal = some number) :
    (∃ value : Nat, value < 2 ^ 64 ∧ number = .posInt (UInt64.ofNat value) ∧
        decimal literal = some (value : ℚ)) ∨
      (∃ value : Nat, 0 < value ∧ value ≤ 2 ^ 63 ∧ number = .negInt (Int64.ofInt (-value)) ∧
        decimal literal = some (-(value : ℚ))) ∨
      ∃ bits, number = .float bits ∧ floats.read literal = some bits := by
  have valid := isNumber_of_read floats read
  rw [readNumber, if_pos valid] at read
  split at read
  next whole =>
    cases read
    exact .inl ⟨_, whole.2, rfl, decimal_digits valid whole.1⟩
  split at read
  next whole =>
    cases read
    exact .inr (.inl ⟨_, whole.2.2.1, whole.2.2.2, rfl,
      decimal_minus_digits valid whole.1 whole.2.1⟩)
  next =>
    obtain ⟨bits, found, rfl⟩ := Option.map_eq_some_iff.mp read
    exact .inr (.inr ⟨bits, rfl, found⟩)

theorem isDigits_toDigits (value : Nat) : isDigits (Nat.toDigits 10 value) = true :=
  List.all_eq_true.mpr (JsonGrammar.digits_toDigits value)

theorem readNumber_toDigits {value : Nat} (fits : value < 2 ^ 64) :
    readNumber floats (Nat.toDigits 10 value) = some (.posInt (UInt64.ofNat value)) := by
  have held : wholeValue (Nat.toDigits 10 value) = value := Nat.ofDigitChars_ten_toDigits
  rw [readNumber, if_pos (JsonGrammar.isNumber_toDigits value), held,
    if_pos ⟨isDigits_toDigits value, fits⟩]

theorem readNumber_minus {value : Nat} (positive : 0 < value) (fits : value ≤ 2 ^ 63) :
    readNumber floats ('-' :: Nat.toDigits 10 value) =
      some (.negInt (Int64.ofInt (-value))) := by
  have held : wholeValue (Nat.toDigits 10 value) = value := Nat.ofDigitChars_ten_toDigits
  have signed : ¬(isDigits ('-' :: Nat.toDigits 10 value) = true ∧
      wholeValue ('-' :: Nat.toDigits 10 value) < 2 ^ 64) := fun digits =>
    absurd (List.all_eq_true.mp digits.1 '-' List.mem_cons_self) (by decide)
  rw [readNumber, if_pos (JsonGrammar.isNumber_minus value), if_neg signed, List.tail_cons, held,
    if_pos ⟨rfl, isDigits_toDigits value, positive, fits⟩]

theorem writeNumber_posInt {value : Nat} (fits : value < 2 ^ 64) :
    writeNumber floats (.posInt (UInt64.ofNat value)) = Nat.toDigits 10 value := by
  rw [writeNumber, UInt64.toNat_ofNat_of_lt' fits]

theorem writeNumber_negInt {value : Nat} (positive : 0 < value) (fits : value ≤ 2 ^ 63) :
    writeNumber floats (.negInt (Int64.ofInt (-value))) = '-' :: Nat.toDigits 10 value := by
  have held : (Int64.ofInt (-(value : Int))).toInt = -(value : Int) :=
    Int64.toInt_ofInt_of_le (by omega) (by omega)
  rw [writeNumber, held, if_pos (by omega), Int.natAbs_neg, Int.natAbs_natCast]

theorem decimal_again {literal : List Char} {number : Number}
    (read : readNumber floats literal = some number) :
    decimal (writeNumber floats number) = decimal literal ↔
      ∀ bits, number = .float bits → decimal (floats.write bits) = decimal literal := by
  obtain ⟨value, fits, rfl, exact_⟩ | ⟨value, positive, fits, rfl, exact_⟩ | ⟨bits, rfl, _⟩ :=
    readNumber_cases floats read
  · rw [writeNumber_posInt floats fits, exact_, JsonGrammar.decimal_toDigits]
    exact iff_of_true rfl fun _ float => by cases float
  · rw [writeNumber_negInt floats positive fits, exact_, JsonGrammar.decimal_minus]
    exact iff_of_true rfl fun _ float => by cases float
  · exact ⟨fun same _ float => Number.float.inj float ▸ same, fun same => same bits rfl⟩

theorem readable_of_read {literal : List Char} {number : Number}
    (read : readNumber floats literal = some number) (whole : ∀ bits, number ≠ .float bits) :
    floats.numbers.Readable number := by
  obtain ⟨value, fits, rfl, _⟩ | ⟨value, positive, fits, rfl, _⟩ | ⟨bits, rfl, _⟩ :=
    readNumber_cases floats read
  · have text := writeNumber_posInt floats fits
    exact ⟨(congrArg isNumber text).trans (JsonGrammar.isNumber_toDigits value),
      (congrArg (readNumber floats) text).trans (readNumber_toDigits floats fits)⟩
  · have text := writeNumber_negInt floats positive fits
    exact ⟨(congrArg isNumber text).trans (JsonGrammar.isNumber_minus value),
      (congrArg (readNumber floats) text).trans (readNumber_minus floats positive fits)⟩
  · exact absurd rfl (whole bits)

theorem writes_read {floats : Floats} (written : floats.Written) :
    floats.numbers.Writes fun number => ∃ literal, readNumber floats literal = some number := by
  rintro number ⟨literal, read⟩
  by_cases whole : ∀ bits, number ≠ .float bits
  · exact (readable_of_read floats read whole).literal
  · obtain ⟨bits, float⟩ := not_forall_not.mp whole
    subst float
    obtain ⟨_, _, wrong, _⟩ | ⟨_, _, _, wrong, _⟩ | ⟨other, same, found⟩ :=
      readNumber_cases floats read
    · cases wrong
    · cases wrong
    · cases same
      exact written literal bits found

end Json
