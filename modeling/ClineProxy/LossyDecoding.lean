import ClineProxy.TextBytes

/-! The lossy decoding of UTF-8 gives back every text that was encoded. -/

namespace Text

theorem utf8EncodeChar_cases (character : Char) :
    let code := character.toNat
    (code < 128 ∧ String.utf8EncodeChar character = [UInt8.ofNat code]) ∨
    (128 ≤ code ∧ code < 2048 ∧ String.utf8EncodeChar character =
      [UInt8.ofNat (code / 64 % 32 + 192), UInt8.ofNat (code % 64 + 128)]) ∨
    (2048 ≤ code ∧ code < 65536 ∧ String.utf8EncodeChar character =
      [UInt8.ofNat (code / 4096 % 16 + 224), UInt8.ofNat (code / 64 % 64 + 128),
        UInt8.ofNat (code % 64 + 128)]) ∨
    (65536 ≤ code ∧ String.utf8EncodeChar character =
      [UInt8.ofNat (code / 262144 % 8 + 240), UInt8.ofNat (code / 4096 % 64 + 128),
        UInt8.ofNat (code / 64 % 64 + 128), UInt8.ofNat (code % 64 + 128)]) := by
  rw [String.utf8EncodeChar]
  simp only [Char.toNat]
  split
  next one => exact .inl ⟨by omega, rfl⟩
  next =>
    split
    next => exact .inr (.inl ⟨by omega, by omega, rfl⟩)
    next =>
      split
      next => exact .inr (.inr (.inl ⟨by omega, by omega, rfl⟩))
      next => exact .inr (.inr (.inr ⟨by omega, rfl⟩))

theorem toNat_byte {code : Nat} (small : code < 256) : (UInt8.ofNat code).toNat = code := by
  rw [UInt8.toNat_ofNat', Nat.mod_eq_of_lt small]

theorem isContinuation_byte (code : Nat) :
    isContinuation (UInt8.ofNat (code % 64 + 128)) = true ∧
      sixBits (UInt8.ofNat (code % 64 + 128)) = code % 64 := by
  have byte : (UInt8.ofNat (code % 64 + 128)).toNat = code % 64 + 128 := toNat_byte (by omega)
  constructor
  · simp only [isContinuation, Bool.and_eq_true, decide_eq_true_eq, UInt8.le_iff_toNat_le, byte]
    exact ⟨Nat.le_add_left _ _, by change _ ≤ 191; omega⟩
  · rw [sixBits, byte]
    omega

theorem code_valid (character : Char) : character.toNat < 55296 ∨
    57343 < character.toNat ∧ character.toNat < 1114112 :=
  character.valid

theorem decode_one {code : Nat} (ascii : code < 128) (rest : List UInt8) :
    fromUtf8Lossy (UInt8.ofNat code :: rest) = Char.ofNat code :: fromUtf8Lossy rest := by
  have byte : (UInt8.ofNat code).toNat = code := toNat_byte (by omega)
  have below : UInt8.ofNat code < 0x80 := by
    rw [UInt8.lt_iff_toNat_lt, byte]
    exact ascii
  rw [fromUtf8Lossy.eq_def]
  dsimp only
  rw [if_pos below, byte]

theorem decode_two {code : Nat} (wide : 128 ≤ code) (short : code < 2048) (rest : List UInt8) :
    fromUtf8Lossy (UInt8.ofNat (code / 64 % 32 + 192) :: UInt8.ofNat (code % 64 + 128) :: rest) =
      Char.ofNat code :: fromUtf8Lossy rest := by
  have byte : (UInt8.ofNat (code / 64 % 32 + 192)).toNat = code / 64 % 32 + 192 :=
    toNat_byte (by omega)
  obtain ⟨continues, low⟩ := isContinuation_byte code
  generalize UInt8.ofNat (code / 64 % 32 + 192) = first at byte ⊢
  have past : ¬first < 0x80 := by
    simp only [UInt8.lt_iff_toNat_lt, UInt8.reduceToNat]
    omega
  have leads : (0xC2 ≤ first && first ≤ 0xDF) = true := by
    simp only [Bool.and_eq_true, decide_eq_true_eq, UInt8.le_iff_toNat_le, UInt8.reduceToNat]
    omega
  have value : first.toNat % 32 * 64 + code % 64 = code := by omega
  rw [fromUtf8Lossy.eq_def]
  dsimp only
  rw [if_neg past, if_pos leads, if_pos continues, low, value]

theorem decode_three {code : Nat} (wide : 2048 ≤ code) (short : code < 65536)
    (valid : code < 55296 ∨ 57343 < code) (rest : List UInt8) :
    fromUtf8Lossy (UInt8.ofNat (code / 4096 % 16 + 224) :: UInt8.ofNat (code / 64 % 64 + 128) ::
      UInt8.ofNat (code % 64 + 128) :: rest) = Char.ofNat code :: fromUtf8Lossy rest := by
  have byte : (UInt8.ofNat (code / 4096 % 16 + 224)).toNat = code / 4096 % 16 + 224 :=
    toNat_byte (by omega)
  have next : (UInt8.ofNat (code / 64 % 64 + 128)).toNat = code / 64 % 64 + 128 :=
    toNat_byte (by omega)
  obtain ⟨continues, low⟩ := isContinuation_byte code
  obtain ⟨follows, middle⟩ := isContinuation_byte (code / 64)
  generalize UInt8.ofNat (code / 4096 % 16 + 224) = first at byte ⊢
  generalize UInt8.ofNat (code / 64 % 64 + 128) = second at next follows middle ⊢
  have past : ¬first < 0x80 := by
    simp only [UInt8.lt_iff_toNat_lt, UInt8.reduceToNat]
    omega
  have notTwo : ¬(0xC2 ≤ first && first ≤ 0xDF) = true := by
    simp only [Bool.and_eq_true, decide_eq_true_eq, UInt8.le_iff_toNat_le, UInt8.reduceToNat]
    omega
  have leads : (0xE0 ≤ first && first ≤ 0xEF) = true := by
    simp only [Bool.and_eq_true, decide_eq_true_eq, UInt8.le_iff_toNat_le, UInt8.reduceToNat]
    omega
  have fits : secondOfThree first second = true := by
    simp only [secondOfThree, isContinuation, Bool.or_eq_true, Bool.and_eq_true, decide_eq_true_eq,
      beq_iff_eq, UInt8.le_iff_toNat_le, ← UInt8.toNat_inj, UInt8.reduceToNat]
    omega
  have value : first.toNat % 16 * 4096 + code / 64 % 64 * 64 + code % 64 = code := by omega
  rw [fromUtf8Lossy.eq_def]
  dsimp only
  rw [if_neg past, if_neg notTwo, if_pos leads, if_pos fits, if_pos continues, low, middle, value]

theorem decode_four {code : Nat} (wide : 65536 ≤ code) (valid : code < 1114112)
    (rest : List UInt8) :
    fromUtf8Lossy (UInt8.ofNat (code / 262144 % 8 + 240) ::
      UInt8.ofNat (code / 4096 % 64 + 128) :: UInt8.ofNat (code / 64 % 64 + 128) ::
      UInt8.ofNat (code % 64 + 128) :: rest) = Char.ofNat code :: fromUtf8Lossy rest := by
  have byte : (UInt8.ofNat (code / 262144 % 8 + 240)).toNat = code / 262144 % 8 + 240 :=
    toNat_byte (by omega)
  have next : (UInt8.ofNat (code / 4096 % 64 + 128)).toNat = code / 4096 % 64 + 128 :=
    toNat_byte (by omega)
  obtain ⟨continues, low⟩ := isContinuation_byte code
  obtain ⟨follows, middle⟩ := isContinuation_byte (code / 64)
  obtain ⟨-, high⟩ := isContinuation_byte (code / 4096)
  generalize UInt8.ofNat (code / 262144 % 8 + 240) = first at byte ⊢
  generalize UInt8.ofNat (code / 4096 % 64 + 128) = second at next high ⊢
  have past : ¬first < 0x80 := by
    simp only [UInt8.lt_iff_toNat_lt, UInt8.reduceToNat]
    omega
  have notTwo : ¬(0xC2 ≤ first && first ≤ 0xDF) = true := by
    simp only [Bool.and_eq_true, decide_eq_true_eq, UInt8.le_iff_toNat_le, UInt8.reduceToNat]
    omega
  have notThree : ¬(0xE0 ≤ first && first ≤ 0xEF) = true := by
    simp only [Bool.and_eq_true, decide_eq_true_eq, UInt8.le_iff_toNat_le, UInt8.reduceToNat]
    omega
  have leads : (0xF0 ≤ first && first ≤ 0xF4) = true := by
    simp only [Bool.and_eq_true, decide_eq_true_eq, UInt8.le_iff_toNat_le, UInt8.reduceToNat]
    omega
  have fits : secondOfFour first second = true := by
    simp only [secondOfFour, isContinuation, Bool.or_eq_true, Bool.and_eq_true, decide_eq_true_eq,
      beq_iff_eq, UInt8.le_iff_toNat_le, ← UInt8.toNat_inj, UInt8.reduceToNat]
    omega
  have value : first.toNat % 8 * 262144 + code / 4096 % 64 * 4096 + code / 64 % 64 * 64 +
      code % 64 = code := by omega
  rw [fromUtf8Lossy.eq_def]
  dsimp only
  rw [if_neg past, if_neg notTwo, if_neg notThree, if_pos leads, if_pos fits, if_pos follows,
    if_pos continues, low, middle, high, value]

theorem fromUtf8Lossy_char (character : Char) (rest : List UInt8) :
    fromUtf8Lossy (String.utf8EncodeChar character ++ rest) = character :: fromUtf8Lossy rest := by
  have valid := code_valid character
  have back : Char.ofNat character.toNat = character := Char.ofNat_toNat character
  rcases utf8EncodeChar_cases character with ⟨ascii, bytes⟩ | ⟨wide, short, bytes⟩ |
      ⟨wide, short, bytes⟩ | ⟨wide, bytes⟩
  · rw [bytes, List.singleton_append, decode_one ascii, back]
  · rw [bytes]
    exact (decode_two wide short rest).trans (by rw [back])
  · rw [bytes]
    exact (decode_three wide short (by omega) rest).trans (by rw [back])
  · rw [bytes]
    exact (decode_four wide (by omega) rest).trans (by rw [back])

theorem fromUtf8Lossy_utf8Bytes (text : List Char) : fromUtf8Lossy (utf8Bytes text) = text := by
  induction text with
  | nil => rw [utf8Bytes, List.flatMap_nil, fromUtf8Lossy]
  | cons character rest ih => rw [utf8Bytes_cons, fromUtf8Lossy_char, ih]

end Text
