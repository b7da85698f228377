import ClineProxy.Text

/-! The UTF-8 encoding of a text: lengths in bytes, slices at byte offsets, and scans over bytes. -/

namespace Text

theorem utf8Len_append (first second : List Char) :
    utf8Len (first ++ second) = utf8Len first + utf8Len second := by
  have from_total (total : Nat) (text : List Char) :
      text.foldl (fun total character => total + charUtf8Len character) total =
        total + utf8Len text := by
    induction text generalizing total with
    | nil => rfl
    | cons character rest ih =>
        rw [utf8Len, List.foldl_cons, List.foldl_cons, ih, ih (0 + _)]
        omega
  rw [utf8Len, List.foldl_append, from_total]
  rfl

theorem utf8Len_cons (character : Char) (rest : List Char) :
    utf8Len (character :: rest) = charUtf8Len character + utf8Len rest := by
  rw [← List.singleton_append, utf8Len_append]
  simp [utf8Len]

theorem charUtf8Len_pos (character : Char) : 0 < charUtf8Len character :=
  character.utf8Size_pos

theorem utf8Len_eq_zero {text : List Char} (empty : utf8Len text = 0) : text = [] := by
  cases text with
  | nil => rfl
  | cons character rest =>
      rw [utf8Len_cons] at empty
      have positive := charUtf8Len_pos character
      omega

theorem utf8Len_extended {first second : List Char} (starts : first <+: second) :
    utf8Len first ≤ utf8Len second := by
  obtain ⟨more, rfl⟩ := starts
  rw [utf8Len_append]
  omega

theorem prefix_eq_of_utf8Len {first second : List Char} (starts : first <+: second)
    (same : utf8Len first = utf8Len second) : first = second := by
  obtain ⟨more, rfl⟩ := starts
  rw [utf8Len_append] at same
  rw [utf8Len_eq_zero (show utf8Len more = 0 by omega), List.append_nil]

theorem prefixes_eq_of_utf8Len {first second text : List Char} (starts : first <+: text)
    (begins : second <+: text) (same : utf8Len first = utf8Len second) : first = second := by
  cases List.prefix_or_prefix_of_prefix starts begins with
  | inl shorter => exact prefix_eq_of_utf8Len shorter same
  | inr longer => exact (prefix_eq_of_utf8Len longer same.symm).symm

def utf8Bytes (text : List Char) : List UInt8 := text.flatMap String.utf8EncodeChar

theorem utf8Bytes_append (first second : List Char) :
    utf8Bytes (first ++ second) = utf8Bytes first ++ utf8Bytes second :=
  List.flatMap_append

theorem utf8Bytes_cons (character : Char) (rest : List Char) :
    utf8Bytes (character :: rest) = String.utf8EncodeChar character ++ utf8Bytes rest :=
  List.flatMap_cons

theorem length_utf8Bytes (text : List Char) : (utf8Bytes text).length = utf8Len text := by
  induction text with
  | nil => rfl
  | cons character rest ih =>
      rw [utf8Bytes_cons, utf8Len_cons, List.length_append, ih, String.length_utf8EncodeChar]
      rfl

theorem utf8Bytes_ascii {character : Char} (ascii : character.toNat < 128) :
    String.utf8EncodeChar character = [UInt8.ofNat character.toNat] :=
  if_pos (Nat.le_of_lt_succ ascii)

theorem utf8Bytes_wide {character : Char} (wide : 128 ≤ character.toNat) :
    ∃ first rest, String.utf8EncodeChar character = first :: rest ∧ 128 ≤ first.toNat := by
  have past : ¬ character.toNat ≤ 0x7f := by omega
  rw [String.utf8EncodeChar]
  simp only [Char.toNat] at past
  split
  next small => exact absurd small past
  next =>
    split
    next =>
      refine ⟨_, _, rfl, ?_⟩
      rw [UInt8.toNat_ofNat']
      omega
    next =>
      split
      next =>
        refine ⟨_, _, rfl, ?_⟩
        rw [UInt8.toNat_ofNat']
        omega
      next =>
        refine ⟨_, _, rfl, ?_⟩
        rw [UInt8.toNat_ofNat']
        omega

/-- A test of bytes that accepts the ASCII characters inside, and nothing else. -/
structure ReadsAscii (test : UInt8 → Bool) (inside : Char → Bool) : Prop where
  ascii : ∀ code < 128, test (UInt8.ofNat code) = inside (Char.ofNat code)
  wide : ∀ character, inside character = true → character.toNat < 128
  high : ∀ byte, test byte = true → byte.toNat < 128

theorem ReadsAscii.takeWhile_eq {test : UInt8 → Bool} {inside : Char → Bool}
    (reads : ReadsAscii test inside) (text : List Char) :
    (utf8Bytes text).takeWhile test = utf8Bytes (text.takeWhile inside) := by
  induction text with
  | nil => rfl
  | cons character rest ih =>
      rw [utf8Bytes_cons]
      by_cases ascii : character.toNat < 128
      · have known := reads.ascii character.toNat ascii
        rw [Char.ofNat_toNat] at known
        rw [utf8Bytes_ascii ascii, List.singleton_append, List.takeWhile_cons,
          List.takeWhile_cons, known]
        split
        next =>
          rw [utf8Bytes_cons, utf8Bytes_ascii ascii, ih]
          rfl
        next => rfl
      · obtain ⟨first, others, encoded, high⟩ := utf8Bytes_wide (Nat.not_lt.mp ascii)
        have outside : ¬ inside character = true := mt (reads.wide character) ascii
        have rejected : ¬ test first = true := fun accepted =>
          absurd (reads.high first accepted) (Nat.not_lt.mpr high)
        rw [encoded, List.cons_append, List.takeWhile_cons_of_neg rejected,
          List.takeWhile_cons_of_neg outside]
        rfl

theorem ReadsAscii.head_any {test : UInt8 → Bool} {inside : Char → Bool}
    (reads : ReadsAscii test inside) (text : List Char) :
    (utf8Bytes text).head?.any test = text.head?.any inside := by
  cases text with
  | nil => rfl
  | cons character rest =>
      rw [utf8Bytes_cons]
      by_cases ascii : character.toNat < 128
      · have known := reads.ascii character.toNat ascii
        rw [Char.ofNat_toNat] at known
        rw [utf8Bytes_ascii ascii]
        exact known
      · obtain ⟨first, others, encoded, high⟩ := utf8Bytes_wide (Nat.not_lt.mp ascii)
        rw [encoded]
        refine Bool.eq_iff_iff.mpr (iff_of_false ?_ ?_)
        · intro accepted
          exact absurd (reads.high first accepted) (Nat.not_lt.mpr high)
        · exact mt (reads.wide character) ascii

def skipBytes (test : UInt8 → Bool) (bytes : List UInt8) (index : Nat) : Nat :=
  index + ((bytes.drop index).takeWhile test).length

theorem drop_utf8Bytes (consumed rest : List Char) :
    (utf8Bytes (consumed ++ rest)).drop (utf8Len consumed) = utf8Bytes rest := by
  rw [utf8Bytes_append, ← length_utf8Bytes, List.drop_left]

theorem ReadsAscii.skipBytes_eq {test : UInt8 → Bool} {inside : Char → Bool}
    (reads : ReadsAscii test inside) (consumed rest : List Char) :
    skipBytes test (utf8Bytes (consumed ++ rest)) (utf8Len consumed) =
      utf8Len (consumed ++ rest.takeWhile inside) := by
  rw [skipBytes, drop_utf8Bytes, reads.takeWhile_eq, length_utf8Bytes, utf8Len_append]

/-- The text from a byte offset on; `none` when that is past the end or inside a character. -/
def sliceFrom : List Char → Nat → Option (List Char)
  | text, 0 => some text
  | [], _ + 1 => none
  | character :: rest, offset + 1 =>
      if charUtf8Len character ≤ offset + 1 then
        sliceFrom rest (offset + 1 - charUtf8Len character)
      else none

def sliceTo : List Char → Nat → Option (List Char)
  | _, 0 => some []
  | [], _ + 1 => none
  | character :: rest, offset + 1 =>
      if charUtf8Len character ≤ offset + 1 then
        (sliceTo rest (offset + 1 - charUtf8Len character)).map (character :: ·)
      else none

theorem sliceFrom_boundary (consumed rest : List Char) :
    sliceFrom (consumed ++ rest) (utf8Len consumed) = some rest := by
  induction consumed with
  | nil => cases rest <;> rfl
  | cons character consumed ih =>
      have size := utf8Len_cons character consumed
      have positive := charUtf8Len_pos character
      obtain ⟨offset, offsetEq⟩ : ∃ offset, utf8Len (character :: consumed) = offset + 1 :=
        ⟨_, (Nat.sub_add_cancel (by omega)).symm⟩
      rw [offsetEq, List.cons_append, sliceFrom, if_pos (by omega),
        show offset + 1 - charUtf8Len character = utf8Len consumed by omega]
      exact ih

theorem sliceTo_boundary (kept rest : List Char) :
    sliceTo (kept ++ rest) (utf8Len kept) = some kept := by
  induction kept with
  | nil => cases rest <;> rfl
  | cons character kept ih =>
      have size := utf8Len_cons character kept
      have positive := charUtf8Len_pos character
      obtain ⟨offset, offsetEq⟩ : ∃ offset, utf8Len (character :: kept) = offset + 1 :=
        ⟨_, (Nat.sub_add_cancel (by omega)).symm⟩
      rw [offsetEq, List.cons_append, sliceTo, if_pos (by omega),
        show offset + 1 - charUtf8Len character = utf8Len kept by omega, ih]
      rfl

end Text
