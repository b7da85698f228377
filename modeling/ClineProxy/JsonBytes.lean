import ClineProxy.JsonText
import ClineProxy.TextBytes

/-! The bytes of texts, and the codec of a few documents on its own texts. -/

namespace Json

open Text

theorem toList_loop (bytes : ByteArray) (index : Nat) (read : List UInt8) :
    ByteArray.toList.loop bytes index read = read.reverse ++ bytes.data.toList.drop index := by
  rw [ByteArray.toList.loop]
  split
  next below =>
    have first : bytes.get! index = bytes.data.toList[index] := getElem!_pos bytes.data index below
    rw [toList_loop bytes (index + 1), first, List.reverse_cons, List.append_assoc,
      List.drop_eq_getElem_cons below]
    rfl
  next done => rw [List.drop_eq_nil_of_le (Nat.not_lt.mp done), List.append_nil]
termination_by bytes.size - index

theorem textBytes_eq (text : String) : textBytes text = utf8Bytes text.toList := by
  have read : textBytes text = text.toUTF8.data.toList := toList_loop text.toUTF8 0 []
  have encoded : text.toUTF8 = text.toList.utf8Encode := String.utf8Encode_toList.symm
  rw [read, encoded, List.utf8Encode, utf8Bytes, List.data_toByteArray, List.toList_toArray]

theorem utf8Bytes_chars {bytes : List UInt8} (ascii : ∀ byte ∈ bytes, byte.toNat < 128) :
    utf8Bytes (bytes.map fun byte => Char.ofNat byte.toNat) = bytes := by
  induction bytes with
  | nil => rfl
  | cons byte rest ih =>
      have small := ascii byte List.mem_cons_self
      have held : (Char.ofNat byte.toNat).toNat = byte.toNat := by
        have valid : byte.toNat.isValidChar := .inl (by omega)
        rw [Char.ofNat, dif_pos valid]
        rfl
      rw [List.map_cons, utf8Bytes_cons, utf8Bytes_ascii (by omega), held, UInt8.ofNat_toNat,
        ih fun other member => ascii other (List.mem_cons_of_mem _ member)]
      rfl

/-- The codec reads what it writes, as far as that is ASCII. -/
theorem documentCodec_reads {value : Value}
    (ascii : (value.render.all fun byte => byte.toNat < 128) = true) :
    (documentCodec [value]).fromSlice (textBytes ((documentCodec [value]).toText value)) =
      some value := by
  have bytes : textBytes ((documentCodec [value]).toText value) = value.render := by
    rw [textBytes_eq, documentCodec, String.toList_ofList]
    exact utf8Bytes_chars (by simpa using ascii)
  rw [bytes]
  simp [documentCodec]

end Json
