import Mathlib.Data.List.Basic
import Mathlib.Tactic.Ring

/-!
Optional sections of bytes in one stream: the name of each one that is there, a zero, the length
in little-endian bytes and the bytes themselves. The stream tells which sections there are.
-/

namespace Framing

def littleEndian : Nat → Nat → List UInt8
  | 0, _ => []
  | count + 1, number => UInt8.ofNat number :: littleEndian count (number / 256)

theorem length_littleEndian (count number : Nat) : (littleEndian count number).length = count := by
  induction count generalizing number with
  | zero => rfl
  | succ count ih => rw [littleEndian, List.length_cons, ih]

theorem littleEndian_inj {count number other : Nat} (below : number < 256 ^ count)
    (otherBelow : other < 256 ^ count)
    (same : littleEndian count number = littleEndian count other) : number = other := by
  induction count generalizing number other with
  | zero =>
      rw [Nat.pow_zero, Nat.lt_one_iff] at below otherBelow
      rw [below, otherBelow]
  | succ count ih =>
      rw [littleEndian, littleEndian, List.cons.injEq] at same
      have low : number % 256 = other % 256 := congrArg UInt8.toNat same.1
      rw [Nat.pow_succ] at below otherBelow
      have high := ih (by omega) (by omega) same.2
      omega

/-- At most as many bytes as a length of 64 bits counts. -/
abbrev ByteVec := { bytes : List UInt8 // bytes.length < 256 ^ 8 }

def frame (name : List UInt8) (bytes : ByteVec) : List UInt8 :=
  name ++ 0 :: (littleEndian 8 bytes.1.length ++ bytes.1)

variable {key : Type*}

def stream (name : key → List UInt8) (sections : key → Option ByteVec) (keys : List key) :
    List UInt8 :=
  keys.flatMap fun section_ => ((sections section_).map (frame (name section_))).getD []

theorem append_zero_inj {first other rest others : List UInt8} (zeroFree : 0 ∉ first)
    (otherZeroFree : 0 ∉ other) (same : first ++ 0 :: rest = other ++ 0 :: others) :
    first = other ∧ rest = others := by
  induction first generalizing other with
  | nil =>
      cases other with
      | nil => exact ⟨rfl, List.tail_eq_of_cons_eq same⟩
      | cons byte bytes =>
          have head : 0 = byte := List.head_eq_of_cons_eq same
          exact absurd (head ▸ List.mem_cons_self ..) otherZeroFree
  | cons byte bytes ih =>
      cases other with
      | nil =>
          have head : byte = 0 := List.head_eq_of_cons_eq same
          exact absurd (head ▸ List.mem_cons_self ..) zeroFree
      | cons head more =>
          rw [List.cons_append, List.cons_append, List.cons.injEq] at same
          obtain ⟨names, rests⟩ := ih (fun member => zeroFree (List.mem_cons_of_mem _ member))
            (fun member => otherZeroFree (List.mem_cons_of_mem _ member)) same.2
          exact ⟨by rw [same.1, names], rests⟩

theorem frame_append_inj {first rest others : List UInt8} {bytes more : ByteVec}
    (zeroFree : 0 ∉ first) (same : frame first bytes ++ rest = frame first more ++ others) :
    bytes = more ∧ rest = others := by
  rw [frame, frame, List.append_assoc, List.append_assoc, List.cons_append, List.cons_append,
    List.append_assoc, List.append_assoc] at same
  have behind := (append_zero_inj zeroFree zeroFree same).2
  have lengths : (littleEndian 8 bytes.1.length).length = (littleEndian 8 more.1.length).length := by
    rw [length_littleEndian, length_littleEndian]
  obtain ⟨counts, contents⟩ := List.append_inj behind lengths
  obtain ⟨held, ended⟩ := List.append_inj contents (littleEndian_inj bytes.2 more.2 counts)
  exact ⟨Subtype.ext held, ended⟩

variable {name : key → List UInt8} {sections others : key → Option ByteVec} {first : key}
  {keys : List key}

theorem stream_begins (keys : List key) : stream name sections keys = [] ∨
    ∃ section_ ∈ keys, ∃ rest, stream name sections keys = name section_ ++ 0 :: rest := by
  induction keys with
  | nil => exact .inl rfl
  | cons first rest ih =>
      rw [stream, List.flatMap_cons]
      cases sections first with
      | none =>
          rcases ih with empty | ⟨section_, member, more, begins⟩
          · exact .inl empty
          · exact .inr ⟨section_, List.mem_cons_of_mem _ member, more, begins⟩
      | some bytes =>
          refine .inr ⟨first, List.mem_cons_self ..,
            littleEndian 8 bytes.1.length ++ bytes.1 ++ stream name sections rest, ?_⟩
          rw [Option.map_some, Option.getD_some, frame, List.append_assoc, List.cons_append]
          rfl

theorem frame_ne_stream {bytes : ByteVec} {rest : List UInt8} (new : name first ∉ keys.map name)
    (zeroFree : ∀ section_ ∈ first :: keys, 0 ∉ name section_) :
    frame (name first) bytes ++ rest ≠ stream name sections keys := by
  intro same
  rw [frame, List.append_assoc, List.cons_append] at same
  rcases @stream_begins _ name sections keys with empty | ⟨other, member, more, begins⟩
  · rw [empty] at same
    exact absurd same (by simp)
  · rw [begins] at same
    have taken := (append_zero_inj (zeroFree first (List.mem_cons_self ..))
      (zeroFree other (List.mem_cons_of_mem _ member)) same).1
    exact new (taken ▸ List.mem_map_of_mem member)

/-- Streams of the same keys are the same only when all their sections are. -/
theorem stream_inj (distinct : (keys.map name).Nodup)
    (zeroFree : ∀ section_ ∈ keys, 0 ∉ name section_)
    (same : stream name sections keys = stream name others keys) :
    ∀ section_ ∈ keys, sections section_ = others section_ := by
  induction keys with
  | nil => exact fun section_ member => nomatch member
  | cons first rest ih =>
      rw [List.map_cons] at distinct
      obtain ⟨new, distinct⟩ := List.nodup_cons.mp distinct
      have restFree : ∀ section_ ∈ rest, 0 ∉ name section_ := fun section_ member =>
        zeroFree section_ (List.mem_cons_of_mem _ member)
      rw [stream, stream, List.flatMap_cons, List.flatMap_cons] at same
      rw [List.forall_mem_cons]
      cases held : sections first with
      | none =>
          cases otherHeld : others first with
          | none =>
              rw [held, otherHeld] at same
              exact ⟨rfl, ih distinct restFree same⟩
          | some bytes =>
              rw [held, otherHeld] at same
              exact absurd same.symm (frame_ne_stream new zeroFree)
      | some bytes =>
          cases otherHeld : others first with
          | none =>
              rw [held, otherHeld] at same
              exact absurd same (frame_ne_stream new zeroFree)
          | some more =>
              rw [held, otherHeld] at same
              obtain ⟨equal, behind⟩ :=
                frame_append_inj (zeroFree first (List.mem_cons_self ..)) same
              exact ⟨congrArg some equal, ih distinct restFree behind⟩

end Framing
