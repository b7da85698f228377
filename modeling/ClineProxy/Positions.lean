import Mathlib.Data.List.Basic
import Mathlib.Data.List.Nodup
import Mathlib.Data.List.Range

/-! The positions at which a list of marks holds. -/

namespace Positions

def marked (start : Nat) : List Bool → List Nat
  | [] => []
  | mark :: rest => (if mark then [start] else []) ++ marked (start + 1) rest

theorem marked_append (start : Nat) (first second : List Bool) :
    marked start (first ++ second) = marked start first ++ marked (start + first.length) second := by
  induction first generalizing start with
  | nil => simp [marked]
  | cons mark rest ih =>
      rw [List.cons_append, marked, ih, marked, List.append_assoc, List.length_cons]
      congr 3
      omega

theorem marked_snoc (marks : List Bool) (mark : Bool) :
    marked 0 (marks ++ [mark]) = marked 0 marks ++ if mark then [marks.length] else [] := by
  rw [marked_append]
  simp [marked]

theorem marked_length (start : Nat) (marks : List Bool) :
    (marked start marks).length = marks.count true := by
  induction marks generalizing start with
  | nil => rfl
  | cons mark rest ih => cases mark <;> simp [marked, ih]

/-- No mark holds behind one that does not. -/
def Packed (marks : List Bool) : Prop :=
  marks.Pairwise fun before later => later = true → before = true

theorem packed_snoc (marks : List Bool) (mark : Bool) :
    Packed (marks ++ [mark]) ↔ Packed marks ∧ (mark = true → ∀ before ∈ marks, before = true) := by
  simp only [Packed, List.pairwise_append, List.pairwise_singleton, List.mem_singleton, true_and]
  constructor
  · exact fun ⟨packed, held⟩ => ⟨packed, fun holds before member => held before member mark rfl holds⟩
  · rintro ⟨packed, held⟩
    exact ⟨packed, fun before member later same holds => held (same ▸ holds) before member⟩

theorem marked_of_packed {marks : List Bool} (packed : Packed marks) :
    marked 0 marks = List.range (marked 0 marks).length := by
  induction marks using List.reverseRecOn with
  | nil => rfl
  | append_singleton marks mark ih =>
      obtain ⟨before, held⟩ := (packed_snoc marks mark).mp packed
      rw [marked_snoc]
      cases mark with
      | false => simpa using ih before
      | true =>
          have full : (marked 0 marks).length = marks.length := by
            rw [marked_length, List.count_eq_length]
            exact fun mark member => (held rfl mark member).symm
          rw [if_pos rfl, List.length_append, full, List.length_singleton, List.range_succ,
            ih before, full]

theorem packed_iff (marks : List Bool) : Packed marks ↔
    ∀ position ∈ marked 0 marks, position < (marked 0 marks).length := by
  constructor
  · intro packed position member
    rw [marked_of_packed packed] at member
    exact List.mem_range.mp member
  · intro below
    induction marks using List.reverseRecOn with
    | nil => exact List.Pairwise.nil
    | append_singleton marks mark ih =>
        rw [marked_snoc] at below
        rw [packed_snoc]
        cases mark with
        | false => exact ⟨ih (by simpa using below), by simp⟩
        | true =>
            have last := below marks.length (by simp)
            have bound := @List.count_le_length _ _ true marks
            have full : marks.count true = marks.length := by
              simp only [if_true, List.length_append, List.length_singleton, marked_length] at last
              omega
            have all : ∀ before ∈ marks, before = true := fun before member =>
              (List.count_eq_length.mp full before member).symm
            exact ⟨List.pairwise_of_forall_mem_list fun before member _ _ _ => all before member,
              fun _ => all⟩

section Last

variable {Item : Type} (wanted : Item → Bool)

def rposition : List Item → Option Nat
  | [] => none
  | item :: rest =>
      match rposition rest with
      | some position => some (position + 1)
      | none => if wanted item then some 0 else none

theorem rposition_none {items : List Item} (none_ : ∀ item ∈ items, wanted item = false) :
    rposition wanted items = none := by
  induction items with
  | nil => rfl
  | cons item rest ih =>
      rw [rposition, ih fun other member => none_ other (List.mem_cons_of_mem _ member),
        none_ item (List.mem_cons_self ..)]
      rfl

theorem rposition_append (first second : List Item) : rposition wanted (first ++ second) =
    ((rposition wanted second).map (· + first.length)).or (rposition wanted first) := by
  induction first with
  | nil =>
      rw [List.nil_append]
      cases rposition wanted second <;> rfl
  | cons item rest ih =>
      rw [List.cons_append, rposition, ih, rposition]
      cases rposition wanted second with
      | none => rfl
      | some position => simp [Nat.add_assoc]

theorem rposition_snoc (items : List Item) (last : Item) : rposition wanted (items ++ [last]) =
    if wanted last then some items.length else rposition wanted items := by
  rw [rposition_append]
  simp only [rposition]
  split <;> simp

theorem rposition_lt {items : List Item} {position : Nat}
    (found : rposition wanted items = some position) : position < items.length := by
  induction items generalizing position with
  | nil => cases found
  | cons item rest ih =>
      rw [rposition] at found
      split at found
      next before behind =>
        have below := ih behind
        obtain rfl := Option.some.inj found
        simpa using below
      next =>
        split at found
        next =>
          obtain rfl := Option.some.inj found
          simp
        next => cases found

theorem any_eq_isSome (items : List Item) : items.any wanted = (rposition wanted items).isSome := by
  induction items with
  | nil => rfl
  | cons item rest ih =>
      rw [List.any_cons, ih, rposition]
      cases rposition wanted rest <;> cases wanted item <;> rfl

/-- An item that is not wanted stands before the last wanted one, or before the end when there
is none, unless the wanted ones all stand before it. -/
theorem rposition_around {before after : List Item} {item : Item} (other : wanted item = false) :
    let items := before ++ item :: after
    decide (before.length < (rposition wanted items).getD items.length) =
      (after.any wanted || !before.any wanted) := by
  have first : rposition wanted (item :: after) = (rposition wanted after).map (· + 1) := by
    rw [rposition, other]
    cases rposition wanted after <;> rfl
  dsimp only
  rw [rposition_append, first, any_eq_isSome, any_eq_isSome]
  cases behind : rposition wanted after with
  | some position => simp
  | none =>
      cases ahead : rposition wanted before with
      | none => simp
      | some position =>
          have below := rposition_lt wanted ahead
          simp; omega

theorem lt_rposition_iff {items : List Item} {index : Nat} :
    (∃ last, rposition wanted items = some last ∧ index < last) ↔
      (items.drop (index + 1)).any wanted = true := by
  rw [any_eq_isSome]
  have whole := rposition_append wanted (items.take (index + 1)) (items.drop (index + 1))
  rw [List.take_append_drop] at whole
  cases behind : rposition wanted (items.drop (index + 1)) with
  | some position =>
      have below := rposition_lt wanted behind
      rw [List.length_drop] at below
      rw [behind, Option.map_some, Option.some_or] at whole
      refine iff_of_true ⟨_, whole, ?_⟩ rfl
      rw [List.length_take]
      omega
  | none =>
      rw [behind, Option.map_none, Option.none_or] at whole
      refine iff_of_false (fun ⟨last, found, later⟩ => ?_) (by simp)
      have below := rposition_lt wanted (whole ▸ found)
      rw [List.length_take] at below
      omega

theorem rposition_map {Other : Type} (wantedOther : Other → Bool) (change : Item → Other)
    (items : List Item) (same : ∀ item ∈ items, wantedOther (change item) = wanted item) :
    rposition wantedOther (items.map change) = rposition wanted items := by
  induction items with
  | nil => rfl
  | cons item rest ih =>
      rw [List.map_cons, rposition, rposition, same item (List.mem_cons_self ..),
        ih fun other member => same other (List.mem_cons_of_mem _ member)]

end Last

end Positions
