import Mathlib.Data.List.Induction
import Mathlib.Data.List.Nodup

/-! The distinct items of a list in the order in which they are first seen. -/

namespace FirstSeen

universe u

variable {Item : Type u} [DecidableEq Item]

def addNew (seen : List Item) (item : Item) : List Item :=
  if item ∈ seen then seen else seen ++ [item]

def firstSeen (items : List Item) : List Item := items.foldl addNew []

theorem mem_addNew {seen : List Item} {item query : Item} :
    query ∈ addNew seen item ↔ query ∈ seen ∨ query = item := by
  rw [addNew]
  split
  next member =>
    constructor
    · exact Or.inl
    · rintro (held | rfl)
      · exact held
      · exact member
  next => simp

theorem nodup_addNew {seen : List Item} (distinct : seen.Nodup) (item : Item) :
    (addNew seen item).Nodup := by
  rw [addNew]
  split
  next => exact distinct
  next fresh =>
    refine List.nodup_append.mpr ⟨distinct, by simp, ?_⟩
    rintro other before new added rfl
    exact fresh (List.mem_singleton.mp added ▸ before)

theorem firstSeen_append (items : List Item) (item : Item) :
    firstSeen (items ++ [item]) = addNew (firstSeen items) item := by
  simp [firstSeen]

theorem mem_firstSeen {items : List Item} {query : Item} :
    query ∈ firstSeen items ↔ query ∈ items := by
  induction items using List.reverseRecOn with
  | nil => simp [firstSeen]
  | append_singleton items item ih =>
      rw [firstSeen_append, mem_addNew, ih, List.mem_append, List.mem_singleton]

theorem nodup_firstSeen (items : List Item) : (firstSeen items).Nodup := by
  induction items using List.reverseRecOn with
  | nil => exact List.nodup_nil
  | append_singleton items item ih =>
      rw [firstSeen_append]
      exact nodup_addNew ih item

end FirstSeen
