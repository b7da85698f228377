import ClineProxy.FirstSeen

/-! Blocks that stand in the order in which their keys were first seen, and change in place. -/

namespace OpenedBlocks

universe u v

variable {Key : Type u} [DecidableEq Key] {Block : Type v}

open FirstSeen

def position (key : Key) : List Key → Option Nat
  | [] => none
  | other :: rest => if other = key then some 0 else (position key rest).map (· + 1)

theorem position_eq_none {key : Key} {keys : List Key} : position key keys = none ↔ key ∉ keys := by
  induction keys with
  | nil => simp [position]
  | cons other rest ih =>
      by_cases same : other = key
      · simp [position, same]
      · simp [position, same, Ne.symm same, ih]

theorem position_snoc {key : Key} {keys : List Key} (fresh : key ∉ keys) :
    position key (keys ++ [key]) = some keys.length := by
  induction keys with
  | nil => simp [position]
  | cons other rest ih =>
      rw [List.mem_cons, not_or] at fresh
      simp [position, Ne.symm fresh.1, ih fresh.2]

theorem position_snoc_other {key other : Key} (different : other ≠ key) (keys : List Key) :
    position key (keys ++ [other]) = position key keys := by
  induction keys with
  | nil => simp [position, different]
  | cons first rest ih => simp [position, ih]

theorem position_addNew_other {key other : Key} (different : other ≠ key) (keys : List Key) :
    position key (addNew keys other) = position key keys := by
  rw [addNew]
  split
  next => rfl
  next => exact position_snoc_other different keys

theorem modify_position {key : Key} {keys : List Key} {place : Nat} (distinct : keys.Nodup)
    (found : position key keys = some place) (block : Key → Block) (change : Block → Block) :
    (keys.map block).modify place change =
      keys.map fun other => if other = key then change (block other) else block other := by
  induction keys generalizing place with
  | nil => cases found
  | cons first rest ih =>
      obtain ⟨apart, distinct⟩ := List.nodup_cons.mp distinct
      by_cases same : first = key
      · subst same
        rw [position, if_pos rfl] at found
        cases found
        rw [List.map_cons, List.modify_zero_cons, List.map_cons, if_pos rfl]
        refine congrArg _ (List.map_congr_left fun other member => ?_)
        rw [if_neg fun same : other = first => apart (same ▸ member)]
      · rw [position, if_neg same] at found
        obtain ⟨before, earlier, rfl⟩ := Option.map_eq_some_iff.mp found
        rw [List.map_cons, List.modify_succ_cons, ih distinct earlier, List.map_cons, if_neg same]

theorem modify_middle (before : List Block) (block : Block) (after : List Block)
    (change : Block → Block) : (before ++ block :: after).modify before.length change =
      before ++ change block :: after := by
  induction before with
  | nil => rfl
  | cons first rest ih =>
      rw [List.cons_append, List.length_cons, List.modify_succ_cons, ih, List.cons_append]

theorem modify_last (blocks : List Block) (block : Block) (change : Block → Block) :
    (blocks ++ [block]).modify blocks.length change = blocks ++ [change block] :=
  modify_middle blocks block [] change

end OpenedBlocks
