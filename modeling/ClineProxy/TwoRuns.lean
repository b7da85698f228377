import Mathlib.Data.List.Forall2
import ClineProxy.Positions

/-! Two runs of one loop over lists whose items are related. -/

namespace TwoRuns

universe u v

section Loops

variable {Error : Type} {First Second : Type} {FirstOut SecondOut : Type}
  {related : First → Second → Prop}

theorem forall₂_zipIdx {items : List First} {others : List Second}
    (pairs : List.Forall₂ related items others) (start : Nat) :
    List.Forall₂ (fun item other => related item.1 other.1 ∧ item.2 = other.2)
      (items.zipIdx start) (others.zipIdx start) := by
  induction pairs generalizing start with
  | nil => exact .nil
  | cons head _ ih => exact .cons ⟨head, rfl⟩ (ih (start + 1))

theorem forall₂_mapM {step : First → Except Error FirstOut} {other : Second → Except Error SecondOut}
    {relatedOut : FirstOut → SecondOut → Prop}
    (kept : ∀ first second firstOut secondOut, related first second → step first = .ok firstOut →
      other second = .ok secondOut → relatedOut firstOut secondOut)
    {items : List First} {others : List Second} (pairs : List.Forall₂ related items others)
    {firstOut : List FirstOut} {secondOut : List SecondOut}
    (firstDone : items.mapM step = .ok firstOut) (secondDone : others.mapM other = .ok secondOut) :
    List.Forall₂ relatedOut firstOut secondOut := by
  induction pairs generalizing firstOut secondOut with
  | nil =>
      cases firstDone
      cases secondDone
      exact .nil
  | @cons item second rest others head _ ih =>
      rw [List.mapM_cons] at firstDone secondDone
      cases firstHead : step item with
      | error abort => simp [firstHead, bind, Except.bind] at firstDone
      | ok value =>
          cases secondHead : other second with
          | error abort => simp [secondHead, bind, Except.bind] at secondDone
          | ok otherValue =>
              cases firstRest : rest.mapM step with
              | error abort => simp [firstHead, firstRest, bind, Except.bind] at firstDone
              | ok values =>
                  cases secondRest : others.mapM other with
                  | error abort =>
                      simp [secondHead, secondRest, bind, Except.bind] at secondDone
                  | ok otherValues =>
                      rw [firstHead, firstRest] at firstDone
                      rw [secondHead, secondRest] at secondDone
                      cases firstDone
                      cases secondDone
                      exact .cons (kept _ _ _ _ head firstHead secondHead) (ih firstRest secondRest)

/-- An invariant of both states that every pair of steps keeps. -/
theorem foldlM_related {State Other : Type} {inv : State → Other → Prop}
    {step : State → First → Except Error State} {other : Other → Second → Except Error Other}
    {items : List First} {others : List Second}
    (kept : ∀ state left first second next further, first ∈ items → second ∈ others →
      inv state left → related first second → step state first = .ok next →
      other left second = .ok further → inv next further)
    (pairs : List.Forall₂ related items others) {state next : State} {left further : Other}
    (start : inv state left) (firstDone : items.foldlM step state = .ok next)
    (secondDone : others.foldlM other left = .ok further) : inv next further := by
  induction pairs generalizing state left with
  | nil =>
      cases firstDone
      cases secondDone
      exact start
  | @cons item second rest others head _ ih =>
      rw [List.foldlM_cons] at firstDone secondDone
      cases firstHead : step state item with
      | error abort => simp [firstHead, bind, Except.bind] at firstDone
      | ok middle =>
          cases secondHead : other left second with
          | error abort => simp [secondHead, bind, Except.bind] at secondDone
          | ok between =>
              rw [firstHead] at firstDone
              rw [secondHead] at secondDone
              refine ih ?_ (kept _ _ _ _ _ _ (List.mem_cons_self ..) (List.mem_cons_self ..) start
                head firstHead secondHead) firstDone secondDone
              exact fun _ _ _ _ _ _ member memberOther => kept _ _ _ _ _ _
                (List.mem_cons_of_mem _ member) (List.mem_cons_of_mem _ memberOther)

end Loops

section Before

variable {Item : Type} {marked : Item → Bool} {related : Item → Item → Prop}

/-- Related items, which are equal unless a marked item stands behind them. -/
inductive AlikeBefore (marked : Item → Bool) (related : Item → Item → Prop) :
    List Item → List Item → Prop
  | nil : AlikeBefore marked related [] []
  | cons {first second : Item} {rest others : List Item} : related first second →
      (first = second ∨ rest.any marked = true) → AlikeBefore marked related rest others →
      AlikeBefore marked related (first :: rest) (second :: others)

namespace AlikeBefore

variable {items others : List Item}

theorem eq_of_unmarked (alike : AlikeBefore marked related items others)
    (none_ : items.any marked = false) : items = others := by
  induction alike with
  | nil => rfl
  | cons _ same _ ih =>
      rw [List.any_cons, Bool.or_eq_false_iff] at none_
      rw [ih none_.2]
      rcases same with rfl | behind
      · rfl
      · rw [behind] at none_
        cases none_.2

theorem map_eq {Other : Type} {view : Item → Other}
    (kept : ∀ first second, related first second → view first = view second)
    (alike : AlikeBefore marked related items others) : items.map view = others.map view := by
  induction alike with
  | nil => rfl
  | cons head _ _ ih => rw [List.map_cons, List.map_cons, ih, kept _ _ head]

theorem rposition_eq {wanted : Item → Bool}
    (kept : ∀ first second, related first second → wanted first = wanted second)
    (alike : AlikeBefore marked related items others) :
    Positions.rposition wanted items = Positions.rposition wanted others := by
  have whole (list : List Item) : Positions.rposition wanted list =
      Positions.rposition id (list.map wanted) :=
    (Positions.rposition_map wanted id wanted list fun _ _ => rfl).symm
  rw [whole, whole, alike.map_eq kept]

variable {change : Nat → Item → Item}

theorem any_mapIdx
    (marks : ∀ index first second, related first second →
      marked (change index first) = marked first)
    (alike : AlikeBefore marked related items others) :
    (items.mapIdx change).any marked = items.any marked := by
  induction alike generalizing change with
  | nil => rfl
  | cons head _ _ ih =>
      rw [List.mapIdx_cons, List.any_cons, List.any_cons, marks 0 _ _ head,
        ih fun index => marks (index + 1)]

theorem mapIdx
    (kept : ∀ index first second, related first second →
      related (change index first) (change index second))
    (marks : ∀ index first second, related first second →
      marked (change index first) = marked first)
    (alike : AlikeBefore marked related items others) :
    AlikeBefore marked related (items.mapIdx change) (others.mapIdx change) := by
  induction alike generalizing change with
  | nil => exact .nil
  | cons head same tail ih =>
      have later := fun index => marks (index + 1)
      rw [List.mapIdx_cons, List.mapIdx_cons]
      refine .cons (kept 0 _ _ head) ?_ (ih (fun index => kept (index + 1)) later)
      rw [tail.any_mapIdx later]
      exact same.imp_left (congrArg (change 0))

end AlikeBefore

end Before

end TwoRuns
