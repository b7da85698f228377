import Mathlib.Data.List.Basic

/-! Loops that stop at their first error: what their steps keep and what holds of their results. -/

namespace FallibleLoops

variable {Error State Item Result : Type}

theorem bind_ok_iff {first : Except Error Item} {next : Item → Except Error Result}
    {result : Result} :
    (first >>= next) = .ok result ↔ ∃ value, first = .ok value ∧ next value = .ok result := by
  cases first with
  | error => simp [bind, Except.bind]
  | ok value => simp [bind, Except.bind]

/-- What every step keeps holds at the end. -/
theorem foldlM_kept {inv : State → Prop} {step : State → Item → Except Error State}
    {items : List Item}
    (kept : ∀ state next item, item ∈ items → inv state → step state item = .ok next → inv next)
    {state final : State} (start : inv state) (done : items.foldlM step state = .ok final) :
    inv final := by
  induction items generalizing state with
  | nil =>
      cases done
      exact start
  | cons item rest ih =>
      rw [List.foldlM_cons] at done
      obtain ⟨next, stepped, done⟩ := bind_ok_iff.mp done
      exact ih (fun state next other member => kept state next other (List.mem_cons_of_mem _ member))
        (kept state next item List.mem_cons_self start stepped) done

theorem forall_of_mapM {holds : Result → Prop} {convert : Item → Except Error Result}
    {items : List Item} {results : List Result}
    (given : ∀ item result, item ∈ items → convert item = .ok result → holds result)
    (done : items.mapM convert = .ok results) : ∀ result ∈ results, holds result := by
  induction items generalizing results with
  | nil =>
      cases done
      simp
  | cons item rest ih =>
      rw [List.mapM_cons] at done
      obtain ⟨first, head, done⟩ := bind_ok_iff.mp done
      obtain ⟨others, tail, done⟩ := bind_ok_iff.mp done
      cases done
      intro result member
      rcases List.mem_cons.mp member with rfl | later
      · exact given item result List.mem_cons_self head
      · exact ih (fun other result member => given other result (List.mem_cons_of_mem _ member))
          tail result later

theorem mapM_pure {convert : Item → Except Error Result} {given : Item → Result}
    {items : List Item} (all : ∀ item ∈ items, convert item = .ok (given item)) :
    items.mapM convert = .ok (items.map given) := by
  induction items with
  | nil => rfl
  | cons item rest ih =>
      rw [List.mapM_cons, all item List.mem_cons_self,
        ih fun other member => all other (List.mem_cons_of_mem _ member)]
      rfl

theorem foldlM_total {step : State → Item → Except Error State} {items : List Item}
    (total : ∀ state item, item ∈ items → ∃ next, step state item = .ok next) (state : State) :
    ∃ final, items.foldlM step state = .ok final := by
  induction items generalizing state with
  | nil => exact ⟨state, rfl⟩
  | cons item rest ih =>
      obtain ⟨next, stepped⟩ := total state item List.mem_cons_self
      rw [List.foldlM_cons, stepped]
      exact ih (fun state other member => total state other (List.mem_cons_of_mem _ member)) next

theorem foldlM_step {step : State → Item → Except Error State} {items : List Item}
    {state final : State} (done : items.foldlM step state = .ok final) {item : Item}
    (member : item ∈ items) : ∃ before next, step before item = .ok next := by
  induction items generalizing state with
  | nil => cases member
  | cons first rest ih =>
      rw [List.foldlM_cons] at done
      obtain ⟨next, stepped, done⟩ := bind_ok_iff.mp done
      rcases List.mem_cons.mp member with rfl | later
      · exact ⟨state, next, stepped⟩
      · exact ih done later

theorem mapM_total {convert : Item → Except Error Result} {items : List Item}
    (total : ∀ item ∈ items, ∃ result, convert item = .ok result) :
    ∃ results, items.mapM convert = .ok results := by
  induction items with
  | nil => exact ⟨[], rfl⟩
  | cons item rest ih =>
      obtain ⟨first, head⟩ := total item List.mem_cons_self
      obtain ⟨others, tail⟩ := ih fun other member => total other (List.mem_cons_of_mem _ member)
      rw [List.mapM_cons, head, tail]
      exact ⟨first :: others, rfl⟩

theorem mapM_step {convert : Item → Except Error Result} {items : List Item}
    {results : List Result} (done : items.mapM convert = .ok results) {item : Item}
    (member : item ∈ items) : ∃ result, convert item = .ok result := by
  induction items generalizing results with
  | nil => cases member
  | cons first rest ih =>
      rw [List.mapM_cons] at done
      obtain ⟨result, head, done⟩ := bind_ok_iff.mp done
      obtain ⟨others, tail, -⟩ := bind_ok_iff.mp done
      rcases List.mem_cons.mp member with rfl | later
      · exact ⟨result, head⟩
      · exact ih tail later

/-- What only certain items bring about is there at the end if one of them was. -/
theorem foldlM_brought {brought : State → Prop} {brings : Item → Prop} {inv : State → Prop}
    {step : State → Item → Except Error State} {items : List Item}
    (stepped : ∀ state next item, inv state → step state item = .ok next →
      inv next ∧ (brought next ↔ brought state ∨ brings item))
    {state final : State} (start : inv state) (done : items.foldlM step state = .ok final) :
    brought final ↔ brought state ∨ ∃ item ∈ items, brings item := by
  induction items generalizing state with
  | nil =>
      cases done
      simp
  | cons item rest ih =>
      rw [List.foldlM_cons] at done
      obtain ⟨next, taken, done⟩ := bind_ok_iff.mp done
      obtain ⟨kept, now⟩ := stepped state next item start taken
      rw [ih kept done, now, List.exists_mem_cons_iff, or_assoc]

theorem allM_cons_false {test : Item → Except Error Bool} {item : Item} {rest : List Item}
    (fails : test item = .ok false) : (item :: rest).allM test = .ok false := by
  rw [List.allM, fails]
  rfl

end FallibleLoops
