import Mathlib.Data.List.Induction

/-!
Histories in which a batch of calls is followed by answers to it: when every answer belongs
to the batch right before it and is the first one for its call.
-/

namespace CallChain

inductive Entry (Id : Type) where
  | calls (ids : List Id)
  | answer (id : Id)
  | other

variable {Id : Type}

/-- The last entries are calls that hold the id and answers to others than it. -/
def HasCall (history : List (Entry Id)) (id : Id) : Prop :=
  ∃ (earlier : List (Entry Id)) (ids answered : List Id),
    history = earlier ++ .calls ids :: answered.map .answer ∧ id ∈ ids ∧ id ∉ answered

def WellFormed (history : List (Entry Id)) : Prop :=
  ∀ before id later, history = before ++ .answer id :: later → HasCall before id

theorem hasCall_calls (history : List (Entry Id)) (ids : List Id) (id : Id) :
    HasCall (history ++ [.calls ids]) id ↔ id ∈ ids := by
  constructor
  · rintro ⟨earlier, held, answered, shape, member, -⟩
    cases answered using List.reverseRecOn with
    | nil =>
        have parts := List.append_inj' shape (by simp)
        simp only [List.map_nil, List.cons.injEq, Entry.calls.injEq, and_true] at parts
        exact parts.2 ▸ member
    | append_singleton answers final =>
        simp only [List.map_append, List.map_cons, List.map_nil, ← List.cons_append,
          ← List.append_assoc] at shape
        simpa using (List.append_inj' shape (by simp)).2
  · intro member
    exact ⟨history, ids, [], by simp, member, by simp⟩

theorem hasCall_other (history : List (Entry Id)) (id : Id) :
    ¬HasCall (history ++ [.other]) id := by
  rintro ⟨earlier, ids, answered, shape, -, -⟩
  cases answered using List.reverseRecOn with
  | nil => simpa using (List.append_inj' shape (by simp)).2
  | append_singleton answers final =>
      simp only [List.map_append, List.map_cons, List.map_nil, ← List.cons_append,
        ← List.append_assoc] at shape
      simpa using (List.append_inj' shape (by simp)).2

theorem hasCall_answer (history : List (Entry Id)) (first id : Id) :
    HasCall (history ++ [.answer first]) id ↔ HasCall history id ∧ id ≠ first := by
  constructor
  · rintro ⟨earlier, ids, answered, shape, member, fresh⟩
    cases answered using List.reverseRecOn with
    | nil => simpa using (List.append_inj' shape (by simp)).2
    | append_singleton answers final =>
        simp only [List.map_append, List.map_cons, List.map_nil, ← List.cons_append,
          ← List.append_assoc] at shape
        have parts := List.append_inj' shape (by simp)
        simp only [List.cons.injEq, Entry.answer.injEq, and_true] at parts
        simp only [List.mem_append, List.mem_singleton, not_or] at fresh
        exact ⟨⟨earlier, ids, answers, parts.1, member, fresh.1⟩, parts.2 ▸ fresh.2⟩
  · rintro ⟨⟨earlier, ids, answered, shape, member, fresh⟩, different⟩
    exact ⟨earlier, ids, answered ++ [first], by simp [shape], member, by simp [fresh, different]⟩

variable [DecidableEq Id]

/-- What the next entries may still answer; `none` once an answer had no call. -/
def scan (waiting : List Id) : List (Entry Id) → Option (List Id)
  | [] => some waiting
  | .calls ids :: rest => scan ids rest
  | .answer id :: rest =>
      if id ∈ waiting then scan (waiting.filter (· ≠ id)) rest else none
  | .other :: rest => scan [] rest

theorem scan_append (waiting : List Id) (first second : List (Entry Id)) :
    scan waiting (first ++ second) = (scan waiting first).bind fun left => scan left second := by
  induction first generalizing waiting with
  | nil => rfl
  | cons entry rest ih =>
      cases entry with
      | calls ids => exact ih ids
      | other => exact ih []
      | answer id =>
          simp only [List.cons_append, scan]
          split
          · exact ih _
          · rfl

theorem scan_isSome {history : List (Entry Id)} {waiting : List Id}
    (kept : ∀ id, id ∈ waiting ↔ HasCall history id) (rest : List (Entry Id)) :
    (scan waiting rest).isSome ↔ ∀ before id later, rest = before ++ .answer id :: later →
      HasCall (history ++ before) id := by
  induction rest generalizing history waiting with
  | nil => simp [scan]
  | cons entry rest ih =>
      have shifted : (∀ before id later, entry :: rest = before ++ .answer id :: later →
            HasCall (history ++ before) id) ↔
          (∀ id, entry = .answer id → id ∈ waiting) ∧
            ∀ before id later, rest = before ++ .answer id :: later →
              HasCall ((history ++ [entry]) ++ before) id := by
        constructor
        · intro all
          constructor
          · rintro id rfl
            exact (kept id).mpr (by simpa using all [] id rest rfl)
          · intro before id later shape
            simpa using all (entry :: before) id later (by simp [shape])
        · rintro ⟨first, others⟩ before id later shape
          cases before with
          | nil =>
              simp only [List.nil_append, List.cons.injEq] at shape
              simpa using (kept id).mp (first id shape.1)
          | cons head before =>
              simp only [List.cons_append, List.cons.injEq] at shape
              obtain ⟨rfl, shape⟩ := shape
              simpa using others before id later shape
      rw [shifted]
      cases entry with
      | calls ids =>
          rw [scan, ih fun id => (hasCall_calls history ids id).symm]
          simp
      | other =>
          have none_left : ∀ id, id ∈ ([] : List Id) ↔ HasCall (history ++ [.other]) id := by
            simp [hasCall_other]
          rw [scan, ih none_left]
          simp
      | answer first =>
          have left : ∀ id, id ∈ waiting.filter (· ≠ first) ↔
              HasCall (history ++ [.answer first]) id := by
            intro id
            rw [hasCall_answer, ← kept]
            simp
          rw [scan, ← ih left]
          by_cases member : first ∈ waiting <;> simp [member]

theorem wellFormed_iff (history : List (Entry Id)) :
    WellFormed history ↔ (scan [] history).isSome := by
  have empty : ∀ id, id ∈ ([] : List Id) ↔ HasCall ([] : List (Entry Id)) id := by
    simp [HasCall]
  rw [scan_isSome empty]
  simp [WellFormed]

theorem scan_answers {ids : List Id} (distinct : ids.Nodup) (waiting : List Id) :
    (scan waiting (ids.map .answer)).isSome ↔ ∀ id ∈ ids, id ∈ waiting := by
  induction ids generalizing waiting with
  | nil => simp [scan]
  | cons id rest ih =>
      have parts := List.nodup_cons.mp distinct
      simp only [List.map_cons, scan, List.forall_mem_cons]
      by_cases member : id ∈ waiting
      · simp only [member, ↓reduceIte, true_and]
        rw [ih parts.2]
        refine forall₂_congr fun other belongs => ?_
        have different : other ≠ id := fun same => parts.1 (same ▸ belongs)
        simp [different]
      · simp [member]

end CallChain
