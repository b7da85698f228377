import ClineProxy.TextScan

/-! Where a word occurs in a text after replacements, splitting, joining and truncation. -/

namespace Text

variable {marker word pattern text before after : List Char}

/-- Neither of the two occurs in the other, and none begins as the other ends. -/
structure Apart (marker word : List Char) : Prop where
  within : ¬ word <:+: marker
  around : ¬ marker <:+: word
  begins : ∀ shared, shared ≠ [] → shared <:+ marker → ¬ shared <+: word
  ends : ∀ shared, shared ≠ [] → shared <+: marker → ¬ shared <:+ word

theorem apart_of_disjoint (some_ : word ≠ []) (marked : marker ≠ [])
    (disjoint : ∀ character ∈ word, character ∉ marker) : Apart marker word := by
  have none_ {shared : List Char} (inWord : shared <:+: word) (inMarker : shared <:+: marker) :
      shared = [] := by
    refine List.eq_nil_iff_forall_not_mem.mpr fun character member => ?_
    exact disjoint character (inWord.subset member) (inMarker.subset member)
  exact {
    within := fun occurs => some_ (none_ List.infix_rfl occurs)
    around := fun occurs => marked (none_ occurs List.infix_rfl)
    begins := fun _ held ends begins => held (none_ begins.isInfix ends.isInfix)
    ends := fun _ held begins ends => held (none_ ends.isInfix begins.isInfix) }

namespace Apart

theorem ne_nil (apart : Apart marker word) : word ≠ [] := by
  rintro rfl
  exact apart.within (List.nil_infix ..)

theorem not_prefix (apart : Apart marker word) {tail : List Char} (ends : tail <:+ word)
    (some_ : tail ≠ []) : ¬ tail <+: marker ++ after := by
  intro starts
  rcases List.prefix_or_prefix_of_prefix starts (List.prefix_append marker after) with short | long
  · exact apart.ends tail some_ short ends
  · exact apart.around (long.isInfix.trans ends.isInfix)

theorem infix_append (apart : Apart marker word) (occurs : word <:+: before ++ (marker ++ after)) :
    word <:+: before ∨ word <:+: after := by
  rcases List.infix_append_iff_ne_nil.mp occurs with left | right | ⟨first, last, -, some_, parts,
    -, starts⟩
  · exact .inl left
  · rcases List.infix_append_iff_ne_nil.mp right with inside | behind | ⟨first, last, some_, -,
      parts, ends, -⟩
    · exact absurd inside apart.within
    · exact .inr behind
    · exact absurd ⟨last, parts.symm⟩ (apart.begins first some_ ends)
  · exact absurd starts (apart.not_prefix ⟨first, parts.symm⟩ some_)

theorem prefix_replaceFrom (apart : Apart marker word) {tail : List Char} (ends : tail <:+ word)
    (starts : tail <+: replaceFrom pattern marker 0 text) : tail <+: text := by
  induction text generalizing tail with
  | nil => simpa [replaceFrom] using starts
  | cons character rest ih =>
      by_cases empty : tail = []
      · rw [empty]
        exact List.nil_prefix
      rw [replaceFrom] at starts
      split at starts
      next => exact absurd starts (apart.not_prefix ends empty)
      next =>
        obtain ⟨first, others, rfl⟩ := List.exists_cons_of_ne_nil empty
        rw [List.cons_prefix_cons] at starts ⊢
        exact ⟨starts.1, ih ((List.suffix_cons ..).trans ends) starts.2⟩

theorem infix_replaceFrom (apart : Apart marker word) {skip : Nat}
    (occurs : word <:+: replaceFrom pattern marker skip text) : word <:+: text := by
  induction text generalizing skip with
  | nil => cases skip <;> simpa [replaceFrom] using occurs
  | cons character rest ih =>
      cases skip with
      | succ skip => exact (ih occurs).trans (List.suffix_cons ..).isInfix
      | zero =>
          have whole := occurs
          rw [replaceFrom] at occurs
          split at occurs
          next =>
            rcases @infix_append _ _ [] _ apart occurs with nothing | behind
            · exact absurd (List.infix_nil.mp nothing) apart.ne_nil
            · exact (ih behind).trans (List.suffix_cons ..).isInfix
          next kept =>
            rcases List.infix_cons_iff.mp occurs with here | behind
            · have starts : word <+: replaceFrom pattern marker 0 (character :: rest) := by
                rw [replaceFrom, if_neg kept]
                exact here
              exact (apart.prefix_replaceFrom List.suffix_rfl starts).isInfix
            · exact (ih behind).trans (List.suffix_cons ..).isInfix

/-- What was replaced by the marker is there no more. -/
theorem not_infix_replaceFrom (apart : Apart marker word) (skip : Nat) (text : List Char) :
    ¬ word <:+: replaceFrom word marker skip text := by
  induction text generalizing skip with
  | nil =>
      intro occurs
      cases skip <;> exact absurd (List.infix_nil.mp occurs) apart.ne_nil
  | cons character rest ih =>
      intro occurs
      cases skip with
      | succ skip => exact ih skip occurs
      | zero =>
          rw [replaceFrom] at occurs
          split at occurs
          next =>
            rcases @infix_append _ _ [] _ apart occurs with nothing | behind
            · exact absurd (List.infix_nil.mp nothing) apart.ne_nil
            · exact ih _ behind
          next kept =>
            rcases List.infix_cons_iff.mp occurs with here | behind
            · have starts : word <+: replaceFrom word marker 0 (character :: rest) := by
                rw [replaceFrom, if_neg kept]
                exact here
              exact kept (startsWith_iff_extends.mpr
                (apart.prefix_replaceFrom List.suffix_rfl starts))
            · exact ih 0 behind

theorem replace_absent (apart : Apart marker word) (text : List Char) :
    ¬ word <:+: replace word marker text :=
  apart.not_infix_replaceFrom 0 text

theorem replace_other (apart : Apart marker word) (occurs : word <:+: replace pattern marker text) :
    word <:+: text :=
  apart.infix_replaceFrom occurs

end Apart

theorem infix_splitWhitespaceFrom {read : List Char}
    (member : word ∈ splitWhitespaceFrom read text) : word <:+: read.reverse ++ text := by
  induction text generalizing read with
  | nil =>
      rw [splitWhitespaceFrom] at member
      split at member
      next => cases member
      next =>
        exact ⟨[], [], by simp [List.mem_singleton.mp member]⟩
  | cons character rest ih =>
      have behind {found : List Char} (occurs : found <:+: rest) :
          found <:+: read.reverse ++ character :: rest :=
        occurs.trans ((List.suffix_cons ..).trans (List.suffix_append ..)).isInfix
      rw [splitWhitespaceFrom] at member
      split at member
      next =>
        split at member
        next => exact behind (ih member)
        next =>
          rcases List.mem_cons.mp member with rfl | later
          · exact (List.prefix_append ..).isInfix
          · exact behind (ih later)
      next => simpa using ih member

theorem infix_splitWhitespace (member : word ∈ splitWhitespace text) : word <:+: text :=
  infix_splitWhitespaceFrom member

theorem join_cons_cons (separator first second : List Char) (rest : List (List Char)) :
    join separator (first :: second :: rest) =
      first ++ (separator ++ join separator (second :: rest)) := by
  simp [join, List.intercalate]

theorem infix_join {separator : Char} {pieces : List (List Char)} (some_ : word ≠ [])
    (unparted : separator ∉ word) (occurs : word <:+: join [separator] pieces) :
    ∃ piece ∈ pieces, word <:+: piece := by
  have apart : Apart [separator] word := by
    refine apart_of_disjoint some_ (by simp) fun character member same => ?_
    exact unparted (List.mem_singleton.mp same ▸ member)
  induction pieces with
  | nil => exact absurd (List.infix_nil.mp occurs) some_
  | cons first rest ih =>
      cases rest with
      | nil => exact ⟨first, List.mem_cons_self .., by simpa [join, List.intercalate] using occurs⟩
      | cons second rest =>
          rw [join_cons_cons] at occurs
          rcases apart.infix_append occurs with here | later
          · exact ⟨first, List.mem_cons_self .., here⟩
          · obtain ⟨piece, member, found⟩ := ih later
            exact ⟨piece, List.mem_cons_of_mem _ member, found⟩

end Text
