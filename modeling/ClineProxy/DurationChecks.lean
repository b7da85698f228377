import ClineProxy.DurationScan

/-! The durations that a text spells: a list of components, read as far as it goes. -/

namespace ClineProxy

open Clock Text

/-- White space and commas, a number, white space, and a unit. -/
@[ext] structure DurationPart where
  gap : List Char
  digits : List Char
  spaces : List Char
  unit : DurationUnit
  gapped : ∀ character ∈ gap, isGapCharacter character = true
  numbered : digits ≠ []
  numeric : ∀ character ∈ digits, isAsciiDigit character = true
  spaced : ∀ character ∈ spaces, isAsciiWhitespace character = true

def DurationPart.text (part : DurationPart) : List Char :=
  part.gap ++ (part.digits ++ (part.spaces ++ part.unit.letters))

def DurationPart.millis (part : DurationPart) : Nat := digitsValue part.digits * part.unit.millis

def partsText (parts : List DurationPart) : List Char := parts.flatMap DurationPart.text

def partsMillis (parts : List DurationPart) : Nat := (parts.map DurationPart.millis).sum

@[simp] theorem partsText_cons (part : DurationPart) (parts : List DurationPart) :
    partsText (part :: parts) = part.text ++ partsText parts :=
  List.flatMap_cons

@[simp] theorem partsMillis_cons (part : DurationPart) (parts : List DurationPart) :
    partsMillis (part :: parts) = part.millis + partsMillis parts :=
  List.sum_cons

/-- The parts begin the text, and every other list of parts that does ends earlier. -/
structure LongestParts (text : List Char) (parts : List DurationPart) (rest : List Char) :
    Prop where
  whole : text = partsText parts ++ rest
  longest : ∀ others later, text = partsText others ++ later → others ≠ parts →
    (partsText others).length < (partsText parts).length

theorem LongestParts.unique {text rest later : List Char} {parts others : List DurationPart}
    (first : LongestParts text parts rest) (second : LongestParts text others later) :
    others = parts := by
  by_contra different
  have shorter := first.longest others later second.whole different
  have longer := second.longest parts rest first.whole (Ne.symm different)
  omega

theorem isGapCharacter_digit {character : Char} (digit : isAsciiDigit character = true) :
    isGapCharacter character = false := by
  cases gap : isGapCharacter character with
  | false => rfl
  | true =>
      simp only [isGapCharacter, isAsciiWhitespace, Bool.or_eq_true, beq_iff_eq] at gap
      rcases gap with ((((rfl | rfl) | rfl) | rfl) | rfl) | rfl <;> exact absurd digit (by decide)

theorem isAsciiDigit_whitespace {character : Char} (white : isAsciiWhitespace character = true) :
    isAsciiDigit character = false := by
  simp only [isAsciiWhitespace, Bool.or_eq_true, beq_iff_eq] at white
  rcases white with (((rfl | rfl) | rfl) | rfl) | rfl <;> decide

theorem letters_head (unit : DurationUnit) :
    ∃ first others, unit.letters = first :: others ∧ isAsciiDigit first = false ∧
      isAsciiWhitespace first = false := by
  cases unit <;> exact ⟨_, _, rfl, by decide, by decide⟩

theorem DurationPart.runs (part : DurationPart) (later : List Char) :
    PartRuns (part.text ++ later) part.gap
      (part.digits ++ (part.spaces ++ (part.unit.letters ++ later))) part.digits
      (part.spaces ++ (part.unit.letters ++ later)) part.spaces
      (part.unit.letters ++ later) := by
  obtain ⟨first, others, letters, notDigit, notWhite⟩ := letters_head part.unit
  refine ⟨⟨?_, part.gapped, ?_⟩, ⟨rfl, part.numeric, ?_⟩, ⟨rfl, part.spaced, ?_⟩⟩
  · simp only [DurationPart.text, List.append_assoc]
  · obtain ⟨digit, more, digits⟩ := List.exists_cons_of_ne_nil part.numbered
    rw [digits]
    rintro character ⟨⟩
    exact isGapCharacter_digit (part.numeric digit (digits ▸ List.mem_cons_self ..))
  · cases spaces : part.spaces with
    | nil =>
        rw [letters]
        rintro character ⟨⟩
        exact notDigit
    | cons space more =>
        rintro character ⟨⟩
        exact isAsciiDigit_whitespace (part.spaced space (spaces ▸ List.mem_cons_self ..))
  · rw [letters]
    rintro character ⟨⟩
    exact notWhite

variable {rest gap start digits after spaces unitText : List Char}

theorem PartRuns.of_part (runs : PartRuns rest gap start digits after spaces unitText)
    {part : DurationPart} {later : List Char} (whole : rest = part.text ++ later) :
    gap = part.gap ∧ digits = part.digits ∧ spaces = part.spaces ∧
      unitText = part.unit.letters ++ later := by
  have own := part.runs later
  rw [← whole] at own
  have start_ := runs.gap.dropWhile_eq.symm.trans own.gap.dropWhile_eq
  have numbered := runs.digits
  rw [start_] at numbered
  have after_ := numbered.dropWhile_eq.symm.trans own.digits.dropWhile_eq
  have spaced := runs.spaces
  rw [after_] at spaced
  exact ⟨runs.gap.takeWhile_eq.symm.trans own.gap.takeWhile_eq,
    numbered.takeWhile_eq.symm.trans own.digits.takeWhile_eq,
    spaced.takeWhile_eq.symm.trans own.spaces.takeWhile_eq,
    spaced.dropWhile_eq.symm.trans own.spaces.dropWhile_eq⟩

theorem letters_append {unit other : DurationUnit} {rest later : List Char}
    (same : unit.letters ++ rest = other.letters ++ later) :
    (unit = other ∧ rest = later) ∨
      (unit = .minute ∧ other = .millisecond ∧ rest = 's' :: later) ∨
      (unit = .millisecond ∧ other = .minute ∧ later = 's' :: rest) := by
  cases unit <;> cases other <;> simp_all [DurationUnit.letters]

theorem unitOf_letters {unit : DurationUnit} {later : List Char}
    (plain : unit = .minute → ∀ more, later ≠ 's' :: more) :
    unitOf (unit.letters ++ later) = some (unit.millis, unit.letters.length) := by
  cases unit with
  | minute =>
      have alone : startsWith "ms".toList ('m' :: later) = false := by
        refine Bool.eq_false_iff.mpr fun starts => ?_
        obtain ⟨more, same⟩ := startsWith_iff_extends.mp starts
        exact plain rfl more (List.cons_eq_cons.mp same).2.symm
      rw [unitOf_eq, show DurationUnit.minute.letters ++ later = 'm' :: later from rfl, alone]
      rfl
  | millisecond => rfl
  | day => rfl
  | hour => rfl
  | second => rfl

theorem unitOf_letters_ne_none (unit : DurationUnit) (later : List Char) :
    unitOf (unit.letters ++ later) ≠ none := by
  by_cases plain : unit = .minute → ∀ more, later ≠ 's' :: more
  · rw [unitOf_letters plain]
    exact Option.some_ne_none _
  · simp only [Classical.not_imp, not_forall, not_not] at plain
    obtain ⟨rfl, more, rfl⟩ := plain
    exact Option.some_ne_none _

/-- Every run of digits fits the number that is read. -/
def DigitsFit (text : List Char) : Prop :=
  ∀ digits, digits <:+: text → (∀ character ∈ digits, isAsciiDigit character = true) →
    digitsValue digits < u128Bound

theorem longestParts_nil {text : List Char}
    (none_ : ∀ part : DurationPart, ∀ later, text ≠ part.text ++ later) :
    LongestParts text [] text := by
  refine ⟨rfl, fun others later whole different => ?_⟩
  cases others with
  | nil => exact absurd rfl different
  | cons part parts =>
      rw [partsText_cons, List.append_assoc] at whole
      exact absurd whole (none_ part _)

theorem DurationPart.text_length (part : DurationPart) :
    part.text.length =
      part.gap.length + part.digits.length + part.spaces.length + part.unit.letters.length := by
  simp only [DurationPart.text, List.length_append]
  omega

theorem DurationPart.text_ne (part : DurationPart) (later more : List Char) :
    part.text ++ later ≠ 's' :: more := by
  rw [DurationPart.text, List.append_assoc]
  intro same
  cases gap : part.gap with
  | cons character others =>
      rw [gap] at same
      have first : character = 's' := (List.cons_eq_cons.mp same).1
      have blank := part.gapped character (gap ▸ List.mem_cons_self ..)
      rw [first] at blank
      exact absurd blank (by decide)
  | nil =>
      obtain ⟨digit, others, digits⟩ := List.exists_cons_of_ne_nil part.numbered
      rw [gap, digits] at same
      have first : digit = 's' := (List.cons_eq_cons.mp same).1
      have numeric := part.numeric digit (digits ▸ List.mem_cons_self ..)
      rw [first] at numeric
      exact absurd numeric (by decide)

theorem longestParts_cons {part : DurationPart} {parts : List DurationPart}
    {later rest : List Char} (plain : part.unit = .minute → ∀ more, later ≠ 's' :: more)
    (longest : LongestParts later parts rest) :
    LongestParts (part.text ++ later) (part :: parts) rest := by
  refine ⟨?_, fun others more whole different => ?_⟩
  · rw [partsText_cons, List.append_assoc, ← longest.whole]
  · cases others with
    | nil =>
        obtain ⟨digit, digits, numbered⟩ := List.exists_cons_of_ne_nil part.numbered
        have length := part.text_length
        rw [numbered, List.length_cons] at length
        rw [partsText_cons, List.length_append]
        change 0 < _
        omega
    | cons first others =>
        rw [partsText_cons, List.append_assoc] at whole
        obtain ⟨gap, digits, spaces, units⟩ := (part.runs later).of_part whole
        rw [partsText_cons, partsText_cons, List.length_append, List.length_append,
          part.text_length, first.text_length, gap, digits, spaces]
        obtain ⟨unit, tail⟩ | ⟨minute, -, follows⟩ | ⟨longer, shorter, follows⟩ :=
          letters_append units
        · have same : first = part := DurationPart.ext gap.symm digits.symm spaces.symm unit.symm
          have changed : others ≠ parts := fun kept => different (by rw [same, kept])
          have ended := longest.longest others more tail changed
          rw [unit]
          omega
        · exact absurd follows (plain minute _)
        · -- the other list stops at an `m` that an `s` follows
          cases others with
          | nil =>
              rw [longer, shorter]
              change _ + 1 + 0 < _ + 2 + _
              omega
          | cons next others =>
              rw [partsText_cons, List.append_assoc] at follows
              exact absurd follows (next.text_ne _ _)

/-- What the loop gives, from `totalMs` on, when these are the parts it can read. -/
def SumsParts (text : List Char) (parts : List DurationPart) : Prop :=
  ∀ fuel totalMs components, text.length < fuel → totalMs < u128Bound →
    parseComponents fuel text totalMs components =
      if totalMs + partsMillis parts < u128Bound then
        some (totalMs + partsMillis parts, components + parts.length)
      else none

theorem turnAfter_resume {Result : Type} (unitStart totalMs number unitMs unitLen : Nat)
    (done overflow : Result) (next : Nat → Nat → Result) :
    (turnAfter unitStart totalMs (some number) (some (unitMs, unitLen))).resume done overflow next =
      if totalMs + number * unitMs < u128Bound then
        next (unitStart + unitLen) (totalMs + number * unitMs)
      else overflow := by
  by_cases fits : totalMs + number * unitMs < u128Bound
  · have alone : number * unitMs < u128Bound := by omega
    simp [turnAfter, fits, alone, ScanTurn.resume]
  · simp [turnAfter, fits, ScanTurn.resume]

theorem sumsParts_cons {part : DurationPart} {parts : List DurationPart} {later : List Char}
    (plain : part.unit = .minute → ∀ more, later ≠ 's' :: more)
    (fits : digitsValue part.digits < u128Bound) (sums : SumsParts later parts) :
    SumsParts (part.text ++ later) (part :: parts) := by
  intro fuel totalMs components enough small
  obtain ⟨fuel, rfl⟩ : ∃ less, fuel = less + 1 := ⟨fuel - 1, by omega⟩
  have numbered : part.digits.isEmpty = false := by
    rw [Bool.eq_false_iff, ne_eq, List.isEmpty_iff]
    exact part.numbered
  rw [parseComponents_eq (part.runs later), numbered, unitOf_letters plain,
    parseUnsigned_digits part.numbered part.numeric, if_pos fits, turnAfter_resume,
    Nat.zero_add, List.drop_left, partsMillis_cons, List.length_cons,
    show digitsValue part.digits * part.unit.millis = part.millis from rfl]
  simp only [Bool.false_eq_true, ↓reduceIte]
  have length := part.text_length
  obtain ⟨digit, digits, some_⟩ := List.exists_cons_of_ne_nil part.numbered
  rw [some_, List.length_cons] at length
  rw [List.length_append] at enough
  by_cases grows : totalMs + part.millis < u128Bound
  · rw [if_pos grows, sums fuel _ _ (by omega) grows, Nat.add_assoc, Nat.add_assoc,
      Nat.add_comm 1]
  · rw [if_neg grows, if_neg (by omega)]

theorem digitsFit_short {text : List Char} (short : text.length ≤ 38) : DigitsFit text := by
  intro digits inside numeric
  have below := digitsValue_lt numeric
  have scaled : 10 ^ digits.length ≤ 10 ^ 38 :=
    Nat.pow_le_pow_right (by decide) (inside.length_le.trans short)
  exact Nat.lt_of_lt_of_le below (scaled.trans (by decide))

theorem DigitsFit.later {text before after : List Char} (fits : DigitsFit text)
    (whole : text = before ++ after) : DigitsFit after := by
  intro digits inside numeric
  refine fits digits (inside.trans ?_) numeric
  rw [whole]
  exact (List.suffix_append before after).isInfix

theorem longestParts_exist {text : List Char} (fits : DigitsFit text) :
    ∃ parts rest, LongestParts text parts rest ∧ SumsParts text parts := by
  induction size : text.length using Nat.strong_induction_on generalizing text with
  | _ size_ ih =>
      subst size
      obtain ⟨gap, start, digits, after, spaces, unitText, runs⟩ := partRuns_exist text
      by_cases numbered : digits = []
      · refine ⟨[], text, longestParts_nil fun part later whole => ?_, ?_⟩
        · exact part.numbered ((runs.of_part whole).2.1.symm.trans numbered)
        · intro fuel totalMs components enough small
          obtain ⟨fuel, rfl⟩ : ∃ less, fuel = less + 1 := ⟨fuel - 1, by omega⟩
          rw [parseComponents_eq runs, numbered]
          exact (if_pos small).symm
      · cases found : unitOf unitText with
        | none =>
            refine ⟨[], text, longestParts_nil fun part later whole => ?_, ?_⟩
            · rw [(runs.of_part whole).2.2.2] at found
              exact unitOf_letters_ne_none _ _ found
            · intro fuel totalMs components enough small
              obtain ⟨fuel, rfl⟩ : ∃ less, fuel = less + 1 := ⟨fuel - 1, by omega⟩
              have read : digitsValue digits < u128Bound := by
                refine fits digits ?_ runs.digits.within
                rw [runs.whole]
                exact ⟨gap, spaces ++ unitText, by rw [List.append_assoc]⟩
              rw [parseComponents_eq runs, found, parseUnsigned_digits numbered runs.digits.within,
                if_pos read]
              simp [numbered, turnAfter, ScanTurn.resume, partsMillis, small]
        | some pair =>
            obtain ⟨unit, later, tail, -, -, plain⟩ := unitOf_eq_some found
            have shorter := (runs.later_shorter tail).2
            obtain ⟨part, whole, number, same⟩ : ∃ part : DurationPart,
                text = part.text ++ later ∧ part.digits = digits ∧ part.unit = unit := by
              refine ⟨⟨gap, digits, spaces, unit, runs.gap.within, numbered, runs.digits.within,
                runs.spaces.within⟩, runs.whole.trans ?_, rfl, rfl⟩
              simp only [tail, DurationPart.text, List.append_assoc]
            subst same
            obtain ⟨parts, rest, longest, sums⟩ := ih later.length shorter (fits.later whole) rfl
            have read : digitsValue part.digits < u128Bound := by
              refine fits part.digits ?_ part.numeric
              rw [whole, DurationPart.text, List.append_assoc, List.append_assoc]
              exact ⟨part.gap, part.spaces ++ part.unit.letters ++ later, by
                simp only [List.append_assoc]⟩
            rw [whole]
            exact ⟨part :: parts, rest, longestParts_cons plain longest,
              sumsParts_cons plain read sums⟩

/-- The text spells this duration, within the cap. -/
def SpellsDuration (text : List Char) (duration : Duration) : Prop :=
  ¬ ['-'] <+: text ∧ ∃ parts rest, LongestParts text parts rest ∧ parts ≠ [] ∧
    duration = fromMillis (partsMillis parts) ∧ duration ≤ maxParsedCooldown

theorem capped_small {totalMs : Nat} (capped : fromMillis totalMs ≤ maxParsedCooldown) :
    totalMs < u64Bound := by
  have nanos : totalMs * 1000000 ≤ 366 * 24 * 60 * 60 * 1000000000 := capped
  rw [u64Bound]
  omega

theorem cappedMillis_eq_some {totalMs components : Nat} {duration : Duration} :
    cappedMillis (some (totalMs, components)) = some duration ↔
      components ≠ 0 ∧ duration = fromMillis totalMs ∧ duration ≤ maxParsedCooldown := by
  rw [cappedMillis]
  constructor
  · intro read
    split at read
    next => cases read
    next some_ =>
      split at read
      next =>
        rw [durationWithCap] at read
        split at read
        next capped =>
          cases read
          exact ⟨some_, rfl, capped⟩
        next => cases read
      next => cases read
  · rintro ⟨some_, rfl, capped⟩
    rw [if_neg some_, if_pos (capped_small capped), durationWithCap, if_pos capped]

theorem cappedMillis_parts {parts : List DurationPart} {duration : Duration} :
    cappedMillis (if 0 + partsMillis parts < u128Bound then
        some (0 + partsMillis parts, 0 + parts.length) else none) = some duration ↔
      parts ≠ [] ∧ duration = fromMillis (partsMillis parts) ∧ duration ≤ maxParsedCooldown := by
  rw [Nat.zero_add, Nat.zero_add]
  split
  next =>
    rw [cappedMillis_eq_some, ne_eq, List.length_eq_zero_iff]
  next large =>
    refine iff_of_false nofun ?_
    rintro ⟨-, rfl, capped⟩
    have small := capped_small capped
    simp only [u64Bound, u128Bound] at small large
    omega

theorem parseRetryDuration_eq_some {input : String} (fits : DigitsFit (durationText input))
    (duration : Duration) :
    parseRetryDuration input = some duration ↔ SpellsDuration (durationText input) duration := by
  rw [parseRetryDuration_eq, SpellsDuration]
  split
  next negative =>
    refine iff_of_false nofun ?_
    rintro ⟨positive, -⟩
    exact positive (startsWith_iff_extends.mp negative)
  next positive =>
    obtain ⟨parts, rest, longest, sums⟩ := longestParts_exist fits
    rw [sums _ 0 0 (Nat.lt_succ_self _) (by decide), cappedMillis_parts]
    constructor
    · intro reads
      exact ⟨fun negative => positive (startsWith_iff_extends.mpr negative), parts, rest, longest,
        reads⟩
    · rintro ⟨-, others, later, another, reads⟩
      rwa [← longest.unique another]

theorem DigitsFit.lower {text : List Char} (fits : DigitsFit text) :
    DigitsFit (toAsciiLowercase text) := by
  intro digits inside numeric
  obtain ⟨raw, within, rfl⟩ := List.infix_map_iff.mp inside
  have kept : raw.map toAsciiLower = raw := by
    refine (List.map_congr_left ?_).trans (List.map_id raw)
    intro character member
    have digit := numeric _ (List.mem_map_of_mem member)
    rcases toAsciiLower_cases character with ⟨same, -⟩ | ⟨low, -, moved⟩
    · exact same
    · simp only [isAsciiDigit, Bool.and_eq_true, decide_eq_true_eq] at digit
      have high : (toAsciiLower character).toNat ≤ 57 := digit.2
      omega
  rw [kept] at numeric ⊢
  exact fits raw within numeric

theorem afterMarker_suffix (text : List Char) (markers : List String) :
    afterMarker text markers <:+ text := by
  induction markers with
  | nil => exact List.suffix_rfl
  | cons marker rest ih =>
      rw [afterMarker]
      split
      next => exact List.drop_suffix _ _
      next => exact ih

theorem DigitsFit.durationText {input : String} (fits : DigitsFit input.toList) :
    DigitsFit (durationText input) := by
  obtain ⟨before, whole⟩ := (List.dropWhile_suffix isWhitespace).trans
    (afterMarker_suffix (toAsciiLowercase input.toList) durationMarkers)
  exact fits.lower.later whole.symm

theorem partsText_mem {parts : List DurationPart} {character : Char}
    (member : character ∈ partsText parts) :
    isGapCharacter character = true ∨ isAsciiDigit character = true ∨
      character ∈ ['m', 's', 'd', 'h'] := by
  obtain ⟨part, -, inside⟩ := List.mem_flatMap.mp member
  simp only [DurationPart.text, List.mem_append] at inside
  rcases inside with gap | digit | space | letter
  · exact .inl (part.gapped character gap)
  · exact .inr (.inl (part.numeric character digit))
  · refine .inl ?_
    rw [isGapCharacter, part.spaced character space, Bool.true_or]
  · have all : ∀ unit : DurationUnit, unit.letters ⊆ ['m', 's', 'd', 'h'] := by
      intro unit
      cases unit <;> decide
    exact .inr (.inr (all part.unit letter))

theorem partsText_letter {parts : List DurationPart} {character : Char}
    (member : character ∈ partsText parts) :
    character ≠ 'g' ∧ character ≠ 'f' ∧ character ≠ '-' ∧ toAsciiLower character = character := by
  rcases partsText_mem member with gap | digit | letter
  · simp only [isGapCharacter, isAsciiWhitespace, Bool.or_eq_true, beq_iff_eq] at gap
    rcases gap with ((((rfl | rfl) | rfl) | rfl) | rfl) | rfl <;> decide
  · simp only [isAsciiDigit, Bool.and_eq_true, decide_eq_true_eq] at digit
    have low : 48 ≤ character.toNat := digit.1
    have high : character.toNat ≤ 57 := digit.2
    refine ⟨?_, ?_, ?_, ?_⟩
    · rintro rfl
      exact absurd high (by decide)
    · rintro rfl
      exact absurd high (by decide)
    · rintro rfl
      exact absurd low (by decide)
    · rcases toAsciiLower_cases character with ⟨same, -⟩ | ⟨capital, -, -⟩
      · exact same
      · omega
  · simp only [List.mem_cons, List.not_mem_nil, or_false] at letter
    rcases letter with rfl | rfl | rfl | rfl <;> decide

theorem find_absent {pattern text : List Char} {letter : Char} (needed : letter ∈ pattern)
    (missing : letter ∉ text) : find pattern text = none :=
  find_eq_none_iff.mpr fun inside => missing (inside.subset needed)

theorem find_start (pattern rest : List Char) : find pattern (pattern ++ rest) = some 0 := by
  obtain ⟨position, found, early⟩ := find_least [] pattern rest
  rw [List.nil_append] at found
  rw [found, Nat.le_zero.mp early]

theorem afterMarker_rendering {marker : String} (known : marker ∈ durationMarkers)
    (parts : List DurationPart) :
    afterMarker (marker.toList ++ partsText parts) durationMarkers = partsText parts := by
  have missing {letter : Char} (unmarked : letter ∉ marker.toList)
      (unlettered : ∀ character ∈ partsText parts, character ≠ letter) :
      letter ∉ marker.toList ++ partsText parts := by
    rw [List.mem_append]
    rintro (inMarker | inParts)
    · exact unmarked inMarker
    · exact unlettered letter inParts rfl
  have begins := find_start marker.toList (partsText parts)
  have dropped : (marker.toList ++ partsText parts).drop (0 + marker.length) = partsText parts := by
    rw [Nat.zero_add, ← String.length_toList, List.drop_left]
  simp only [durationMarkers, List.mem_cons, List.not_mem_nil, or_false] at known
  simp only [durationMarkers, afterMarker]
  rcases known with rfl | rfl | rfl
  · simp only [begins, dropped]
  · have again : find "try again in".toList ("retry after".toList ++ partsText parts) = none :=
      @find_absent _ _ 'g' (by decide) (missing (by decide) fun character member =>
        (partsText_letter member).1)
    simp only [again, begins, dropped]
  · have again : find "try again in".toList ("retry in".toList ++ partsText parts) = none :=
      @find_absent _ _ 'g' (by decide) (missing (by decide) fun character member =>
        (partsText_letter member).1)
    have after : find "retry after".toList ("retry in".toList ++ partsText parts) = none :=
      @find_absent _ _ 'f' (by decide) (missing (by decide) fun character member =>
        (partsText_letter member).2.1)
    simp only [again, after, begins, dropped]

theorem isWhitespace_digit {character : Char} (digit : isAsciiDigit character = true) :
    isWhitespace character = false := by
  simp only [isAsciiDigit, Bool.and_eq_true, decide_eq_true_eq] at digit
  have low : 48 ≤ character.toNat := digit.1
  have high : character.toNat ≤ 57 := digit.2
  simp only [isWhitespace, Bool.or_eq_false_iff, Bool.and_eq_false_iff, decide_eq_false_iff_not,
    beq_eq_false_iff_ne]
  omega

theorem trimStart_rendering (part : DurationPart) (parts : List DurationPart) :
    ∃ trimmed : DurationPart, trimStart (partsText (part :: parts)) =
      partsText (trimmed :: parts) ∧ trimmed.millis = part.millis := by
  have stops : (part.digits ++ (part.spaces ++ part.unit.letters) ++ partsText parts).dropWhile
      isWhitespace = part.digits ++ (part.spaces ++ part.unit.letters) ++ partsText parts := by
    obtain ⟨digit, digits, numbered⟩ := List.exists_cons_of_ne_nil part.numbered
    have numeric := part.numeric digit (numbered ▸ List.mem_cons_self ..)
    have solid := isWhitespace_digit numeric
    rw [numbered, List.cons_append, List.cons_append, List.dropWhile_cons_of_neg]
    rw [solid]
    exact Bool.false_ne_true
  refine ⟨⟨part.gap.dropWhile isWhitespace, part.digits, part.spaces, part.unit,
    fun character member => part.gapped character
      ((List.dropWhile_suffix isWhitespace).subset member),
    part.numbered, part.numeric, part.spaced⟩, ?_, rfl⟩
  rw [partsText_cons, partsText_cons, trimStart, trimStartMatches, DurationPart.text,
    List.append_assoc, List.dropWhile_append]
  split
  next all =>
    rw [stops]
    simp only [DurationPart.text, List.isEmpty_iff.mp all, List.nil_append]
  next => simp only [DurationPart.text, List.append_assoc]

theorem sumsParts_rendering {parts : List DurationPart}
    (small : partsMillis parts < u128Bound) : SumsParts (partsText parts) parts := by
  induction parts with
  | nil =>
      intro fuel totalMs components enough fits
      obtain ⟨fuel, rfl⟩ : ∃ less, fuel = less + 1 := ⟨fuel - 1, by omega⟩
      exact (if_pos fits).symm
  | cons part parts ih =>
      rw [partsMillis_cons] at small
      rw [partsText_cons]
      refine sumsParts_cons ?_ ?_ (ih (by omega))
      · rintro - more follows
        cases parts with
        | nil => cases follows
        | cons next parts =>
            rw [partsText_cons] at follows
            exact next.text_ne _ _ follows
      · have scaled : digitsValue part.digits * 1 ≤ part.millis :=
          Nat.mul_le_mul_left _ (by cases part.unit <;> decide)
        omega

theorem parseRetryDuration_rendering {marker : String} (known : marker ∈ durationMarkers)
    {parts : List DurationPart} (some_ : parts ≠ [])
    (capped : fromMillis (partsMillis parts) ≤ maxParsedCooldown) :
    parseRetryDuration (marker ++ String.ofList (partsText parts)) =
      some (fromMillis (partsMillis parts)) := by
  obtain ⟨part, parts, rfl⟩ := List.exists_cons_of_ne_nil some_
  have lower : toAsciiLowercase (marker ++ String.ofList (partsText (part :: parts))).toList =
      marker.toList ++ partsText (part :: parts) := by
    rw [String.toList_append, String.toList_ofList, toAsciiLowercase, List.map_append]
    congr 1
    · simp only [durationMarkers, List.mem_cons, List.not_mem_nil, or_false] at known
      rcases known with rfl | rfl | rfl <;> rfl
    · refine (List.map_congr_left fun character member => ?_).trans (List.map_id _)
      exact (partsText_letter member).2.2.2
  obtain ⟨trimmed, text, same⟩ := trimStart_rendering part parts
  have candidate : durationText (marker ++ String.ofList (partsText (part :: parts))) =
      partsText (trimmed :: parts) := by
    rw [durationText, lower, afterMarker_rendering known, text]
  have millis : partsMillis (trimmed :: parts) = partsMillis (part :: parts) := by
    rw [partsMillis_cons, partsMillis_cons, same]
  have positive : ¬ startsWith ['-'] (partsText (trimmed :: parts)) = true := by
    intro negative
    have member := (startsWith_iff_extends.mp negative).subset (List.mem_cons_self ..)
    exact (partsText_letter member).2.2.1 rfl
  have small := capped_small capped
  have sums : SumsParts (partsText (trimmed :: parts)) (trimmed :: parts) := by
    refine sumsParts_rendering ?_
    simp only [u64Bound] at small
    rw [millis, u128Bound]
    omega
  rw [parseRetryDuration_eq, candidate, if_neg positive,
    sums _ 0 0 (Nat.lt_succ_self _) (by decide), cappedMillis_parts, millis]
  exact ⟨List.cons_ne_nil _ _, rfl, capped⟩

theorem retry_duration (input : String) :
    scanRetryDuration input = some (.ok (parseRetryDuration input)) ∧
    (DigitsFit input.toList → ∀ duration,
      parseRetryDuration input = some duration ↔
        SpellsDuration (durationText input) duration) ∧
    ∀ marker ∈ durationMarkers, ∀ parts ≠ [],
      fromMillis (partsMillis parts) ≤ maxParsedCooldown →
      parseRetryDuration (marker ++ String.ofList (partsText parts)) =
        some (fromMillis (partsMillis parts)) :=
  ⟨scanRetryDuration_eq input, fun fits => parseRetryDuration_eq_some fits.durationText,
    fun _ known _ some_ capped => parseRetryDuration_rendering known some_ capped⟩

def fiveSeconds : DurationPart :=
  ⟨[' '], ['5'], [], .second, List.forall_mem_singleton.mpr rfl, List.cons_ne_nil _ _,
    List.forall_mem_singleton.mpr rfl, List.forall_mem_nil _⟩

theorem retry_duration_seconds :
    (∀ duration, parseRetryDuration "Retry in 5s" = some duration ↔
      SpellsDuration (durationText "Retry in 5s") duration) ∧
    parseRetryDuration ("retry in" ++ String.ofList (partsText [fiveSeconds])) =
      some (fromMillis (partsMillis [fiveSeconds])) :=
  ⟨(retry_duration "Retry in 5s").2.1 (digitsFit_short (by decide)),
    (retry_duration "Retry in 5s").2.2 "retry in" (by decide) [fiveSeconds]
      (List.cons_ne_nil _ _) (by decide)⟩

end ClineProxy
