import ClineProxy.Protocol
import ClineProxy.RateLimit
import ClineProxy.TextBytes
import ClineProxy.TextScan

/-!
`parse_retry_duration` as the code runs it, over the bytes of the text and slices of it
at byte offsets, and that the reading by characters is the same function.
-/

namespace ClineProxy

open Clock Text

def isByteWhitespace (byte : UInt8) : Bool :=
  byte == 32 || byte == 9 || byte == 10 || byte == 13 || byte == 12

def isByteDigit (byte : UInt8) : Bool := 48 ≤ byte && byte ≤ 57

def isGapByte (byte : UInt8) : Bool := isByteWhitespace byte || byte == 44

/-- Slicing inside a character panics. -/
def slice (candidate : List Char) (start stop : Nat) : Fallible (List Char) :=
  match (sliceTo candidate stop).bind fun before => sliceFrom before start with
  | some piece => .ok piece
  | none => .error .panicked

def sliceTail (candidate : List Char) (start : Nat) : Fallible (List Char) :=
  match sliceFrom candidate start with
  | some tail => .ok tail
  | none => .error .panicked

def unitOfByte (byte : UInt8) : Option (Nat × Nat) :=
  if byte == 100 then some (86400000, 1)
  else if byte == 104 then some (3600000, 1)
  else if byte == 109 then some (60000, 1)
  else if byte == 115 then some (1000, 1)
  else none

def unitAt (tail : List Char) (byte : Option UInt8) : Option (Nat × Nat) :=
  if startsWith "ms".toList tail then some (1, 2) else byte.bind unitOfByte

inductive ScanTurn where
  | done
  | overflow
  | next (index totalMs : Nat)

def scanTurn (candidate : List Char) (bytes : List UInt8) (index totalMs : Nat) :
    Fallible ScanTurn :=
  let numberStart := skipBytes isGapByte bytes index
  if bytes[numberStart]?.any isByteDigit then
    let numberStop := skipBytes isByteDigit bytes numberStart
    match slice candidate numberStart numberStop with
    | .error abort => .error abort
    | .ok digits =>
        match parseUnsigned u128Bound digits with
        | none => .ok .overflow
        | some number =>
            let unitStart := skipBytes isByteWhitespace bytes numberStop
            match sliceTail candidate unitStart with
            | .error abort => .error abort
            | .ok tail =>
                match unitAt tail bytes[unitStart]? with
                | none => .ok .done
                | some (unitMs, unitLen) =>
                    if number * unitMs < u128Bound && totalMs + number * unitMs < u128Bound then
                      .ok (.next (unitStart + unitLen) (totalMs + number * unitMs))
                    else .ok .overflow
  else .ok .done

/-- `none` while the fuel does not reach the end of the loop. -/
def scanComponents (candidate : List Char) (bytes : List UInt8) :
    Nat → Nat → Nat → Nat → Option (Fallible (Option (Nat × Nat)))
  | 0, _, _, _ => none
  | fuel + 1, index, totalMs, components =>
      if index < bytes.length then
        match scanTurn candidate bytes index totalMs with
        | .error abort => some (.error abort)
        | .ok .done => some (.ok (some (totalMs, components)))
        | .ok .overflow => some (.ok none)
        | .ok (.next after total) =>
            scanComponents candidate bytes fuel after total (components + 1)
      else some (.ok (some (totalMs, components)))

def sliceMarker (lower : List Char) : List String → Fallible (List Char)
  | [] => .ok lower
  | marker :: rest =>
      match find marker.toList lower with
      | some position =>
          sliceTail lower (utf8Len (lower.take position) + utf8Len marker.toList)
      | none => sliceMarker lower rest

def cappedMillis (scanned : Option (Nat × Nat)) : Option Duration :=
  match scanned with
  | none => none
  | some (totalMs, components) =>
      if components = 0 then none
      else if totalMs < u64Bound then durationWithCap (fromMillis totalMs) else none

def durationMarkers : List String := ["try again in", "retry after", "retry in"]

def scanRetryDuration (input : String) : Option (Fallible (Option Duration)) :=
  match sliceMarker (toAsciiLowercase input.toList) durationMarkers with
  | .error abort => some (.error abort)
  | .ok text =>
      let candidate := trimStart text
      if startsWith ['-'] candidate then some (.ok none)
      else
        let bytes := utf8Bytes candidate
        (scanComponents candidate bytes (bytes.length + 1) 0 0 0).map fun scanned =>
          scanned.map cappedMillis

theorem readsAscii_digit : ReadsAscii isByteDigit isAsciiDigit where
  ascii := by decide
  wide := by
    intro character inside
    simp only [isAsciiDigit, Bool.and_eq_true, decide_eq_true_eq] at inside
    exact Nat.lt_of_le_of_lt (show character.toNat ≤ 57 from inside.2) (by decide)
  high := by
    intro byte inside
    simp only [isByteDigit, Bool.and_eq_true, decide_eq_true_eq] at inside
    exact Nat.lt_of_le_of_lt (show byte.toNat ≤ 57 from inside.2) (by decide)

theorem readsAscii_whitespace : ReadsAscii isByteWhitespace isAsciiWhitespace where
  ascii := by decide
  wide := by
    intro character inside
    simp only [isAsciiWhitespace, Bool.or_eq_true, beq_iff_eq] at inside
    rcases inside with (((rfl | rfl) | rfl) | rfl) | rfl <;> decide
  high := by
    intro byte inside
    simp only [isByteWhitespace, Bool.or_eq_true, beq_iff_eq] at inside
    rcases inside with (((rfl | rfl) | rfl) | rfl) | rfl <;> decide

def isGapCharacter (character : Char) : Bool := isAsciiWhitespace character || character == ','

theorem readsAscii_gap : ReadsAscii isGapByte isGapCharacter where
  ascii := by decide
  wide := by
    intro character inside
    rw [isGapCharacter, Bool.or_eq_true, beq_iff_eq] at inside
    rcases inside with white | rfl
    · exact readsAscii_whitespace.wide character white
    · decide
  high := by
    intro byte inside
    rw [isGapByte, Bool.or_eq_true, beq_iff_eq] at inside
    rcases inside with white | rfl
    · exact readsAscii_whitespace.high byte white
    · decide

theorem slice_boundary (before piece rest : List Char) :
    slice (before ++ (piece ++ rest)) (utf8Len before) (utf8Len (before ++ piece)) = .ok piece := by
  rw [slice, ← List.append_assoc, sliceTo_boundary, Option.bind_some, sliceFrom_boundary]

theorem sliceTail_boundary (before rest : List Char) :
    sliceTail (before ++ rest) (utf8Len before) = .ok rest := by
  rw [sliceTail, sliceFrom_boundary]

theorem byte_at (consumed rest : List Char) :
    (utf8Bytes (consumed ++ rest))[utf8Len consumed]? = (utf8Bytes rest).head? := by
  rw [← drop_utf8Bytes consumed rest, List.head?_drop]

def unitOfCharacter (character : Char) : Option (Nat × Nat) :=
  if character == 'd' then some (86400000, 1)
  else if character == 'h' then some (3600000, 1)
  else if character == 'm' then some (60000, 1)
  else if character == 's' then some (1000, 1)
  else none

theorem unitOf_eq (tail : List Char) :
    unitOf tail = if startsWith "ms".toList tail then some (1, 2)
      else tail.head?.bind unitOfCharacter := by
  rw [unitOf]
  split
  next => rfl
  next =>
    split
    next first => rw [first]; rfl
    next first => rw [first]; rfl
    next first => rw [first]; rfl
    next first => rw [first]; rfl
    next noDay noHour noMinute noSecond =>
      cases first : tail.head? with
      | none => rfl
      | some character =>
          rw [first] at noDay noHour noMinute noSecond
          have known : ∀ unit, some character ≠ some unit → (character == unit) = false :=
            fun unit other => beq_false_of_ne fun same => other (congrArg some same)
          simp only [Option.bind_some, unitOfCharacter, known 'd' noDay, known 'h' noHour,
            known 'm' noMinute, known 's' noSecond, Bool.false_eq_true, ↓reduceIte]

theorem unitOfByte_high {byte : UInt8} (high : 128 ≤ byte.toNat) : unitOfByte byte = none := by
  have other (unit : UInt8) (low : unit.toNat < 128) : (byte == unit) = false :=
    beq_false_of_ne fun same => by rw [same] at high; omega
  simp only [unitOfByte, other 100 (by decide), other 104 (by decide), other 109 (by decide),
    other 115 (by decide), Bool.false_eq_true, ↓reduceIte]

theorem unitOfCharacter_wide {character : Char} (wide : 128 ≤ character.toNat) :
    unitOfCharacter character = none := by
  have other (unit : Char) (low : unit.toNat < 128) : (character == unit) = false :=
    beq_false_of_ne fun same => by rw [same] at wide; omega
  simp only [unitOfCharacter, other 'd' (by decide), other 'h' (by decide), other 'm' (by decide),
    other 's' (by decide), Bool.false_eq_true, ↓reduceIte]

theorem unitOfByte_ascii :
    ∀ code < 128, unitOfByte (UInt8.ofNat code) = unitOfCharacter (Char.ofNat code) := by
  decide

theorem unitAt_eq (tail : List Char) : unitAt tail (utf8Bytes tail).head? = unitOf tail := by
  have same : (utf8Bytes tail).head?.bind unitOfByte = tail.head?.bind unitOfCharacter := by
    cases tail with
    | nil => rfl
    | cons character rest =>
        rw [utf8Bytes_cons]
        by_cases ascii : character.toNat < 128
        · have known := unitOfByte_ascii character.toNat ascii
          rw [Char.ofNat_toNat] at known
          rw [utf8Bytes_ascii ascii]
          exact known
        · obtain ⟨first, others, encoded, high⟩ := utf8Bytes_wide (Nat.not_lt.mp ascii)
          rw [encoded]
          exact (unitOfByte_high high).trans (unitOfCharacter_wide (Nat.not_lt.mp ascii)).symm
  rw [unitAt, unitOf_eq, same]

inductive DurationUnit where
  | millisecond
  | day
  | hour
  | minute
  | second
  deriving DecidableEq

def DurationUnit.letters : DurationUnit → List Char
  | millisecond => ['m', 's']
  | day => ['d']
  | hour => ['h']
  | minute => ['m']
  | second => ['s']

def DurationUnit.millis : DurationUnit → Nat
  | millisecond => 1
  | day => 86400000
  | hour => 3600000
  | minute => 60000
  | second => 1000

theorem utf8Len_letters (unit : DurationUnit) : utf8Len unit.letters = unit.letters.length := by
  cases unit <;> rfl

theorem unitOf_eq_some {tail : List Char} {unitMs unitLen : Nat}
    (found : unitOf tail = some (unitMs, unitLen)) :
    ∃ unit : DurationUnit, ∃ rest, tail = unit.letters ++ rest ∧ unit.millis = unitMs ∧
      unit.letters.length = unitLen ∧ (unit = .minute → ∀ later, rest ≠ 's' :: later) := by
  rw [unitOf] at found
  split at found
  next starts =>
    cases found
    obtain ⟨rest, rfl⟩ := startsWith_iff_extends.mp starts
    exact ⟨.millisecond, rest, rfl, rfl, rfl, nofun⟩
  next plain =>
    cases tail with
    | nil => cases found
    | cons character rest =>
        split at found
        next first =>
          cases first
          cases found
          exact ⟨.day, rest, rfl, rfl, rfl, nofun⟩
        next first =>
          cases first
          cases found
          exact ⟨.hour, rest, rfl, rfl, rfl, nofun⟩
        next first =>
          cases first
          cases found
          refine ⟨.minute, rest, rfl, rfl, rfl, ?_⟩
          rintro - later rfl
          exact plain (startsWith_iff_extends.mpr ⟨later, rfl⟩)
        next first =>
          cases first
          cases found
          exact ⟨.second, rest, rfl, rfl, rfl, nofun⟩
        next => cases found

def turnAfter (unitStart totalMs : Nat) (number : Option Nat) (unit : Option (Nat × Nat)) :
    ScanTurn :=
  match number with
  | none => .overflow
  | some number =>
      match unit with
      | none => .done
      | some (unitMs, unitLen) =>
          if number * unitMs < u128Bound && totalMs + number * unitMs < u128Bound then
            .next (unitStart + unitLen) (totalMs + number * unitMs)
          else .overflow

def ScanTurn.resume {Result : Type} (turn : ScanTurn) (done overflow : Result)
    (next : Nat → Nat → Result) : Result :=
  match turn with
  | .done => done
  | .overflow => overflow
  | .next index totalMs => next index totalMs

structure PartRuns (rest gap start digits after spaces unitText : List Char) : Prop where
  gap : MaximalRun isGapCharacter rest gap start
  digits : MaximalRun isAsciiDigit start digits after
  spaces : MaximalRun isAsciiWhitespace after spaces unitText

theorem partRuns_exist (rest : List Char) :
    ∃ gap start digits after spaces unitText,
      PartRuns rest gap start digits after spaces unitText :=
  ⟨_, _, _, _, _, _, maximalRun_takeWhile _ _, maximalRun_takeWhile _ _, maximalRun_takeWhile _ _⟩

variable {rest gap start digits after spaces unitText : List Char}

theorem PartRuns.whole (runs : PartRuns rest gap start digits after spaces unitText) :
    rest = gap ++ (digits ++ (spaces ++ unitText)) := by
  rw [← runs.spaces.whole, ← runs.digits.whole, ← runs.gap.whole]

theorem PartRuns.later_shorter (runs : PartRuns rest gap start digits after spaces unitText)
    {unit : DurationUnit} {later : List Char} (tail : unitText = unit.letters ++ later) :
    utf8Len later < utf8Len rest ∧ later.length < rest.length := by
  have letters : 0 < unit.letters.length := by cases unit <;> decide
  have bytes := utf8Len_letters unit
  rw [runs.whole, tail]
  simp only [utf8Len_append, List.length_append]
  omega

theorem scanTurn_eq (runs : PartRuns rest gap start digits after spaces unitText)
    (consumed : List Char) (totalMs : Nat) :
    scanTurn (consumed ++ rest) (utf8Bytes (consumed ++ rest)) (utf8Len consumed) totalMs =
      .ok (if digits.isEmpty then .done
        else turnAfter (utf8Len (consumed ++ gap ++ digits ++ spaces)) totalMs
          (parseUnsigned u128Bound digits) (unitOf unitText)) := by
  have gapped : consumed ++ rest = consumed ++ gap ++ start := by
    rw [runs.gap.whole, List.append_assoc]
  have numbered : consumed ++ rest = consumed ++ gap ++ digits ++ after := by
    rw [gapped, runs.digits.whole, List.append_assoc _ digits]
  have spaced : consumed ++ rest = consumed ++ gap ++ digits ++ spaces ++ unitText := by
    rw [numbered, runs.spaces.whole, List.append_assoc _ spaces]
  have numberStart : skipBytes isGapByte (utf8Bytes (consumed ++ rest)) (utf8Len consumed) =
      utf8Len (consumed ++ gap) := by
    rw [readsAscii_gap.skipBytes_eq, runs.gap.takeWhile_eq]
  have numberStop : skipBytes isByteDigit (utf8Bytes (consumed ++ rest))
      (utf8Len (consumed ++ gap)) = utf8Len (consumed ++ gap ++ digits) := by
    rw [gapped, readsAscii_digit.skipBytes_eq, runs.digits.takeWhile_eq]
  have unitStart : skipBytes isByteWhitespace (utf8Bytes (consumed ++ rest))
      (utf8Len (consumed ++ gap ++ digits)) = utf8Len (consumed ++ gap ++ digits ++ spaces) := by
    rw [numbered, readsAscii_whitespace.skipBytes_eq, runs.spaces.takeWhile_eq]
  have firstByte : (utf8Bytes (consumed ++ rest))[utf8Len (consumed ++ gap)]?.any isByteDigit =
      !digits.isEmpty := by
    rw [gapped, byte_at, readsAscii_digit.head_any, runs.digits.head_any]
  have number : slice (consumed ++ rest) (utf8Len (consumed ++ gap))
      (utf8Len (consumed ++ gap ++ digits)) = .ok digits := by
    rw [numbered, List.append_assoc _ digits]
    exact slice_boundary (consumed ++ gap) digits after
  have tail : sliceTail (consumed ++ rest) (utf8Len (consumed ++ gap ++ digits ++ spaces)) =
      .ok unitText := by
    rw [spaced]
    exact sliceTail_boundary _ _
  have unit : unitAt unitText ((utf8Bytes (consumed ++ rest))[utf8Len
      (consumed ++ gap ++ digits ++ spaces)]?) = unitOf unitText := by
    rw [spaced, byte_at, unitAt_eq]
  simp only [scanTurn, numberStart, firstByte, numberStop, number, unitStart, tail, unit]
  cases digits.isEmpty with
  | true => rfl
  | false =>
      simp only [Bool.not_false, ↓reduceIte, Bool.false_eq_true, turnAfter]
      cases parseUnsigned u128Bound digits with
      | none => rfl
      | some number =>
          cases unitOf unitText with
          | none => rfl
          | some unit =>
              simp only
              split <;> rfl

theorem parseComponents_eq (runs : PartRuns rest gap start digits after spaces unitText)
    (fuel totalMs components : Nat) :
    parseComponents (fuel + 1) rest totalMs components =
      if digits.isEmpty then some (totalMs, components)
      else (turnAfter 0 totalMs (parseUnsigned u128Bound digits) (unitOf unitText)).resume
        (some (totalMs, components)) none fun unitLen total =>
          parseComponents fuel (unitText.drop unitLen) total (components + 1) := by
  have gapped : trimStartMatches (fun c => isAsciiWhitespace c || c == ',') rest = start :=
    runs.gap.dropWhile_eq
  have numbered : start.drop digits.length = after := by
    rw [runs.digits.whole, List.drop_left]
  have spaced : trimStartMatches isAsciiWhitespace after = unitText := runs.spaces.dropWhile_eq
  simp only [parseComponents, gapped, runs.digits.takeWhile_eq, numbered, spaced]
  cases digits.isEmpty with
  | true => rfl
  | false =>
      simp only [Bool.false_eq_true, ↓reduceIte, turnAfter]
      cases parseUnsigned u128Bound digits with
      | none => rfl
      | some number =>
          cases unitOf unitText with
          | none => rfl
          | some unit =>
              simp only
              split
              next => rw [ScanTurn.resume, Nat.zero_add]
              next => rfl

/-- The loop over the bytes after `consumed` reads what the one over the characters reads. -/
theorem scanComponents_eq (consumed rest : List Char) (totalMs components : Nat)
    {fuel more : Nat} (enough : utf8Len rest < fuel) (longer : rest.length < more) :
    scanComponents (consumed ++ rest) (utf8Bytes (consumed ++ rest)) fuel (utf8Len consumed)
      totalMs components = some (.ok (parseComponents more rest totalMs components)) := by
  induction fuel generalizing consumed rest totalMs components more with
  | zero => omega
  | succ fuel ih =>
      obtain ⟨more, rfl⟩ : ∃ less, more = less + 1 := ⟨more - 1, by omega⟩
      obtain ⟨gap, start, digits, after, spaces, unitText, runs⟩ := partRuns_exist rest
      have whole := runs.whole
      have length : (utf8Bytes (consumed ++ rest)).length = utf8Len consumed + utf8Len rest := by
        rw [length_utf8Bytes, utf8Len_append]
      rw [parseComponents_eq runs, scanComponents, scanTurn_eq runs]
      split
      next =>
        cases some_ : digits.isEmpty with
        | true => rfl
        | false =>
            simp only [Bool.false_eq_true, ↓reduceIte, turnAfter]
            cases parseUnsigned u128Bound digits with
            | none => rfl
            | some number =>
                cases unit : unitOf unitText with
                | none => rfl
                | some found =>
                    obtain ⟨unitMs, unitLen⟩ := found
                    obtain ⟨letters, later, tail, -, rfl, -⟩ := unitOf_eq_some unit
                    cases fits : decide (number * unitMs < u128Bound) &&
                        decide (totalMs + number * unitMs < u128Bound) with
                    | false =>
                        simp only [fits, Bool.false_eq_true, ↓reduceIte]
                        rfl
                    | true =>
                        simp only [fits, ↓reduceIte, ScanTurn.resume, Nat.zero_add]
                        have whole_ : consumed ++ rest =
                            consumed ++ gap ++ digits ++ spaces ++ letters.letters ++ later := by
                          rw [whole, tail]
                          simp only [List.append_assoc]
                        have index : utf8Len (consumed ++ gap ++ digits ++ spaces) +
                            letters.letters.length = utf8Len
                              (consumed ++ gap ++ digits ++ spaces ++ letters.letters) := by
                          rw [utf8Len_append _ letters.letters, utf8Len_letters]
                        have dropped : unitText.drop letters.letters.length = later := by
                          rw [tail, List.drop_left]
                        have shorter := runs.later_shorter tail
                        rw [whole_, index, dropped]
                        exact ih _ later _ _ (by omega) (by omega)
      next past =>
        have empty : rest = [] := utf8Len_eq_zero (by omega)
        rw [empty, eq_comm, List.append_eq_nil_iff, List.append_eq_nil_iff] at whole
        rw [whole.2.1]
        rfl

theorem sliceMarker_eq (lower : List Char) (markers : List String) :
    sliceMarker lower markers = .ok (afterMarker lower markers) := by
  induction markers with
  | nil => rfl
  | cons marker rest ih =>
      rw [sliceMarker, afterMarker]
      cases found : find marker.toList lower with
      | none => exact ih
      | some position =>
          obtain ⟨before, after, rfl, rfl⟩ := find_eq_some found
          have taken : (before ++ marker.toList ++ after).take before.length = before := by
            rw [List.append_assoc, List.take_left]
          have dropped : (before ++ marker.toList ++ after).drop (before.length + marker.length) =
              after := by
            rw [← String.length_toList, ← List.length_append, List.drop_left]
          simp only [taken, dropped]
          rw [← utf8Len_append]
          exact sliceTail_boundary _ _

/-- The text after the first marker that occurs, or all of it, without leading white space. -/
def durationText (input : String) : List Char :=
  trimStart (afterMarker (toAsciiLowercase input.toList) durationMarkers)

theorem parseRetryDuration_eq (input : String) :
    parseRetryDuration input = if startsWith ['-'] (durationText input) then none
      else cappedMillis (parseComponents ((durationText input).length + 1) (durationText input)
        0 0) :=
  rfl

/-- The scan ends, slices only between characters, and gives what the reading gives. -/
theorem scanRetryDuration_eq (input : String) :
    scanRetryDuration input = some (.ok (parseRetryDuration input)) := by
  rw [scanRetryDuration, sliceMarker_eq, parseRetryDuration_eq]
  change (if startsWith ['-'] (durationText input) then some (.ok none)
    else (scanComponents (durationText input) (utf8Bytes (durationText input))
      ((utf8Bytes (durationText input)).length + 1) 0 0 0).map fun scanned =>
        scanned.map cappedMillis) = _
  generalize durationText input = candidate
  split
  next => rfl
  next =>
    have scanned := scanComponents_eq [] candidate 0 0 (Nat.lt_succ_self _) (Nat.lt_succ_self _)
    rw [List.nil_append, show utf8Len [] = 0 from rfl] at scanned
    rw [length_utf8Bytes, scanned]
    rfl

end ClineProxy
