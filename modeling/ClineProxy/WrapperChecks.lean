import ClineProxy.RateLimit
import ClineProxy.TextScan

/-! When an upstream response counts as rate-limited, said without the scans that decide it. -/

namespace ClineProxy

open Clock Json Text

/-! Status fields of a document -/

/-- A field at some depth, and whether a field called `error` is above it. -/
inductive FieldIn : Value → Bool → String → Value → Prop where
  | here {fields : List (String × Value)} {name : String} {held : Value} :
      (name, held) ∈ fields → FieldIn (.object fields) false name held
  | member {fields : List (String × Value)} {above name : String} {child held : Value}
      {underError : Bool} : (above, child) ∈ fields → FieldIn child underError name held →
      FieldIn (.object fields) (normalizeFieldName above == "error".toList || underError) name held
  | item {items : List Value} {child held : Value} {underError : Bool} {name : String} :
      child ∈ items → FieldIn child underError name held →
      FieldIn (.array items) underError name held

def StatusName (underError : Bool) (name : String) : Prop :=
  normalizeFieldName name ∈
      ["upstreamstatus".toList, "statuscode".toList, "httpstatus".toList] ∨
    (underError = true ∧ normalizeFieldName name = "status".toList)

/-- The number itself, or a text that spells it, with white space around it. -/
def DenotesStatus (expected : UInt64) (value : Value) : Prop :=
  value = .number (.posInt expected) ∨
    ∃ text sign digits, value = .string text ∧ trim text.toList = sign ++ digits ∧
      (sign = [] ∨ sign = ['+']) ∧ digits ≠ [] ∧
      (∀ digit ∈ digits, isAsciiDigit digit = true) ∧ digitsValue digits = expected.toNat

def ReportsStructured (document : Value) : Prop :=
  ∃ underError name held, FieldIn document underError name held ∧ StatusName underError name ∧
    DenotesStatus 429 held

theorem valueIsStatus_iff {value : Value} :
    valueIsStatus value 429 = true ↔ DenotesStatus 429 value := by
  rw [valueIsStatus, Bool.or_eq_true, decide_eq_true_eq, decide_eq_true_eq]
  refine or_congr ?_ ?_
  · constructor
    · intro read
      obtain ⟨number, isNumber, same⟩ := Option.map_eq_some_iff.mp read
      have known : number = 429 := UInt64.toNat_inj.mp same
      cases value with
      | number held =>
          cases held with
          | posInt held =>
              cases isNumber
              rw [known]
          | negInt => cases isNumber
          | float => cases isNumber
      | _ => cases isNumber
    · rintro rfl
      rfl
  · constructor
    · intro read
      obtain ⟨text, isText, parsed⟩ := Option.bind_eq_some_iff.mp read
      obtain ⟨-, sign, digits, parts⟩ := parseUnsigned_eq_some.mp parsed
      exact ⟨text, sign, digits, Value.asStr_eq_some isText, parts⟩
    · rintro ⟨text, sign, digits, rfl, parts⟩
      exact parseUnsigned_eq_some.mpr ⟨by decide, sign, digits, parts⟩

theorem statusName_iff {insideError : Bool} {name : String} :
    ((normalizeFieldName name == "upstreamstatus".toList ||
        normalizeFieldName name == "statuscode".toList ||
        normalizeFieldName name == "httpstatus".toList) ||
      (insideError && normalizeFieldName name == "status".toList)) = true ↔
      StatusName insideError name := by
  simp only [StatusName, Bool.or_eq_true, beq_iff_eq, Bool.and_eq_true, List.mem_cons,
    List.not_mem_nil, or_false, or_assoc]

theorem structuredStatusFields_iff {insideError : Bool} {fields : List (String × Value)} :
    structuredStatusFields insideError fields = true ↔
      ∃ name held, (name, held) ∈ fields ∧
        ((StatusName insideError name ∧ DenotesStatus 429 held) ∨
          structuredStatus (insideError || normalizeFieldName name == "error".toList) held =
            true) := by
  induction fields with
  | nil => simp [structuredStatusFields]
  | cons field rest ih =>
      obtain ⟨first, value⟩ := field
      rw [structuredStatusFields, Bool.or_eq_true, Bool.or_eq_true, Bool.and_eq_true,
        statusName_iff, valueIsStatus_iff, ih]
      constructor
      · rintro (found | ⟨name, held, member, found⟩)
        · exact ⟨first, value, List.mem_cons_self .., found⟩
        · exact ⟨name, held, List.mem_cons_of_mem _ member, found⟩
      · rintro ⟨name, held, member, found⟩
        cases member with
        | head => exact .inl found
        | tail _ later => exact .inr ⟨name, held, later, found⟩

theorem structuredStatusItems_iff {insideError : Bool} {items : List Value} :
    structuredStatusItems insideError items = true ↔
      ∃ child ∈ items, structuredStatus insideError child = true := by
  induction items with
  | nil => simp [structuredStatusItems]
  | cons child rest ih => simp [structuredStatusItems, ih]

theorem structuredStatus_sound {insideError : Bool} (document : Value)
    (reported : structuredStatus insideError document = true) :
    ∃ underError name held, FieldIn document underError name held ∧
      StatusName (insideError || underError) name ∧ DenotesStatus 429 held := by
  match document with
  | .object fields =>
      rw [structuredStatus, structuredStatusFields_iff] at reported
      obtain ⟨name, held, member, ⟨named, denotes⟩ | below⟩ := reported
      · exact ⟨false, name, held, .here member, by rwa [Bool.or_false], denotes⟩
      · have smaller : sizeOf held < 1 + sizeOf fields := by
          have inField : sizeOf held < sizeOf (name, held) := by simp
          have inList := List.sizeOf_lt_of_mem member
          omega
        obtain ⟨underError, deeper, value, found, named, denotes⟩ :=
          structuredStatus_sound held below
        exact ⟨_, deeper, value, .member member found, by rwa [← Bool.or_assoc], denotes⟩
  | .array items =>
      rw [structuredStatus, structuredStatusItems_iff] at reported
      obtain ⟨child, member, below⟩ := reported
      have smaller : sizeOf child < 1 + sizeOf items := by
        have inList := List.sizeOf_lt_of_mem member
        omega
      obtain ⟨underError, name, held, found, reports⟩ := structuredStatus_sound child below
      exact ⟨underError, name, held, .item member found, reports⟩
  | .null | .bool _ | .number _ | .string _ => cases reported
termination_by sizeOf document

theorem structuredStatus_complete {document held : Value} {underError : Bool} {name : String}
    (found : FieldIn document underError name held) {insideError : Bool}
    (named : StatusName (insideError || underError) name) (denotes : DenotesStatus 429 held) :
    structuredStatus insideError document = true := by
  induction found generalizing insideError with
  | here member =>
      rw [Bool.or_false] at named
      rw [structuredStatus, structuredStatusFields_iff]
      exact ⟨_, _, member, .inl ⟨named, denotes⟩⟩
  | member member below ih =>
      rw [structuredStatus, structuredStatusFields_iff]
      rw [← Bool.or_assoc] at named
      exact ⟨_, _, member, .inr (ih named denotes)⟩
  | item member below ih =>
      rw [structuredStatus, structuredStatusItems_iff]
      exact ⟨_, member, ih named denotes⟩

theorem structuredUpstream429_iff {document : Value} :
    structuredUpstream429 document = true ↔ ReportsStructured document := by
  constructor
  · intro reported
    obtain ⟨underError, name, held, found, named, denotes⟩ :=
      structuredStatus_sound document reported
    rw [Bool.false_or] at named
    exact ⟨underError, name, held, found, named, denotes⟩
  · rintro ⟨underError, name, held, found, named, denotes⟩
    exact structuredStatus_complete found (by rwa [Bool.false_or]) denotes

/-! Statuses in a text -/

def wrapperPhrases : List String :=
  ["upstream returned", "upstream response status", "upstream status", "upstream error"]

def rateLimitPhrases : List String :=
  ["daily free limit reached", "rate limit", "rate-limit", "rate limited", "rate-limited",
    "quota exceeded", "too many requests", "try again in", "retry after", "retry-after"]

def HttpWord (word : List Char) : Prop :=
  ∃ space separators, word = "http".toList ++ space :: separators ∧
    isAsciiWhitespace space = true ∧ ∀ character ∈ separators, isStatusFiller character = true

/-- Separators, perhaps the word `http`, and a maximal run of digits of that value. -/
def NamesStatus (expected : Nat) (text : List Char) : Prop :=
  ∃ separators word tail digits rest, text = separators ++ (word ++ tail) ∧
    (∀ character ∈ separators, isStatusFiller character = true) ∧ (word = [] ∨ HttpWord word) ∧
    MaximalRun isAsciiDigit tail digits rest ∧ digits ≠ [] ∧ digitsValue digits = expected

def ReportsWrapped (expected : Nat) (text : List Char) : Prop :=
  ∃ phrase ∈ wrapperPhrases, ∃ before after, text = before ++ phrase.toList ++ after ∧
    NamesStatus expected after

theorem isStatusFiller_digit {character : Char} (digit : isAsciiDigit character = true) :
    isStatusFiller character = false := by
  cases filler : isStatusFiller character with
  | false => rfl
  | true =>
      simp only [isStatusFiller, isAsciiWhitespace, Bool.or_eq_true, beq_iff_eq] at filler
      rcases filler with ((((((rfl | rfl) | rfl) | rfl) | rfl) | rfl) | rfl) | rfl <;>
        exact absurd digit (by decide)

theorem leadingDigits_iff {expected : Nat} {text : List Char} (fits : expected < 2 ^ 16) :
    (if (text.takeWhile isAsciiDigit).isEmpty then none
      else parseUnsigned (2 ^ 16) (text.takeWhile isAsciiDigit)) = some expected ↔
      ∃ digits rest, MaximalRun isAsciiDigit text digits rest ∧ digits ≠ [] ∧
        digitsValue digits = expected := by
  have maximal := maximalRun_takeWhile isAsciiDigit text
  constructor
  · intro read
    split at read
    next => cases read
    next some_ =>
      rw [List.isEmpty_iff] at some_
      rw [parseUnsigned_digits some_ maximal.within] at read
      split at read
      next =>
        cases read
        exact ⟨_, _, maximal, some_, rfl⟩
      next => cases read
  · rintro ⟨digits, rest, run, some_, rfl⟩
    rw [run.takeWhile_eq, if_neg (by simpa using some_),
      parseUnsigned_digits some_ run.within, if_pos fits]

theorem fillers_dropped {separators rest : List Char}
    (within : ∀ character ∈ separators, isStatusFiller character = true)
    (stops : ∀ character ∈ rest.head?, isStatusFiller character = false) :
    trimStartMatches isStatusFiller (separators ++ rest) = rest :=
  MaximalRun.dropWhile_eq ⟨rfl, within, stops⟩

theorem leadingStatus_complete {expected : Nat} {text : List Char} (fits : expected < 2 ^ 16)
    (named : NamesStatus expected text) : leadingStatus text = some expected := by
  obtain ⟨separators, word, tail, digits, rest, rfl, within, spelled, run, some_, value⟩ := named
  obtain ⟨first, others, starts, digit⟩ := run.head_within some_
  have stops : ∀ character ∈ tail.head?, isStatusFiller character = false := by
    rintro character next
    rw [starts] at next
    cases next
    exact isStatusFiller_digit digit
  have read := (leadingDigits_iff fits).mpr ⟨digits, rest, run, some_, value⟩
  rcases spelled with rfl | ⟨space, more, rfl, white, after⟩
  · have plain : (toAsciiLowercase (tail.take 4) == "http".toList) = false := by
      rw [starts]
      refine beq_false_of_ne fun same => ?_
      have letter : toAsciiLower first = 'h' := (List.cons_eq_cons.mp same).1
      rcases toAsciiLower_cases first with ⟨kept, -⟩ | ⟨low, -, -⟩
      · rw [kept] at letter
        subst letter
        exact absurd digit (by decide)
      · simp only [isAsciiDigit, Bool.and_eq_true, decide_eq_true_eq] at digit
        have high : first.toNat ≤ 57 := digit.2
        omega
    simp only [leadingStatus, List.nil_append, fillers_dropped within stops, plain,
      Bool.false_and, Bool.false_eq_true, ↓reduceIte]
    exact read
  · have begins : trimStartMatches isStatusFiller
        (separators ++ ("http".toList ++ space :: more ++ tail)) =
        "http".toList ++ (space :: more ++ tail) := by
      rw [List.append_assoc]
      exact fillers_dropped within (by rintro character ⟨⟩; rfl)
    have trimmed : trimStartMatches isStatusFiller (space :: more ++ tail) = tail := by
      refine fillers_dropped ?_ stops
      rintro character (_ | ⟨_, later⟩)
      · simp [isStatusFiller, white]
      · exact after character later
    have word : toAsciiLowercase (("http".toList ++ (space :: more ++ tail)).take 4) =
        "http".toList := rfl
    have ended : (space :: more ++ tail).head?.all isAsciiWhitespace = true := white
    have dropped : ("http".toList ++ (space :: more ++ tail)).drop 4 = space :: more ++ tail := rfl
    simp only [leadingStatus, begins, word, ended, BEq.rfl, Bool.and_self, ↓reduceIte, dropped,
      trimmed]
    exact read

theorem leadingStatus_sound {expected : Nat} {text : List Char} (fits : expected < 2 ^ 16)
    (lower : ∀ character ∈ text, toAsciiLower character = character)
    (read : leadingStatus text = some expected) : NamesStatus expected text := by
  have trimmed : MaximalRun isStatusFiller text (text.takeWhile isStatusFiller)
      (trimStartMatches isStatusFiller text) := maximalRun_takeWhile isStatusFiller text
  simp only [leadingStatus] at read
  generalize text.takeWhile isStatusFiller = separators at trimmed
  generalize trimStartMatches isStatusFiller text = begins at trimmed read
  split at read
  next word =>
    obtain ⟨digits, rest, run, some_, value⟩ := (leadingDigits_iff fits).mp read
    have more : MaximalRun isStatusFiller (begins.drop 4) ((begins.drop 4).takeWhile isStatusFiller)
        (trimStartMatches isStatusFiller (begins.drop 4)) := maximalRun_takeWhile _ _
    rw [Bool.and_eq_true, beq_iff_eq] at word
    have spelled : begins.take 4 = "http".toList := by
      rw [← word.1, toAsciiLowercase]
      refine (List.map_id (begins.take 4)).symm.trans (List.map_congr_left ?_)
      intro character member
      refine (lower character ?_).symm
      rw [trimmed.whole]
      exact List.mem_append_right _ (List.mem_of_mem_take member)
    have ended := word.2
    cases after : begins.drop 4 with
    | nil =>
        obtain ⟨first, others, starts, -⟩ := run.head_within some_
        rw [after] at starts
        cases starts
    | cons space later =>
        rw [after] at more run ended
        have white : isAsciiWhitespace space = true := ended
        have filler : isStatusFiller space = true := by simp [isStatusFiller, white]
        rw [List.takeWhile_cons_of_pos filler] at more
        refine ⟨separators, "http".toList ++ space :: later.takeWhile isStatusFiller, _, digits,
          rest, ?_, trimmed.within, .inr ⟨space, _, rfl, white, fun character member =>
            more.within character (List.mem_cons_of_mem _ member)⟩, run, some_, value⟩
        rw [List.append_assoc, ← more.whole, ← after, ← spelled, List.take_append_drop]
        exact trimmed.whole
  next =>
    obtain ⟨digits, rest, run, some_, value⟩ := (leadingDigits_iff fits).mp read
    exact ⟨separators, [], begins, digits, rest, trimmed.whole, trimmed.within, .inl rfl, run,
      some_, value⟩

/-- The loop over the occurrences leaves none out. -/
theorem stemReportsStatus_iff {stem : List Char} {expected fuel : Nat} {text : List Char}
    (apart : unbordered stem = true) (some_ : stem ≠ []) (enough : text.length < fuel) :
    stemReportsStatus stem expected fuel text = true ↔
      ∃ before after, text = before ++ stem ++ after ∧ leadingStatus after = some expected := by
  induction fuel generalizing text with
  | zero => omega
  | succ fuel ih =>
      rw [stemReportsStatus]
      split
      next absent =>
        refine iff_of_false Bool.false_ne_true ?_
        rintro ⟨before, after, same, -⟩
        exact find_eq_none_iff.mp absent ⟨before, after, same.symm⟩
      next position found =>
        obtain ⟨first, tail, rfl, rfl⟩ := find_eq_some found
        have dropped : (first ++ stem ++ tail).drop (first.length + stem.length) = tail := by
          rw [← List.length_append, List.drop_left]
        have shorter : tail.length < fuel := by
          have positive := List.length_pos_iff.mpr some_
          simp only [List.length_append] at enough
          omega
        simp only [dropped, Bool.or_eq_true, beq_iff_eq, ih shorter]
        constructor
        · rintro (now | ⟨before, after, rfl, later⟩)
          · exact ⟨first, tail, rfl, now⟩
          · exact ⟨first ++ stem ++ before, after, by simp only [List.append_assoc], later⟩
        · rintro ⟨before, after, same, status⟩
          obtain ⟨position, earliest, bound⟩ := find_least before stem after
          rw [← same, found] at earliest
          cases earliest
          rcases occurrences_apart apart same bound with rfl | ⟨between, rfl, rest⟩
          · rw [List.append_cancel_left_eq] at same
            exact .inl (by rwa [same])
          · exact .inr ⟨between, after, rest, status⟩

theorem wrapperPhrase_apart {phrase : String} (member : phrase ∈ wrapperPhrases) :
    unbordered phrase.toList = true ∧ phrase.toList ≠ [] := by
  simp only [wrapperPhrases, List.mem_cons, List.not_mem_nil, or_false] at member
  rcases member with rfl | rfl | rfl | rfl <;> exact ⟨rfl, List.cons_ne_nil _ _⟩

theorem wrapperReportsStatus_iff {expected : Nat} {text : List Char} (fits : expected < 2 ^ 16)
    (lower : ∀ character ∈ text, toAsciiLower character = character) :
    wrapperReportsStatus text expected = true ↔ ReportsWrapped expected text := by
  refine List.any_eq_true.trans (exists_congr fun phrase => and_congr_right fun member => ?_)
  obtain ⟨apart, some_⟩ := wrapperPhrase_apart member
  rw [stemReportsStatus_iff apart some_ (Nat.lt_succ_self _)]
  refine exists_congr fun before => exists_congr fun after => and_congr_right fun same => ?_
  refine ⟨leadingStatus_sound fits fun character within => lower character ?_,
    leadingStatus_complete fits⟩
  rw [same]
  exact List.mem_append_right _ within

theorem hasRateLimitSemantics_iff {text : List Char} :
    hasRateLimitSemantics text = true ↔ ∃ phrase ∈ rateLimitPhrases, phrase.toList <:+: text := by
  refine List.any_eq_true.trans (exists_congr fun phrase => and_congr_right fun member => ?_)
  exact contains_iff_infix

theorem isProxyWrapped429_iff {env : ParseEnv} {body : Bytes} :
    isProxyWrapped429 env body = true ↔
      (∃ document, env.codec.fromSlice body = some document ∧ ReportsStructured document) ∨
      (ReportsWrapped 429 (toAsciiLowercase (fromUtf8Lossy body)) ∧
        ∃ phrase ∈ rateLimitPhrases,
          phrase.toList <:+: toAsciiLowercase (fromUtf8Lossy body)) := by
  have lower : ∀ character ∈ toAsciiLowercase (fromUtf8Lossy body),
      toAsciiLower character = character := by
    intro character member
    obtain ⟨raw, -, rfl⟩ := List.mem_map.mp member
    exact toAsciiLower_lower raw
  rw [isProxyWrapped429, Bool.or_eq_true, Bool.and_eq_true, Option.any_eq_true,
    wrapperReportsStatus_iff (by decide) lower, hasRateLimitSemantics_iff]
  simp only [structuredUpstream429_iff]

theorem effective_rate_limit (env : ParseEnv) (now : SystemTime) (status : Nat)
    (headers : HeaderMap) (body : Bytes) (fallback : Duration) :
    (classifyUpstreamResponse env now status headers body fallback).disposition.isRateLimited =
        true ↔
      status = 429 ∨ ((500 ≤ status ∧ status < 600) ∧
        ((∃ document, env.codec.fromSlice body = some document ∧ ReportsStructured document) ∨
          (ReportsWrapped 429 (toAsciiLowercase (fromUtf8Lossy body)) ∧
            ∃ phrase ∈ rateLimitPhrases,
              phrase.toList <:+: toAsciiLowercase (fromUtf8Lossy body)))) := by
  rw [← isProxyWrapped429_iff]
  simp only [classifyUpstreamResponse, disposition]
  split
  next success =>
    simp only [isSuccess, Bool.and_eq_true, decide_eq_true_eq] at success
    refine iff_of_false Bool.false_ne_true ?_
    rintro (direct | ⟨server, -⟩)
    · omega
    · omega
  next =>
    split
    next direct => exact iff_of_true rfl (.inl direct)
    next other =>
      have wrapped : (isServerError status && isProxyWrapped429 env body) = true ↔
          (500 ≤ status ∧ status < 600) ∧ isProxyWrapped429 env body = true := by
        simp [isServerError]
      split
      next yes => exact iff_of_true rfl (.inr (wrapped.mp yes))
      next no =>
        refine iff_of_false Bool.false_ne_true ?_
        rintro (direct | yes)
        · exact other direct
        · exact no (wrapped.mpr yes)

end ClineProxy
