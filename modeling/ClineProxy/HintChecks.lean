import ClineProxy.DurationChecks
import ClineProxy.PoolChecks

/-! Where a retry hint comes from, and the cooldown that it becomes. -/

namespace ClineProxy

open Clock Json Text

mutual

/-- The fields of the document at every depth: an object's own ones before those inside them. -/
def fieldsWithin : Value → List (String × Value)
  | .object fields => fields ++ fieldsInside fields
  | .array items => fieldsOfItems items
  | _ => []

def fieldsInside : List (String × Value) → List (String × Value)
  | [] => []
  | (_, value) :: rest => fieldsWithin value ++ fieldsInside rest

def fieldsOfItems : List Value → List (String × Value)
  | [] => []
  | value :: rest => fieldsWithin value ++ fieldsOfItems rest

end

mutual

theorem structuredRetryDuration_eq : (value : Value) → structuredRetryDuration value =
    (fieldsWithin value).findSome? fun field => retryFieldDuration field.1 field.2
  | .object fields => by
      rw [structuredRetryDuration, fieldsWithin, List.findSome?_append,
        structuredRetryFields_eq fields]
  | .array items => by rw [structuredRetryDuration, fieldsWithin, structuredRetryItems_eq items]
  | .null => rfl
  | .bool _ => rfl
  | .number _ => rfl
  | .string _ => rfl

theorem structuredRetryFields_eq : (fields : List (String × Value)) →
    structuredRetryFields fields =
      (fieldsInside fields).findSome? fun field => retryFieldDuration field.1 field.2
  | [] => rfl
  | (_, value) :: rest => by
      rw [structuredRetryFields, fieldsInside, List.findSome?_append,
        structuredRetryDuration_eq value, structuredRetryFields_eq rest]

theorem structuredRetryItems_eq : (items : List Value) → structuredRetryItems items =
    (fieldsOfItems items).findSome? fun field => retryFieldDuration field.1 field.2
  | [] => rfl
  | value :: rest => by
      rw [structuredRetryItems, fieldsOfItems, List.findSome?_append,
        structuredRetryDuration_eq value, structuredRetryItems_eq rest]

end

inductive HintCandidate where
  | header (value : Bytes)
  | field (name : String) (value : Value)
  | text (message : String)
  | fallback (duration : Duration)

def HintCandidate.source : HintCandidate → RetryHintSource
  | header _ => .retryAfter
  | field _ _ => .structuredJson
  | text _ => .humanText
  | fallback _ => .fallback

/-- The error message of the document, or else the body as text unless it is blank. -/
def hintMessage (env : ParseEnv) (body : Bytes) : Option String :=
  ((env.codec.fromSlice body).bind extractErrorMessage).or
    (if (trim (fromUtf8Lossy body)).isEmpty then none
      else some (String.ofList (trim (fromUtf8Lossy body))))

/-- The header, every field of the document, the message and the fallback, in that order. -/
def hintCandidates (env : ParseEnv) (headers : HeaderMap) (body : Bytes) (fallback : Duration) :
    List HintCandidate :=
  (OrderedMap.lookup "retry-after" headers).toList.map .header ++
    (((env.codec.fromSlice body).toList.flatMap fieldsWithin).map fun field =>
      .field field.1 field.2) ++
    (hintMessage env body).toList.map .text ++ [.fallback fallback]

/-- The wait that a header asks for; `late` says whether a date that has passed asks for none. -/
def HeaderWait (env : ParseEnv) (late : Prop) (now : SystemTime) (text : String)
    (wait : Duration) : Prop :=
  (∃ seconds, parseUnsigned u64Bound (trim text.toList) = some seconds ∧
    wait = fromSecs seconds) ∨
  (parseUnsigned u64Bound (trim text.toList) = none ∧ ∃ time,
    env.parseHttpDate (String.ofList (trim text.toList)) = some time ∧
    ((now ≤ time ∧ now + wait = time) ∨ (late ∧ time < now ∧ wait = 0)))

/-- A field whose name ends in `ms` counts milliseconds. -/
def FieldWait (name : String) (value : Value) (wait : Duration) : Prop :=
  normalizeFieldName name ∈ retryFieldNames.map String.toList ∧
    ((∃ amount : UInt64, value = .number (.posInt amount) ∧
      wait = if normalizeFieldName name ∈ ["retryafterms".toList, "retryinms".toList] then
        fromMillis amount.toNat else fromSecs amount.toNat) ∨
    ∃ text, value = .string text ∧ parseRetryDuration text = some wait)

def HintCandidate.Usable (env : ParseEnv) (late : Prop) (now : SystemTime) (wait : Duration) :
    HintCandidate → Prop
  | header value => ∃ text, env.headerToStr value = some text ∧ HeaderWait env late now text wait ∧
      wait ≤ maxParsedCooldown
  | field name value => FieldWait name value wait ∧ wait ≤ maxParsedCooldown
  | text message => parseRetryDuration message = some wait
  | fallback duration => wait = min duration maxParsedCooldown

/-- The hint is the first candidate that is usable. -/
def FirstUsable (env : ParseEnv) (late : Prop) (now : SystemTime)
    (candidates : List HintCandidate) (hint : RetryHint) : Prop :=
  ∃ before chosen after, candidates = before ++ chosen :: after ∧
    chosen.Usable env late now hint.duration ∧ chosen.source = hint.source ∧
    ∀ candidate ∈ before, ∀ wait, ¬candidate.Usable env late now wait

def HintCandidate.read (env : ParseEnv) (now : SystemTime) : HintCandidate → Option Duration
  | header value => (env.headerToStr value).bind (parseRetryAfterHeader env now)
  | field name value => retryFieldDuration name value
  | text message => parseRetryDuration message
  | fallback duration => some (min duration maxParsedCooldown)

theorem durationWithCap_eq_some {duration wait : Duration} :
    durationWithCap duration = some wait ↔ wait = duration ∧ wait ≤ maxParsedCooldown := by
  rw [durationWithCap]
  split
  next capped =>
    constructor
    · rintro ⟨⟩
      exact ⟨rfl, capped⟩
    · rintro ⟨rfl, -⟩
      rfl
  next large =>
    refine iff_of_false (fun capped => by cases capped) ?_
    rintro ⟨rfl, capped⟩
    exact large capped

theorem parseRetryDuration_capped {text : String} {wait : Duration}
    (read : parseRetryDuration text = some wait) : wait ≤ maxParsedCooldown := by
  rw [parseRetryDuration_eq] at read
  split at read
  next => cases read
  next =>
    cases summed : parseComponents _ (durationText text) 0 0 with
    | none =>
        rw [summed] at read
        cases read
    | some sum =>
        rw [summed] at read
        exact (cappedMillis_eq_some.mp read).2.2

theorem toNat_sub_eq {now time : Int} {wait : Nat} (ahead : now ≤ time) :
    wait = (time - now).toNat ↔ now + wait = time := by
  omega

theorem parseRetryAfterHeader_eq_some {env : ParseEnv} {now : SystemTime} {text : String}
    {wait : Duration} : parseRetryAfterHeader env now text = some wait ↔
      HeaderWait env True now text wait ∧ wait ≤ maxParsedCooldown := by
  simp only [parseRetryAfterHeader, HeaderWait]
  cases parsed : parseUnsigned u64Bound (trim text.toList) with
  | some seconds =>
      simp only [durationWithCap_eq_some]
      refine and_congr_left fun capped => ?_
      constructor
      · rintro rfl
        exact .inl ⟨seconds, rfl, rfl⟩
      · rintro (⟨found, same, rfl⟩ | ⟨absent, -⟩)
        · cases same
          rfl
        · cases absent
  | none =>
      cases dated : env.parseHttpDate (String.ofList (trim text.toList)) with
      | none =>
          refine iff_of_false nofun ?_
          rintro ⟨⟨_, found, -⟩ | ⟨-, _, found, -⟩, -⟩
          · cases found
          · cases found
      | some time =>
          simp only [durationWithCap_eq_some]
          refine and_congr_left fun capped => ?_
          constructor
          · intro waits
            refine .inr ⟨trivial, time, rfl, ?_⟩
            rw [systemDurationSince] at waits
            split at waits
            next ahead =>
              exact .inl ⟨ahead, (toNat_sub_eq ahead).mp waits⟩
            next behind => exact .inr ⟨trivial, Int.not_le.mp behind, waits⟩
          · rintro (⟨_, found, -⟩ | ⟨-, _, found, waits⟩)
            · cases found
            · cases found
              rw [systemDurationSince]
              rcases waits with ⟨ahead, same⟩ | ⟨-, behind, rfl⟩
              · rw [if_pos ahead]
                exact (toNat_sub_eq ahead).mpr same
              · rw [if_neg (Int.not_le.mpr behind)]
                rfl

theorem retryFieldNames_any (name : List Char) :
    (retryFieldNames.any fun field => field.toList == name) = true ↔
      name ∈ retryFieldNames.map String.toList := by
  simp only [List.any_eq_true, beq_iff_eq, List.mem_map]

theorem retryFieldDuration_eq_some {name : String} {value : Value} {wait : Duration} :
    retryFieldDuration name value = some wait ↔
      FieldWait name value wait ∧ wait ≤ maxParsedCooldown := by
  have other (unsigned : ∀ amount, value ≠ .number (.posInt amount))
      (unspelled : ∀ text, value ≠ .string text) : ¬FieldWait name value wait := by
    rintro ⟨-, ⟨amount, same, -⟩ | ⟨text, same, -⟩⟩
    · exact unsigned amount same
    · exact unspelled text same
  have millis : (normalizeFieldName name == "retryafterms".toList ||
      normalizeFieldName name == "retryinms".toList) = true ↔
      normalizeFieldName name ∈ ["retryafterms".toList, "retryinms".toList] := by
    simp only [Bool.or_eq_true, beq_iff_eq, List.mem_cons, List.not_mem_nil, or_false]
  simp only [retryFieldDuration, retryFieldNames_any, millis]
  by_cases named : normalizeFieldName name ∈ retryFieldNames.map String.toList
  · rw [if_pos named]
    cases value with
    | number number =>
        cases number with
        | posInt amount =>
            simp only [Number.asU64, Option.bind_some, durationWithCap_eq_some]
            refine and_congr_left fun capped => ?_
            constructor
            · rintro rfl
              exact ⟨named, .inl ⟨amount, rfl, rfl⟩⟩
            · rintro ⟨-, ⟨found, same, rfl⟩ | ⟨text, same, -⟩⟩
              · cases same
                rfl
              · cases same
        | negInt number => exact iff_of_false nofun fun read => other nofun nofun read.1
        | float bits => exact iff_of_false nofun fun read => other nofun nofun read.1
    | string text =>
        simp only
        constructor
        · intro read
          exact ⟨⟨named, .inr ⟨text, rfl, read⟩⟩, parseRetryDuration_capped read⟩
        · rintro ⟨⟨-, ⟨found, same, -⟩ | ⟨found, same, read⟩⟩, -⟩
          · cases same
          · cases same
            exact read
    | null => exact iff_of_false nofun fun read => other nofun nofun read.1
    | bool flag => exact iff_of_false nofun fun read => other nofun nofun read.1
    | array items => exact iff_of_false nofun fun read => other nofun nofun read.1
    | object fields => exact iff_of_false nofun fun read => other nofun nofun read.1
  · rw [if_neg named]
    exact iff_of_false nofun fun read => named read.1.1

theorem HintCandidate.read_eq_some {env : ParseEnv} {now : SystemTime} {wait : Duration}
    (candidate : HintCandidate) :
    candidate.read env now = some wait ↔ candidate.Usable env True now wait := by
  cases candidate with
  | header value =>
      simp only [read, Usable, Option.bind_eq_some_iff, parseRetryAfterHeader_eq_some]
  | field name value => exact retryFieldDuration_eq_some
  | text message => exact Iff.rfl
  | fallback duration => exact Option.some_inj.trans eq_comm

theorem HintCandidate.usable_capped {env : ParseEnv} {late : Prop} {now : SystemTime}
    {wait : Duration} (candidate : HintCandidate) (usable : candidate.Usable env late now wait) :
    wait ≤ maxParsedCooldown := by
  cases candidate with
  | header value =>
      obtain ⟨-, -, -, capped⟩ := usable
      exact capped
  | field name value => exact usable.2
  | text message => exact parseRetryDuration_capped usable
  | fallback duration =>
      rw [show wait = _ from usable]
      exact Nat.min_le_right _ _

def HintCandidate.chosen (env : ParseEnv) (now : SystemTime) (candidate : HintCandidate) :
    Option (RetryHintSource × Duration) :=
  (candidate.read env now).map fun wait => (candidate.source, wait)

variable (env : ParseEnv) (now : SystemTime)

theorem header_chosen (header : Option Bytes) :
    (header.toList.map .header).findSome? (HintCandidate.chosen env now) =
      ((header.bind env.headerToStr).bind (parseRetryAfterHeader env now)).map
        fun wait => (.retryAfter, wait) := by
  cases header with
  | none => rfl
  | some value =>
      simp only [Option.toList_some, List.map_cons, List.map_nil, List.findSome?_singleton,
        HintCandidate.chosen, HintCandidate.read, HintCandidate.source, Option.bind_some]

theorem field_chosen (document : Option Value) :
    ((document.toList.flatMap fieldsWithin).map fun field =>
        HintCandidate.field field.1 field.2).findSome? (HintCandidate.chosen env now) =
      (document.bind structuredRetryDuration).map fun wait => (.structuredJson, wait) := by
  cases document with
  | none => rfl
  | some value =>
      rw [Option.toList_some, List.flatMap_singleton, List.findSome?_map, Option.bind_some,
        structuredRetryDuration_eq, List.map_findSome?]
      rfl

theorem text_chosen (message : Option String) :
    (message.toList.map .text).findSome? (HintCandidate.chosen env now) =
      (message.bind parseRetryDuration).map fun wait => (.humanText, wait) := by
  cases message with
  | none => rfl
  | some text =>
      simp only [Option.toList_some, List.map_cons, List.map_nil, List.findSome?_singleton,
        HintCandidate.chosen, HintCandidate.read, HintCandidate.source, Option.bind_some]

theorem retryHint_chosen (headers : HeaderMap) (body : Bytes) (fallback : Duration) :
    (hintCandidates env headers body fallback).findSome? (HintCandidate.chosen env now) =
      some ((retryHint env now headers body fallback).source,
        (retryHint env now headers body fallback).duration) := by
  rw [hintCandidates, List.findSome?_append, List.findSome?_append, List.findSome?_append,
    header_chosen, field_chosen, text_chosen, hintMessage]
  cases header : ((OrderedMap.lookup "retry-after" headers).bind env.headerToStr).bind
      (parseRetryAfterHeader env now) with
  | some wait => simp only [retryHint, header, Option.map_some, Option.some_or]
  | none =>
      cases field : (env.codec.fromSlice body).bind structuredRetryDuration with
      | some wait =>
          simp only [retryHint, header, field, Option.map_some, Option.map_none, Option.some_or,
            Option.none_or]
      | none =>
          cases text : (((env.codec.fromSlice body).bind extractErrorMessage).or
              (if (trim (fromUtf8Lossy body)).isEmpty then none
                else some (String.ofList (trim (fromUtf8Lossy body))))).bind
              parseRetryDuration with
          | some wait =>
              simp only [retryHint, header, field, text, Option.map_some, Option.map_none,
                Option.some_or, Option.none_or]
          | none =>
              simp only [retryHint, header, field, text, Option.map_none, Option.none_or]
              rfl

theorem retryHint_first (headers : HeaderMap) (body : Bytes) (fallback : Duration) :
    FirstUsable env True now (hintCandidates env headers body fallback)
      (retryHint env now headers body fallback) := by
  obtain ⟨before, chosen, after, whole, found, skipped⟩ :=
    List.findSome?_eq_some_iff.mp (retryHint_chosen env now headers body fallback)
  obtain ⟨wait, read, same⟩ := Option.map_eq_some_iff.mp found
  obtain ⟨source, rfl⟩ := Prod.mk.inj same
  refine ⟨before, chosen, after, whole, chosen.read_eq_some.mp read, source, ?_⟩
  intro candidate member other usable
  have absent := skipped candidate member
  rw [HintCandidate.chosen, candidate.read_eq_some.mpr usable] at absent
  cases absent

theorem retryHint_capped (headers : HeaderMap) (body : Bytes) (fallback : Duration) :
    (retryHint env now headers body fallback).duration ≤ maxParsedCooldown := by
  obtain ⟨before, chosen, after, -, usable, -⟩ := retryHint_first env now headers body fallback
  exact chosen.usable_capped usable

/-- The deadlines of a cooldown that starts at this reading, as far as each clock goes. -/
def CoolsUntil (runtime : KeyRuntime) (clock : Reading) (wait : Duration) : Prop :=
  runtime.cooldownUntil =
      (if clock.mono + wait ≤ lastRepresentable then some (clock.mono + wait) else none) ∧
    runtime.cooldownUntilWall =
      some (if clock.wall + wait ≤ lastRepresentable then clock.wall + wait else clock.wall)

theorem markHttp429_coolsUntil {pool : KeyPool} {index : Nat} {wait : Duration}
    (capped : wait ≤ maxParsedCooldown) (kind : RateLimitKind) (message model : Option String)
    (clock : Reading) {key : KeyEntry} (marked :
      (pool.markHttp429 index wait kind message model clock).keys[index]? = some key) :
    CoolsUntil key.runtime clock wait := by
  rw [KeyPool.markHttp429_keys, KeyPool.getElem?_modify_key] at marked
  obtain ⟨held, -, rfl⟩ := Option.map_eq_some_iff.mp marked
  rw [if_pos rfl, CoolsUntil]
  have whole : min wait maxCooldown = wait := Nat.min_eq_left capped
  simp only [KeyPool.coolKey, whole, instantCheckedAdd, systemCheckedAdd, true_and]
  split <;> rfl

theorem retry_hint_first (headers : HeaderMap) (body : Bytes) (fallback : Duration) :
    let hint := retryHint env now headers body fallback
    FirstUsable env True now (hintCandidates env headers body fallback) hint ∧
    hint.duration ≤ maxParsedCooldown ∧
    ∀ (pool : KeyPool) (index : Nat) (kind : RateLimitKind) (message model : Option String)
      (clock : Reading) (key : KeyEntry),
      (pool.markHttp429 index hint.duration kind message model clock).keys[index]? = some key →
      CoolsUntil key.runtime clock hint.duration :=
  ⟨retryHint_first env now headers body fallback, retryHint_capped env now headers body fallback,
    fun _ _ kind message model clock _ marked =>
      markHttp429_coolsUntil (retryHint_capped env now headers body fallback) kind message model
        clock marked⟩

def pastDate : String := "Sun, 06 Nov 1994 08:49:37 GMT"

def headerBytes (text : String) : Bytes :=
  text.toList.map fun character => UInt8.ofNat character.toNat

def asciiHeader (value : Bytes) : Option String :=
  if value.all fun byte => byte == 9 || (0x20 ≤ byte && byte ≤ 0x7E) then
    some (String.ofList (value.map fun byte => Char.ofNat byte.toNat))
  else none

def datedEnv : ParseEnv where
  codec := ⟨fun _ => none, fun _ => none, fun _ => ""⟩
  headerToStr := asciiHeader
  parseHttpDate text := if text = pastDate then some (fromSecs 784111777 : Nat) else none

def datedNow : SystemTime := (fromSecs 1700000000 : Nat)

def datedHeaders : HeaderMap := [("retry-after", headerBytes pastDate)]

def datedHint : RetryHint := retryHint datedEnv datedNow datedHeaders [] (fromSecs 5)

def datedKey : KeyEntry := ⟨0, "primary", "secret", .default, 0, 0, 0⟩

def datedPool : KeyPool := ⟨[datedKey], 0, 0, false⟩

theorem retry_hint_first_dated :
    FirstUsable datedEnv True datedNow (hintCandidates datedEnv datedHeaders [] (fromSecs 5))
      datedHint ∧
    CoolsUntil (KeyPool.coolKey datedHint.duration .unknown none none ⟨5, 7⟩ datedKey).runtime
      ⟨5, 7⟩ datedHint.duration :=
  have shown := retry_hint_first datedEnv datedNow datedHeaders [] (fromSecs 5)
  ⟨shown.1, shown.2.2 datedPool 0 .unknown none none ⟨5, 7⟩ _ rfl⟩

def lastReading : Reading := ⟨lastRepresentable, lastRepresentable⟩

theorem coolsUntil_last {runtime : KeyRuntime} {wait : Duration} (positive : 0 < wait)
    (cools : CoolsUntil runtime lastReading wait) :
    runtime.cooldownUntil = none ∧ runtime.cooldownUntilWall = some lastReading.wall := by
  have mono : ¬lastReading.mono + wait ≤ lastRepresentable :=
    Nat.not_le.mpr (Nat.lt_add_of_pos_right positive)
  have wall : ¬lastReading.wall + wait ≤ lastRepresentable :=
    Int.not_le.mpr (Int.lt_add_of_pos_right _ (Int.natCast_pos.mpr positive))
  rwa [CoolsUntil, if_neg mono, if_neg wall] at cools

theorem datedCandidates : hintCandidates datedEnv datedHeaders [] (fromSecs 5) =
    [.header (headerBytes pastDate), .fallback (fromSecs 5)] := by
  have message : hintMessage datedEnv [] = none := by decide
  rw [hintCandidates, message]
  rfl

theorem datedHeader_wait {wait : Duration} (late : Prop) :
    (HintCandidate.header (headerBytes pastDate)).Usable datedEnv late datedNow wait → late := by
  rintro ⟨text, shown, waits, -⟩
  have read : datedEnv.headerToStr (headerBytes pastDate) = some pastDate := by decide
  obtain rfl : pastDate = text := Option.some_inj.mp (read.symm.trans shown)
  rcases waits with ⟨seconds, number, -⟩ | ⟨-, time, dated, ⟨ahead, -⟩ | ⟨passed, -⟩⟩
  · have noNumber : parseUnsigned u64Bound (trim pastDate.toList) = none := by decide
    rw [noNumber] at number
    cases number
  · have date : datedEnv.parseHttpDate (String.ofList (trim pastDate.toList)) =
        some ((fromSecs 784111777 : Nat) : Int) := by decide
    obtain rfl : ((fromSecs 784111777 : Nat) : Int) = time :=
      Option.some_inj.mp (date.symm.trans dated)
    exact absurd ahead (by decide)
  · exact passed

theorem retry_hint_first_fails :
    ¬FirstUsable datedEnv False datedNow (hintCandidates datedEnv datedHeaders [] (fromSecs 5))
      datedHint ∧
    (KeyPool.coolKey (fromSecs 5) .unknown none none lastReading datedKey).runtime.cooldownUntil =
      none ∧
    (KeyPool.coolKey (fromSecs 5) .unknown none none lastReading
      datedKey).runtime.cooldownUntilWall = some lastReading.wall := by
  have within : fromSecs 5 ≤ maxParsedCooldown := by decide
  have positive : 0 < fromSecs 5 := by decide
  have marked : (datedPool.markHttp429 0 (fromSecs 5) .unknown none none lastReading).keys[0]? =
    some (KeyPool.coolKey (fromSecs 5) .unknown none none lastReading datedKey) := rfl
  refine ⟨?_, coolsUntil_last positive
    (markHttp429_coolsUntil within .unknown none none lastReading marked)⟩
  rintro ⟨before, chosen, after, whole, usable, source, -⟩
  have fromHeader : datedHint.source = .retryAfter := by decide
  rw [fromHeader] at source
  have member : chosen ∈ [.header (headerBytes pastDate), .fallback (fromSecs 5)] := by
    rw [← datedCandidates, whole]
    exact List.mem_append_right _ (List.mem_cons_self ..)
  cases chosen with
  | header value =>
      obtain rfl : value = headerBytes pastDate := by simpa using member
      exact datedHeader_wait False usable
  | field name value => cases source
  | text message => cases source
  | fallback duration => cases source

end ClineProxy
