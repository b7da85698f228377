import ClineProxy.TextBytes
import ClineProxy.WebSearch

/-! Where the grounding text of a search is cut. -/

namespace ClineProxy

open Json Text

theorem truncateBytes_eq_some {limit : Nat} {text cut : List Char} :
    truncateBytes limit text = some cut ↔ cut <+: text ∧ utf8Len cut = limit := by
  have sound {found : List Char} (kept : truncateBytes limit text = some found) :
      found <+: text ∧ utf8Len found = limit := by
    obtain ⟨count, -, taken⟩ := List.exists_of_findSome?_eq_some kept
    split at taken
    next fits =>
      cases taken
      exact ⟨List.take_prefix count text, fits⟩
    next => cases taken
  refine ⟨sound, ?_⟩
  rintro ⟨starts, fits⟩
  cases kept : truncateBytes limit text with
  | none =>
      have nowhere := List.findSome?_eq_none_iff.mp kept cut.length
        (List.mem_range.mpr (Nat.lt_succ_of_le starts.length_le))
      rw [← List.prefix_iff_eq_take.mp starts, if_pos fits] at nowhere
      cases nowhere
  | some found =>
      obtain ⟨begins, reaches⟩ := sound kept
      rw [prefixes_eq_of_utf8Len begins starts (reaches.trans fits.symm)]

theorem truncateBytes_extended {limit : Nat} {text whole : List Char} (starts : text <+: whole)
    (long : limit ≤ utf8Len text) : truncateBytes limit text = truncateBytes limit whole := by
  refine Option.ext fun cut => ?_
  rw [truncateBytes_eq_some, truncateBytes_eq_some]
  constructor
  · rintro ⟨begins, fits⟩
    exact ⟨begins.trans starts, fits⟩
  · rintro ⟨begins, fits⟩
    refine ⟨?_, fits⟩
    cases List.prefix_or_prefix_of_prefix begins starts with
    | inl shorter => exact shorter
    | inr longer =>
        have bound := utf8Len_extended longer
        exact prefix_eq_of_utf8Len longer (by omega) ▸ List.prefix_rfl

def groundingEntries (number : Nat) : List Value → List Char
  | [] => []
  | item :: rest => groundingEntry number item ++ groundingEntries (number + 1) rest

def untruncatedReplayedText (items : List Value) : List Char :=
  "Web search results:\n".toList ++ groundingEntries 1 items

def untruncatedResultText (outcome : SearchOutcome) : List Char :=
  match outcome.error with
  | some error => ("Web search failed: " ++ error.asStr).toList
  | none =>
      if outcome.results.isEmpty then "Web search returned no results.".toList
      else ("Web search results for \"" ++ outcome.query ++ "\":\n").toList ++
        groundingEntries 1 outcome.results

/-- The text is written, within the limit, and begins the whole rendering. -/
def GroundingSafe (written : Fallible String) (whole : List Char) : Prop :=
  ∃ text, written = .ok text ∧ utf8Len text.toList ≤ maxGroundingBytes ∧ text.toList <+: whole

/-- The limit is past the text or between two of its characters. -/
def CutsBetween (whole : List Char) : Prop :=
  utf8Len whole < maxGroundingBytes ∨ ∃ cut, cut <+: whole ∧ utf8Len cut = maxGroundingBytes

theorem appendGrounding_short {output : List Char} {number : Nat} {items : List Value}
    (short : utf8Len (output ++ groundingEntries number items) < maxGroundingBytes) :
    appendGrounding output number items = .ok (output ++ groundingEntries number items) := by
  induction items generalizing output number with
  | nil => simp [appendGrounding, groundingEntries]
  | cons item rest ih =>
      rw [groundingEntries, ← List.append_assoc] at short ⊢
      have fits : utf8Len (output ++ groundingEntry number item) < maxGroundingBytes :=
        Nat.lt_of_le_of_lt (utf8Len_extended (List.prefix_append _ _)) short
      simp only [appendGrounding, Nat.not_le.mpr fits, ↓reduceIte]
      exact ih short

theorem appendGrounding_long {output : List Char} {number : Nat} {items : List Value}
    (room : utf8Len output < maxGroundingBytes ∨ items ≠ [])
    (long : maxGroundingBytes ≤ utf8Len (output ++ groundingEntries number items)) :
    appendGrounding output number items =
      (truncateBytes maxGroundingBytes (output ++ groundingEntries number items)).elim
        (.error .panicked) .ok := by
  induction items generalizing output number with
  | nil =>
      simp only [groundingEntries, List.append_nil, ne_eq, not_true_eq_false, or_false] at long room
      omega
  | cons item rest ih =>
      rw [groundingEntries, ← List.append_assoc] at long ⊢
      simp only [appendGrounding]
      split
      next reached =>
        rw [truncateBytes_extended (List.prefix_append _ (groundingEntries (number + 1) rest))
          reached]
        split
        next cut kept => rw [kept, Option.elim_some]
        next kept => rw [kept, Option.elim_none]
      next below => exact ih (.inl (Nat.not_le.mp below)) long

theorem appendGrounding_safe {output : List Char} {number : Nat} {items : List Value}
    (room : utf8Len output < maxGroundingBytes ∨ items ≠ []) :
    GroundingSafe ((appendGrounding output number items).map String.ofList)
        (output ++ groundingEntries number items) ↔
      CutsBetween (output ++ groundingEntries number items) := by
  by_cases short : utf8Len (output ++ groundingEntries number items) < maxGroundingBytes
  · rw [appendGrounding_short short]
    refine iff_of_true ⟨_, rfl, ?_, ?_⟩ (.inl short)
    · rw [String.toList_ofList]
      exact Nat.le_of_lt short
    · simp only [String.toList_ofList, List.prefix_rfl]
  · rw [appendGrounding_long room (Nat.not_lt.mp short)]
    generalize output ++ groundingEntries number items = whole at short
    constructor
    · rintro ⟨text, written, -⟩
      cases kept : truncateBytes maxGroundingBytes whole with
      | none =>
          rw [kept] at written
          cases written
      | some cut => exact .inr ⟨cut, truncateBytes_eq_some.mp kept⟩
    · rintro (below | ⟨cut, starts, fits⟩)
      · exact absurd below short
      · refine ⟨String.ofList cut, ?_, ?_, ?_⟩
        · rw [truncateBytes_eq_some.mpr ⟨starts, fits⟩]
          rfl
        · rw [String.toList_ofList]
          exact Nat.le_of_eq fits
        · rwa [String.toList_ofList]

theorem grounding_fixed {text : String} (short : utf8Len text.toList < maxGroundingBytes) :
    GroundingSafe (.ok text) text.toList ↔ CutsBetween text.toList :=
  iff_of_true ⟨text, rfl, Nat.le_of_lt short, List.prefix_rfl⟩ (.inl short)

theorem failedSearch_short (error : SearchErrorCode) :
    utf8Len ("Web search failed: " ++ error.asStr).toList < maxGroundingBytes := by
  cases error <;> decide

theorem nothingFound_short :
    utf8Len "Web search returned no results.".toList < maxGroundingBytes := by
  decide

theorem replayedHeading_short :
    utf8Len "Web search results:\n".toList < maxGroundingBytes := by
  decide

theorem toolResultText_safe (outcome : SearchOutcome) :
    GroundingSafe (toolResultText outcome) (untruncatedResultText outcome) ↔
      CutsBetween (untruncatedResultText outcome) := by
  obtain ⟨query, results, error⟩ := outcome
  cases error with
  | some error => exact grounding_fixed (failedSearch_short error)
  | none =>
      cases results with
      | nil => exact grounding_fixed nothingFound_short
      | cons item rest => exact appendGrounding_safe (.inr (List.cons_ne_nil item rest))

theorem replayedResultText_safe {block : Value} {items : List Value}
    (content : block.get "content" = some (.array items)) :
    GroundingSafe (replayedResultText block) (untruncatedReplayedText items) ↔
      CutsBetween (untruncatedReplayedText items) := by
  have written : replayedResultText block =
      (appendGrounding "Web search results:\n".toList 1 items).map String.ofList := by
    rw [replayedResultText, content]
  rw [written]
  exact appendGrounding_safe (.inl replayedHeading_short)

/-! The rounds that are written into the next request -/

theorem appendGrounding_cuts {output text : List Char} {number : Nat} {items : List Value}
    (room : utf8Len output < maxGroundingBytes ∨ items ≠ [])
    (written : appendGrounding output number items = .ok text) :
    CutsBetween (output ++ groundingEntries number items) := by
  by_cases short : utf8Len (output ++ groundingEntries number items) < maxGroundingBytes
  · exact .inl short
  · rw [appendGrounding_long room (Nat.not_lt.mp short)] at written
    cases kept : truncateBytes maxGroundingBytes (output ++ groundingEntries number items) with
    | none =>
        rw [kept] at written
        cases written
    | some cut => exact .inr ⟨cut, truncateBytes_eq_some.mp kept⟩

theorem toolResultText_ok_iff (outcome : SearchOutcome) :
    (∃ text, toolResultText outcome = .ok text) ↔ CutsBetween (untruncatedResultText outcome) := by
  constructor
  · rintro ⟨text, written⟩
    obtain ⟨query, results, error⟩ := outcome
    cases error with
    | some error => exact .inl (failedSearch_short error)
    | none =>
        cases results with
        | nil => exact .inl nothingFound_short
        | cons item rest =>
            obtain ⟨cut, made, -⟩ := map_eq_ok.mp written
            exact appendGrounding_cuts (.inr (List.cons_ne_nil item rest)) made
  · intro cuts
    obtain ⟨text, written, -⟩ := (toolResultText_safe outcome).mpr cuts
    exact ⟨text, written⟩

theorem toolMessages_ok_iff (calls : List (OpenAiToolCall × SearchOutcome)) :
    (toolMessages calls).isOk = true ↔
      ∀ call ∈ calls, CutsBetween (untruncatedResultText call.2) := by
  induction calls with
  | nil => simp [toolMessages, Except.isOk, Except.toBool]
  | cons call rest ih =>
      rw [List.forall_mem_cons, ← ih, ← toolResultText_ok_iff]
      simp only [toolMessages]
      cases toolResultText call.2 with
      | error abort => simp [Bind.bind, Except.bind, Except.isOk, Except.toBool]
      | ok text =>
          cases toolMessages rest <;>
            simp [Bind.bind, Except.bind, Pure.pure, Except.pure, Except.isOk, Except.toBool]

def TakesRounds (chatBody : Value) : Prop :=
  ∃ fields messages, chatBody = .object fields ∧ Map.get "messages" fields = some (.array messages)

/-- Every result text of the round is cut between two of its characters, if at all. -/
def SearchRound.TextsCut (round : SearchRound) : Prop :=
  ∀ call ∈ round.calls.zip round.outcomes, CutsBetween (untruncatedResultText call.2)

theorem SearchRound.writable_iff (chatBody : Value) (round : SearchRound) :
    round.writable chatBody = true ↔ (TakesRounds chatBody → round.TextsCut) := by
  rw [SearchRound.writable, appendServerRound, SearchRound.TextsCut, ← toolMessages_ok_iff]
  split
  next fields messages isObject list =>
    have takes : TakesRounds chatBody := by
      obtain rfl := Value.asObject_eq_some isObject
      obtain ⟨held, stored, isArray⟩ := Option.bind_eq_some_iff.mp list
      exact ⟨fields, messages, rfl, Value.asArray_eq_some isArray ▸ stored⟩
    rw [forall_prop_of_true takes]
    cases toolMessages (round.calls.zip round.outcomes) <;> rfl
  next unlisted =>
    refine iff_of_true rfl ?_
    rintro ⟨fields, messages, rfl, stored⟩
    exact absurd (by rw [Value.get_object, show OrderedMap.lookup _ _ = _ from stored]; rfl)
      (unlisted fields messages rfl)

theorem writable_rounds_iff (chatBody : Value) (rounds : List SearchRound) :
    (∀ round ∈ rounds, round.writable chatBody = true) ↔
      (TakesRounds chatBody → ∀ round ∈ rounds, round.TextsCut) := by
  simp only [SearchRound.writable_iff]
  constructor
  · intro each takes round member
    exact each round member takes
  · intro each round member takes
    exact each takes round member

def textsShort (rounds : List SearchRound) : Bool :=
  rounds.all fun round => (round.calls.zip round.outcomes).all fun call =>
    decide (utf8Len (untruncatedResultText call.2) < maxGroundingBytes)

theorem textsCut_of_short {rounds : List SearchRound} (short : textsShort rounds = true) :
    ∀ round ∈ rounds, round.TextsCut := by
  intro round member call answered
  have each := List.all_eq_true.mp (List.all_eq_true.mp short round member) call answered
  exact .inl (of_decide_eq_true each)

theorem grounding_safe (outcome : SearchOutcome) (block : Value) :
    (GroundingSafe (toolResultText outcome) (untruncatedResultText outcome) ↔
      CutsBetween (untruncatedResultText outcome)) ∧
    ∀ items, block.get "content" = some (.array items) →
      (GroundingSafe (replayedResultText block) (untruncatedReplayedText items) ↔
        CutsBetween (untruncatedReplayedText items)) :=
  ⟨toolResultText_safe outcome, fun _ content => replayedResultText_safe content⟩

theorem utf8Len_wide (count : Nat) : utf8Len (List.replicate count '€') = 3 * count := by
  induction count with
  | zero => rfl
  | succ count ih =>
      rw [List.replicate_succ', utf8Len_append, ih]
      rfl

theorem utf8Len_take_wide {before after : List Char} {count limit : Nat}
    (apart : ∀ wide ≤ count, utf8Len before + 3 * wide ≠ limit)
    (early : utf8Len before < limit) (late : limit < utf8Len before + 3 * count) (kept : Nat) :
    utf8Len ((before ++ List.replicate count '€' ++ after).take kept) ≠ limit := by
  have parts := utf8Len_append (before.take kept) (before.drop kept)
  rw [List.take_append_drop] at parts
  have early_kept : utf8Len (before.take kept) ≠ limit := by omega
  rw [List.append_assoc, List.take_append, utf8Len_append, List.take_append, utf8Len_append,
    List.take_replicate, utf8Len_wide]
  by_cases short : kept ≤ before.length
  · have none_left : kept - before.length = 0 := by omega
    simpa [none_left, utf8Len] using early_kept
  · rw [List.take_of_length_le (by omega)]
    by_cases inside : kept - before.length ≤ count
    · have none_left : kept - before.length - (List.replicate count '€').length = 0 := by
        rw [List.length_replicate]
        omega
      rw [none_left, Nat.min_eq_left inside]
      simpa [utf8Len] using apart _ inside
    · rw [Nat.min_eq_right (by omega)]
      omega

def wideResult (count : Nat) : Value :=
  .object [("title", .string (String.ofList (List.replicate count '€')))]

def wideEnd : List Char := "\n   \n".toList

theorem groundingEntry_wide (count : Nat) : groundingEntry 1 (wideResult count) =
    "1. ".toList ++ List.replicate count '€' ++ wideEnd := by
  have title : resultField "title" (wideResult count) =
      String.ofList (List.replicate count '€') := by
    simp [resultField, wideResult, OrderedMap.lookup]
  have url : resultField "url" (wideResult count) = "" := by
    simp [resultField, wideResult, OrderedMap.lookup]
  have snippet : ((wideResult count).get "snippet").bind Value.asStr = none := by
    simp [wideResult, OrderedMap.lookup]
  have number : (toString 1).toList ++ ". ".toList = "1. ".toList := by decide
  have ending : "\n   ".toList ++ ("".toList ++ ("\n".toList ++ "".toList)) = wideEnd := by decide
  rw [groundingEntry, title, url, snippet, ← number, ← ending]
  simp only [Option.elim_none, String.toList_append, String.toList_ofList, List.append_assoc]

theorem wide_panics (count : Nat) (wide : maxGroundingBytes ≤ 3 * count) :
    toolResultText ⟨"lean", [wideResult count], none⟩ = .error .panicked := by
  have heading : utf8Len (("Web search results for \"" ++ "lean" ++ "\":\n").toList ++
      "1. ".toList) = 34 := by decide
  simp only [toolResultText, List.isEmpty_cons, Bool.false_eq_true, ↓reduceIte, appendGrounding,
    groundingEntry_wide, ← List.append_assoc]
  generalize ("Web search results for \"" ++ "lean" ++ "\":\n").toList ++ "1. ".toList =
    before at heading
  have limit : maxGroundingBytes = 32768 := rfl
  have inside (kept : Nat) := @utf8Len_take_wide before wideEnd count maxGroundingBytes
    (fun more _ => by omega) (by omega) (by omega) kept
  have long : maxGroundingBytes ≤ utf8Len (before ++ List.replicate count '€' ++ wideEnd) := by
    rw [utf8Len_append, utf8Len_append, utf8Len_wide]
    omega
  have cut : truncateBytes maxGroundingBytes (before ++ List.replicate count '€' ++ wideEnd) =
      none := by
    simp only [truncateBytes, List.findSome?_eq_none_iff, inside, ↓reduceIte, implies_true]
  rw [if_pos long, cut]
  rfl

theorem groundingEntries_wide (count : Nat) : groundingEntries 1 [wideResult count] =
    "1. ".toList ++ List.replicate count '€' ++ wideEnd := by
  rw [groundingEntries, groundingEntries, List.append_nil, groundingEntry_wide]

theorem wide_cutsBetween {heading : List Char} {count kept : Nat} (inside : kept ≤ count)
    (reaches : utf8Len heading + 3 + 3 * kept = maxGroundingBytes) :
    CutsBetween (heading ++ groundingEntries 1 [wideResult count]) := by
  have number : utf8Len "1. ".toList = 3 := by decide
  rw [groundingEntries_wide]
  generalize "1. ".toList = first at number
  refine .inr ⟨heading ++ (first ++ List.replicate kept '€'), ?_, ?_⟩
  · obtain ⟨more, rfl⟩ := Nat.exists_eq_add_of_le inside
    rw [List.replicate_add]
    simp only [List.append_assoc, List.prefix_append_right_inj]
    exact List.prefix_append _ _
  · rw [utf8Len_append, utf8Len_append, utf8Len_wide, number]
    omega

theorem wide_length (heading : List Char) (count : Nat) :
    3 * count ≤ utf8Len (heading ++ groundingEntries 1 [wideResult count]) := by
  rw [groundingEntries_wide, utf8Len_append, utf8Len_append, utf8Len_append, utf8Len_wide]
  omega

theorem grounding_safe_wide :
    GroundingSafe (toolResultText ⟨"lean4", [wideResult 11000], none⟩)
        (untruncatedResultText ⟨"lean4", [wideResult 11000], none⟩) ∧
      GroundingSafe (replayedResultText (.object [("content", .array [wideResult 11000])]))
        (untruncatedReplayedText [wideResult 11000]) ∧
      maxGroundingBytes < utf8Len (untruncatedReplayedText [wideResult 11000]) := by
  obtain ⟨searched, replayed⟩ := grounding_safe ⟨"lean4", [wideResult 11000], none⟩
    (.object [("content", .array [wideResult 11000])])
  have shown : utf8Len ("Web search results for \"" ++ "lean4" ++ "\":\n").toList = 32 := by decide
  have again : utf8Len "Web search results:\n".toList = 20 := by decide
  refine ⟨searched.mpr ?_, (replayed [wideResult 11000] rfl).mpr ?_, ?_⟩
  · exact wide_cutsBetween (show 10911 ≤ 11000 by omega) (by rw [shown]; rfl)
  · exact wide_cutsBetween (show 10915 ≤ 11000 by omega) (by rw [again]; rfl)
  · exact Nat.lt_of_lt_of_le (show maxGroundingBytes < 3 * 11000 by decide) (wide_length _ 11000)

theorem grounding_safe_fails :
    ¬ ∀ outcome, GroundingSafe (toolResultText outcome) (untruncatedResultText outcome) := by
  intro safe
  obtain ⟨text, written, -⟩ := safe ⟨"lean", [wideResult 11000], none⟩
  rw [wide_panics 11000 (by decide)] at written
  cases written

end ClineProxy
