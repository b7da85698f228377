import ClineProxy.PrefixChecks
import ClineProxy.PromptPrivacy

/-! What the policy removes from the messages of a request, and what it keeps of them. -/

namespace ClineProxy

open Json Positions

def shownText : Option Value → String
  | some (.string text) => text
  | some (.array parts) => String.join (parts.filterMap plainBlockText)
  | _ => ""

def otherParts : Option Value → List Value
  | some (.array parts) => parts.filter fun part => (plainBlockText part).isNone
  | _ => []

theorem isEmptyText_eq (block : Value) :
    isEmptyText block = decide (plainBlockText block = some "") := by
  rw [isEmptyText, plainBlockText, Bool.eq_iff_iff]
  split
  next isText => simp [isText]
  next other => simp [other]

theorem join_kept (blocks : List Value) :
    String.join ((blocks.filter fun block => !isEmptyText block).filterMap plainBlockText) =
      String.join (blocks.filterMap plainBlockText) := by
  induction blocks with
  | nil => rfl
  | cons block rest ih =>
      rw [List.filter_cons, isEmptyText_eq]
      by_cases empty : plainBlockText block = some ""
      · rw [if_neg (by simp [empty]), ih, List.filterMap_cons_some empty, String.join_cons]
        simp
      · rw [if_pos (by simpa using empty)]
        cases said : plainBlockText block with
        | none => rw [List.filterMap_cons_none said, List.filterMap_cons_none said, ih]
        | some text =>
            rw [List.filterMap_cons_some said, List.filterMap_cons_some said, String.join_cons,
              ih, String.join_cons]

theorem others_kept (blocks : List Value) :
    ((blocks.filter fun block => !isEmptyText block).filter fun block =>
        (plainBlockText block).isNone) =
      blocks.filter fun block => (plainBlockText block).isNone := by
  rw [List.filter_filter]
  refine List.filter_congr fun block _ => ?_
  rw [isEmptyText_eq]
  cases plainBlockText block <;> simp

theorem shownText_compactBlocks (blocks : List Value) :
    shownText (some (compactBlocks blocks)) = shownText (some (.array blocks)) := by
  have kept := join_kept blocks
  rw [compactBlocks]
  split
  next none_left => simpa [none_left, shownText] using kept
  next block one =>
    rw [one] at kept
    split
    next text said => simpa [shownText, said] using kept
    next => exact kept
  next left => exact kept

theorem otherParts_compactBlocks (blocks : List Value) :
    otherParts (some (compactBlocks blocks)) = otherParts (some (.array blocks)) := by
  have kept := others_kept blocks
  rw [compactBlocks]
  split
  next none_left => simpa [none_left, otherParts] using kept
  next block one =>
    rw [one] at kept
    split
    next text said => simpa [otherParts, said] using kept
    next => exact kept
  next left => exact kept

theorem compactBlocks_again {blocks kept : List Value}
    (left : compactBlocks blocks = .array kept) : compactBlocks kept = .array kept := by
  have twice : (blocks.filter fun block => !isEmptyText block).filter
      (fun block => !isEmptyText block) = blocks.filter fun block => !isEmptyText block := by
    simp
  rw [compactBlocks] at left
  split at left
  next => cases left
  next block one =>
    split at left
    next => cases left
    next other =>
      cases left
      rw [one] at twice
      rw [compactBlocks, twice]
      simp only [other]
  next many none_left one =>
    cases left
    rw [compactBlocks, twice]
    split
    next empty => exact absurd empty none_left
    next block single => exact absurd single (one block)
    next => rfl

/-- What a pass may change of a message: the form of its content, and its reasoning. -/
structure SaysTheSame (before after : Value) : Prop where
  text : shownText (after.get "content") = shownText (before.get "content")
  parts : otherParts (after.get "content") = otherParts (before.get "content")
  plain : (∀ parts, before.get "content" ≠ some (.array parts)) →
    after.get "content" = before.get "content"
  members : ∀ key, key ≠ "content" → key ≠ "reasoning_content" → after.get key = before.get key

theorem SaysTheSame.refl (message : Value) : SaysTheSame message message :=
  ⟨rfl, rfl, fun _ => rfl, fun _ _ _ => rfl⟩

theorem SaysTheSame.trans {first second third : Value} (begun : SaysTheSame first second)
    (later : SaysTheSame second third) : SaysTheSame first third where
  text := later.text.trans begun.text
  parts := later.parts.trans begun.parts
  plain := fun notParts => by
    have same := begun.plain notParts
    exact (later.plain (same ▸ notParts)).trans same
  members := fun key notContent notReasoning =>
    (later.members key notContent notReasoning).trans (begun.members key notContent notReasoning)

theorem SaysTheSame.role {before after : Value} (same : SaysTheSame before after) :
    ClineProxy.role after = ClineProxy.role before :=
  congrArg (Option.bind · Value.asStr) (same.members "role" (by decide) (by decide))

theorem saysTheSame_remove {fields : Map} (distinct : fields.Distinct) :
    SaysTheSame (.object fields) (.object (fields.remove "reasoning_content")) := by
  have kept (key : String) (other : key ≠ "reasoning_content") :
      (fields.remove "reasoning_content").get key = fields.get key :=
    Map.get_remove distinct other
  have content := kept "content" (by decide)
  exact ⟨congrArg shownText content, congrArg otherParts content, fun _ => content,
    fun key _ other => kept key other⟩

theorem saysTheSame_compact (fields : Map) :
    SaysTheSame (.object fields) (.object (compactContent fields)) := by
  rw [compactContent]
  split
  next blocks found =>
    have content : (fields.insert "content" (compactBlocks blocks)).get "content" =
        some (compactBlocks blocks) := by rw [Map.get_insert, if_pos rfl]
    have before : (Value.object fields).get "content" = some (.array blocks) := found
    have after : (Value.object (fields.insert "content" (compactBlocks blocks))).get "content" =
        some (compactBlocks blocks) := content
    refine ⟨?_, ?_, fun notParts => absurd before (notParts blocks), fun key other _ => ?_⟩
    · rw [after, before, shownText_compactBlocks]
    · rw [after, before, otherParts_compactBlocks]
    · exact (Map.get_insert "content" key _ fields).trans (if_neg other)
  next => exact SaysTheSame.refl _

theorem compactContent_again (fields : Map) :
    compactContent (compactContent fields) = compactContent fields := by
  rw [compactContent]
  split
  next kept found =>
    refine (Map.insert_eq_self found).mpr ?_
    rw [compactContent] at found
    split at found
    next blocks held =>
      rw [Map.get_insert, if_pos rfl] at found
      exact compactBlocks_again (Option.some.inj found)
    next other => exact absurd found (other kept)
  next => rfl

section Pass

variable (glm : Glm53Config) (boundary index : Nat)

/-- Whether the pass removes the reasoning of a message. -/
def strips (message : Value) : Bool :=
  glm.reasoning.stripHistoricalThinking && role message == some "assistant" &&
    decide (index < boundary)

def stripped (fields : Map) : Map :=
  if strips glm boundary index (.object fields) then fields.remove "reasoning_content" else fields

theorem optimizeMessage_object (fields : Map) :
    optimizeMessage glm boundary index (.object fields) =
      .object (if glm.context.safeCompaction then compactContent (stripped glm boundary index fields)
        else stripped glm boundary index fields) := rfl

theorem saysTheSame_stripped {fields : Map} (distinct : fields.Distinct) :
    SaysTheSame (.object fields) (.object (stripped glm boundary index fields)) := by
  rw [stripped]
  split
  next => exact saysTheSame_remove distinct
  next => exact SaysTheSame.refl _

theorem saysTheSame_optimizeMessage {message : Value} (distinct : message.Distinct) :
    SaysTheSame message (optimizeMessage glm boundary index message) := by
  cases message with
  | object fields =>
      have first := saysTheSame_stripped glm boundary index distinct.1
      rw [optimizeMessage_object]
      split
      next => exact first.trans (saysTheSame_compact _)
      next => exact first
  | null | bool | number | string | array => exact SaysTheSame.refl _

theorem get_stripped {fields : Map} (distinct : fields.Distinct) :
    (stripped glm boundary index fields).get "reasoning_content" =
      if strips glm boundary index (.object fields) then none
      else fields.get "reasoning_content" := by
  rw [stripped]
  split
  next => exact Map.get_remove_self distinct _
  next => rfl

theorem reasoning_optimizeMessage {message : Value} (distinct : message.Distinct) :
    (optimizeMessage glm boundary index message).get "reasoning_content" =
      if strips glm boundary index message then none else message.get "reasoning_content" := by
  cases message with
  | object fields =>
      have removed := get_stripped glm boundary index distinct.1
      rw [optimizeMessage_object]
      split
      next => exact (get_compactContent (by decide)).trans removed
      next => exact removed
  | null | bool | number | string | array => exact (ite_self none).symm

theorem optimizeMessage_stripped {fields : Map}
    (bare : strips glm boundary index (.object fields) = true →
      fields.get "reasoning_content" = none) :
    optimizeMessage glm boundary index (.object fields) =
      .object (if glm.context.safeCompaction then compactContent fields else fields) := by
  have same : stripped glm boundary index fields = fields := by
    rw [stripped]
    split
    next strip => exact Map.remove_absent (bare strip)
    next => rfl
  rw [optimizeMessage_object, same]

theorem optimizeMessage_again {message : Value} (distinct : message.Distinct) :
    optimizeMessage glm boundary index (optimizeMessage glm boundary index message) =
      optimizeMessage glm boundary index message := by
  have reasoning := reasoning_optimizeMessage glm boundary index distinct
  have speaker := (saysTheSame_optimizeMessage glm boundary index distinct).role
  cases message with
  | object fields =>
      rw [optimizeMessage_object] at reasoning speaker ⊢
      rw [optimizeMessage_stripped]
      · split
        next => rw [compactContent_again]
        next => rfl
      · intro again
        have before : strips glm boundary index (.object fields) = true := by
          rw [strips, speaker] at again
          exact again
        rw [if_pos before] at reasoning
        exact reasoning
  | null | bool | number | string | array => rfl

end Pass

theorem distinctItems_mem {items : List Value} (distinct : DistinctItems items) :
    ∀ item ∈ items, item.Distinct := by
  induction items with
  | nil => simp
  | cons item rest ih =>
      intro other member
      rcases List.mem_cons.mp member with rfl | later
      · exact distinct.1
      · exact ih distinct.2 other later

variable (glm : Glm53Config) {messages : List Value}

theorem getElem?_optimizeMessages (index : Nat) : (optimizeMessages glm messages)[index]? =
    messages[index]?.map (optimizeMessage glm (epochBoundary messages) index) :=
  List.getElem?_mapIdx

theorem epochBoundary_mapIdx (pass : Nat → Value → Value)
    (kept : ∀ index, ∀ message ∈ messages, role (pass index message) = role message) :
    epochBoundary (messages.mapIdx pass) = epochBoundary messages := by
  have users : (messages.mapIdx pass).map isUser = messages.map isUser := by
    refine List.ext_getElem? fun index => ?_
    rw [List.getElem?_map, List.getElem?_mapIdx, List.getElem?_map]
    cases there : messages[index]? with
    | none => rfl
    | some message =>
        have same := kept index message (List.mem_of_getElem? there)
        simp [isUser, same]
  have positions (items : List Value) :
      rposition isUser items = rposition id (items.map isUser) :=
    (rposition_map isUser id isUser items fun _ _ => rfl).symm
  rw [epochBoundary, epochBoundary, positions, positions, users, List.length_mapIdx]

theorem optimizeMessages_again (distinct : DistinctItems messages) :
    optimizeMessages glm (optimizeMessages glm messages) = optimizeMessages glm messages := by
  have boundary : epochBoundary (optimizeMessages glm messages) = epochBoundary messages :=
    epochBoundary_mapIdx _ fun index message member =>
      (saysTheSame_optimizeMessage glm _ index (distinctItems_mem distinct message member)).role
  refine List.ext_getElem? fun index => ?_
  rw [getElem?_optimizeMessages, boundary, getElem?_optimizeMessages]
  cases there : messages[index]? with
  | none => rfl
  | some message =>
      have known := distinctItems_mem distinct message (List.mem_of_getElem? there)
      rw [Option.map_some, Option.map_some, optimizeMessage_again glm _ index known]

/-- The messages keep their number, their order and what they say, and a second pass changes
nothing. -/
theorem compaction_lossless (distinct : DistinctItems messages) :
    (optimizeMessages glm messages).length = messages.length ∧
      (∀ (index : Nat) (before after : Value), messages[index]? = some before →
        (optimizeMessages glm messages)[index]? = some after → SaysTheSame before after) ∧
      optimizeMessages glm (optimizeMessages glm messages) = optimizeMessages glm messages := by
  refine ⟨List.length_mapIdx, fun index before after first second => ?_,
    optimizeMessages_again glm distinct⟩
  have known := distinctItems_mem distinct before (List.mem_of_getElem? first)
  rw [getElem?_optimizeMessages, first, Option.map_some, Option.some.injEq] at second
  exact second ▸ saysTheSame_optimizeMessage glm _ index known

def textPart (text : String) : Value := .object [("type", .string "text"), ("text", .string text)]

def partedHistory : List Value :=
  [.object [("role", .string "user"), ("content", .array [textPart "", textPart "a", textPart "b"])],
    .object [("role", .string "assistant"), ("content", .array [textPart "c"]),
      ("reasoning_content", .string "r")],
    .object [("role", .string "user"), ("content", .array [])]]

theorem partedHistory_distinct : DistinctItems partedHistory := by
  simp [partedHistory, textPart, DistinctItems, DistinctMembers, Value.Distinct, Map.Distinct]

theorem compaction_lossless_parted :
    (optimizeMessages (plainConfig true).glm53 partedHistory).length = 3 ∧
      optimizeMessages (plainConfig true).glm53
          (optimizeMessages (plainConfig true).glm53 partedHistory) =
        optimizeMessages (plainConfig true).glm53 partedHistory :=
  have lossless := compaction_lossless (plainConfig true).glm53 partedHistory_distinct
  ⟨lossless.1, lossless.2.2⟩

/-- Reasoning is removed from the assistant messages before a user message, when that is enabled,
and from no other. -/
def StripsEarlierEpochs (glm : Glm53Config) (messages : List Value) : Prop :=
  ∀ (index : Nat) (before after : Value), messages[index]? = some before →
    (optimizeMessages glm messages)[index]? = some after →
      after.get "reasoning_content" =
          (if glm.reasoning.stripHistoricalThinking = true ∧ role before = some "assistant" ∧
              (messages.drop (index + 1)).any isUser = true then none
            else before.get "reasoning_content") ∧
        ∀ key, key ≠ "content" → key ≠ "reasoning_content" → after.get key = before.get key

theorem before_boundary {index : Nat} {message : Value} (there : messages[index]? = some message)
    (other : isUser message = false) : decide (index < epochBoundary messages) =
      ((messages.drop (index + 1)).any isUser || !(messages.take index).any isUser) := by
  obtain ⟨below, held⟩ := List.getElem?_eq_some_iff.mp there
  have whole : messages.take index ++ message :: messages.drop (index + 1) = messages := by
    rw [← held, List.getElem_cons_drop, List.take_append_drop]
  have around := @rposition_around _ isUser (messages.take index) (messages.drop (index + 1))
    message other
  have length : (messages.take index).length = index := List.length_take_of_le (by omega)
  dsimp only at around
  rwa [whole, length] at around

theorem strips_at {index : Nat} {message : Value} (there : messages[index]? = some message) :
    strips glm (epochBoundary messages) index message =
      (glm.reasoning.stripHistoricalThinking && role message == some "assistant" &&
        ((messages.drop (index + 1)).any isUser || !(messages.take index).any isUser)) := by
  rw [strips]
  by_cases assistant : role message = some "assistant"
  · have other : isUser message = false := by simp [isUser, assistant]
    rw [before_boundary there other]
  · have other : (role message == some "assistant") = false := by simpa using assistant
    rw [other, Bool.and_false, Bool.false_and, Bool.false_and]

theorem epochs_stripped (distinct : DistinctItems messages) :
    StripsEarlierEpochs glm messages ↔
      glm.reasoning.stripHistoricalThinking = false ∨ messages.any isUser = true ∨
        ∀ message ∈ messages, role message = some "assistant" →
          message.get "reasoning_content" = none := by
  have passed {index : Nat} {before after : Value} (first : messages[index]? = some before)
      (second : (optimizeMessages glm messages)[index]? = some after) :
      before.Distinct ∧ after = optimizeMessage glm (epochBoundary messages) index before := by
    rw [getElem?_optimizeMessages, first, Option.map_some, Option.some.injEq] at second
    exact ⟨distinctItems_mem distinct before (List.mem_of_getElem? first), second.symm⟩
  constructor
  · intro earlier
    by_cases enabled : glm.reasoning.stripHistoricalThinking = false
    · exact .inl enabled
    by_cases human : messages.any isUser = true
    · exact .inr (.inl human)
    refine .inr (.inr fun message member assistant => ?_)
    obtain ⟨index, first⟩ := List.getElem?_of_mem member
    have second := @getElem?_optimizeMessages glm messages index
    rw [first, Option.map_some] at second
    obtain ⟨known, -⟩ := passed first second
    have kept := (earlier index message _ first second).1
    have nobody := List.any_eq_false.mp (Bool.eq_false_iff.mpr human)
    have none_later : (messages.drop (index + 1)).any isUser = false :=
      List.any_eq_false.mpr fun other later => nobody other (List.mem_of_mem_drop later)
    have none_before : (messages.take index).any isUser = false :=
      List.any_eq_false.mpr fun other before => nobody other (List.mem_of_mem_take before)
    have strip : strips glm (epochBoundary messages) index message = true := by
      rw [strips_at glm first, none_before, assistant]
      simpa using enabled
    rw [reasoning_optimizeMessage glm _ index known, if_pos strip, none_later,
      if_neg (by simp)] at kept
    exact kept.symm
  · intro condition index before after first second
    obtain ⟨known, rfl⟩ := passed first second
    refine ⟨?_, (saysTheSame_optimizeMessage glm _ index known).members⟩
    rw [reasoning_optimizeMessage glm _ index known, strips_at glm first]
    by_cases history : glm.reasoning.stripHistoricalThinking = true ∧
        role before = some "assistant" ∧ (messages.drop (index + 1)).any isUser = true
    · rw [if_pos history, if_pos (by simp [history])]
    · rw [if_neg history]
      split
      next strip =>
        simp only [Bool.and_eq_true, beq_iff_eq, Bool.or_eq_true, Bool.not_eq_true'] at strip
        obtain ⟨⟨enabled, assistant⟩, later | none_before⟩ := strip
        · exact absurd ⟨enabled, assistant, later⟩ history
        · rcases condition with disabled | human | bare
          · simp [disabled] at enabled
          · have around : before :: messages.drop (index + 1) = messages.drop index := by
              obtain ⟨below, held⟩ := List.getElem?_eq_some_iff.mp first
              rw [← held, List.getElem_cons_drop]
            rw [← List.take_append_drop index messages, List.any_append, none_before,
              Bool.false_or, ← around, List.any_cons] at human
            have other : isUser before = false := by simp [isUser, assistant]
            rw [other, Bool.false_or] at human
            exact absurd ⟨enabled, assistant, human⟩ history
          · exact (bare before (List.mem_of_getElem? first) assistant).symm
      next => rfl

theorem epochs_stripped_parted : StripsEarlierEpochs (plainConfig true).glm53 partedHistory :=
  (epochs_stripped (plainConfig true).glm53 partedHistory_distinct).mpr
    (.inr (.inl (by decide +kernel)))

def userlessHistory : List Value :=
  [.object [("role", .string "assistant"), ("reasoning_content", .string "r"),
      ("tool_calls", .array [wholeCall 0 "call_0" "f" "\x7b\x7d"])],
    .object [("role", .string "tool"), ("tool_call_id", .string "call_0"),
      ("content", .string "done")]]

theorem epochs_stripped_fails : ¬StripsEarlierEpochs (plainConfig true).glm53 userlessHistory := by
  intro earlier
  have kept := (earlier 0 _ _ rfl rfl).1
  have later : ¬(userlessHistory.drop (0 + 1)).any isUser = true := by decide +kernel
  rw [if_neg fun all => later all.2.2] at kept
  cases kept

end ClineProxy
