import ClineProxy.ResponsesPumpFacts
import Mathlib.Data.List.Induction

/-! The usage of the response that ends a run, and when its counts add up. -/

namespace ClineProxy

open Json ResponsesConverter

def ConverterMove.usage : ConverterMove → Option Value
  | .note chunk => (chunk.get "usage").filter Value.isObject
  | _ => none

def ConverterCall.usage : ConverterCall → Option Value
  | .feedChunk chunk => (chunk.get "usage").filter Value.isObject
  | _ => none

def lastUsage (calls : List ConverterCall) : Option Value :=
  (calls.filterMap ConverterCall.usage).getLast?

theorem callMoves_usage (call : ConverterCall) :
    (callMoves call).filterMap ConverterMove.usage = call.usage.toList := by
  have none_ {moves : List ConverterMove} (silent : ∀ move ∈ moves, move.usage = none) :
      moves.filterMap ConverterMove.usage = [] := List.filterMap_eq_nil_iff.mpr silent
  cases call with
  | feedChunk chunk =>
      have choices : ((chunkChoices chunk).flatMap choiceMoves).filterMap ConverterMove.usage =
          [] := by
        refine none_ fun move member => ?_
        obtain ⟨choice, -, made⟩ := List.mem_flatMap.mp member
        rw [choiceMoves] at made
        rcases List.mem_cons.mp made with rfl | later
        · rfl
        · cases found : choice.get "delta" with
          | none => simp [found] at later
          | some delta =>
              simp only [found, Option.map_some, Option.getD_some, deltaMoves, textMoves,
                List.mem_append, List.mem_map] at later
              rcases later with (text | text) | ⟨call, -, rfl⟩ | ⟨call, -, rfl⟩
              · split at text
                · cases text
                · rw [List.mem_singleton.mp text]
                  rfl
              · split at text
                · cases text
                · rw [List.mem_singleton.mp text]
                  rfl
              · rfl
              · rfl
      rw [callMoves, chunkMoves, List.filterMap_append, choices, List.append_nil]
      cases noted : (chunk.get "usage").filter Value.isObject with
      | none => simp [ConverterMove.usage, ConverterCall.usage, noted]
      | some usage => simp [List.filterMap_cons, ConverterMove.usage, ConverterCall.usage, noted]
  | searchRound calls outcomes =>
      refine none_ fun move member => ?_
      rcases List.mem_append.mp member with searched | last
      · obtain ⟨answered, -, rfl⟩ := List.mem_map.mp searched
        rfl
      · rw [List.mem_singleton.mp last]
        rfl
  | finish error => rfl

theorem callsMoves_usage (calls : List ConverterCall) :
    (calls.flatMap callMoves).filterMap ConverterMove.usage =
      calls.filterMap ConverterCall.usage := by
  induction calls with
  | nil => rfl
  | cons call rest ih =>
      rw [List.flatMap_cons, List.filterMap_append, callMoves_usage, ih, List.filterMap_cons]
      cases call.usage <;> rfl

namespace ResponsesConverter

variable (converter : ResponsesConverter)

theorem usage_setTextState (kind : TextKind) (state : TextItemState) :
    (converter.setTextState kind state).usage = converter.usage := by
  cases kind <;> rfl

theorem usage_ensureTextState (kind : TextKind) :
    (converter.ensureTextState kind).2.usage = converter.usage := by
  rw [ensureTextState]
  split <;> rfl

theorem usage_feedTextItem (kind : TextKind) (partFirst : TextItemState → Bool) (text : String) :
    (converter.feedTextItem kind partFirst text).1.usage = converter.usage := by
  rw [feedTextItem, emitAll_fst]
  exact (usage_setTextState ..).trans (converter.usage_ensureTextState kind)

theorem usage_closeTextItem (kind : TextKind) (closes : TextItemState → Bool) :
    (converter.closeTextItem kind closes).1.usage = converter.usage := by
  rw [closeTextItem]
  split
  next => rfl
  split
  next =>
    rw [emitAll_fst]
    exact converter.usage_setTextState kind _
  next => rfl

theorem usage_addToolSlot (call : Value) :
    (converter.addToolSlot call).1.usage = converter.usage := by
  rw [addToolSlot]
  dsimp only
  split
  next => rfl
  next => rw [emitAll_fst]

theorem usage_move (move : ConverterMove) :
    (converter.move move).1.usage = (move.usage.map mapUsage).or converter.usage := by
  cases move with
  | start =>
      rw [ResponsesConverter.move, ensureStarted]
      split
      next => rfl
      next =>
        dsimp only
        rw [emitAll_fst]
        rfl
  | note chunk | finish reason | newRound => rfl
  | reasoning text =>
      rw [ResponsesConverter.move, feedReasoning]
      split
      next => exact converter.usage_feedTextItem ..
      next => exact (usage_setTextState ..).trans (converter.usage_ensureTextState .reasoning)
  | text text => exact converter.usage_feedTextItem ..
  | register call =>
      rw [ResponsesConverter.move, ensureToolItemAdded]
      split
      next => rfl
      next =>
        refine (usage_addToolSlot _ call).trans ?_
        split
        next => exact converter.usage_closeTextItem ..
        next => rfl
  | extend call =>
      rw [ResponsesConverter.move, feedToolCallArguments]
      split
      next => rfl
      next =>
        dsimp only
        rw [emitAll_fst]
        rfl
  | searched outcome =>
      rw [ResponsesConverter.move, emitWebSearchCall, emitAll_fst]
      rfl

theorem usage_moveAll (moves : List ConverterMove) :
    (converter.moveAll moves).1.usage =
      ((moves.filterMap ConverterMove.usage).getLast?.map mapUsage).or converter.usage := by
  induction moves using List.reverseRecOn with
  | nil => rfl
  | append_singleton moves last ih =>
      rw [moveAll_snoc, List.filterMap_append]
      refine (usage_move _ last).trans ?_
      rw [ih]
      cases noted : last.usage with
      | none => simp [noted]
      | some usage => simp [noted]

theorem usage_finishTools : converter.finishTools.1.usage = converter.usage := by
  rw [finishTools, emitAll_fst]

theorem usage_finish (error : Option String) :
    (converter.finish error).1.usage = converter.usage ∧ ∃ sent response,
      (converter.finish error).events = sent ++ [.terminal response] ∧
        response.usage = converter.usage.getD ⟨0, 0, 0, 0⟩ := by
  cases error with
  | some message => exact ⟨rfl, [], _, rfl, rfl⟩
  | none =>
      let noted : ResponsesConverter := { converter with error := none }
      let closing := (noted.closeReasoningItem.andThen closeMessageItem).andThen finishTools
      have kept : closing.1.usage = converter.usage :=
        (usage_finishTools _).trans ((usage_closeTextItem ..).trans
          (noted.usage_closeTextItem ..))
      refine ⟨kept, closing.events, closing.1.successResponse,
        ResponsesEmission.events_andThen closing _, ?_⟩
      rw [← kept]
      rfl

theorem usage_nonstreamResponse :
    converter.nonstreamResponse.usage = converter.usage.getD ⟨0, 0, 0, 0⟩ := by
  rw [nonstreamResponse]
  split <;> rfl

end ResponsesConverter

/-- The total is the sum of the tokens, and the details are parts of them. -/
def Consistent (usage : Value) : Prop :=
  ∃ input output total cached reasoning : UInt64,
    usageCount (some usage) "input_tokens" = some input ∧
    usageCount (some usage) "output_tokens" = some output ∧
    usageCount (some usage) "total_tokens" = some total ∧
    usageCount (usage.get "input_tokens_details") "cached_tokens" = some cached ∧
    usageCount (usage.get "output_tokens_details") "reasoning_tokens" = some reasoning ∧
    total.toNat = input.toNat + output.toNat ∧ cached ≤ input ∧ reasoning ≤ output

theorem consistent_usageJson {usage : ResponsesUsage} :
    Consistent usage.usageJson ↔ usage.input.toNat + usage.output.toNat < 2 ^ 64 ∧
      usage.cached ≤ usage.input ∧ usage.reasoning ≤ usage.output := by
  have sum : (usage.input + usage.output).toNat = usage.input.toNat + usage.output.toNat ↔
      usage.input.toNat + usage.output.toNat < 2 ^ 64 := by
    rw [UInt64.toNat_add]
    constructor
    · intro whole
      rw [← whole]
      exact Nat.mod_lt _ (by decide)
    · exact Nat.mod_eq_of_lt
  rw [← sum]
  constructor
  · rintro ⟨input, output, total, cached, reasoning, input_, output_, total_, cached_, reasoning_,
      holds⟩
    cases input_
    cases output_
    cases total_
    cases cached_
    cases reasoning_
    exact holds
  · intro holds
    exact ⟨_, _, _, _, _, rfl, rfl, rfl, rfl, rfl, holds⟩

theorem mapUsage_parts (usage : Value) :
    (mapUsage usage).cached ≤ (mapUsage usage).input ∧
      (mapUsage usage).reasoning ≤ (mapUsage usage).output :=
  ⟨Std.min_le_right, Std.min_le_right⟩

/-- The prompt and completion tokens of a usage together, absent ones as none. -/
def reportedTokens (usage : Value) : Nat :=
  ((usageCount (some usage) "prompt_tokens").getD 0).toNat +
    ((usageCount (some usage) "completion_tokens").getD 0).toNat

/-- The usage of the response that ends a run is consistent exactly when the counts of the last
reported usage add up within 64 bits. -/
theorem responses_usage (responseId : String) (createdAt : UInt64) (model : String)
    (exposeThinking : Bool) (names : List String) (calls : List ConverterCall)
    (error : Option String) (response : ResponseObject) (unfinished : Unfinished calls) :
    let run := (withServerTools responseId createdAt model exposeThinking names).applyAll
      (calls ++ [.finish error])
    (run.events.getLast? = some (.terminal response) ∨ response = run.1.nonstreamResponse) →
      (Consistent response.usage.usageJson ↔
        ∀ usage, lastUsage calls = some usage → reportedTokens usage < 2 ^ 64) := by
  intro run ended
  let fresh := withServerTools responseId createdAt model exposeThinking names
  let before := (fresh.moveAll (calls.flatMap callMoves)).1
  have usage : before.usage = (lastUsage calls).map mapUsage := by
    refine (fresh.usage_moveAll _).trans ?_
    rw [callsMoves_usage, lastUsage]
    exact Option.or_none
  obtain ⟨kept, sent, terminal, events, known⟩ := before.usage_finish error
  have all : run.events = (fresh.moveAll (calls.flatMap callMoves)).events ++
      (before.finish error).events := finishing_events fresh unfinished error
  have reported : response.usage = ((lastUsage calls).map mapUsage).getD ⟨0, 0, 0, 0⟩ := by
    rw [← usage]
    rcases ended with streamed | collected
    · rw [all, events, ← List.append_assoc, List.getLast?_concat] at streamed
      rw [← known, ResponsesEvent.terminal.inj (Option.some.inj streamed)]
    · have last : run.1 = (before.finish error).1 := by
        change (applyAll fresh (calls ++ [.finish error])).1 = _
        rw [applyAll_append, applyAll_eq calls fresh unfinished]
        rfl
      rw [collected, usage_nonstreamResponse, last, kept]
  rw [consistent_usageJson, reported]
  cases lastUsage calls with
  | none => simp
  | some usage =>
      rw [Option.map_some, Option.getD_some]
      constructor
      · rintro ⟨within, -⟩ other same
        cases same
        exact within
      · intro within
        exact ⟨within usage rfl, mapUsage_parts usage⟩

def usageCall (prompt completion : UInt64) : ConverterCall :=
  .feedChunk (.object [("usage", .object [("prompt_tokens", .number (.posInt prompt)),
    ("completion_tokens", .number (.posInt completion))])])

theorem usageCall_unfinished (prompt completion : UInt64) :
    Unfinished [usageCall prompt completion] := by
  intro call member error
  rw [List.mem_singleton.mp member]
  nofun

theorem responses_usage_small : ∃ response,
    ((withServerTools "resp_1" 0 "glm" false []).applyAll
      ([usageCall 100 20] ++ [.finish none])).events.getLast? = some (.terminal response) ∧
      Consistent response.usage.usageJson := by
  refine ⟨_, rfl, (responses_usage "resp_1" 0 "glm" false [] [usageCall 100 20] none _
    (usageCall_unfinished 100 20) (.inl rfl)).mpr fun usage last => ?_⟩
  cases last
  decide

theorem responses_usage_wraps : ∃ response,
    ((withServerTools "resp_1" 0 "glm" false []).applyAll
      ([usageCall 18446744073709551615 1] ++ [.finish none])).events.getLast? =
        some (.terminal response) ∧
      ¬Consistent response.usage.usageJson := by
  refine ⟨_, rfl, fun consistent => ?_⟩
  exact absurd (consistent_usageJson.mp consistent).1 (by decide)

end ClineProxy
