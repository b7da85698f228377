import ClineProxy.ShadowAnswers
import ClineProxy.ShadowSlots
import ClineProxy.ShadowStreams

/-! Whether the three paths commit alike what they have read alike. -/

namespace ClineProxy

open Json

/-- All paths do the same: they store the reasoning of the last generation under the ids of its
calls, and clear when it has made none. -/
structure CommitRule (generations : Generations) (streamed answered slotted : ShadowAction) :
    Prop where
  first : streamed.Alike answered
  second : answered.Alike slotted
  stores : allCalls generations.current ≠ [] → reasoningOf generations.current ≠ "" →
    ∃ ids, ids ≠ [] ∧ answered.Alike (.store ids (reasoningOf generations.current))
  clears : allCalls generations.current = [] → answered.Alike .clear

variable {commits : Bool} {generations : Generations}

theorem CommitRule.of_alike {streamed answered slotted first second third : ShadowAction}
    (streams : streamed.Alike first) (answers : answered.Alike second)
    (slots : slotted.Alike third) (rule : CommitRule generations first second third) :
    CommitRule generations streamed answered slotted where
  first := streams.trans (rule.first.trans answers.symm)
  second := answers.trans (rule.second.trans slots.symm)
  stores := fun called thought => by
    obtain ⟨ids, named, stored⟩ := rule.stores called thought
    exact ⟨ids, named, answers.trans stored⟩
  clears := fun uncalled => answers.trans (rule.clears uncalled)

namespace ShadowAction

variable {first second : List String} {reasoning thought : String}

theorem not_alike_clear : ¬Alike (store first reasoning) clear := settled_store_ne_clear _ _

theorem not_keep_alike_clear : ¬Alike keep clear := fun alike => by cases alike

theorem alike_keep_iff : Alike (store first reasoning) keep ↔ first = [] ∨ reasoning = "" := by
  constructor
  · intro alike
    by_contra kept
    rw [not_or] at kept
    rw [Alike, settled_store kept.1 kept.2] at alike
    cases alike
  · intro less
    rw [Alike, settled_keep less]
    exact .keep

theorem alike_store_iff (called : first ≠ []) (thinks : reasoning ≠ "") :
    Alike (store first reasoning) (store second thought) ↔
      first.Perm second ∧ thought = reasoning := by
  constructor
  · intro alike
    rw [Alike, settled_store called thinks, settled] at alike
    split at alike
    next => cases alike
    next =>
      cases alike with
      | store ids => exact ⟨ids, rfl⟩
  · rintro ⟨ids, rfl⟩
    exact alike_store ids thought

end ShadowAction

section Decide

open ShadowAction Generations

theorem aggregatedIds_eq_nil {values : List Value} :
    aggregatedIds values = [] ↔ usableIndexes values = [] := List.map_eq_nil_iff

theorem usableIndexes_uncalled {values : List Value} (uncalled : allCalls values = []) :
    usableIndexes values = [] := by
  rw [usableIndexes, uncalled]
  rfl

theorem reasoningOf_all (generations : Generations) : reasoningOf generations.all =
    reasoningOf generations.earlier.flatten ++ reasoningOf generations.current :=
  reasoningOf_append _ _

theorem all_silent (silent : reasoningOf generations.current = "") :
    reasoningOf generations.all = reasoningOf generations.earlier.flatten := by
  rw [reasoningOf_all, silent, String.append_empty]

theorem all_eq_current : reasoningOf generations.all = reasoningOf generations.current ↔
    reasoningOf generations.earlier.flatten = "" := by
  rw [reasoningOf_all, ← String.toList_inj, String.toList_append, List.append_left_eq_self,
    ← String.toList_inj]
  rfl

theorem slot_alike_clear :
    generations.slotAction.Alike .clear ↔
      choicesFinish generations.current ≠ some "tool_calls" := by
  rw [slotAction]
  split
  next called => exact iff_of_false not_alike_clear (not_not.mpr called)
  next uncalled => exact iff_of_true (Alike.refl _) uncalled

theorem slot_alike_keep :
    generations.slotAction.Alike .keep ↔ choicesFinish generations.current = some "tool_calls" ∧
      (slotIds generations.current = [] ∨ plainReasoning generations.all = "") := by
  rw [slotAction]
  split
  next called => simp [called, alike_keep_iff]
  next uncalled =>
    exact iff_of_false (fun alike => not_keep_alike_clear alike.symm) (by simp [uncalled])

theorem slot_alike_store {ids : List String} {reasoning : String} (named : ids ≠ [])
    (thought : reasoning ≠ "") : (ShadowAction.store ids reasoning).Alike generations.slotAction ↔
      choicesFinish generations.current = some "tool_calls" ∧
        ids.Perm (slotIds generations.current) ∧ plainReasoning generations.all = reasoning := by
  rw [slotAction]
  split
  next called => simp [called, alike_store_iff named thought]
  next uncalled => exact iff_of_false not_alike_clear (by simp [uncalled])

theorem streamed_alike_clear :
    (generations.streamedAction commits).Alike .clear ↔
      commits = true ∧ allCalls generations.current = [] := by
  rw [streamedAction]
  cases commits with
  | false => exact iff_of_false not_keep_alike_clear (by simp)
  | true =>
      rw [if_neg (by simp)]
      split
      next uncalled => exact iff_of_true (Alike.refl _) ⟨rfl, uncalled⟩
      next called => exact iff_of_false not_alike_clear (by simp [called])

theorem streamed_alike_keep (called : allCalls generations.current ≠ []) :
    (generations.streamedAction commits).Alike .keep ↔ (commits = true →
      streamedIds generations.current = [] ∨ reasoningOf generations.all = "") := by
  rw [streamedAction]
  cases commits with
  | false => exact iff_of_true (Alike.refl _) (by simp)
  | true =>
      rw [if_neg (by simp), if_neg called, alike_keep_iff]
      simp

theorem streamed_alike_store {ids : List String} {reasoning : String} (named : ids ≠ [])
    (thought : reasoning ≠ "") (called : allCalls generations.current ≠ []) :
    (ShadowAction.store ids reasoning).Alike (generations.streamedAction commits) ↔ commits = true ∧
      ids.Perm (streamedIds generations.current) ∧ reasoningOf generations.all = reasoning := by
  rw [streamedAction]
  cases commits with
  | false =>
      refine iff_of_false (fun alike => ?_) (by simp)
      rcases alike_keep_iff.mp alike with unnamed | silent
      · exact named unnamed
      · exact thought silent
  | true =>
      rw [if_neg (by simp), if_neg called, alike_store_iff named thought]
      simp

theorem commitsAlike_of_rule (rule : CommitRule generations (generations.streamedAction commits)
    generations.aggregatedAction generations.slotAction) : CommitsAlike commits generations := by
  have streams := rule.first
  have slots := rule.second
  rw [aggregatedAction] at streams slots
  by_cases unused : usableIndexes generations.current = []
  · rw [if_pos unused] at streams slots
    obtain ⟨does, uncalled⟩ := streamed_alike_clear.mp streams
    exact .cleared does (slot_alike_clear.mp slots.symm) uncalled
  · have named := mt aggregatedIds_eq_nil.mp unused
    have called : allCalls generations.current ≠ [] := mt usableIndexes_uncalled unused
    rw [if_neg unused] at streams slots
    by_cases silent : reasoningOf generations.current = ""
    · have keeps : (ShadowAction.store (aggregatedIds generations.current)
          (reasoningOf generations.current)).Alike .keep := alike_keep_iff.mpr (.inr silent)
      obtain ⟨reason, slotted⟩ := slot_alike_keep.mp (slots.symm.trans keeps)
      have streamed := (streamed_alike_keep called).mp (streams.trans keeps)
      rw [all_silent silent] at streamed
      exact .kept reason unused silent streamed slotted
    · obtain ⟨reason, slotted, plain⟩ := (slot_alike_store named silent).mp slots
      obtain ⟨does, streamed, all⟩ :=
        (streamed_alike_store named silent called).mp streams.symm
      exact .stored does reason silent (all_eq_current.mp all) plain unused streamed.symm slotted

theorem rule_of_commitsAlike (alike : CommitsAlike commits generations) :
    CommitRule generations (generations.streamedAction commits) generations.aggregatedAction
      generations.slotAction := by
  cases alike with
  | stored does reason thought before plain used streamed slotted =>
      have named := mt aggregatedIds_eq_nil.mp used
      have called : allCalls generations.current ≠ [] := mt usableIndexes_uncalled used
      have answered : generations.aggregatedAction = .store (aggregatedIds generations.current)
          (reasoningOf generations.current) := by rw [aggregatedAction, if_neg used]
      have streams := (streamed_alike_store named thought called).mpr
        ⟨does, streamed.symm, all_eq_current.mpr before⟩
      have slots := (slot_alike_store named thought).mpr ⟨reason, slotted, plain⟩
      rw [answered]
      exact ⟨streams.symm, slots, fun _ _ => ⟨_, named, Alike.refl _⟩,
        fun uncalled => absurd uncalled called⟩
  | cleared does reason uncalled =>
      have answered : generations.aggregatedAction = .clear := by
        rw [aggregatedAction, if_pos (usableIndexes_uncalled uncalled)]
      rw [answered]
      exact ⟨streamed_alike_clear.mpr ⟨does, uncalled⟩, (slot_alike_clear.mpr reason).symm,
        fun called => absurd uncalled called, fun _ => Alike.refl _⟩
  | kept reason used silent streamed slotted =>
      have called : allCalls generations.current ≠ [] := mt usableIndexes_uncalled used
      have answered : generations.aggregatedAction.Alike .keep := by
        rw [aggregatedAction, if_neg used]
        exact alike_keep_iff.mpr (.inr silent)
      rw [← all_silent silent] at streamed
      exact ⟨((streamed_alike_keep called).mpr streamed).trans answered.symm,
        answered.trans (slot_alike_keep.mpr ⟨reason, slotted⟩).symm,
        fun _ thought => absurd silent thought, fun uncalled => absurd uncalled called⟩

end Decide

/-- Three complete runs that have read the same commit by one rule just when the condition on what
they have read holds. -/
theorem shadow_commits_alike {platform : Platform} {streamed : StreamRun} {answered : NonStreamRun}
    {pumped : PumpRun} {generations : Generations} (eligible : Bool)
    (hidden : streamed.exposeThinking = false) (streams : streamed.complete platform)
    (answers : answered.complete platform) (slots : pumped.complete platform.codec)
    (streamRead : streamed.generations platform = generations)
    (answerRead : answered.generations platform = generations)
    (slotRead : pumped.generations platform.codec = generations) :
    CommitRule generations (streamed.shadowAction platform eligible)
        (answered.shadowAction platform) (pumped.shadowAction platform.codec) ↔
      CommitsAlike (streamed.commits platform eligible) generations := by
  have first := @StreamRun.shadowAction_alike platform eligible streamed hidden streams
  have second := NonStreamRun.shadowAction_alike answers
  have third := PumpRun.shadowAction_alike slots
  rw [streamRead] at first
  rw [answerRead] at second
  rw [slotRead] at third
  exact ⟨fun rule => commitsAlike_of_rule (rule.of_alike first.symm second.symm third.symm),
    fun alike => (rule_of_commitsAlike alike).of_alike first second third⟩

def thinkingChunks (field : String) : List Value := [
  chunkOf [(field, .string "hm")] [],
  chunkOf [("tool_calls", .array [.object [("id", .string "c"),
    ("function", .object [("name", .string "f")])]])] [],
  chunkOf [] (finished "tool_calls")]

def thinkingBytes (field : String) : List UInt8 := eventBytes (thinkingChunks field) ++ doneBytes

def thinkingStream (field : String) : StreamRun where
  requestId := "req_1"
  fallbackModel := "glm"
  exposeThinking := false
  serverLoop := none
  arrivals := [.bytes (thinkingBytes field), .ended silentReplies]
  timedOut := false
  taken := none

def thinkingAnswer (field : String) : PlainRun where
  requestId := "req_1"
  fallbackModel := "glm"
  exposeThinking := false
  response := some [.bytes (thinkingBytes field), .ended silentReplies]

def thinkingPump (field : String) : PumpRun where
  delivery := .streamed
  responseId := "resp_1"
  createdAt := 0
  model := "glm"
  exposeThinking := false
  webSearch := none
  chatBody := .object []
  arrivals := [.bytes (thinkingBytes field) silentReplies]

def thinkingPlatform (field : String) : Platform := searchPlatform (thinkingChunks field)

def thought (field : String) : Generations := ⟨[], thinkingChunks field⟩

deriving instance DecidableEq for SseFrame

theorem thinkingAnswer_complete : (NonStreamRun.plain (thinkingAnswer "reasoning_content")).complete
    (thinkingPlatform "reasoning_content") := by
  have truly := ((thinkingAnswer "reasoning_content").oneTrueSummary_iff
    (thinkingPlatform "reasoning_content")).mpr rfl
  have told : (thinkingAnswer "reasoning_content").summaries
      (thinkingPlatform "reasoning_content") = [completeOutcome] := by decide +kernel
  rw [told] at truly
  exact oneTrueSummary_complete.mp truly

theorem thinkingPump_complete {field : String}
    (told : let last := (thinkingPump field).last (thinkingPlatform field).codec
      last.done = true ∧ last.crashed = false ∧ last.failure.isNone = true ∧
        last.converter.error = none) :
    (thinkingPump field).complete (thinkingPlatform field).codec :=
  ((thinkingPump field).complete_iff _).mpr
    ⟨told.1, told.2.1, Option.isNone_iff_eq_none.mp told.2.2.1, told.2.2.2⟩

theorem shadow_commits_alike_thinking :
    CommitRule (thought "reasoning_content")
      ((thinkingStream "reasoning_content").shadowAction (thinkingPlatform "reasoning_content")
        true)
      ((NonStreamRun.plain (thinkingAnswer "reasoning_content")).shadowAction
        (thinkingPlatform "reasoning_content"))
      ((thinkingPump "reasoning_content").shadowAction
        (thinkingPlatform "reasoning_content").codec) := by
  have streams : (thinkingStream "reasoning_content").complete
      (thinkingPlatform "reasoning_content") := by
    rw [StreamRun.complete]
    decide +kernel
  refine (shadow_commits_alike true rfl streams thinkingAnswer_complete
    (thinkingPump_complete (by decide +kernel)) (by decide +kernel) (by decide +kernel)
    (by decide +kernel)).mpr ?_
  exact .stored (by decide +kernel) (by decide +kernel) (by decide +kernel) (by decide +kernel)
    (by decide +kernel) (by decide +kernel) (by decide +kernel) (by decide +kernel)

theorem shadow_commits_alike_fails :
    (thinkingStream "reasoning").complete (thinkingPlatform "reasoning") ∧
    (thinkingPump "reasoning").complete (thinkingPlatform "reasoning").codec ∧
    (thinkingStream "reasoning").generations (thinkingPlatform "reasoning") =
      thought "reasoning" ∧
    (thinkingPump "reasoning").generations (thinkingPlatform "reasoning").codec =
      thought "reasoning" ∧
    ∀ answered, ¬CommitRule (thought "reasoning")
      ((thinkingStream "reasoning").shadowAction (thinkingPlatform "reasoning") true) answered
      ((thinkingPump "reasoning").shadowAction (thinkingPlatform "reasoning").codec) := by
  have streamed : (thinkingStream "reasoning").shadowAction (thinkingPlatform "reasoning") true =
      .store ["c"] "hm" := by decide +kernel
  have slotted : (thinkingPump "reasoning").shadowAction (thinkingPlatform "reasoning").codec =
      .store ["c"] "" := by decide +kernel
  refine ⟨?_, thinkingPump_complete (by decide +kernel), by decide +kernel, by decide +kernel,
    fun answered rule => ?_⟩
  · rw [StreamRun.complete]
    decide +kernel
  · have alike := rule.first.trans rule.second
    rw [streamed, slotted, ShadowAction.alike_store_iff (by decide) (by decide)] at alike
    exact absurd alike.2 (by decide)

end ClineProxy
