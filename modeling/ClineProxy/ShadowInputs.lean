import ClineProxy.RoundTools
import ClineProxy.ShadowCommit

/-! What each path commits to the shadow store, as the chunks that it has read say it. -/

namespace ClineProxy

open Json FirstSeen

def Generations.all (generations : Generations) : List Value :=
  generations.earlier.flatten ++ generations.current

def reasoningOf (values : List Value) : String := String.join (values.map chunkReasoning)

theorem reasoningOf_append (first second : List Value) :
    reasoningOf (first ++ second) = reasoningOf first ++ reasoningOf second := by
  rw [reasoningOf, List.map_append, String.join_append]
  rfl

def allChoices (values : List Value) : List Value := values.flatMap chunkChoices

def choiceFinish (choice : Value) : Option String := (choice.get "finish_reason").bind Value.asStr

def deltaReasoning (delta : Value) : String :=
  ((delta.get "reasoning_content").bind Value.asStr).getD ""

def deltaCalls (delta : Value) : List Value :=
  ((delta.get "tool_calls").bind Value.asArray).getD []

def plainReasoning (values : List Value) : String :=
  String.join ((allChoices values).map fun choice =>
    ((choice.get "delta").map deltaReasoning).getD "")

def choicesCalls (values : List Value) : List Value :=
  (allChoices values).flatMap fun choice => ((choice.get "delta").map deltaCalls).getD []

def choicesFinish (values : List Value) : Option String :=
  (allChoices values).reverse.findSome? choiceFinish

def streamedIds (values : List Value) : List String :=
  (seenIndexes (allCalls values)).filterMap fun index =>
    lastIdAt toolCallIndex index (allCalls values)

def aggregatedIds (values : List Value) : List String :=
  (usableIndexes values).map fun index => idOr index (firstIdAt index (allCalls values))

def slotIds (values : List Value) : List String :=
  (firstSeen ((choicesCalls values).map signedCallIndex)).map fun index =>
    (lastIdAt signedCallIndex index (choicesCalls values)).getD ""

namespace Generations

def streamedAction (commits : Bool) (generations : Generations) : ShadowAction :=
  if !commits then .keep
  else if allCalls generations.current = [] then .clear
  else .store (streamedIds generations.current) (reasoningOf generations.all)

def aggregatedAction (generations : Generations) : ShadowAction :=
  if usableIndexes generations.current = [] then .clear
  else .store (aggregatedIds generations.current) (reasoningOf generations.current)

def slotAction (generations : Generations) : ShadowAction :=
  if choicesFinish generations.current = some "tool_calls" then
    .store (slotIds generations.current) (plainReasoning generations.all)
  else .clear

end Generations

/-- What a stream does that is given the store: it commits unless the client leaves with the whole
message or the response ends unclosed. -/
def StreamRun.commits (platform : Platform) (eligible : Bool) (run : StreamRun) : Bool :=
  eligible && !run.suspended platform && run.body.neverEndsUnclosed platform run.arrivals

/-- When the paths commit alike. They store when there are calls and reasoning in the last
generation only, every call has one id and every reasoning one name; they clear when there are no
calls; and they all keep when calls come without reasoning. -/
inductive CommitsAlike (commits : Bool) (generations : Generations) : Prop
  | stored (does : commits = true)
      (reason : choicesFinish generations.current = some "tool_calls")
      (thought : reasoningOf generations.current ≠ "")
      (before : reasoningOf generations.earlier.flatten = "")
      (plain : plainReasoning generations.all = reasoningOf generations.current)
      (called : usableIndexes generations.current ≠ [])
      (streamed : (streamedIds generations.current).Perm (aggregatedIds generations.current))
      (slotted : (aggregatedIds generations.current).Perm (slotIds generations.current))
  | cleared (does : commits = true)
      (reason : choicesFinish generations.current ≠ some "tool_calls")
      (uncalled : allCalls generations.current = [])
  | kept (reason : choicesFinish generations.current = some "tool_calls")
      (called : usableIndexes generations.current ≠ [])
      (silent : reasoningOf generations.current = "")
      (streamed : commits = true → streamedIds generations.current = [] ∨
        reasoningOf generations.earlier.flatten = "")
      (slotted : slotIds generations.current = [] ∨ plainReasoning generations.all = "")

namespace ShadowAction

theorem Same.refl (action : ShadowAction) : Same action action := by
  cases action with
  | keep => exact .keep
  | clear => exact .clear
  | store ids reasoning => exact .store (.refl ids) reasoning

theorem Same.symm {first second : ShadowAction} (same : Same first second) :
    Same second first := by
  cases same with
  | keep => exact .keep
  | clear => exact .clear
  | store ids reasoning => exact .store ids.symm reasoning

theorem Same.trans {first second third : ShadowAction} (begun : Same first second)
    (later : Same second third) : Same first third := by
  cases begun with
  | keep => exact later
  | clear => exact later
  | store ids reasoning =>
      cases later with
      | store more _ => exact .store (ids.trans more) reasoning

theorem Alike.refl (action : ShadowAction) : Alike action action := Same.refl _

theorem Alike.trans {first second third : ShadowAction} (begun : Alike first second)
    (later : Alike second third) : Alike first third := Same.trans begun later

theorem Alike.symm {first second : ShadowAction} (alike : Alike first second) :
    Alike second first := Same.symm alike

theorem alike_store {first second : List String} (ids : first.Perm second) (reasoning : String) :
    Alike (store first reasoning) (store second reasoning) := by
  have empty : first.isEmpty = second.isEmpty := by
    rw [Bool.eq_iff_iff, List.isEmpty_iff, List.isEmpty_iff]
    exact ⟨fun nothing => (nothing ▸ ids).nil_eq.symm, fun nothing => (nothing ▸ ids).eq_nil⟩
  rw [Alike, settled, settled, empty]
  split
  next => exact .keep
  next => exact .store ids reasoning

theorem settled_store {ids : List String} {reasoning : String} (called : ids ≠ [])
    (thought : reasoning ≠ "") : (store ids reasoning).settled = store ids reasoning := by
  rw [settled, if_neg]
  simp [called, thought]

theorem settled_keep {ids : List String} {reasoning : String} (less : ids = [] ∨ reasoning = "") :
    (store ids reasoning).settled = keep := by
  rw [settled, if_pos]
  rcases less with rfl | rfl <;> simp

theorem settled_store_ne_clear (ids : List String) (reasoning : String) :
    ¬Same (store ids reasoning).settled clear := by
  rw [settled]
  intro same
  split at same <;> cases same

end ShadowAction

end ClineProxy
