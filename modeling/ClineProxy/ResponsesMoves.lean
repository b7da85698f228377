import ClineProxy.ResponsesConverter

/-! The calls to the converter, taken apart into the moves that each touch one thing. -/

namespace ClineProxy

open Json

inductive ConverterMove where
  | start
  | note (chunk : Value)
  | finish (reason : Option String)
  | reasoning (text : String)
  | text (text : String)
  | register (call : Value)
  | extend (call : Value)
  | searched (outcome : SearchOutcome)
  | newRound

namespace ResponsesEmission

def events (emission : ResponsesEmission) : List ResponsesEvent :=
  emission.2.map SequencedEvent.event

theorem andThen_nil (emission : ResponsesEmission) :
    emission.andThen (fun next => (next, [])) = emission := by
  simp [andThen]

theorem andThen_assoc (first : ResponsesEmission)
    (second third : ResponsesConverter → ResponsesEmission) :
    (first.andThen second).andThen third =
      first.andThen fun next => (second next).andThen third := by
  simp [andThen]

theorem events_andThen (first : ResponsesEmission)
    (next : ResponsesConverter → ResponsesEmission) :
    (first.andThen next).events = first.events ++ (next first.1).events := by
  simp [events, andThen]

end ResponsesEmission

namespace ResponsesConverter

theorem emitAll_fst (events : List ResponsesEvent) (converter : ResponsesConverter) :
    (converter.emitAll events).1 =
      { converter with sequence := converter.sequence + events.length } := by
  induction events generalizing converter with
  | nil => rfl
  | cons event rest ih =>
      rw [emitAll, ResponsesEmission.andThen, ih]
      simp [emit, Nat.add_assoc, Nat.add_comm 1]

theorem emitAll_events (events : List ResponsesEvent) (converter : ResponsesConverter) :
    (converter.emitAll events).events = events := by
  induction events generalizing converter with
  | nil => rfl
  | cons event rest ih =>
      rw [emitAll, ResponsesEmission.events_andThen, ih]
      rfl

def move (converter : ResponsesConverter) : ConverterMove → ResponsesEmission
  | .start => converter.ensureStarted
  | .note chunk => (converter.noteChunk chunk, [])
  | .finish reason => ({ converter with finishReason := reason.or converter.finishReason }, [])
  | .reasoning text => converter.feedReasoning text
  | .text text => converter.feedText text
  | .register call => converter.ensureToolItemAdded call
  | .extend call => converter.feedToolCallArguments call
  | .searched outcome => converter.emitWebSearchCall outcome
  | .newRound => (converter.beginNewUpstreamRound, [])

def moveAll (converter : ResponsesConverter) : List ConverterMove → ResponsesEmission
  | [] => (converter, [])
  | first :: rest => (converter.move first).andThen fun next => next.moveAll rest

theorem moveAll_append (first second : List ConverterMove) (converter : ResponsesConverter) :
    converter.moveAll (first ++ second) =
      (converter.moveAll first).andThen fun next => next.moveAll second := by
  induction first generalizing converter with
  | nil => simp [moveAll, ResponsesEmission.andThen]
  | cons move rest ih =>
      simp only [List.cons_append, moveAll, ResponsesEmission.andThen_assoc]
      exact congrArg _ (funext fun next => ih next)

theorem moveAll_snoc (moves : List ConverterMove) (last : ConverterMove)
    (converter : ResponsesConverter) :
    converter.moveAll (moves ++ [last]) =
      (converter.moveAll moves).andThen fun next => next.move last := by
  rw [moveAll_append]
  exact congrArg _ (funext fun next => ResponsesEmission.andThen_nil _)

end ResponsesConverter

def chunkChoices (chunk : Value) : List Value :=
  ((chunk.get "choices").bind Value.asArray).getD []

def textMoves (move : String → ConverterMove) (text : String) : List ConverterMove :=
  if text.isEmpty then [] else [move text]

def deltaMoves (delta : Value) : List ConverterMove :=
  let calls := ((delta.get "tool_calls").bind Value.asArray).getD []
  textMoves .reasoning (((delta.get "reasoning_content").bind Value.asStr).getD "") ++
    textMoves .text (((delta.get "content").bind Value.asStr).getD "") ++
    (calls.map .register ++ calls.map .extend)

def choiceMoves (choice : Value) : List ConverterMove :=
  .finish ((choice.get "finish_reason").bind Value.asStr) ::
    ((choice.get "delta").map deltaMoves).getD []

def chunkMoves (chunk : Value) : List ConverterMove :=
  [.start, .note chunk] ++ (chunkChoices chunk).flatMap choiceMoves

def callMoves : ConverterCall → List ConverterMove
  | .feedChunk chunk => chunkMoves chunk
  | .searchRound calls outcomes =>
      ((calls.zip outcomes).map fun answered => .searched answered.2) ++ [.newRound]
  | .finish _ => []

namespace ResponsesConverter

theorem unlessEmpty_eq (converter : ResponsesConverter)
    (feed : ResponsesConverter → String → ResponsesEmission) (move : String → ConverterMove)
    (same : ∀ other text, feed other text = other.move (move text)) (text : String) :
    converter.unlessEmpty feed text = converter.moveAll (textMoves move text) := by
  rw [unlessEmpty, textMoves]
  split
  next => rfl
  next => rw [same, moveAll, show (fun next => moveAll next []) = fun next => (next, []) from rfl,
    ResponsesEmission.andThen_nil]

theorem overCalls_eq (act : ResponsesConverter → Value → ResponsesEmission)
    (move : Value → ConverterMove) (same : ∀ other call, act other call = other.move (move call))
    (calls : List Value) (converter : ResponsesConverter) :
    overCalls act converter calls = converter.moveAll (calls.map move) := by
  induction calls generalizing converter with
  | nil => rfl
  | cons call rest ih =>
      rw [overCalls, same, List.map_cons, moveAll]
      exact congrArg _ (funext fun next => ih next)

theorem feedDelta_eq (converter : ResponsesConverter) (delta : Value) :
    converter.feedDelta delta = converter.moveAll (deltaMoves delta) := by
  rw [deltaMoves, moveAll_append, moveAll_append, feedDelta]
  simp only [unlessEmpty_eq _ feedReasoning .reasoning (fun _ _ => rfl),
    unlessEmpty_eq _ feedText .text (fun _ _ => rfl), feedToolCalls, moveAll_append,
    overCalls_eq ensureToolItemAdded .register (fun _ _ => rfl),
    overCalls_eq feedToolCallArguments .extend (fun _ _ => rfl)]

theorem feedChoice_eq (converter : ResponsesConverter) (choice : Value) :
    converter.feedChoice choice = converter.moveAll (choiceMoves choice) := by
  rw [feedChoice, choiceMoves, moveAll]
  cases choice.get "delta" with
  | none => simp [move, moveAll, ResponsesEmission.andThen]
  | some delta => simp [move, feedDelta_eq, ResponsesEmission.andThen]

theorem feedChoices_eq (choices : List Value) (converter : ResponsesConverter) :
    converter.feedChoices choices = converter.moveAll (choices.flatMap choiceMoves) := by
  induction choices generalizing converter with
  | nil => rfl
  | cons choice rest ih =>
      rw [feedChoices, List.flatMap_cons, moveAll_append, feedChoice_eq]
      exact congrArg _ (funext fun next => ih next)

theorem feedChunk_eq (converter : ResponsesConverter) (chunk : Value) :
    converter.feedChunk chunk = converter.moveAll (chunkMoves chunk) := by
  rw [feedChunk, chunkMoves, moveAll_append]
  simp only [feedChoices_eq]
  simp [moveAll, move, ResponsesEmission.andThen, chunkChoices]

theorem emitWebSearchCalls_eq (answered : List (OpenAiToolCall × SearchOutcome))
    (converter : ResponsesConverter) :
    converter.emitWebSearchCalls answered =
      converter.moveAll (answered.map fun answer => .searched answer.2) := by
  induction answered generalizing converter with
  | nil => rfl
  | cons answer rest ih =>
      rw [emitWebSearchCalls, List.map_cons, moveAll]
      exact congrArg _ (funext fun next => ih next)

theorem apply_eq (converter : ResponsesConverter) (call : ConverterCall)
    (going : ∀ error, call ≠ .finish error) :
    converter.apply call = converter.moveAll (callMoves call) := by
  cases call with
  | feedChunk chunk => exact feedChunk_eq converter chunk
  | searchRound calls outcomes =>
      rw [apply, callMoves, moveAll_snoc, emitWebSearchRound, emitWebSearchCalls_eq]
      rfl
  | finish error => exact absurd rfl (going error)

theorem applyAll_append (first second : List ConverterCall) (converter : ResponsesConverter) :
    converter.applyAll (first ++ second) =
      (converter.applyAll first).andThen fun next => next.applyAll second := by
  induction first generalizing converter with
  | nil => simp [applyAll, ResponsesEmission.andThen]
  | cons call rest ih =>
      simp only [List.cons_append, applyAll, ResponsesEmission.andThen_assoc]
      exact congrArg _ (funext fun next => ih next)

theorem applyAll_eq (calls : List ConverterCall) (converter : ResponsesConverter)
    (going : ∀ call ∈ calls, ∀ error, call ≠ .finish error) :
    converter.applyAll calls = converter.moveAll (calls.flatMap callMoves) := by
  induction calls generalizing converter with
  | nil => rfl
  | cons call rest ih =>
      rw [applyAll, List.flatMap_cons, moveAll_append, apply_eq _ _ (going call (by simp))]
      exact congrArg _ (funext fun next =>
        ih next fun other member => going other (List.mem_cons_of_mem _ member))

end ResponsesConverter

end ClineProxy
