import ClineProxy.ResponsesDeliveries
import ClineProxy.SearchBudget

/-! What each frontend makes of an upstream stream that fails. -/

namespace ClineProxy

open Json

theorem splitLines_append (first second : List UInt8) :
    splitLines (first ++ second) =
      ((splitLines first).1 ++ (splitLines ((splitLines first).2 ++ second)).1,
        (splitLines ((splitLines first).2 ++ second)).2) := by
  induction first with
  | nil => rfl
  | cons byte rest ih =>
      rw [List.cons_append, splitLines, ih, splitLines]
      dsimp only
      split
      next => rfl
      next other =>
        cases (splitLines rest).1 with
        | cons line later => rfl
        | nil =>
            dsimp only [List.nil_append]
            rw [List.cons_append, splitLines]
            simp [other]

theorem splitLines_left (bytes : List UInt8) : (splitLines (splitLines bytes).2).1 = [] := by
  induction bytes with
  | nil => rfl
  | cons byte rest ih =>
      rw [splitLines]
      dsimp only
      split
      next => exact ih
      next other =>
        cases whole : (splitLines rest).1 with
        | cons line later => exact ih
        | nil =>
            dsimp only
            rw [splitLines]
            simp [other, ih]

def streamLines (codec : Codec) (bytes : List UInt8) : List PumpLine :=
  (splitLines bytes).1.map (readLine codec)

def chunkFinishes (chunk : Value) : Bool :=
  (chunkChoices chunk).any fun choice => ((choice.get "finish_reason").bind Value.asStr).isSome

/-- Whether a `finish_reason` is named before the first `[DONE]`. -/
def namesFinish : List PumpLine → Bool
  | [] => false
  | .skipped :: rest => namesFinish rest
  | .done :: _ => false
  | .chunk value :: rest => chunkFinishes value || namesFinish rest

def readsDone : List PumpLine → Bool
  | [] => false
  | .done :: _ => true
  | .skipped :: rest | .chunk _ :: rest => readsDone rest

theorem namesFinish_append (first second : List PumpLine) :
    namesFinish (first ++ second) =
      (namesFinish first || !readsDone first && namesFinish second) := by
  induction first with
  | nil => rfl
  | cons line rest ih =>
      cases line with
      | skipped => exact ih
      | done => rfl
      | chunk value => rw [List.cons_append, namesFinish, ih, namesFinish, readsDone, Bool.or_assoc]

def reasonAfter (held : Option String) : ConverterMove → Option String
  | .finish reason => reason.or held
  | .newRound => none
  | _ => held

theorem reasonAfter_delta (held : Option String) (delta : Value) :
    (deltaMoves delta).foldl reasonAfter held = held := by
  have still (moves : List ConverterMove)
      (quiet : ∀ move ∈ moves, ∀ other, reasonAfter other move = other) :
      moves.foldl reasonAfter held = held := by
    induction moves with
    | nil => rfl
    | cons move rest ih =>
        rw [List.foldl_cons, quiet move (by simp)]
        exact ih fun other member => quiet other (by simp [member])
  refine still _ fun move member other => ?_
  simp only [deltaMoves, textMoves, List.mem_append, List.mem_map] at member
  rcases member with (reasoning | text) | ⟨call, -, rfl⟩ | ⟨call, -, rfl⟩
  · split at reasoning
    next => cases reasoning
    next => rw [List.mem_singleton.mp reasoning]; rfl
  · split at text
    next => cases text
    next => rw [List.mem_singleton.mp text]; rfl
  · rfl
  · rfl

theorem reasonAfter_chunk (held : Option String) (chunk : Value) :
    ((chunkMoves chunk).foldl reasonAfter held).isSome = (held.isSome || chunkFinishes chunk) := by
  rw [chunkMoves, List.foldl_append, chunkFinishes]
  change (((chunkChoices chunk).flatMap choiceMoves).foldl reasonAfter held).isSome = _
  induction chunkChoices chunk generalizing held with
  | nil => simp
  | cons choice rest ih =>
      have spoken : (choiceMoves choice).foldl reasonAfter held =
          ((choice.get "finish_reason").bind Value.asStr).or held := by
        rw [choiceMoves, List.foldl_cons]
        cases choice.get "delta" with
        | none => rfl
        | some delta => exact reasonAfter_delta _ delta
      rw [List.flatMap_cons, List.foldl_append, spoken, ih, List.any_cons, Option.isSome_or,
        Bool.or_right_comm, Bool.or_comm held.isSome, Bool.or_right_comm]

namespace ResponsesConverter

variable (converter : ResponsesConverter)

theorem finishReason_feedTextItem (kind : TextKind) (partFirst : TextItemState → Bool)
    (text : String) :
    (converter.feedTextItem kind partFirst text).1.finishReason = converter.finishReason := by
  have state (other : ResponsesConverter) (fed : TextItemState) :
      (other.setTextState kind fed).finishReason = other.finishReason := by cases kind <;> rfl
  rw [feedTextItem, emitAll_fst]
  refine (state _ _).trans ?_
  rw [ensureTextState]
  split <;> rfl

theorem finishReason_closeTextItem (kind : TextKind) (closes : TextItemState → Bool) :
    (converter.closeTextItem kind closes).1.finishReason = converter.finishReason := by
  rw [closeTextItem]
  split
  next => rfl
  next =>
    split
    next => rw [emitAll_fst]; cases kind <;> rfl
    next => rfl

theorem finishReason_addToolSlot (call : Value) :
    (converter.addToolSlot call).1.finishReason = converter.finishReason := by
  unfold addToolSlot
  dsimp only
  split
  next => rfl
  next => rw [emitAll_fst]

theorem finishReason_move (move : ConverterMove) :
    (converter.move move).1.finishReason = reasonAfter converter.finishReason move := by
  cases move with
  | start =>
      rw [ResponsesConverter.move, ensureStarted]
      split
      next => rfl
      next => dsimp only; rw [emitAll_fst]; rfl
  | note chunk | finish reason | newRound => rfl
  | reasoning text =>
      rw [ResponsesConverter.move, feedReasoning]
      split
      next => exact converter.finishReason_feedTextItem _ _ _
      next =>
        dsimp only [setTextState]
        rw [ensureTextState]
        split <;> rfl
  | text text => exact converter.finishReason_feedTextItem .message _ text
  | register call =>
      rw [ResponsesConverter.move, ensureToolItemAdded]
      split
      next => rfl
      next =>
        refine (finishReason_addToolSlot _ call).trans ?_
        split
        next => exact converter.finishReason_closeTextItem _ _
        next => rfl
  | extend call =>
      rw [ResponsesConverter.move, feedToolCallArguments]
      split
      next => rfl
      next => rw [emitAll_fst]; rfl
  | searched outcome => rw [ResponsesConverter.move, emitWebSearchCall, emitAll_fst]; rfl

theorem finishReason_moveAll (moves : List ConverterMove) :
    (converter.moveAll moves).1.finishReason =
      moves.foldl reasonAfter converter.finishReason := by
  induction moves generalizing converter with
  | nil => rfl
  | cons move rest ih =>
      rw [List.foldl_cons, ← finishReason_move]
      exact ih _

theorem finishReason_feedChunk (chunk : Value) :
    (converter.feedChunk chunk).1.finishReason.isSome =
      (converter.finishReason.isSome || chunkFinishes chunk) := by
  rw [feedChunk_eq, finishReason_moveAll, reasonAfter_chunk]

end ResponsesConverter

namespace ResponsesPump

variable {pump : ResponsesPump}

structure Plain (pump : ResponsesPump) : Prop where
  streams : pump.delivery = .streamed
  alive : pump.done = false
  whole : pump.crashed = false
  noError : pump.converter.error = none
  noRounds : pump.roundsLeft = 0

/-- How a pump ends: with an error unless a reason was named. -/
structure Ended (named : Bool) (last : ResponsesPump) : Prop where
  done : last.done = true
  whole : last.crashed = false
  error : last.converter.error.isSome = !named

theorem Plain.endOfStream (plain : Plain pump) :
    Ended pump.converter.finishReason.isSome pump.endOfStream.1 := by
  rw [ResponsesPump.endOfStream]
  cases reason : pump.converter.finishReason with
  | none =>
      rw [if_pos (by rfl), fail, plain.streams]
      exact ⟨rfl, plain.whole, rfl⟩
  | some name =>
      rw [if_neg (by simp)]
      refine ⟨rfl, plain.whole, ?_⟩
      exact congrArg Option.isSome (ResponsesConverter.error_finish pump.converter)

theorem Plain.onDone (plain : Plain pump) (codec : Codec) (replies : RoundReplies) :
    Ended pump.converter.finishReason.isSome (pump.onDone codec replies).1 := by
  have ends : pump.onDone codec replies = pump.endOfStream := by
    rw [ResponsesPump.onDone, plain.streams, plain.noRounds]
    simp
  rw [ends]
  exact plain.endOfStream

theorem Plain.feed (plain : Plain pump) (chunk : Value) :
    Plain (pump.call (.feedChunk chunk)).1 :=
  ⟨plain.streams, plain.alive, plain.whole,
    (ResponsesConverter.error_apply pump.converter (.feedChunk chunk) (by simp)).trans
      plain.noError, plain.noRounds⟩

structure Reads (pump last : ResponsesPump) (lines : List PumpLine) : Prop where
  ended : readsDone lines = true →
    Ended (pump.converter.finishReason.isSome || namesFinish lines) last
  going : readsDone lines = false → Plain last ∧ last.buffer = pump.buffer ∧
    last.converter.finishReason.isSome =
      (pump.converter.finishReason.isSome || namesFinish lines)

theorem Plain.processLines (plain : Plain pump) (codec : Codec) (replies : RoundReplies)
    (lines : List (List UInt8)) :
    Reads pump (pump.processLines codec replies lines).1 (lines.map (readLine codec)) := by
  induction lines generalizing pump with
  | nil => exact ⟨by simp [readsDone], fun _ => ⟨plain, rfl, by simp [namesFinish,
      ResponsesPump.processLines]⟩⟩
  | cons line rest ih =>
      rw [ResponsesPump.processLines, List.map_cons]
      cases readLine codec line with
      | skipped => exact ⟨(ih plain).ended, (ih plain).going⟩
      | done =>
          refine ⟨fun _ => ?_, by simp [readsDone]⟩
          rw [namesFinish, Bool.or_false]
          exact plain.onDone codec replies
      | chunk value =>
          obtain ⟨ended, going⟩ := ih (plain.feed value)
          have reason : (pump.call (.feedChunk value)).1.converter.finishReason.isSome =
              (pump.converter.finishReason.isSome || chunkFinishes value) :=
            pump.converter.finishReason_feedChunk value
          rw [reason, Bool.or_assoc] at ended going
          exact ⟨ended, going⟩

theorem Plain.run (plain : Plain pump) (codec : Codec) (replies : RoundReplies)
    (chunks : List (List UInt8)) (noLine : (splitLines pump.buffer).1 = []) :
    Ended (pump.converter.finishReason.isSome ||
        namesFinish (streamLines codec (pump.buffer ++ chunks.flatten)))
      (pump.run codec (chunks.map (fun chunk => .bytes chunk replies) ++ [.ended])).1 := by
  induction chunks generalizing pump with
  | nil =>
      have quiet : streamLines codec (pump.buffer ++ [].flatten) = [] := by
        rw [List.flatten_nil, List.append_nil, streamLines, noLine]
        rfl
      have stepped : pump.step codec .ended = pump.endOfStream := by simp [step, plain.alive]
      rw [quiet, namesFinish, Bool.or_false, List.map_nil, List.nil_append, ResponsesPump.run,
        stepped]
      exact plain.endOfStream
  | cons chunk rest ih =>
      have reads := @Plain.processLines
        { pump with buffer := (splitLines (pump.buffer ++ chunk)).2 }
        ⟨plain.streams, plain.alive, plain.whole, plain.noError, plain.noRounds⟩ codec replies
        (splitLines (pump.buffer ++ chunk)).1
      have stepped : (pump.step codec (.bytes chunk replies)).1 =
          (ResponsesPump.processLines codec replies
            { pump with buffer := (splitLines (pump.buffer ++ chunk)).2 }
            (splitLines (pump.buffer ++ chunk)).1).1 := by
        simp [step, plain.alive, onBytes]
      have cut : streamLines codec (pump.buffer ++ (chunk :: rest).flatten) =
          (splitLines (pump.buffer ++ chunk)).1.map (readLine codec) ++
            streamLines codec ((splitLines (pump.buffer ++ chunk)).2 ++ rest.flatten) := by
        rw [List.flatten_cons, ← List.append_assoc, streamLines, splitLines_append,
          List.map_append, streamLines]
      rw [List.map_cons, List.cons_append, ResponsesPump.run, cut, namesFinish_append]
      dsimp only
      rw [stepped]
      cases over_ : readsDone ((splitLines (pump.buffer ++ chunk)).1.map (readLine codec)) with
      | true =>
          have ended := reads.ended over_
          rw [run_done codec _ ended.done, Bool.not_true, Bool.false_and, Bool.or_false]
          exact ended
      | false =>
          obtain ⟨later, buffer, reason⟩ := reads.going over_
          have last := ih later (buffer ▸ splitLines_left _)
          rw [reason, buffer, Bool.or_assoc] at last
          rw [Bool.not_false, Bool.true_and]
          exact last

end ResponsesPump

def AnthropicFails (platform : Platform) (requestId fallbackModel : String)
    (exposeThinking : Bool) (replies : RoundReplies) (chunks : List (List UInt8)) : Prop :=
  ((StreamBody.start requestId fallbackModel exposeThinking none).run platform
    (chunks.map Arrival.bytes ++ [.ended replies])).2.getLast?.map SseFrame.event = some "error"

instance (platform : Platform) (requestId fallbackModel : String) (exposeThinking : Bool)
    (replies : RoundReplies) (chunks : List (List UInt8)) :
    Decidable (AnthropicFails platform requestId fallbackModel exposeThinking replies chunks) :=
  inferInstanceAs (Decidable (_ = _))

def responsesTerminal (codec : Codec) (responseId : String) (createdAt : UInt64) (model : String)
    (exposeThinking : Bool) (chatBody : Value) (replies : RoundReplies)
    (chunks : List (List UInt8)) : Option ResponseObject :=
  (ResponsesPump.start .streamed responseId createdAt model exposeThinking none chatBody).terminal
    codec (chunks.map (fun chunk => .bytes chunk replies) ++ [.ended])

theorem responsesTerminal_failed (codec : Codec) (responseId : String) (createdAt : UInt64)
    (model : String) (exposeThinking : Bool) (chatBody : Value) (replies : RoundReplies)
    (chunks : List (List UInt8)) :
    ∃ response, responsesTerminal codec responseId createdAt model exposeThinking chatBody replies
        chunks = some response ∧
      (response.status = .failed ↔ namesFinish (streamLines codec chunks.flatten) = false) := by
  let pump := ResponsesPump.start .streamed responseId createdAt model exposeThinking none chatBody
  have plain : pump.Plain := ⟨rfl, rfl, rfl, rfl, rfl⟩
  have ended := plain.run codec replies chunks rfl
  have terminal := @ResponsesPump.terminal_streamed pump codec
    (chunks.map (fun chunk => .bytes chunk replies) ++ [.ended]) rfl rfl rfl rfl
  dsimp only at terminal
  rw [ended.done, ended.whole] at terminal
  refine ⟨_, terminal, ?_⟩
  have error := ended.error
  rw [show pump.converter.finishReason = none from rfl, Option.isSome_none, Bool.false_or,
    show pump.buffer = [] from rfl, List.nil_append] at error
  rw [ResponsesConverter.nonstreamResponse]
  cases held : ((pump.run codec (chunks.map (fun chunk => .bytes chunk replies) ++
      [.ended])).1.converter.error) with
  | some message =>
      rw [held, Option.isSome_some] at error
      exact iff_of_true rfl (by simpa using error)
  | none =>
      rw [held, Option.isSome_none] at error
      exact iff_of_false (ResponsesConverter.success_status _) (by simpa using error)

/-- Where the Anthropic path fails, the Responses pump fails exactly when no line before the first
`[DONE]` names a `finish_reason`: it passes over every other fault. -/
theorem upstream_failures (platform : Platform) (requestId fallbackModel : String)
    (exposeThinking : Bool) (responseId : String) (createdAt : UInt64) (model : String)
    (chatBody : Value) (replies : RoundReplies) (chunks : List (List UInt8)) :
    AnthropicFails platform requestId fallbackModel exposeThinking replies chunks →
      ((∃ response, responsesTerminal platform.codec responseId createdAt model exposeThinking
          chatBody replies chunks = some response ∧ response.status = .failed) ↔
        namesFinish (streamLines platform.codec chunks.flatten) = false) := by
  intro _
  obtain ⟨response, terminal, failed⟩ := responsesTerminal_failed platform.codec responseId
    createdAt model exposeThinking chatBody replies chunks
  rw [terminal, ← failed]
  simp

theorem upstream_failures_end :
    (∃ response, responsesTerminal (documentCodec [unfinishedSearch]) "resp_1" 0 "glm" false
        (.object []) searchReplies [eventBytes [unfinishedSearch]] = some response ∧
        response.status = .failed) ↔
      namesFinish (streamLines (documentCodec [unfinishedSearch])
        [eventBytes [unfinishedSearch]].flatten) = false :=
  upstream_failures (searchPlatform [unfinishedSearch]) "req_1" "glm" false "resp_1" 0 "glm"
    (.object []) searchReplies [eventBytes [unfinishedSearch]] (by decide +kernel)

def brokenStream : List (List UInt8) :=
  [textBytes "data: oops\n\n" ++ eventBytes [stopChunk] ++ doneBytes]

theorem upstream_failures_fail :
    AnthropicFails (searchPlatform [stopChunk]) "req_1" "glm" false searchReplies brokenStream ∧
      (responsesTerminal (documentCodec [stopChunk]) "resp_1" 0 "glm" false (.object [])
        searchReplies brokenStream).map ResponseObject.status = some .completed :=
  ⟨by decide +kernel, by decide +kernel⟩

end ClineProxy
