import ClineProxy.UpstreamFailures

/-! What the Responses pump keeps of the upstream bytes between two chunks. -/

namespace ClineProxy

open Json

/-- The bytes after the last line feed. -/
def lineTail (bytes : List UInt8) : List UInt8 := (bytes.splitOn 10).getLastD []

theorem splitLines_pieces (bytes : List UInt8) :
    bytes.splitOn 10 = (splitLines bytes).1 ++ [(splitLines bytes).2] := by
  induction bytes with
  | nil => rfl
  | cons byte rest ih =>
      rw [List.splitOn_cons_eq_if_modifyHead, splitLines, ih]
      simp only [beq_iff_eq]
      split
      next => rfl
      next => cases (splitLines rest).1 <;> rfl

theorem splitLines_tail (bytes : List UInt8) : (splitLines bytes).2 = lineTail bytes := by
  rw [lineTail, splitLines_pieces, List.getLastD_concat]

theorem lineTail_append (first second : List UInt8) :
    lineTail (lineTail first ++ second) = lineTail (first ++ second) := by
  rw [← splitLines_tail first, ← splitLines_tail, ← splitLines_tail (first ++ second),
    splitLines_append first second]

namespace ResponsesPump

variable {pump : ResponsesPump}

def arrivedBytes : PumpArrival → List UInt8
  | .bytes chunk _ => chunk
  | _ => []

/-- The bytes of the current upstream response; a further request starts a new one. -/
def responseBytes (codec : Codec) (pump : ResponsesPump) (seen : List UInt8) :
    List PumpArrival → List UInt8
  | [] => seen
  | arrival :: rest =>
      let next := (pump.step codec arrival).1
      next.responseBytes codec
        (if next.requests.length = pump.requests.length then seen ++ arrivedBytes arrival else [])
        rest

/-- A pump that goes on has kept its buffer, or asked for another response and emptied it. -/
def Kept (pump next : ResponsesPump) : Prop :=
  next.done = true ∨ (next.requests = pump.requests ∧ next.buffer = pump.buffer) ∨
    (next.requests.length = pump.requests.length + 1 ∧ next.buffer = [])

theorem fail_done (error : ProtocolError) : (pump.fail error).1.done = true := by
  rw [fail]
  split <;> rfl

theorem endOfStream_done : pump.endOfStream.1.done = true := by
  rw [endOfStream]
  split
  next => exact fail_done _
  next => rfl

theorem kept_fail (error : ProtocolError) (before : ResponsesPump) :
    before.Kept (pump.fail error).1 := .inl (fail_done error)

theorem kept_endOfStream (before : ResponsesPump) : before.Kept pump.endOfStream.1 :=
  .inl endOfStream_done

theorem kept_startContinuation (continuation : Continuation) (chatBody : Value)
    {before : ResponsesPump} (same : pump.requests = before.requests) :
    before.Kept (pump.startContinuation continuation chatBody).1 := by
  rw [startContinuation]
  cases continuation with
  | success => exact .inr (.inr ⟨by simp [continuationFailure, same], rfl⟩)
  | unwritable => exact kept_fail _ before
  | unsent => exact kept_fail _ before
  | httpError => exact kept_fail _ before

theorem kept_onDone (codec : Codec) (replies : RoundReplies) {before : ResponsesPump}
    (same : pump.requests = before.requests) : before.Kept (pump.onDone codec replies).1 := by
  rw [onDone]
  split
  next => exact kept_fail _ before
  next =>
    split
    next =>
      simp only [serverRound]
      split
      next => exact .inl rfl
      next => exact kept_startContinuation replies.continuation _ same
    next => exact kept_endOfStream before

theorem kept_processLines (codec : Codec) (replies : RoundReplies) (lines : List (List UInt8)) :
    pump.Kept (pump.processLines codec replies lines).1 := by
  suffices kept : ∀ going : ResponsesPump, going.requests = pump.requests →
      going.buffer = pump.buffer → pump.Kept (going.processLines codec replies lines).1 from
    kept pump rfl rfl
  induction lines with
  | nil => exact fun going requests buffer => .inr (.inl ⟨requests, buffer⟩)
  | cons line rest ih =>
      intro going requests buffer
      rw [processLines]
      split
      next => exact ih going requests buffer
      next => exact kept_onDone codec replies requests
      next value => exact ih _ requests buffer

theorem kept_onBytes (codec : Codec) (replies : RoundReplies) (chunk : List UInt8) :
    ({ pump with buffer := lineTail (pump.buffer ++ chunk) } : ResponsesPump).Kept
      (pump.onBytes codec replies chunk).1 := by
  simp only [onBytes, splitLines_tail]
  exact kept_processLines codec replies _

theorem step_buffer (codec : Codec) (arrival : PumpArrival) {seen : List UInt8}
    (alive : pump.done = false) (tail : pump.buffer = lineTail seen)
    (going : (pump.step codec arrival).1.done = false) :
    (pump.step codec arrival).1.buffer = lineTail
      (if (pump.step codec arrival).1.requests.length = pump.requests.length then
        seen ++ arrivedBytes arrival else []) := by
  unfold step at going ⊢
  rw [if_neg (by simp [alive])] at going ⊢
  cases arrival with
  | bytes chunk replies =>
      dsimp only at going ⊢
      rcases @kept_onBytes pump codec replies chunk with ended | ⟨same, kept⟩ | ⟨further, kept⟩
      · exact absurd going (by simp [ended])
      · rw [if_pos (congrArg List.length same), kept, tail]
        exact lineTail_append seen chunk
      · dsimp only at further
        rw [if_neg (by omega), kept]
        rfl
  | interrupted | stalled kind => exact absurd going (by simp [fail_done])
  | idle => simpa [arrivedBytes] using tail
  | ended => exact absurd going (by simp [endOfStream_done])

theorem run_buffer (codec : Codec) (arrivals : List PumpArrival) {seen : List UInt8}
    (tail : pump.buffer = lineTail seen)
    (going : (pump.run codec arrivals).1.done = false) :
    (pump.run codec arrivals).1.buffer = lineTail (pump.responseBytes codec seen arrivals) := by
  induction arrivals generalizing pump seen with
  | nil => exact tail
  | cons arrival rest ih =>
      rw [run] at going ⊢
      cases ended : (pump.step codec arrival).1.done with
      | true =>
          simp only [run_done codec rest ended] at going
          exact absurd going (by simp [ended])
      | false =>
          have alive : pump.done = false := by
            by_contra stopped
            have stuck : pump.step codec arrival = (pump, []) := if_pos (by simpa using stopped)
            rw [stuck] at ended
            exact stopped ended
          exact ih (step_buffer codec arrival alive tail ended) going

theorem step_unended (codec : Codec) (replies : RoundReplies) {chunk : List UInt8}
    (alive : pump.done = false) (unended : 10 ∉ pump.buffer ++ chunk) :
    pump.step codec (.bytes chunk replies) =
      ({ pump with buffer := pump.buffer ++ chunk }, []) := by
  have pieces : [pump.buffer ++ chunk] = (splitLines (pump.buffer ++ chunk)).1 ++
      [(splitLines (pump.buffer ++ chunk)).2] := by
    rw [← splitLines_pieces]
    exact (List.splitOn_eq_singleton unended).symm
  obtain ⟨noLines, whole⟩ := @List.append_inj' _ [] _ _ _ pieces rfl
  have left : (splitLines (pump.buffer ++ chunk)).2 = pump.buffer ++ chunk := by
    simpa using whole.symm
  simp [step, alive, onBytes, ← noLines, left, processLines]

end ResponsesPump

/-- While the pump goes on, what a chunk leaves is within the limit. -/
def BufferBounded (codec : Codec) (pump : ResponsesPump) (arrivals : List PumpArrival) : Prop :=
  ∀ before, before <+: arrivals → (pump.run codec before).1.done = false →
    (pump.run codec before).1.buffer.length ≤ maxUpstreamSseLineBytes

/-- While the pump goes on, no chunk ends further than the limit from the last line feed of its
response. -/
def LineFeedsKept (codec : Codec) (pump : ResponsesPump) (arrivals : List PumpArrival) : Prop :=
  ∀ before, before <+: arrivals → (pump.run codec before).1.done = false →
    (lineTail (pump.responseBytes codec [] before)).length ≤ maxUpstreamSseLineBytes

theorem pump_buffer_bounded (codec : Codec) (delivery : Delivery) (responseId : String)
    (createdAt : UInt64) (model : String) (exposeThinking : Bool)
    (webSearch : Option ResponsesWebSearchContext) (chatBody : Value)
    (arrivals : List PumpArrival) :
    let pump := ResponsesPump.start delivery responseId createdAt model exposeThinking webSearch
      chatBody
    BufferBounded codec pump arrivals ↔ LineFeedsKept codec pump arrivals := by
  refine forall_congr' fun before => imp_congr_right fun _ => imp_congr_right fun going => ?_
  rw [@ResponsesPump.run_buffer _ codec before [] rfl going]

theorem large_unended (codec : Codec) (replies : RoundReplies) {pump : ResponsesPump}
    {limit : Nat} (alive : pump.done = false) (empty : pump.buffer = []) :
    let chunk := PumpArrival.bytes (List.replicate limit 97) replies
    (pump.run codec [chunk]).1.done = false ∧
      (pump.run codec [chunk]).1.buffer.length = limit := by
  have unended : 10 ∉ pump.buffer ++ List.replicate limit (97 : UInt8) := by
    simp [empty, List.mem_replicate]
  simp only [ResponsesPump.run, ResponsesPump.step_unended codec replies alive unended]
  exact ⟨alive, by simp [empty]⟩

theorem unbounded_buffer (codec : Codec) {pump : ResponsesPump} (alive : pump.done = false)
    (empty : pump.buffer = []) : ¬∀ arrivals, BufferBounded codec pump arrivals := by
  intro bounded
  obtain ⟨going, large⟩ :=
    @large_unended codec searchReplies pump (maxUpstreamSseLineBytes + 1) alive empty
  have within := bounded _ _ (List.prefix_refl _) going
  omega

theorem pump_buffer_bounded_fails :
    (¬∀ arrivals, BufferBounded (documentCodec [])
      (.start .streamed "resp_1" 0 "glm" false none (.object [])) arrivals) ∧
    ¬∀ arrivals, BufferBounded (documentCodec [])
      (.start .aggregated "resp_1" 0 "glm" false none (.object [])) arrivals :=
  ⟨unbounded_buffer _ rfl rfl, unbounded_buffer _ rfl rfl⟩

end ClineProxy
