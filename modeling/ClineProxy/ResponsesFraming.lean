import ClineProxy.GroundingChecks
import ClineProxy.JsonText
import ClineProxy.ResponsesPumpFacts

/-! Which Responses streams are numbered, opened and closed as clients expect. -/

namespace ClineProxy

open Json

def ResponsesEvent.isTerminal (event : ResponsesEvent) : Bool :=
  ["response.completed", "response.incomplete", "response.failed"].contains event.eventType

structure Framed (events : List SequencedEvent) : Prop where
  numbered : events.map SequencedEvent.sequenceNumber = List.range' 1 events.length
  opening : (events.map fun sent => sent.event.eventType).take 2 =
    ["response.created", "response.in_progress"]
  closing : ∃ before last, events.map SequencedEvent.event = before ++ [last] ∧
    last.isTerminal = true ∧ ∀ event ∈ before, event.isTerminal = false

/-- The events of a step take the numbers that follow the last one. -/
structure Numbered (converter : ResponsesConverter) (emission : ResponsesEmission) : Prop where
  numbers : emission.2.map SequencedEvent.sequenceNumber =
    List.range' (converter.sequence + 1) emission.2.length
  sequence : emission.1.sequence = converter.sequence + emission.2.length

theorem numbered_silent {converter next : ResponsesConverter}
    (same : next.sequence = converter.sequence) : Numbered converter (next, []) :=
  ⟨rfl, same⟩

theorem Numbered.andThen {converter : ResponsesConverter} {first : ResponsesEmission}
    {next : ResponsesConverter → ResponsesEmission} (begun : Numbered converter first)
    (later : Numbered first.1 (next first.1)) : Numbered converter (first.andThen next) := by
  refine ⟨?_, ?_⟩
  · rw [ResponsesEmission.andThen, List.map_append, begun.numbers, later.numbers, begun.sequence,
      List.length_append, Nat.add_right_comm, List.range'_append_1]
  · simp only [ResponsesEmission.andThen, later.sequence, begun.sequence, List.length_append]
    omega

theorem numbered_emitAll (events : List ResponsesEvent) {converter next : ResponsesConverter}
    (same : next.sequence = converter.sequence) : Numbered converter (next.emitAll events) := by
  induction events generalizing converter next with
  | nil => exact numbered_silent same
  | cons event rest ih =>
      rw [ResponsesConverter.emitAll]
      refine Numbered.andThen ?_ (ih rfl)
      exact ⟨by simp [ResponsesConverter.emit, same], by simp [ResponsesConverter.emit, same]⟩

namespace ResponsesConverter

variable (converter : ResponsesConverter)

theorem sequence_setTextState (kind : TextKind) (state : TextItemState) :
    (converter.setTextState kind state).sequence = converter.sequence := by
  cases kind <;> rfl

theorem sequence_ensureTextState (kind : TextKind) :
    (converter.ensureTextState kind).2.sequence = converter.sequence := by
  rw [ensureTextState]
  split <;> rfl

theorem numbered_feedTextItem (kind : TextKind) (partFirst : TextItemState → Bool)
    (text : String) : Numbered converter (converter.feedTextItem kind partFirst text) := by
  refine numbered_emitAll _ ?_
  exact (sequence_setTextState _ kind _).trans (converter.sequence_ensureTextState kind)

theorem numbered_closeTextItem (kind : TextKind) (closes : TextItemState → Bool) :
    Numbered converter (converter.closeTextItem kind closes) := by
  rw [closeTextItem]
  split
  next => exact numbered_silent rfl
  next =>
    split
    next => exact numbered_emitAll _ (converter.sequence_setTextState kind _)
    next => exact numbered_silent rfl

theorem numbered_addToolSlot (call : Value) : Numbered converter (converter.addToolSlot call) := by
  rw [addToolSlot]
  split
  next => exact numbered_silent rfl
  next => exact numbered_emitAll _ rfl

theorem numbered_move (move : ConverterMove) : Numbered converter (converter.move move) := by
  cases move with
  | start =>
      rw [ResponsesConverter.move, ensureStarted]
      split
      next => exact numbered_silent rfl
      next => exact numbered_emitAll _ rfl
  | note chunk | finish reason | newRound => exact numbered_silent rfl
  | reasoning text =>
      rw [ResponsesConverter.move, feedReasoning]
      split
      next => exact converter.numbered_feedTextItem _ _ _
      next =>
        exact numbered_silent ((sequence_setTextState _ _ _).trans
          (converter.sequence_ensureTextState _))
  | text text => exact converter.numbered_feedTextItem .message (fun state => !state.itemAdded) text
  | register call =>
      rw [ResponsesConverter.move, ensureToolItemAdded]
      split
      next => exact numbered_silent rfl
      next =>
        refine Numbered.andThen ?_ (numbered_addToolSlot _ call)
        split
        next => exact converter.numbered_closeTextItem _ _
        next => exact numbered_silent rfl
  | extend call =>
      rw [ResponsesConverter.move, feedToolCallArguments]
      split
      next => exact numbered_silent rfl
      next => exact numbered_emitAll _ rfl
  | searched outcome => exact numbered_emitAll _ rfl

theorem numbered_moveAll (moves : List ConverterMove) :
    Numbered converter (converter.moveAll moves) := by
  induction moves generalizing converter with
  | nil => exact numbered_silent rfl
  | cons move rest ih => exact (converter.numbered_move move).andThen (ih _)

theorem numbered_finish (error : Option String) : Numbered converter (converter.finish error) := by
  unfold finish
  cases error with
  | some message => exact numbered_emitAll [_] rfl
  | none =>
      refine Numbered.andThen (Numbered.andThen (Numbered.andThen ?_ ?_) ?_) (numbered_emitAll [_] rfl)
      · exact ⟨(numbered_closeTextItem _ _ _).numbers, (numbered_closeTextItem _ _ _).sequence⟩
      · exact numbered_closeTextItem _ _ _
      · exact numbered_emitAll _ rfl

theorem numbered_applyAll (calls : List ConverterCall) :
    Numbered converter (converter.applyAll calls) := by
  induction calls generalizing converter with
  | nil => exact numbered_silent rfl
  | cons call rest ih =>
      refine Numbered.andThen ?_ (ih _)
      cases call with
      | finish error => exact converter.numbered_finish error
      | feedChunk chunk =>
          rw [apply_eq _ _ (by simp)]
          exact converter.numbered_moveAll _
      | searchRound calls outcomes =>
          rw [apply_eq _ _ (by simp)]
          exact converter.numbered_moveAll _

end ResponsesConverter

def ResponsesEvent.ofItem : ResponsesEvent → Bool
  | .item .. => true
  | _ => false

theorem itemType_not_terminal (kind : ItemKind) (change : ItemChange) :
    ["response.completed", "response.incomplete", "response.failed"].contains
      (ResponsesEvent.itemType kind change) = false := by
  rcases kind with (_ | _) | _ | _ <;> cases change <;> simp [ResponsesEvent.itemType]

theorem ofItem_not_terminal {event : ResponsesEvent} (item : event.ofItem = true) :
    event.isTerminal = false := by
  cases event with
  | item id index change => exact itemType_not_terminal id.kind change
  | created response | inProgress response | terminal response => cases item

def OnlyItems (emission : ResponsesEmission) : Prop := emission.events.all ResponsesEvent.ofItem

theorem OnlyItems.andThen {first : ResponsesEmission}
    {next : ResponsesConverter → ResponsesEmission} (begun : OnlyItems first)
    (later : OnlyItems (next first.1)) : OnlyItems (first.andThen next) := by
  rw [OnlyItems, ResponsesEmission.events_andThen, List.all_append, Bool.and_eq_true]
  exact ⟨begun, later⟩

theorem onlyItems_emitAll {events : List ResponsesEvent} (converter : ResponsesConverter)
    (items : events.all ResponsesEvent.ofItem = true) : OnlyItems (converter.emitAll events) := by
  rw [OnlyItems, ResponsesConverter.emitAll_events]
  exact items

namespace ResponsesConverter

variable (converter : ResponsesConverter)

theorem onlyItems_closingEvents (state : TextItemState) :
    (closingEvents state).all ResponsesEvent.ofItem = true := by
  rw [closingEvents]
  split <;> rfl

theorem onlyItems_feedEvents (state : TextItemState) (partFirst : Bool) (index : Nat)
    (text : String) : (feedEvents state partFirst index text).all ResponsesEvent.ofItem = true := by
  rw [feedEvents]
  split <;> split <;> rfl

theorem onlyItems_feedTextItem (kind : TextKind) (partFirst : TextItemState → Bool)
    (text : String) : OnlyItems (converter.feedTextItem kind partFirst text) :=
  onlyItems_emitAll _ (onlyItems_feedEvents _ _ _ _)

theorem onlyItems_closeTextItem (kind : TextKind) (closes : TextItemState → Bool) :
    OnlyItems (converter.closeTextItem kind closes) := by
  rw [closeTextItem]
  split
  next => rfl
  next state _ =>
    split
    next => exact onlyItems_emitAll _ (onlyItems_closingEvents state)
    next => rfl

theorem onlyItems_addToolSlot (call : Value) : OnlyItems (converter.addToolSlot call) := by
  unfold addToolSlot
  dsimp only
  split
  next => rfl
  next => exact onlyItems_emitAll _ rfl

theorem onlyItems_move {move : ConverterMove} (started : move = .start → converter.started = true) :
    OnlyItems (converter.move move) := by
  cases move with
  | start =>
      rw [ResponsesConverter.move, ensureStarted, if_pos (started rfl)]
      rfl
  | note chunk | finish reason | newRound => rfl
  | reasoning text =>
      rw [ResponsesConverter.move, feedReasoning]
      split
      next => exact converter.onlyItems_feedTextItem _ _ _
      next => rfl
  | text text =>
      exact converter.onlyItems_feedTextItem .message (fun state => !state.itemAdded) text
  | register call =>
      rw [ResponsesConverter.move, ensureToolItemAdded]
      split
      next => rfl
      next =>
        refine OnlyItems.andThen ?_ (onlyItems_addToolSlot _ call)
        split
        next => exact converter.onlyItems_closeTextItem _ _
        next => rfl
  | extend call =>
      rw [ResponsesConverter.move, feedToolCallArguments]
      split
      next => rfl
      next =>
        refine onlyItems_emitAll _ ?_
        split <;> rfl
  | searched outcome => exact onlyItems_emitAll _ rfl

theorem started_feedTextItem (kind : TextKind) (partFirst : TextItemState → Bool) (text : String) :
    (converter.feedTextItem kind partFirst text).1.started = converter.started := by
  have state (other : ResponsesConverter) (fed : TextItemState) :
      (other.setTextState kind fed).started = other.started := by cases kind <;> rfl
  rw [feedTextItem, emitAll_fst]
  refine (state _ _).trans ?_
  rw [ensureTextState]
  split <;> rfl

theorem started_closeTextItem (kind : TextKind) (closes : TextItemState → Bool) :
    (converter.closeTextItem kind closes).1.started = converter.started := by
  rw [closeTextItem]
  split
  next => rfl
  next =>
    split
    next => rw [emitAll_fst]; cases kind <;> rfl
    next => rfl

theorem started_move (started : converter.started = true) (move : ConverterMove) :
    (converter.move move).1.started = true := by
  cases move with
  | start => rw [ResponsesConverter.move, ensureStarted, if_pos started]; exact started
  | note chunk | finish reason | newRound => exact started
  | reasoning text =>
      rw [ResponsesConverter.move, feedReasoning]
      split
      next => exact (converter.started_feedTextItem _ _ _).trans started
      next =>
        dsimp only [setTextState]
        rw [ensureTextState]
        split <;> exact started
  | text text => exact (converter.started_feedTextItem .message _ text).trans started
  | register call =>
      have added (other : ResponsesConverter) : (other.addToolSlot call).1.started = other.started := by
        unfold addToolSlot
        dsimp only
        split
        next => rfl
        next => rw [emitAll_fst]
      rw [ResponsesConverter.move, ensureToolItemAdded]
      split
      next => exact started
      next =>
        refine (added _).trans ?_
        split
        next => exact (converter.started_closeTextItem _ _).trans started
        next => exact started
  | extend call =>
      rw [ResponsesConverter.move, feedToolCallArguments]
      split
      next => exact started
      next => rw [emitAll_fst]; exact started
  | searched outcome => rw [ResponsesConverter.move, emitWebSearchCall, emitAll_fst]; exact started

theorem onlyItems_moveAll (started : converter.started = true) (moves : List ConverterMove) :
    OnlyItems (converter.moveAll moves) := by
  induction moves generalizing converter with
  | nil => rfl
  | cons move rest ih =>
      exact (converter.onlyItems_move fun _ => started).andThen
        (ih _ (converter.started_move started move))

theorem started_moveAll (started : converter.started = true) (moves : List ConverterMove) :
    (converter.moveAll moves).1.started = true := by
  induction moves generalizing converter with
  | nil => exact started
  | cons move rest ih => exact ih _ (converter.started_move started move)

theorem opening_feedChunk (fresh : converter.started = false) (chunk : Value) :
    (converter.feedChunk chunk).1.started = true ∧
      ∃ response later, (converter.feedChunk chunk).events =
        .created response :: .inProgress response :: later ∧
        later.all ResponsesEvent.ofItem = true := by
  have opened : converter.ensureStarted = emitAll { converter with started := true }
      [.created (converter.baseResponse .inProgress [] none),
        .inProgress (converter.baseResponse .inProgress [] none)] := by
    rw [ensureStarted, if_neg (by simp [fresh])]
  have started : (converter.move .start).1.started = true := by
    rw [ResponsesConverter.move, opened, emitAll_fst]
  have rest : (.note chunk :: (chunkChoices chunk).flatMap choiceMoves : List ConverterMove) =
      (chunkMoves chunk).tail := rfl
  rw [feedChunk_eq, chunkMoves, List.cons_append, moveAll, List.singleton_append, rest]
  refine ⟨started_moveAll _ started _, converter.baseResponse .inProgress [] none,
    ((converter.move .start).1.moveAll (chunkMoves chunk).tail).events, ?_,
    onlyItems_moveAll _ started _⟩
  rw [ResponsesEmission.events_andThen, ResponsesConverter.move, opened, emitAll_events]
  rfl

theorem later_applyAll (started : converter.started = true) (calls : List ConverterCall)
    (unfinished : Unfinished calls) : OnlyItems (converter.applyAll calls) := by
  rw [applyAll_eq calls converter unfinished]
  exact converter.onlyItems_moveAll started _

theorem finish_events (error : Option String) :
    ∃ items response, (converter.finish error).events = items ++ [.terminal response] ∧
      items.all ResponsesEvent.ofItem = true ∧ response.status ≠ .inProgress := by
  unfold finish
  cases error with
  | some message =>
      refine ⟨[], _, rfl, rfl, ?_⟩
      simp [failedResponse, terminalResponse, baseResponse]
  | none =>
      dsimp only
      rw [ResponsesEmission.events_andThen]
      refine ⟨_, _, rfl, ?_, ?_⟩
      · refine OnlyItems.andThen (OnlyItems.andThen ?_ ?_) ?_
        · exact onlyItems_closeTextItem _ _ _
        · exact onlyItems_closeTextItem _ _ _
        · refine onlyItems_emitAll _ ?_
          rw [List.all_eq_true]
          intro event member
          obtain ⟨entry, -, sent⟩ := List.mem_flatMap.mp member
          rw [slotDoneEvents] at sent
          split at sent
          next => cases sent
          next => rcases List.mem_pair.mp sent with rfl | rfl <;> rfl
      · simp only [successResponse, terminalResponse, baseResponse, successStatus]
        split <;> simp

end ResponsesConverter

theorem terminal_isTerminal {response : ResponseObject} (ended : response.status ≠ .inProgress) :
    (ResponsesEvent.terminal response).isTerminal = true := by
  cases status : response.status <;>
    simp_all [ResponsesEvent.isTerminal, ResponsesEvent.eventType, ResponseStatus.asStr]

def PumpLine.speaks : PumpLine → Bool
  | skipped => false
  | done | chunk _ => true

/-- Whether the first line that is a chunk or `[DONE]` is a chunk, and comes before the end. -/
def opensWithChunk (codec : Codec) (buffer : List UInt8) : List PumpArrival → Bool
  | [] => false
  | .bytes chunk _ :: rest =>
      let (lines, left) := splitLines (buffer ++ chunk)
      match (lines.map (readLine codec)).find? PumpLine.speaks with
      | some (.chunk _) => true
      | some _ => false
      | none => opensWithChunk codec left rest
  | .idle :: rest => opensWithChunk codec buffer rest
  | _ :: _ => false

def startsFed : List ConverterCall → Bool
  | .feedChunk _ :: _ => true
  | _ => false

namespace ResponsesPump

variable {pump : ResponsesPump}

theorem startsFed_fail (error : ProtocolError) (pump : ResponsesPump) :
    startsFed (pump.fail error).2 = false ∧ (pump.fail error).1.done = true := by
  rw [fail]
  split <;> exact ⟨rfl, rfl⟩

theorem startsFed_endOfStream (pump : ResponsesPump) :
    startsFed pump.endOfStream.2 = false ∧ pump.endOfStream.1.done = true := by
  rw [endOfStream]
  split
  next => exact startsFed_fail _ pump
  next => exact ⟨rfl, rfl⟩

theorem startsFed_onDone (codec : Codec) (replies : RoundReplies)
    (noTools : pump.converter.tools = []) :
    startsFed (pump.onDone codec replies).2 = false ∧
      (pump.onDone codec replies).1.done = true := by
  rw [onDone]
  split
  next => exact startsFed_fail _ pump
  next =>
    rw [if_neg (by simp [ResponsesConverter.hasServerTools, noTools])]
    exact startsFed_endOfStream pump

theorem processLines_opens (codec : Codec) (replies : RoundReplies) (lines : List (List UInt8))
    (noTools : pump.converter.tools = []) :
    match (lines.map (readLine codec)).find? PumpLine.speaks with
    | some (.chunk _) => startsFed (pump.processLines codec replies lines).2 = true
    | some _ => startsFed (pump.processLines codec replies lines).2 = false ∧
        (pump.processLines codec replies lines).1.done = true
    | none => pump.processLines codec replies lines = (pump, []) := by
  induction lines with
  | nil => rfl
  | cons line rest ih =>
      rw [processLines, List.map_cons, List.find?_cons]
      cases readLine codec line with
      | skipped => exact ih
      | done => exact startsFed_onDone codec replies noTools
      | chunk value => rfl

theorem step_opens (codec : Codec) (arrival : PumpArrival) (rest : List PumpArrival)
    (alive : pump.done = false) (noTools : pump.converter.tools = [])
    (whole : (pump.step codec arrival).1.crashed = false) :
    startsFed (pump.step codec arrival).2 = true ∧
        opensWithChunk codec pump.buffer (arrival :: rest) = true ∨
      (startsFed (pump.step codec arrival).2 = false ∧
        (pump.step codec arrival).1.done = true ∧
        opensWithChunk codec pump.buffer (arrival :: rest) = false) ∨
      ∃ buffer, pump.step codec arrival = ({ pump with buffer := buffer }, []) ∧
        opensWithChunk codec pump.buffer (arrival :: rest) = opensWithChunk codec buffer rest := by
  unfold ResponsesPump.step at whole ⊢
  rw [if_neg (by simp [alive])] at whole ⊢
  cases arrival with
  | bytes chunk replies =>
      have opens := @processLines_opens { pump with
        buffer := (splitLines (pump.buffer ++ chunk)).2 } codec replies
        (splitLines (pump.buffer ++ chunk)).1 noTools
      simp only [opensWithChunk]
      have sent : (pump.onBytes codec replies chunk).2 = (ResponsesPump.processLines codec replies
          { pump with buffer := (splitLines (pump.buffer ++ chunk)).2 }
          (splitLines (pump.buffer ++ chunk)).1).2 := by
        have kept : (pump.onBytes codec replies chunk).1.crashed = false := whole
        simp only [onBytes] at kept ⊢
        exact if_neg (by simp [kept])
      rw [sent]
      split at opens
      next value found => exact .inl ⟨opens, rfl⟩
      next line other found => exact .inr (.inl ⟨opens.1, opens.2, rfl⟩)
      next found =>
        refine .inr (.inr ⟨(splitLines (pump.buffer ++ chunk)).2, ?_, rfl⟩)
        simp only [onBytes, opens]
        split <;> rfl
  | interrupted =>
      obtain ⟨quiet, ended⟩ := startsFed_fail (.upstream "upstream stream was interrupted") pump
      exact .inr (.inl ⟨quiet, ended, rfl⟩)
  | stalled kind =>
      obtain ⟨quiet, ended⟩ := startsFed_fail (.stall kind) pump
      exact .inr (.inl ⟨quiet, ended, rfl⟩)
  | idle => exact .inr (.inr ⟨pump.buffer, rfl, rfl⟩)
  | ended =>
      obtain ⟨quiet, ended⟩ := startsFed_endOfStream pump
      exact .inr (.inl ⟨quiet, ended, rfl⟩)

theorem startsFed_append {first second : List ConverterCall} (begun : startsFed first = true) :
    startsFed (first ++ second) = true := by
  match first, begun with
  | .feedChunk _ :: _, _ => rfl

theorem startsFed_run (codec : Codec) (arrivals : List PumpArrival) (alive : pump.done = false)
    (noTools : pump.converter.tools = []) (intact : pump.crashed = false)
    (noFailure : pump.failure = none) (whole : (pump.run codec arrivals).1.crashed = false) :
    startsFed (pump.run codec arrivals).2 = opensWithChunk codec pump.buffer arrivals := by
  induction arrivals generalizing pump with
  | nil => rfl
  | cons arrival rest ih =>
      have kept : (pump.step codec arrival).1.crashed = false := by
        cases (progress_step codec arrival alive intact noFailure).outcome with
        | running _ kept | finished _ _ _ _ kept | failed _ kept => exact kept
        | crashed ended cut =>
            simpa only [run, run_done codec rest ended] using whole
      rw [run] at whole ⊢
      rcases step_opens codec arrival rest alive noTools kept with
        ⟨fed, opens⟩ | ⟨quiet, ended, opens⟩ | ⟨buffer, same, opens⟩
      · rw [opens]
        exact startsFed_append fed
      · simp only [run_done codec rest ended, List.append_nil, opens, quiet]
      · rw [opens]
        simp only [same, List.nil_append] at whole ⊢
        exact ih alive noTools intact noFailure whole

end ResponsesPump

/-- A run crashes at the first round that cannot be written. -/
def CrashesExactly (chatBody : Value) (log : PumpLog) : Prop :=
  log.crashed = !log.rounds.all (SearchRound.writable chatBody) ∧
    SearchRound.writable log.chatBody = SearchRound.writable chatBody

theorem crashesExactly_record {chatBody : Value} {log : PumpLog} (codec : Codec) (maxUses : Nat)
    (replies : RoundReplies) (calls : List OpenAiToolCall) (held : CrashesExactly chatBody log)
    (whole : log.crashed = false) :
    CrashesExactly chatBody (log.record codec maxUses replies calls) := by
  have before : log.rounds.all (SearchRound.writable chatBody) = true := by
    simpa [whole] using held.1
  have now (outcomes : List SearchOutcome) : SearchRound.writable chatBody ⟨calls, outcomes⟩ =
      (appendServerRound log.chatBody calls outcomes).isOk := by
    rw [← held.2]
    rfl
  simp only [PumpLog.record]
  split
  next abort failed =>
    refine ⟨?_, held.2⟩
    simp [now, failed, Except.isOk, Except.toBool]
  next next appended =>
    refine ⟨?_, (writable_append appended).trans held.2⟩
    simp [now, appended, whole, before, Except.isOk, Except.toBool]

theorem run_crashes (codec : Codec) (pump : ResponsesPump) (arrivals : List PumpArrival)
    (alive : pump.done = false) (whole : pump.crashed = false) (noFailure : pump.failure = none)
    (noRounds : pump.rounds = []) :
    (pump.run codec arrivals).1.crashed =
      !(pump.run codec arrivals).1.rounds.all (SearchRound.writable pump.chatBody) := by
  refine (@ResponsesPump.log_run pump codec pump.webSearch (CrashesExactly pump.chatBody) ?_
    arrivals alive whole noFailure rfl ⟨?_, rfl⟩).1
  · exact fun log replies calls held whole =>
      crashesExactly_record codec _ replies calls held whole
  · simp [ResponsesPump.log, whole, noRounds]

theorem opening_calls {converter : ResponsesConverter} (fresh : converter.started = false)
    (chunk : Value) {calls : List ConverterCall} (unfinished : Unfinished calls) :
    ∃ response later, (converter.applyAll (.feedChunk chunk :: calls)).events =
        .created response :: .inProgress response :: later ∧
      later.all ResponsesEvent.ofItem = true := by
  obtain ⟨started, response, later, sent, items⟩ := converter.opening_feedChunk fresh chunk
  have rest := ResponsesConverter.later_applyAll _ started calls unfinished
  refine ⟨response, later ++ ((converter.feedChunk chunk).1.applyAll calls).events, ?_, ?_⟩
  · change ((converter.feedChunk chunk).andThen fun next => next.applyAll calls).events = _
    rw [ResponsesEmission.events_andThen, sent]
    rfl
  · rw [List.all_append, items, Bool.true_and]
    exact rest

theorem unfinished_guarded {converter : ResponsesConverter} (noTools : converter.tools = [])
    {calls : List ConverterCall} (unfinished : Unfinished calls)
    (guarded : Guarded converter calls) :
    calls = [] ∨ ∃ chunk rest, calls = .feedChunk chunk :: rest := by
  match calls with
  | [] => exact .inl rfl
  | .feedChunk chunk :: rest => exact .inr ⟨chunk, rest, rfl⟩
  | .searchRound _ _ :: _ =>
      have server : converter.hasServerTools = true := guarded.1.1
      rw [ResponsesConverter.hasServerTools, noTools] at server
      cases server
  | .finish error :: _ => exact absurd rfl (unfinished (.finish error) (by simp) error)

theorem Guarded.last {converter : ResponsesConverter} {first second : List ConverterCall}
    (guarded : Guarded converter (first ++ second)) :
    Guarded converter first ∧ Guarded (converter.applyAll first).1 second := by
  induction first generalizing converter with
  | nil => exact ⟨trivial, guarded⟩
  | cons call rest ih => exact ⟨⟨guarded.1, (ih guarded.2).1⟩, (ih guarded.2).2⟩

theorem not_framed_nil : ¬Framed [] := fun framed => by simpa using framed.opening

theorem map_eventType (events : List SequencedEvent) :
    events.map (fun sent => sent.event.eventType) =
      (events.map SequencedEvent.event).map ResponsesEvent.eventType := by
  rw [List.map_map]
  rfl

theorem framed_calls {converter : ResponsesConverter} (fresh : converter.started = false)
    (first : converter.sequence = 0) (chunk : Value) {calls : List ConverterCall}
    (unfinished : Unfinished calls) (error : Option String) :
    Framed (converter.applyAll (.feedChunk chunk :: calls ++ [.finish error])).2 := by
  obtain ⟨started, later, opened, items⟩ := opening_calls fresh chunk unfinished
  obtain ⟨closing, response, closed, closingItems, ended⟩ :=
    ((converter.applyAll (.feedChunk chunk :: calls)).1).finish_events error
  have events : (converter.applyAll (.feedChunk chunk :: calls ++ [.finish error])).2.map
      SequencedEvent.event = .created started :: .inProgress started ::
        (later ++ closing) ++ [.terminal response] := by
    have split := congrArg ResponsesEmission.events
      (ResponsesConverter.applyAll_append (.feedChunk chunk :: calls) [.finish error] converter)
    rw [ResponsesEmission.events_andThen, opened] at split
    refine split.trans ?_
    have last : ((converter.applyAll (.feedChunk chunk :: calls)).1.applyAll
        [.finish error]).events = closing ++ [.terminal response] := by
      rw [ResponsesConverter.applyAll, ResponsesEmission.events_andThen]
      refine (congrArg (· ++ _) closed).trans ?_
      simp [ResponsesConverter.applyAll, ResponsesEmission.events]
    rw [last]
    simp
  refine ⟨?_, ?_, _, _, events, terminal_isTerminal ended, ?_⟩
  · have numbered := converter.numbered_applyAll (.feedChunk chunk :: calls ++ [.finish error])
    rw [numbered.numbers, first]
  · rw [map_eventType, events]
    rfl
  · intro event member
    simp only [List.mem_cons, List.mem_append] at member
    rcases member with rfl | rfl | inLater | inClosing
    · rfl
    · rfl
    · exact ofItem_not_terminal (List.all_eq_true.mp items event inLater)
    · exact ofItem_not_terminal (List.all_eq_true.mp closingItems event inClosing)

theorem not_framed_unfinished {converter : ResponsesConverter}
    (noTools : converter.tools = []) (fresh : converter.started = false)
    {calls : List ConverterCall} (unfinished : Unfinished calls)
    (guarded : Guarded converter calls) : ¬Framed (converter.applyAll calls).2 := by
  rcases unfinished_guarded noTools unfinished guarded with rfl | ⟨chunk, rest, rfl⟩
  · exact not_framed_nil
  · intro framed
    have going : Unfinished rest := fun call member =>
      unfinished call (List.mem_cons_of_mem _ member)
    obtain ⟨started, later, opened, items⟩ := opening_calls fresh chunk going
    obtain ⟨before, last, events, ended, -⟩ := framed.closing
    have quiet : ∀ event ∈ (converter.applyAll (.feedChunk chunk :: rest)).2.map
        SequencedEvent.event, event.isTerminal = false := by
      rw [show (converter.applyAll (.feedChunk chunk :: rest)).2.map SequencedEvent.event = _
        from opened]
      intro event member
      simp only [List.mem_cons] at member
      rcases member with rfl | rfl | inLater
      · rfl
      · rfl
      · exact ofItem_not_terminal (List.all_eq_true.mp items event inLater)
    rw [quiet last (by rw [events]; simp)] at ended
    cases ended

/-- Streams that are over are framed exactly when a chunk came first and the result texts of
their rounds are cut between characters. -/
theorem responses_framing (codec : Codec) (responseId : String) (createdAt : UInt64)
    (model : String) (exposeThinking : Bool) (webSearch : Option ResponsesWebSearchContext)
    (chatBody : Value) (arrivals : List PumpArrival)
    (ended : ((ResponsesPump.start .streamed responseId createdAt model exposeThinking webSearch
      chatBody).run codec arrivals).1.done = true) :
    let pump := ResponsesPump.start .streamed responseId createdAt model exposeThinking webSearch
      chatBody
    Framed (pump.events codec arrivals) ↔
      opensWithChunk codec [] arrivals = true ∧
        (TakesRounds chatBody → ∀ round ∈ (pump.run codec arrivals).1.rounds, round.TextsCut) := by
  intro pump
  have progress := @ResponsesPump.progress_run pump codec arrivals rfl rfl rfl
  have crashes := run_crashes codec pump arrivals rfl rfl rfl rfl
  have opens := @ResponsesPump.startsFed_run pump codec arrivals rfl rfl rfl rfl
  have guarded := progress.guarded
  rw [ResponsesPump.events]
  cases progress.outcome with
  | running alive => simp [pump, ended] at alive
  | failed _ _ _ _ aggregated => cases aggregated
  | crashed _ cut unfinished =>
      refine iff_of_false (not_framed_unfinished rfl rfl unfinished guarded) fun condition => ?_
      have written := List.all_eq_true.mpr
        ((writable_rounds_iff chatBody _).mpr condition.2)
      rw [cut, show pump.chatBody = chatBody from rfl, written] at crashes
      cases crashes
  | finished going error made _ whole unfinished _ _ =>
      have writable : ∀ round ∈ (pump.run codec arrivals).1.rounds,
          round.writable chatBody = true := by
        rw [whole, show pump.chatBody = chatBody from rfl] at crashes
        exact List.all_eq_true.mp (by simpa using crashes.symm)
      rw [made] at guarded
      have fed := opens whole
      rw [made] at fed ⊢
      rcases unfinished_guarded rfl unfinished guarded.last.1 with rfl | ⟨chunk, rest, rfl⟩
      · refine iff_of_false ?_ fun condition => ?_
        · intro framed
          cases error with
          | none =>
              have finished := guarded.1
              cases finished
          | some message =>
              have two : 2 ≤ (pump.converter.applyAll
                  [ConverterCall.finish (some message)]).2.length := by
                simpa using congrArg List.length framed.opening
              change 2 ≤ 1 at two
              omega
        · exact absurd (fed.trans condition.1) (by simp [startsFed])
      · have chunkFirst : opensWithChunk codec [] arrivals = true := fed.symm
        exact iff_of_true (framed_calls rfl rfl chunk (fun call member =>
          unfinished call (List.mem_cons_of_mem _ member)) error)
          ⟨chunkFirst, (writable_rounds_iff chatBody _).mp writable⟩

def stopChunk : Value :=
  .object [("choices", .array [.object [("delta", .object [("content", .string "hi")]),
    ("finish_reason", .string "stop")]])]

def silentReplies : RoundReplies :=
  ⟨fun _ => "", fun _ query => .failed query .unavailable, .unsent⟩

def oneSearch : Value :=
  chunkOf [("tool_calls", .array [wholeCall 0 "call_0" webSearchFunctionName leanQueryText])]
    (finished "tool_calls")

def oneResult : RoundReplies :=
  ⟨fun _ => "", fun _ query => ⟨query, [.object [("title", .string "Lean")]], none⟩, .success⟩

def foundPump : ResponsesPump :=
  .start .streamed "resp_1" 0 "glm" false (some ⟨2, none⟩) (.object [("messages", .array [])])

def foundCodec : Codec := documentCodec [leanQuery, oneSearch, stopChunk]

def foundChunks : List PumpArrival :=
  [.bytes (eventBytes [oneSearch] ++ doneBytes) oneResult,
    .bytes (eventBytes [stopChunk] ++ doneBytes) oneResult]

theorem foundPump_run : (foundPump.run foundCodec foundChunks).1.done = true ∧
    (foundPump.run foundCodec foundChunks).1.rounds.length = 1 ∧
    textsShort (foundPump.run foundCodec foundChunks).1.rounds = true := by
  decide +kernel

theorem responses_framing_searched :
    (foundPump.run foundCodec foundChunks).1.rounds.length = 1 ∧
      Framed (foundPump.events foundCodec foundChunks) := by
  obtain ⟨ended, one, short⟩ := foundPump_run
  exact ⟨one, (responses_framing foundCodec "resp_1" 0 "glm" false (some ⟨2, none⟩)
    (.object [("messages", .array [])]) foundChunks ended).mpr
    ⟨by decide +kernel, fun _ => textsCut_of_short short⟩⟩

theorem responses_framing_fails :
    ∃ pump, (pump.run (documentCodec [stopChunk]) [.ended]).1.done = true ∧
      pump = ResponsesPump.start .streamed "resp_1" 0 "glm" false none .null ∧
      ¬Framed (pump.events (documentCodec [stopChunk]) [.ended]) := by
  refine ⟨_, rfl, rfl, fun framed => ?_⟩
  have two := congrArg List.length framed.opening
  revert two
  decide

end ClineProxy
