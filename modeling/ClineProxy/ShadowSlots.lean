import ClineProxy.ResponsesRuns
import ClineProxy.ShadowInputs
import ClineProxy.SummaryChecks

/-! What a Responses request commits to the shadow store, as its chunks say it. -/

namespace ClineProxy

open Json FirstSeen ResponsesConverter

namespace ConverterMove

def reasoned : ConverterMove → String
  | reasoning thought => thought
  | _ => ""

def stops (reason : Option String) : ConverterMove → Option String
  | finish given => given.or reason
  | newRound => none
  | _ => reason

def Quiet (moves : List ConverterMove) : Prop :=
  ∀ move ∈ moves, move.reasoned = "" ∧ ∀ reason, stops reason move = reason

theorem Quiet.reasoned {moves : List ConverterMove} (quiet : Quiet moves) :
    String.join (moves.map ConverterMove.reasoned) = "" := by
  induction moves with
  | nil => rfl
  | cons move rest ih =>
      rw [List.map_cons, String.join_cons, (quiet move List.mem_cons_self).1,
        ih fun other member => quiet other (List.mem_cons_of_mem _ member)]
      rfl

theorem Quiet.stops {moves : List ConverterMove} (quiet : Quiet moves) (reason : Option String) :
    moves.foldl ConverterMove.stops reason = reason := by
  induction moves with
  | nil => rfl
  | cons move rest ih =>
      rw [List.foldl_cons, (quiet move List.mem_cons_self).2]
      exact ih fun other member => quiet other (List.mem_cons_of_mem _ member)

theorem quiet_map {Item : Type} (items : List Item) {move : Item → ConverterMove}
    (silent : ∀ item, (move item).reasoned = "" ∧
      ∀ reason, ConverterMove.stops reason (move item) = reason) : Quiet (items.map move) := by
  intro made member
  obtain ⟨item, -, rfl⟩ := List.mem_map.mp member
  exact silent item

end ConverterMove

section Brought

open ConverterMove

theorem reasoned_append (first second : List ConverterMove) :
    String.join ((first ++ second).map reasoned) =
      String.join (first.map reasoned) ++ String.join (second.map reasoned) := by
  rw [List.map_append, String.join_append]

theorem quiet_text (text : String) : Quiet (textMoves .text text) := by
  rw [textMoves]
  split
  next => exact fun _ member => by cases member
  next => exact @quiet_map _ [text] ConverterMove.text fun _ => ⟨rfl, fun _ => rfl⟩

theorem quiet_calls (calls : List Value) :
    Quiet (calls.map ConverterMove.register ++ calls.map ConverterMove.extend) := fun move member =>
  (List.mem_append.mp member).elim
    (quiet_map calls (fun _ => ⟨rfl, fun _ => rfl⟩) move)
    (quiet_map calls (fun _ => ⟨rfl, fun _ => rfl⟩) move)

theorem reasoned_delta (delta : Value) :
    String.join ((deltaMoves delta).map reasoned) = deltaReasoning delta := by
  have thought (text : String) : String.join ((textMoves .reasoning text).map reasoned) = text := by
    rw [textMoves]
    split
    next empty => exact (String.isEmpty_iff.mp empty).symm
    next => exact String.join_cons.trans String.append_empty
  rw [deltaMoves, reasoned_append, reasoned_append, thought, (quiet_text _).reasoned,
    (quiet_calls _).reasoned, String.append_empty, String.append_empty]
  rfl

theorem stops_delta (delta : Value) (reason : Option String) :
    (deltaMoves delta).foldl stops reason = reason := by
  have thought (text : String) : (textMoves .reasoning text).foldl stops reason = reason := by
    rw [textMoves]
    split <;> rfl
  rw [deltaMoves, List.append_assoc, List.foldl_append, List.foldl_append, thought,
    (quiet_text _).stops, (quiet_calls _).stops]

theorem reasoned_choice (choice : Value) : String.join ((choiceMoves choice).map reasoned) =
    ((choice.get "delta").map deltaReasoning).getD "" := by
  rw [choiceMoves, List.map_cons, String.join_cons]
  cases choice.get "delta" with
  | none => rfl
  | some delta => exact (String.empty_append).trans (reasoned_delta delta)

theorem stops_choice (choice : Value) (reason : Option String) :
    (choiceMoves choice).foldl stops reason = (choiceFinish choice).or reason := by
  rw [choiceMoves, List.foldl_cons]
  cases choice.get "delta" with
  | none => rfl
  | some delta => exact stops_delta delta _

theorem reasoned_choices (choices : List Value) :
    String.join ((choices.flatMap choiceMoves).map reasoned) = String.join (choices.map fun choice =>
      ((choice.get "delta").map deltaReasoning).getD "") := by
  induction choices with
  | nil => rfl
  | cons choice rest ih =>
      rw [List.flatMap_cons, reasoned_append, reasoned_choice, ih, List.map_cons, String.join_cons]

theorem stops_choices (choices : List Value) (reason : Option String) :
    (choices.flatMap choiceMoves).foldl stops reason =
      (choices.reverse.findSome? choiceFinish).or reason := by
  induction choices generalizing reason with
  | nil => rfl
  | cons choice rest ih =>
      rw [List.flatMap_cons, List.foldl_append, stops_choice, ih, List.reverse_cons,
        List.findSome?_append, List.findSome?_singleton, Option.or_assoc]

theorem reasoned_chunk (chunk : Value) (values : List Value) :
    plainReasoning values ++ String.join ((chunkMoves chunk).map reasoned) =
      plainReasoning (values ++ [chunk]) := by
  have first : String.join (([.start, .note chunk] : List ConverterMove).map reasoned) = "" := rfl
  rw [chunkMoves, reasoned_append, first, String.empty_append, reasoned_choices, plainReasoning,
    plainReasoning, allChoices, allChoices, List.flatMap_append, List.map_append,
    String.join_append, List.flatMap_singleton]

theorem stops_chunk (chunk : Value) (values : List Value) :
    (chunkMoves chunk).foldl stops (choicesFinish values) = choicesFinish (values ++ [chunk]) := by
  rw [chunkMoves, List.foldl_append, stops_choices, choicesFinish, choicesFinish, allChoices,
    allChoices, List.flatMap_append, List.reverse_append, List.findSome?_append,
    List.flatMap_singleton]
  rfl

end Brought

structure Notes (thought : String) (reason : Option String) (converter : ResponsesConverter) :
    Prop where
  reasoning : converter.reasoningText = thought
  reason : converter.finishReason = reason

section Notes

variable {thought : String} {reason : Option String} {converter : ResponsesConverter}

theorem noted_ensureTextState (noted : Notes thought reason converter) (kind : TextKind) :
    Notes thought reason (converter.ensureTextState kind).2 := by
  rw [ensureTextState]
  split
  next => exact noted
  next => exact ⟨noted.reasoning, noted.reason⟩

theorem accum_ensureTextState (noted : Notes thought reason converter) :
    (converter.ensureTextState .reasoning).1.accum = thought := by
  rw [← noted.reasoning, ResponsesConverter.reasoningText, ensureTextState, textState]
  cases converter.reasoning <;> rfl

theorem noted_feedText (noted : Notes thought reason converter) (text : String) :
    Notes thought reason (converter.feedText text).1 := by
  have ensured := noted_ensureTextState noted .message
  rw [feedText, feedTextItem, emitAll_fst]
  exact ⟨ensured.reasoning, ensured.reason⟩

theorem noted_feedReasoning (noted : Notes thought reason converter) (text : String) :
    Notes (thought ++ text) reason (converter.feedReasoning text).1 := by
  have kept := accum_ensureTextState noted
  have ensured := noted_ensureTextState noted .reasoning
  rw [feedReasoning]
  split
  next =>
    rw [feedTextItem, emitAll_fst]
    exact ⟨congrArg (· ++ text) kept, ensured.reason⟩
  next => exact ⟨congrArg (· ++ text) kept, ensured.reason⟩

theorem noted_closeTextItem (noted : Notes thought reason converter) (kind : TextKind)
    (closes : TextItemState → Bool) :
    Notes thought reason (converter.closeTextItem kind closes).1 := by
  rw [closeTextItem]
  split
  next => exact noted
  next state held =>
    split
    next =>
      rw [emitAll_fst]
      cases kind with
      | message => exact ⟨noted.reasoning, noted.reason⟩
      | reasoning =>
          rw [textState] at held
          have kept := noted.reasoning
          rw [ResponsesConverter.reasoningText, held] at kept
          exact ⟨kept, noted.reason⟩
    next => exact noted

theorem noted_addToolSlot (noted : Notes thought reason converter) (call : Value) :
    Notes thought reason (converter.addToolSlot call).1 := by
  rw [addToolSlot_eq, emitAll_fst]
  exact ⟨noted.reasoning, noted.reason⟩

theorem noted_move (noted : Notes thought reason converter) (move : ConverterMove) :
    Notes (thought ++ move.reasoned) (move.stops reason) (converter.move move).1 := by
  have silent {next : ResponsesConverter} (kept : Notes thought reason next) :
      Notes (thought ++ "") reason next := by
    rwa [String.append_empty]
  cases move with
  | start =>
      refine silent ?_
      rw [ResponsesConverter.move, ensureStarted]
      split
      next => exact noted
      next =>
        dsimp only
        rw [emitAll_fst]
        exact ⟨noted.reasoning, noted.reason⟩
  | note chunk => exact silent ⟨noted.reasoning, noted.reason⟩
  | finish given =>
      exact ⟨noted.reasoning.trans String.append_empty.symm, congrArg (Option.or given) noted.reason⟩
  | newRound => exact ⟨noted.reasoning.trans String.append_empty.symm, rfl⟩
  | reasoning text => exact noted_feedReasoning noted text
  | text text => exact silent (noted_feedText noted text)
  | register call =>
      refine silent ?_
      rw [ResponsesConverter.move, ensureToolItemAdded]
      split
      next => exact noted
      next =>
        refine noted_addToolSlot ?_ call
        split
        next => exact noted_closeTextItem noted .message _
        next => exact noted
  | extend call =>
      refine silent ?_
      rw [ResponsesConverter.move, feedToolCallArguments]
      split
      next => exact noted
      next =>
        dsimp only
        rw [emitAll_fst]
        exact ⟨noted.reasoning, noted.reason⟩
  | searched outcome =>
      refine silent ?_
      rw [ResponsesConverter.move, emitWebSearchCall, emitAll_fst]
      exact ⟨noted.reasoning, noted.reason⟩

theorem noted_moveAll (moves : List ConverterMove) (noted : Notes thought reason converter) :
    Notes (thought ++ String.join (moves.map ConverterMove.reasoned))
      (moves.foldl ConverterMove.stops reason) (converter.moveAll moves).1 := by
  induction moves generalizing thought reason converter with
  | nil =>
      have nothing : thought ++ String.join ([].map ConverterMove.reasoned) = thought :=
        String.append_empty
      rwa [nothing]
  | cons move rest ih =>
      rw [List.map_cons, String.join_cons, ← String.append_assoc, List.foldl_cons]
      exact ih (noted_move noted move)

theorem finish_notes (noted : Notes thought reason converter) :
    Notes thought reason (converter.finish none).1 ∧
      (converter.finish none).1.toolCallIds = converter.toolCallIds := by
  let open_ : ResponsesConverter := { converter with error := none }
  let reasoned := open_.closeReasoningItem.1
  let closed := reasoned.closeMessageItem.1
  have begun : Notes thought reason open_ := ⟨noted.reasoning, noted.reason⟩
  have kept : Notes thought reason closed :=
    noted_closeTextItem (noted_closeTextItem begun .reasoning _) .message _
  have tools : closed.tools = converter.tools :=
    (tools_closeTextItem reasoned .message _).trans (tools_closeTextItem open_ .reasoning _)
  have finished : (converter.finish none).1 =
      (closed.finishTools.1.emit (.terminal closed.finishTools.1.successResponse)).1 := rfl
  have ids : closed.finishTools.1.toolCallIds = closed.toolCallIds := by
    rw [finishTools, emitAll_fst]
    exact List.map_map
  rw [finished]
  refine ⟨⟨?_, ?_⟩, ids.trans ?_⟩
  · refine Eq.trans ?_ kept.reasoning
    rw [emit, finishTools, emitAll_fst]
    rfl
  · refine Eq.trans ?_ kept.reason
    rw [emit, finishTools, emitAll_fst]
  · rw [toolCallIds, tools, toolCallIds]

end Notes

def firstCall (calls : List Value) (index : Int) : Option Value :=
  calls.find? fun call => signedCallIndex call = index

theorem firstCall_snoc (calls : List Value) (call : Value) (index : Int) :
    firstCall (calls ++ [call]) index = (firstCall calls index).or
      (if signedCallIndex call = index then some call else none) := by
  rw [firstCall, List.find?_append, List.find?_singleton]
  simp only [decide_eq_true_eq]
  rfl

structure CallRound.Reads (calls : List Value) (round : CallRound) : Prop where
  first : ∀ index, round.firstAt index = firstCall calls index
  extended : round.extended = calls

theorem reads_new : CallRound.new.Reads [] := ⟨fun _ => rfl, rfl⟩

section Reads

variable {names : List String} {exposeThinking : Bool} {calls : List Value} {track : Track}

theorem Track.moveAll_append (first second : List ConverterMove) (track : Track) :
    track.moveAll names exposeThinking (first ++ second) =
      (track.moveAll names exposeThinking first).moveAll names exposeThinking second :=
  List.foldl_append

theorem round_texts {move : String → ConverterMove}
    (kept : ∀ track text, (Track.move names exposeThinking track (move text)).round = track.round)
    (track : Track) (text : String) :
    (track.moveAll names exposeThinking (textMoves move text)).round = track.round := by
  rw [textMoves]
  split
  next => rfl
  next => exact kept track text

theorem first_registers (more : List Value)
    (first : ∀ index, track.round.firstAt index = firstCall calls index) :
    let next := track.moveAll names exposeThinking (more.map .register)
    (∀ index, next.round.firstAt index = firstCall (calls ++ more) index) ∧
      next.round.extended = track.round.extended := by
  induction more generalizing calls track with
  | nil => exact ⟨by simpa [Track.moveAll] using first, rfl⟩
  | cons call rest ih =>
      have step : (∀ index, (track.move names exposeThinking (.register call)).round.firstAt index =
            firstCall (calls ++ [call]) index) ∧
          (track.move names exposeThinking (.register call)).round.extended =
            track.round.extended := by
        have here := first (signedCallIndex call)
        rw [Track.move]
        cases seen : track.round.firstAt (signedCallIndex call) with
        | some held =>
            refine ⟨fun index => ?_, rfl⟩
            rw [Option.isSome_some, if_pos rfl, firstCall_snoc, first index]
            split
            next same => rw [← same, ← here, seen, Option.some_or]
            next => rw [Option.or_none]
        | none =>
            have absent : track.closing.round.firstAt (signedCallIndex call) = none := by
              rw [Track.round_closing, seen]
            rw [Option.isSome_none, if_neg (by simp)]
            refine ⟨fun index => ?_, ?_⟩
            · refine (CallRound.firstAt_register absent).trans ?_
              rw [firstCall_snoc, Track.round_closing, first index]
              by_cases same : index = signedCallIndex call
              · rw [if_pos same, if_pos same.symm, same, ← here, seen, Option.none_or]
              · rw [if_neg same, if_neg (Ne.symm same), Option.or_none]
            · change track.closing.round.extended = track.round.extended
              rw [Track.round_closing]
      obtain ⟨later, extended⟩ := ih step.1
      rw [List.append_assoc] at later
      exact ⟨later, extended.trans step.2⟩

theorem round_extends (more : List Value)
    (there : ∀ call ∈ more, (track.round.firstAt (signedCallIndex call)).isSome = true) :
    (track.moveAll names exposeThinking (more.map .extend)).round =
      { track.round with extended := track.round.extended ++ more } := by
  induction more generalizing track with
  | nil =>
      rw [List.append_nil]
      rfl
  | cons call rest ih =>
      have step : (track.move names exposeThinking (.extend call)).round =
          track.round.extend call := by
        rw [Track.move, if_pos (there call List.mem_cons_self)]
      have later := @ih (track.move names exposeThinking (.extend call)) fun other member => by
        rw [step]
        exact there other (List.mem_cons_of_mem _ member)
      rw [step] at later
      exact later.trans (by simp [CallRound.extend])

theorem reads_delta (reads : track.round.Reads calls) (delta : Value) :
    (track.moveAll names exposeThinking (deltaMoves delta)).round.Reads
      (calls ++ deltaCalls delta) := by
  rw [deltaMoves, ← deltaCalls, Track.moveAll_append, Track.moveAll_append, Track.moveAll_append]
  have thought := @round_texts names exposeThinking .reasoning
    (fun track text => Track.round_hear track .reasoning exposeThinking text) track
    (((delta.get "reasoning_content").bind Value.asStr).getD "")
  generalize track.moveAll names exposeThinking (textMoves .reasoning _) = reasoned at thought ⊢
  have said := @round_texts names exposeThinking .text
    (fun track text => Track.round_hear track .message true text) reasoned
    (((delta.get "content").bind Value.asStr).getD "")
  generalize reasoned.moveAll names exposeThinking (textMoves .text _) = told at said ⊢
  rw [← thought, ← said] at reads
  obtain ⟨first, extended⟩ := @first_registers names exposeThinking calls told (deltaCalls delta)
    reads.first
  have round := @round_extends names exposeThinking
    (told.moveAll names exposeThinking ((deltaCalls delta).map .register)) (deltaCalls delta)
    fun call member => by
      rw [first, firstCall, List.find?_isSome]
      exact ⟨call, List.mem_append_right _ member, by simp⟩
  rw [round]
  exact ⟨first, congrArg (· ++ deltaCalls delta) (extended.trans reads.extended)⟩

theorem reads_choices (choices : List Value) (reads : track.round.Reads calls) :
    (track.moveAll names exposeThinking (choices.flatMap choiceMoves)).round.Reads
      (calls ++ choices.flatMap fun choice =>
        ((choice.get "delta").map deltaCalls).getD []) := by
  induction choices generalizing calls track with
  | nil => rwa [List.flatMap_nil, List.flatMap_nil, List.append_nil]
  | cons choice rest ih =>
      rw [List.flatMap_cons, List.flatMap_cons, Track.moveAll_append, ← List.append_assoc]
      refine ih ?_
      rw [choiceMoves, Track.moveAll, List.foldl_cons]
      cases choice.get "delta" with
      | none =>
          rw [Option.map_none, Option.map_none, Option.getD_none, Option.getD_none,
            List.append_nil]
          exact reads
      | some delta => exact reads_delta reads delta

theorem reads_chunk {values : List Value} (reads : track.round.Reads (choicesCalls values))
    (chunk : Value) : (track.moveAll names exposeThinking (chunkMoves chunk)).round.Reads
      (choicesCalls (values ++ [chunk])) := by
  rw [chunkMoves, Track.moveAll_append, choicesCalls, allChoices, List.flatMap_append,
    List.flatMap_append, List.flatMap_singleton]
  exact @reads_choices names exposeThinking _ track (chunkChoices chunk) reads

end Reads

theorem lastOr_slot (calls : List Value) {first : Value} {index : Int}
    (begun : firstCall calls index = some first) :
    lastOr toolCallId (fragmentId first)
        (calls.filter fun call => signedCallIndex call = index) =
      (lastIdAt signedCallIndex index calls).getD "" := by
  have own : first ∈ calls.filter fun call => signedCallIndex call = index := by
    have asked := List.find?_some begun
    exact List.mem_filter.mpr ⟨List.mem_of_find?_eq_some begun, asked⟩
  rw [lastOr, lastIdAt]
  cases last : (calls.filter fun call => signedCallIndex call = index).reverse.findSome?
      toolCallId with
  | some id => rfl
  | none =>
      have silent := List.findSome?_eq_none_iff.mp last first (List.mem_reverse.mpr own)
      rw [Option.getD_none, Option.getD_none, fragmentId]
      rw [toolCallId] at silent
      cases said : (first.get "id").bind Value.asStr with
      | none => rfl
      | some id =>
          rw [said, Option.filter_some] at silent
          simpa using silent

theorem Board.callIds {names : List String} {exposeThinking : Bool} {track : Track}
    {converter : ResponsesConverter} {events : List ResponsesEvent} {values : List Value}
    (board : Board names exposeThinking track converter events)
    (reads : track.round.Reads (choicesCalls values)) :
    converter.toolCallIds.Perm (slotIds values) := by
  refine OrderedMap.perm_tabulated (OrderedMap.nodup_of_sorted int_irrefl board.sorted)
    (nodup_firstSeen _) fun index => ?_
  have named : index ∈ firstSeen ((choicesCalls values).map signedCallIndex) ↔
      (firstCall (choicesCalls values) index).isSome = true := by
    rw [mem_firstSeen, firstCall, List.find?_isSome]
    simp
  cases held : OrderedMap.lookup index converter.tools with
  | none =>
      have absent := (board.noSlots index held).1
      rw [reads.first] at absent
      rw [if_neg (mt named.mp (by simp [absent]))]
      rfl
  | some slot =>
      obtain ⟨first, begun, slotted⟩ := board.slots index slot held
      rw [reads.first] at begun
      rw [if_pos (named.mpr (by rw [begun]; rfl)), Option.map_some, slotted.callId,
        CallRound.fragmentsAt, reads.extended, lastOr_slot _ begun]

/-- The converter and the round after the chunks of some generations. -/
structure Fed (generations : Generations) (track : Track) (converter : ResponsesConverter) :
    Prop where
  noted : Notes (plainReasoning generations.all) (choicesFinish generations.current) converter
  reads : track.round.Reads (choicesCalls generations.current)

section Fed

variable {names : List String} {exposeThinking : Bool} {generations : Generations} {track : Track}
  {converter : ResponsesConverter}

theorem fed_chunk (fed : Fed generations track converter) (chunk : Value) :
    Fed (generations.take (.feedChunk chunk))
      (track.moveAll names exposeThinking (callMoves (.feedChunk chunk)))
      (converter.moveAll (callMoves (.feedChunk chunk))).1 := by
  have noted := noted_moveAll (chunkMoves chunk) fed.noted
  rw [reasoned_chunk, stops_chunk] at noted
  refine ⟨?_, reads_chunk fed.reads chunk⟩
  rw [Generations.take, Generations.all, Generations.read, ← List.append_assoc]
  exact noted

theorem fed_searchRound (fed : Fed generations track converter)
    (calls : List OpenAiToolCall) (outcomes : List SearchOutcome) :
    Fed (generations.take (.searchRound calls outcomes))
      (track.moveAll names exposeThinking (callMoves (.searchRound calls outcomes)))
      (converter.moveAll (callMoves (.searchRound calls outcomes))).1 := by
  have searches : ConverterMove.Quiet ((calls.zip outcomes).map fun answered =>
      ConverterMove.searched answered.2) :=
    ConverterMove.quiet_map _ fun _ => ⟨rfl, fun _ => rfl⟩
  have noted := noted_moveAll (callMoves (.searchRound calls outcomes)) fed.noted
  rw [callMoves, reasoned_append, searches.reasoned, List.foldl_append, searches.stops,
    String.empty_append] at noted
  refine ⟨?_, ?_⟩
  · have all : (generations.take (.searchRound calls outcomes)).all = generations.all := by
      simp [Generations.take, Generations.next, Generations.all]
    have silent : String.join (([.newRound] : List ConverterMove).map ConverterMove.reasoned) =
      "" := rfl
    rw [silent, String.append_empty] at noted
    rw [all]
    exact noted
  · rw [callMoves, Track.moveAll_append]
    exact reads_new

theorem fed_calls (calls : List ConverterCall) (unfinished : Unfinished calls)
    (fed : Fed generations track converter) :
    Fed (calls.foldl Generations.take generations)
      (track.moveAll names exposeThinking (calls.flatMap callMoves))
      (converter.moveAll (calls.flatMap callMoves)).1 := by
  induction calls generalizing generations track converter with
  | nil => exact fed
  | cons call rest ih =>
      rw [List.foldl_cons, List.flatMap_cons, Track.moveAll_append,
        ResponsesConverter.moveAll_append]
      refine ih (fun other member => unfinished other (List.mem_cons_of_mem _ member)) ?_
      cases call with
      | feedChunk chunk => exact fed_chunk fed chunk
      | searchRound calls outcomes => exact fed_searchRound fed calls outcomes
      | finish error => exact absurd rfl (unfinished _ List.mem_cons_self error)

end Fed

namespace PumpRun

variable {codec : Codec} {run : PumpRun}

theorem calls_of_complete (complete : run.complete codec) :
    ∃ going, Unfinished going ∧
      (run.pump.run codec run.arrivals).2 = going ++ [.finish none] := by
  obtain ⟨done, whole, noFailure, noError⟩ := (run.complete_iff codec).mp complete
  have taken :=
    (@ResponsesPump.progress_run run.pump codec run.arrivals rfl rfl rfl).converter whole
  cases run.outcome_last codec with
  | running alive => simp [last, alive] at done
  | crashed _ cut => simp [last, cut] at whole
  | failed _ _ _ failure =>
      rw [last] at noFailure
      simp [noFailure] at failure
  | finished going error made _ _ unfinished =>
      cases error with
      | none => exact ⟨going, unfinished, made⟩
      | some message =>
          rw [last, taken, made, ResponsesConverter.applyAll_append] at noError
          cases noError

theorem finished_of_guarded {going : List ConverterCall}
    (made : (run.pump.run codec run.arrivals).2 = going ++ [.finish none]) :
    (run.pump.converter.applyAll going).1.finishReason.isSome = true := by
  have guarded := (@ResponsesPump.progress_run run.pump codec run.arrivals rfl rfl rfl).guarded
  rw [made] at guarded
  exact guarded.last.2.1

theorem shadowAction_alike (complete : run.complete codec) :
    (run.shadowAction codec).Alike (run.generations codec).slotAction := by
  obtain ⟨done, whole, noFailure, -⟩ := (run.complete_iff codec).mp complete
  obtain ⟨going, unfinished, made⟩ := calls_of_complete complete
  have reason := finished_of_guarded made
  have converter :=
    (@ResponsesPump.progress_run run.pump codec run.arrivals rfl rfl rfl).converter whole
  have generations : run.generations codec = going.foldl Generations.take .new := by
    rw [PumpRun.generations, made, List.foldl_append]
    rfl
  have applied := applyAll_eq going run.pump.converter unfinished
  have fed : Fed (run.generations codec)
      (Track.new.moveAll (ResponsesPump.serverToolNames run.webSearch) run.exposeThinking
        (going.flatMap callMoves))
      (run.pump.converter.moveAll (going.flatMap callMoves)).1 := by
    rw [generations]
    exact fed_calls going unfinished ⟨⟨rfl, rfl⟩, reads_new⟩
  have board := (board_new run.responseId run.createdAt run.model run.exposeThinking
    (ResponsesPump.serverToolNames run.webSearch)).movedAll (going.flatMap callMoves)
  have ids := board.callIds fed.reads
  obtain ⟨noted, kept⟩ := finish_notes fed.noted
  have last : (run.last codec).converter =
      ((run.pump.converter.moveAll (going.flatMap callMoves)).1.finish none).1 := by
    rw [PumpRun.last, converter, made, ResponsesConverter.applyAll_append, ← applied]
    rfl
  rw [applied, fed.noted.reason] at reason
  rw [PumpRun.shadowAction, if_pos (by simp [done, whole, noFailure]), last, commitShadow,
    noted.reason, noted.reasoning, kept, Generations.slotAction]
  by_cases called : choicesFinish (run.generations codec).current = some "tool_calls"
  · rw [if_pos called, if_pos called]
    exact ShadowAction.alike_store ids _
  · rw [if_neg called, if_pos reason, if_neg called]
    exact ShadowAction.Alike.refl _

end PumpRun

end ClineProxy
