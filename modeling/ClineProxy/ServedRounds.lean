import ClineProxy.GroundingChecks
import ClineProxy.StreamDriver
import ClineProxy.ToolChain

/-! The search rounds that a stream shows, and the messages that they are read back as. -/

namespace ClineProxy

open Json Text

/-- A search call with the id that was made for it and its outcome. -/
structure ShownCall where
  call : OpenAiToolCall
  id : String
  outcome : SearchOutcome
  id_filled : id ≠ ""

def serverInput (codec : Codec) (call : OpenAiToolCall) : Value :=
  ((codec.fromStr call.arguments).filter Value.isObject).getD (.object [])

theorem isObject_serverInput (codec : Codec) (call : OpenAiToolCall) :
    (serverInput codec call).isObject = true := by
  rw [serverInput]
  cases found : (codec.fromStr call.arguments).filter Value.isObject with
  | none => rfl
  | some input => exact (Option.filter_eq_some_iff.mp found).2

namespace ShownCall

def useBlock (codec : Codec) (shown : ShownCall) : Value :=
  .object [("type", .string "server_tool_use"), ("id", .string shown.id),
    ("name", .string webSearchFunctionName), ("input", serverInput codec shown.call)]

def resultBlock (shown : ShownCall) : Value := (clientBlocks shown.id shown.outcome).2

def useFrames (codec : Codec) (index : Nat) (shown : ShownCall) : List SseFrame :=
  [.blockStart index (.object [("type", .string "server_tool_use"), ("id", .string shown.id),
      ("name", .string webSearchFunctionName), ("input", .object [])]),
    .blockDelta index "input_json_delta" "partial_json"
      (codec.toText (serverInput codec shown.call)),
    .blockStop index]

def resultFrames (index : Nat) (shown : ShownCall) : List SseFrame :=
  [.blockStart index shown.resultBlock, .blockStop index]

end ShownCall

def roundBlocks (codec : Codec) (round : List ShownCall) : List Value :=
  round.map (ShownCall.useBlock codec) ++ round.map ShownCall.resultBlock

def framesFrom (frames : Nat → ShownCall → List SseFrame) (index : Nat) :
    List ShownCall → List SseFrame
  | [] => []
  | shown :: rest => frames index shown ++ framesFrom frames (index + 1) rest

theorem serverToolUses_shows (codec : Codec) {ids : Nat → String}
    (filled : ∀ count, ids count ≠ "") (calls : List OpenAiToolCall)
    (outcomes : List SearchOutcome) (answered : outcomes.length = calls.length)
    (state : StreamState) : ∃ round : List ShownCall, round.map ShownCall.call = calls ∧
      round.map ShownCall.outcome = outcomes ∧
      (state.serverToolUses codec ids calls).1 = { state with
        blocks := state.blocks ++ round.map fun _ => .closed
        pendingServerIds := state.pendingServerIds ++ round.map ShownCall.id } ∧
      (state.serverToolUses codec ids calls).2 =
        framesFrom (ShownCall.useFrames codec) state.blocks.length round := by
  induction calls generalizing outcomes state with
  | nil =>
      obtain rfl := List.length_eq_zero_iff.mp answered
      refine ⟨[], rfl, rfl, ?_, rfl⟩
      rw [List.map_nil, List.map_nil, List.append_nil, List.append_nil]
      rfl
  | cons call rest ih =>
      cases outcomes with
      | nil => cases answered
      | cons outcome outcomes =>
          have equal : outcomes.length = rest.length := Nat.succ.inj answered
          let next := (state.serverToolUse codec call (ids rest.length)).1
          obtain ⟨round, calls, ends, final, frames⟩ := ih outcomes equal next
          refine ⟨⟨call, ids rest.length, outcome, filled _⟩ :: round, by rw [List.map_cons, calls],
            by rw [List.map_cons, ends], ?_, ?_⟩
          · rw [StreamState.serverToolUses, Emission.andThen]
            refine final.trans ?_
            simp only [next, StreamState.serverToolUse, StreamState.pushBlock, List.map_cons,
              List.append_assoc, List.singleton_append]
          · rw [StreamState.serverToolUses, Emission.andThen]
            have length : next.blocks.length = state.blocks.length + 1 := by
              simp [next, StreamState.serverToolUse, StreamState.pushBlock]
            rw [length] at frames
            exact congrArg ((state.serverToolUse codec call (ids rest.length)).2 ++ ·) frames

theorem serverToolResults_shows (round : List ShownCall) (state : StreamState) :
    (state.serverToolResults ((round.map ShownCall.id).zip (round.map ShownCall.outcome))).2 =
      framesFrom ShownCall.resultFrames state.blocks.length round := by
  induction round generalizing state with
  | nil => rfl
  | cons shown rest ih =>
      rw [List.map_cons, List.map_cons, List.zip_cons_cons, StreamState.serverToolResults,
        Emission.andThen]
      have later := ih { (state.pushBlock .closed (clientBlocks shown.id shown.outcome).2).1 with
        webSearchRequests := state.webSearchRequests + 1 }
      have length : ({ (state.pushBlock .closed (clientBlocks shown.id shown.outcome).2).1 with
          webSearchRequests := state.webSearchRequests + 1 } : StreamState).blocks.length =
            state.blocks.length + 1 := by
        simp [StreamState.pushBlock]
      rw [length] at later
      exact congrArg (ShownCall.resultFrames state.blocks.length shown ++ ·) later

theorem searchRound_shows (platform : Platform) (replies : RoundReplies)
    (filled : ∀ count, replies.toolIds count ≠ "") (calls : List OpenAiToolCall)
    (outcomes : List SearchOutcome) (answered : outcomes.length = calls.length)
    (state : StreamState) :
    ∃ round : List ShownCall, round.map ShownCall.call = calls ∧
      round.map ShownCall.outcome = outcomes ∧
      (StreamBody.searchRound platform replies calls outcomes state).2 =
        (state.closeOpenContentBlocks platform).2 ++
          framesFrom (ShownCall.useFrames platform.codec)
            (state.closeOpenContentBlocks platform).1.blocks.length round ++
          framesFrom ShownCall.resultFrames
            ((state.closeOpenContentBlocks platform).1.blocks.length + round.length) round := by
  obtain ⟨round, made, ends, final, frames⟩ := serverToolUses_shows platform.codec filled calls
    outcomes answered
    { (state.closeOpenContentBlocks platform).1 with pendingServerIds := [] }
  refine ⟨round, made, ends, ?_⟩
  have results := serverToolResults_shows round { (state.closeOpenContentBlocks platform).1 with
    blocks := (state.closeOpenContentBlocks platform).1.blocks ++ round.map fun _ => .closed
    pendingServerIds := [] }
  rw [StreamBody.searchRound, Emission.andThen, StreamState.emitServerToolUse, Emission.andThen]
  dsimp only
  rw [final, frames, StreamState.finishServerToolRound]
  dsimp only
  rw [List.nil_append, ← ends, results, List.length_append, List.length_map]

/-- What the tool message of a search says. -/
def ResultText (outcome : SearchOutcome) (text : String) : Prop :=
  match outcome.error with
  | some error => text = "Web search failed: " ++ error.asStr
  | none => text.toList <+: untruncatedReplayedText (outcome.results.map searchResultEntry)

/-- The text of the results is not cut inside a character. -/
def ReplaysText (outcome : SearchOutcome) : Prop :=
  outcome.error = none →
    CutsBetween (untruncatedReplayedText (outcome.results.map searchResultEntry))

theorem resultBlock_content {shown : ShownCall} (succeeded : shown.outcome.error = none) :
    shown.resultBlock.get "content" =
      some (.array (shown.outcome.results.map searchResultEntry)) := by
  rw [ShownCall.resultBlock, clientBlocks, succeeded]
  rfl

def ShownCall.text (shown : ShownCall) : String :=
  (replayedResultText shown.resultBlock).toOption.getD ""

theorem replayedResultText_shown {shown : ShownCall} (replays : ReplaysText shown.outcome) :
    replayedResultText shown.resultBlock = .ok shown.text ∧
      ResultText shown.outcome shown.text := by
  cases failed : shown.outcome.error with
  | some error =>
      have written : replayedResultText shown.resultBlock =
          .ok ("Web search failed: " ++ error.asStr) := by
        rw [ShownCall.resultBlock, clientBlocks, failed]
        rfl
      rw [ShownCall.text, written]
      exact ⟨rfl, by rw [ResultText, failed]; rfl⟩
  | none =>
      obtain ⟨text, written, -, starts⟩ :=
        (replayedResultText_safe (resultBlock_content failed)).mpr (replays failed)
      rw [ShownCall.text, written]
      exact ⟨rfl, by rw [ResultText, failed]; exact starts⟩

theorem replaysText_of_written {shown : ShownCall} {text : String}
    (written : replayedResultText shown.resultBlock = .ok text) : ReplaysText shown.outcome := by
  intro succeeded
  rw [replayedResultText, resultBlock_content succeeded] at written
  obtain ⟨cut, appended, -⟩ := map_eq_ok.mp written
  by_cases short : utf8Len (untruncatedReplayedText
      (shown.outcome.results.map searchResultEntry)) < maxGroundingBytes
  · exact .inl short
  · rw [appendGrounding_long (.inl replayedHeading_short) (Nat.not_lt.mp short)] at appended
    cases kept : truncateBytes maxGroundingBytes ("Web search results:\n".toList ++
        groundingEntries 1 (shown.outcome.results.map searchResultEntry)) with
    | none =>
        rw [kept] at appended
        cases appended
    | some found => exact .inr ⟨found, truncateBytes_eq_some.mp kept⟩

def servedCall (codec : Codec) (shown : ShownCall) : Value :=
  toolCall shown.id webSearchFunctionName (codec.toText (serverInput codec shown.call))

def servedResult (shown : ShownCall) : WireMessage := .tool shown.id (.string shown.text) none

def servedMessages (codec : Codec) (round : List ShownCall) : List WireMessage :=
  (if round.isEmpty then [] else [.assistant [] (round.map (servedCall codec)) ""]) ++
    round.map servedResult

theorem requiredString_text {object : Map} {name text : String}
    (found : object.get name = some (.string text)) (filled : text ≠ "") :
    requiredString object name = .ok text := by
  refine requiredString_eq_ok.mpr ⟨by rw [found]; rfl, ?_⟩
  rw [Bool.eq_false_iff, ne_eq, String.isEmpty_iff]
  exact filled

theorem flush_closed {turn : AssistantTurn} (closed : turn.segment = .empty) :
    turn.flush = turn := by
  rw [AssistantTurn.flush, closed]
  rfl

theorem useBlock_turn {codec : Codec} {turn : AssistantTurn} {shown : ShownCall}
    (closed : turn.segment = .empty) (fresh : shown.id ∉ turn.pendingServerIds) :
    convertAssistantBlock codec turn (shown.useBlock codec) = .ok { turn with
      pendingServerIds := turn.pendingServerIds ++ [shown.id]
      serverCalls := turn.serverCalls ++ [servedCall codec shown] } := by
  change assistantServerToolUse codec _ turn = _
  rw [assistantServerToolUse, flush_closed closed]
  dsimp only
  rw [@requiredString_text _ _ shown.id rfl shown.id_filled]
  dsimp only [bind, Except.bind]
  rw [if_neg fresh, @requiredString_text _ _ webSearchFunctionName rfl (by decide)]
  have object := isObject_serverInput codec shown.call
  simp [Map.get, OrderedMap.lookup, object, pure, Except.pure, servedCall]

theorem useBlocks_turn {codec : Codec} {turn : AssistantTurn} {round : List ShownCall}
    (closed : turn.segment = .empty)
    (fresh : (turn.pendingServerIds ++ round.map ShownCall.id).Nodup) :
    (round.map (ShownCall.useBlock codec)).foldlM (convertAssistantBlock codec) turn =
      .ok { turn with
        pendingServerIds := turn.pendingServerIds ++ round.map ShownCall.id
        serverCalls := turn.serverCalls ++ round.map (servedCall codec) } := by
  induction round generalizing turn with
  | nil =>
      rw [List.map_nil, List.map_nil, List.map_nil, List.append_nil, List.append_nil]
      rfl
  | cons shown rest ih =>
      rw [List.map_cons, List.append_cons] at fresh
      have unused : shown.id ∉ turn.pendingServerIds := fun used =>
        List.disjoint_of_nodup_append (List.nodup_append.mp fresh).1 used (List.mem_singleton_self _)
      rw [List.map_cons, List.foldlM_cons, useBlock_turn closed unused]
      refine (ih ?_ ?_).trans ?_
      · exact closed
      · exact fresh
      · simp only [List.map_cons, List.append_assoc, List.singleton_append]

theorem flushServerCalls_fields (turn : AssistantTurn) :
    turn.flushServerCalls.pendingServerIds = turn.pendingServerIds ∧
      turn.flushServerCalls.seenServerResults = turn.seenServerResults ∧
      turn.flushServerCalls.serverCalls = [] := by
  rw [AssistantTurn.flushServerCalls]
  split
  next empty => exact ⟨rfl, rfl, List.isEmpty_iff.mp empty⟩
  next => exact ⟨rfl, rfl, rfl⟩

theorem resultBlock_turn {codec : Codec} {turn : AssistantTurn} {shown : ShownCall}
    (replays : ReplaysText shown.outcome) (known : shown.id ∈ turn.pendingServerIds)
    (fresh : shown.id ∉ turn.seenServerResults) :
    convertAssistantBlock codec turn shown.resultBlock = .ok { turn.flushServerCalls with
      seenServerResults := turn.seenServerResults ++ [shown.id]
      output := turn.flushServerCalls.output ++ [servedResult shown] } := by
  obtain ⟨-, seen, -⟩ := flushServerCalls_fields turn
  change assistantSearchResult shown.resultBlock _ turn = _
  rw [assistantSearchResult, @requiredString_text _ _ shown.id rfl shown.id_filled]
  dsimp only [bind, Except.bind]
  rw [if_neg (not_not.mpr known), if_neg fresh, (replayedResultText_shown replays).1]
  dsimp only
  rw [seen]
  rfl

theorem resultBlocks_turn {codec : Codec} {turn : AssistantTurn} {round : List ShownCall}
    (replays : ∀ shown ∈ round, ReplaysText shown.outcome) (flushed : turn.serverCalls = [])
    (known : ∀ shown ∈ round, shown.id ∈ turn.pendingServerIds)
    (fresh : (turn.seenServerResults ++ round.map ShownCall.id).Nodup) :
    (round.map ShownCall.resultBlock).foldlM (convertAssistantBlock codec) turn =
      .ok { turn with
        seenServerResults := turn.seenServerResults ++ round.map ShownCall.id
        output := turn.output ++ round.map servedResult } := by
  induction round generalizing turn with
  | nil =>
      rw [List.map_nil, List.map_nil, List.map_nil, List.append_nil, List.append_nil]
      rfl
  | cons shown rest ih =>
      rw [List.map_cons, List.append_cons] at fresh
      have unused : shown.id ∉ turn.seenServerResults := fun used =>
        List.disjoint_of_nodup_append (List.nodup_append.mp fresh).1 used (List.mem_singleton_self _)
      have same : turn.flushServerCalls = turn := by
        rw [AssistantTurn.flushServerCalls, flushed]
        rfl
      rw [List.map_cons, List.foldlM_cons, resultBlock_turn (replays shown List.mem_cons_self)
        (known shown List.mem_cons_self) unused, same]
      refine (ih (fun later member => replays later (List.mem_cons_of_mem _ member)) ?_ ?_
        ?_).trans ?_
      · exact flushed
      · exact fun later member => known later (List.mem_cons_of_mem _ member)
      · exact fresh
      · simp only [List.map_cons, List.append_assoc, List.singleton_append]

theorem resultBlock_flushed {codec : Codec} (turn : AssistantTurn) (shown : ShownCall) :
    convertAssistantBlock codec turn shown.resultBlock =
      convertAssistantBlock codec turn.flushServerCalls shown.resultBlock := by
  obtain ⟨pending, seen, flushed⟩ := flushServerCalls_fields turn
  have again : turn.flushServerCalls.flushServerCalls = turn.flushServerCalls := by
    rw [AssistantTurn.flushServerCalls.eq_1 turn.flushServerCalls, flushed]
    rfl
  change assistantSearchResult shown.resultBlock _ turn =
    assistantSearchResult shown.resultBlock _ turn.flushServerCalls
  simp only [assistantSearchResult, pending, seen, again]

theorem roundBlocks_turn {codec : Codec} {turn : AssistantTurn} {round : List ShownCall}
    (replays : ∀ shown ∈ round, ReplaysText shown.outcome)
    (closed : turn.segment = .empty) (flushed : turn.serverCalls = [])
    (answered : turn.seenServerResults = turn.pendingServerIds)
    (fresh : (turn.pendingServerIds ++ round.map ShownCall.id).Nodup) :
    (roundBlocks codec round).foldlM (convertAssistantBlock codec) turn = .ok { turn with
      pendingServerIds := turn.pendingServerIds ++ round.map ShownCall.id
      seenServerResults := turn.pendingServerIds ++ round.map ShownCall.id
      output := turn.output ++ servedMessages codec round } := by
  rw [roundBlocks, List.foldlM_append, useBlocks_turn closed fresh, flushed, List.nil_append]
  cases round with
  | nil =>
      simp only [List.map_nil, List.append_nil, servedMessages, List.isEmpty_nil, ↓reduceIte]
      rw [← answered]
      cases turn
      cases flushed
      rfl
  | cons shown rest =>
      let called := { turn with
        pendingServerIds := turn.pendingServerIds ++ (shown :: rest).map ShownCall.id
        serverCalls := (shown :: rest).map (servedCall codec) }
      have results := @resultBlocks_turn codec called.flushServerCalls (shown :: rest) replays
        rfl (fun later member => List.mem_append_right _ (List.mem_map_of_mem member))
        (by rw [← answered] at fresh; exact fresh)
      rw [List.map_cons, List.foldlM_cons, ← resultBlock_flushed, ← List.foldlM_cons,
        ← List.map_cons] at results
      refine results.trans ?_
      simp only [called, AssistantTurn.flushServerCalls, List.map_cons, List.isEmpty_cons,
        servedMessages, answered, List.append_assoc, Bool.false_eq_true, ↓reduceIte]

/-- The rounds before an answer become their messages, and leave nothing behind. -/
theorem rounds_turn {codec : Codec} {turn : AssistantTurn} {rounds : List (List ShownCall)}
    (replays : ∀ round ∈ rounds, ∀ shown ∈ round, ReplaysText shown.outcome)
    (closed : turn.segment = .empty) (flushed : turn.serverCalls = [])
    (answered : turn.seenServerResults = turn.pendingServerIds)
    (fresh : (turn.pendingServerIds ++ rounds.flatten.map ShownCall.id).Nodup) :
    (rounds.flatMap (roundBlocks codec)).foldlM (convertAssistantBlock codec) turn =
      .ok { turn with
        pendingServerIds := turn.pendingServerIds ++ rounds.flatten.map ShownCall.id
        seenServerResults := turn.pendingServerIds ++ rounds.flatten.map ShownCall.id
        output := turn.output ++ rounds.flatMap (servedMessages codec) } := by
  induction rounds generalizing turn with
  | nil =>
      simp only [List.flatMap_nil, List.flatten_nil, List.map_nil, List.append_nil]
      obtain ⟨output, segment, calls, pending, seen, tools⟩ := turn
      cases answered
      rfl
  | cons round rest ih =>
      rw [List.flatten_cons, List.map_append, ← List.append_assoc] at fresh
      rw [List.flatMap_cons, List.foldlM_append,
        roundBlocks_turn (replays round List.mem_cons_self) closed flushed answered
          (List.nodup_append.mp fresh).1]
      refine (ih (fun later member => replays later (List.mem_cons_of_mem _ member)) ?_ ?_ ?_
        ?_).trans ?_
      · exact closed
      · exact flushed
      · rfl
      · exact fresh
      · simp only [List.flatMap_cons, List.flatten_cons, List.map_append, List.append_assoc]

theorem replaysText_of_read {codec : Codec} {turn final : AssistantTurn} {blocks : List Value}
    (done : blocks.foldlM (convertAssistantBlock codec) turn = .ok final) {shown : ShownCall}
    (member : shown.resultBlock ∈ blocks) : ReplaysText shown.outcome := by
  induction blocks generalizing turn with
  | nil => cases member
  | cons block rest ih =>
      rw [List.foldlM_cons] at done
      obtain ⟨next, first, done⟩ := bind_eq_ok.mp done
      rcases List.mem_cons.mp member with rfl | later
      · change assistantSearchResult shown.resultBlock _ turn = _ at first
        obtain ⟨id, -, first⟩ := bind_eq_ok.mp first
        split at first
        next => cases first
        next =>
          split at first
          next => cases first
          next =>
            obtain ⟨text, written, -⟩ := bind_eq_ok.mp first
            exact replaysText_of_written written
      · exact ih done later

end ClineProxy
