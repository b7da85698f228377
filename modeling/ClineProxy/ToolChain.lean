import Mathlib.Data.List.Perm.Subperm
import ClineProxy.AnthropicRequest
import ClineProxy.CallChain

/-! Which converted requests keep every tool result behind the call that it answers. -/

namespace ClineProxy

open Json CallChain

def stringMember (name : String) (value : Value) : String :=
  ((value.get name).bind Value.asStr).getD ""

def callIds (calls : List Value) : List String :=
  calls.filterMap fun call => (call.get "id").bind Value.asStr

/-- What a chat completion message is in the chain of tool calls and results. -/
def chainEntry (message : Value) : Entry String :=
  match stringMember "role" message with
  | "tool" => .answer (stringMember "tool_call_id" message)
  | "assistant" => .calls (callIds (((message.get "tool_calls").bind Value.asArray).getD []))
  | _ => .other

def ToolChainWellFormed (body : Value) : Prop :=
  WellFormed ((((body.get "messages").bind Value.asArray).getD []).map chainEntry)

inductive BlockRole where
  | toolUse (id : String)
  | serverToolUse (id : String)
  | serverToolResult (id : String)
  | other
  deriving DecidableEq

def blockRole (block : Value) : BlockRole :=
  match stringMember "type" block with
  | "tool_use" => .toolUse (stringMember "id" block)
  | "server_tool_use" => .serverToolUse (stringMember "id" block)
  | "web_search_tool_result" => .serverToolResult (stringMember "tool_use_id" block)
  | _ => .other

/-- The server tool uses of a turn that still wait for a result, whether one was answered
since the last of them, and the tool uses that follow the last of them. -/
structure Rounds where
  waiting : List String
  answered : Bool
  uses : List String
  closed : Bool

namespace Rounds

def start : Rounds := ⟨[], true, [], true⟩

/-- A server tool use may not follow a result while an earlier use is waiting. -/
def step (rounds : Rounds) : BlockRole → Rounds
  | .toolUse id => { rounds with uses := rounds.uses ++ [id] }
  | .serverToolUse id =>
      { waiting := rounds.waiting ++ [id]
        answered := false
        uses := []
        closed := rounds.closed && (!rounds.answered || rounds.waiting.isEmpty) }
  | .serverToolResult id =>
      { rounds with waiting := rounds.waiting.filter (· ≠ id), answered := true }
  | .other => rounds

def ofBlocks (blocks : List Value) : Rounds :=
  (blocks.map blockRole).foldl step start

end Rounds

def roleBlocks (role : String) (message : Value) : List Value :=
  if stringMember "role" message = role then
    ((message.get "content").bind Value.asArray).getD []
  else []

def toolResultIds (blocks : List Value) : List String :=
  (blocks.filter fun block => stringMember "type" block = "tool_result").map
    (stringMember "tool_use_id")

/-- Server rounds are closed before the next one opens, and tool results refer to tool uses
that stand after the last server tool use of the message before. -/
def RoundsSeparate (declared : List String) : List Value → Prop
  | [] => True
  | message :: rest =>
      let rounds := Rounds.ofBlocks (roleBlocks "assistant" message)
      rounds.closed = true ∧
        (∀ id ∈ toolResultIds (roleBlocks "user" message), id ∈ declared) ∧
        RoundsSeparate rounds.uses rest

instance roundsSeparateDecidable :
    (declared : List String) → (inputs : List Value) → Decidable (RoundsSeparate declared inputs)
  | _, [] => inferInstanceAs (Decidable True)
  | _, message :: rest =>
      have := roundsSeparateDecidable (Rounds.ofBlocks (roleBlocks "assistant" message)).uses rest
      inferInstanceAs (Decidable (_ ∧ _ ∧ _))

theorem requiredString_stringMember {object : Map} {name text : String}
    (found : requiredString object name = .ok text) :
    stringMember name (.object object) = text := by
  have present := (requiredString_eq_ok.mp found).1
  rw [Map.get] at present
  simp [stringMember, present]

def WireMessage.entry (message : WireMessage) : Entry String := chainEntry message.intoWire

@[simp] theorem entry_system (content : Value) :
    (WireMessage.system content).entry = .other := by
  simp [WireMessage.entry, WireMessage.intoWire, chainEntry, stringMember, OrderedMap.lookup]

@[simp] theorem entry_user (content : Value) :
    (WireMessage.user "user" content).entry = .other := by
  simp [WireMessage.entry, WireMessage.intoWire, chainEntry, stringMember, OrderedMap.lookup]

@[simp] theorem entry_assistant_text (content : Value) :
    (WireMessage.user "assistant" content).entry = .calls [] := by
  simp [WireMessage.entry, WireMessage.intoWire, chainEntry, stringMember, OrderedMap.lookup,
    callIds]

@[simp] theorem entry_tool (id : String) (content : Value) (isError : Option Bool) :
    (WireMessage.tool id content isError).entry = .answer id := by
  simp [WireMessage.entry, WireMessage.intoWire, chainEntry, stringMember, OrderedMap.lookup]

@[simp] theorem entry_assistant (content calls : List Value) (reasoning : String) :
    (WireMessage.assistant content calls reasoning).entry = .calls (callIds calls) := by
  by_cases none : calls = [] <;> by_cases silent : reasoning.isEmpty = true <;>
    simp [WireMessage.entry, WireMessage.intoWire, chainEntry, stringMember, OrderedMap.lookup,
      none, silent, callIds]

@[simp] theorem callIds_nil : callIds [] = [] := rfl

@[simp] theorem callIds_append_toolCall (calls : List Value) (id name arguments : String) :
    callIds (calls ++ [toolCall id name arguments]) = callIds calls ++ [id] := by
  simp [callIds, toolCall, OrderedMap.lookup]

theorem flush_fields (turn : AssistantTurn) :
    turn.flush.serverCalls = turn.serverCalls ∧
      turn.flush.pendingServerIds = turn.pendingServerIds ∧
      turn.flush.seenServerResults = turn.seenServerResults := by
  rw [AssistantTurn.flush]
  split <;> exact ⟨rfl, rfl, rfl⟩

theorem flush_toolCalls (turn : AssistantTurn) : turn.flush.segment.toolCalls = [] := by
  rw [AssistantTurn.flush]
  split
  next empty =>
    simp only [Segment.isEmpty, Bool.and_eq_true, List.isEmpty_iff] at empty
    exact empty.1.2
  next => rfl

def BlockEffect (turn next : AssistantTurn) : BlockRole → Prop
  | .other =>
      ∃ content reasoning, next = { turn with
        segment := ⟨content, turn.segment.toolCalls, reasoning⟩ }
  | .toolUse id =>
      turn.pendingServerIds.length = turn.seenServerResults.length ∧
        ∃ name arguments pending, next = { turn with
          pendingToolIds := pending
          segment := { turn.segment with
            toolCalls := turn.segment.toolCalls ++ [toolCall id name arguments] } }
  | .serverToolUse id =>
      id ∉ turn.pendingServerIds ∧ ∃ name arguments, next = { turn.flush with
        pendingServerIds := turn.pendingServerIds ++ [id]
        serverCalls := turn.serverCalls ++ [toolCall id name arguments] }
  | .serverToolResult id =>
      id ∈ turn.pendingServerIds ∧ id ∉ turn.seenServerResults ∧
        ∃ text, next = { turn.flushServerCalls with
          seenServerResults := turn.seenServerResults ++ [id]
          output := turn.flushServerCalls.output ++ [.tool id text none] }

theorem requireServerResults_eq_ok {turn : AssistantTurn} {result : Unit}
    (done : turn.requireServerResults = .ok result) :
    turn.pendingServerIds.length = turn.seenServerResults.length := by
  rw [AssistantTurn.requireServerResults] at done
  split at done
  next => cases done
  next equal => exact not_not.mp equal

theorem assistantText_effect {object : Map} {turn next : AssistantTurn}
    (done : assistantText object turn = .ok next) : BlockEffect turn next .other := by
  obtain ⟨_, -, done⟩ := bind_eq_ok.mp done
  obtain ⟨text, -, done⟩ := bind_eq_ok.mp done
  cases done
  exact ⟨_, _, rfl⟩

theorem assistantToolUse_effect {codec : Codec} {object : Map} {turn next : AssistantTurn}
    (done : assistantToolUse codec object turn = .ok next) :
    BlockEffect turn next (.toolUse (stringMember "id" (.object object))) := by
  obtain ⟨_, required, done⟩ := bind_eq_ok.mp done
  obtain ⟨id, found, done⟩ := bind_eq_ok.mp done
  obtain ⟨name, -, done⟩ := bind_eq_ok.mp done
  cases done
  rw [requiredString_stringMember found]
  exact ⟨requireServerResults_eq_ok required, name, _, _, rfl⟩

theorem assistantServerToolUse_effect {codec : Codec} {object : Map} {turn next : AssistantTurn}
    (done : assistantServerToolUse codec object turn = .ok next) :
    BlockEffect turn next (.serverToolUse (stringMember "id" (.object object))) := by
  obtain ⟨calls, pending, -⟩ := flush_fields turn
  obtain ⟨id, found, done⟩ := bind_eq_ok.mp done
  rw [requiredString_stringMember found]
  split at done
  next => cases done
  next fresh =>
    dsimp only at done
    split at done
    next => cases done
    next =>
      obtain ⟨name, -, done⟩ := bind_eq_ok.mp done
      cases done
      rw [pending] at fresh
      exact ⟨fresh, name, _, by rw [calls, pending]⟩

theorem assistantSearchResult_effect {block : Value} {object : Map} {turn next : AssistantTurn}
    (done : assistantSearchResult block object turn = .ok next) :
    BlockEffect turn next (.serverToolResult (stringMember "tool_use_id" (.object object))) := by
  have seen : turn.flushServerCalls.seenServerResults = turn.seenServerResults := by
    rw [AssistantTurn.flushServerCalls]
    split <;> rfl
  obtain ⟨id, found, done⟩ := bind_eq_ok.mp done
  rw [requiredString_stringMember found]
  split at done
  next => cases done
  next known =>
    split at done
    next => cases done
    next fresh =>
      obtain ⟨text, -, done⟩ := bind_eq_ok.mp done
      cases done
      exact ⟨not_not.mp known, fresh, _, by rw [seen]⟩

theorem convertAssistantBlock_effect {codec : Codec} {turn next : AssistantTurn} {block : Value}
    (done : convertAssistantBlock codec turn block = .ok next) :
    BlockEffect turn next (blockRole block) := by
  obtain ⟨object, isObject, done⟩ := bind_eq_ok.mp done
  obtain ⟨kind, found, done⟩ := bind_eq_ok.mp done
  obtain rfl := Value.asObject_eq_some (orReject_eq_ok.mp isObject)
  rw [blockRole, requiredString_stringMember found]
  split at done
  next => exact assistantText_effect done
  next =>
    cases done
    exact ⟨_, _, rfl⟩
  next =>
    cases done
    exact ⟨_, _, rfl⟩
  next => exact assistantToolUse_effect done
  next => exact assistantServerToolUse_effect done
  next => exact assistantSearchResult_effect done
  next => cases done

def entries (messages : List WireMessage) : List (Entry String) :=
  messages.map WireMessage.entry

@[simp] theorem entries_append (first second : List WireMessage) :
    entries (first ++ second) = entries first ++ entries second := by
  simp [entries]

theorem map_chainEntry (messages : List WireMessage) :
    (messages.map WireMessage.intoWire).map chainEntry = entries messages := by
  rw [List.map_map]
  rfl

def Unbroken (left : List String) (turn : AssistantTurn) (rounds : Rounds) : Prop :=
  ∃ waiting, scan left (entries turn.output) = some waiting ∧
    (rounds.answered = false →
      turn.serverCalls ≠ [] ∧ callIds turn.serverCalls = rounds.waiting) ∧
    (rounds.answered = true → turn.serverCalls = [] ∧
      ((turn.output = [] ∧ rounds.waiting = []) ∨ waiting = rounds.waiting))

/-- The chain is broken, or a use waits for a result that will break it. -/
def Breaking (left : List String) (turn : AssistantTurn) (rounds : Rounds) : Prop :=
  ∀ waiting, scan left (entries turn.output) = some waiting →
    ∃ id ∈ rounds.waiting, id ∉ callIds turn.serverCalls ∧
      (turn.serverCalls = [] → id ∉ waiting)

structure Follows (left : List String) (turn : AssistantTurn) (rounds : Rounds) : Prop where
  distinctPending : turn.pendingServerIds.Nodup
  distinctSeen : turn.seenServerResults.Nodup
  known : turn.seenServerResults ⊆ turn.pendingServerIds
  waiting_iff : ∀ id, id ∈ rounds.waiting ↔
    id ∈ turn.pendingServerIds ∧ id ∉ turn.seenServerResults
  uses : callIds turn.segment.toolCalls = rounds.uses
  unbroken : rounds.closed = true → Unbroken left turn rounds
  breaking : rounds.closed = false → Breaking left turn rounds

theorem follows_start (left : List String) : Follows left .start .start where
  distinctPending := List.nodup_nil
  distinctSeen := List.nodup_nil
  known := List.Subset.refl _
  waiting_iff := by simp [AssistantTurn.start, Rounds.start]
  uses := rfl
  unbroken _ := ⟨left, rfl, by simp [Rounds.start], fun _ => ⟨rfl, .inl ⟨rfl, rfl⟩⟩⟩
  breaking open_ := by simp [Rounds.start] at open_

theorem follows_answered {left : List String} {turn : AssistantTurn} {rounds : Rounds}
    (follows : Follows left turn rounds)
    (all : turn.pendingServerIds.length = turn.seenServerResults.length) :
    rounds.waiting = [] := by
  have sub := List.subperm_of_subset follows.distinctSeen follows.known
  have same := sub.perm_of_length_le (by omega)
  refine List.eq_nil_iff_forall_not_mem.mpr fun id member => ?_
  have parts := (follows.waiting_iff id).mp member
  exact parts.2 (same.mem_iff.mpr parts.1)

theorem follows_other {left : List String} {turn next : AssistantTurn} {rounds : Rounds}
    (follows : Follows left turn rounds) (effect : BlockEffect turn next .other) :
    Follows left next (rounds.step .other) := by
  obtain ⟨content, reasoning, rfl⟩ := effect
  exact ⟨follows.distinctPending, follows.distinctSeen, follows.known, follows.waiting_iff,
    follows.uses, follows.unbroken, follows.breaking⟩

theorem follows_toolUse {left : List String} {turn next : AssistantTurn} {rounds : Rounds}
    {id : String} (follows : Follows left turn rounds)
    (effect : BlockEffect turn next (.toolUse id)) :
    Follows left next (rounds.step (.toolUse id)) := by
  obtain ⟨-, name, arguments, pending, rfl⟩ := effect
  exact ⟨follows.distinctPending, follows.distinctSeen, follows.known, follows.waiting_iff,
    by simp [Rounds.step, follows.uses], follows.unbroken, follows.breaking⟩

theorem scan_flush (left : List String) (turn : AssistantTurn) :
    scan left (entries turn.flush.output) =
      if turn.segment.isEmpty then scan left (entries turn.output)
      else (scan left (entries turn.output)).map fun _ => callIds turn.segment.toolCalls := by
  rw [AssistantTurn.flush]
  split
  next => rfl
  next =>
    rw [entries_append, scan_append]
    cases scan left (entries turn.output) <;> simp [entries, scan]

theorem scan_flushServerCalls (left : List String) (turn : AssistantTurn) :
    scan left (entries turn.flushServerCalls.output) =
      if turn.serverCalls.isEmpty then scan left (entries turn.output)
      else (scan left (entries turn.output)).map fun _ => callIds turn.serverCalls := by
  rw [AssistantTurn.flushServerCalls]
  split
  next => rfl
  next =>
    rw [entries_append, scan_append]
    cases scan left (entries turn.output) <;> simp [entries, scan]

theorem follows_serverToolUse {left : List String} {turn next : AssistantTurn} {rounds : Rounds}
    {id : String} (follows : Follows left turn rounds)
    (effect : BlockEffect turn next (.serverToolUse id)) :
    Follows left next (rounds.step (.serverToolUse id)) := by
  obtain ⟨fresh, name, arguments, rfl⟩ := effect
  obtain ⟨-, -, seen⟩ := flush_fields turn
  have unseen : id ∉ turn.seenServerResults := fun member => fresh (follows.known member)
  have not_waiting : id ∉ rounds.waiting := fun member =>
    fresh ((follows.waiting_iff id).mp member).1
  have flushed := scan_flush left turn
  refine ⟨?_, ?_, ?_, ?_, ?_, ?_, ?_⟩
  · refine List.nodup_append.mpr ⟨follows.distinctPending, by simp, ?_⟩
    rintro other member new added rfl
    exact fresh (List.mem_singleton.mp added ▸ member)
  · rw [seen]
    exact follows.distinctSeen
  · rw [seen]
    exact fun other member => List.mem_append_left _ (follows.known member)
  · intro other
    have before := follows.waiting_iff other
    simp only [Rounds.step, List.mem_append, List.mem_singleton, seen, before]
    by_cases same : other = id
    · simp [same, unseen]
    · simp [same]
  · simp [flush_toolCalls, Rounds.step]
  · intro closed
    simp only [Rounds.step, Bool.and_eq_true, Bool.or_eq_true, Bool.not_eq_true',
      List.isEmpty_iff] at closed
    obtain ⟨waiting, scanned, pending, settled⟩ := follows.unbroken closed.1
    have batch : callIds turn.serverCalls = rounds.waiting := by
      rcases answered : rounds.answered with _ | _
      · exact (pending answered).2
      · rw [(settled answered).1]
        simpa [answered, eq_comm] using closed.2
    refine ⟨if turn.segment.isEmpty then waiting else callIds turn.segment.toolCalls, ?_, ?_, ?_⟩
    · rw [flushed, scanned]
      split <;> rfl
    · simp [Rounds.step, batch]
    · simp [Rounds.step]
  · intro open_ waiting scanned
    suffices late : ∃ other ∈ rounds.waiting, other ∉ callIds turn.serverCalls by
      obtain ⟨other, member, absent⟩ := late
      have different : other ≠ id := fun same => not_waiting (same ▸ member)
      exact ⟨other, by simp [Rounds.step, member], by simp [absent, different], by simp⟩
    rcases closed : rounds.closed with _ | _
    · -- the use that will break the chain is still waiting
      obtain ⟨earlier, before⟩ : ∃ earlier, scan left (entries turn.output) = some earlier := by
        rw [flushed] at scanned
        cases before : scan left (entries turn.output) <;> simp_all
      obtain ⟨other, member, absent, -⟩ := follows.breaking closed earlier before
      exact ⟨other, member, absent⟩
    · -- the chain breaks here: a use of an answered batch is still waiting
      simp only [Rounds.step, closed, Bool.true_and, Bool.or_eq_false_iff, Bool.not_eq_false',
        List.isEmpty_eq_false_iff] at open_
      obtain ⟨_, -, -, settled⟩ := follows.unbroken closed
      obtain ⟨other, rest, shape⟩ := List.exists_cons_of_ne_nil open_.2
      exact ⟨other, by simp [shape], by simp [(settled open_.1).1]⟩

theorem follows_serverToolResult {left : List String} {turn next : AssistantTurn}
    {rounds : Rounds} {id : String} (follows : Follows left turn rounds)
    (effect : BlockEffect turn next (.serverToolResult id)) :
    Follows left next (rounds.step (.serverToolResult id)) := by
  obtain ⟨pending, unseen, text, rfl⟩ := effect
  have flushed := scan_flushServerCalls left turn
  obtain ⟨noCalls, samePending, sameSegment⟩ : turn.flushServerCalls.serverCalls = [] ∧
      turn.flushServerCalls.pendingServerIds = turn.pendingServerIds ∧
      turn.flushServerCalls.segment = turn.segment := by
    rw [AssistantTurn.flushServerCalls]
    split
    next empty => exact ⟨List.isEmpty_iff.mp empty, rfl, rfl⟩
    next => exact ⟨rfl, rfl, rfl⟩
  have member : id ∈ rounds.waiting := (follows.waiting_iff id).mpr ⟨pending, unseen⟩
  have scanned_next (waiting : List String)
      (scanned : scan left (entries turn.flushServerCalls.output) = some waiting) :
      scan left (entries (turn.flushServerCalls.output ++ [.tool id text none])) =
        if id ∈ waiting then some (waiting.filter (· ≠ id)) else none := by
    rw [entries_append, scan_append, scanned]
    simp [entries, scan]
  refine ⟨?_, ?_, ?_, ?_, ?_, ?_, ?_⟩
  · rw [samePending]
    exact follows.distinctPending
  · refine List.nodup_append.mpr ⟨follows.distinctSeen, by simp, ?_⟩
    rintro other before new added rfl
    exact unseen (List.mem_singleton.mp added ▸ before)
  · rw [samePending]
    refine List.append_subset.mpr ⟨follows.known, ?_⟩
    simpa using pending
  · intro other
    simp only [Rounds.step, List.mem_filter, follows.waiting_iff other, samePending,
      List.mem_append, List.mem_singleton, not_or, decide_eq_true_eq]
    exact and_assoc
  · rw [sameSegment]
    exact follows.uses
  · intro closed
    obtain ⟨waiting, scanned, batch, settled⟩ := follows.unbroken closed
    have sent : scan left (entries turn.flushServerCalls.output) = some rounds.waiting := by
      rw [flushed, scanned]
      rcases answered : rounds.answered with _ | _
      · simp [batch answered]
      · obtain ⟨empty, idle | same⟩ := settled answered
        · simp [idle.2] at member
        · simp [empty, same]
    refine ⟨rounds.waiting.filter (· ≠ id), ?_, by simp [Rounds.step], ?_⟩
    · rw [scanned_next _ sent, if_pos member]
    · exact fun _ => ⟨noCalls, .inr rfl⟩
  · intro broken waiting scanned
    obtain ⟨sent, before⟩ : ∃ sent,
        scan left (entries turn.flushServerCalls.output) = some sent := by
      rw [entries_append, scan_append] at scanned
      obtain ⟨sent, before, -⟩ := Option.bind_eq_some_iff.mp scanned
      exact ⟨sent, before⟩
    rw [scanned_next sent before] at scanned
    obtain ⟨held, rfl⟩ : id ∈ sent ∧ sent.filter (· ≠ id) = waiting := by
      split at scanned
      next held => exact ⟨held, Option.some.inj scanned⟩
      next => cases scanned
    rw [flushed] at before
    obtain ⟨other, stays, absent⟩ : ∃ other ∈ rounds.waiting, other ∉ sent := by
      rcases earlier : scan left (entries turn.output) with _ | waiting
      · simp [earlier] at before
      · obtain ⟨other, stays, absent, missing⟩ := follows.breaking broken waiting earlier
        refine ⟨other, stays, ?_⟩
        by_cases empty : turn.serverCalls = []
        · simp only [empty, List.isEmpty_nil, ↓reduceIte, earlier, Option.some.injEq] at before
          exact before ▸ missing empty
        · simp only [List.isEmpty_iff, empty, ↓reduceIte, earlier, Option.map_some,
            Option.some.injEq] at before
          exact before ▸ absent
    have different : other ≠ id := fun same => absent (same ▸ held)
    refine ⟨other, by simp [Rounds.step, stays, different], by simp [noCalls], fun _ => ?_⟩
    simp [absent]

theorem follows_block {left : List String} {codec : Codec} {turn next : AssistantTurn}
    {rounds : Rounds} {block : Value} (follows : Follows left turn rounds)
    (done : convertAssistantBlock codec turn block = .ok next) :
    Follows left next (rounds.step (blockRole block)) := by
  have effect := convertAssistantBlock_effect done
  cases role : blockRole block with
  | other => exact follows_other follows (role ▸ effect)
  | toolUse id => exact follows_toolUse follows (role ▸ effect)
  | serverToolUse id => exact follows_serverToolUse follows (role ▸ effect)
  | serverToolResult id => exact follows_serverToolResult follows (role ▸ effect)

theorem follows_blocks {left : List String} {codec : Codec} {blocks : List Value}
    {turn final : AssistantTurn} {rounds : Rounds} (follows : Follows left turn rounds)
    (done : blocks.foldlM (convertAssistantBlock codec) turn = .ok final) :
    Follows left final ((blocks.map blockRole).foldl Rounds.step rounds) := by
  induction blocks generalizing turn rounds with
  | nil =>
      cases done
      exact follows
  | cons block rest ih =>
      rw [List.foldlM_cons] at done
      obtain ⟨next, first, later⟩ := bind_eq_ok.mp done
      exact ih (follows_block follows first) later

/-- The chain survives an assistant turn exactly when its rounds are closed, and then waits
for the tool uses after the last round. -/
theorem convertAssistantBlocks_scan {codec : Codec} {blocks : List Value}
    {messages : List WireMessage} {pending : List String}
    (done : convertAssistantBlocks codec blocks = .ok (messages, pending)) (left : List String) :
    scan left (entries messages) =
      if (Rounds.ofBlocks blocks).closed then some (Rounds.ofBlocks blocks).uses else none := by
  obtain ⟨turn, folded, done⟩ := bind_eq_ok.mp done
  obtain ⟨finished, ended, done⟩ := bind_eq_ok.mp done
  cases done
  have follows := follows_blocks (follows_start left) folded
  rw [← Rounds.ofBlocks] at follows
  generalize Rounds.ofBlocks blocks = rounds at follows ⊢
  rw [AssistantTurn.finish] at ended
  split at ended
  next => cases ended
  next complete =>
    simp only [Bool.not_eq_true', not_or, List.isEmpty_eq_false_iff, not_not] at complete
    have all := follows_answered follows complete.2
    cases ended
    have flushed := scan_flush left turn
    rcases closed : rounds.closed with _ | _
    · have broken : scan left (entries turn.output) = none := by
        rcases scanned : scan left (entries turn.output) with _ | waiting
        · rfl
        · obtain ⟨id, member, -⟩ := follows.breaking closed waiting scanned
          simp [all] at member
      have lost : scan left (entries turn.flush.output) = none := by simp [flushed, broken]
      have sent : turn.flush.output ≠ [] := fun empty => by simp [empty, entries, scan] at lost
      simp [sent, lost]
    · obtain ⟨waiting, scanned, batch, settled⟩ := follows.unbroken closed
      have answered : rounds.answered = true := by
        rcases answered : rounds.answered with _ | _
        · exact absurd (by simpa using complete.1) (batch answered).1
        · rfl
      rcases silent : turn.segment.isEmpty with _ | _
      · have sent : turn.flush.output ≠ [] := by simp [AssistantTurn.flush, silent]
        simp [sent, flushed, silent, scanned, follows.uses]
      · have same : turn.flush = turn := by simp [AssistantTurn.flush, silent]
        have no_uses : rounds.uses = [] := by
          simp only [Segment.isEmpty, Bool.and_eq_true, List.isEmpty_iff] at silent
          rw [← follows.uses, silent.1.2, callIds_nil]
        simp only [same, no_uses]
        by_cases empty : turn.output = []
        · simp [empty, entries, scan]
        · have done_waiting : waiting = [] := by
            rcases (settled answered).2 with idle | same_waiting
            · exact absurd idle.1 empty
            · exact same_waiting.trans all
          simp [empty, scanned, done_waiting]

/-! User turns and whole conversations -/

theorem userToolResult_effect {pending : List String} {object : Map} {turn next : UserTurn}
    (done : userToolResult pending object turn = .ok next) :
    ∃ id content isError, stringMember "tool_use_id" (.object object) = id ∧
      id ∈ pending ∧ id ∉ turn.seenResultIds ∧
      next = { turn with
        seenResultIds := turn.seenResultIds ++ [id]
        output := turn.output ++ [.tool id content isError] } := by
  rw [userToolResult] at done
  split at done
  next => cases done
  next =>
    obtain ⟨id, found, done⟩ := bind_eq_ok.mp done
    split at done
    next => cases done
    next fresh =>
      obtain ⟨message, converted, done⟩ := bind_eq_ok.mp done
      obtain ⟨content, -, converted⟩ := bind_eq_ok.mp converted
      obtain ⟨again, foundAgain, converted⟩ := bind_eq_ok.mp converted
      cases found.symm.trans foundAgain
      split at converted
      next => cases converted
      next known =>
        obtain ⟨isError, -, converted⟩ := bind_eq_ok.mp converted
        cases converted
        cases done
        exact ⟨id, content, isError, requiredString_stringMember found, not_not.mp known, fresh,
          rfl⟩

structure Answers (pending ids : List String) (turn : UserTurn) : Prop where
  sent : entries turn.output = ids.map .answer
  seen : turn.seenResultIds = ids
  distinct : ids.Nodup
  declared : ids ⊆ pending

theorem answers_block {pending ids : List String} {turn next : UserTurn} {block : Value}
    (answers : Answers pending ids turn)
    (done : convertUserBlock pending turn block = .ok next) :
    Answers pending (ids ++ toolResultIds [block]) next := by
  have ordinary (added : Value) (kind : stringMember "type" block ≠ "tool_result") :
      Answers pending (ids ++ toolResultIds [block]) (turn.addOrdinary added) := by
    simp only [toolResultIds, kind, decide_false, Bool.false_eq_true, not_false_eq_true,
      List.filter_cons_of_neg, List.filter_nil, List.map_nil, List.append_nil]
    exact ⟨answers.sent, answers.seen, answers.distinct, answers.declared⟩
  obtain ⟨object, isObject, step⟩ := bind_eq_ok.mp done
  obtain ⟨kind, found, step⟩ := bind_eq_ok.mp step
  obtain rfl := Value.asObject_eq_some (orReject_eq_ok.mp isObject)
  have role := requiredString_stringMember found
  split at step
  next =>
    obtain ⟨added, -, rfl⟩ := map_eq_ok.mp step
    exact ordinary added (by simp [role])
  next =>
    obtain ⟨added, -, rfl⟩ := map_eq_ok.mp step
    exact ordinary added (by simp [role])
  next =>
    obtain ⟨added, -, rfl⟩ := map_eq_ok.mp step
    exact ordinary added (by simp [role])
  next =>
    obtain ⟨id, content, isError, named, known, fresh, rfl⟩ := userToolResult_effect step
    have added : toolResultIds [.object object] = [id] := by simp [toolResultIds, role, named]
    rw [answers.seen] at fresh
    rw [added]
    refine ⟨?_, ?_, ?_, ?_⟩
    · rw [entries_append, answers.sent]
      simp [entries]
    · simp [answers.seen]
    · refine List.nodup_append.mpr ⟨answers.distinct, by simp, ?_⟩
      rintro other before new last rfl
      exact fresh (List.mem_singleton.mp last ▸ before)
    · exact List.append_subset.mpr ⟨answers.declared, by simpa using known⟩
  next => cases step

theorem toolResultIds_cons (block : Value) (rest : List Value) :
    toolResultIds (block :: rest) = toolResultIds [block] ++ toolResultIds rest := by
  rw [toolResultIds, toolResultIds, toolResultIds, ← List.map_append, ← List.filter_append]
  rfl

theorem answers_blocks {pending ids : List String} {turn final : UserTurn} {blocks : List Value}
    (answers : Answers pending ids turn)
    (done : blocks.foldlM (convertUserBlock pending) turn = .ok final) :
    Answers pending (ids ++ toolResultIds blocks) final := by
  induction blocks generalizing turn ids with
  | nil =>
      cases done
      simpa [toolResultIds] using answers
  | cons block rest ih =>
      rw [List.foldlM_cons] at done
      obtain ⟨next, first, later⟩ := bind_eq_ok.mp done
      rw [toolResultIds_cons, ← List.append_assoc]
      exact ih (answers_block answers first) later

/-- The chain survives a user message exactly when it waits for each of the results. -/
theorem convertUserBlocks_scan {pending : List String} {blocks : List Value}
    {messages : List WireMessage} (done : convertUserBlocks pending blocks = .ok messages)
    (left : List String) :
    ((scan left (entries messages)).isSome ↔ ∀ id ∈ toolResultIds blocks, id ∈ left) ∧
      toolResultIds blocks ⊆ pending := by
  obtain ⟨turn, folded, done⟩ := bind_eq_ok.mp done
  cases done
  have start : Answers pending [] .start := ⟨rfl, rfl, List.nodup_nil, List.nil_subset _⟩
  have answers := answers_blocks start folded
  rw [List.nil_append] at answers
  refine ⟨?_, answers.declared⟩
  rw [← scan_answers answers.distinct left, entries_append, entries_append, answers.sent,
    List.append_assoc, scan_append]
  have rest (waiting : List String) : (scan waiting
      (entries (if turn.ordinary.isEmpty then [] else [.user "user" (.array turn.ordinary)]) ++
        entries (if blocks.isEmpty then [.user "user" (.array [])] else []))).isSome := by
    split <;> split <;> simp [entries, scan]
  rcases scan left ((toolResultIds blocks).map Entry.answer) with _ | waiting
  · rfl
  · exact iff_of_true (rest waiting) rfl

theorem roleBlocks_other {role other : String} {object : Map} (different : other ≠ role)
    (found : requiredString object "role" = .ok other) :
    roleBlocks role (.object object) = [] := by
  rw [roleBlocks, requiredString_stringMember found, if_neg different]

theorem roleBlocks_array {role : String} {object : Map} {blocks : List Value}
    (found : requiredString object "role" = .ok role)
    (content : object.get "content" = some (.array blocks)) :
    roleBlocks role (.object object) = blocks := by
  rw [Map.get] at content
  simp [roleBlocks, requiredString_stringMember found, content]

theorem roleBlocks_string {role : String} {object : Map} {content : Value}
    (present : object.get "content" = some content) (isString : content.isString = true) :
    roleBlocks role (.object object) = [] := by
  obtain ⟨text, shape⟩ := Option.isSome_iff_exists.mp isString
  obtain rfl := Value.asStr_eq_some shape
  rw [Map.get] at present
  simp [roleBlocks, present, Value.asArray]

theorem convertMessage_scan {codec : Codec} {index : Nat} {pending next : List String}
    {message : Value} {messages : List WireMessage} {left declared : List String}
    (done : convertMessage codec index pending message = .ok (messages, next))
    (agree : ∀ id ∈ pending, id ∈ left ↔ id ∈ declared) :
    let rounds := Rounds.ofBlocks (roleBlocks "assistant" message)
    ((scan left (entries messages)).isSome ↔ rounds.closed = true ∧
        ∀ id ∈ toolResultIds (roleBlocks "user" message), id ∈ declared) ∧
      ∀ waiting, scan left (entries messages) = some waiting →
        ∀ id ∈ next, id ∈ waiting ↔ id ∈ rounds.uses := by
  rw [convertMessage, bind_eq_ok] at done
  obtain ⟨object, isObject, done⟩ := done
  rw [bind_eq_ok] at done
  obtain ⟨role, found, done⟩ := done
  obtain rfl := Value.asObject_eq_some (orReject_eq_ok.mp isObject)
  split at done
  next => cases done
  next known =>
    rw [bind_eq_ok] at done
    obtain ⟨content, present, done⟩ := done
    have held := orReject_eq_ok.mp present
    split at done
    next isSystem =>
      subst role
      rw [bind_eq_ok] at done
      obtain ⟨converted, -, done⟩ := done
      cases done
      rw [roleBlocks_other (by decide) found, roleBlocks_other (by decide) found]
      exact ⟨by simp [entries, scan, Rounds.ofBlocks, Rounds.start, toolResultIds], by simp⟩
    next notSystem =>
      split at done
      next isString =>
        cases done
        rw [roleBlocks_string held isString, roleBlocks_string held isString]
        refine ⟨?_, by simp⟩
        split <;> simp [entries, scan, Rounds.ofBlocks, Rounds.start, toolResultIds]
      next =>
        rw [bind_eq_ok] at done
        obtain ⟨blocks, isArray, done⟩ := done
        obtain rfl := Value.asArray_eq_some (orReject_eq_ok.mp isArray)
        split at done
        next isAssistant =>
          subst role
          rw [roleBlocks_array found held, roleBlocks_other (by decide) found]
          have scanned := convertAssistantBlocks_scan done left
          cases closed : (Rounds.ofBlocks blocks).closed <;>
            simp [scanned, closed, toolResultIds]
        next notAssistant =>
          have isUser : role = "user" := by
            by_contra other
            exact known ⟨other, notAssistant, notSystem⟩
          subst role
          rw [bind_eq_ok] at done
          obtain ⟨converted, user, done⟩ := done
          cases done
          rw [roleBlocks_array found held, roleBlocks_other (by decide) found]
          obtain ⟨scanned, sub⟩ := convertUserBlocks_scan user left
          refine ⟨?_, by simp⟩
          rw [scanned]
          constructor
          · exact fun all => ⟨rfl, fun id member => (agree id (sub member)).mp (all id member)⟩
          · exact fun all id member => (agree id (sub member)).mpr (all.2 id member)

theorem convertMessages_scan {codec : Codec} {index : Nat} {pending left declared : List String}
    {inputs : List Value} {messages : List WireMessage}
    (done : convertMessages codec index pending inputs = .ok messages)
    (agree : ∀ id ∈ pending, id ∈ left ↔ id ∈ declared) :
    (scan left (entries messages)).isSome ↔ RoundsSeparate declared inputs := by
  induction inputs generalizing index pending left declared messages with
  | nil =>
      cases done
      simp [entries, scan, RoundsSeparate]
  | cons message rest ih =>
      obtain ⟨⟨first, next⟩, converted, done⟩ := bind_eq_ok.mp done
      obtain ⟨later, others, done⟩ := bind_eq_ok.mp done
      cases done
      obtain ⟨unbroken, kept⟩ := convertMessage_scan converted agree
      rw [RoundsSeparate, entries_append, scan_append, ← and_assoc, ← unbroken]
      rcases scanned : scan left (entries first) with _ | waiting
      · simp
      · simpa using ih others (kept waiting scanned)

theorem copyNumber_get {input output result : Map} {name query : String}
    (different : query ≠ name) (done : copyNumber input output name = .ok result) :
    result.get query = output.get query := by
  rw [copyNumber] at done
  split at done
  next => cases done; rfl
  next =>
    split at done
    next => cases done; rw [Map.get_insert, if_neg different]
    next => cases done

theorem copyPositiveInteger_get {input output result : Map} {name query : String}
    (different : query ≠ name) (done : copyPositiveInteger input output name = .ok result) :
    result.get query = output.get query := by
  rw [copyPositiveInteger] at done
  split at done
  next => cases done; rfl
  next =>
    split at done
    next => cases done; rw [Map.get_insert, if_neg different]
    next => cases done

theorem copyStopSequences_get {object output result : Map} {query : String}
    (different : query ≠ "stop")
    (done : copyStopSequences object output = .ok result) :
    result.get query = output.get query := by
  rw [copyStopSequences] at done
  split at done
  next => cases done; rfl
  next =>
    obtain ⟨sequences, -, done⟩ := bind_eq_ok.mp done
    split at done
    next => cases done
    next => cases done; rw [Map.get_insert, if_neg different]

theorem copyMetadata_get {object output result : Map} {query : String}
    (different : query ≠ "metadata")
    (done : copyMetadata object output = .ok result) :
    result.get query = output.get query := by
  rw [copyMetadata] at done
  split at done
  next => cases done; rfl
  next =>
    split at done
    next => cases done; rw [Map.get_insert, if_neg different]
    next => cases done

theorem copyTools_get {object output result : Map} {query : String} {serverTools : ServerToolConfig}
    (different : query ≠ "tools")
    (done : copyTools object output = .ok (result, serverTools)) :
    result.get query = output.get query := by
  rw [copyTools] at done
  split at done
  next => cases done; rfl
  next =>
    obtain ⟨converted, -, done⟩ := bind_eq_ok.mp done
    cases done
    split
    next => rfl
    next => rw [Map.get_insert, if_neg different]

theorem copyToolChoice_get {object output result : Map} {query : String}
    (different : query ≠ "tool_choice") (other : query ≠ "parallel_tool_calls")
    (done : copyToolChoice object output = .ok result) :
    result.get query = output.get query := by
  rw [copyToolChoice] at done
  split at done
  next => cases done; rfl
  next =>
    obtain ⟨⟨choice, parallel⟩, -, done⟩ := bind_eq_ok.mp done
    cases done
    cases parallel <;> simp [Map.get_insert, different, other]

theorem copyOutputFormat_get {format : Option Value} {output result : Map} {query : String}
    (different : query ≠ "response_format")
    (done : copyOutputFormat format output = .ok result) :
    result.get query = output.get query := by
  cases format with
  | none => cases done; rfl
  | some value =>
      obtain ⟨converted, -, rfl⟩ := map_eq_ok.mp done
      rw [Map.get_insert, if_neg different]

theorem copyOutputConfig_get {object output result : Map} {query : String}
    (different : query ≠ "response_format")
    (done : copyOutputConfig object output = .ok result) :
    result.get query = output.get query := by
  rw [copyOutputConfig] at done
  split at done
  next => cases done; rfl
  next =>
    split at done
    next => exact copyOutputFormat_get different done
    next => cases done

def settingFields : List String :=
  ["temperature", "top_p", "top_k", "stop", "metadata", "tools", "tool_choice",
    "parallel_tool_calls", "response_format", "stream_options"]

theorem copySettings_get {object output result : Map} {stream : Bool}
    {serverTools : ServerToolConfig} {query : String} (kept : query ∉ settingFields)
    (done : copySettings object stream output = .ok (result, serverTools)) :
    result.get query = output.get query := by
  have other (name : String) (listed : name ∈ settingFields) : query ≠ name :=
    fun same => kept (same ▸ listed)
  obtain ⟨first, temperature, done⟩ := bind_eq_ok.mp done
  obtain ⟨second, topP, done⟩ := bind_eq_ok.mp done
  obtain ⟨third, topK, done⟩ := bind_eq_ok.mp done
  obtain ⟨fourth, stop, done⟩ := bind_eq_ok.mp done
  obtain ⟨fifth, metadata, done⟩ := bind_eq_ok.mp done
  obtain ⟨⟨sixth, declared⟩, tools, done⟩ := bind_eq_ok.mp done
  obtain ⟨seventh, choice, done⟩ := bind_eq_ok.mp done
  obtain ⟨eighth, config, done⟩ := bind_eq_ok.mp done
  obtain ⟨final, format, done⟩ := bind_eq_ok.mp done
  cases done
  have options : (if stream then
      final.insert "stream_options" (.object [("include_usage", .bool true)]) else final).get
      query = final.get query := by
    split
    next => rw [Map.get_insert, if_neg (other _ (by decide))]
    next => rfl
  rw [options, copyOutputFormat_get (other _ (by decide)) format,
    copyOutputConfig_get (other _ (by decide)) config,
    copyToolChoice_get (other _ (by decide)) (other _ (by decide)) choice,
    copyTools_get (other _ (by decide)) tools, copyMetadata_get (other _ (by decide)) metadata,
    copyStopSequences_get (other _ (by decide)) stop,
    copyPositiveInteger_get (other _ (by decide)) topK,
    copyNumber_get (other _ (by decide)) topP, copyNumber_get (other _ (by decide)) temperature]

theorem convertSystemMember_scan {object : Map} {system : List WireMessage}
    (done : convertSystemMember object = .ok system) : scan [] (entries system) = some [] := by
  rw [convertSystemMember] at done
  split at done
  next => cases done; rfl
  next =>
    obtain ⟨content, -, rfl⟩ := map_eq_ok.mp done
    simp [entries, scan]

def inputMessages (input : Value) : List Value :=
  ((input.get "messages").bind Value.asArray).getD []

theorem convertRequestValue_messages {codec : Codec} {input : Value}
    {converted : ConvertedRequest} (accepted : convertRequestValue codec input = .ok converted) :
    ∃ object system messages, input = .object object ∧
      convertSystemMember object = .ok system ∧
      convertMessages codec 0 [] (inputMessages input) = .ok messages ∧
      input.get "messages" = some (.array (inputMessages input)) ∧
      converted.body.get "messages" =
        some (.array ((system ++ messages).map WireMessage.intoWire)) := by
  obtain ⟨object, isObject, done⟩ := bind_eq_ok.mp accepted
  obtain ⟨model, -, done⟩ := bind_eq_ok.mp done
  obtain ⟨maxTokens, -, done⟩ := bind_eq_ok.mp done
  obtain ⟨stream, -, done⟩ := bind_eq_ok.mp done
  obtain ⟨system, systemDone, done⟩ := bind_eq_ok.mp done
  obtain ⟨inputs, given, done⟩ := bind_eq_ok.mp done
  obtain ⟨messages, messagesDone, done⟩ := bind_eq_ok.mp done
  obtain ⟨⟨output, serverTools⟩, settings, done⟩ := bind_eq_ok.mp done
  cases done
  obtain rfl := Value.asObject_eq_some (orReject_eq_ok.mp isObject)
  obtain ⟨held, found, isArray⟩ := Option.bind_eq_some_iff.mp (orReject_eq_ok.mp given)
  obtain rfl := Value.asArray_eq_some isArray
  rw [Map.get] at found
  have same : inputMessages (.object object) = inputs := by simp [inputMessages, found]
  refine ⟨object, system, messages, rfl, systemDone, same.symm ▸ messagesDone, ?_,
    copySettings_get (by decide) settings⟩
  rw [same]
  exact found

theorem tool_chain_well_formed {codec : Codec} {input : Value} {converted : ConvertedRequest}
    (accepted : convertRequestValue codec input = .ok converted) :
    ToolChainWellFormed converted.body ↔ RoundsSeparate [] (inputMessages input) := by
  obtain ⟨object, system, messages, -, systemDone, messagesDone, -, wire⟩ :=
    convertRequestValue_messages accepted
  rw [ToolChainWellFormed, wire]
  simp only [Option.bind_some, Value.asArray_array, Option.getD_some]
  rw [map_chainEntry, wellFormed_iff, entries_append, scan_append,
    convertSystemMember_scan systemDone, Option.bind_some]
  exact convertMessages_scan messagesDone (by simp)

def message (role : String) (content : Value) : Value :=
  .object [("role", .string role), ("content", content)]

def callBlock (kind id : String) : Value :=
  .object [("type", .string kind), ("id", .string id), ("name", .string "web_search")]

def searchResultBlock (id : String) : Value :=
  .object [("type", .string "web_search_tool_result"), ("tool_use_id", .string id),
    ("content", .array [])]

def toolResultBlock (id : String) : Value :=
  .object [("type", .string "tool_result"), ("tool_use_id", .string id),
    ("content", .string "sunny")]

def requestOf (messages : List Value) : Value :=
  .object [("model", .string "glm"), ("max_tokens", .ofNat 64), ("messages", .array messages)]

def plainCodec : Codec := ⟨fun _ => none, fun _ => none, fun _ => "\x7b\x7d"⟩

def splitToolUse : Value :=
  requestOf [message "assistant" (.array [callBlock "tool_use" "c1",
      callBlock "server_tool_use" "s1", searchResultBlock "s1"]),
    message "user" (.array [toolResultBlock "c1"])]

def mixedRounds : Value :=
  requestOf [message "assistant" (.array [callBlock "server_tool_use" "s1",
      callBlock "server_tool_use" "s2", searchResultBlock "s1",
      callBlock "server_tool_use" "s3", searchResultBlock "s2", searchResultBlock "s3"])]

def closedRounds : Value :=
  requestOf [message "user" (.string "hello"),
    message "assistant" (.array [callBlock "server_tool_use" "s1",
      callBlock "server_tool_use" "s2", searchResultBlock "s2", searchResultBlock "s1",
      callBlock "tool_use" "c1"]),
    message "user" (.array [toolResultBlock "c1"])]

theorem tool_chain_well_formed_closed :
    ∃ converted, convertRequestValue plainCodec closedRounds = .ok converted ∧
      ToolChainWellFormed converted.body := by
  obtain ⟨converted, accepted⟩ : ∃ converted,
      convertRequestValue plainCodec closedRounds = .ok converted := ⟨_, rfl⟩
  exact ⟨converted, accepted, (tool_chain_well_formed accepted).mpr (by decide)⟩

theorem tool_chain_well_formed_fails :
    ∃ converted, convertRequestValue plainCodec splitToolUse = .ok converted ∧
      ¬ToolChainWellFormed converted.body := by
  refine ⟨_, rfl, ?_⟩
  rw [ToolChainWellFormed, wellFormed_iff]
  decide

example : ¬RoundsSeparate [] (inputMessages mixedRounds) := by decide

end ClineProxy
