import ClineProxy.ReplayedTurns
import ClineProxy.SearchBudget

/-! What a turn that a client sends back says, and when it says the same as before. -/

namespace ClineProxy

open Json Text CallChain

def wireTexts (messages : List Value) : List String :=
  messages.flatMap fun message =>
    (roleBlocks "assistant" message).filterMap fun block => (block.get "text").bind Value.asStr

def wireReasoning (messages : List Value) : String :=
  String.join (messages.flatMap fun message =>
    ((message.get "reasoning_content").bind Value.asStr).toList)

def wireCalls (messages : List Value) : List Value :=
  messages.flatMap fun message => ((message.get "tool_calls").bind Value.asArray).getD []

structure WireResult where
  callId : String
  content : Value
  isError : Option Bool

def wireResult (message : Value) : WireResult where
  callId := stringMember "tool_call_id" message
  content := (message.get "content").getD .null
  isError := (message.get "is_error").bind Value.asBool

def wireResults (messages : List Value) : List WireResult :=
  messages.flatMap fun message =>
    if stringMember "role" message = "tool" then [wireResult message] else []

/-- The call of a search as the client sees it. -/
def ShownCall.replayed (codec : Codec) (shown : ShownCall) : ReplayedCall where
  id := shown.id
  name := webSearchFunctionName
  input := serverInput codec shown.call
  id_filled := shown.id_filled
  name_filled := by decide

def turnCalls (codec : Codec) (rounds : List (List ShownCall)) (calls : List ReplayedCall) :
    List ReplayedCall :=
  rounds.flatten.map (ShownCall.replayed codec) ++ calls

structure CallKept (codec : Codec) (call : Value) (kept : ReplayedCall) : Prop where
  id : toolCallId call = some kept.id
  name : toolCallName call = some kept.name
  input : codec.fromStr (toolCallArguments call) = some kept.input

def SearchKept (result : WireResult) (shown : ShownCall) : Prop :=
  result.callId = shown.id ∧ result.isError = none ∧
    ∃ text, result.content = .string text ∧ ResultText shown.outcome text

def ToolAnswer.result (answer : ToolAnswer) : WireResult :=
  ⟨answer.callId, answer.shown, answer.isError⟩

/-- The calls of a round, then a result for each. -/
def roundEntries (round : List ShownCall) : List (Entry String) :=
  if round.isEmpty then []
  else .calls (round.map ShownCall.id) :: round.map fun shown => .answer shown.id

def saysNothing (upstream : Value) (calls : List ReplayedCall) : Bool :=
  (upstreamTexts upstream).isEmpty && calls.isEmpty &&
    (reasoningText (upstreamMessage upstream)).isEmpty

/-- The last calls, then the result of each. An answer that says nothing is left out behind a
search, and a user message without results is one of its own. -/
def answerEntries (upstream : Value) (rounds : List (List ShownCall))
    (calls : List ReplayedCall) (answers : List ToolAnswer) : List (Entry String) :=
  (if saysNothing upstream calls && !rounds.flatten.isEmpty then []
    else [.calls (calls.map ReplayedCall.id)]) ++
  if answers.isEmpty then [.other] else answers.map fun answer => .answer answer.callId

structure TurnKept (codec : Codec) (upstream : Value) (rounds : List (List ShownCall))
    (calls : List ReplayedCall) (answers : List ToolAnswer) (sent : List Value) : Prop where
  texts_same : wireTexts sent = upstreamTexts upstream
  reasoning_same : wireReasoning sent = reasoningText (upstreamMessage upstream)
  calls_kept : List.Forall₂ (CallKept codec) (wireCalls sent) (turnCalls codec rounds calls)
  results_kept : ∃ served, wireResults sent = served ++ answers.map ToolAnswer.result ∧
    List.Forall₂ SearchKept served rounds.flatten
  chain : sent.map chainEntry =
    rounds.flatMap roundEntries ++ answerEntries upstream rounds calls answers

section Views

variable (content calls : List Value) (reasoning id role : String) (value : Value)
  (isError : Option Bool)

@[simp] theorem roleBlocks_sent_assistant :
    roleBlocks "assistant" (WireMessage.assistant content calls reasoning).intoWire = content := by
  simp [roleBlocks, stringMember, WireMessage.intoWire, OrderedMap.lookup, Value.asArray]

@[simp] theorem roleBlocks_sent_tool :
    roleBlocks "assistant" (WireMessage.tool id value isError).intoWire = [] := by
  simp [roleBlocks, stringMember, WireMessage.intoWire, OrderedMap.lookup]

@[simp] theorem roleBlocks_sent_user :
    roleBlocks "assistant" (WireMessage.user "user" value).intoWire = [] := by
  simp [roleBlocks, stringMember, WireMessage.intoWire, OrderedMap.lookup]

@[simp] theorem calls_sent_assistant :
    (((WireMessage.assistant content calls reasoning).intoWire.get "tool_calls").bind
      Value.asArray).getD [] = calls := by
  by_cases none : calls = [] <;> by_cases silent : reasoning.isEmpty = true <;>
    simp [WireMessage.intoWire, OrderedMap.lookup, none, silent]

@[simp] theorem calls_sent_tool :
    (WireMessage.tool id value isError).intoWire.get "tool_calls" = none := by
  cases isError <;> simp [WireMessage.intoWire, OrderedMap.lookup]

@[simp] theorem calls_sent_user :
    (WireMessage.user role value).intoWire.get "tool_calls" = none := by
  simp [WireMessage.intoWire, OrderedMap.lookup]

@[simp] theorem reasoning_sent_assistant :
    ((WireMessage.assistant content calls reasoning).intoWire.get "reasoning_content").bind
      Value.asStr = if reasoning.isEmpty then none else some reasoning := by
  by_cases none : calls = [] <;> by_cases silent : reasoning.isEmpty = true <;>
    simp [WireMessage.intoWire, OrderedMap.lookup, none, silent]

@[simp] theorem reasoning_sent_tool :
    (WireMessage.tool id value isError).intoWire.get "reasoning_content" = none := by
  cases isError <;> simp [WireMessage.intoWire, OrderedMap.lookup]

@[simp] theorem reasoning_sent_user :
    (WireMessage.user role value).intoWire.get "reasoning_content" = none := by
  simp [WireMessage.intoWire, OrderedMap.lookup]

@[simp] theorem role_sent_assistant :
    stringMember "role" (WireMessage.assistant content calls reasoning).intoWire = "assistant" := by
  simp [stringMember, WireMessage.intoWire, OrderedMap.lookup]

@[simp] theorem role_sent_tool :
    stringMember "role" (WireMessage.tool id value isError).intoWire = "tool" := by
  simp [stringMember, WireMessage.intoWire, OrderedMap.lookup]

@[simp] theorem role_sent_user :
    stringMember "role" (WireMessage.user role value).intoWire = role := by
  simp [stringMember, WireMessage.intoWire, OrderedMap.lookup]

@[simp] theorem wireResult_tool :
    wireResult (WireMessage.tool id value isError).intoWire = ⟨id, value, isError⟩ := by
  cases isError <;>
    simp [wireResult, stringMember, WireMessage.intoWire, OrderedMap.lookup, Value.asBool]

end Views

def turnMessages (codec : Codec) (upstream : Value) (rounds : List (List ShownCall))
    (calls : List ReplayedCall) (answers : List ToolAnswer) : List WireMessage :=
  rounds.flatMap (servedMessages codec) ++
    answerMessages (answerSegment codec upstream calls) (rounds.flatMap (servedMessages codec)) ++
    resultMessages answers

section Turn

variable {codec : Codec} {upstream : Value} {rounds : List (List ShownCall)}
  {calls : List ReplayedCall} {answers : List ToolAnswer} {Seen : Type}

theorem flatMap_silent {Item : Type} (items : List Item) :
    (items.flatMap fun _ => ([] : List Seen)) = [] :=
  List.flatMap_eq_nil_iff.mpr fun _ _ => rfl

theorem view_served (view : Value → List Seen) :
    ((rounds.flatMap (servedMessages codec)).map WireMessage.intoWire).flatMap view =
      rounds.flatMap fun round =>
        (if round.isEmpty then []
          else view (WireMessage.assistant [] (round.map (servedCall codec)) "").intoWire) ++
          round.flatMap fun shown => view (servedResult shown).intoWire := by
  induction rounds with
  | nil => rfl
  | cons round rest ih =>
      rw [List.flatMap_cons, List.map_append, List.flatMap_append, ih, List.flatMap_cons]
      congr 1
      rw [servedMessages, List.map_append, List.flatMap_append, List.map_map, List.flatMap_map]
      cases round with
      | nil => rfl
      | cons shown others => simp [List.flatMap_map]

theorem served_isEmpty :
    (rounds.flatMap (servedMessages codec)).isEmpty = rounds.flatten.isEmpty := by
  induction rounds with
  | nil => rfl
  | cons round rest ih =>
      cases round with
      | nil => simpa [servedMessages] using ih
      | cons shown others => simp [servedMessages]

theorem answerSegment_isEmpty :
    (answerSegment codec upstream calls).isEmpty = saysNothing upstream calls := by
  simp [answerSegment, Segment.isEmpty, saysNothing]

theorem view_answer (view : Value → List Seen) :
    ((answerMessages (answerSegment codec upstream calls)
        (rounds.flatMap (servedMessages codec))).map WireMessage.intoWire).flatMap view =
      if saysNothing upstream calls && !rounds.flatten.isEmpty then []
      else view (WireMessage.assistant ((upstreamTexts upstream).map textBlock)
        (calls.map (ReplayedCall.sent codec))
        (reasoningText (upstreamMessage upstream))).intoWire := by
  rw [answerMessages, answerSegment_isEmpty, served_isEmpty]
  split
  next => rfl
  next => exact List.flatMap_singleton ..

theorem view_results (view : Value → List Seen) :
    ((resultMessages answers).map WireMessage.intoWire).flatMap view =
      (answers.flatMap fun answer => view answer.message.intoWire) ++
        if answers.isEmpty then view (WireMessage.user "user" (.array [])).intoWire else [] := by
  rw [resultMessages, List.map_append, List.flatMap_append, List.map_map, List.flatMap_map]
  congr 1
  split
  next => exact List.flatMap_singleton ..
  next => rfl

theorem view_turn (view : Value → List Seen) :
    ((turnMessages codec upstream rounds calls answers).map WireMessage.intoWire).flatMap view =
      (rounds.flatMap fun round =>
        (if round.isEmpty then []
          else view (WireMessage.assistant [] (round.map (servedCall codec)) "").intoWire) ++
          round.flatMap fun shown => view (servedResult shown).intoWire) ++
      (if saysNothing upstream calls && !rounds.flatten.isEmpty then []
        else view (WireMessage.assistant ((upstreamTexts upstream).map textBlock)
          (calls.map (ReplayedCall.sent codec))
          (reasoningText (upstreamMessage upstream))).intoWire) ++
      ((answers.flatMap fun answer => view answer.message.intoWire) ++
        if answers.isEmpty then view (WireMessage.user "user" (.array [])).intoWire else []) := by
  rw [turnMessages, List.map_append, List.map_append, List.flatMap_append, List.flatMap_append,
    view_served, view_answer, view_results]

theorem filterMap_textBlock (texts : List String) :
    ((texts.map textBlock).filterMap fun block => (block.get "text").bind Value.asStr) = texts := by
  rw [List.filterMap_map]
  exact List.filterMap_some

theorem texts_turnMessages :
    wireTexts ((turnMessages codec upstream rounds calls answers).map WireMessage.intoWire) =
      upstreamTexts upstream := by
  rw [wireTexts, view_turn]
  simp only [servedResult, ToolAnswer.message, roleBlocks_sent_assistant, roleBlocks_sent_tool,
    roleBlocks_sent_user, List.filterMap_nil, ite_self, filterMap_textBlock, flatMap_silent,
    List.append_nil, List.nil_append]
  split
  next silent =>
    simp only [saysNothing, Bool.and_eq_true, List.isEmpty_iff] at silent
    exact silent.1.1.1.symm
  next => rfl

theorem reasoning_turnMessages :
    wireReasoning ((turnMessages codec upstream rounds calls answers).map WireMessage.intoWire) =
      reasoningText (upstreamMessage upstream) := by
  rw [wireReasoning, view_turn]
  simp only [servedResult, ToolAnswer.message, reasoning_sent_assistant, reasoning_sent_tool,
    reasoning_sent_user, Option.bind_none, Option.toList_none, String.isEmpty_iff, ↓reduceIte,
    ite_self, flatMap_silent, List.append_nil, List.nil_append]
  split
  next silent =>
    simp only [saysNothing, Bool.and_eq_true, String.isEmpty_iff] at silent
    exact silent.1.2.symm
  next =>
    split
    next empty => exact empty.symm
    next => simp

theorem calls_turnMessages :
    wireCalls ((turnMessages codec upstream rounds calls answers).map WireMessage.intoWire) =
      (turnCalls codec rounds calls).map (ReplayedCall.sent codec) := by
  have round_calls (round : List ShownCall) :
      (if round.isEmpty then [] else round.map (servedCall codec)) =
        round.map fun shown => (shown.replayed codec).sent codec := by
    cases round <;> rfl
  rw [wireCalls, view_turn]
  simp only [servedResult, ToolAnswer.message, calls_sent_assistant, calls_sent_tool,
    calls_sent_user, Option.bind_none, Option.getD_none, ite_self, flatMap_silent,
    List.append_nil, round_calls]
  rw [turnCalls, List.map_append, List.map_map, List.map_flatten, List.flatMap_def]
  congr 1
  split
  next silent =>
    simp only [saysNothing, Bool.and_eq_true, List.isEmpty_iff] at silent
    rw [silent.1.1.2, List.map_nil]
  next => rfl

theorem results_turnMessages :
    wireResults ((turnMessages codec upstream rounds calls answers).map WireMessage.intoWire) =
      (rounds.flatten.map fun shown => ⟨shown.id, .string shown.text, none⟩) ++
        answers.map ToolAnswer.result := by
  rw [wireResults, view_turn]
  simp only [servedResult, ToolAnswer.message, role_sent_assistant, role_sent_tool,
    role_sent_user, wireResult_tool, ↓reduceIte, String.reduceEq, ite_self, List.nil_append,
    List.append_nil, ← List.map_eq_flatMap]
  rw [List.map_flatten, List.flatMap_def]
  rfl

theorem callIds_sent (calls : List ReplayedCall) :
    callIds (calls.map (ReplayedCall.sent codec)) = calls.map ReplayedCall.id := by
  induction calls with
  | nil => rfl
  | cons call rest ih => exact congrArg (call.id :: ·) ih

theorem chain_turnMessages :
    ((turnMessages codec upstream rounds calls answers).map WireMessage.intoWire).map chainEntry =
      rounds.flatMap roundEntries ++ answerEntries upstream rounds calls answers := by
  have entry (message : WireMessage) : chainEntry message.intoWire = message.entry := rfl
  have round_ids (round : List ShownCall) :
      callIds (round.map (servedCall codec)) = round.map ShownCall.id := by
    have ids := @callIds_sent codec (round.map (ShownCall.replayed codec))
    rw [List.map_map, List.map_map] at ids
    exact ids
  have round_entries (round : List ShownCall) :
      (if round.isEmpty then [] else [Entry.calls (round.map ShownCall.id)]) ++
        round.map (fun shown => Entry.answer shown.id) = roundEntries round := by
    cases round <;> rfl
  rw [List.map_eq_flatMap, view_turn, answerEntries]
  simp only [servedResult, ToolAnswer.message, entry, entry_assistant, entry_tool, entry_user,
    round_ids, callIds_sent, ← List.map_eq_flatMap, round_entries, List.append_assoc]
  cases answers <;> simp

theorem turnKept_iff (replays : ∀ shown ∈ rounds.flatten, ReplaysText shown.outcome) :
    TurnKept codec upstream rounds calls answers
        ((turnMessages codec upstream rounds calls answers).map WireMessage.intoWire) ↔
      ∀ call ∈ turnCalls codec rounds calls,
        codec.fromStr (codec.toText call.input) = some call.input := by
  have kept (call : ReplayedCall) : CallKept codec (call.sent codec) call ↔
      codec.fromStr (codec.toText call.input) = some call.input := by
    have filled {text : String} (named : text ≠ "") :
        (some text).filter (fun text => !text.isEmpty) = some text := by
      refine Option.filter_eq_some_iff.mpr ⟨rfl, ?_⟩
      rw [Bool.not_eq_true', Bool.eq_false_iff, ne_eq, String.isEmpty_iff]
      exact named
    exact ⟨CallKept.input, fun back => ⟨filled call.id_filled, filled call.name_filled, back⟩⟩
  have forall_kept : List.Forall₂ (CallKept codec)
      ((turnCalls codec rounds calls).map (ReplayedCall.sent codec))
      (turnCalls codec rounds calls) ↔ ∀ call ∈ turnCalls codec rounds calls,
        codec.fromStr (codec.toText call.input) = some call.input := by
    rw [List.forall₂_map_left_iff, List.forall₂_same]
    exact forall₂_congr fun call _ => kept call
  constructor
  · intro turn
    rw [← forall_kept, ← @calls_turnMessages _ upstream _ _ answers]
    exact turn.calls_kept
  · intro all
    refine ⟨texts_turnMessages, reasoning_turnMessages, ?_, ⟨_, results_turnMessages, ?_⟩,
      chain_turnMessages⟩
    · rw [calls_turnMessages]
      exact forall_kept.mpr all
    · rw [List.forall₂_map_left_iff, List.forall₂_same]
      exact fun shown member => ⟨rfl, rfl, shown.text, rfl,
        (replayedResultText_shown (replays shown member)).2⟩

end Turn

/-- A request that goes on with the turn is accepted, and what it adds to the messages is
the turn as it was. -/
def ReplayKept (codec : Codec) (object : Map) (history : List Value) (upstream value : Value)
    (rounds : List (List ShownCall)) (calls : List ReplayedCall) (answers : List ToolAnswer)
    (base : ConvertedRequest) : Prop :=
  ∃ converted sent, convertRequestValue codec
      (requestWith object (history ++ replayedTurn codec rounds value answers)) = .ok converted ∧
    bodyMessages converted = bodyMessages base ++ sent ∧
    TurnKept codec upstream rounds calls answers sent

theorem replays_of_accepted {codec : Codec} {index : Nat} {pending : List String}
    {rounds : List (List ShownCall)} {value : Value} {answers : List ToolAnswer}
    {messages : List WireMessage} (done : convertMessages codec index pending
      (replayedTurn codec rounds value answers) = .ok messages) :
    ∀ shown ∈ rounds.flatten, ReplaysText shown.outcome := by
  intro shown member
  obtain ⟨round, held, inside⟩ := List.mem_flatten.mp member
  rw [replayedTurn, convertMessages] at done
  obtain ⟨_, converted, -⟩ := bind_eq_ok.mp done
  change convertAssistantBlocks codec (replayedBlocks codec rounds value) = _ at converted
  obtain ⟨turn, read, -⟩ := bind_eq_ok.mp converted
  exact replaysText_of_read read (List.mem_append_left _ (List.mem_flatMap.mpr
    ⟨round, held, List.mem_append_right _ (List.mem_map_of_mem inside)⟩))

theorem anthropic_replay {platform : Platform} {upstream value : Value}
    {requestId fallbackModel : String} {calls : List ReplayedCall}
    {rounds : List (List ShownCall)} {answers : List ToolAnswer} {object : Map}
    {history : List Value} {base : ConvertedRequest} {round : Number → Number}
    (responded : convertResponse platform upstream requestId fallbackModel true = .ok value)
    (reads : List.Forall₂ (CallReads platform.codec) (upstreamCalls upstream) calls)
    (distinct : (calls.map ReplayedCall.id).Nodup)
    (served : (rounds.flatten.map ShownCall.id).Nodup)
    (answered : (answers.map ToolAnswer.callId).Perm (calls.map ReplayedCall.id))
    (accepted : convertRequestValue platform.codec (requestWith object history) = .ok base)
    (read : ∀ call ∈ turnCalls platform.codec rounds calls,
      ReadBack platform.codec round call.input) :
    ReplayKept platform.codec object history upstream value rounds calls answers base ↔
      (∀ shown ∈ rounds.flatten, ReplaysText shown.outcome) ∧
        ∀ call ∈ turnCalls platform.codec rounds calls,
          call.input.mapNumbers round = call.input := by
  obtain ⟨next, extended⟩ := convertRequestValue_extended accepted
  obtain ⟨whole, onlyWhole⟩ := extended (replayedTurn platform.codec rounds value answers)
  have called : ∀ answer ∈ answers, answer.callId ∈ calls.map ReplayedCall.id :=
    fun answer member => answered.mem_iff.mp (List.mem_map_of_mem member)
  have filled : ∀ answer ∈ answers, answer.callId ≠ "" := by
    intro answer member
    obtain ⟨call, -, same⟩ := List.mem_map.mp (called answer member)
    exact same ▸ call.id_filled
  have turn (replays : ∀ shown ∈ rounds.flatten, ReplaysText shown.outcome) :
      convertMessages platform.codec history.length next
          (replayedTurn platform.codec rounds value answers) =
        .ok (turnMessages platform.codec upstream rounds calls answers) := by
    obtain ⟨declared, mem, blocks⟩ := convertAssistantBlocks_replayed reads responded
      (fun round held shown inside => replays shown (List.mem_flatten.mpr ⟨round, held, inside⟩))
      served
    exact convertMessages_turn blocks (convertUserBlocks_answers filled
      (fun answer member => (mem _).mpr (called answer member)) (answered.nodup_iff.mpr distinct))
  constructor
  · rintro ⟨converted, sent, done, body, kept⟩
    obtain ⟨messages, all⟩ := onlyWhole converted done
    have replays := replays_of_accepted all
    obtain ⟨other, again, otherBody⟩ := whole _ (turn replays)
    obtain rfl := Except.ok.inj (done.symm.trans again)
    obtain rfl := List.append_cancel_left (body.symm.trans otherBody)
    have back := (turnKept_iff replays).mp kept
    exact ⟨replays, fun call member =>
      Option.some.inj ((read call member).2.symm.trans (back call member))⟩
  · rintro ⟨replays, steady⟩
    obtain ⟨converted, done, body⟩ := whole _ (turn replays)
    refine ⟨converted, _, done, body, (turnKept_iff replays).mpr fun call member => ?_⟩
    rw [(read call member).2, steady call member]

def emptyArguments : String := "\x7b\x7d"

def replayPlatform : Platform := searchPlatform [.object []]

def answerOf (message : Map) : Value :=
  .object [("choices", .array [.object [("message", .object message)]])]

def calledAnswer : Value :=
  answerOf [("content", .string "hi"), ("tool_calls", .array [wholeCall 0 "c" "f" emptyArguments])]

def calledOnce : ReplayedCall := ⟨"c", "f", .object [], by decide, by decide⟩

def sunnyAnswer : ToolAnswer := ⟨"c", some (.string "sunny"), none, .string "sunny", rfl⟩

def shownCall (outcome : SearchOutcome) : ShownCall :=
  ⟨⟨"t", webSearchFunctionName, emptyArguments⟩, "s", outcome, by decide⟩

def replayHead : Map := [("model", .string "glm"), ("max_tokens", .ofNat 64)]

theorem empty_readBack : ReadBack replayPlatform.codec id (.object []) := by
  refine ⟨⟨List.nodup_nil, trivial⟩, ?_⟩
  decide +kernel

theorem anthropic_replay_called : ∃ value base,
    convertResponse replayPlatform calledAnswer "r" "glm" true = .ok value ∧
      ReplayKept replayPlatform.codec replayHead [] calledAnswer value
        [[shownCall (.failed "" .unavailable)]] [calledOnce] [sunnyAnswer] base := by
  obtain ⟨value, responded⟩ := ok_of_isOk (show
    (convertResponse replayPlatform calledAnswer "r" "glm" true).isOk = true by decide +kernel)
  obtain ⟨base, accepted⟩ := ok_of_isOk (show
    (convertRequestValue replayPlatform.codec (requestWith replayHead [])).isOk = true by
      decide +kernel)
  have reads : CallReads replayPlatform.codec (wholeCall 0 "c" "f" emptyArguments) calledOnce :=
    ⟨rfl, _, rfl, rfl, by decide +kernel⟩
  have input : serverInput replayPlatform.codec (shownCall (.failed "" .unavailable)).call =
      .object [] := by decide +kernel
  have inputs : ∀ call ∈ turnCalls replayPlatform.codec
      [[shownCall (.failed "" .unavailable)]] [calledOnce], call.input = .object [] := by
    intro call member
    rcases List.mem_pair.mp member with rfl | rfl
    · exact input
    · rfl
  have kept := @anthropic_replay replayPlatform calledAnswer value "r" "glm" [calledOnce]
    [[shownCall (.failed "" .unavailable)]] [sunnyAnswer] replayHead [] base id responded
    (.cons reads .nil) (List.nodup_singleton _) (List.nodup_singleton _) (List.Perm.refl _) accepted
  refine ⟨value, base, responded, (kept ?_).mpr ⟨?_, ?_⟩⟩
  · intro call member
    rw [inputs call member]
    exact empty_readBack
  · intro shown member failed
    obtain rfl := List.mem_singleton.mp member
    cases failed
  · intro call member
    rw [inputs call member]
    rfl

def wideTitle (count : Nat) : Value :=
  .object [("title", .string ("x" ++ String.ofList (List.replicate count '€')))]

theorem wideTitle_cuts {count : Nat} (wide : maxGroundingBytes ≤ 3 * count) :
    ¬ReplaysText ⟨"lean", [wideTitle count], none⟩ := by
  have title : resultField "title" (searchResultEntry (wideTitle count)) =
      "x" ++ String.ofList (List.replicate count '€') := by
    simp [resultField, searchResultEntry, wideTitle, OrderedMap.lookup]
  have url : resultField "url" (searchResultEntry (wideTitle count)) = "" := by
    simp [resultField, searchResultEntry, wideTitle, OrderedMap.lookup, Value.asStr]
  have snippet : ((searchResultEntry (wideTitle count)).get "snippet").bind Value.asStr =
      none := by
    simp [searchResultEntry, wideTitle, OrderedMap.lookup]
  have entry : groundingEntry 1 (searchResultEntry (wideTitle count)) =
      (toString 1).toList ++ (". ".toList ++ ("x".toList ++ (List.replicate count '€' ++
        ("\n   ".toList ++ ("".toList ++ ("\n".toList ++ "".toList)))))) := by
    rw [groundingEntry, title, url, snippet]
    simp only [Option.elim_none, String.toList_append, String.toList_ofList, List.append_assoc]
  have heading : utf8Len ("Web search results:\n".toList ++
      ((toString 1).toList ++ (". ".toList ++ "x".toList))) = 24 := by decide
  intro replays
  have cuts : CutsBetween ("Web search results:\n".toList ++
      groundingEntries 1 ([wideTitle count].map searchResultEntry)) := replays rfl
  rw [List.map_singleton, groundingEntries, groundingEntries, entry, List.append_nil] at cuts
  simp only [← List.append_assoc] at cuts heading
  generalize "Web search results:\n".toList ++ (toString 1).toList ++ ". ".toList ++ "x".toList =
    before at heading cuts
  rw [List.append_assoc, List.append_assoc, List.append_assoc] at cuts
  generalize "\n   ".toList ++ ("".toList ++ ("\n".toList ++ "".toList)) = after at cuts
  have limit : maxGroundingBytes = 32768 := rfl
  rcases cuts with short | ⟨cut, starts, fits⟩
  · rw [utf8Len_append, utf8Len_append, utf8Len_wide] at short
    omega
  · rw [List.prefix_iff_eq_take.mp starts] at fits
    exact utf8Len_take_wide (fun more _ => by omega) (by omega) (by omega) _ fits

def spokenAnswer : Value := answerOf [("content", .string "hi")]

theorem anthropic_replay_fails : ¬ ∀ outcome value base,
    convertResponse replayPlatform spokenAnswer "r" "glm" true = .ok value →
    convertRequestValue replayPlatform.codec (requestWith replayHead []) = .ok base →
    ReplayKept replayPlatform.codec replayHead [] spokenAnswer value [[shownCall outcome]] [] []
      base := by
  intro claimed
  obtain ⟨value, responded⟩ := ok_of_isOk (show
    (convertResponse replayPlatform spokenAnswer "r" "glm" true).isOk = true by decide +kernel)
  obtain ⟨base, accepted⟩ := ok_of_isOk (show
    (convertRequestValue replayPlatform.codec (requestWith replayHead [])).isOk = true by
      decide +kernel)
  obtain ⟨converted, sent, done, -, -⟩ :=
    claimed ⟨"lean", [wideTitle 11000], none⟩ value base responded accepted
  obtain ⟨next, extended⟩ := convertRequestValue_extended accepted
  obtain ⟨messages, all⟩ := (extended _).2 converted done
  exact wideTitle_cuts (by decide) (replays_of_accepted all _ (List.mem_singleton.mpr rfl))

end ClineProxy
