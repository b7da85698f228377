import ClineProxy.CountedMessages

/-!
The two conversions on one request: what is sent and what is counted agree message by message,
but for empty user messages and for billing headers inside the conversation.
-/

namespace ClineProxy

open Json Text TwoRuns

variable {codec : Codec}

def WireMessage.view (codec : Codec) (message : WireMessage) : MessageView :=
  messageView codec message.normalized.intoWire

theorem messageView_plain (codec : Codec) (role : String) (content : Value) :
    messageView codec (.object [("role", .string role), ("content", content)]) =
      ⟨role, joinTexts (contentParts content), "", [], none⟩ := rfl

theorem messageView_tool (codec : Codec) (id : String) (content : Value) :
    messageView codec (.object [("role", .string "tool"), ("tool_call_id", .string id),
      ("content", content)]) = ⟨"tool", joinTexts (contentParts content), "", [], some id⟩ := rfl

theorem messageView_calls (codec : Codec) (calls : List Value) :
    messageView codec (.object [("role", .string "assistant"), ("content", .string ""),
      ("tool_calls", .array calls)]) =
      ⟨"assistant", [], "", calls.map (callView codec), none⟩ := rfl

theorem messageView_segment (codec : Codec) (segment : Glm.Segment) :
    messageView codec segment.intoMessage =
      ⟨"assistant", joinTexts [.text segment.text], segment.reasoning,
        segment.toolCalls.map (callView codec), none⟩ := by
  obtain ⟨text, reasoning, calls⟩ := segment
  cases calls with
  | nil =>
      by_cases silent : reasoning = ""
      · subst silent
        rfl
      · simp [messageView, Glm.Segment.intoMessage, reasoningContent, role, OrderedMap.lookup,
          silent, contentParts]
  | cons call rest =>
      by_cases silent : reasoning = ""
      · subst silent
        rfl
      · simp [messageView, Glm.Segment.intoMessage, reasoningContent, role, OrderedMap.lookup,
          silent, contentParts]

theorem view_assistant (codec : Codec) (content calls : List Value) (reasoning : String) :
    (WireMessage.assistant content calls reasoning).view codec =
      ⟨"assistant", joinTexts (content.map contentPart), reasoning,
        calls.map (callView codec), none⟩ := by
  change messageView codec (WireMessage.assistant content calls reasoning).intoWire = _
  cases calls with
  | nil =>
      by_cases silent : reasoning = ""
      · subst silent
        rfl
      · simp [messageView, WireMessage.intoWire, reasoningContent, role, OrderedMap.lookup,
          silent, contentParts]
  | cons call rest =>
      by_cases silent : reasoning = ""
      · subst silent
        rfl
      · simp [messageView, WireMessage.intoWire, reasoningContent, role, OrderedMap.lookup,
          silent, contentParts]

theorem view_tool (codec : Codec) (id : String) (content : Value) (isError : Option Bool) :
    (WireMessage.tool id content isError).view codec =
      ⟨"tool", joinTexts (contentParts content), "", [], some id⟩ := by
  cases isError <;> rfl

theorem view_user (codec : Codec) {name : String} (content : Value) (plain : name ≠ "system") :
    (WireMessage.user name content).view codec =
      ⟨name, joinTexts (contentParts content), "", [], none⟩ := by
  rw [WireMessage.view, WireMessage.normalized, if_neg plain]
  rfl

theorem view_system (codec : Codec) (content : Value) :
    (WireMessage.system content).view codec =
      ⟨"system", joinTexts (contentParts (stripBillingSystem content)), "", [], none⟩ := rfl

theorem contentPart_textBlock (text : String) : contentPart (textBlock text) = .text text := rfl

theorem contentParts_textBlocks (texts : List String) :
    (texts.map textBlock).map contentPart = texts.map ContentPart.text := by
  rw [List.map_map]
  exact List.map_congr_left fun text _ => contentPart_textBlock text

theorem kindOf_required {object : Map} {kind : String}
    (given : requiredString object "type" = .ok kind) : Glm.kindOf object = some kind :=
  (requiredString_eq_ok.mp given).1

theorem convertTextBlock_agree {object : Map} {index blockIndex : Nat} {sent counted : Value}
    (wire : convertTextBlock object = .ok sent)
    (other : Glm.convertTextBlock index blockIndex object = .ok counted) :
    ∃ text, text ≠ "" ∧ (object.get "text").bind Value.asStr = some text ∧
      sent = textBlock text ∧ counted = textBlock text := by
  obtain ⟨text, found, rfl⟩ := map_eq_ok.mp wire
  obtain ⟨again, same, rfl⟩ := map_eq_ok.mp other
  obtain ⟨given, filled⟩ := requiredString_eq_ok.mp found
  obtain rfl := Option.some.inj ((orReject_eq_ok.mp same).symm.trans given)
  exact ⟨again, by simpa using filled, given, rfl, rfl⟩

theorem convertImageBlock_part {object : Map} {sent : Value}
    (wire : convertImageBlock object = .ok sent) : contentPart sent = .image := by
  obtain ⟨source, -, wire⟩ := bind_eq_ok.mp wire
  obtain ⟨kind, -, wire⟩ := bind_eq_ok.mp wire
  obtain ⟨url, -, wire⟩ := bind_eq_ok.mp wire
  cases wire
  rfl

theorem convertDocumentBlock_agree {object : Map} {index blockIndex : Nat} {sent counted : Value}
    (wire : convertDocumentBlock object = .ok sent)
    (other : Glm.convertDocumentBlock index blockIndex object = .ok counted) :
    contentPart sent = contentPart counted := by
  obtain ⟨source, found, wire⟩ := bind_eq_ok.mp wire
  obtain ⟨again, same, other⟩ := bind_eq_ok.mp other
  obtain rfl := Option.some.inj ((orReject_eq_ok.mp found).symm.trans (orReject_eq_ok.mp same))
  obtain ⟨kind, given, wire⟩ := bind_eq_ok.mp wire
  rw [kindOf_required given] at other
  split at other
  next isText =>
    obtain rfl := Option.some.inj isText
    obtain ⟨text, held, rfl⟩ := map_eq_ok.mp wire
    obtain ⟨data, read, rfl⟩ := map_eq_ok.mp other
    obtain rfl := Option.some.inj
      ((orReject_eq_ok.mp read).symm.trans (requiredString_eq_ok.mp held).1)
    rfl
  next => cases other
  next => cases other

theorem convertToolResultBlock_agree {block : Value} {index blockIndex itemIndex : Nat}
    {sent counted : Value} (wire : convertToolResultContentBlock block = .ok sent)
    (other : Glm.convertToolResultBlock index blockIndex itemIndex block = .ok counted) :
    contentPart sent = contentPart counted := by
  obtain ⟨object, isObject, wire⟩ := bind_eq_ok.mp wire
  obtain ⟨again, same, other⟩ := bind_eq_ok.mp other
  obtain rfl := Option.some.inj ((orReject_eq_ok.mp isObject).symm.trans (orReject_eq_ok.mp same))
  obtain ⟨kind, given, wire⟩ := bind_eq_ok.mp wire
  rw [kindOf_required given] at other
  split at wire
  next =>
    obtain ⟨text, -, -, rfl, rfl⟩ := convertTextBlock_agree wire other
    rfl
  next =>
    cases other
    exact convertImageBlock_part wire
  next => exact convertDocumentBlock_agree wire other
  next =>
    cases wire
    cases other
    rfl
  next =>
    cases wire
    cases other
    rfl
  next => cases wire

theorem forall₂_indexed (items : List Value) (start : Nat) :
    List.Forall₂ (fun item indexed => item = indexed.1) items (items.zipIdx start) := by
  induction items generalizing start with
  | nil => exact .nil
  | cons item rest ih => exact .cons rfl (ih (start + 1))

theorem map_eq_of_forall₂ {items others : List Value}
    (pairs : List.Forall₂ (fun item other => contentPart item = contentPart other) items others) :
    items.map contentPart = others.map contentPart := by
  induction pairs with
  | nil => rfl
  | cons head _ ih => rw [List.map_cons, List.map_cons, head, ih]

theorem convertToolResultContent_agree {object : Map} {index blockIndex : Nat}
    {sent counted : Value}
    (wire : convertToolResultContent ((object.get "content").getD (.string "")) = .ok sent)
    (other : Glm.convertToolResultContent index blockIndex (object.get "content") =
      .ok counted) : contentParts sent = contentParts counted := by
  cases found : object.get "content" with
  | none =>
      rw [found] at wire other
      cases wire
      cases other
      rfl
  | some content =>
      rw [found, Option.getD_some] at wire
      rw [found] at other
      cases content with
      | string text =>
          cases wire
          cases other
          rfl
      | array blocks =>
          obtain ⟨items, converted, rfl⟩ := map_eq_ok.mp wire
          obtain ⟨others, converted', rfl⟩ := map_eq_ok.mp other
          refine map_eq_of_forall₂ (forall₂_mapM ?_ (forall₂_indexed blocks 0) converted
            converted')
          rintro block ⟨same, place⟩ first second rfl firstDone secondDone
          exact convertToolResultBlock_agree firstDone secondDone
      | null | bool | number | object => cases wire

/-! Assistant turns -/

structure TurnsAgree (codec : Codec) (turn : AssistantTurn) (counted : Glm.AssistantTurn) :
    Prop where
  output : turn.output.map (WireMessage.view codec) = counted.output.map (messageView codec)
  content : ∃ texts : List String, turn.segment.content = texts.map textBlock ∧
    counted.segment.text = String.join texts
  noContent : turn.segment.content.isEmpty = counted.segment.text.isEmpty
  reasoning : turn.segment.reasoning = counted.segment.reasoning
  toolCalls : turn.segment.toolCalls.map (callView codec) =
    counted.segment.toolCalls.map (callView codec)
  serverCalls : turn.serverCalls.map (callView codec) = counted.serverCalls.map (callView codec)

theorem isEmpty_of_map {First Second Out : Type} {first : First → Out} {second : Second → Out}
    {items : List First} {others : List Second} (same : items.map first = others.map second) :
    items.isEmpty = others.isEmpty := by
  cases items <;> cases others <;> simp_all

namespace TurnsAgree

variable {turn : AssistantTurn} {counted : Glm.AssistantTurn}

theorem start : TurnsAgree codec .start .start where
  output := rfl
  content := ⟨[], rfl, rfl⟩
  noContent := rfl
  reasoning := rfl
  toolCalls := rfl
  serverCalls := rfl

theorem segment_view (agree : TurnsAgree codec turn counted) :
    (WireMessage.assistant turn.segment.content turn.segment.toolCalls
      turn.segment.reasoning).view codec = messageView codec counted.segment.intoMessage := by
  obtain ⟨texts, sent, joined⟩ := agree.content
  rw [view_assistant, messageView_segment, agree.reasoning, agree.toolCalls, sent, joined,
    contentParts_textBlocks, joinTexts_texts]

theorem segment_isEmpty (agree : TurnsAgree codec turn counted) :
    turn.segment.isEmpty = counted.segment.isEmpty := by
  rw [Segment.isEmpty, Glm.Segment.isEmpty, agree.noContent, agree.reasoning,
    isEmpty_of_map agree.toolCalls, Bool.and_right_comm]

theorem flush (agree : TurnsAgree codec turn counted) :
    TurnsAgree codec turn.flush counted.flush := by
  rw [AssistantTurn.flush, Glm.AssistantTurn.flush, agree.segment_isEmpty]
  split
  next => exact agree
  next =>
    exact {
      output := by
        rw [List.map_append, List.map_append, agree.output]
        exact congrArg (fun view => _ ++ [view]) agree.segment_view
      content := ⟨[], rfl, rfl⟩
      noContent := rfl
      reasoning := rfl
      toolCalls := rfl
      serverCalls := agree.serverCalls }

theorem flushServerCalls (agree : TurnsAgree codec turn counted) :
    TurnsAgree codec turn.flushServerCalls counted.flushServerCalls := by
  rw [AssistantTurn.flushServerCalls, Glm.AssistantTurn.flushServerCalls,
    isEmpty_of_map agree.serverCalls]
  split
  next => exact agree
  next =>
    exact { agree with
      output := by
        rw [List.map_append, List.map_append, agree.output, List.map_singleton,
          List.map_singleton, messageView_calls, view_assistant, agree.serverCalls]
        rfl
      serverCalls := rfl }

theorem addText (agree : TurnsAgree codec turn counted) {text : String} (filled : text ≠ "") :
    TurnsAgree codec
      { turn with segment := { turn.segment with
          content := turn.segment.content ++ [textBlock text] } }
      { counted with segment := { counted.segment with
          text := counted.segment.text ++ text } } := by
  obtain ⟨texts, sent, joined⟩ := agree.content
  exact { agree with
    content := ⟨texts ++ [text], by simp [sent], by simp [joined, String.join_append]⟩
    noContent := Bool.eq_iff_iff.mpr (by simp [filled]) }

theorem addReasoning (agree : TurnsAgree codec turn counted) (thinking : String) :
    TurnsAgree codec
      { turn with segment := { turn.segment with
          reasoning := turn.segment.reasoning ++ thinking } }
      { counted with segment := { counted.segment with
          reasoning := counted.segment.reasoning ++ thinking } } :=
  { agree with reasoning := congrArg (fun reasoning => reasoning ++ thinking) agree.reasoning }

theorem callView_agree {id name : String} {input : Value} (isObject : input.isObject = true) :
    callView codec (toolCall id name (codec.toText input)) =
      callView codec (Glm.templateCall name input) := by
  cases input with
  | object fields => rfl
  | null | bool | number | string | array => cases isObject

theorem toolUse_name {object : Map} {name other message : String}
    (sent : requiredString object "name" = .ok name)
    (read : orReject message ((object.get "name").bind Value.asStr) = .ok other) :
    other = name :=
  Option.some.inj ((orReject_eq_ok.mp read).symm.trans (requiredString_eq_ok.mp sent).1)

theorem toolUse (agree : TurnsAgree codec turn counted) {index blockIndex : Nat} {object : Map}
    {next : AssistantTurn} {further : Glm.AssistantTurn}
    (wire : assistantToolUse codec object turn = .ok next)
    (other : Glm.assistantToolUse index blockIndex false object counted = .ok further) :
    TurnsAgree codec next further := by
  obtain ⟨_, -, wire⟩ := bind_eq_ok.mp wire
  obtain ⟨id, -, wire⟩ := bind_eq_ok.mp wire
  obtain ⟨name, named, wire⟩ := bind_eq_ok.mp wire
  obtain ⟨again, read, other⟩ := bind_eq_ok.mp other
  obtain rfl := toolUse_name named read
  cases wire
  dsimp only at other
  split at other
  next => cases other
  next isObject =>
    cases other
    exact { agree with
      toolCalls := by
        rw [List.map_append, List.map_append, agree.toolCalls, List.map_singleton,
          List.map_singleton, callView_agree (by simpa using isObject)] }

theorem serverToolUse (agree : TurnsAgree codec turn counted) {index blockIndex : Nat}
    {object : Map} {next : AssistantTurn} {further : Glm.AssistantTurn}
    (wire : assistantServerToolUse codec object turn = .ok next)
    (other : Glm.assistantToolUse index blockIndex true object counted = .ok further) :
    TurnsAgree codec next further := by
  have flushed := agree.flush
  obtain ⟨id, -, wire⟩ := bind_eq_ok.mp wire
  obtain ⟨again, read, other⟩ := bind_eq_ok.mp other
  split at wire
  next => cases wire
  next =>
    dsimp only at wire other
    split at wire
    next => cases wire
    next isObject =>
      rw [if_neg isObject] at other
      obtain ⟨name, named, wire⟩ := bind_eq_ok.mp wire
      obtain rfl := toolUse_name named read
      cases wire
      cases other
      exact { flushed with
        serverCalls := by
          rw [List.map_append, List.map_append, flushed.serverCalls, List.map_singleton,
            List.map_singleton, callView_agree (by simpa using isObject)] }

theorem searchResult (agree : TurnsAgree codec turn counted) {block : Value} {object : Map}
    {next : AssistantTurn} {further : Glm.AssistantTurn}
    (wire : assistantSearchResult block object turn = .ok next)
    (other : Glm.assistantSearchResult block object counted = .ok further) :
    TurnsAgree codec next further := by
  have flushed := agree.flushServerCalls
  obtain ⟨id, named, wire⟩ := bind_eq_ok.mp wire
  obtain ⟨text, made, other⟩ := bind_eq_ok.mp other
  split at wire
  next => cases wire
  next =>
    split at wire
    next => cases wire
    next =>
      obtain ⟨again, same, wire⟩ := bind_eq_ok.mp wire
      obtain rfl := Except.ok.inj (same.symm.trans made)
      cases wire
      cases other
      exact { flushed with
        output := by
          rw [List.map_append, List.map_append, flushed.output, List.map_singleton,
            List.map_singleton, view_tool, messageView_tool, (requiredString_eq_ok.mp named).1]
          rfl }

theorem block (agree : TurnsAgree codec turn counted) {index blockIndex : Nat} {block : Value}
    {next : AssistantTurn} {further : Glm.AssistantTurn}
    (wire : convertAssistantBlock codec turn block = .ok next)
    (other : Glm.convertAssistantBlock index counted (block, blockIndex) = .ok further) :
    TurnsAgree codec next further := by
  obtain ⟨object, isObject, wire⟩ := bind_eq_ok.mp wire
  obtain ⟨again, same, other⟩ := bind_eq_ok.mp other
  obtain rfl := Option.some.inj ((orReject_eq_ok.mp isObject).symm.trans (orReject_eq_ok.mp same))
  obtain ⟨kind, given, wire⟩ := bind_eq_ok.mp wire
  rw [kindOf_required given] at other
  split at wire
  next =>
    obtain ⟨_, -, wire⟩ := bind_eq_ok.mp wire
    obtain ⟨sent, made, wire⟩ := bind_eq_ok.mp wire
    obtain ⟨text, read, rfl⟩ := map_eq_ok.mp made
    obtain ⟨held, found, other⟩ := bind_eq_ok.mp other
    obtain ⟨there, filled⟩ := requiredString_eq_ok.mp read
    obtain rfl := Option.some.inj ((orReject_eq_ok.mp found).symm.trans there)
    cases wire
    cases other
    exact agree.addText (by simpa using filled)
  next =>
    cases wire
    cases other
    exact agree.addReasoning _
  next =>
    cases wire
    cases other
    exact agree
  next => exact agree.toolUse wire other
  next => exact agree.serverToolUse wire other
  next => exact agree.searchResult wire other
  next => cases wire

theorem blocks {blocks : List Value} {index start : Nat} (agree : TurnsAgree codec turn counted)
    {next : AssistantTurn} {further : Glm.AssistantTurn}
    (wire : blocks.foldlM (convertAssistantBlock codec) turn = .ok next)
    (other : (blocks.zipIdx start).foldlM (Glm.convertAssistantBlock index) counted =
      .ok further) : TurnsAgree codec next further := by
  refine foldlM_related ?_ (forall₂_indexed blocks start) agree wire other
  rintro turn counted block ⟨same, place⟩ next further - - agree rfl wire other
  exact agree.block wire other

end TurnsAgree

theorem convertAssistantBlocks_agree {blocks : List Value} {index : Nat}
    {sent : List WireMessage} {pending : List String} {counted : List Value}
    (wire : convertAssistantBlocks codec blocks = .ok (sent, pending))
    (other : Glm.convertAssistantBlocks index blocks = .ok counted) :
    sent.map (WireMessage.view codec) = counted.map (messageView codec) := by
  obtain ⟨turn, turnDone, wire⟩ := bind_eq_ok.mp wire
  obtain ⟨messages, finished, wire⟩ := bind_eq_ok.mp wire
  obtain ⟨last, lastDone, rfl⟩ := map_eq_ok.mp other
  cases wire
  have agree := TurnsAgree.start.blocks turnDone lastDone
  rw [AssistantTurn.finish] at finished
  split at finished
  next => cases finished
  next answered =>
    have noCalls : last.serverCalls.isEmpty = true := by
      rw [← isEmpty_of_map agree.serverCalls]
      simp only [not_or, Bool.not_eq_true', Bool.not_eq_false] at answered
      exact answered.1
    have flushed := agree.flush
    cases finished
    rw [Glm.AssistantTurn.flushServerCalls, if_pos noCalls]
    dsimp only
    rw [isEmpty_of_map flushed.output]
    split
    next => rfl
    next => exact flushed.output

/-! User turns -/

structure UserTurnsAgree (codec : Codec) (turn : UserTurn) (counted : Glm.UserTurn) : Prop where
  output : turn.output.map (WireMessage.view codec) = counted.output.map (messageView codec)
  ordinary : turn.ordinary.map contentPart = counted.ordinary.map contentPart
  noOrdinary : turn.sawOrdinary = false → turn.ordinary = []

namespace UserTurnsAgree

variable {turn : UserTurn} {counted : Glm.UserTurn}

theorem addOrdinary (agree : UserTurnsAgree codec turn counted) {sent other : Value}
    (same : contentPart sent = contentPart other) :
    UserTurnsAgree codec (turn.addOrdinary sent) (counted.addOrdinary other) where
  output := agree.output
  ordinary := by
    rw [UserTurn.addOrdinary, Glm.UserTurn.addOrdinary, List.map_append, List.map_append,
      agree.ordinary, List.map_singleton, List.map_singleton, same]
  noOrdinary := fun none_ => by cases none_

theorem toolResult (agree : UserTurnsAgree codec turn counted) {pending : List String}
    {index blockIndex : Nat} {object : Map} {next : UserTurn} {result : Value}
    (wire : userToolResult pending object turn = .ok next)
    (other : Glm.convertToolResult index blockIndex object = .ok result) :
    UserTurnsAgree codec next
      { counted.flushUser with output := counted.flushUser.output ++ [result] } := by
  rw [userToolResult] at wire
  split at wire
  next => cases wire
  next results =>
    have none_ := agree.noOrdinary (by simpa using results)
    have noneCounted : counted.ordinary = [] := by simpa [none_, eq_comm] using agree.ordinary
    have kept : counted.flushUser = counted := by simp [Glm.UserTurn.flushUser, noneCounted]
    obtain ⟨id, -, wire⟩ := bind_eq_ok.mp wire
    split at wire
    next => cases wire
    next =>
      obtain ⟨message, made, wire⟩ := bind_eq_ok.mp wire
      obtain ⟨content, converted, made⟩ := bind_eq_ok.mp made
      obtain ⟨answered, read, made⟩ := bind_eq_ok.mp made
      obtain ⟨toolUseId, found, other⟩ := bind_eq_ok.mp other
      obtain ⟨display, displayed, other⟩ := bind_eq_ok.mp other
      split at made
      next => cases made
      next =>
        obtain ⟨isError, -, made⟩ := bind_eq_ok.mp made
        have same : toolUseId = answered := by
          have given := (Option.filter_eq_some_iff.mp (orReject_eq_ok.mp found)).1
          exact Option.some.inj (given.symm.trans (requiredString_eq_ok.mp read).1)
        cases made
        cases wire
        cases other
        rw [kept]
        exact {
          output := by
            rw [List.map_append, List.map_append, agree.output, List.map_singleton,
              List.map_singleton, view_tool, messageView_tool, same,
              convertToolResultContent_agree converted displayed]
          ordinary := agree.ordinary
          noOrdinary := agree.noOrdinary }

theorem block (agree : UserTurnsAgree codec turn counted) {pending : List String}
    {index blockIndex : Nat} {block : Value} {next : UserTurn} {further : Glm.UserTurn}
    (wire : convertUserBlock pending turn block = .ok next)
    (other : Glm.convertUserBlock index counted (block, blockIndex) = .ok further) :
    UserTurnsAgree codec next further := by
  obtain ⟨object, isObject, wire⟩ := bind_eq_ok.mp wire
  obtain ⟨again, same, other⟩ := bind_eq_ok.mp other
  obtain rfl := Option.some.inj ((orReject_eq_ok.mp isObject).symm.trans (orReject_eq_ok.mp same))
  obtain ⟨kind, given, wire⟩ := bind_eq_ok.mp wire
  rw [kindOf_required given] at other
  split at wire
  next =>
    obtain ⟨sent, made, rfl⟩ := map_eq_ok.mp wire
    obtain ⟨display, shown, rfl⟩ := map_eq_ok.mp other
    obtain ⟨text, -, -, rfl, rfl⟩ := convertTextBlock_agree made shown
    exact agree.addOrdinary rfl
  next =>
    obtain ⟨sent, made, rfl⟩ := map_eq_ok.mp wire
    cases other
    exact agree.addOrdinary (convertImageBlock_part made)
  next =>
    obtain ⟨sent, made, rfl⟩ := map_eq_ok.mp wire
    obtain ⟨display, shown, rfl⟩ := map_eq_ok.mp other
    exact agree.addOrdinary (convertDocumentBlock_agree made shown)
  next =>
    obtain ⟨result, made, other⟩ := bind_eq_ok.mp other
    cases other
    exact agree.toolResult wire made
  next => cases wire

theorem blocks {blocks : List Value} {pending : List String} {index start : Nat}
    (agree : UserTurnsAgree codec turn counted) {next : UserTurn} {further : Glm.UserTurn}
    (wire : blocks.foldlM (convertUserBlock pending) turn = .ok next)
    (other : (blocks.zipIdx start).foldlM (Glm.convertUserBlock index) counted = .ok further) :
    UserTurnsAgree codec next further := by
  refine foldlM_related ?_ (forall₂_indexed blocks start) agree wire other
  rintro turn counted block ⟨same, place⟩ next further - - agree rfl wire other
  exact agree.block wire other

end UserTurnsAgree

/-- A user turn of no blocks is the only one that is sent and not counted. -/
theorem convertUserBlocks_agree {blocks : List Value} {pending : List String} {index : Nat}
    {sent : List WireMessage} {counted : List Value}
    (wire : convertUserBlocks pending blocks = .ok sent)
    (other : Glm.convertUserBlocks index blocks = .ok counted) :
    sent.map (WireMessage.view codec) = counted.map (messageView codec) ++
      (if blocks.isEmpty then [⟨"user", [], "", [], none⟩] else []) := by
  obtain ⟨turn, turnDone, wire⟩ := bind_eq_ok.mp wire
  obtain ⟨last, lastDone, rfl⟩ := map_eq_ok.mp other
  cases wire
  have agree : UserTurnsAgree codec turn last :=
    UserTurnsAgree.blocks ⟨rfl, rfl, fun _ => rfl⟩ turnDone lastDone
  rw [List.map_append]
  congr 1
  · rw [Glm.UserTurn.flushUser, ← isEmpty_of_map agree.ordinary, List.map_append, agree.output]
    split
    next => rw [List.map_nil, List.append_nil]
    next =>
      rw [List.map_append, List.map_singleton, List.map_singleton, messageView_plain,
        view_user codec _ (by decide : "user" ≠ "system"), contentParts, agree.ordinary]
      rfl
  · split <;> rfl

inductive PlainContent : Value → List String → Prop
  | string (text : String) : PlainContent (.string text) [text]
  | array {blocks : List Value} {texts : List String} :
      List.Forall₂ (fun block text => plainBlockText block = some text) blocks texts →
      PlainContent (.array blocks) texts

theorem plainBlockText_eq_some {block : Value} {text : String} :
    plainBlockText block = some text ↔ (block.get "type").bind Value.asStr = some "text" ∧
      (block.get "text").bind Value.asStr = some text := by
  rw [plainBlockText]
  split
  next isText => simp [isText]
  next other => simp [other]

theorem plainBlockText_stripped {block : Value} {text : String}
    (plain : plainBlockText block = some text) :
    plainBlockText (stripBillingBlock block) = some (stripBillingHeader text) := by
  obtain ⟨isText, held⟩ := plainBlockText_eq_some.mp plain
  obtain ⟨value, found, isString⟩ := Option.bind_eq_some_iff.mp held
  obtain rfl := Value.asStr_eq_some isString
  rw [stripBillingBlock, if_pos isText, plainBlockText_eq_some, Value.get_update,
    Value.get_update, if_neg (by decide), if_pos rfl, found]
  exact ⟨isText, rfl⟩

theorem convertSystemBlock_plain {index : Nat} {block sent : Value}
    (done : convertSystemBlock index block = .ok sent) :
    ∃ text, plainBlockText block = some text ∧ sent = textBlock text := by
  obtain ⟨object, isObject, done⟩ := bind_eq_ok.mp done
  obtain ⟨kind, given, done⟩ := bind_eq_ok.mp done
  split at done
  next => cases done
  next isText =>
    obtain rfl := not_not.mp isText
    obtain ⟨text, held, rfl⟩ := map_eq_ok.mp done
    obtain rfl := Value.asObject_eq_some (orReject_eq_ok.mp isObject)
    exact ⟨text, plainBlockText_eq_some.mpr
      ⟨(requiredString_eq_ok.mp given).1, (requiredString_eq_ok.mp held).1⟩, rfl⟩

theorem convertDisplayBlock_plain {label text : String} {index : Nat} {block display : Value}
    (plain : plainBlockText block = some text)
    (done : Glm.convertDisplayBlock label index block = .ok display) :
    display = textBlock text := by
  obtain ⟨object, isObject, shown⟩ := bind_eq_ok.mp done
  obtain rfl := Value.asObject_eq_some (orReject_eq_ok.mp isObject)
  obtain ⟨isText, held⟩ := plainBlockText_eq_some.mp plain
  have kind : Glm.kindOf object = some "text" := isText
  rw [kind] at shown
  obtain ⟨again, found, rfl⟩ := map_eq_ok.mp shown
  rw [Option.some.inj ((orReject_eq_ok.mp found).symm.trans held)]

theorem convertSystemBlocks_plain {blocks items : List Value} {start : Nat}
    (done : (blocks.zipIdx start).mapM (fun indexed => convertSystemBlock indexed.2 indexed.1) =
      .ok items) :
    ∃ texts, List.Forall₂ (fun block text => plainBlockText block = some text) blocks texts ∧
      List.Forall₂ (fun block text => plainBlockText block = some text) items texts := by
  induction blocks generalizing items start with
  | nil =>
      cases done
      exact ⟨[], .nil, .nil⟩
  | cons block rest ih =>
      rw [List.zipIdx_cons, List.mapM_cons] at done
      obtain ⟨sent, first, done⟩ := bind_eq_ok.mp done
      obtain ⟨others, later, done⟩ := bind_eq_ok.mp done
      cases done
      obtain ⟨text, plain, rfl⟩ := convertSystemBlock_plain first
      obtain ⟨texts, given, shown⟩ := ih later
      exact ⟨text :: texts, .cons plain given, .cons rfl shown⟩

theorem convertSystem_plain {content sent : Value} (done : convertSystem content = .ok sent) :
    ∃ texts, PlainContent content texts ∧ PlainContent sent texts := by
  cases content with
  | string text =>
      cases done
      exact ⟨[text], .string text, .string text⟩
  | array blocks =>
      obtain ⟨items, converted, rfl⟩ := map_eq_ok.mp done
      obtain ⟨texts, given, shown⟩ := convertSystemBlocks_plain converted
      exact ⟨texts, .array given, .array shown⟩
  | null | bool | number | object => cases done

theorem convertDisplayBlocks_plain {label : String} {blocks items : List Value}
    {texts : List String}
    (pairs : List.Forall₂ (fun block text => plainBlockText block = some text) blocks texts)
    {start : Nat} (done : (blocks.zipIdx start).mapM (fun indexed =>
      Glm.convertDisplayBlock label indexed.2 indexed.1) = .ok items) :
    List.Forall₂ (fun block text => plainBlockText block = some text) items texts := by
  induction pairs generalizing items start with
  | nil =>
      cases done
      exact .nil
  | cons head _ ih =>
      rw [List.zipIdx_cons, List.mapM_cons] at done
      obtain ⟨shown, first, done⟩ := bind_eq_ok.mp done
      obtain ⟨others, later, done⟩ := bind_eq_ok.mp done
      cases done
      obtain rfl := convertDisplayBlock_plain head first
      exact .cons rfl (ih later)

namespace PlainContent

variable {content : Value} {texts : List String}

theorem systemTexts_eq (plain : PlainContent content texts) : systemTexts content = texts := by
  cases plain with
  | string text => rfl
  | array pairs =>
      rw [systemTexts]
      induction pairs with
      | nil => rfl
      | cons head _ ih => rw [List.filterMap_cons, head, ih]

theorem parts (plain : PlainContent content texts) :
    contentParts content = texts.map ContentPart.text := by
  cases plain with
  | string text => rfl
  | array pairs =>
      rw [contentParts]
      induction pairs with
      | nil => rfl
      | cons head _ ih =>
          obtain ⟨isText, held⟩ := plainBlockText_eq_some.mp head
          rw [List.map_cons, List.map_cons, ih, contentPart, isText, held]
          rfl

theorem stripped (plain : PlainContent content texts) :
    PlainContent (stripBillingSystem content) (texts.map stripBillingHeader) := by
  cases plain with
  | string text => exact .string _
  | array pairs =>
      refine .array ?_
      induction pairs with
      | nil => exact .nil
      | cons head _ ih => exact .cons (plainBlockText_stripped head) ih

theorem display (plain : PlainContent content texts) {label : String} {display : Value}
    (done : Glm.convertDisplayContent label content = .ok display) :
    PlainContent display texts := by
  cases plain with
  | string text =>
      cases done
      exact .string text
  | array pairs =>
      obtain ⟨items, converted, rfl⟩ := map_eq_ok.mp done
      exact .array (convertDisplayBlocks_plain pairs converted)

end PlainContent

theorem append_eq_append_of_length_le {Item : Type} {first second third fourth : List Item}
    (shorter : third.length ≤ first.length) (later : fourth.length ≤ second.length) :
    first ++ second = third ++ fourth ↔ first = third ∧ second = fourth := by
  constructor
  · intro same
    have lengths := congrArg List.length same
    rw [List.length_append, List.length_append] at lengths
    exact List.append_inj same (by omega)
  · rintro ⟨rfl, rfl⟩
    rfl

theorem length_le_of_map {First Second Out : Type} {first : First → Out} {second : Second → Out}
    {items : List First} {others : List Second} {more : List Out}
    (same : items.map first = others.map second ++ more) : others.length ≤ items.length := by
  have lengths := congrArg List.length same
  rw [List.length_map, List.length_append, List.length_map] at lengths
  omega

/-- What one input message is sent as, beside what it is counted as. -/
structure MessageAgrees (codec : Codec) (sent : List WireMessage) (counted : List Value)
    (asSent : Prop) : Prop where
  shorter : counted.length ≤ sent.length
  same : sent.map (WireMessage.view codec) = counted.map (messageView codec) ↔ asSent

theorem MessageAgrees.of_eq {sent : List WireMessage} {counted : List Value} {asSent : Prop}
    (same : sent.map (WireMessage.view codec) = counted.map (messageView codec))
    (holds : asSent) : MessageAgrees codec sent counted asSent where
  shorter := length_le_of_map (same.trans (List.append_nil _).symm)
  same := iff_of_true same holds

section Message

variable {message : Value} {content : Value}

theorem countedAsSent_system (speaker : role message = some "system")
    (given : message.get "content" = some content) :
    CountedAsSent message ↔ ∀ text ∈ systemTexts content, hasBillingHeader text = false := by
  simp [CountedAsSent, speaker, given]

theorem countedAsSent_user (speaker : role message = some "user")
    (given : message.get "content" = some content) :
    CountedAsSent message ↔ hasNoBlocks content = false := by
  simp [CountedAsSent, speaker, given]

theorem countedAsSent_assistant (speaker : role message = some "assistant") :
    CountedAsSent message := by
  simp [CountedAsSent, speaker]

theorem systemMessage_agrees {sent display : Value} {label : String}
    (speaker : role message = some "system") (given : message.get "content" = some content)
    (wire : convertSystem content = .ok sent)
    (other : Glm.convertDisplayContent label content = .ok display) :
    MessageAgrees codec [.system sent] [Glm.systemMessage display] (CountedAsSent message) where
  shorter := Nat.le_refl _
  same := by
    obtain ⟨texts, plain, sentPlain⟩ := convertSystem_plain wire
    rw [countedAsSent_system speaker given, plain.systemTexts_eq, ← joinTexts_stripped,
      List.map_singleton, List.map_singleton, view_system, Glm.systemMessage, messageView_plain,
      sentPlain.stripped.parts, (plain.display other).parts]
    simp

theorem userBlocks_agrees {blocks : List Value} {pending : List String} {index : Nat}
    {sent : List WireMessage} {counted : List Value} (speaker : role message = some "user")
    (given : message.get "content" = some (.array blocks))
    (wire : convertUserBlocks pending blocks = .ok sent)
    (other : Glm.convertUserBlocks index blocks = .ok counted) :
    MessageAgrees codec sent counted (CountedAsSent message) := by
  have agree : sent.map (WireMessage.view codec) = _ := convertUserBlocks_agree wire other
  refine ⟨length_le_of_map agree, ?_⟩
  rw [countedAsSent_user speaker given, agree]
  cases blocks with
  | nil => simp [hasNoBlocks]
  | cons block rest => simp [hasNoBlocks]

theorem convertMessage_agrees {index : Nat} {pending next : List String}
    {sent : List WireMessage} {counted : List Value}
    (wire : convertMessage codec index pending message = .ok (sent, next))
    (other : Glm.convertMessage index message = .ok counted) :
    MessageAgrees codec sent counted (CountedAsSent message) := by
  obtain ⟨object, isObject, sending⟩ := bind_eq_ok.mp wire
  obtain rfl := Value.asObject_eq_some (orReject_eq_ok.mp isObject)
  obtain ⟨again, same, counting⟩ := bind_eq_ok.mp other
  obtain rfl := Option.some.inj (orReject_eq_ok.mp same)
  obtain ⟨name, named, sending⟩ := bind_eq_ok.mp sending
  obtain ⟨nameAgain, sameName, counting⟩ := bind_eq_ok.mp counting
  have speaker : role (.object object) = some name := (requiredString_eq_ok.mp named).1
  obtain rfl := Option.some.inj (speaker.symm.trans (orReject_eq_ok.mp sameName))
  split at sending
  next => cases sending
  next known =>
    obtain ⟨content, held, sending⟩ := bind_eq_ok.mp sending
    obtain ⟨contentAgain, sameContent, counting⟩ := bind_eq_ok.mp counting
    have given : (Value.object object).get "content" = some content := orReject_eq_ok.mp held
    obtain rfl := Option.some.inj (given.symm.trans (orReject_eq_ok.mp sameContent))
    rcases (by grind : name = "system" ∨ name = "user" ∨ name = "assistant") with
      rfl | rfl | rfl
    · rw [if_pos rfl] at sending
      obtain ⟨converted, done, sending⟩ := bind_eq_ok.mp sending
      obtain ⟨display, shown, rfl⟩ := map_eq_ok.mp counting
      cases sending
      exact systemMessage_agrees speaker given done shown
    · rw [if_neg (by decide : ¬"user" = "system"), if_neg (by decide : ¬"user" = "assistant")]
        at sending
      split at sending
      next isString =>
        rw [if_pos isString] at counting
        cases sending
        cases counting
        refine .of_eq ?_ ((countedAsSent_user speaker given).mpr ?_)
        · rw [List.map_singleton, List.map_singleton, messageView_plain,
            view_user codec _ (by decide : "user" ≠ "system")]
        · cases content with
          | string text => rfl
          | null | bool | number | array | object => cases isString
      next isArray =>
        rw [if_neg isArray] at counting
        obtain ⟨blocks, found, sending⟩ := bind_eq_ok.mp sending
        obtain ⟨blocksAgain, sameBlocks, counting⟩ := bind_eq_ok.mp counting
        rw [if_neg (by decide : ¬"user" = "assistant")] at sending
        obtain ⟨messages, done, finished⟩ := bind_eq_ok.mp sending
        cases finished
        obtain rfl := Value.asArray_eq_some (orReject_eq_ok.mp found)
        obtain rfl := Option.some.inj (orReject_eq_ok.mp sameBlocks)
        exact userBlocks_agrees speaker given done counting
    · rw [if_neg (by decide : ¬"assistant" = "system"), if_pos rfl] at sending
      refine .of_eq ?_ (countedAsSent_assistant speaker)
      cases content with
      | string text =>
          cases sending
          cases counting
          rw [List.map_singleton, List.map_singleton, messageView_plain,
            view_user codec _ (by decide : "assistant" ≠ "system")]
      | array blocks =>
          dsimp only [Value.isString] at sending
          exact convertAssistantBlocks_agree sending counting
      | null | bool | number | object => cases sending

end Message

theorem convertMessages_agree {messages : List Value} {index : Nat} {pending : List String}
    {sent : List WireMessage} {counted : List Value}
    (wire : convertMessages codec index pending messages = .ok sent)
    (other : Glm.convertMessages index messages = .ok counted) :
    MessageAgrees codec sent counted (∀ message ∈ messages, CountedAsSent message) := by
  induction messages generalizing index pending sent counted with
  | nil =>
      cases wire
      cases other
      exact .of_eq rfl (by simp)
  | cons message rest ih =>
      obtain ⟨⟨first, next⟩, firstDone, wire⟩ := bind_eq_ok.mp wire
      obtain ⟨later, laterDone, wire⟩ := bind_eq_ok.mp wire
      obtain ⟨firstCounted, firstMade, other⟩ := bind_eq_ok.mp other
      obtain ⟨laterCounted, laterMade, other⟩ := bind_eq_ok.mp other
      cases wire
      cases other
      have head := convertMessage_agrees firstDone firstMade
      have tail := ih laterDone laterMade
      refine ⟨?_, ?_⟩
      · rw [List.length_append, List.length_append]
        exact Nat.add_le_add head.shorter tail.shorter
      · rw [List.map_append, List.map_append, append_eq_append_of_length_le
          (by simpa using head.shorter) (by simpa using tail.shorter), head.same, tail.same,
          List.forall_mem_cons]

theorem convertSystemMember_agree {object : Map} {system : List WireMessage}
    {counted : List Value} (wire : convertSystemMember object = .ok system)
    (other : Glm.convertSystemMember (object.update "system" stripBillingSystem) =
      .ok counted) :
    system.map (WireMessage.view codec) = counted.map (messageView codec) := by
  rw [convertSystemMember] at wire
  rw [Glm.convertSystemMember, Map.get_update, if_pos rfl] at other
  cases found : object.get "system" with
  | none =>
      rw [found] at wire other
      cases wire
      cases other
      rfl
  | some content =>
      rw [found] at wire other
      obtain ⟨sent, done, rfl⟩ := map_eq_ok.mp wire
      obtain ⟨display, shown, rfl⟩ := map_eq_ok.mp other
      obtain ⟨texts, plain, sentPlain⟩ := convertSystem_plain done
      rw [List.map_singleton, List.map_singleton, view_system, Glm.systemMessage,
        messageView_plain, sentPlain.stripped.parts, (plain.stripped.display shown).parts]

theorem normalized_messages {body : Value} {messages : List WireMessage}
    (given : body.get "messages" = some (.array (messages.map WireMessage.intoWire))) :
    (inputMessages (normalizeSystemMessages body)).map (messageView codec) =
      messages.map (WireMessage.view codec) := by
  rw [inputMessages, normalizeSystemMessages, Value.get_update, if_pos rfl, given]
  simp only [Option.map_some, Value.mapArray, Option.bind_some, Value.asArray_array,
    Option.getD_some, List.map_map]
  refine List.map_congr_left fun message _ => ?_
  rw [WireMessage.view, Function.comp_apply, Function.comp_apply, normalize_intoWire]

theorem counted_messages {codec : Codec} {input : Value} {converted : ConvertedRequest}
    {counted : Glm.GlmConversion} (accepted : convertRequestValue codec input = .ok converted)
    (countable : Glm.convertAnthropicToGlm (stripBillingHeaderInAnthropicSystem input) =
      .ok counted) :
    (inputMessages (normalizeSystemMessages converted.body)).map (messageView codec) =
        counted.messages.map (messageView codec) ↔
      ∀ message ∈ inputMessages input, CountedAsSent message := by
  obtain ⟨object, system, messages, rfl, systemDone, messagesDone, given, wire⟩ :=
    convertRequestValue_messages accepted
  obtain ⟨stripped, isObject, countable⟩ := bind_eq_ok.mp countable
  obtain ⟨model, -, countable⟩ := bind_eq_ok.mp countable
  obtain ⟨inputs, read, countable⟩ := bind_eq_ok.mp countable
  obtain ⟨systemCounted, systemMade, countable⟩ := bind_eq_ok.mp countable
  obtain ⟨messagesCounted, messagesMade, countable⟩ := bind_eq_ok.mp countable
  obtain ⟨tools, -, countable⟩ := bind_eq_ok.mp countable
  obtain ⟨effort, -, countable⟩ := bind_eq_ok.mp countable
  cases countable
  obtain rfl := Option.some.inj (orReject_eq_ok.mp isObject)
  have held : inputs = inputMessages (.object object) := by
    have found := orReject_eq_ok.mp read
    have same : Map.get "messages" object = some (.array (inputMessages (.object object))) := given
    rw [Map.get_update, if_neg (by decide : "messages" ≠ "system"), same] at found
    exact (Option.some.inj found).symm
  rw [held] at messagesMade
  have systems := @convertSystemMember_agree codec _ _ _ systemDone systemMade
  have agree := convertMessages_agree messagesDone messagesMade
  rw [normalized_messages wire, List.map_append, List.map_append, systems, List.append_cancel_left_eq,
    agree.same]

def billingSystem : Value := .string "x-anthropic-billing-header: cc\nBe brief."

def mixedConversation : Value :=
  .object [("model", .string "glm"), ("max_tokens", .ofNat 64), ("system", billingSystem),
    ("messages", .array [message "user" (.string "hello"),
      message "assistant" (.array [thinkingBlock "plan", textBlock "let me ", textBlock "see",
        callBlock "server_tool_use" "s1", searchResultBlock "s1", callBlock "tool_use" "c1"]),
      message "user" (.array [toolResultBlock "c1", textBlock "thanks"])])]

theorem counted_messages_mixed :
    ∃ converted counted, convertRequestValue plainCodec mixedConversation = .ok converted ∧
      Glm.convertAnthropicToGlm (stripBillingHeaderInAnthropicSystem mixedConversation) =
        .ok counted ∧
      (inputMessages (normalizeSystemMessages converted.body)).map (messageView plainCodec) =
        counted.messages.map (messageView plainCodec) := by
  obtain ⟨converted, accepted⟩ := ok_of_isOk
    (by decide +kernel : (convertRequestValue plainCodec mixedConversation).isOk = true)
  obtain ⟨counted, countable⟩ := ok_of_isOk (by decide +kernel : (Glm.convertAnthropicToGlm
    (stripBillingHeaderInAnthropicSystem mixedConversation)).isOk = true)
  exact ⟨converted, counted, accepted, countable,
    (counted_messages accepted countable).mpr (by decide +kernel)⟩

def emptyUserMessage : Value := requestOf [message "user" (.array [])]

def billedConversation : Value :=
  requestOf [message "system" billingSystem, message "user" (.string "hello")]

def CountedOtherwise (input : Value) : Prop :=
  ∃ converted counted, convertRequestValue plainCodec input = .ok converted ∧
    Glm.convertAnthropicToGlm (stripBillingHeaderInAnthropicSystem input) = .ok counted ∧
    (inputMessages (normalizeSystemMessages converted.body)).map (messageView plainCodec) ≠
      counted.messages.map (messageView plainCodec)

theorem counted_messages_differ :
    CountedOtherwise emptyUserMessage ∧ CountedOtherwise billedConversation :=
  ⟨⟨_, _, rfl, rfl, by decide +kernel⟩, ⟨_, _, rfl, rfl, by decide +kernel⟩⟩

end ClineProxy
