import ClineProxy.ChatTemplate
import ClineProxy.FallibleLoops

/-! The messages that the conversion gives to the chat template. -/

namespace ClineProxy

open Json Text

namespace Glm

def PlainCall (call : Value) : Prop := ∃ name input, call = templateCall name input

def PlainItem (item : Value) : Prop := (∃ text, item = textBlock text) ∨ item = imagePlaceholder

/-- A text, or a list of texts and of the places of images. -/
inductive PlainResult : Value → Prop where
  | text (text : String) : PlainResult (.string text)
  | items (items : List Value) (plain : ∀ item ∈ items, PlainItem item) :
      PlainResult (.array items)

inductive PlainMessage : Value → Prop where
  | system (content : Value) : PlainMessage (systemMessage content)
  | user (content : Value) :
      PlainMessage (.object [("role", .string "user"), ("content", content)])
  | tool (id : String) (content : Value) (plain : PlainResult content) :
      PlainMessage (.object [("role", .string "tool"), ("tool_call_id", .string id),
        ("content", content)])
  | assistant (segment : Segment) (plain : ∀ call ∈ segment.toolCalls, PlainCall call) :
      PlainMessage segment.intoMessage

theorem PlainMessage.ofText (text : String) :
    PlainMessage (.object [("role", .string "assistant"), ("content", .string text)]) :=
  .assistant ⟨text, "", []⟩ (by simp)

theorem PlainMessage.ofCalls {calls : List Value} (some_ : calls.isEmpty = false)
    (plain : ∀ call ∈ calls, PlainCall call) :
    PlainMessage (.object [("role", .string "assistant"), ("content", .string ""),
      ("tool_calls", .array calls)]) := by
  have made := PlainMessage.assistant ⟨"", "", calls⟩ plain
  rw [Segment.intoMessage] at made
  simpa [some_] using made

theorem plainItem_convertTextBlock {index blockIndex : Nat} {object : Map} {item : Value}
    (done : convertTextBlock index blockIndex object = .ok item) : PlainItem item := by
  obtain ⟨text, -, made⟩ := map_eq_ok.mp done
  exact .inl ⟨text, made.symm⟩

theorem plainItem_convertDocumentBlock {index blockIndex : Nat} {object : Map} {item : Value}
    (done : convertDocumentBlock index blockIndex object = .ok item) : PlainItem item := by
  obtain ⟨source, -, done⟩ := bind_eq_ok.mp done
  split at done
  next =>
    obtain ⟨text, -, made⟩ := map_eq_ok.mp done
    exact .inl ⟨text, made.symm⟩
  next => cases done
  next => cases done

theorem plainItem_convertToolResultBlock {index blockIndex itemIndex : Nat} {block item : Value}
    (done : convertToolResultBlock index blockIndex itemIndex block = .ok item) :
    PlainItem item := by
  obtain ⟨object, -, done⟩ := bind_eq_ok.mp done
  split at done
  next => exact plainItem_convertTextBlock done
  next =>
    cases done
    exact .inr rfl
  next => exact plainItem_convertDocumentBlock done
  next =>
    cases done
    exact .inl ⟨_, rfl⟩
  next =>
    cases done
    exact .inl ⟨_, rfl⟩
  next => cases done

theorem plainResult_convertToolResultContent {index blockIndex : Nat} {content : Option Value}
    {result : Value} (done : convertToolResultContent index blockIndex content = .ok result) :
    PlainResult result := by
  rw [convertToolResultContent.eq_def] at done
  split at done
  next =>
    cases done
    exact .text ""
  next =>
    cases done
    exact .text ""
  next =>
    cases done
    exact .text _
  next =>
    obtain ⟨items, converted, made⟩ := map_eq_ok.mp done
    rw [← made]
    exact .items items (FallibleLoops.forall_of_mapM
      (fun _ _ _ given => plainItem_convertToolResultBlock given) converted)
  next => cases done

theorem plainMessage_convertToolResult {index blockIndex : Nat} {object : Map} {result : Value}
    (done : convertToolResult index blockIndex object = .ok result) : PlainMessage result := by
  obtain ⟨id, -, done⟩ := bind_eq_ok.mp done
  obtain ⟨content, converted, done⟩ := bind_eq_ok.mp done
  cases done
  exact .tool id content (plainResult_convertToolResultContent converted)

theorem UserTurn.plain_flushUser {turn : UserTurn} (plain : ∀ message ∈ turn.output,
    PlainMessage message) : ∀ message ∈ turn.flushUser.output, PlainMessage message := by
  rw [UserTurn.flushUser]
  split
  next => exact plain
  next =>
    intro message member
    rcases List.mem_append.mp member with earlier | last
    · exact plain message earlier
    · rw [List.mem_singleton.mp last]
      exact .user _

theorem plain_convertUserBlock {index : Nat} {turn next : UserTurn} {indexed : Value × Nat}
    (plain : ∀ message ∈ turn.output, PlainMessage message)
    (done : convertUserBlock index turn indexed = .ok next) :
    ∀ message ∈ next.output, PlainMessage message := by
  obtain ⟨block, blockIndex⟩ := indexed
  obtain ⟨object, -, done⟩ := bind_eq_ok.mp done
  dsimp only at done
  split at done
  next =>
    obtain ⟨item, -, made⟩ := map_eq_ok.mp done
    rw [← made]
    exact plain
  next =>
    cases done
    exact plain
  next =>
    obtain ⟨item, -, made⟩ := map_eq_ok.mp done
    rw [← made]
    exact plain
  next =>
    obtain ⟨result, converted, done⟩ := bind_eq_ok.mp done
    cases done
    intro message member
    rcases List.mem_append.mp member with earlier | last
    · exact turn.plain_flushUser plain message earlier
    · rw [List.mem_singleton.mp last]
      exact plainMessage_convertToolResult converted
  next => cases done

theorem plain_convertUserBlocks {index : Nat} {blocks messages : List Value}
    (done : convertUserBlocks index blocks = .ok messages) :
    ∀ message ∈ messages, PlainMessage message := by
  obtain ⟨turn, converted, made⟩ := map_eq_ok.mp done
  rw [← made]
  refine turn.plain_flushUser ?_
  exact @FallibleLoops.foldlM_kept _ UserTurn _ (fun turn => ∀ message ∈ turn.output,
    PlainMessage message) _ _ (fun _ _ _ _ plain given => plain_convertUserBlock plain given) _ _
    (by simp) converted

structure AssistantTurn.Plain (turn : AssistantTurn) : Prop where
  output : ∀ message ∈ turn.output, PlainMessage message
  toolCalls : ∀ call ∈ turn.segment.toolCalls, PlainCall call
  serverCalls : ∀ call ∈ turn.serverCalls, PlainCall call

namespace AssistantTurn.Plain

variable {turn next : AssistantTurn}

theorem flush (plain : turn.Plain) : turn.flush.Plain := by
  rw [AssistantTurn.flush]
  split
  next => exact plain
  next =>
    refine { plain with output := ?_, toolCalls := by simp [Segment.empty] }
    intro message member
    rcases List.mem_append.mp member with earlier | last
    · exact plain.output message earlier
    · rw [List.mem_singleton.mp last]
      exact .assistant _ plain.toolCalls

theorem flushServerCalls (plain : turn.Plain) : turn.flushServerCalls.Plain := by
  rw [AssistantTurn.flushServerCalls]
  split
  next => exact plain
  next filled =>
    refine { plain with output := ?_, serverCalls := by simp }
    intro message member
    rcases List.mem_append.mp member with earlier | last
    · exact plain.output message earlier
    · rw [List.mem_singleton.mp last]
      exact .ofCalls (Bool.eq_false_iff.mpr filled) plain.serverCalls

theorem toolUse (plain : turn.Plain) {index blockIndex : Nat} {server : Bool} {object : Map}
    (done : assistantToolUse index blockIndex server object turn = .ok next) : next.Plain := by
  obtain ⟨name, -, done⟩ := bind_eq_ok.mp done
  dsimp only at done
  split at done
  next => cases done
  next =>
    split at done
    next =>
      cases done
      refine { plain.flush with serverCalls := ?_ }
      intro call member
      rcases List.mem_append.mp member with earlier | last
      · exact plain.flush.serverCalls call earlier
      · exact ⟨name, _, List.mem_singleton.mp last⟩
    next =>
      cases done
      refine { plain with toolCalls := ?_ }
      intro call member
      rcases List.mem_append.mp member with earlier | last
      · exact plain.toolCalls call earlier
      · exact ⟨name, _, List.mem_singleton.mp last⟩

theorem searchResult (plain : turn.Plain) {block : Value} {object : Map}
    (done : assistantSearchResult block object turn = .ok next) : next.Plain := by
  obtain ⟨text, -, done⟩ := bind_eq_ok.mp done
  cases done
  refine { plain.flushServerCalls with output := ?_ }
  intro message member
  rcases List.mem_append.mp member with earlier | last
  · exact plain.flushServerCalls.output message earlier
  · rw [List.mem_singleton.mp last]
    exact .tool _ _ (.text text)

theorem block (plain : turn.Plain) {index : Nat} {indexed : Value × Nat}
    (done : convertAssistantBlock index turn indexed = .ok next) : next.Plain := by
  obtain ⟨block, blockIndex⟩ := indexed
  obtain ⟨object, -, done⟩ := bind_eq_ok.mp done
  dsimp only at done
  split at done
  next =>
    obtain ⟨text, -, done⟩ := bind_eq_ok.mp done
    cases done
    exact { plain with }
  next =>
    cases done
    exact { plain with }
  next =>
    cases done
    exact plain
  next => exact plain.toolUse done
  next => exact plain.toolUse done
  next => exact plain.searchResult done
  next => cases done

end AssistantTurn.Plain

theorem plain_convertAssistantBlocks {index : Nat} {blocks messages : List Value}
    (done : convertAssistantBlocks index blocks = .ok messages) :
    ∀ message ∈ messages, PlainMessage message := by
  obtain ⟨turn, converted, made⟩ := map_eq_ok.mp done
  have started : AssistantTurn.start.Plain := ⟨by simp [AssistantTurn.start],
    by simp [AssistantTurn.start, Segment.empty], by simp [AssistantTurn.start]⟩
  have plain : turn.Plain :=
    FallibleLoops.foldlM_kept (fun _ _ _ _ plain given => plain.block given) started converted
  rw [← made]
  dsimp only
  split
  next =>
    intro message member
    rw [List.mem_singleton.mp member]
    exact .ofText ""
  next => exact plain.flushServerCalls.flush.output

theorem plain_convertAssistant {index : Nat} {content : Value} {messages : List Value}
    (done : convertAssistant index content = .ok messages) :
    ∀ message ∈ messages, PlainMessage message := by
  rw [convertAssistant.eq_def] at done
  split at done
  next text =>
    cases done
    intro message member
    rw [List.mem_singleton.mp member]
    exact .ofText text
  next =>
    cases done
    intro message member
    rw [List.mem_singleton.mp member]
    exact .ofText ""
  next => exact plain_convertAssistantBlocks done
  next => cases done

theorem plain_convertMessage {index : Nat} {message : Value} {messages : List Value}
    (done : convertMessage index message = .ok messages) :
    ∀ message ∈ messages, PlainMessage message := by
  obtain ⟨object, -, done⟩ := bind_eq_ok.mp done
  obtain ⟨role, -, done⟩ := bind_eq_ok.mp done
  obtain ⟨content, -, done⟩ := bind_eq_ok.mp done
  split at done
  next =>
    obtain ⟨shown, -, made⟩ := map_eq_ok.mp done
    rw [← made]
    intro message member
    rw [List.mem_singleton.mp member]
    exact .system shown
  next =>
    split at done
    next =>
      cases done
      intro message member
      rw [List.mem_singleton.mp member]
      exact .user content
    next =>
      obtain ⟨blocks, -, done⟩ := bind_eq_ok.mp done
      exact plain_convertUserBlocks done
  next => exact plain_convertAssistant done
  next => cases done

theorem plain_convertMessages {index : Nat} {inputs messages : List Value}
    (done : convertMessages index inputs = .ok messages) :
    ∀ message ∈ messages, PlainMessage message := by
  induction inputs generalizing index messages with
  | nil =>
      cases done
      simp
  | cons input rest ih =>
      obtain ⟨first, head, done⟩ := bind_eq_ok.mp done
      obtain ⟨later, tail, done⟩ := bind_eq_ok.mp done
      cases done
      intro message member
      rcases List.mem_append.mp member with here | there
      · exact plain_convertMessage head message here
      · exact ih tail message there

theorem plain_convertSystemMember {object : Map} {messages : List Value}
    (done : convertSystemMember object = .ok messages) :
    ∀ message ∈ messages, PlainMessage message := by
  rw [convertSystemMember] at done
  split at done
  next =>
    cases done
    simp
  next =>
    obtain ⟨shown, -, made⟩ := map_eq_ok.mp done
    rw [← made]
    intro message member
    rw [List.mem_singleton.mp member]
    exact .system shown

theorem plain_convertAnthropicToGlm {request : Value} {conversion : GlmConversion}
    (done : convertAnthropicToGlm request = .ok conversion) :
    ∀ message ∈ conversion.messages, PlainMessage message := by
  obtain ⟨object, -, done⟩ := bind_eq_ok.mp done
  obtain ⟨model, -, done⟩ := bind_eq_ok.mp done
  obtain ⟨inputs, -, done⟩ := bind_eq_ok.mp done
  obtain ⟨system, shown, done⟩ := bind_eq_ok.mp done
  obtain ⟨messages, converted, done⟩ := bind_eq_ok.mp done
  obtain ⟨tools, -, done⟩ := bind_eq_ok.mp done
  obtain ⟨effort, -, done⟩ := bind_eq_ok.mp done
  cases done
  intro message member
  rcases List.mem_append.mp member with first | later
  · exact plain_convertSystemMember shown message first
  · exact plain_convertMessages converted message later

end Glm

end ClineProxy
