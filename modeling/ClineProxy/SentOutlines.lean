import ClineProxy.CountablePrompts

/-! The messages that an Anthropic request is converted to, as the context guard reads them. -/

namespace ClineProxy

open Json FallibleLoops

def WireMessage.Sent : WireMessage → Prop
  | .system content => readable (some content) = true ∧ otherParts (some content) = []
  | .user speaker content => readable (some content) = true ∧
      (speaker = "user" ∨ speaker = "assistant" ∧ otherParts (some content) = []) ∧
      ∀ part ∈ otherParts (some content), ForeignPart part
  | .assistant content _ _ => otherParts (some (.array content)) = []
  | .tool _ content _ => readable (some content) = true

def WireMessage.Counts : WireMessage → Prop
  | .system _ | .assistant .. => True
  | .user _ content => otherParts (some content) = []
  | .tool .. => False

theorem outline_intoWire (message : WireMessage) : outline message.intoWire =
    match message with
    | .system content => ⟨some "system", otherParts (some content), readable (some content)⟩
    | .user speaker content =>
        ⟨some speaker, otherParts (some content), readable (some content)⟩
    | .assistant content _ _ => ⟨some "assistant", otherParts (some (.array content)), true⟩
    | .tool _ content _ => ⟨some "tool", otherParts (some content), readable (some content)⟩ := by
  cases message <;> rfl

theorem sent_outline {message : WireMessage} (sent : message.Sent) :
    (outline message.intoWire).Sent := by
  rw [outline_intoWire]
  cases message with
  | system content =>
      obtain ⟨read, texts⟩ := sent
      exact ⟨read, by simp, by simp, fun some_ => absurd texts some_⟩
  | user speaker content =>
      obtain ⟨read, spoken, foreign⟩ := sent
      rcases spoken with rfl | ⟨rfl, texts⟩
      · exact ⟨read, by simp, fun _ => foreign, by simp⟩
      · exact ⟨read, by simp, by simp, fun some_ => absurd texts some_⟩
  | assistant content calls reasoning =>
      exact ⟨rfl, by simp, by simp, fun some_ => absurd sent some_⟩
  | tool id content isError => exact ⟨sent, by simp, by simp, by simp⟩

theorem counts_outline {message : WireMessage} (sent : message.Sent) :
    (outline message.intoWire).Counts ↔ message.Counts := by
  rw [outline_intoWire]
  cases message with
  | system content => simp [Outline.Counts, WireMessage.Counts, sent.2]
  | user speaker content =>
      have spoken : speaker ≠ "tool" := by
        rcases sent.2.1 with rfl | ⟨rfl, -⟩ <;> decide
      simp [Outline.Counts, WireMessage.Counts, spoken]
  | assistant content calls reasoning =>
      have texts : otherParts (some (.array content)) = [] := sent
      simp [Outline.Counts, WireMessage.Counts, texts]
  | tool id content isError => simp [Outline.Counts, WireMessage.Counts]

theorem plainBlockText_textBlock (text : String) : plainBlockText (textBlock text) = some text := by
  rfl

theorem otherParts_texts {parts : List Value}
    (texts : ∀ part ∈ parts, ∃ text, part = textBlock text) :
    otherParts (some (.array parts)) = [] := by
  refine List.filter_eq_nil_iff.mpr fun part member => ?_
  obtain ⟨text, rfl⟩ := texts part member
  simp [plainBlockText_textBlock]

theorem convertTextBlock_text {object : Map} {part : Value}
    (done : convertTextBlock object = .ok part) : ∃ text, part = textBlock text := by
  obtain ⟨text, -, made⟩ := map_eq_ok.mp done
  exact ⟨text, made.symm⟩

theorem convertSystem_sent {value content : Value} (done : convertSystem value = .ok content) :
    (WireMessage.system content).Sent := by
  cases value with
  | string text =>
      cases done
      exact ⟨rfl, rfl⟩
  | array blocks =>
      obtain ⟨parts, converted, rfl⟩ := map_eq_ok.mp done
      refine ⟨rfl, otherParts_texts (forall_of_mapM (fun indexed part _ made => ?_) converted)⟩
      obtain ⟨object, -, made⟩ := bind_eq_ok.mp made
      obtain ⟨kind, -, made⟩ := bind_eq_ok.mp made
      split at made
      next => cases made
      next => exact convertTextBlock_text made
  | null | bool | number | object => cases done

theorem convertImageBlock_foreign {object : Map} {part : Value}
    (done : convertImageBlock object = .ok part) :
    plainBlockText part = none ∧ ForeignPart part := by
  obtain ⟨source, -, done⟩ := bind_eq_ok.mp done
  obtain ⟨kind, -, done⟩ := bind_eq_ok.mp done
  obtain ⟨url, -, done⟩ := bind_eq_ok.mp done
  cases done
  exact ⟨rfl, _, "image_url", rfl, rfl, by decide⟩

def sourceType (block : Value) : Option String :=
  ((block.get "source").bind fun source => source.get "type").bind Value.asStr

theorem convertDocumentBlock_sent {object : Map} {part : Value}
    (done : convertDocumentBlock object = .ok part) :
    (plainBlockText part = none ↔ sourceType (.object object) ≠ some "text") ∧
      (plainBlockText part = none → ForeignPart part) := by
  obtain ⟨source, given, done⟩ := bind_eq_ok.mp done
  obtain ⟨kind, found, done⟩ := bind_eq_ok.mp done
  have known : sourceType (.object object) = some kind := by
    obtain ⟨held, there, isObject⟩ := Option.bind_eq_some_iff.mp (orReject_eq_ok.mp given)
    obtain rfl := Value.asObject_eq_some isObject
    have there : (Value.object object).get "source" = some (.object source) := there
    rw [sourceType, there]
    exact (requiredString_eq_ok.mp found).1
  rw [known]
  split at done
  next =>
    obtain ⟨text, -, rfl⟩ := map_eq_ok.mp done
    exact ⟨by simp [plainBlockText_textBlock], by simp [plainBlockText_textBlock]⟩
  next =>
    obtain ⟨url, -, rfl⟩ := map_eq_ok.mp done
    exact ⟨iff_of_true rfl (by decide), fun _ => ⟨_, "file", rfl, rfl, by decide⟩⟩
  next =>
    obtain ⟨encoded, -, done⟩ := bind_eq_ok.mp done
    cases done
    exact ⟨iff_of_true rfl (by decide), fun _ => ⟨_, "file", rfl, rfl, by decide⟩⟩
  next => cases done

/-! User turns -/

def isTextual (speaker : Option String) (block : Value) : Bool :=
  let kind := (block.get "type").bind Value.asStr
  if speaker == some "assistant" then kind != some "web_search_tool_result"
  else kind == some "text" || (kind == some "document" && sourceType block == some "text")

def UserTurn.Uncounted (turn : UserTurn) : Prop :=
  turn.output ≠ [] ∨ ∃ part ∈ turn.ordinary, plainBlockText part = none

structure UserTurn.Sends (turn : UserTurn) : Prop where
  output : ∀ message ∈ turn.output, message.Sent ∧ ¬message.Counts
  ordinary : ∀ part ∈ turn.ordinary, plainBlockText part = none → ForeignPart part

theorem UserTurn.Sends.addOrdinary {turn : UserTurn} (sends : turn.Sends) {part : Value}
    (foreign : plainBlockText part = none → ForeignPart part) : (turn.addOrdinary part).Sends ∧
      ((turn.addOrdinary part).Uncounted ↔ turn.Uncounted ∨ plainBlockText part = none) := by
  refine ⟨⟨sends.output, fun other member => ?_⟩, ?_⟩
  · rcases List.mem_append.mp member with before | added
    · exact sends.ordinary other before
    · rw [List.mem_singleton.mp added]
      exact foreign
  · simp only [UserTurn.Uncounted, UserTurn.addOrdinary, List.mem_append, List.mem_singleton, or_and_right,
      exists_or, exists_eq_left, or_assoc]

theorem convertToolResult_sent {pending : List String} {object : Map} {message : WireMessage}
    (done : convertToolResult pending object = .ok message) : message.Sent ∧ ¬message.Counts := by
  obtain ⟨content, converted, done⟩ := bind_eq_ok.mp done
  obtain ⟨id, -, done⟩ := bind_eq_ok.mp done
  split at done
  next => cases done
  next =>
    obtain ⟨failed, -, done⟩ := bind_eq_ok.mp done
    cases done
    refine ⟨?_, fun counts => counts⟩
    cases given : (Map.get "content" object).getD (.string "") with
    | array blocks =>
        rw [given] at converted
        obtain ⟨parts, -, rfl⟩ := map_eq_ok.mp converted
        rfl
    | string text =>
        rw [given] at converted
        cases converted
        rfl
    | null | bool | number | object =>
        rw [given] at converted
        cases converted

theorem convertUserBlock_sends {pending : List String} {turn next : UserTurn} {block : Value}
    (sends : turn.Sends) (stepped : convertUserBlock pending turn block = .ok next) :
    next.Sends ∧ (next.Uncounted ↔ turn.Uncounted ∨ isTextual (some "user") block = false) := by
  obtain ⟨object, isObject, done⟩ := bind_eq_ok.mp stepped
  obtain ⟨kind, found, done⟩ := bind_eq_ok.mp done
  obtain rfl := Value.asObject_eq_some (orReject_eq_ok.mp isObject)
  have known : ((Value.object object).get "type").bind Value.asStr = some kind :=
    (requiredString_eq_ok.mp found).1
  have kinds : isTextual (some "user") (.object object) =
      (kind == "text" || (kind == "document" && sourceType (.object object) == some "text")) := by
    rw [isTextual, known]
    rfl
  rw [kinds]
  split at done
  next =>
    obtain ⟨part, made, rfl⟩ := map_eq_ok.mp done
    obtain ⟨text, rfl⟩ := convertTextBlock_text made
    have said := plainBlockText_textBlock text
    obtain ⟨kept, now⟩ := @UserTurn.Sends.addOrdinary turn sends (textBlock text) (by simp [said])
    exact ⟨kept, by rw [now, said]; simp⟩
  next =>
    obtain ⟨part, made, rfl⟩ := map_eq_ok.mp done
    obtain ⟨silent, foreign⟩ := convertImageBlock_foreign made
    obtain ⟨kept, now⟩ := sends.addOrdinary fun _ => foreign
    exact ⟨kept, by rw [now, silent]; simp⟩
  next =>
    obtain ⟨part, made, rfl⟩ := map_eq_ok.mp done
    obtain ⟨silent, foreign⟩ := convertDocumentBlock_sent made
    obtain ⟨kept, now⟩ := sends.addOrdinary foreign
    exact ⟨kept, by rw [now, silent]; simp⟩
  next =>
    rw [userToolResult] at done
    split at done
    next => cases done
    next =>
      obtain ⟨id, -, done⟩ := bind_eq_ok.mp done
      split at done
      next => cases done
      next =>
        obtain ⟨message, made, done⟩ := bind_eq_ok.mp done
        cases done
        refine ⟨⟨fun other member => ?_, sends.ordinary⟩, iff_of_true (.inl (by simp)) (.inr rfl)⟩
        rcases List.mem_append.mp member with before | added
        · exact sends.output other before
        · rw [List.mem_singleton.mp added]
          exact convertToolResult_sent made
  next => cases done

/-- A user turn is sent as one that can be counted just when all of its blocks are textual. -/
theorem convertUserBlocks_sends {pending : List String} {blocks : List Value}
    {messages : List WireMessage} (done : convertUserBlocks pending blocks = .ok messages) :
    (∀ message ∈ messages, message.Sent) ∧ ((∀ message ∈ messages, message.Counts) ↔
      ∀ block ∈ blocks, isTextual (some "user") block = true) := by
  obtain ⟨turn, run, done⟩ := bind_eq_ok.mp done
  cases done
  have start : UserTurn.start.Sends := ⟨by simp [UserTurn.start], by simp [UserTurn.start]⟩
  have sends : turn.Sends := foldlM_kept
    (fun _ _ _ _ sends stepped => (convertUserBlock_sends sends stepped).1) start run
  have brought := foldlM_brought
    (fun _ _ _ sends stepped => convertUserBlock_sends sends stepped) start run
  have silent : ¬UserTurn.start.Uncounted := by simp [UserTurn.Uncounted, UserTurn.start]
  rw [or_iff_right silent] at brought
  have ordinary : (WireMessage.user "user" (.array turn.ordinary)).Sent :=
    ⟨rfl, .inl rfl, fun part member =>
      have held := List.mem_filter.mp member
      sends.ordinary part held.1 (Option.isNone_iff_eq_none.mp held.2)⟩
  constructor
  · intro message member
    rcases List.mem_append.mp member with (member | added)
    · rcases List.mem_append.mp member with answered | said
      · exact (sends.output message answered).1
      · split at said
        next => cases said
        next =>
          rw [List.mem_singleton.mp said]
          exact ordinary
    · split at added
      next =>
        rw [List.mem_singleton.mp added]
        exact ⟨rfl, .inl rfl, by simp [otherParts]⟩
      next => cases added
  · have counted : (∀ block ∈ blocks, isTextual (some "user") block = true) ↔
        ¬turn.Uncounted := by
      rw [brought]
      simp
    rw [counted, UserTurn.Uncounted, not_or, not_not]
    constructor
    · intro counts
      have unanswered : turn.output = [] := by
        refine List.eq_nil_iff_forall_not_mem.mpr fun message member => ?_
        exact (sends.output message member).2 (counts message (by simp [member]))
      refine ⟨unanswered, ?_⟩
      rintro ⟨part, member, foreign⟩
      have filled : turn.ordinary.isEmpty = false := by
        cases shape : turn.ordinary with
        | nil =>
            rw [shape] at member
            cases member
        | cons => rfl
      have texts : otherParts (some (.array turn.ordinary)) = [] :=
        counts (.user "user" (.array turn.ordinary)) (by simp [filled])
      obtain ⟨text, said⟩ := texts_of_others texts part member
      rw [foreign] at said
      cases said
    · rintro ⟨unanswered, texts⟩ message member
      rw [unanswered, List.nil_append] at member
      rcases List.mem_append.mp member with said | added
      · split at said
        next => cases said
        next =>
          rw [List.mem_singleton.mp said]
          refine List.filter_eq_nil_iff.mpr fun part member foreign => ?_
          exact texts ⟨part, member, Option.isNone_iff_eq_none.mp foreign⟩
      · split at added
        next =>
          rw [List.mem_singleton.mp added]
          exact rfl
        next => cases added

/-! Assistant turns -/

structure AssistantTurn.Sends (turn : AssistantTurn) : Prop where
  output : ∀ message ∈ turn.output, message.Sent
  texts : ∀ part ∈ turn.segment.content, ∃ text, part = textBlock text

def AssistantTurn.Searched (turn : AssistantTurn) : Prop := ∃ message ∈ turn.output, ¬message.Counts

namespace AssistantTurn

variable {turn next : AssistantTurn}

theorem Sends.flush (sends : turn.Sends) :
    turn.flush.Sends ∧ (turn.flush.Searched ↔ turn.Searched) := by
  rw [AssistantTurn.flush]
  split
  next => exact ⟨sends, Iff.rfl⟩
  next =>
    refine ⟨⟨fun message member => ?_, by simp [Segment.empty]⟩, ?_⟩
    · rcases List.mem_append.mp member with before | added
      · exact sends.output message before
      · rw [List.mem_singleton.mp added]
        exact otherParts_texts sends.texts
    · simp [Searched, WireMessage.Counts, or_and_right, exists_or]

theorem Sends.flushServerCalls (sends : turn.Sends) :
    turn.flushServerCalls.Sends ∧ (turn.flushServerCalls.Searched ↔ turn.Searched) := by
  rw [AssistantTurn.flushServerCalls]
  split
  next => exact ⟨sends, Iff.rfl⟩
  next =>
    refine ⟨⟨fun message member => ?_, sends.texts⟩, ?_⟩
    · rcases List.mem_append.mp member with before | added
      · exact sends.output message before
      · rw [List.mem_singleton.mp added]
        exact rfl
    · simp [Searched, WireMessage.Counts, or_and_right, exists_or]

end AssistantTurn

theorem convertAssistantBlock_sends {codec : Codec} {turn next : AssistantTurn} {block : Value}
    (sends : turn.Sends) (stepped : convertAssistantBlock codec turn block = .ok next) :
    next.Sends ∧
      (next.Searched ↔ turn.Searched ∨ isTextual (some "assistant") block = false) := by
  obtain ⟨object, isObject, done⟩ := bind_eq_ok.mp stepped
  obtain ⟨kind, found, done⟩ := bind_eq_ok.mp done
  obtain rfl := Value.asObject_eq_some (orReject_eq_ok.mp isObject)
  have known : ((Value.object object).get "type").bind Value.asStr = some kind :=
    (requiredString_eq_ok.mp found).1
  have kinds : isTextual (some "assistant") (.object object) =
      (kind != "web_search_tool_result") := by
    rw [isTextual, known]
    rfl
  rw [kinds]
  split at done
  next =>
    obtain ⟨_, -, done⟩ := bind_eq_ok.mp done
    obtain ⟨text, made, done⟩ := bind_eq_ok.mp done
    cases done
    refine ⟨⟨sends.output, fun part member => ?_⟩, by simp [AssistantTurn.Searched]⟩
    rcases List.mem_append.mp member with before | added
    · exact sends.texts part before
    · rw [List.mem_singleton.mp added]
      exact convertTextBlock_text made
  next =>
    cases done
    exact ⟨⟨sends.output, sends.texts⟩, by simp [AssistantTurn.Searched, assistantThinking]⟩
  next =>
    cases done
    exact ⟨sends, by simp⟩
  next =>
    obtain ⟨_, -, done⟩ := bind_eq_ok.mp done
    obtain ⟨id, -, done⟩ := bind_eq_ok.mp done
    obtain ⟨name, -, done⟩ := bind_eq_ok.mp done
    cases done
    exact ⟨⟨sends.output, sends.texts⟩, by simp [AssistantTurn.Searched]⟩
  next =>
    obtain ⟨flushed, same⟩ := sends.flush
    obtain ⟨id, -, done⟩ := bind_eq_ok.mp done
    split at done
    next => cases done
    next =>
      dsimp only at done
      split at done
      next => cases done
      next =>
        obtain ⟨name, -, done⟩ := bind_eq_ok.mp done
        cases done
        refine ⟨⟨flushed.output, flushed.texts⟩, ?_⟩
        rw [← same]
        simp [AssistantTurn.Searched]
  next =>
    obtain ⟨flushed, same⟩ := sends.flushServerCalls
    obtain ⟨id, -, done⟩ := bind_eq_ok.mp done
    split at done
    next => cases done
    next =>
      split at done
      next => cases done
      next =>
        obtain ⟨text, -, done⟩ := bind_eq_ok.mp done
        cases done
        refine ⟨⟨fun message member => ?_, flushed.texts⟩, iff_of_true ?_ (.inr rfl)⟩
        · rcases List.mem_append.mp member with before | added
          · exact flushed.output message before
          · rw [List.mem_singleton.mp added]
            exact rfl
        · exact ⟨_, List.mem_append_right _ List.mem_cons_self, fun counts => counts⟩
  next => cases done

/-- An assistant turn can be counted just when it has no results of searches. -/
theorem convertAssistantBlocks_sends {codec : Codec} {blocks : List Value}
    {messages : List WireMessage} {pending : List String}
    (done : convertAssistantBlocks codec blocks = .ok (messages, pending)) :
    (∀ message ∈ messages, message.Sent) ∧ ((∀ message ∈ messages, message.Counts) ↔
      ∀ block ∈ blocks, isTextual (some "assistant") block = true) := by
  obtain ⟨turn, run, done⟩ := bind_eq_ok.mp done
  obtain ⟨finished, finish, done⟩ := bind_eq_ok.mp done
  cases done
  have start : AssistantTurn.start.Sends :=
    ⟨by simp [AssistantTurn.start], by simp [AssistantTurn.start, Segment.empty]⟩
  have sends : turn.Sends := foldlM_kept
    (fun _ _ _ _ sends stepped => (convertAssistantBlock_sends sends stepped).1) start run
  have brought := foldlM_brought
    (fun _ _ _ sends stepped => convertAssistantBlock_sends sends stepped) start run
  have silent : ¬AssistantTurn.start.Searched := by
    simp [AssistantTurn.Searched, AssistantTurn.start]
  obtain ⟨flushed, same⟩ := sends.flush
  rw [or_iff_right silent, ← same] at brought
  have counted : (∀ block ∈ blocks, isTextual (some "assistant") block = true) ↔
      ¬turn.flush.Searched := by
    rw [brought]
    simp
  rw [AssistantTurn.finish] at finish
  split at finish
  next => cases finish
  next =>
    cases finish
    rw [counted, AssistantTurn.Searched]
    split
    next empty =>
      rw [List.isEmpty_iff] at empty
      rw [empty]
      simp [WireMessage.Sent, WireMessage.Counts, otherParts]
    next => exact ⟨flushed.output, by simp⟩

/-- The blocks of a message; a text has none. -/
def contentBlocks (message : Value) : List Value :=
  ((message.get "content").bind Value.asArray).getD []

/-- Nothing in the conversation comes from a tool, and no image or other file is attached. -/
def TextOnly (messages : List Value) : Prop :=
  ∀ message ∈ messages, ∀ block ∈ contentBlocks message, isTextual (role message) block = true

theorem convertSystem_textual {blocks : List Value} {content : Value}
    (done : convertSystem (.array blocks) = .ok content) :
    ∀ block ∈ blocks, isTextual (some "system") block = true := by
  obtain ⟨parts, converted, -⟩ := map_eq_ok.mp done
  intro block member
  obtain ⟨index, there⟩ := exists_mem_zipIdx member
  obtain ⟨part, made⟩ := mapM_step converted there
  obtain ⟨object, isObject, made⟩ := bind_eq_ok.mp made
  obtain ⟨kind, found, made⟩ := bind_eq_ok.mp made
  have shape := Value.asObject_eq_some (orReject_eq_ok.mp isObject)
  split at made
  next => cases made
  next text =>
    have known : (block.get "type").bind Value.asStr = some "text" := by
      rw [shape]
      exact not_not.mp text ▸ (requiredString_eq_ok.mp found).1
    simp [isTextual, known]

theorem convertMessage_sends {codec : Codec} {index : Nat} {pending next : List String}
    {message : Value} {messages : List WireMessage}
    (accepted : convertMessage codec index pending message = .ok (messages, next)) :
    (∀ sent ∈ messages, sent.Sent) ∧ ((∀ sent ∈ messages, sent.Counts) ↔
      ∀ block ∈ contentBlocks message, isTextual (role message) block = true) := by
  obtain ⟨object, isObject, done⟩ := bind_eq_ok.mp accepted
  obtain ⟨speaker, found, done⟩ := bind_eq_ok.mp done
  obtain rfl := Value.asObject_eq_some (orReject_eq_ok.mp isObject)
  have spoken : role (.object object) = some speaker := (requiredString_eq_ok.mp found).1
  split at done
  next => cases done
  next known =>
    obtain ⟨content, given, done⟩ := bind_eq_ok.mp done
    have held : (Value.object object).get "content" = some content := orReject_eq_ok.mp given
    rw [contentBlocks, held, spoken, Option.bind_some]
    split at done
    next system =>
      rw [system]
      obtain ⟨shown, converted, done⟩ := bind_eq_ok.mp done
      cases done
      have sent := convertSystem_sent converted
      refine ⟨by simpa using sent, iff_of_true (by simp [WireMessage.Counts]) ?_⟩
      cases content with
      | array blocks => exact convertSystem_textual converted
      | null | bool | number | string | object => simp [Value.asArray]
    next notSystem =>
      split at done
      next isText =>
        cases done
        cases content with
        | string text =>
            refine ⟨?_, iff_of_true (by simp [WireMessage.Counts, otherParts]) (by simp [Value.asArray])⟩
            simp only [List.mem_singleton, forall_eq, WireMessage.Sent]
            refine ⟨rfl, ?_, by simp [otherParts]⟩
            split
            next => exact .inr ⟨rfl, rfl⟩
            next => exact .inl rfl
        | null | bool | number | array | object => cases isText
      next =>
        obtain ⟨blocks, listed, done⟩ := bind_eq_ok.mp done
        rw [orReject_eq_ok.mp listed, Option.getD_some]
        split at done
        next assistant =>
          rw [assistant]
          exact convertAssistantBlocks_sends done
        next notAssistant =>
          obtain ⟨sent, converted, done⟩ := bind_eq_ok.mp done
          cases done
          have user : speaker = "user" := by
            by_contra other
            exact known ⟨other, notAssistant, notSystem⟩
          rw [user]
          exact convertUserBlocks_sends converted

theorem convertMessages_sends {codec : Codec} {index : Nat} {pending : List String}
    {inputs : List Value} {messages : List WireMessage}
    (done : convertMessages codec index pending inputs = .ok messages) :
    (∀ sent ∈ messages, sent.Sent) ∧ ((∀ sent ∈ messages, sent.Counts) ↔ TextOnly inputs) := by
  induction inputs generalizing index pending messages with
  | nil =>
      cases done
      exact ⟨by simp, iff_of_true (by simp) (by simp [TextOnly])⟩
  | cons message rest ih =>
      obtain ⟨⟨first, next⟩, one, done⟩ := bind_eq_ok.mp done
      obtain ⟨later, more, done⟩ := bind_eq_ok.mp done
      cases done
      obtain ⟨headSent, headCounts⟩ := convertMessage_sends one
      obtain ⟨tailSent, tailCounts⟩ := ih more
      rw [TextOnly] at tailCounts ⊢
      rw [List.forall_mem_append, List.forall_mem_append, List.forall_mem_cons, headCounts,
        tailCounts]
      exact ⟨⟨headSent, tailSent⟩, Iff.rfl⟩

theorem convertRequestValue_sends {codec : Codec} {input : Value} {requested : ConvertedRequest}
    (accepted : convertRequestValue codec input = .ok requested) :
    ∃ messages : List WireMessage,
      requested.body.get "messages" = some (.array (messages.map WireMessage.intoWire)) ∧
      (∀ message ∈ messages, message.Sent) ∧
      ((∀ message ∈ messages, message.Counts) ↔ TextOnly (inputMessages input)) := by
  obtain ⟨object, system, messages, -, shown, converted, -, wire⟩ :=
    convertRequestValue_messages accepted
  obtain ⟨sent, counts⟩ := convertMessages_sends converted
  have first : ∀ message ∈ system, message.Sent ∧ message.Counts := by
    rw [convertSystemMember] at shown
    split at shown
    next =>
      cases shown
      simp
    next =>
      obtain ⟨content, made, rfl⟩ := map_eq_ok.mp shown
      simpa [WireMessage.Counts] using convertSystem_sent made
  refine ⟨system ++ messages, wire, ?_, ?_⟩
  · exact List.forall_mem_append.mpr ⟨fun message member => (first message member).1, sent⟩
  · rw [List.forall_mem_append, counts]
    exact and_iff_right fun message member => (first message member).2

end ClineProxy
