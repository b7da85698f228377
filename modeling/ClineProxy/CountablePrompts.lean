import ClineProxy.FallibleLoops
import ClineProxy.GuardedDispatch
import ClineProxy.RestoreChecks

/-!
Which prompts the context guard can count: what is sent upstream is read there as if it were an
Anthropic request.
-/

namespace ClineProxy

open Json FallibleLoops

def readable : Option Value → Bool
  | some (.string _) | some (.array _) => true
  | _ => false

/-- The role of a message, what of its content is no text, and whether the content is read. -/
structure Outline where
  speaker : Option String
  others : List Value
  readable : Bool

def outline (message : Value) : Outline where
  speaker := role message
  others := otherParts (message.get "content")
  readable := ClineProxy.readable (message.get "content")

/-- A block that only the upstream API knows. -/
def ForeignPart (part : Value) : Prop :=
  ∃ fields kind, part = .object fields ∧ Glm.kindOf fields = some kind ∧
    kind ∈ ["image_url", "file"]

structure Outline.Sent (outline : Outline) : Prop where
  read : outline.readable = true
  speaker : outline.speaker ∈ [some "system", some "user", some "assistant", some "tool"]
  foreign : outline.speaker = some "user" → ∀ part ∈ outline.others, ForeignPart part
  others : outline.others ≠ [] → outline.speaker ∈ [some "user", some "tool"]

/-- What the guard can count: texts that no tool gave. -/
def Outline.Counts (outline : Outline) : Prop :=
  outline.speaker ≠ some "tool" ∧ outline.others = []

theorem plainBlockText_some {part : Value} {text : String} (said : plainBlockText part = some text) :
    ∃ fields, part = .object fields ∧ Glm.kindOf fields = some "text" ∧
      (Map.get "text" fields).bind Value.asStr = some text := by
  rw [plainBlockText] at said
  split at said
  next isText =>
    cases part with
    | object fields => exact ⟨fields, rfl, isText, said⟩
    | null | bool | number | string | array => cases isText
  next => cases said

theorem texts_of_others {parts : List Value} (none_ : otherParts (some (.array parts)) = []) :
    ∀ part ∈ parts, ∃ text, plainBlockText part = some text := by
  intro part member
  cases said : plainBlockText part with
  | some text => exact ⟨text, rfl⟩
  | none =>
      have kept : part ∈ otherParts (some (.array parts)) := by
        simp [otherParts, member, said]
      rw [none_] at kept
      cases kept

theorem mem_zipIdx_fst {items : List Value} {indexed : Value × Nat}
    (member : indexed ∈ items.zipIdx) : indexed.1 ∈ items := by
  obtain ⟨item, index⟩ := indexed
  exact List.fst_mem_of_mem_zipIdx member

theorem exists_mem_zipIdx {items : List Value} {item : Value} (member : item ∈ items) :
    ∃ index, (item, index) ∈ items.zipIdx := by
  rw [← List.zipIdx_map_fst 0 items] at member
  obtain ⟨⟨_, index⟩, there, rfl⟩ := List.mem_map.mp member
  exact ⟨index, there⟩

section Counting

variable {index : Nat}

theorem convertUserBlocks_texts {parts : List Value}
    (texts : ∀ part ∈ parts, ∃ text, plainBlockText part = some text) :
    ∃ out, Glm.convertUserBlocks index parts = .ok out := by
  have total : ∀ (turn : Glm.UserTurn) (indexed : Value × Nat), indexed ∈ parts.zipIdx →
      ∃ next, Glm.convertUserBlock index turn indexed = .ok next := by
    intro turn indexed member
    obtain ⟨text, said⟩ := texts _ (mem_zipIdx_fst member)
    obtain ⟨part, place⟩ := indexed
    obtain ⟨fields, rfl, kind, held⟩ := plainBlockText_some said
    simp only [Glm.convertUserBlock, orReject, Value.asObject_object, bind, Except.bind, kind,
      Glm.convertTextBlock, held, Except.map]
    exact ⟨_, rfl⟩
  obtain ⟨turn, done⟩ := foldlM_total total ⟨[], []⟩
  exact ⟨_, map_eq_ok.mpr ⟨turn, done, rfl⟩⟩

theorem convertUserBlocks_foreign {parts out : List Value} {part : Value} (member : part ∈ parts)
    (foreign : ForeignPart part) : Glm.convertUserBlocks index parts ≠ .ok out := by
  intro converted
  obtain ⟨turn, done, -⟩ := map_eq_ok.mp converted
  obtain ⟨place, there⟩ := exists_mem_zipIdx member
  obtain ⟨before, next, stepped⟩ := foldlM_step done there
  obtain ⟨fields, kind, rfl, held, listed⟩ := foreign
  simp only [Glm.convertUserBlock, orReject, Value.asObject_object, bind, Except.bind, held]
    at stepped
  simp only [List.mem_cons, List.not_mem_nil, or_false] at listed
  rcases listed with rfl | rfl <;> cases stepped

theorem convertDisplayContent_texts {label : String} {parts : List Value}
    (texts : ∀ part ∈ parts, ∃ text, plainBlockText part = some text) :
    ∃ out, Glm.convertDisplayContent label (.array parts) = .ok out := by
  have total : ∀ indexed ∈ parts.zipIdx, ∃ shown,
      Glm.convertDisplayBlock label indexed.2 indexed.1 = .ok shown := by
    intro indexed member
    obtain ⟨text, said⟩ := texts _ (mem_zipIdx_fst member)
    obtain ⟨part, place⟩ := indexed
    obtain ⟨fields, rfl, kind, held⟩ := plainBlockText_some said
    simp only [Glm.convertDisplayBlock, orReject, Value.asObject_object, bind, Except.bind, kind,
      Glm.convertTextBlock, held, Except.map]
    exact ⟨_, rfl⟩
  obtain ⟨shown, done⟩ := mapM_total total
  exact ⟨_, map_eq_ok.mpr ⟨shown, done, rfl⟩⟩

theorem convertAssistantBlocks_texts {parts : List Value}
    (texts : ∀ part ∈ parts, ∃ text, plainBlockText part = some text) :
    ∃ out, Glm.convertAssistantBlocks index parts = .ok out := by
  have total : ∀ (turn : Glm.AssistantTurn) (indexed : Value × Nat), indexed ∈ parts.zipIdx →
      ∃ next, Glm.convertAssistantBlock index turn indexed = .ok next := by
    intro turn indexed member
    obtain ⟨text, said⟩ := texts _ (mem_zipIdx_fst member)
    obtain ⟨part, place⟩ := indexed
    obtain ⟨fields, rfl, kind, held⟩ := plainBlockText_some said
    simp only [Glm.convertAssistantBlock, orReject, Value.asObject_object, bind, Except.bind, kind,
      held]
    exact ⟨_, rfl⟩
  obtain ⟨turn, done⟩ := foldlM_total total .start
  exact ⟨_, map_eq_ok.mpr ⟨turn, done, rfl⟩⟩

theorem convertMessage_spoken {fields : Map} {speaker : String} {content : Value}
    (named : (Map.get "role" fields).bind Value.asStr = some speaker)
    (held : Map.get "content" fields = some content) (read : readable (some content) = true)
    (listed : speaker ∈ ["system", "user", "assistant", "tool"])
    (foreign : speaker = "user" → ∀ part ∈ otherParts (some content), ForeignPart part)
    (others : otherParts (some content) ≠ [] → speaker ∈ ["user", "tool"]) :
    (∃ out, Glm.convertMessage index (.object fields) = .ok out) ↔
      speaker ≠ "tool" ∧ otherParts (some content) = [] := by
  simp only [List.mem_cons, List.not_mem_nil, or_false] at listed others
  simp only [Glm.convertMessage, orReject, Value.asObject_object, named, held, bind, Except.bind]
  rcases listed with rfl | rfl | rfl | rfl
  · have texts : otherParts (some content) = [] := by
      by_contra some_
      simpa using others some_
    refine iff_of_true ?_ ⟨by decide, texts⟩
    cases content with
    | string text => exact ⟨_, rfl⟩
    | array parts =>
        obtain ⟨out, done⟩ := @convertDisplayContent_texts
          ("messages[" ++ toString index ++ "]") parts (texts_of_others texts)
        exact ⟨_, map_eq_ok.mpr ⟨out, done, rfl⟩⟩
    | null | bool | number | object => cases read
  · cases content with
    | string text => exact iff_of_true ⟨_, rfl⟩ ⟨by decide, rfl⟩
    | array parts =>
        cases left : otherParts (some (.array parts)) with
        | nil => exact iff_of_true (convertUserBlocks_texts (texts_of_others left)) ⟨by decide, rfl⟩
        | cons part rest =>
            refine iff_of_false ?_ (fun both => List.cons_ne_nil _ _ both.2)
            rintro ⟨out, done⟩
            have there : part ∈ otherParts (some (.array parts)) := by simp [left]
            exact convertUserBlocks_foreign (List.mem_filter.mp there).1 (foreign rfl part there) done
    | null | bool | number | object => cases read
  · have texts : otherParts (some content) = [] := by
      by_contra some_
      simpa using others some_
    refine iff_of_true ?_ ⟨by decide, texts⟩
    cases content with
    | string text => exact ⟨_, rfl⟩
    | array parts => exact convertAssistantBlocks_texts (texts_of_others texts)
    | null | bool | number | object => cases read
  · refine iff_of_false ?_ (fun both => both.1 rfl)
    rintro ⟨out, done⟩
    cases done

/-- A message that is sent can be counted just when it is a text that no tool gave. -/
theorem convertMessage_counts {message : Value} (sent : (outline message).Sent) :
    (∃ out, Glm.convertMessage index message = .ok out) ↔ (outline message).Counts := by
  obtain ⟨read, speaker, foreign, others⟩ := sent
  simp only [outline] at read speaker foreign others
  cases message with
  | object fields =>
      have same (key : String) : (Value.object fields).get key = Map.get key fields := rfl
      rw [Outline.Counts]
      simp only [outline, role, same] at *
      cases held : Map.get "content" fields with
      | none =>
          rw [held] at read
          cases read
      | some content =>
          rw [held] at read foreign others
          cases named : (Map.get "role" fields).bind Value.asStr with
          | none => simp [named] at speaker
          | some name =>
              rw [named] at speaker foreign others
              have spoken := @convertMessage_spoken index fields name content named held read
                (by simpa using speaker) (by simpa using foreign) (by simpa using others)
              rw [spoken]
              simp
  | null | bool | number | string | array => simp [role, Value.get] at speaker

theorem convertMessages_counts {messages : List Value}
    (sent : ∀ message ∈ messages, (outline message).Sent) :
    (∃ out, Glm.convertMessages index messages = .ok out) ↔
      ∀ message ∈ messages, (outline message).Counts := by
  induction messages generalizing index with
  | nil => exact iff_of_true ⟨[], rfl⟩ (by simp)
  | cons message rest ih =>
      have head := @convertMessage_counts index message (sent message List.mem_cons_self)
      have tail := @ih (index + 1) fun other member => sent other (List.mem_cons_of_mem _ member)
      rw [List.forall_mem_cons, ← head, ← tail]
      constructor
      · rintro ⟨out, done⟩
        obtain ⟨first, one, done⟩ := bind_ok_iff.mp done
        obtain ⟨later, more, -⟩ := bind_ok_iff.mp done
        exact ⟨⟨first, one⟩, ⟨later, more⟩⟩
      · rintro ⟨⟨first, one⟩, ⟨later, more⟩⟩
        exact ⟨first ++ later, bind_ok_iff.mpr ⟨first, one, bind_ok_iff.mpr ⟨later, more, rfl⟩⟩⟩

end Counting

end ClineProxy
