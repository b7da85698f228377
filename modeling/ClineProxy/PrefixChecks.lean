import ClineProxy.PassthroughChecks

/-! The messages of a longer conversation begin with those of the shorter one. -/

namespace ClineProxy

open Json Positions

def optimizedMessages (glm : Glm53Config) (messages : List Value) : List Value :=
  if glm.reasoning.stripHistoricalThinking || glm.context.safeCompaction then
    optimizeMessages glm messages
  else messages

/-- The messages that are sent: optimized, then with canonical arguments. -/
def promptMessages (codec : Codec) (glm : Glm53Config) (messages : List Value) : List Value :=
  if glm.context.canonicalToolJson then
    canonicalizeMessages codec (optimizedMessages glm messages)
  else optimizedMessages glm messages

theorem mapIdx_append_congr {Item : Type} {pass other : Nat → Item → Item}
    {first second : List Item}
    (same : ∀ index item, first[index]? = some item → pass index item = other index item) :
    ((first ++ second).mapIdx pass) =
      first.mapIdx other ++ second.mapIdx fun index => pass (index + first.length) := by
  rw [List.mapIdx_append, List.append_cancel_right_eq, List.mapIdx_eq_iff]
  intro index
  rw [List.getElem?_mapIdx]
  cases there : first[index]? with
  | none => rfl
  | some item => rw [Option.map_some, Option.map_some, same index item there]

theorem below_of_getElem? {Item : Type} {items : List Item} {index : Nat} {item : Item}
    (there : items[index]? = some item) : index < items.length :=
  (List.getElem?_eq_some_iff.mp there).1

section Optimized

variable (glm : Glm53Config)

theorem optimizeMessage_congr {boundary other index : Nat} (message : Value)
    (same : index < boundary ↔ index < other) :
    optimizeMessage glm boundary index message = optimizeMessage glm other index message := by
  have decided : decide (index < boundary) = decide (index < other) := decide_eq_decide.mpr same
  rw [optimizeMessage, optimizeMessage, decided]

theorem epochBoundary_append {messages extension : List Value}
    (noUser : ∀ message ∈ extension, isUser message = false) {index : Nat}
    (below : index < messages.length) :
    index < epochBoundary (messages ++ extension) ↔ index < epochBoundary messages := by
  rw [epochBoundary, rposition_append, rposition_none isUser noUser, epochBoundary]
  cases rposition isUser messages with
  | none =>
      simp only [Option.map_none, Option.none_or, Option.getD_none, List.length_append]
      omega
  | some position => rfl

theorem optimizeMessages_append {messages extension : List Value}
    (noUser : ∀ message ∈ extension, isUser message = false) :
    ∃ rest, optimizeMessages glm (messages ++ extension) =
      optimizeMessages glm messages ++ rest :=
  ⟨_, mapIdx_append_congr fun _ message there =>
    optimizeMessage_congr glm message (epochBoundary_append noUser (below_of_getElem? there))⟩

theorem optimizedMessages_append {messages extension : List Value}
    (noUser : ∀ message ∈ extension, isUser message = false) :
    ∃ rest, optimizedMessages glm (messages ++ extension) =
      optimizedMessages glm messages ++ rest := by
  rw [optimizedMessages, optimizedMessages]
  split
  next => exact optimizeMessages_append glm noUser
  next => exact ⟨extension, rfl⟩

theorem optimizedMessages_length (messages : List Value) :
    (optimizedMessages glm messages).length = messages.length := by
  rw [optimizedMessages]
  split
  next => exact List.length_mapIdx
  next => rfl

theorem get_compactContent {object : Map} {query : String} (other : query ≠ "content") :
    (compactContent object).get query = object.get query := by
  rw [compactContent]
  split
  next => rw [Map.get_insert, if_neg other]
  next => rfl

theorem role_optimizeMessage (boundary index : Nat) {message : Value}
    (unstripped : role message ≠ some "assistant") :
    role (optimizeMessage glm boundary index message) = role message := by
  cases message with
  | object fields =>
      have kept : (role (.object fields) == some "assistant") = false := by simpa using unstripped
      rw [optimizeMessage, Value.mapObject]
      simp only [kept, Bool.and_false, Bool.false_and, Bool.false_eq_true, if_false]
      split
      next => exact congrArg (Option.bind · Value.asStr) (get_compactContent (by decide))
      next => rfl
  | null | bool | number | string | array => rfl

theorem isAction_optimizeMessage (boundary index : Nat) {message : Value}
    (action : isAction message = true) :
    isAction (optimizeMessage glm boundary index message) = true := by
  have unstripped : role message ≠ some "assistant" := by
    intro assistant
    rw [isAction, assistant] at action
    exact absurd action (by decide)
  rw [isAction, role_optimizeMessage glm boundary index unstripped]
  exact action

theorem optimizedMessages_ends (before : List Value) {last : Value}
    (action : isAction last = true) :
    ∃ earlier ending, optimizedMessages glm (before ++ [last]) = earlier ++ [ending] ∧
      isAction ending = true := by
  rw [optimizedMessages]
  split
  next =>
    rw [optimizeMessages, List.mapIdx_append]
    exact ⟨_, _, rfl, isAction_optimizeMessage glm _ _ action⟩
  next => exact ⟨before, last, rfl, action⟩

end Optimized

theorem canonicalizeMessages_append (codec : Codec) {before : List Value} {last : Value}
    (action : isAction last = true) (rest : List Value) :
    ∃ later, canonicalizeMessages codec (before ++ [last] ++ rest) =
      canonicalizeMessages codec (before ++ [last]) ++ later := by
  have shorter : rposition isAction (before ++ [last]) = some before.length := by
    rw [rposition_snoc, if_pos action]
  obtain ⟨position, longer, behind⟩ : ∃ position,
      rposition isAction (before ++ [last] ++ rest) = some position ∧ before.length ≤ position := by
    rw [rposition_append, shorter]
    cases rposition isAction rest with
    | none => exact ⟨_, rfl, Nat.le_refl _⟩
    | some position => exact ⟨_, rfl, by simp; omega⟩
  rw [canonicalizeMessages, canonicalizeMessages, shorter, longer]
  refine ⟨_, mapIdx_append_congr fun index message there => ?_⟩
  rcases Nat.lt_or_ge index before.length with earlier | here
  · have both : index < position ↔ index < before.length := by omega
    simp only [canonicalizeMessage, both]
  · have other : role message ≠ some "assistant" := by
      have same : index = before.length := by
        have below := below_of_getElem? there
        simp only [List.length_append, List.length_singleton] at below
        omega
      subst same
      obtain rfl : last = message := by simpa using there
      intro assistant
      rw [isAction, assistant] at action
      exact absurd action (by decide)
    rw [canonicalizeMessage, canonicalizeMessage, if_neg (fun both => other both.1),
      if_neg (fun both => other both.1)]

/-- Messages that go on after a user or tool message, without another user message, leave what is
sent for the earlier ones as it was. -/
theorem prompt_prefix_stable (codec : Codec) (glm : Glm53Config)
    (messages extension : List Value) :
    (∃ last, messages.getLast? = some last ∧ isAction last = true) →
      (∀ message ∈ extension, isUser message = false) →
        (promptMessages codec glm (messages ++ extension)).take messages.length =
          promptMessages codec glm messages := by
  rintro ⟨last, ends, action⟩ noUser
  obtain ⟨before, rfl⟩ := List.getLast?_eq_some_iff.mp ends
  obtain ⟨rest, longer⟩ := @optimizedMessages_append glm (before ++ [last]) _ noUser
  obtain ⟨earlier, ending, shorter, acting⟩ := optimizedMessages_ends glm before action
  have length := optimizedMessages_length glm (before ++ [last])
  rw [promptMessages, promptMessages, longer]
  rw [shorter] at length ⊢
  split
  next =>
    obtain ⟨later, same⟩ := @canonicalizeMessages_append codec earlier ending acting rest
    have kept : (canonicalizeMessages codec (earlier ++ [ending])).length =
        (before ++ [last]).length := by
      rw [← length, canonicalizeMessages]
      split
      next => rfl
      next => exact List.length_mapIdx
    rw [same, ← kept, List.take_left]
  next => rw [← length, List.take_left]

theorem prompt_prefix_stable_loop :
    (promptMessages (documentCodec [looseArguments]) (plainConfig true).glm53
      (historyOf "\x7b\"b\":1,\"a\":2\x7d" ++ historyOf "\x7b\x7d")).take 2 =
    promptMessages (documentCodec [looseArguments]) (plainConfig true).glm53
      (historyOf "\x7b\"b\":1,\"a\":2\x7d") :=
  prompt_prefix_stable (documentCodec [looseArguments]) (plainConfig true).glm53
    (historyOf "\x7b\"b\":1,\"a\":2\x7d") (historyOf "\x7b\x7d")
    ⟨_, rfl, by decide +kernel⟩ (by decide +kernel)

end ClineProxy
