import ClineProxy.MessageChecks
import ClineProxy.PolicyChecks
import ClineProxy.ShadowFacts

/-! Where restored reasoning is placed in the messages of a request, and that the policy keeps it. -/

namespace ClineProxy

open Json Clock Positions

namespace ReasoningShadowStore

variable {hash : String → UInt64} {fingerprint : String} {now : Instant}
  {toolCallIds : List String} {shadow : ReasoningShadowStore}

theorem restore_found {reasoning : String}
    (found : (shadow.restore hash fingerprint now toolCallIds).1 = some reasoning) :
    ∃ id ∈ toolCallIds, ∃ entry,
      shadow.entryOf fingerprint (keyOf hash fingerprint id) = some entry ∧
        entry.reasoning = reasoning ∧ ¬shadow.ttl < now - entry.created := by
  rw [restore_eq] at found
  obtain ⟨entry, first, given⟩ := Option.bind_eq_some_iff.mp found
  obtain ⟨id, member, held⟩ := List.exists_of_findSome?_eq_some first
  split at given
  next => cases given
  next fresh => exact ⟨id, member, entry, held, Option.some.inj given, fresh⟩

theorem entryOf_of_restore {name : String} {key : ShadowKey} {entry : ShadowEntry}
    (left : (shadow.restore hash fingerprint now toolCallIds).2.entryOf name key = some entry) :
    shadow.entryOf name key = some entry := by
  obtain same | ⟨gone, -⟩ := @entryOf_restore shadow name key hash fingerprint now toolCallIds
  · exact same.symm.trans left
  · rw [gone] at left
    cases left

end ReasoningShadowStore

section Restored

variable (hash : String → UInt64) (fingerprint : String)

/-- An assistant message with calls and without reasoning gets what the store holds for a call. -/
structure Restored (shadow : ReasoningShadowStore) (now : Instant) (before after : Value)
    (reasoning : String) : Prop where
  speaker : role before = some "assistant"
  absent : before.get "reasoning_content" = none
  held : ∃ calls, (before.get "tool_calls").bind Value.asArray = some calls ∧
    ∃ id ∈ callIds calls, ∃ entry,
      shadow.entryOf fingerprint (ReasoningShadowStore.keyOf hash fingerprint id) = some entry ∧
        entry.reasoning = reasoning ∧ ¬shadow.ttl < now - entry.created
  placed : after = before.mapObject (Map.insert "reasoning_content" (.string reasoning))

def Touched (shadow : ReasoningShadowStore) (now : Instant) (before after : Value) : Prop :=
  after = before ∨ ∃ reasoning, Restored hash fingerprint shadow now before after reasoning

variable {hash fingerprint} {shadow : ReasoningShadowStore} {now : Instant} {before after : Value}
  {reasoning : String}

theorem Restored.object (restored : Restored hash fingerprint shadow now before after reasoning) :
    ∃ fields : Map, before = .object fields ∧
      after = .object (fields.insert "reasoning_content" (.string reasoning)) := by
  have speaker := restored.speaker
  have placed := restored.placed
  cases before with
  | object fields => exact ⟨fields, rfl, placed⟩
  | null | bool | number | string | array => cases speaker

theorem Restored.get (restored : Restored hash fingerprint shadow now before after reasoning)
    (key : String) : after.get key =
      if key = "reasoning_content" then some (.string reasoning) else before.get key := by
  obtain ⟨fields, rfl, rfl⟩ := restored.object
  exact Map.get_insert _ _ _ fields

theorem Restored.distinct (restored : Restored hash fingerprint shadow now before after reasoning)
    (known : before.Distinct) : after.Distinct := by
  obtain ⟨fields, rfl, rfl⟩ := restored.object
  exact ⟨known.1.insert _ _, Map.distinctMembers_insert known.2 trivial⟩

theorem Touched.role (touched : Touched hash fingerprint shadow now before after) :
    ClineProxy.role after = ClineProxy.role before := by
  rcases touched with rfl | ⟨reasoning, restored⟩
  · rfl
  · rw [ClineProxy.role, restored.get, if_neg (by decide), ClineProxy.role]

theorem touched_restoreMessage (clock : Nat → Instant) (index : Nat) (message : Value) :
    Touched hash fingerprint shadow (clock index) message
      (restoreMessage hash clock fingerprint index shadow message).1 := by
  rw [restoreMessage]
  split
  next => exact .inl rfl
  next ids wanted =>
    rw [restorableIds] at wanted
    split at wanted
    next => cases wanted
    next bare =>
      obtain ⟨speaker, absent⟩ := not_or.mp bare
      obtain ⟨calls, listed, rfl⟩ := Option.map_eq_some_iff.mp wanted
      cases given : shadow.restore hash fingerprint (clock index) (callIds calls) with
      | mk found left =>
          cases found with
          | none => exact .inl rfl
          | some reasoning =>
              refine .inr ⟨reasoning, not_not.mp speaker, ?_, ⟨calls, listed, ?_⟩, rfl⟩
              · simpa using absent
              · exact ReasoningShadowStore.restore_found (congrArg Prod.fst given)

theorem entryOf_restoreMessage {clock : Nat → Instant} {index : Nat} {message : Value}
    {name : String} {key : ShadowKey} {entry : ShadowEntry}
    (left : (restoreMessage hash clock fingerprint index shadow message).2.entryOf name key =
      some entry) : shadow.entryOf name key = some entry := by
  rw [restoreMessage] at left
  split at left
  next => exact left
  next ids _ =>
    cases given : shadow.restore hash fingerprint (clock index) ids with
    | mk found read =>
        have same : read = (shadow.restore hash fingerprint (clock index) ids).2 := by rw [given]
        rw [given] at left
        cases found <;> exact ReasoningShadowStore.entryOf_of_restore (same ▸ left)

theorem ttl_restoreMessage {clock : Nat → Instant} {index : Nat} {message : Value} :
    (restoreMessage hash clock fingerprint index shadow message).2.ttl = shadow.ttl := by
  rw [restoreMessage]
  split
  next => rfl
  next ids _ =>
    have same := @ReasoningShadowStore.restore_ttl shadow hash fingerprint (clock index) ids
    split
    next given => rw [given] at same; exact same
    next given => rw [given] at same; exact same

theorem Touched.earlier {read : ReasoningShadowStore}
    (held : ∀ name key entry, read.entryOf name key = some entry →
      shadow.entryOf name key = some entry) (ttl : read.ttl = shadow.ttl)
    (touched : Touched hash fingerprint read now before after) :
    Touched hash fingerprint shadow now before after := by
  rcases touched with same | ⟨reasoning, restored⟩
  · exact .inl same
  · obtain ⟨calls, listed, id, member, entry, found, given, fresh⟩ := restored.held
    exact .inr ⟨reasoning, restored.speaker, restored.absent,
      ⟨calls, listed, id, member, entry, held _ _ _ found, given, ttl ▸ fresh⟩, restored.placed⟩

theorem touched_restoreMessages (clock : Nat → Instant) (messages : List Value) (start : Nat)
    (shadow : ReasoningShadowStore) :
    (restoreMessages hash clock fingerprint start shadow messages).1.length = messages.length ∧
      ∀ (index : Nat) (before after : Value), messages[index]? = some before →
        (restoreMessages hash clock fingerprint start shadow messages).1[index]? = some after →
        Touched hash fingerprint shadow (clock (start + index)) before after := by
  induction messages generalizing start shadow with
  | nil => exact ⟨rfl, fun _ _ _ first => by cases first⟩
  | cons message rest ih =>
      have head := @touched_restoreMessage hash fingerprint shadow clock start message
      have held := @entryOf_restoreMessage hash fingerprint shadow clock start message
      have ttl := @ttl_restoreMessage hash fingerprint shadow clock start message
      rw [restoreMessages]
      obtain ⟨length, tail⟩ := ih (start + 1)
        (restoreMessage hash clock fingerprint start shadow message).2
      refine ⟨by simpa using length, fun index before after first second => ?_⟩
      cases index with
      | zero =>
          cases first
          cases second
          exact head
      | succ index =>
          have later := tail index before after (by simpa using first) (by simpa using second)
          rw [Nat.add_right_comm, Nat.add_assoc] at later
          exact later.earlier (fun _ _ _ => held) ttl

end Restored

/-- The messages behind the last user message. -/
def InEpoch (messages : List Value) (index : Nat) : Prop :=
  (messages.take index).any isUser = true ∧ (messages.drop index).any isUser = false

theorem isUser_congr {first second : Value} (same : role first = role second) :
    isUser first = isUser second := by
  rw [isUser, isUser, same]

theorem inEpoch_congr {messages others : List Value} (users : messages.map isUser = others.map isUser)
    {index : Nat} (inside : InEpoch messages index) : InEpoch others index := by
  have anyUser (items : List Value) : items.any isUser = (items.map isUser).any id := by
    rw [List.any_map]
    rfl
  rw [InEpoch, anyUser, anyUser, List.map_take, List.map_drop] at inside ⊢
  rwa [← users]

theorem inEpoch_of_boundary {messages : List Value} {index : Nat} {message : Value}
    (there : messages[index]? = some message) (other : isUser message = false)
    (behind : epochBoundary messages ≤ index) : InEpoch messages index := by
  obtain ⟨below, held⟩ := List.getElem?_eq_some_iff.mp there
  have bound : decide (index < epochBoundary messages) = false := by simpa using behind
  rw [before_boundary there other, Bool.or_eq_false_iff, Bool.not_eq_false'] at bound
  have cut : messages.drop index = message :: messages.drop (index + 1) := by
    rw [← held, List.getElem_cons_drop]
  exact ⟨bound.2, by rw [cut, List.any_cons, other, bound.1]; rfl⟩

section Body

variable {hash : String → UInt64} {fingerprint : String} {clock : Nat → Instant}
  {shadow : ReasoningShadowStore} {object : Map}

def restoredMessages (hash : String → UInt64) (clock : Nat → Instant) (fingerprint : String)
    (shadow : ReasoningShadowStore) (messages : List Value) : List Value :=
  messages.take (epochBoundary messages) ++ (restoreMessages hash clock fingerprint
    (epochBoundary messages) shadow (messages.drop (epochBoundary messages))).1

theorem restoreInto_messages {messages : List Value}
    (listed : object.get "messages" = some (.array messages)) :
    (restoreInto hash clock fingerprint shadow object).1 =
      object.insert "messages" (.array (restoredMessages hash clock fingerprint shadow messages)) := by
  rw [restoreInto, listed]
  rfl

theorem epochBoundary_le (messages : List Value) : epochBoundary messages ≤ messages.length := by
  rw [epochBoundary]
  cases found : rposition isUser messages with
  | none => exact le_refl _
  | some position => exact (rposition_lt isUser found).le

variable {messages : List Value}

theorem length_restoredMessages :
    (restoredMessages hash clock fingerprint shadow messages).length = messages.length := by
  have length := (@touched_restoreMessages hash fingerprint clock
    (messages.drop (epochBoundary messages)) (epochBoundary messages) shadow).1
  have bound := epochBoundary_le messages
  rw [restoredMessages, List.length_append, length, List.length_take, List.length_drop]
  omega

theorem restored_at {index : Nat} {before after : Value} (first : messages[index]? = some before)
    (second : (restoredMessages hash clock fingerprint shadow messages)[index]? = some after) :
    after = before ∨ ∃ reasoning, InEpoch messages index ∧
      Restored hash fingerprint shadow (clock index) before after reasoning := by
  have bound := epochBoundary_le messages
  have length : (messages.take (epochBoundary messages)).length = epochBoundary messages :=
    List.length_take_of_le bound
  rw [restoredMessages] at second
  by_cases early : index < epochBoundary messages
  · rw [List.getElem?_append_left (by omega), List.getElem?_take, if_pos early, first] at second
    exact .inl (Option.some.inj second).symm
  · rw [List.getElem?_append_right (by omega), length] at second
    have dropped : (messages.drop (epochBoundary messages))[index - epochBoundary messages]? =
        some before := by
      rw [List.getElem?_drop, Nat.add_sub_cancel' (by omega), first]
    have touched := (@touched_restoreMessages hash fingerprint clock _ _ shadow).2 _ _ _
      dropped second
    rw [Nat.add_sub_cancel' (by omega)] at touched
    rcases touched with same | ⟨reasoning, restored⟩
    · exact .inl same
    · have other : isUser before = false := by simp [isUser, restored.speaker]
      exact .inr ⟨reasoning, inEpoch_of_boundary first other (by omega), restored⟩

theorem users_restoredMessages (hash : String → UInt64) (clock : Nat → Instant)
    (fingerprint : String) (shadow : ReasoningShadowStore) (messages : List Value) :
    messages.map isUser = (restoredMessages hash clock fingerprint shadow messages).map isUser := by
  refine List.ext_getElem? fun index => ?_
  rw [List.getElem?_map, List.getElem?_map]
  cases first : messages[index]? with
  | none =>
      rw [List.getElem?_eq_none_iff] at first
      have absent : (restoredMessages hash clock fingerprint shadow messages)[index]? = none := by
        rw [List.getElem?_eq_none_iff, length_restoredMessages]
        exact first
      rw [absent]
  | some before =>
      obtain ⟨below, -⟩ := List.getElem?_eq_some_iff.mp first
      have there : index < (restoredMessages hash clock fingerprint shadow messages).length := by
        rw [length_restoredMessages]
        exact below
      have second := List.getElem?_eq_getElem there
      rw [second, Option.map_some, Option.map_some]
      rcases restored_at first second with same | ⟨reasoning, -, restored⟩
      · rw [same]
      · exact congrArg some (isUser_congr (Touched.role (.inr ⟨reasoning, restored⟩)).symm)

theorem restored_survives (glm : Glm53Config) {index : Nat} {before after : Value}
    {reasoning : String} {now : Instant}
    (second : (restoredMessages hash clock fingerprint shadow messages)[index]? = some after)
    (known : before.Distinct) (inside : InEpoch messages index)
    (restored : Restored hash fingerprint shadow now before after reasoning) :
    ((optimizeMessages glm (restoredMessages hash clock fingerprint shadow messages))[index]?.bind
      fun message => message.get "reasoning_content") = some (.string reasoning) := by
  have epoch := inEpoch_congr
    (users_restoredMessages hash clock fingerprint shadow messages) inside
  have strip : strips glm (epochBoundary (restoredMessages hash clock fingerprint shadow messages))
      index after = false := by
    have later : ((restoredMessages hash clock fingerprint shadow messages).drop (index + 1)).any
        isUser = false := by
      refine List.any_eq_false.mpr fun message member => ?_
      refine List.any_eq_false.mp epoch.2 message ?_
      rw [← List.drop_drop] at member
      exact List.mem_of_mem_drop member
    rw [strips_at glm second, epoch.1, later, Bool.not_true, Bool.or_false, Bool.and_false]
  rw [getElem?_optimizeMessages, second, Option.map_some, Option.bind_some,
    reasoning_optimizeMessage glm _ index (restored.distinct known), strip, if_neg (by simp),
    restored.get, if_pos rfl]

end Body

/-- Reasoning is restored in the current epoch to assistant messages with calls and without
reasoning, nothing else of the body changes, and the policy keeps what is restored. -/
theorem restored_reasoning (hash : String → UInt64) (clock : Nat → Instant) (fingerprint : String)
    (shadow : ReasoningShadowStore) (glm : Glm53Config) (origin : Origin) {object : Map}
    (distinct : (Value.object object).Distinct) (family : IsGlm object) :
    let restored := (restoreInto hash clock fingerprint shadow object).1
    restored.map Prod.fst = object.map Prod.fst ∧
      (∀ key, key ≠ "messages" → restored.get key = object.get key) ∧
      ((∀ messages, object.get "messages" ≠ some (.array messages)) → restored = object) ∧
      ∀ messages, object.get "messages" = some (.array messages) →
        ∃ others, restored.get "messages" = some (.array others) ∧
          others.length = messages.length ∧
          ∀ (index : Nat) (before after : Value), messages[index]? = some before →
            others[index]? = some after →
            after = before ∨ ∃ reasoning, InEpoch messages index ∧
              Restored hash fingerprint shadow (clock index) before after reasoning ∧
              ∀ (sent : Map) done, optimizeRequest glm origin (.object restored) = .ok (.object sent, done) →
                ∃ kept, sent.get "messages" = some (.array kept) ∧
                  (kept[index]?.bind fun message => message.get "reasoning_content") =
                    some (.string reasoning) := by
  intro restored
  by_cases listed : ∃ messages, object.get "messages" = some (.array messages)
  · obtain ⟨messages, listed⟩ := listed
    have made : restored = object.insert "messages"
        (.array (restoredMessages hash clock fingerprint shadow messages)) :=
      restoreInto_messages listed
    have member : "messages" ∈ object.map Prod.fst :=
      List.mem_map_of_mem (OrderedMap.mem_of_lookup listed)
    have found : restored.get "messages" =
        some (.array (restoredMessages hash clock fingerprint shadow messages)) := by
      rw [made, Map.get_insert, if_pos rfl]
    have others : ∀ key, key ≠ "messages" → restored.get key = object.get key := by
      intro key other
      rw [made, Map.get_insert, if_neg other]
    refine ⟨by rw [made, Map.keys_insert, if_pos member], others,
      fun none_ => absurd listed (none_ messages), ?_⟩
    intro items known
    obtain rfl : messages = items := by
      rw [listed] at known
      exact Value.array.inj (Option.some.inj known)
    refine ⟨_, found, length_restoredMessages, fun index before after first second => ?_⟩
    rcases restored_at first second with same | ⟨reasoning, inside, placed⟩
    · exact .inl same
    · refine .inr ⟨reasoning, inside, placed, fun sent done accepted => ?_⟩
      have whole : restored.Distinct := made ▸ distinct.1.insert _ _
      have resolved : IsGlm restored := by
        rw [IsGlm, others "model" (by decide)]
        exact family
      have items : DistinctItems messages :=
        (Map.distinctMembers_get distinct.2 listed : (Value.array messages).Distinct)
      have survives := restored_survives glm second
        (distinctItems_mem items before (List.mem_of_getElem? first)) inside placed
      rw [optimizeRequest_glm resolved, optimizeGlm_eq] at accepted
      obtain ⟨⟨body, other⟩, optimized, same⟩ := map_eq_ok.mp accepted
      obtain ⟨policy, -, optimized⟩ := map_eq_ok.mp optimized
      cases optimized
      cases same
      rw [get_policyBody whole policy.effort (by decide), found]
      split
      next => exact ⟨_, rfl, survives⟩
      next =>
        refine ⟨_, rfl, ?_⟩
        rw [second, Option.bind_some, placed.get, if_pos rfl]
  · have none_ : ∀ messages, object.get "messages" ≠ some (.array messages) :=
      fun messages found => listed ⟨messages, found⟩
    have same : restored = object := by
      have absent : (object.get "messages").bind Value.asArray = none := by
        cases found : object.get "messages" with
        | none => rfl
        | some value =>
            cases value with
            | array messages => exact absurd found (none_ messages)
            | null | bool | number | string | object => rfl
      change (restoreInto hash clock fingerprint shadow object).1 = object
      rw [restoreInto, absent]
    exact ⟨by rw [same], fun key _ => by rw [same], fun _ => same,
      fun messages found => absurd found (none_ messages)⟩

def loopMessages : List Value :=
  [.object [("role", .string "user"), ("content", .string "go")],
    .object [("role", .string "assistant"),
      ("tool_calls", .array [wholeCall 0 "call_0" "f" "\x7b\x7d"])]]

def loopBody : Map :=
  [("model", .string "z-ai/glm-5.3-flash"), ("messages", .array loopMessages)]

def loopShadow : ReasoningShadowStore where
  sessions := [("session", ⟨[(ReasoningShadowStore.keyOf (fun _ => 0) "session" "call_0",
    ⟨"because", 0⟩)], 7⟩)]
  lru := ["session"]
  totalBytes := 7
  ttl := 60

theorem loopBody_distinct : (Value.object loopBody).Distinct := by
  simp [loopBody, loopMessages, wholeCall, Value.ofNat, DistinctItems, DistinctMembers, Value.Distinct,
    Map.Distinct]

theorem loopBody_glm : IsGlm loopBody := by
  have read : ModelFamily.fromUpstreamModel "z-ai/glm-5.3-flash" = .glm53 := by decide +kernel
  exact read

theorem restored_reasoning_loop : ∃ others : List Value,
    (restoreInto (fun _ => 0) (fun _ => 30) "session" loopShadow loopBody).1.get "messages" =
        some (.array others) ∧ others.length = 2 ∧
      (others[1]?.bind fun message => message.get "reasoning_content").bind Value.asStr =
        some "because" := by
  obtain ⟨-, -, -, restored⟩ := restored_reasoning (fun _ => 0) (fun _ => 30) "session" loopShadow
    (plainConfig true).glm53 .openAi loopBody_distinct loopBody_glm
  obtain ⟨others, found, length, -⟩ := restored loopMessages rfl
  refine ⟨others, found, length, ?_⟩
  obtain rfl := Value.array.inj (Option.some.inj found)
  decide +kernel

end ClineProxy
