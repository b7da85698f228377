import ClineProxy.PromptVariants

/-! What is sent for requests that differ in volatile details only. -/

namespace ClineProxy

open Json TwoRuns

theorem canonicalMembers_eq (codec : Codec) (fields : List (String × Value)) :
    canonicalMembers codec fields =
      fields.map fun member => (member.1, canonicalJsonString codec member.2) := by
  induction fields with
  | nil => rfl
  | cons member rest ih => rw [canonicalMembers, ih, List.map_cons]

theorem sortMembers_perm {first second : List (String × String)} (moved : first.Perm second)
    (distinct : (first.map Prod.fst).Nodup) : sortMembers first = sortMembers second := by
  have sorted (members : List (String × String)) :
      (sortMembers members).Pairwise fun first second => first.1 ≤ second.1 := by
    have : Std.Total fun first second : String × String => first.1 ≤ second.1 :=
      ⟨fun first second => le_total first.1 second.1⟩
    have : IsTrans (String × String) fun first second => first.1 ≤ second.1 :=
      ⟨fun _ _ _ => le_trans⟩
    exact List.pairwise_insertionSort _ members
  have kept (members : List (String × String)) : (sortMembers members).Perm members :=
    List.perm_insertionSort _ members
  refine List.Perm.eq_of_pairwise ?_ (sorted first) (sorted second)
    ((kept first).trans (moved.trans (kept second).symm))
  intro entry other member otherMember below above
  have inFirst := (kept first).mem_iff.mp member
  have otherInFirst := moved.mem_iff.mpr ((kept second).mem_iff.mp otherMember)
  exact List.inj_on_of_nodup_map distinct inFirst otherInFirst (le_antisymm below above)

theorem sortMembers_moved (codec : Codec) {fields others : List (String × Value)}
    (moved : fields.Perm others) (distinct : (fields.map Prod.fst).Nodup) :
    sortMembers (canonicalMembers codec fields) = sortMembers (canonicalMembers codec others) := by
  rw [canonicalMembers_eq, canonicalMembers_eq]
  refine sortMembers_perm (moved.map _) ?_
  rw [List.map_map]
  exact distinct

mutual

theorem reordered_canonical (codec : Codec) : {value other : Value} → Reordered value other →
    value.Distinct → canonicalJsonString codec value = canonicalJsonString codec other
  | _, _, .same _, _ => rfl
  | _, _, .array items, distinct => by
      rw [canonicalJsonString, canonicalJsonString, reorderedItems_canonical codec items distinct]
  | _, _, @Reordered.object fields middle others members moved, distinct => by
      have equal := reorderedMembers_canonical codec members distinct.2
      have keys : middle.map Prod.fst = fields.map Prod.fst := reorderedMembers_keys members
      have sorted := sortMembers_moved codec moved (keys ▸ distinct.1)
      rw [canonicalJsonString, canonicalJsonString, equal, sorted]

theorem reorderedItems_canonical (codec : Codec) : {items others : List Value} →
    ReorderedItems items others → DistinctItems items →
    canonicalItems codec items = canonicalItems codec others
  | _, _, .nil, _ => rfl
  | _, _, .cons item rest, distinct => by
      rw [canonicalItems, canonicalItems, reordered_canonical codec item distinct.1,
        reorderedItems_canonical codec rest distinct.2]

theorem reorderedMembers_canonical (codec : Codec) : {fields others : List (String × Value)} →
    ReorderedMembers fields others → DistinctMembers fields →
    canonicalMembers codec fields = canonicalMembers codec others
  | _, _, .nil, _ => rfl
  | _, _, .cons key value rest, distinct => by
      rw [canonicalMembers, canonicalMembers, reordered_canonical codec value distinct.1,
        reorderedMembers_canonical codec rest distinct.2]

end

theorem canonicalizeCall_toolCall {codec : Codec} (id name : String) {text : String}
    {parsed : Value} (read : codec.fromStr text = some parsed) :
    canonicalizeCall codec (toolCall id name text) =
      toolCall id name (canonicalJsonString codec parsed) := by
  have function : canonicalizeFunction codec [("name", .string name), ("arguments", .string text)] =
      [("name", .string name), ("arguments", .string (canonicalJsonString codec parsed))] := by
    have given : (Map.get "arguments" [("name", Value.string name),
        ("arguments", .string text)]).bind Value.asStr = some text := rfl
    rw [canonicalizeFunction, given]
    dsimp only
    rw [rewrittenArguments, read]
    dsimp only
    by_cases same : canonicalJsonString codec parsed = text
    · rw [if_pos same, same]
    · rw [if_neg same]
      rfl
  exact congrArg (fun function : Map => Value.object [("id", .string id),
    ("type", .string "function"), ("function", .object function)]) function

section Prompts

variable {codec : Codec} {round : Number → Number}

theorem call_canonical {call other : Value} (variant : CallVariant codec round call other) :
    canonicalizeCall codec call = canonicalizeCall codec other := by
  cases variant with
  | same => rfl
  | reordered id name moved read otherRead =>
      rw [canonicalizeCall_toolCall id name read.2, canonicalizeCall_toolCall id name otherRead.2,
        reordered_canonical codec (moved.mapNumbers round) (read.1.mapNumbers round)]

theorem callIds_variant {calls others : List Value}
    (pairs : List.Forall₂ (CallVariant codec round) calls others) :
    callIds calls = callIds others := by
  induction pairs with
  | nil => rfl
  | @cons call other rest others head _ ih =>
      have sameId : call.get "id" = other.get "id" := by cases head <;> rfl
      rw [callIds, callIds] at ih ⊢
      rw [List.filterMap_cons, List.filterMap_cons, sameId, ih]

theorem calls_canonical {calls others : List Value}
    (pairs : List.Forall₂ (CallVariant codec round) calls others) :
    calls.map (canonicalizeCall codec) = others.map (canonicalizeCall codec) := by
  induction pairs with
  | nil => rfl
  | cons head _ ih => rw [List.map_cons, List.map_cons, call_canonical head, ih]

theorem role_insert (fields : Map) {key : String} (notRole : key ≠ "role") (value : Value) :
    role (.object (fields.insert key value)) = role (.object fields) := by
  have kept : (fields.insert key value).get "role" = fields.get "role" := by
    rw [Map.get_insert, if_neg (Ne.symm notRole)]
  exact congrArg (fun found => Option.bind found Value.asStr) kept

theorem role_remove {fields : Map} (distinct : fields.Distinct) {key : String}
    (notRole : key ≠ "role") : role (.object (fields.remove key)) = role (.object fields) :=
  congrArg (fun found => Option.bind found Value.asStr)
    (Map.get_remove distinct (Ne.symm notRole))

variable (codec round) in
/-- Messages that differ in their calls only. -/
structure FieldsVariant (fields others : Map) : Prop where
  distinct : fields.Distinct
  same : Map.SameBut "tool_calls" fields others
  calls : Option.Rel (ArraysAlike (CallVariant codec round)) (fields.get "tool_calls")
    (others.get "tool_calls")
  assistant : fields = others ∨ role (.object fields) = some "assistant"

variable (codec round) in
def PromptVariant (message other : Value) : Prop :=
  ∃ fields others, message = .object fields ∧ other = .object others ∧
    FieldsVariant codec round fields others

namespace FieldsVariant

variable {fields others : Map}

theorem insert (variant : FieldsVariant codec round fields others) {key : String}
    (notCalls : key ≠ "tool_calls") (notRole : key ≠ "role") (value : Value) :
    FieldsVariant codec round (fields.insert key value) (others.insert key value) where
  distinct := variant.distinct.insert key value
  same := Map.Alike.insert variant.same key value
  calls := by
    rw [Map.get_insert, if_neg (Ne.symm notCalls), Map.get_insert, if_neg (Ne.symm notCalls)]
    exact variant.calls
  assistant := variant.assistant.imp (congrArg (Map.insert key value))
    (role_insert fields notRole value).trans

theorem remove (variant : FieldsVariant codec round fields others) {key : String}
    (notCalls : key ≠ "tool_calls") (notRole : key ≠ "role") :
    FieldsVariant codec round (fields.remove key) (others.remove key) where
  distinct := variant.distinct.remove key
  same := Map.Alike.remove variant.same key
  calls := by
    have otherDistinct : others.Distinct := by
      rw [Map.Distinct, ← Map.Alike.keys variant.same]
      exact variant.distinct
    rw [Map.get_remove variant.distinct (Ne.symm notCalls),
      Map.get_remove otherDistinct (Ne.symm notCalls)]
    exact variant.calls
  assistant := variant.assistant.imp (congrArg (Map.remove key))
    (role_remove variant.distinct notRole).trans

theorem get_eq (variant : FieldsVariant codec round fields others) {query : String}
    (notCalls : query ≠ "tool_calls") : fields.get query = others.get query :=
  Map.Alike.get_eq variant.same fun _ _ same => notCalls same

theorem role_eq (variant : FieldsVariant codec round fields others) :
    role (.object fields) = role (.object others) :=
  congrArg (fun found => Option.bind found Value.asStr) (variant.get_eq (by decide))

end FieldsVariant

theorem PromptVariant.role_eq {message other : Value}
    (variant : PromptVariant codec round message other) : role message = role other := by
  obtain ⟨fields, others, rfl, rfl, variant⟩ := variant
  exact variant.role_eq

def WireMessage.normalized : WireMessage → WireMessage
  | .system content => .system (stripBillingSystem content)
  | .user role content =>
      .user role (if role = "system" then stripBillingSystem content else content)
  | message => message

theorem normalize_intoWire (message : WireMessage) :
    normalizeSystemMessage message.intoWire = message.normalized.intoWire := by
  cases message with
  | system content => rfl
  | user name content =>
      have speaker : role (WireMessage.user name content).intoWire = some name := rfl
      rw [normalizeSystemMessage, speaker, WireMessage.normalized]
      by_cases system : name = "system"
      · rw [if_pos (congrArg some system), if_pos system]
        rfl
      · rw [if_neg fun same => system (Option.some.inj same), if_neg system]
  | assistant content calls reasoning => rfl
  | tool id content isError => rfl

theorem distinct_intoWire (message : WireMessage) :
    ∃ fields : Map, message.intoWire = .object fields ∧ fields.Distinct := by
  cases message with
  | system content => exact ⟨_, rfl, by simp [Map.Distinct]⟩
  | user name content => exact ⟨_, rfl, by simp [Map.Distinct]⟩
  | assistant content calls reasoning =>
      refine ⟨_, rfl, ?_⟩
      rw [Map.Distinct]
      cases calls.isEmpty <;> cases reasoning.isEmpty <;> simp
  | tool id content isError => exact ⟨_, rfl, by cases isError <;> simp [Map.Distinct]⟩

theorem calls_intoWire (message : WireMessage) : message.intoWire.get "tool_calls" =
    match message with
    | .assistant _ calls _ => if calls.isEmpty then none else some (.array calls)
    | _ => none := by
  cases message with
  | assistant content calls reasoning =>
      cases empty : calls.isEmpty <;> cases silent : reasoning.isEmpty <;>
        simp [WireMessage.intoWire, OrderedMap.lookup, empty, silent]
  | tool id content isError => cases isError <;> simp [WireMessage.intoWire, OrderedMap.lookup]
  | system | user => simp [WireMessage.intoWire, OrderedMap.lookup]

theorem promptVariant_refl (message : WireMessage) :
    PromptVariant codec round message.intoWire message.intoWire := by
  obtain ⟨fields, shape, distinct⟩ := distinct_intoWire message
  refine ⟨fields, fields, shape, shape, distinct, Map.Alike.refl fields, ?_, .inl rfl⟩
  have found : fields.get "tool_calls" = _ := shape ▸ calls_intoWire message
  rw [found]
  cases message with
  | assistant content calls reasoning =>
      dsimp only
      split
      next => exact .none
      next => exact .some ⟨calls, calls, rfl, rfl, List.forall₂_same.mpr fun call _ => .same call⟩
  | system | user | tool => exact .none

theorem sameBut_assistant (content calls others : List Value) (reasoning : String)
    (together : calls.isEmpty = others.isEmpty) :
    ∃ fields seconds : Map, (WireMessage.assistant content calls reasoning).intoWire =
        .object fields ∧ (WireMessage.assistant content others reasoning).intoWire =
        .object seconds ∧ fields.SameBut "tool_calls" seconds := by
  refine ⟨_, _, rfl, rfl, ?_⟩
  rw [together]
  cases others.isEmpty
  · exact .cons ⟨rfl, .inl rfl⟩ (.cons ⟨rfl, .inl rfl⟩ (.cons ⟨rfl, .inr rfl⟩ (Map.Alike.refl _)))
  · exact Map.Alike.refl _

theorem wire_variant {message other : WireMessage}
    (variant : WireVariant codec round message other) :
    PromptVariant codec round message.normalized.intoWire other.normalized.intoWire := by
  cases variant with
  | same => exact promptVariant_refl _
  | system stripped =>
      rw [WireMessage.normalized, WireMessage.normalized, stripped]
      exact promptVariant_refl _
  | @assistant content reasoning calls others pairs =>
      have together := isEmpty_forall₂ pairs
      obtain ⟨fields, seconds, shape, otherShape, same⟩ :=
        sameBut_assistant content calls others reasoning together
      obtain ⟨_, again, distinct⟩ := distinct_intoWire (.assistant content calls reasoning)
      obtain rfl := Value.object.inj (shape.symm.trans again)
      have found : fields.get "tool_calls" = _ := shape ▸ calls_intoWire _
      have otherFound : seconds.get "tool_calls" = _ := otherShape ▸ calls_intoWire _
      refine ⟨fields, seconds, shape, otherShape, distinct, same, ?_, .inr (shape ▸ rfl)⟩
      rw [found, otherFound]
      dsimp only
      rw [together]
      split
      next => exact .none
      next => exact .some ⟨calls, others, rfl, rfl, pairs⟩

theorem calls_normalized (message : WireMessage) :
    message.normalized.intoWire.get "tool_calls" = message.intoWire.get "tool_calls" := by
  rw [calls_intoWire, calls_intoWire]
  cases message <;> rfl

theorem isAction_normalized (message : WireMessage) :
    isAction message.normalized.intoWire = isAction message.intoWire := by
  cases message <;> rfl

def normalizedMessages (messages : List WireMessage) : List Value :=
  (messages.map WireMessage.intoWire).map normalizeSystemMessage

theorem any_normalized (messages : List WireMessage) :
    (normalizedMessages messages).any isAction =
      (messages.map WireMessage.intoWire).any isAction := by
  induction messages with
  | nil => rfl
  | cons message rest ih =>
      rw [normalizedMessages] at ih ⊢
      simp only [List.map_cons, List.any_cons, ih, normalize_intoWire, isAction_normalized]

/-- Normalized messages are alike when an action stands behind every message whose calls differ. -/
theorem normalized_alike {messages others : List WireMessage}
    (pairs : List.Forall₂ (WireVariant codec round) messages others)
    (historical : ∀ index message other,
      (messages.map WireMessage.intoWire)[index]? = some message →
      (others.map WireMessage.intoWire)[index]? = some other →
      message.get "tool_calls" ≠ other.get "tool_calls" →
      ((messages.map WireMessage.intoWire).drop (index + 1)).any isAction = true) :
    AlikeBefore isAction (PromptVariant codec round) (normalizedMessages messages)
      (normalizedMessages others) := by
  induction pairs with
  | nil => exact .nil
  | @cons message other rest others head _ ih =>
      have variant := wire_variant head
      have later := ih fun index => historical (index + 1)
      have first := historical 0 _ _ rfl rfl
      rw [normalizedMessages, normalizedMessages, List.map_cons, List.map_cons, List.map_cons,
        List.map_cons, normalize_intoWire, normalize_intoWire]
      refine .cons variant ?_ later
      by_cases same : message.intoWire.get "tool_calls" = other.intoWire.get "tool_calls"
      · obtain ⟨fields, seconds, shape, otherShape, variant⟩ := variant
        have found : Map.get "tool_calls" fields = Map.get "tool_calls" seconds := by
          rw [← calls_normalized message, ← calls_normalized other, shape, otherShape] at same
          exact same
        exact .inl (by rw [shape, otherShape, variant.same.eq variant.distinct found])
      · exact .inr ((any_normalized rest).trans (first same))

theorem isAction_of_role {message other : Value} (same : role message = role other) :
    isAction message = isAction other := by
  rw [isAction, isAction, same]

theorem restorableIds_variant {message other : Value}
    (variant : PromptVariant codec round message other) :
    restorableIds message = restorableIds other := by
  have speaker := variant.role_eq
  obtain ⟨fields, others, rfl, rfl, variant⟩ := variant
  have reasoning : (Value.object fields).get "reasoning_content" =
      (Value.object others).get "reasoning_content" := variant.get_eq (by decide)
  have calls : ((Map.get "tool_calls" fields).bind Value.asArray).map callIds =
      ((Map.get "tool_calls" others).bind Value.asArray).map callIds := by
    have related := variant.calls
    generalize Map.get "tool_calls" fields = found, Map.get "tool_calls" others = other
      at related ⊢
    cases related with
    | none => rfl
    | some arrays =>
        obtain ⟨calls, others, rfl, rfl, pairs⟩ := arrays
        exact congrArg some (callIds_variant pairs)
  rw [restorableIds, restorableIds, speaker, reasoning]
  split
  next => rfl
  next => exact calls

section Restore

variable (hash : String → UInt64) (clock : Nat → Clock.Instant) (fingerprint : String)
  (shadow : ReasoningShadowStore)

theorem restoreMessage_variant (index : Nat) {message other : Value}
    (variant : PromptVariant codec round message other) :
    let restored := restoreMessage hash clock fingerprint index shadow message
    let otherRestored := restoreMessage hash clock fingerprint index shadow other
    PromptVariant codec round restored.1 otherRestored.1 ∧ restored.2 = otherRestored.2 ∧
      role restored.1 = role message := by
  dsimp only
  rw [restoreMessage, restoreMessage, restorableIds_variant variant]
  split
  next => exact ⟨variant, rfl, rfl⟩
  next ids _ =>
    cases restored : shadow.restore hash fingerprint (clock index) ids with
    | mk found read =>
        cases found with
        | none => exact ⟨variant, rfl, rfl⟩
        | some reasoning =>
            obtain ⟨fields, others, rfl, rfl, variant⟩ := variant
            exact ⟨⟨_, _, rfl, rfl, variant.insert (by decide) (by decide) _⟩, rfl,
              role_insert fields (by decide) _⟩

variable {items others : List Value}

theorem restoreMessages_alike (index : Nat)
    (alike : AlikeBefore isAction (PromptVariant codec round) items others) :
    let restored := restoreMessages hash clock fingerprint index shadow items
    let otherRestored := restoreMessages hash clock fingerprint index shadow others
    AlikeBefore isAction (PromptVariant codec round) restored.1 otherRestored.1 ∧
      restored.2 = otherRestored.2 ∧ restored.1.any isAction = items.any isAction := by
  induction alike generalizing index shadow with
  | nil => exact ⟨.nil, rfl, rfl⟩
  | @cons message other rest others head same tail ih =>
      obtain ⟨variant, read, speaker⟩ :=
        restoreMessage_variant hash clock fingerprint shadow index head
      dsimp only at variant read speaker ih ⊢
      rw [restoreMessages, restoreMessages]
      dsimp only
      rw [← read]
      obtain ⟨later, left, marks⟩ :=
        ih (restoreMessage hash clock fingerprint index shadow message).2 (index + 1)
      refine ⟨.cons variant ?_ later, left, ?_⟩
      · rw [marks]
        exact same.imp_left fun equal => by rw [equal]
      · rw [List.any_cons, List.any_cons, marks, isAction_of_role speaker]

theorem restored_alike (boundary index : Nat)
    (alike : AlikeBefore isAction (PromptVariant codec round) items others) :
    let restored := restoreMessages hash clock fingerprint index shadow (items.drop boundary)
    let otherRestored := restoreMessages hash clock fingerprint index shadow (others.drop boundary)
    AlikeBefore isAction (PromptVariant codec round) (items.take boundary ++ restored.1)
        (others.take boundary ++ otherRestored.1) ∧ restored.2 = otherRestored.2 ∧
      (items.take boundary ++ restored.1).any isAction = items.any isAction := by
  induction alike generalizing boundary with
  | nil =>
      rw [List.take_nil, List.drop_nil]
      exact ⟨.nil, rfl, rfl⟩
  | @cons message other rest others head same tail ih =>
      cases boundary with
      | zero => exact restoreMessages_alike hash clock fingerprint shadow index (.cons head same tail)
      | succ boundary =>
          obtain ⟨later, left, marks⟩ := ih boundary
          rw [List.take_succ_cons, List.take_succ_cons, List.drop_succ_cons, List.drop_succ_cons]
          refine ⟨.cons head (same.imp_right marks.trans) later, left, ?_⟩
          rw [List.cons_append, List.any_cons, List.any_cons, marks]

end Restore

theorem isUser_variant {message other : Value}
    (variant : PromptVariant codec round message other) : isUser message = isUser other := by
  rw [isUser, isUser, variant.role_eq]

variable {items others : List Value}

theorem epochBoundary_alike
    (alike : AlikeBefore isAction (PromptVariant codec round) items others) :
    epochBoundary items = epochBoundary others := by
  have kept : ∀ message other : Value, PromptVariant codec round message other →
      isUser message = isUser other := fun _ _ => isUser_variant
  have lengths := congrArg List.length (alike.map_eq kept)
  rw [List.length_map, List.length_map] at lengths
  rw [epochBoundary, epochBoundary, alike.rposition_eq kept, lengths]

theorem FieldsVariant.compact {fields seconds : Map}
    (variant : FieldsVariant codec round fields seconds) :
    FieldsVariant codec round (compactContent fields) (compactContent seconds) := by
  rw [compactContent, compactContent, ← variant.get_eq (by decide : "content" ≠ "tool_calls")]
  split
  next => exact variant.insert (by decide) (by decide) _
  next => exact variant

theorem role_compactContent (fields : Map) :
    role (.object (compactContent fields)) = role (.object fields) := by
  rw [compactContent]
  split
  next => exact role_insert fields (by decide) _
  next => rfl

theorem FieldsVariant.strip {fields seconds : Map} (historical : Bool)
    (variant : FieldsVariant codec round fields seconds) :
    FieldsVariant codec round
        (if historical then Map.remove "reasoning_content" fields else fields)
        (if historical then Map.remove "reasoning_content" seconds else seconds) ∧
      role (.object (if historical then Map.remove "reasoning_content" fields else fields)) =
        role (.object fields) := by
  cases historical with
  | true =>
      exact ⟨variant.remove (by decide) (by decide), role_remove variant.distinct (by decide)⟩
  | false => exact ⟨variant, rfl⟩

theorem optimizeMessage_variant (glm : Glm53Config) (boundary index : Nat) {message other : Value}
    (variant : PromptVariant codec round message other) :
    PromptVariant codec round (optimizeMessage glm boundary index message)
        (optimizeMessage glm boundary index other) ∧
      role (optimizeMessage glm boundary index message) = role message := by
  have speaker := variant.role_eq
  obtain ⟨fields, others, rfl, rfl, variant⟩ := variant
  rw [optimizeMessage, optimizeMessage, ← speaker]
  dsimp only [Value.mapObject]
  obtain ⟨stripped, kept⟩ := variant.strip (glm.reasoning.stripHistoricalThinking &&
    role (.object fields) == some "assistant" && decide (index < boundary))
  split
  next => exact ⟨⟨_, _, rfl, rfl, stripped.compact⟩, (role_compactContent _).trans kept⟩
  next => exact ⟨⟨_, _, rfl, rfl, stripped⟩, kept⟩

theorem optimizeMessages_alike (glm : Glm53Config)
    (alike : AlikeBefore isAction (PromptVariant codec round) items others) :
    AlikeBefore isAction (PromptVariant codec round) (optimizeMessages glm items)
      (optimizeMessages glm others) := by
  rw [optimizeMessages, optimizeMessages, ← epochBoundary_alike alike]
  exact alike.mapIdx (fun index _ _ variant => (optimizeMessage_variant glm _ index variant).1)
    fun index _ _ variant => isAction_of_role (optimizeMessage_variant glm _ index variant).2

theorem canonicalizeCalls_variant {message other : Value}
    (variant : PromptVariant codec round message other) :
    canonicalizeCalls codec message = canonicalizeCalls codec other := by
  obtain ⟨fields, others, rfl, rfl, variant⟩ := variant
  refine congrArg Value.object ((variant.same.update _ _).eq (variant.distinct.update _ _) ?_)
  rw [Map.get_update, if_pos rfl, Map.get_update, if_pos rfl]
  have related := variant.calls
  generalize Map.get "tool_calls" fields = found, Map.get "tool_calls" others = other
    at related ⊢
  cases related with
  | none => rfl
  | some arrays =>
      obtain ⟨calls, others, rfl, rfl, pairs⟩ := arrays
      exact congrArg (fun calls => some (Value.array calls)) (calls_canonical pairs)

theorem canonicalizeMessage_variant {message other : Value} {lastAction index : Nat}
    (variant : PromptVariant codec round message other) (before : index < lastAction) :
    canonicalizeMessage codec lastAction index message =
      canonicalizeMessage codec lastAction index other := by
  have speaker := variant.role_eq
  rw [canonicalizeMessage, canonicalizeMessage, ← speaker]
  split
  next => exact canonicalizeCalls_variant variant
  next other_ =>
    obtain ⟨fields, others, rfl, rfl, variant⟩ := variant
    rw [variant.assistant.resolve_right fun assistant => other_ ⟨assistant, before⟩]

theorem canonicalizeMessages_alike
    (alike : AlikeBefore isAction (PromptVariant codec round) items others) :
    canonicalizeMessages codec items = canonicalizeMessages codec others := by
  have marks : ∀ message other : Value, PromptVariant codec round message other →
      isAction message = isAction other := fun _ _ variant => isAction_of_role variant.role_eq
  have general : ∀ {lastAction : Nat}, Positions.rposition isAction items = some lastAction →
      items.mapIdx (canonicalizeMessage codec lastAction) =
        others.mapIdx (canonicalizeMessage codec lastAction) := by
    induction alike with
    | nil => exact fun _ => rfl
    | @cons message other rest others head same tail ih =>
        intro lastAction found
        have shift (last index : Nat) : canonicalizeMessage codec (last + 1) (index + 1) =
            canonicalizeMessage codec last index := by
          funext message
          simp only [canonicalizeMessage, Nat.add_lt_add_iff_right]
        rw [List.mapIdx_cons, List.mapIdx_cons]
        rw [Positions.rposition] at found
        split at found
        next last behind =>
          obtain rfl := Option.some.inj found
          simp only [shift]
          exact congrArg₂ List.cons (canonicalizeMessage_variant head (Nat.succ_pos last))
            (ih behind)
        next none_ =>
          have quiet : rest.any isAction = false := by
            rw [Positions.any_eq_isSome, none_, Option.isSome_none]
          rw [tail.eq_of_unmarked quiet]
          rcases same with rfl | behind
          · rfl
          · rw [quiet] at behind
            cases behind
  rw [canonicalizeMessages, canonicalizeMessages, ← alike.rposition_eq marks]
  split
  next none_ =>
    refine alike.eq_of_unmarked ?_
    rw [Positions.any_eq_isSome, none_, Option.isSome_none]
  next lastAction found => exact general found

end Prompts

end ClineProxy
