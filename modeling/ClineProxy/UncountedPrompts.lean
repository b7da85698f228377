import ClineProxy.SentOutlines

/-! Which conversations the context guard watches over. -/

namespace ClineProxy

open Json Positions FallibleLoops

/-- A message that is an object with distinct members, and that is as the path makes it. -/
structure SentMessage (message : Value) : Prop where
  object : ∃ fields : Map, message = .object fields ∧ fields.Distinct
  sent : (outline message).Sent

theorem sentMessage_intoWire {message : WireMessage} (sent : message.Sent) :
    SentMessage message.intoWire :=
  ⟨distinct_intoWire message, sent_outline sent⟩

theorem map_mapIdx_same {Item Result : Type} {view : Item → Result} {pass : Nat → Item → Item}
    {items : List Item} (same : ∀ index, ∀ item ∈ items, view (pass index item) = view item) :
    (items.mapIdx pass).map view = items.map view := by
  refine List.ext_getElem? fun index => ?_
  rw [List.getElem?_map, List.getElem?_map, List.getElem?_mapIdx]
  cases found : items[index]? with
  | none => rfl
  | some item => exact congrArg some (same index item (List.mem_of_getElem? found))

theorem forall_of_map {Item Result : Type} {view : Item → Result} {holds : Result → Prop}
    {items others : List Item} (same : items.map view = others.map view) :
    (∀ item ∈ items, holds (view item)) ↔ ∀ item ∈ others, holds (view item) := by
  rw [← List.forall_mem_map, same, List.forall_mem_map]

theorem text_stripBillingBlock {block : Value} {text : String}
    (said : plainBlockText block = some text) :
    plainBlockText (stripBillingBlock block) = some (stripBillingHeader text) := by
  obtain ⟨fields, rfl, kind, held⟩ := plainBlockText_some said
  have kind_ : ((Value.object fields).get "type").bind Value.asStr = some "text" := kind
  obtain ⟨value, found, isText⟩ := Option.bind_eq_some_iff.mp held
  obtain rfl := Value.asStr_eq_some isText
  have found : (Value.object fields).get "text" = some (.string text) := found
  have sameKind : ((Value.object fields).update "text" stripBillingText).get "type" =
      (Value.object fields).get "type" := by rw [Value.get_update, if_neg (by decide)]
  rw [stripBillingBlock, if_pos kind_, plainBlockText, sameKind, if_pos kind_, Value.get_update,
    if_pos rfl, found]
  rfl

theorem outline_normalizeSystemMessage {message : Value} (sent : (outline message).Sent) :
    outline (normalizeSystemMessage message) = outline message := by
  rw [normalizeSystemMessage]
  split
  next system =>
    have texts : otherParts (message.get "content") = [] := by
      by_contra some_
      have spoken := sent.others some_
      rw [outline, system] at spoken
      simp at spoken
    have read : readable (message.get "content") = true := sent.read
    have spoken : role (message.update "content" stripBillingSystem) = role message := by
      rw [role, role, Value.get_update, if_neg (by decide)]
    rw [outline, outline, spoken, Value.get_update, if_pos rfl, texts]
    cases content : message.get "content" with
    | none =>
        rw [content] at read
        cases read
    | some content_ =>
        rw [content] at texts read
        cases content_ with
        | string text => rfl
        | array parts =>
            have kept : otherParts (some (.array (parts.map stripBillingBlock))) = [] := by
              refine List.filter_eq_nil_iff.mpr fun part member silent => ?_
              obtain ⟨before, there, rfl⟩ := List.mem_map.mp member
              obtain ⟨text, said⟩ := texts_of_others texts before there
              rw [text_stripBillingBlock said] at silent
              cases silent
            rw [Option.map_some, stripBillingSystem, kept]
            rfl
        | null | bool | number | object => cases read
  next => rfl

theorem sentMessage_normalize {message : Value} (sent : SentMessage message) :
    SentMessage (normalizeSystemMessage message) := by
  refine ⟨?_, ?_⟩
  · obtain ⟨fields, rfl, distinct⟩ := sent.object
    rw [normalizeSystemMessage]
    split
    next => exact ⟨_, rfl, distinct.update _ _⟩
    next => exact ⟨fields, rfl, distinct⟩
  · rw [outline_normalizeSystemMessage sent.sent]
    exact sent.sent

theorem outline_insert_reasoning (fields : Map) (reasoning : Value) :
    outline (.object (fields.insert "reasoning_content" reasoning)) = outline (.object fields) := by
  have kept (key : String) (other : key ≠ "reasoning_content") :
      (Value.object (fields.insert "reasoning_content" reasoning)).get key =
        (Value.object fields).get key := (Map.get_insert _ _ _ fields).trans (if_neg other)
  rw [outline, outline, role, role, kept _ (by decide), kept _ (by decide)]

section Restored

variable {hash : String → UInt64} {fingerprint : String} {clock : Nat → Clock.Instant}
  {shadow : ReasoningShadowStore} {messages : List Value}

theorem outlines_restoredMessages (sent : ∀ message ∈ messages, SentMessage message) :
    (∀ message ∈ restoredMessages hash clock fingerprint shadow messages, SentMessage message) ∧
      (restoredMessages hash clock fingerprint shadow messages).map outline =
        messages.map outline := by
  have length := @length_restoredMessages hash fingerprint clock shadow messages
  have each : ∀ (index : Nat) (before after : Value), messages[index]? = some before →
      (restoredMessages hash clock fingerprint shadow messages)[index]? = some after →
      SentMessage after ∧ outline after = outline before := by
    intro index before after first second
    have known := sent before (List.mem_of_getElem? first)
    rcases restored_at first second with rfl | ⟨reasoning, -, restored⟩
    · exact ⟨known, rfl⟩
    · obtain ⟨fields, rfl, rfl⟩ := restored.object
      have same := outline_insert_reasoning fields (.string reasoning)
      obtain ⟨_, shape, distinct⟩ := known.object
      cases shape
      exact ⟨⟨⟨_, rfl, distinct.insert _ _⟩, same ▸ known.sent⟩, same⟩
  constructor
  · intro message member
    obtain ⟨index, second⟩ := List.getElem?_of_mem member
    have below : index < messages.length := length ▸ (List.getElem?_eq_some_iff.mp second).1
    exact (each index _ message (List.getElem?_eq_getElem below) second).1
  · refine List.ext_getElem? fun index => ?_
    rw [List.getElem?_map, List.getElem?_map]
    cases first : messages[index]? with
    | none =>
        have none_ : (restoredMessages hash clock fingerprint shadow messages)[index]? = none := by
          rw [List.getElem?_eq_none_iff, length]
          exact List.getElem?_eq_none_iff.mp first
        rw [none_]
    | some before =>
        have below := (List.getElem?_eq_some_iff.mp first).1
        have second := List.getElem?_eq_getElem (length.symm ▸ below :
          index < (restoredMessages hash clock fingerprint shadow messages).length)
        rw [second]
        exact congrArg some (each index before _ first second).2

end Restored

theorem readable_compactBlocks (blocks : List Value) :
    readable (some (compactBlocks blocks)) = true := by
  rw [compactBlocks]
  split
  next => rfl
  next =>
    split <;> rfl
  next => rfl

theorem outline_compactContent (fields : Map) :
    outline (.object (compactContent fields)) = outline (.object fields) := by
  have same := saysTheSame_compact fields
  have read : readable ((Value.object (compactContent fields)).get "content") =
      readable ((Value.object fields).get "content") := by
    by_cases parts : ∃ blocks, (Value.object fields).get "content" = some (.array blocks)
    · obtain ⟨blocks, found⟩ := parts
      have held : Map.get "content" fields = some (.array blocks) := found
      have compacted : (Value.object (compactContent fields)).get "content" =
          some (compactBlocks blocks) := by
        rw [compactContent, held]
        exact (Map.get_insert _ _ _ fields).trans (if_pos rfl)
      rw [compacted, found, readable_compactBlocks]
      rfl
    · rw [same.plain (not_exists.mp parts)]
  rw [outline, outline, same.role, same.parts, read]

section Passes

variable {glm : Glm53Config} {codec : Codec} {messages : List Value}

theorem outline_optimizeMessage (boundary index : Nat) {message : Value}
    (sent : SentMessage message) :
    outline (optimizeMessage glm boundary index message) = outline message := by
  obtain ⟨fields, rfl, distinct⟩ := sent.object
  have stripped_ : outline (.object (stripped glm boundary index fields)) =
      outline (.object fields) := by
    have same := saysTheSame_stripped glm boundary index distinct
    have kept : (Value.object (stripped glm boundary index fields)).get "content" =
        (Value.object fields).get "content" := by
      rw [stripped]
      split
      next => exact Map.get_remove distinct (by decide)
      next => rfl
    rw [outline, outline, same.role, kept]
  rw [optimizeMessage_object]
  split
  next => rw [outline_compactContent, stripped_]
  next => exact stripped_

theorem outline_canonicalizeMessage (lastAction index : Nat) (message : Value) :
    outline (canonicalizeMessage codec lastAction index message) = outline message := by
  rw [canonicalizeMessage]
  split
  next =>
    rw [canonicalizeCalls, outline, outline, role, role, Value.get_update, if_neg (by decide),
      Value.get_update, if_neg (by decide)]
  next => rfl

theorem outlines_optimizeMessages (sent : ∀ message ∈ messages, SentMessage message) :
    (optimizeMessages glm messages).map outline = messages.map outline :=
  map_mapIdx_same fun index message member =>
    outline_optimizeMessage (epochBoundary messages) index (sent message member)

theorem outlines_canonicalizeMessages (codec : Codec) (messages : List Value) :
    (canonicalizeMessages codec messages).map outline = messages.map outline := by
  rw [canonicalizeMessages]
  split
  next => rfl
  next lastAction _ =>
    exact map_mapIdx_same fun index message _ => outline_canonicalizeMessage lastAction index message

end Passes

section Path

variable {path : MessagePath} {codec : Codec} {shadow left : Option ReasoningShadowStore}
  {input : Value} {converted : ConvertedRequest} {optimization : RequestOptimization}

theorem restoreShadow_messages {thinking : Option Value} {session : Option String}
    {fields restored : Map} {messages : List Value}
    (listed : fields.get "messages" = some (.array messages))
    (sent : ∀ message ∈ messages, SentMessage message)
    (restores : (path.restoreShadow thinking session shadow (.object fields)).1 =
      .object restored) :
    ∃ others, restored.get "messages" = some (.array others) ∧
      (∀ message ∈ others, SentMessage message) ∧ others.map outline = messages.map outline := by
  unfold MessagePath.restoreShadow at restores
  split at restores
  next store fingerprint _ =>
    split at restores
    next =>
      cases restores
      exact ⟨messages, listed, sent, rfl⟩
    next =>
      change Value.object (restoreInto path.hash path.clock fingerprint store fields).1 =
        .object restored at restores
      rw [restoreInto_messages listed] at restores
      cases restores
      obtain ⟨kept, same⟩ := @outlines_restoredMessages path.hash fingerprint path.clock store _ sent
      exact ⟨_, (Map.get_insert _ _ _ _).trans (if_pos rfl), kept, same⟩
  next =>
    cases restores
    exact ⟨messages, listed, sent, rfl⟩

theorem optimizeRequest_messages {glm : Glm53Config} {origin : Origin} {object optimized : Map}
    {model : String} {messages : List Value} (distinct : object.Distinct)
    (named : object.get "model" = some (.string model))
    (listed : object.get "messages" = some (.array messages))
    (sent : ∀ message ∈ messages, SentMessage message)
    (optimizes : optimizeRequest glm origin (.object object) = .ok (.object optimized, optimization)) :
    ∃ others, optimized.get "messages" = some (.array others) ∧
      others.map outline = messages.map outline := by
  by_cases family : IsGlm object
  · rw [optimizeRequest_glm family, optimizeGlm_eq] at optimizes
    obtain ⟨⟨body, _⟩, optimizes, same⟩ := map_eq_ok.mp optimizes
    obtain ⟨policy, -, optimizes⟩ := map_eq_ok.mp optimizes
    cases optimizes
    cases same
    rw [get_policyBody distinct _ (by decide), listed]
    split
    next => exact ⟨_, rfl, outlines_optimizeMessages sent⟩
    next => exact ⟨messages, by simp, rfl⟩
  · have other : ModelFamily.fromUpstreamModel model = .genericOpenAi := by
      rw [IsGlm, named] at family
      cases found : ModelFamily.fromUpstreamModel model with
      | glm53 => exact absurd found family
      | genericOpenAi => rfl
    rw [optimizeRequest_generic named other] at optimizes
    cases optimizes
    exact ⟨messages, listed, rfl⟩

theorem anthropicOptimized_outlines
    (accepted : path.anthropicOptimized codec shadow input = .ok (converted, optimization, left)) :
    ∃ (sent : List Value) (wire : List WireMessage),
      converted.body.get "messages" = some (.array sent) ∧
      sent.map outline = (wire.map WireMessage.intoWire).map outline ∧
      (∀ message ∈ wire, message.Sent) ∧
      ((∀ message ∈ wire, message.Counts) ↔ TextOnly (inputMessages input)) := by
  obtain ⟨requested, fields, restored, optimized, made, listed, restores, distinct, model, -,
    policy, body⟩ := anthropicOptimized_stages accepted
  obtain ⟨wire, sent, wellSent, counts⟩ := convertRequestValue_sends made
  rw [sent, Option.map_some] at listed
  have first : ∀ message ∈ wire.map WireMessage.intoWire, SentMessage message := by
    intro message member
    obtain ⟨before, there, rfl⟩ := List.mem_map.mp member
    exact sentMessage_intoWire (wellSent before there)
  have normalized : ∃ messages, path.normalizedMessages (.array (wire.map WireMessage.intoWire)) =
      .array messages ∧ (∀ message ∈ messages, SentMessage message) ∧
      messages.map outline = (wire.map WireMessage.intoWire).map outline := by
    rw [MessagePath.normalizedMessages]
    split
    next =>
      refine ⟨_, rfl, ?_, ?_⟩
      · intro message member
        obtain ⟨before, there, rfl⟩ := List.mem_map.mp member
        exact sentMessage_normalize (first before there)
      · rw [List.map_map]
        exact List.map_congr_left fun message member =>
          outline_normalizeSystemMessage (first message member).sent
    next => exact ⟨_, rfl, first, rfl⟩
  obtain ⟨messages, shape, kept, same⟩ := normalized
  rw [shape] at listed
  obtain ⟨others, listed, kept, again⟩ := restoreShadow_messages listed kept restores
  obtain ⟨done, listed, last⟩ := optimizeRequest_messages distinct model listed kept policy
  have outlines := (last.trans again).trans same
  refine ⟨if path.config.glm53.context.canonicalToolJson then canonicalizeMessages codec done
    else done, wire, ?_, ?_, wellSent, counts⟩
  · rw [body]
    split
    next =>
      refine (Map.get_update _ _ _ _).trans ?_
      rw [if_pos rfl, listed]
      rfl
    next => exact listed
  · split
    next => rw [outlines_canonicalizeMessages, outlines]
    next => exact outlines

end Path

def FunctionTool (tool : Value) : Prop :=
  tool.isObject = true ∧ (tool.get "type").bind Value.asStr = some "function"

theorem convertTools_functions {value : Value} {tools : List Value} {declared : ServerToolConfig}
    (done : convertTools value = .ok (tools, declared)) : ∀ tool ∈ tools, FunctionTool tool := by
  obtain ⟨given, -, run⟩ := bind_eq_ok.mp done
  refine @foldlM_kept _ _ _ (fun state => ∀ tool ∈ state.1, FunctionTool tool) _ _
    (fun state next tool _ kept stepped => ?_) _ _ (by simp) run
  obtain ⟨object, -, stepped⟩ := bind_eq_ok.mp stepped
  have appended {added : Value} (function : FunctionTool added) :
      ∀ tool ∈ state.1 ++ [added], FunctionTool tool := by
    intro other member
    rcases List.mem_append.mp member with before | last
    · exact kept other before
    · rw [List.mem_singleton.mp last]
      exact function
  split at stepped
  next =>
    split at stepped
    next => cases stepped
    next =>
      obtain ⟨declaration, -, stepped⟩ := bind_eq_ok.mp stepped
      cases stepped
      exact appended ⟨rfl, rfl⟩
  next =>
    obtain ⟨function, made, stepped⟩ := bind_eq_ok.mp stepped
    cases stepped
    refine appended ?_
    rw [customTool] at made
    split at made
    next => cases made
    next =>
      obtain ⟨schema, -, made⟩ := bind_eq_ok.mp made
      obtain ⟨name, -, made⟩ := bind_eq_ok.mp made
      obtain ⟨description, -, made⟩ := bind_eq_ok.mp made
      obtain ⟨strict, -, made⟩ := bind_eq_ok.mp made
      cases made
      exact ⟨rfl, rfl⟩

theorem copySettings_tools {object output result : Map} {stream : Bool}
    {declared : ServerToolConfig} (absent : output.get "tools" = none)
    (done : copySettings object stream output = .ok (result, declared)) :
    result.get "tools" = none ∨ ∃ tools, result.get "tools" = some (.array tools) ∧
      ∀ tool ∈ tools, FunctionTool tool := by
  obtain ⟨first, temperature, done⟩ := bind_eq_ok.mp done
  obtain ⟨second, topP, done⟩ := bind_eq_ok.mp done
  obtain ⟨third, topK, done⟩ := bind_eq_ok.mp done
  obtain ⟨fourth, stop, done⟩ := bind_eq_ok.mp done
  obtain ⟨fifth, metadata, done⟩ := bind_eq_ok.mp done
  obtain ⟨⟨sixth, _⟩, tools, done⟩ := bind_eq_ok.mp done
  obtain ⟨seventh, choice, done⟩ := bind_eq_ok.mp done
  obtain ⟨eighth, config, done⟩ := bind_eq_ok.mp done
  obtain ⟨final, format, done⟩ := bind_eq_ok.mp done
  cases done
  have options : (if stream then
      final.insert "stream_options" (.object [("include_usage", .bool true)]) else final).get
      "tools" = final.get "tools" := by
    split
    next => rw [Map.get_insert, if_neg (by decide)]
    next => rfl
  rw [options, copyOutputFormat_get (by decide) format, copyOutputConfig_get (by decide) config,
    copyToolChoice_get (by decide) (by decide) choice]
  have before : fifth.get "tools" = none := by
    rw [copyMetadata_get (by decide) metadata, copyStopSequences_get (by decide) stop,
      copyPositiveInteger_get (by decide) topK, copyNumber_get (by decide) topP,
      copyNumber_get (by decide) temperature, absent]
  rw [copyTools] at tools
  split at tools
  next =>
    cases tools
    exact .inl before
  next =>
    obtain ⟨⟨converted, _⟩, made, tools⟩ := bind_eq_ok.mp tools
    cases tools
    split
    next => exact .inl before
    next => exact .inr ⟨converted, by rw [Map.get_insert, if_pos rfl], convertTools_functions made⟩

theorem convertRequestValue_tools {codec : Codec} {input : Value} {requested : ConvertedRequest}
    (accepted : convertRequestValue codec input = .ok requested) :
    requested.body.get "tools" = none ∨ ∃ tools, requested.body.get "tools" = some (.array tools) ∧
      ∀ tool ∈ tools, FunctionTool tool := by
  obtain ⟨object, -, done⟩ := bind_eq_ok.mp accepted
  obtain ⟨model, -, done⟩ := bind_eq_ok.mp done
  obtain ⟨maxTokens, -, done⟩ := bind_eq_ok.mp done
  obtain ⟨stream, -, done⟩ := bind_eq_ok.mp done
  obtain ⟨system, -, done⟩ := bind_eq_ok.mp done
  obtain ⟨inputs, -, done⟩ := bind_eq_ok.mp done
  obtain ⟨messages, -, done⟩ := bind_eq_ok.mp done
  obtain ⟨⟨output, serverTools⟩, settings, done⟩ := bind_eq_ok.mp done
  cases done
  exact copySettings_tools (by simp [Map.get, OrderedMap.lookup]) settings

theorem convertTools_counts {tools : Option Value}
    (functions : tools = none ∨ ∃ items, tools = some (.array items) ∧
      ∀ tool ∈ items, FunctionTool tool) :
    ∃ converted, Glm.convertTools tools = .ok converted := by
  rcases functions with rfl | ⟨items, rfl, functions⟩
  · exact ⟨none, rfl⟩
  · cases items with
    | nil => exact ⟨none, rfl⟩
    | cons first rest =>
        have total : ∀ indexed ∈ (first :: rest).zipIdx, ∃ tool,
            Glm.convertTool indexed = .ok tool := by
          intro indexed member
          obtain ⟨tool, index⟩ := indexed
          obtain ⟨object, kind⟩ := functions tool (mem_zipIdx_fst member)
          have client : isWebSearchType tool = false := by
            rw [isWebSearchType, kind]
            decide
          refine ⟨tool, ?_⟩
          simp [Glm.convertTool, object, convertDeclaration, client, Except.map]
        obtain ⟨converted, done⟩ := mapM_total total
        exact ⟨_, map_eq_ok.mpr ⟨converted, done, rfl⟩⟩

section Watched

variable {path : MessagePath} {codec : Codec} {shadow left : Option ReasoningShadowStore}
  {input : Value} {prompt : Dispatch}

/-- A prompt is converted for counting just when its conversation is nothing but text. -/
theorem convertAnthropicToGlm_sent
    (accepted : path.anthropicDispatch codec shadow input = .ok (prompt, left))
    (family : ModelFamily.fromUpstreamModel prompt.converted.model = .glm53) :
    (∃ conversion, Glm.convertAnthropicToGlm prompt.converted.body = .ok conversion) ↔
      TextOnly (inputMessages input) := by
  have outlines : ∃ (sent : List Value) (wire : List WireMessage),
      prompt.converted.body.get "messages" = some (.array sent) ∧
      sent.map outline = (wire.map WireMessage.intoWire).map outline ∧
      (∀ message ∈ wire, message.Sent) ∧
      ((∀ message ∈ wire, message.Counts) ↔ TextOnly (inputMessages input)) := by
    obtain ⟨⟨converted, optimization, _⟩, optimizes, done⟩ := bind_eq_ok.mp accepted
    cases done
    obtain ⟨sent, wire, listed, rest⟩ := anthropicOptimized_outlines optimizes
    exact ⟨sent, wire, (get_asStreaming (by decide) (by decide)).trans listed, rest⟩
  obtain ⟨sent, wire, listed, same, wellSent, counts⟩ := outlines
  have wellOutlined : ∀ message ∈ sent, (outline message).Sent := by
    rw [@forall_of_map _ _ outline Outline.Sent _ _ same]
    intro message member
    obtain ⟨before, there, rfl⟩ := List.mem_map.mp member
    exact sent_outline (wellSent before there)
  have counted : (∃ out, Glm.convertMessages 0 sent = .ok out) ↔
      TextOnly (inputMessages input) := by
    rw [convertMessages_counts wellOutlined, @forall_of_map _ _ outline Outline.Counts _ _ same,
      ← counts, List.forall_mem_map]
    exact forall₂_congr fun message member => counts_outline (wellSent message member)
  have absent {key : String} := @anthropicDispatch_absent path codec shadow left input prompt
    accepted family key
  obtain ⟨asked, restored, effort, -, distinct, object, -, -, model, -, members⟩ :=
    anthropicDispatch_policy accepted family
  have model : prompt.converted.body.get "model" = some (.string prompt.converted.model) := by
    rw [members _ (by decide), get_policyBody distinct _ (by decide)]
    simpa using model
  obtain ⟨requested, made, sameTools⟩ := anthropicDispatch_get accepted family
    (by decide : "tools" ∉ pathFields)
  obtain ⟨tools, converted⟩ := convertTools_counts (sameTools ▸ convertRequestValue_tools made)
  have filled : prompt.converted.model.isEmpty = false := by
    by_contra empty
    have nothing : prompt.converted.model = "" :=
      String.isEmpty_iff.mp (Bool.not_eq_false _ ▸ empty)
    rw [nothing] at family
    exact absurd family (by decide +kernel)
  cases shape : prompt.converted.body with
  | object fields =>
      rw [shape] at listed model converted
      have named : requiredString fields "model" = .ok prompt.converted.model :=
        requiredString_eq_ok.mpr ⟨congrArg (Option.bind · Value.asStr) model, filled⟩
      have system : Map.get "system" fields = none := by
        have gone := absent (by decide : "system" ∉ pathFields) (by decide)
        rwa [shape] at gone
      have thinking : Map.get "thinking" fields = none := by
        have gone := absent (by decide : "thinking" ∉ pathFields) (by decide)
        rwa [shape] at gone
      have config : Map.get "output_config" fields = none := by
        have gone := absent (by decide : "output_config" ∉ pathFields) (by decide)
        rwa [shape] at gone
      have effort : Glm.convertEffort fields = .ok none := by
        simp [Glm.convertEffort, thinking, config, bind, Except.bind, pure, Except.pure]
      have listed : Map.get "messages" fields = some (.array sent) := listed
      have converted : Glm.convertTools (Map.get "tools" fields) = .ok tools := converted
      rw [← counted]
      simp only [Glm.convertAnthropicToGlm, orReject, Value.asObject_object, bind, Except.bind,
        named, listed, Option.bind_some, Value.asArray_array, Glm.convertSystemMember, system,
        effort, converted]
      cases Glm.convertMessages 0 sent with
      | error => simp
      | ok out => exact iff_of_true ⟨_, rfl⟩ ⟨out, rfl⟩
  | null | bool | number | string | array =>
      rw [shape] at object
      cases object

/-- The guard counts a prompt only where its conversation is nothing but text: behind the result
of a tool, or an image, every prompt is sent on as it is, however small the window. -/
theorem guard_watches_texts {Refusal : Type} (counter : TokenCounter Refusal)
    (accepted : path.anthropicDispatch codec shadow input = .ok (prompt, left))
    (family : ModelFamily.fromUpstreamModel prompt.converted.model = .glm53)
    (readBack : codec.fromSlice prompt.upstreamBody = some prompt.converted.body) :
    ((∃ conversion, Glm.convertAnthropicToGlm prompt.converted.body = .ok conversion) ↔
      TextOnly (inputMessages input)) ∧
    (¬TextOnly (inputMessages input) →
      countOptimizedTokens counter codec prompt.upstreamBody = none ∧
        ∀ context, guardContext counter codec context prompt = .ok prompt) := by
  have converts := convertAnthropicToGlm_sent accepted family
  refine ⟨converts, fun other => ?_⟩
  have uncounted : countOptimizedTokens counter codec prompt.upstreamBody = none := by
    rw [countOptimizedTokens, countOptimizedRequest, readBack, Option.bind_some,
      TokenCounter.countInputTokens, Glm.countInputTokens, Glm.countedPrompt]
    cases done : Glm.convertAnthropicToGlm prompt.converted.body with
    | error => simp [bind, Except.bind]
    | ok conversion => exact absurd (converts.mp ⟨conversion, done⟩) other
  refine ⟨uncounted, fun context => ?_⟩
  rw [guardContext]
  split
  next => rfl
  next window _ =>
    unfold guardWithin
    rw [uncounted]
    dsimp only
    split <;> rfl

end Watched

def answeredRequest : Value :=
  requestOf [message "assistant" (.array [callBlock "tool_use" "c1"]),
    message "user" (.array [toolResultBlock "c1"])]

def answeredBody : Value :=
  .object [("model", .string "z-ai/glm-5.3-flash"), ("max_tokens", .ofNat 64),
    ("stream", .bool true),
    ("messages", .array [
      .object [("role", .string "assistant"), ("content", .string ""),
        ("tool_calls", .array [toolCall "c1" "web_search" "\x7b\x7d"])],
      .object [("role", .string "tool"), ("tool_call_id", .string "c1"),
        ("content", .string "sunny")]]),
    ("reasoning_effort", .string "high"),
    ("stream_options", .object [("include_usage", .bool true)])]

theorem guard_watches_texts_answered : ∃ prompt left,
    guardedPath.anthropicDispatch (documentCodec [answeredBody]) none answeredRequest =
      .ok (prompt, left) ∧
    guardContext characterCounter (documentCodec [answeredBody])
      guardedPath.config.glm53.context prompt = .ok prompt := by
  have made : ∃ prompt left, guardedPath.anthropicDispatch (documentCodec [answeredBody]) none
      answeredRequest = .ok (prompt, left) := ⟨_, _, rfl⟩
  obtain ⟨prompt, left, accepted⟩ := made
  have checked : (guardedPath.anthropicDispatch (documentCodec [answeredBody]) none
      answeredRequest).toOption.map (fun sent =>
        decide (ModelFamily.fromUpstreamModel sent.1.converted.model = .glm53 ∧
          sent.1.converted.body = answeredBody)) = some true := by decide +kernel
  rw [accepted] at checked
  have checked := of_decide_eq_true (Option.some.inj checked)
  have readBack : (documentCodec [answeredBody]).fromSlice prompt.upstreamBody =
      some prompt.converted.body := by
    obtain ⟨_, prepared⟩ := anthropicDispatch_prepared accepted checked.1
    rw [prepared.written, checked.2]
    exact documentCodec_reads (by decide +kernel)
  have other : ¬TextOnly (inputMessages answeredRequest) := by
    rw [TextOnly]
    decide
  exact ⟨prompt, left, accepted,
    ((guard_watches_texts characterCounter accepted checked.1 readBack).2 other).2 _⟩

end ClineProxy
