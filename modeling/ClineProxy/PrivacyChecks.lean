import ClineProxy.PromptPrivacy
import ClineProxy.RequestSettings

/-! The message path does not let volatile details through. -/

namespace ClineProxy

open Json TwoRuns

structure BodiesAlike (related : List Value → List Value → Prop) (first second : Map) : Prop where
  distinct : first.Distinct
  same : Map.SameBut "messages" first second
  messages : ∃ items others, first.get "messages" = some (.array items) ∧
    second.get "messages" = some (.array others) ∧ related items others

namespace BodiesAlike

variable {related : List Value → List Value → Prop} {first second : Map}

theorem otherDistinct (bodies : BodiesAlike related first second) : second.Distinct := by
  rw [Map.Distinct, ← Map.Alike.keys bodies.same]
  exact bodies.distinct

theorem get_eq (bodies : BodiesAlike related first second) {query : String}
    (other : query ≠ "messages") : first.get query = second.get query :=
  Map.Alike.get_eq bodies.same fun _ _ same => other same

theorem insert (bodies : BodiesAlike related first second) {key : String}
    (other : key ≠ "messages") (value : Value) :
    BodiesAlike related (first.insert key value) (second.insert key value) where
  distinct := bodies.distinct.insert key value
  same := Map.Alike.insert bodies.same key value
  messages := by
    rw [Map.get_insert, if_neg (Ne.symm other), Map.get_insert, if_neg (Ne.symm other)]
    exact bodies.messages

theorem remove (bodies : BodiesAlike related first second) {key : String}
    (other : key ≠ "messages") :
    BodiesAlike related (first.remove key) (second.remove key) where
  distinct := bodies.distinct.remove key
  same := Map.Alike.remove bodies.same key
  messages := by
    rw [Map.get_remove bodies.distinct (Ne.symm other),
      Map.get_remove bodies.otherDistinct (Ne.symm other)]
    exact bodies.messages

theorem update (bodies : BodiesAlike related first second)
    {into : List Value → List Value → Prop} {change : List Value → List Value}
    (kept : ∀ items others, related items others → into (change items) (change others)) :
    BodiesAlike into (first.update "messages" (Value.mapArray change))
      (second.update "messages" (Value.mapArray change)) where
  distinct := bodies.distinct.update _ _
  same := bodies.same.update _ _
  messages := by
    obtain ⟨items, others, given, otherGiven, pairs⟩ := bodies.messages
    refine ⟨change items, change others, ?_, ?_, kept _ _ pairs⟩
    · rw [Map.get_update, if_pos rfl, given]
      rfl
    · rw [Map.get_update, if_pos rfl, otherGiven]
      rfl

theorem eq (bodies : BodiesAlike (· = ·) first second) : first = second := by
  obtain ⟨items, others, given, otherGiven, rfl⟩ := bodies.messages
  exact bodies.same.eq bodies.distinct (given.trans otherGiven.symm)

end BodiesAlike

namespace Inserts

theorem bodies {copy : Map → Fallible Map} (inserts : Inserts copy)
    {related : List Value → List Value → Prop} {first second firstOut secondOut : Map}
    (alike : BodiesAlike related first second) (done : copy first = .ok firstOut)
    (otherDone : copy second = .ok secondOut) : BodiesAlike related firstOut secondOut := by
  obtain ⟨added, other, copies⟩ := inserts
  rw [copies] at done otherDone
  obtain ⟨members, found, rfl⟩ := map_eq_ok.mp done
  obtain ⟨_, again, rfl⟩ := map_eq_ok.mp otherDone
  obtain rfl := Except.ok.inj (found.symm.trans again)
  have named := other _ found
  clear done otherDone found again copies other
  induction members generalizing first second with
  | nil => exact alike
  | cons member rest ih =>
      exact ih (alike.insert (named _ (List.mem_cons_self ..)) member.2)
        fun later there => named later (List.mem_cons_of_mem _ there)

end Inserts

section Settings

variable (object : Map)

theorem copySettings_bodies {related : List Value → List Value → Prop} {stream : Bool}
    {first second firstOut secondOut : Map} {declared otherDeclared : ServerToolConfig}
    (bodies : BodiesAlike related first second)
    (done : copySettings object stream first = .ok (firstOut, declared))
    (otherDone : copySettings object stream second = .ok (secondOut, otherDeclared)) :
    BodiesAlike related firstOut secondOut := by
  obtain ⟨_, temperature, done⟩ := bind_eq_ok.mp done
  obtain ⟨_, topP, done⟩ := bind_eq_ok.mp done
  obtain ⟨_, topK, done⟩ := bind_eq_ok.mp done
  obtain ⟨_, stop, done⟩ := bind_eq_ok.mp done
  obtain ⟨_, metadata, done⟩ := bind_eq_ok.mp done
  obtain ⟨pair, tools, done⟩ := bind_eq_ok.mp done
  obtain ⟨_, choice, done⟩ := bind_eq_ok.mp done
  obtain ⟨_, config, done⟩ := bind_eq_ok.mp done
  obtain ⟨_, format, done⟩ := bind_eq_ok.mp done
  obtain ⟨_, otherTemperature, otherDone⟩ := bind_eq_ok.mp otherDone
  obtain ⟨_, otherTopP, otherDone⟩ := bind_eq_ok.mp otherDone
  obtain ⟨_, otherTopK, otherDone⟩ := bind_eq_ok.mp otherDone
  obtain ⟨_, otherStop, otherDone⟩ := bind_eq_ok.mp otherDone
  obtain ⟨_, otherMetadata, otherDone⟩ := bind_eq_ok.mp otherDone
  obtain ⟨otherPair, otherTools, otherDone⟩ := bind_eq_ok.mp otherDone
  obtain ⟨_, otherChoice, otherDone⟩ := bind_eq_ok.mp otherDone
  obtain ⟨_, otherConfig, otherDone⟩ := bind_eq_ok.mp otherDone
  obtain ⟨_, otherFormat, otherDone⟩ := bind_eq_ok.mp otherDone
  cases done
  cases otherDone
  have bodies := (copyNumber_inserts object (by decide)).bodies bodies temperature otherTemperature
  have bodies := (copyNumber_inserts object (by decide)).bodies bodies topP otherTopP
  have bodies := (copyPositiveInteger_inserts object (by decide)).bodies bodies topK otherTopK
  have bodies := (copyStopSequences_inserts object).bodies bodies stop otherStop
  have bodies := (copyMetadata_inserts object).bodies bodies metadata otherMetadata
  have bodies := (copyTools_inserts object).bodies bodies (map_eq_ok.mpr ⟨pair, tools, rfl⟩)
    (map_eq_ok.mpr ⟨otherPair, otherTools, rfl⟩)
  have bodies := (copyToolChoice_inserts object).bodies bodies choice otherChoice
  have bodies := (copyOutputConfig_inserts object).bodies bodies config otherConfig
  have bodies := (copyOutputFormat_inserts _).bodies bodies format otherFormat
  split
  next => exact bodies.insert (by decide) _
  next => exact bodies

theorem copySettings_same {other : Map} {related : String → Value → Value → Prop}
    (alike : Map.Alike related object other)
    (only : ∀ name value second, related name value second →
      name = "system" ∨ name = "messages") (stream : Bool) (output : Map) :
    copySettings object stream output = copySettings other stream output :=
  copySettings_congr (fun name notSystem notMessages => alike.get_eq fun value second found =>
    (only name value second found).elim notSystem notMessages) stream output

end Settings

theorem requestMember_silent {name : String} (notSystem : name ≠ "system")
    (notMessages : name ≠ "messages") (value other : Value) : ¬RequestMember name value other := by
  rintro (⟨same, -⟩ | ⟨same, -⟩)
  · exact notSystem same
  · exact notMessages same

section Requests

variable {codec : Codec} {round : Number → Number}

theorem system_variant {fields others : Map} {messages seconds : List WireMessage}
    (alike : Map.Alike RequestMember fields others)
    (done : convertSystemMember fields = .ok messages)
    (otherDone : convertSystemMember others = .ok seconds) :
    List.Forall₂ (WireVariant codec round) messages seconds := by
  have found := alike.get "system"
  rw [convertSystemMember] at done otherDone
  generalize Map.get "system" fields = system, Map.get "system" others = otherSystem
    at found done otherDone
  cases found with
  | none =>
      cases done
      cases otherDone
      exact .nil
  | some same =>
      obtain ⟨content, isContent, rfl⟩ := map_eq_ok.mp done
      obtain ⟨otherContent, otherIsContent, rfl⟩ := map_eq_ok.mp otherDone
      refine .cons ?_ .nil
      rcases same with rfl | ⟨-, variant⟩ | ⟨impossible, -⟩
      · rw [isContent] at otherIsContent
        obtain rfl := Except.ok.inj otherIsContent
        exact .same _
      · exact .system (convertSystem_variant variant isContent otherIsContent)
      · exact absurd impossible (by decide)

theorem inputMessages_variant {fields others : Map} {inputs seconds : List Value}
    (alike : Map.Alike RequestMember fields others)
    (given : fields.get "messages" = some (.array inputs))
    (otherGiven : others.get "messages" = some (.array seconds)) :
    List.Forall₂ MessageVariant inputs seconds := by
  have found := alike.get "messages"
  rw [given, otherGiven] at found
  cases found with
  | some same =>
      rcases same with equal | ⟨impossible, -⟩ | ⟨-, _, _, equal, otherEqual, pairs⟩
      · obtain rfl := Value.array.inj equal
        exact List.forall₂_same.mpr fun _ _ => .inl rfl
      · exact absurd impossible (by decide)
      · obtain rfl := Value.array.inj equal
        obtain rfl := Value.array.inj otherEqual
        exact pairs

variable (codec round) in
/-- What two converted requests have in common. -/
structure ConvertedVariant (converted other : ConvertedRequest)
    (messages seconds : List WireMessage) : Prop where
  bodies : ∃ fields others, converted.body = .object fields ∧ other.body = .object others ∧
    BodiesAlike (fun items others => items = messages.map WireMessage.intoWire ∧
      others = seconds.map WireMessage.intoWire) fields others
  wires : List.Forall₂ (WireVariant codec round) messages seconds
  model : converted.model = other.model
  thinking : converted.thinking = other.thinking
  outputEffort : converted.outputEffort = other.outputEffort

theorem convertRequestValue_variant {first second : Value} {converted other : ConvertedRequest}
    (variant : RequestVariant first second)
    (read : ∀ input ∈ toolInputs first ++ toolInputs second, ReadBack codec round input)
    (done : convertRequestValue codec first = .ok converted)
    (otherDone : convertRequestValue codec second = .ok other) :
    ∃ messages seconds, ConvertedVariant codec round converted other messages seconds := by
  obtain ⟨fields, others, rfl, rfl, alike⟩ := variant
  have same {name : String} (notSystem : name ≠ "system") (notMessages : name ≠ "messages") :
      Map.get name fields = Map.get name others :=
    alike.get_eq (requestMember_silent notSystem notMessages)
  obtain ⟨object, isObject, step⟩ := bind_eq_ok.mp done
  obtain rfl := Option.some.inj (orReject_eq_ok.mp isObject)
  obtain ⟨model, isModel, step⟩ := bind_eq_ok.mp step
  obtain ⟨maxTokens, isMaxTokens, step⟩ := bind_eq_ok.mp step
  obtain ⟨stream, isStream, step⟩ := bind_eq_ok.mp step
  obtain ⟨system, isSystem, step⟩ := bind_eq_ok.mp step
  obtain ⟨inputs, given, step⟩ := bind_eq_ok.mp step
  obtain ⟨messages, isMessages, step⟩ := bind_eq_ok.mp step
  obtain ⟨⟨output, tools⟩, settings, step⟩ := bind_eq_ok.mp step
  obtain ⟨otherObject, otherIsObject, otherStep⟩ := bind_eq_ok.mp otherDone
  obtain rfl := Option.some.inj (orReject_eq_ok.mp otherIsObject)
  obtain ⟨otherModel, otherIsModel, otherStep⟩ := bind_eq_ok.mp otherStep
  obtain ⟨otherMaxTokens, otherIsMaxTokens, otherStep⟩ := bind_eq_ok.mp otherStep
  obtain ⟨otherStream, otherIsStream, otherStep⟩ := bind_eq_ok.mp otherStep
  obtain ⟨otherSystem, otherIsSystem, otherStep⟩ := bind_eq_ok.mp otherStep
  obtain ⟨otherInputs, otherGiven, otherStep⟩ := bind_eq_ok.mp otherStep
  obtain ⟨otherMessages, otherIsMessages, otherStep⟩ := bind_eq_ok.mp otherStep
  obtain ⟨⟨otherOutput, otherTools⟩, otherSettings, otherStep⟩ := bind_eq_ok.mp otherStep
  cases step
  cases otherStep
  have silent := @requestMember_silent
  rw [← requiredString_alike alike (silent (by decide) (by decide)), isModel] at otherIsModel
  rw [← same (by decide) (by decide), isMaxTokens] at otherIsMaxTokens
  rw [optionalBool, ← same (by decide) (by decide), ← optionalBool, isStream] at otherIsStream
  obtain rfl := Except.ok.inj otherIsModel
  obtain rfl := Except.ok.inj otherIsMaxTokens
  obtain rfl := Except.ok.inj otherIsStream
  rw [← copySettings_same fields alike fun name value second found =>
    found.imp And.left And.left] at otherSettings
  obtain ⟨held, found, isArray⟩ := Option.bind_eq_some_iff.mp (orReject_eq_ok.mp given)
  obtain ⟨otherHeld, otherFound, otherIsArray⟩ :=
    Option.bind_eq_some_iff.mp (orReject_eq_ok.mp otherGiven)
  obtain rfl := Value.asArray_eq_some isArray
  obtain rfl := Value.asArray_eq_some otherIsArray
  have all (fields : Map) (inputs : List Value)
      (found : fields.get "messages" = some (.array inputs)) :
      toolInputs (.object fields) = inputs.flatMap messageInputs := by
    rw [Map.get] at found
    rw [toolInputs, inputMessages, Value.get_object, found]
    rfl
  rw [all fields inputs found, all others otherInputs otherFound] at read
  have wires := messages_variant (inputMessages_variant alike found otherFound) read isMessages
    otherIsMessages
  refine ⟨system ++ messages, otherSystem ++ otherMessages, ⟨output, otherOutput, rfl, rfl, ?_⟩,
    List.rel_append (system_variant alike isSystem otherIsSystem) wires, rfl,
    same (by decide) (by decide), ?_⟩
  · refine copySettings_bodies fields ⟨by simp [Map.Distinct], ?_, ?_⟩ settings otherSettings
    · exact .cons ⟨rfl, .inl rfl⟩ (.cons ⟨rfl, .inl rfl⟩ (.cons ⟨rfl, .inl rfl⟩
        (.cons ⟨rfl, .inr rfl⟩ .nil)))
    · exact ⟨_, _, rfl, rfl, rfl, rfl⟩
  · exact congrArg (fun config : Option Value =>
      (config.bind fun config => config.get "effort").bind Value.asStr)
      (same (by decide) (by decide))

theorem BodiesAlike.insertMessages {related into : List Value → List Value → Prop}
    {first second : Map} (bodies : BodiesAlike related first second) {items others : List Value}
    (pairs : into items others) :
    BodiesAlike into (first.insert "messages" (.array items))
      (second.insert "messages" (.array others)) where
  distinct := bodies.distinct.insert _ _
  same := bodies.same.insert _ _
  messages := ⟨items, others, by rw [Map.get_insert, if_pos rfl],
    by rw [Map.get_insert, if_pos rfl], pairs⟩

variable (codec round) in
def PromptsAlike : Map → Map → Prop :=
  BodiesAlike (AlikeBefore isAction (PromptVariant codec round))

variable {fields others : Map}

theorem normalize_bodies {messages seconds : List WireMessage}
    (pairs : List.Forall₂ (WireVariant codec round) messages seconds)
    (historical : ∀ index message other,
      (messages.map WireMessage.intoWire)[index]? = some message →
      (seconds.map WireMessage.intoWire)[index]? = some other →
      message.get "tool_calls" ≠ other.get "tool_calls" →
      ((messages.map WireMessage.intoWire).drop (index + 1)).any isAction = true)
    (bodies : BodiesAlike (fun items others => items = messages.map WireMessage.intoWire ∧
      others = seconds.map WireMessage.intoWire) fields others) :
    PromptsAlike codec round
      (fields.update "messages" (Value.mapArray (List.map normalizeSystemMessage)))
      (others.update "messages" (Value.mapArray (List.map normalizeSystemMessage))) := by
  refine bodies.update ?_
  rintro items others ⟨rfl, rfl⟩
  exact normalized_alike pairs historical

theorem startsNewEpoch_bodies (bodies : PromptsAlike codec round fields others) :
    requestStartsNewEpoch (.object fields) = requestStartsNewEpoch (.object others) := by
  obtain ⟨items, seconds, given, otherGiven, alike⟩ := bodies.messages
  have kept : ∀ message other : Value, PromptVariant codec round message other →
      isUser message = isUser other := fun _ _ => isUser_variant
  have last : items.getLast?.map isUser = seconds.getLast?.map isUser := by
    rw [← List.getLast?_map, ← List.getLast?_map, alike.map_eq kept]
  rw [Map.get] at given otherGiven
  rw [requestStartsNewEpoch, requestStartsNewEpoch, Value.get_object, Value.get_object, given,
    otherGiven]
  exact congrArg (fun found : Option Bool => found.getD false) last

theorem restoreInto_bodies (hash : String → UInt64) (clock : Nat → Clock.Instant)
    (fingerprint : String) (shadow : ReasoningShadowStore)
    (bodies : PromptsAlike codec round fields others) :
    let restored := restoreInto hash clock fingerprint shadow fields
    let otherRestored := restoreInto hash clock fingerprint shadow others
    PromptsAlike codec round restored.1 otherRestored.1 ∧ restored.2 = otherRestored.2 := by
  obtain ⟨items, seconds, given, otherGiven, alike⟩ := bodies.messages
  obtain ⟨restored, left, -⟩ :=
    restored_alike hash clock fingerprint shadow (epochBoundary items) (epochBoundary items) alike
  rw [restoreInto, restoreInto, given, otherGiven]
  simp only [Option.bind_some, Value.asArray_array]
  rw [← epochBoundary_alike alike]
  exact ⟨bodies.insertMessages restored, left⟩

theorem restoreShadow_bodies (path : MessagePath) (thinking : Option Value)
    (session : Option String) (shadow : Option ReasoningShadowStore)
    (bodies : PromptsAlike codec round fields others) :
    ∃ restored seconds left,
      path.restoreShadow thinking session shadow (.object fields) = (.object restored, left) ∧
      path.restoreShadow thinking session shadow (.object others) = (.object seconds, left) ∧
      PromptsAlike codec round restored seconds := by
  unfold MessagePath.restoreShadow
  split
  next _ _ store fingerprint _ =>
    rw [← startsNewEpoch_bodies bodies]
    split
    next => exact ⟨_, _, _, rfl, rfl, bodies⟩
    next =>
      obtain ⟨restored, left⟩ := restoreInto_bodies path.hash path.clock fingerprint store bodies
      dsimp only at restored left ⊢
      rw [← left]
      exact ⟨_, _, _, rfl, rfl, restored⟩
  next => exact ⟨_, _, _, rfl, rfl, bodies⟩

theorem capOutput_bodies (cap : UInt64) (maxTokens : Option UInt64)
    (bodies : PromptsAlike codec round fields others) :
    PromptsAlike codec round (capOutput cap maxTokens fields) (capOutput cap maxTokens others) := by
  cases maxTokens with
  | none => exact bodies.insert (by decide) _
  | some client =>
      exact (bodies.remove (by decide : "max_completion_tokens" ≠ "messages")).insert (by decide) _

theorem stripAndCompact_bodies (glm : Glm53Config)
    (bodies : PromptsAlike codec round fields others) :
    PromptsAlike codec round (stripAndCompact glm fields) (stripAndCompact glm others) := by
  rw [stripAndCompact, stripAndCompact]
  split
  next => exact bodies.update fun _ _ alike => optimizeMessages_alike glm alike
  next => exact bodies

theorem optimizeGlm_bodies {glm : Glm53Config} {thinking : Option Value}
    {outputEffort : Option String} {sent other : Map} {done otherDone : RequestOptimization}
    (bodies : PromptsAlike codec round fields others)
    (accepted : optimizeGlm glm (.anthropic thinking outputEffort) fields = .ok (sent, done))
    (otherAccepted : optimizeGlm glm (.anthropic thinking outputEffort) others =
      .ok (other, otherDone)) : PromptsAlike codec round sent other := by
  have maxTokens : clientMaxTokens others = clientMaxTokens fields := by
    rw [clientMaxTokens, clientMaxTokens, bodies.get_eq (by decide : "max_tokens" ≠ _),
      bodies.get_eq (by decide : "max_completion_tokens" ≠ _)]
  unfold optimizeGlm at accepted otherAccepted
  rw [maxTokens] at otherAccepted
  obtain ⟨policy, resolved, step⟩ := bind_eq_ok.mp accepted
  obtain ⟨_, again, otherStep⟩ := bind_eq_ok.mp otherAccepted
  obtain rfl := Except.ok.inj (resolved.symm.trans again)
  cases step
  cases otherStep
  have explicit := bodies.insert (by decide : "reasoning_effort" ≠ _) (.string policy.effort.asStr)
  have compacted := stripAndCompact_bodies glm
    (capOutput_bodies glm.maxOutputTokens.toUInt64 (clientMaxTokens fields) explicit)
  split
  next => exact compacted.remove (by decide)
  next => exact compacted

theorem optimizeRequest_bodies {glm : Glm53Config} {thinking : Option Value}
    {outputEffort : Option String} {sent other : Value} {done otherDone : RequestOptimization}
    (bodies : PromptsAlike codec round fields others)
    (accepted : optimizeRequest glm (.anthropic thinking outputEffort) (.object fields) =
      .ok (sent, done))
    (otherAccepted : optimizeRequest glm (.anthropic thinking outputEffort) (.object others) =
      .ok (other, otherDone)) :
    ∃ fields others, sent = .object fields ∧ other = .object others ∧
      PromptsAlike codec round fields others := by
  have model := bodies.get_eq (by decide : "model" ≠ _)
  rw [optimizeRequest] at accepted otherAccepted
  simp only [Value.asObject_object] at accepted otherAccepted
  rw [← model] at otherAccepted
  split at accepted
  next glmModel =>
    rw [glmModel] at otherAccepted
    obtain ⟨⟨result, _⟩, optimized, equal⟩ := map_eq_ok.mp accepted
    obtain ⟨⟨otherResult, _⟩, otherOptimized, otherEqual⟩ := map_eq_ok.mp otherAccepted
    cases equal
    cases otherEqual
    exact ⟨result, otherResult, rfl, rfl, optimizeGlm_bodies bodies optimized otherOptimized⟩
  next generic =>
    rw [generic] at otherAccepted
    cases accepted
    cases otherAccepted
    exact ⟨_, _, rfl, rfl, bodies⟩

end Requests

theorem sessionRawId_variant {first second : Value} (variant : RequestVariant first second) :
    sessionRawId first = sessionRawId second := by
  obtain ⟨fields, others, rfl, rfl, alike⟩ := variant
  rw [sessionRawId, sessionRawId,
    get_alike alike (requestMember_silent (by decide) (by decide))]

theorem anthropicPrompt_body {codec : Codec} {path : MessagePath}
    {shadow left : Option ReasoningShadowStore} {input : Value} {converted sent : ConvertedRequest}
    (strips : path.config.glm53.context.stripVolatileBillingHeader = true)
    (canonical : path.config.glm53.context.canonicalToolJson = true)
    (converts : convertRequestValue codec input = .ok converted)
    (accepted : path.anthropicPrompt codec shadow input = .ok (sent, left)) :
    let model := path.config.resolveModel converted.model
    let named := converted.body.mapObject (Map.insert "model" (.string model))
    let restored := path.restoreShadow converted.thinking
      ((sessionRawId input).map path.fingerprint) shadow (normalizeSystemMessages named)
    ∃ optimized optimization, optimizeRequest path.config.glm53
        (.anthropic converted.thinking converted.outputEffort) restored.1 =
          .ok (optimized, optimization) ∧
      sent.body = optimized.mapObject (canonicalizeToolArguments codec) := by
  dsimp only
  unfold MessagePath.anthropicPrompt at accepted
  obtain ⟨done, optimizes, same⟩ := map_eq_ok.mp accepted
  unfold MessagePath.anthropicOptimized at optimizes
  rw [converts] at optimizes
  simp only [bind, Except.bind, strips, canonical, if_true, MessagePath.applyModel] at optimizes
  split at optimizes
  next => cases optimizes
  next optimized optimization policy =>
    cases optimizes
    cases same
    exact ⟨optimized, optimization, policy, rfl⟩

/-- The body that goes upstream, and what its prefix hash is taken of, for two requests that differ
in the text of billing headers and the order of the members of historical tool inputs. -/
theorem volatile_details_stripped {codec : Codec} {round : Number → Number} {path : MessagePath}
    {shadow left right : Option ReasoningShadowStore} {first second : Value}
    {converted otherConverted sent other : ConvertedRequest}
    (strips : path.config.glm53.context.stripVolatileBillingHeader = true)
    (canonical : path.config.glm53.context.canonicalToolJson = true)
    (variant : RequestVariant first second)
    (read : ∀ input ∈ toolInputs first ++ toolInputs second, ReadBack codec round input)
    (converts : convertRequestValue codec first = .ok converted)
    (otherConverts : convertRequestValue codec second = .ok otherConverted)
    (historical : ∀ index message other, (inputMessages converted.body)[index]? = some message →
      (inputMessages otherConverted.body)[index]? = some other →
      message.get "tool_calls" ≠ other.get "tool_calls" →
      ((inputMessages converted.body).drop (index + 1)).any isAction = true)
    (accepted : path.anthropicPrompt codec shadow first = .ok (sent, left))
    (otherAccepted : path.anthropicPrompt codec shadow second = .ok (other, right)) :
    sent.body = other.body ∧ codec.toText sent.body = codec.toText other.body ∧
      sent.body.asObject.map (stablePrefix codec) =
        other.body.asObject.map (stablePrefix codec) := by
  suffices same : sent.body = other.body by
    rw [same]
    exact ⟨rfl, rfl, rfl⟩
  obtain ⟨messages, seconds, wires⟩ :=
    convertRequestValue_variant variant read converts otherConverts
  obtain ⟨fields, others, shape, otherShape, bodies⟩ := wires.bodies
  have sentMessages : inputMessages converted.body = messages.map WireMessage.intoWire ∧
      inputMessages otherConverted.body = seconds.map WireMessage.intoWire := by
    obtain ⟨items, otherItems, given, otherGiven, rfl, rfl⟩ := bodies.messages
    rw [Map.get] at given otherGiven
    rw [shape, otherShape, inputMessages, inputMessages, Value.get_object, Value.get_object, given,
      otherGiven]
    exact ⟨rfl, rfl⟩
  rw [sentMessages.1, sentMessages.2] at historical
  have named := bodies.insert (by decide : "model" ≠ "messages")
    (.string (path.config.resolveModel converted.model))
  have normalized := normalize_bodies wires.wires historical named
  obtain ⟨optimized, _, policy, body⟩ := anthropicPrompt_body strips canonical converts accepted
  obtain ⟨otherOptimized, _, otherPolicy, otherBody⟩ :=
    anthropicPrompt_body strips canonical otherConverts otherAccepted
  rw [shape] at policy
  rw [otherShape, ← sessionRawId_variant variant, ← wires.thinking, ← wires.outputEffort,
    ← wires.model] at otherPolicy
  obtain ⟨restored, otherRestored, _, isRestored, otherIsRestored, restoredBodies⟩ :=
    restoreShadow_bodies path converted.thinking ((sessionRawId first).map path.fingerprint) shadow
      normalized
  change optimizeRequest _ _ (path.restoreShadow _ _ _ (.object _)).1 = _ at policy otherPolicy
  rw [isRestored] at policy
  rw [otherIsRestored] at otherPolicy
  obtain ⟨result, otherResult, rfl, rfl, optimizedBodies⟩ :=
    optimizeRequest_bodies restoredBodies policy otherPolicy
  rw [body, otherBody]
  exact congrArg Value.object (optimizedBodies.update fun _ _ => canonicalizeMessages_alike).eq

def billedRequest (header : String) (input : Value) : Value :=
  .object [("model", .string "glm"), ("max_tokens", .ofNat 64),
    ("system", .string ("x-anthropic-billing-header:" ++ header ++ "\nhelp")),
    ("messages", .array [message "user" (.string "hi"),
      message "assistant" (.array [.object [("type", .string "tool_use"), ("id", .string "c1"),
        ("name", .string "f"), ("input", input)]]),
      message "user" (.array [toolResultBlock "c1"])])]

def sortedArguments : Value := .object [("a", .ofNat 2), ("b", .ofNat 1)]

def billedCodec : Codec := documentCodec [looseArguments, sortedArguments]

def billedPath : MessagePath := ⟨plainConfig true, true, id, fun _ => 0, fun _ => 0⟩

theorem billedRequest_variant :
    RequestVariant (billedRequest " a" looseArguments) (billedRequest " bc" sortedArguments) := by
  refine ⟨_, _, rfl, rfl, .cons ⟨rfl, .inl rfl⟩ (.cons ⟨rfl, .inl rfl⟩ (.cons ⟨rfl, .inr ?_⟩
    (.cons ⟨rfl, .inr ?_⟩ .nil)))⟩
  · have unbroken : ((" a".toList ++ " bc".toList).all fun character => !isLineBreak character) =
        true := by decide +kernel
    have broken : "\nhelp".toList.head? = some '\n' := by decide +kernel
    refine .inl ⟨rfl, .inl ⟨_, _, rfl, rfl, " a".toList, " bc".toList, "\nhelp".toList,
      by decide +kernel, by decide +kernel, fun character member => ?_, ?_⟩⟩
    · simpa using List.all_eq_true.mp unbroken character member
    · rw [broken]
      rintro character ⟨⟩
      rfl
  · have moved : Reordered looseArguments sortedArguments :=
      .object (.cons _ (.same _) (.cons _ (.same _) .nil)) (.swap _ _ _)
    refine .inr ⟨rfl, _, _, rfl, rfl, .cons (.inl rfl) (.cons (.inr (.inr ⟨rfl, _, _, rfl, rfl, ?_⟩))
      (.cons (.inl rfl) .nil))⟩
    refine .cons ⟨rfl, .inl rfl⟩ (.cons ⟨rfl, .inr ⟨rfl, _, _, rfl, rfl, .cons (.inr ⟨rfl, _, _,
      rfl, rfl, ?_⟩) .nil⟩⟩ .nil)
    exact .cons ⟨rfl, .inl rfl⟩ (.cons ⟨rfl, .inl rfl⟩ (.cons ⟨rfl, .inl rfl⟩
      (.cons ⟨rfl, .inr ⟨rfl, moved⟩⟩ .nil)))

theorem billed_read {input : Value} (member : input ∈ [looseArguments, sortedArguments]) :
    ReadBack billedCodec id input := by
  have found (text : String) : billedCodec.fromStr text =
      [looseArguments, sortedArguments].find? fun value => value.render = textBytes text := rfl
  simp only [List.mem_cons, List.not_mem_nil, or_false] at member
  rcases member with rfl | rfl
  · have own : looseArguments.render = textBytes (billedCodec.toText looseArguments) := by
      decide +kernel
    refine ⟨⟨by simp [Map.Distinct], trivial, trivial, trivial⟩, ?_⟩
    simp only [found, List.find?_cons, own, decide_true]
    rfl
  · have own : sortedArguments.render = textBytes (billedCodec.toText sortedArguments) := by
      decide +kernel
    have other : decide (looseArguments.render =
        textBytes (billedCodec.toText sortedArguments)) = false := by decide +kernel
    refine ⟨⟨by simp [Map.Distinct], trivial, trivial, trivial⟩, ?_⟩
    simp only [found, List.find?_cons, other, own, decide_true]
    rfl

theorem volatile_details_stripped_billed : ∃ sent other left right,
    billedPath.anthropicPrompt billedCodec none (billedRequest " a" looseArguments) =
        .ok (sent, left) ∧
      billedPath.anthropicPrompt billedCodec none (billedRequest " bc" sortedArguments) =
        .ok (other, right) ∧ sent.body = other.body := by
  obtain ⟨⟨sent, left⟩, accepted⟩ := ok_of_isOk (by decide +kernel :
    (billedPath.anthropicPrompt billedCodec none (billedRequest " a" looseArguments)).isOk = true)
  obtain ⟨⟨other, right⟩, otherAccepted⟩ := ok_of_isOk (by decide +kernel :
    (billedPath.anthropicPrompt billedCodec none (billedRequest " bc" sortedArguments)).isOk = true)
  refine ⟨sent, other, left, right, accepted, otherAccepted, (volatile_details_stripped rfl rfl
    billedRequest_variant (fun _ => billed_read) rfl rfl ?_ accepted otherAccepted).1⟩
  intro index message other given otherGiven differs
  match index with
  | 0 | 1 | 2 => rfl
  | 3 =>
      obtain rfl := Option.some.inj given
      obtain rfl := Option.some.inj otherGiven
      exact absurd rfl differs
  | index + 4 => cases given

end ClineProxy
