import ClineProxy.GuardedDispatch
import ClineProxy.LoopCommits
import ClineProxy.ShadowRestores

/-!
The shadow store makes hiding the thinking invisible upstream: what is sent for a tool loop of a
client that is not shown the thinking is what is sent for one that sends all of it back.
-/

namespace ClineProxy

open Json Clock ReasoningShadowStore

def MessagePath.sentMessages (path : MessagePath) (codec : Codec) (model : String)
    (messages : Value) : Value :=
  let policed :=
    if ModelFamily.fromUpstreamModel model = .glm53 ∧
        (path.config.glm53.reasoning.stripHistoricalThinking ||
          path.config.glm53.context.safeCompaction) = true then
      messages.mapArray (optimizeMessages path.config.glm53)
    else messages
  if path.config.glm53.context.canonicalToolJson then
    policed.mapArray (canonicalizeMessages codec)
  else policed

theorem messages_optimizeRequest {glm : Glm53Config} {origin : Origin} {restored optimized : Map}
    {done : RequestOptimization} {model : String} (distinct : restored.Distinct)
    (named : restored.get "model" = some (.string model))
    (policy : optimizeRequest glm origin (.object restored) = .ok (.object optimized, done)) :
    optimized.get "messages" = (restored.get "messages").map fun messages =>
      if ModelFamily.fromUpstreamModel model = .glm53 ∧
          (glm.reasoning.stripHistoricalThinking || glm.context.safeCompaction) = true then
        messages.mapArray (optimizeMessages glm)
      else messages := by
  have whole (held : Option Value) : held.map (fun messages : Value => messages) = held := by
    cases held <;> rfl
  cases family : ModelFamily.fromUpstreamModel model with
  | glm53 =>
      have glmBody : IsGlm restored := by
        rw [IsGlm, named]
        exact family
      rw [optimizeRequest_glm glmBody, optimizeGlm_eq] at policy
      obtain ⟨⟨sent, _⟩, policed, same⟩ := map_eq_ok.mp policy
      cases same
      obtain ⟨resolved, -, policed⟩ := map_eq_ok.mp policed
      cases policed
      rw [get_policyBody distinct _ (by decide)]
      by_cases passes : (glm.reasoning.stripHistoricalThinking || glm.context.safeCompaction) = true
      · simp only [passes, and_self, if_true]
      · simp [passes]
  | genericOpenAi =>
      rw [optimizeRequest_generic named family] at policy
      cases policy
      simp

section Path

variable {path : MessagePath} {codec : Codec} {shadow left : Option ReasoningShadowStore}
  {input : Value} {prompt : Dispatch}

theorem sessionRawId_requestWith (object : Map) (messages : List Value) :
    sessionRawId (requestWith object messages) = sessionRawId (.object object) := by
  have metadata : (requestWith object messages).get "metadata" =
      (Value.object object).get "metadata" :=
    (Map.get_insert _ _ _ object).trans (if_neg (by decide))
  rw [sessionRawId, metadata, sessionRawId]

theorem anthropicDispatch_model
    (accepted : path.anthropicDispatch codec shadow input = .ok (prompt, left)) :
    ∃ model, (input.get "model").bind Value.asStr = some model ∧
      prompt.converted.model = path.config.resolveModel model := by
  obtain ⟨⟨converted, optimization, _⟩, optimizes, done⟩ := bind_eq_ok.mp accepted
  cases done
  obtain ⟨requested, made, optimizes⟩ := bind_eq_ok.mp optimizes
  have named : (input.get "model").bind Value.asStr = some requested.model := by
    obtain ⟨object, isObject, made⟩ := bind_eq_ok.mp made
    obtain ⟨model, isModel, made⟩ := bind_eq_ok.mp made
    obtain ⟨_, -, made⟩ := bind_eq_ok.mp made
    obtain ⟨_, -, made⟩ := bind_eq_ok.mp made
    obtain ⟨_, -, made⟩ := bind_eq_ok.mp made
    obtain ⟨_, -, made⟩ := bind_eq_ok.mp made
    obtain ⟨_, -, made⟩ := bind_eq_ok.mp made
    obtain ⟨_, -, made⟩ := bind_eq_ok.mp made
    cases made
    obtain rfl := Value.asObject_eq_some (orReject_eq_ok.mp isObject)
    exact (requiredString_eq_ok.mp isModel).1
  refine ⟨requested.model, named, ?_⟩
  have kept : (asStreaming converted).model = converted.model := by
    rw [asStreaming]
    split <;> rfl
  refine kept.trans ?_
  dsimp only at optimizes
  generalize optimizeRequest path.config.glm53 _ _ = policy at optimizes
  cases policy with
  | error => cases optimizes
  | ok passed =>
      cases optimizes
      rfl

theorem anthropicDispatch_messages
    (accepted : path.anthropicDispatch codec shadow input = .ok (prompt, left)) :
    ∃ (requested : ConvertedRequest) (fields restored : Map),
      convertRequestValue codec input = .ok requested ∧
      fields.get "messages" = (requested.body.get "messages").map path.normalizedMessages ∧
      (path.restoreShadow requested.thinking ((sessionRawId input).map path.fingerprint) shadow
        (.object fields)).1 = .object restored ∧
      prompt.converted.body.get "messages" =
        (restored.get "messages").map (path.sentMessages codec prompt.converted.model) := by
  obtain ⟨⟨converted, optimization, _⟩, optimizes, done⟩ := bind_eq_ok.mp accepted
  cases done
  obtain ⟨requested, fields, restored, optimized, made, messages, restores, distinct, model, -,
    policy, body⟩ := anthropicOptimized_stages optimizes
  refine ⟨requested, fields, restored, made, messages, restores, ?_⟩
  have named : (asStreaming converted).model = converted.model := by
    rw [asStreaming]
    split <;> rfl
  have policed := messages_optimizeRequest distinct model policy
  rw [get_asStreaming (by decide) (by decide), body, Value.get_object]
  change _ = (restored.get "messages").map (path.sentMessages codec (asStreaming converted).model)
  rw [named]
  by_cases canonical : path.config.glm53.context.canonicalToolJson = true
  · rw [if_pos canonical, canonicalizeToolArguments]
    refine ((Map.get_update _ _ _ _).trans (if_pos rfl)).trans ?_
    rw [policed, Option.map_map]
    refine congrArg (fun change => (restored.get "messages").map change) (funext fun held => ?_)
    rw [MessagePath.sentMessages, if_pos canonical]
    rfl
  · rw [if_neg canonical]
    refine policed.trans ?_
    refine congrArg (fun change => (restored.get "messages").map change) (funext fun held => ?_)
    rw [MessagePath.sentMessages, if_neg canonical]

theorem isUser_normalizeSystemMessage (message : Value) :
    isUser (normalizeSystemMessage message) = isUser message := by
  rw [normalizeSystemMessage]
  split
  next =>
    have other : ("role" : String) ≠ "content" := by decide
    refine isUser_congr ?_
    cases message with
    | object fields =>
        exact congrArg (fun held => held.bind Value.asStr)
          ((Map.get_update "content" "role" _ fields).trans (if_neg other))
    | null | bool | number | string | array => rfl
  next => rfl

theorem normalizeSystemMessage_loop {turns : List LoopTurn} {exposeThinking : Bool}
    {message : Value} (member : message ∈ loopWire codec exposeThinking turns) :
    normalizeSystemMessage message = message := by
  obtain ⟨wire, listed, rfl⟩ := List.mem_map.mp member
  obtain ⟨turn, -, inside⟩ := List.mem_flatMap.mp listed
  have other : role wire.intoWire ≠ some "system" := by
    rcases List.mem_cons.mp inside with rfl | result
    · simp [role, LoopTurn.spoken, WireMessage.intoWire, OrderedMap.lookup]
    · obtain ⟨answer, -, rfl⟩ := List.mem_map.mp result
      simp [role, ToolAnswer.message, WireMessage.intoWire, OrderedMap.lookup]
  rw [normalizeSystemMessage, if_neg other]

theorem normalizedMessages_loop (path : MessagePath) (codec : Codec) {before : List Value}
    {last : Value} (user : isUser last = true) :
    ∃ others other, others.length = before.length ∧ isUser other = true ∧
      ∀ exposeThinking turns, path.normalizedMessages
          (.array (before ++ [last] ++ loopWire codec exposeThinking turns)) =
        .array (others ++ [other] ++ loopWire codec exposeThinking turns) := by
  by_cases strips : path.config.glm53.context.stripVolatileBillingHeader = true
  · refine ⟨before.map normalizeSystemMessage, normalizeSystemMessage last, List.length_map .., ?_,
      fun exposeThinking turns => ?_⟩
    · rw [isUser_normalizeSystemMessage]
      exact user
    · have same : (loopWire codec exposeThinking turns).map normalizeSystemMessage =
          loopWire codec exposeThinking turns :=
        (List.map_congr_left fun _ member => normalizeSystemMessage_loop member).trans
          (List.map_id' _)
      rw [MessagePath.normalizedMessages, if_pos strips, Value.mapArray, List.map_append,
        List.map_append, same, List.map_singleton]
  · exact ⟨before, last, rfl, user, fun _ _ => if_neg strips⟩

theorem newest_loop {turns : List LoopTurn} {before : List Value} {last : Value}
    {exposeThinking : Bool} (user : isUser last = true) :
    ((before ++ [last] ++ loopWire codec exposeThinking turns).getLast?.map isUser).getD false =
      (loopWire codec exposeThinking turns).isEmpty := by
  rcases List.eq_nil_or_concat (loopWire codec exposeThinking turns) with
    none_ | ⟨rest, newest, ends⟩
  · rw [none_, List.append_nil, List.getLast?_concat]
    exact user
  · rw [List.concat_eq_append] at ends
    have other : isUser newest = false := @isUser_loopWire codec turns exposeThinking newest
      (ends ▸ List.mem_append_right _ (List.mem_singleton_self newest))
    rw [ends, ← List.append_assoc, List.getLast?_concat, Option.map_some, other]
    simp

theorem isEmpty_loopWire {turns : List LoopTurn} {exposeThinking : Bool} :
    (loopWire codec exposeThinking turns).isEmpty = turns.isEmpty := by
  cases turns with
  | nil => rfl
  | cons turn rest => rfl

/-- A client that is not shown the thinking gets it back. -/
theorem restoreShadow_hidden {turns : List LoopTurn} {fields restored : Map}
    {others : List Value} {other : Value} {thinking : Option Value} {fingerprint : String}
    {store : ReasoningShadowStore} (user : isUser other = true)
    (called : ∀ turn ∈ turns, turn.calls ≠ [])
    (remembers : Remembers path.hash fingerprint path.clock turns store)
    (hides : path.shadowEligible thinking = true)
    (messages : fields.get "messages" =
      some (.array (others ++ [other] ++ loopWire codec false turns)))
    (restores : (path.restoreShadow thinking (some fingerprint) (some store) (.object fields)).1 =
      .object restored) :
    restored.get "messages" =
      some (.array (others ++ [other] ++ loopWire codec true turns)) := by
  have newest : requestStartsNewEpoch (.object fields) = turns.isEmpty := by
    have held : ((Value.object fields).get "messages").bind Value.asArray =
        some (others ++ [other] ++ loopWire codec false turns) := by
      rw [Value.get_object]
      exact congrArg (fun held => held.bind Value.asArray) messages
    rw [requestStartsNewEpoch, held]
    exact (newest_loop user).trans isEmpty_loopWire
  have given : ((some store).filter fun _ => path.shadowEligible thinking) = some store := by
    rw [hides]
    rfl
  unfold MessagePath.restoreShadow at restores
  rw [given] at restores
  dsimp only at restores
  rw [newest] at restores
  cases turns with
  | nil =>
      cases restores
      exact messages
  | cons turn rest =>
      have made := @restoreInto_messages path.hash fingerprint path.clock store fields _ messages
      rw [restoredMessages_loop user called remembers] at made
      have same : (restoreInto path.hash path.clock fingerprint store fields).1 = restored :=
        Value.object.inj restores
      rw [← same, made]
      exact (Map.get_insert _ _ _ fields).trans (if_pos rfl)

theorem restoreShadow_shown {fields : Map} {thinking : Option Value} {session : Option String}
    (shows : path.shadowEligible thinking = false) :
    (path.restoreShadow thinking session shadow (.object fields)).1 = .object fields := by
  have none_ : (shadow.filter fun _ => path.shadowEligible thinking) = none := by
    rw [shows]
    cases shadow <;> rfl
  unfold MessagePath.restoreShadow
  rw [none_]

def keptReasoning (message : Value) : Option String :=
  (message.get "reasoning_content").bind Value.asStr

theorem mapIdx_reasoning (pass : Nat → Value → Value) (front tail : List Value)
    (kept : ∀ index, front.length ≤ index → ∀ message ∈ tail,
      keptReasoning (pass index message) = keptReasoning message) :
    ∃ others later, (front ++ tail).mapIdx pass = others ++ later ∧
      others.length = front.length ∧ later.map keptReasoning = tail.map keptReasoning := by
  refine ⟨_, _, List.mapIdx_append, List.length_mapIdx, ?_⟩
  refine List.ext_getElem? fun index => ?_
  rw [List.getElem?_map, List.getElem?_map, List.getElem?_mapIdx]
  cases found : tail[index]? with
  | none => rfl
  | some message =>
      exact congrArg some (kept _ (Nat.le_add_left _ _) message (List.mem_of_getElem? found))

theorem reasoning_canonicalizeMessage (codec : Codec) (lastAction index : Nat) (message : Value) :
    keptReasoning (canonicalizeMessage codec lastAction index message) = keptReasoning message := by
  rw [canonicalizeMessage]
  split
  next =>
    have other : ("reasoning_content" : String) ≠ "tool_calls" := by decide
    cases message with
    | object fields =>
        exact congrArg (fun held => held.bind Value.asStr)
          ((Map.get_update "tool_calls" "reasoning_content" _ fields).trans (if_neg other))
    | null | bool | number | string | array => rfl
  next => rfl

theorem reasoning_canonicalizeMessages (codec : Codec) (front tail : List Value) :
    ∃ others later, canonicalizeMessages codec (front ++ tail) = others ++ later ∧
      others.length = front.length ∧ later.map keptReasoning = tail.map keptReasoning := by
  rw [canonicalizeMessages]
  split
  next => exact ⟨front, tail, rfl, rfl, rfl⟩
  next lastAction _ =>
    exact mapIdx_reasoning (canonicalizeMessage codec lastAction) front tail
      fun index _ message _ => reasoning_canonicalizeMessage codec lastAction index message

theorem reasoning_kept (glm : Glm53Config) {boundary index : Nat} {message : Value}
    (stays : strips glm boundary index message = false) :
    keptReasoning (optimizeMessage glm boundary index message) = keptReasoning message := by
  cases message with
  | object fields =>
      have same : stripped glm boundary index fields = fields := by
        rw [stripped, stays, if_neg Bool.false_ne_true]
      have other : "reasoning_content" ≠ "content" := by decide
      rw [optimizeMessage_object, same]
      split
      next => exact congrArg (fun held => held.bind Value.asStr) (get_compactContent other)
      next => rfl
  | null | bool | number | string | array => rfl

theorem reasoning_optimizeMessages (glm : Glm53Config) {turns : List LoopTurn}
    {others : List Value} {other : Value} (user : isUser other = true) :
    ∃ front later, optimizeMessages glm (others ++ [other] ++ loopWire codec true turns) =
        front ++ later ∧ front.length = (others ++ [other]).length ∧
      later.map keptReasoning = (loopWire codec true turns).map keptReasoning := by
  rw [optimizeMessages, epochBoundary_loop user]
  refine mapIdx_reasoning _ _ _ fun index behind message _ => reasoning_kept glm ?_
  rw [List.length_append, List.length_singleton] at behind
  have early : decide (index < others.length) = false := by
    rw [decide_eq_false_iff_not]
    omega
  rw [strips, early, Bool.and_false]

theorem reasoning_sentMessages (path : MessagePath) (codec : Codec) (model : String)
    {turns : List LoopTurn} {others : List Value} {other : Value} (user : isUser other = true) :
    ∃ front later, path.sentMessages codec model
          (.array (others ++ [other] ++ loopWire codec true turns)) = .array (front ++ later) ∧
      front.length = (others ++ [other]).length ∧
      later.map keptReasoning = (loopWire codec true turns).map keptReasoning := by
  have policed : ∃ front later, (if ModelFamily.fromUpstreamModel model = .glm53 ∧
        (path.config.glm53.reasoning.stripHistoricalThinking ||
          path.config.glm53.context.safeCompaction) = true then
      (Value.array (others ++ [other] ++ loopWire codec true turns)).mapArray
        (optimizeMessages path.config.glm53)
      else .array (others ++ [other] ++ loopWire codec true turns)) = .array (front ++ later) ∧
      front.length = (others ++ [other]).length ∧
      later.map keptReasoning = (loopWire codec true turns).map keptReasoning := by
    split
    next =>
      obtain ⟨front, later, parts, length, same⟩ :=
        reasoning_optimizeMessages path.config.glm53 user
      exact ⟨front, later, congrArg Value.array parts, length, same⟩
    next => exact ⟨_, _, rfl, rfl, rfl⟩
  obtain ⟨front, later, parts, length, same⟩ := policed
  rw [MessagePath.sentMessages, parts]
  split
  next =>
    obtain ⟨front', later', parts', length', same'⟩ :=
      reasoning_canonicalizeMessages codec front later
    exact ⟨front', later', congrArg Value.array parts', length'.trans length, same'.trans same⟩
  next => exact ⟨front, later, rfl, length, same⟩

theorem reasoning_loopWire (codec : Codec) (turns : List LoopTurn) :
    (loopWire codec true turns).filterMap keptReasoning =
      (turns.map LoopTurn.reasoning).filter fun reasoning => reasoning ≠ "" := by
  induction turns with
  | nil => rfl
  | cons turn rest ih =>
      have answers : ((turn.answers.map ToolAnswer.message).map WireMessage.intoWire).filterMap
          keptReasoning = [] := by
        rw [List.map_map, List.filterMap_map, List.filterMap_eq_nil_iff]
        intro answer _
        simp [keptReasoning, ToolAnswer.message]
      have first : keptReasoning (turn.spoken codec true).intoWire =
          if turn.reasoning = "" then none else some turn.reasoning := by
        rw [keptReasoning, LoopTurn.spoken, reasoning_sent_assistant, shownReasoning, if_pos rfl]
        simp only [String.isEmpty_iff]
        rfl
      rw [loopWire, List.flatMap_cons, List.map_append, ← loopWire, List.filterMap_append, ih,
        LoopTurn.wire, List.map_cons, List.filterMap_cons, first, answers, List.map_cons,
        List.filter_cons]
      by_cases silent : turn.reasoning = ""
      · simp [silent]
      · simp [silent]

end Path

/-- Every turn is answered, both clients hold its answer, and no two calls are taken for one. -/
structure ToolLoop (path : MessagePath) (platform : Platform) (limits : ShadowLimits)
    (turns : List LoopTurn) : Prop where
  answered : ∀ turn ∈ turns, turn.Answered platform.codec
  hidden : ∀ turn ∈ turns, turn.Holds platform false
  shown : ∀ turn ∈ turns, turn.Holds platform true
  small : ∀ turn ∈ turns, turn.reasoning.utf8ByteSize ≤ limits.maxEntryBytes
  distinct : (turns.flatMap LoopTurn.ids).Nodup
  injective : Set.InjOn path.hash {id | id ∈ turns.flatMap LoopTurn.ids}

/-- The request of a client that is shown the thinking, or is not, behind the turns. -/
def loopRequest (codec : Codec) (exposeThinking : Bool) (object : Map) (history : List Value)
    (turns : List LoopTurn) : Value :=
  requestWith object (history ++ turns.flatMap (LoopTurn.replayed codec exposeThinking))

theorem userMessage_of_newEpoch {base : ConvertedRequest}
    (epoch : requestStartsNewEpoch base.body = true) :
    ∃ before last, bodyMessages base = before ++ [last] ∧ isUser last = true := by
  rw [requestStartsNewEpoch] at epoch
  rw [bodyMessages]
  cases listed : (base.body.get "messages").bind Value.asArray with
  | none =>
      rw [listed] at epoch
      cases epoch
  | some messages =>
      rw [listed] at epoch
      rcases List.eq_nil_or_concat messages with rfl | ⟨before, last, rfl⟩
      · cases epoch
      · rw [List.concat_eq_append] at epoch ⊢
        dsimp only at epoch
        rw [List.getLast?_concat] at epoch
        exact ⟨before, last, rfl, epoch⟩

section Loop

variable {path : MessagePath} {platform : Platform} {limits : ShadowLimits} {ttl : Duration}
  {turns : List LoopTurn} {fingerprint : String} {oldest : Instant} {events : List ShadowEvent}
  {run : ShadowRun} {plain thinking : Map} {history : List Value} {base : ConvertedRequest}
  {hidden shown : Dispatch} {shadow left other : Option ReasoningShadowStore}

theorem dispatched_loop {exposeThinking : Bool} {object : Map} {prompt : Dispatch}
    {others : List Value} {user : Value}
    (loop : ToolLoop path platform limits turns)
    (opened : convertRequestValue platform.codec (requestWith plain history) = .ok base)
    (system : object.get "system" = plain.get "system")
    (normalized : path.normalizedMessages (.array (bodyMessages base ++
        loopWire platform.codec exposeThinking turns)) =
      .array (others ++ [user] ++ loopWire platform.codec exposeThinking turns))
    (holds : ∀ turn ∈ turns, turn.Holds platform exposeThinking)
    (returned : ∀ fields restored : Map, fields.get "messages" =
        some (.array (others ++ [user] ++ loopWire platform.codec exposeThinking turns)) →
      (path.restoreShadow (object.get "thinking")
        ((sessionRawId (.object object)).map path.fingerprint) shadow (.object fields)).1 =
          .object restored →
      restored.get "messages" =
        some (.array (others ++ [user] ++ loopWire platform.codec true turns)))
    (sent : path.anthropicDispatch platform.codec shadow
      (loopRequest platform.codec exposeThinking object history turns) = .ok (prompt, left)) :
    prompt.converted.body.get "messages" = some (path.sentMessages platform.codec
      prompt.converted.model
      (.array (others ++ [user] ++ loopWire platform.codec true turns))) := by
  obtain ⟨requested, fields, restored, made, messages, restores, body⟩ :=
    anthropicDispatch_messages sent
  obtain ⟨_, _, -, -, -, -, asked, -⟩ := convertRequestValue_object made
  rw [messages_loop opened system loop.answered holds made, Option.map_some, normalized] at messages
  rw [loopRequest, sessionRawId_requestWith, asked,
    (Map.get_insert _ _ _ object).trans (if_neg (by decide))] at restores
  rw [body, returned fields restored messages restores, Option.map_some]

/-- Along a tool loop, what is sent for a client that is not shown the thinking is what is sent for
one that is: the history of the loop, and behind it every turn with its reasoning. -/
theorem hidden_reasoning_returns (loop : ToolLoop path platform limits turns)
    (commits : LoopCommits fingerprint oldest turns events)
    (ran : (shadowStore path.hash limits ttl).runFrom (.start ttl) events = some run)
    (kept : ∀ id ∈ turns.flatMap LoopTurn.ids,
      ¬EvictedSince path.hash limits ttl events fingerprint id)
    (later : ∀ index, run.clock ≤ path.clock index)
    (fresh : ∀ index, path.clock index - oldest ≤ ttl)
    (opened : convertRequestValue platform.codec (requestWith plain history) = .ok base)
    (epoch : requestStartsNewEpoch base.body = true)
    (session : (sessionRawId (.object plain)).map path.fingerprint = some fingerprint)
    (hides : path.shadowEligible (plain.get "thinking") = true)
    (shows : path.shadowEligible (thinking.get "thinking") = false)
    (system : thinking.get "system" = plain.get "system")
    (model : thinking.get "model" = plain.get "model")
    (hiddenSent : path.anthropicDispatch platform.codec (some run.shadow)
      (loopRequest platform.codec false plain history turns) = .ok (hidden, left))
    (shownSent : path.anthropicDispatch platform.codec shadow
      (loopRequest platform.codec true thinking history turns) = .ok (shown, other)) :
    ∃ front behind, front.length = (bodyMessages base).length ∧
      hidden.converted.body.get "messages" = some (.array (front ++ behind)) ∧
      shown.converted.body.get "messages" = some (.array (front ++ behind)) ∧
      behind.filterMap keptReasoning =
        (turns.map LoopTurn.reasoning).filter fun reasoning => reasoning ≠ "" := by
  have remembers := commits.remembers loop.answered loop.small loop.distinct loop.injective ran kept
    later fresh
  obtain ⟨before, last, parts, user⟩ := userMessage_of_newEpoch epoch
  obtain ⟨others, another, length, userAnother, normalized⟩ :=
    normalizedMessages_loop path platform.codec user
  rw [← parts] at normalized
  have hiddenBody := dispatched_loop loop opened rfl (normalized false turns)
    loop.hidden (fun fields restored messages restores => by
      rw [session] at restores
      exact restoreShadow_hidden userAnother (fun turn member => (loop.answered turn member).called)
        remembers hides messages restores) hiddenSent
  have shownBody := dispatched_loop loop opened system (normalized true turns) loop.shown
    (fun fields restored messages restores => by
      rw [restoreShadow_shown shows] at restores
      rw [← Value.object.inj restores]
      exact messages) shownSent
  have sameModel : shown.converted.model = hidden.converted.model := by
    obtain ⟨first, named, resolved⟩ := anthropicDispatch_model hiddenSent
    obtain ⟨second, otherNamed, otherResolved⟩ := anthropicDispatch_model shownSent
    have modelOf (object : Map) (messages : List Value) :
        (requestWith object messages).get "model" = object.get "model" :=
      (Map.get_insert _ _ _ object).trans (if_neg (by decide))
    rw [loopRequest, modelOf] at named otherNamed
    rw [model, named] at otherNamed
    rw [resolved, otherResolved, Option.some.inj otherNamed]
  rw [sameModel] at shownBody
  obtain ⟨front, behind, sent, frontLength, reasoning⟩ :=
    reasoning_sentMessages path platform.codec hidden.converted.model userAnother
  rw [sent] at hiddenBody shownBody
  refine ⟨front, behind, ?_, hiddenBody, shownBody, ?_⟩
  · rw [frontLength, parts, List.length_append, List.length_append, length]
    rfl
  · rw [← reasoning_loopWire platform.codec turns]
    have each (items : List Value) :
        items.filterMap keptReasoning = (items.map keptReasoning).filterMap id := by
      rw [List.filterMap_map]
      rfl
    rw [each, reasoning, ← each]

end Loop

def loopPath : MessagePath where
  config := plainConfig true
  shadowCurrentTurn := true
  fingerprint := id
  hash := lengthHash
  clock := fun _ => 3

def thoughtAnswer : Value :=
  answerOf [("reasoning_content", .string "look"), ("content", .string "hi"),
    ("tool_calls", .array [wholeCall 0 "c" "f" emptyArguments])]

def thoughtTurn : LoopTurn where
  upstream := thoughtAnswer
  held := fun exposeThinking =>
    (convertResponse replayPlatform thoughtAnswer "r" "glm" exposeThinking).toOption.getD .null
  calls := [calledOnce]
  answers := [sunnyAnswer]

theorem thoughtTurn_holds (exposeThinking : Bool) :
    thoughtTurn.Holds replayPlatform exposeThinking := by
  obtain ⟨response, responded⟩ := ok_of_isOk (show
    (convertResponse replayPlatform thoughtAnswer "r" "glm" exposeThinking).isOk = true by
      cases exposeThinking <;> decide +kernel)
  refine ⟨"r", "glm", response, responded, ?_⟩
  have same : thoughtTurn.held exposeThinking = (convertResponse replayPlatform thoughtAnswer "r"
      "glm" exposeThinking).toOption.getD .null := rfl
  rw [same, responded]
  rfl

theorem toolLoop_once : ToolLoop loopPath replayPlatform tenBytes [thoughtTurn] where
  answered := by
    intro turn member
    obtain rfl := List.mem_singleton.mp member
    have reads : CallReads replayPlatform.codec (wholeCall 0 "c" "f" emptyArguments) calledOnce :=
      ⟨rfl, _, rfl, rfl, by decide +kernel⟩
    exact ⟨.cons reads .nil, List.cons_ne_nil _ _, List.nodup_singleton _, List.Perm.refl _⟩
  hidden := by
    intro turn member
    obtain rfl := List.mem_singleton.mp member
    exact thoughtTurn_holds false
  shown := by
    intro turn member
    obtain rfl := List.mem_singleton.mp member
    exact thoughtTurn_holds true
  small := by
    intro turn member
    obtain rfl := List.mem_singleton.mp member
    decide +kernel
  distinct := List.nodup_singleton "c"
  injective := (Set.injOn_singleton lengthHash "c").mono
    fun _ member => List.mem_singleton.mp member

def loopEvents : List ShadowEvent := [.clear "agent", .store "agent" 1 2 ["c"] "look"]

def loopStored : ShadowRun :=
  ((shadowStore lengthHash tenBytes 600).runFrom (.start 600) loopEvents).get (by decide +kernel)

theorem loopStored_ran :
    (shadowStore lengthHash tenBytes 600).runFrom (.start 600) loopEvents = some loopStored :=
  (Option.some_get _).symm

theorem loopCommits_once : LoopCommits "agent" 0 [thoughtTurn] loopEvents :=
  @LoopCommits.commit "agent" 0 [] [.clear "agent"] thoughtTurn (.store ["c"] "look") 1 2
    (.start []) (ShadowAction.Alike.refl _) (Nat.zero_le 1)

theorem loopStored_kept (id : String) (listed : id ∈ [thoughtTurn].flatMap LoopTurn.ids) :
    ¬EvictedSince lengthHash tenBytes 600 loopEvents "agent" id := by
  obtain rfl := List.mem_singleton.mp listed
  intro evicted
  have apart : Apart lengthHash loopEvents "c" := by
    intro event member stored given _
    rcases List.mem_pair.mp member with rfl | rfl
    · cases given
    · exact List.mem_singleton.mp given
  have held : (loopStored.shadow.entryOf "agent" (keyOf lengthHash "agent" "c")).isSome = true := by
    decide +kernel
  rw [evictedSince_gone apart loopStored_ran evicted] at held
  cases held

def loopHead : Map := replayHead ++ [("metadata", .object [("user_id", .string "agent")])]

def thinkingHead : Map := loopHead ++ [("thinking", .object [("type", .string "adaptive")])]

def sunnyHistory : List Value := [message "user" (.string "Is it sunny?")]

theorem hidden_reasoning_returns_once : ∃ hidden left shown other front behind,
    loopPath.anthropicDispatch replayPlatform.codec (some loopStored.shadow)
        (loopRequest replayPlatform.codec false loopHead sunnyHistory [thoughtTurn]) =
      .ok (hidden, left) ∧
    loopPath.anthropicDispatch replayPlatform.codec (some loopStored.shadow)
        (loopRequest replayPlatform.codec true thinkingHead sunnyHistory [thoughtTurn]) =
      .ok (shown, other) ∧
    hidden.converted.body.get "messages" = some (.array (front ++ behind)) ∧
    shown.converted.body.get "messages" = some (.array (front ++ behind)) ∧
    behind.filterMap keptReasoning = ["look"] := by
  obtain ⟨base, opened⟩ := ok_of_isOk (show (convertRequestValue replayPlatform.codec
    (requestWith loopHead sunnyHistory)).isOk = true by decide +kernel)
  obtain ⟨⟨hidden, left⟩, hiddenSent⟩ := ok_of_isOk (show
    (loopPath.anthropicDispatch replayPlatform.codec (some loopStored.shadow)
      (loopRequest replayPlatform.codec false loopHead sunnyHistory [thoughtTurn])).isOk = true by
        decide +kernel)
  obtain ⟨⟨shown, other⟩, shownSent⟩ := ok_of_isOk (show
    (loopPath.anthropicDispatch replayPlatform.codec (some loopStored.shadow)
      (loopRequest replayPlatform.codec true thinkingHead sunnyHistory [thoughtTurn])).isOk =
        true by decide +kernel)
  have epoch : requestStartsNewEpoch base.body = true := by
    have checked : ((convertRequestValue replayPlatform.codec
        (requestWith loopHead sunnyHistory)).toOption.map fun base =>
          requestStartsNewEpoch base.body) = some true := by decide +kernel
    rw [opened] at checked
    exact Option.some.inj checked
  have settled : loopStored.clock ≤ 3 := by decide +kernel
  have young : 3 - 0 ≤ 600 := by decide
  obtain ⟨front, behind, -, hiddenBody, shownBody, reasoning⟩ :=
    hidden_reasoning_returns toolLoop_once loopCommits_once loopStored_ran loopStored_kept
      (fun _ => settled) (fun _ => young) opened epoch (by decide +kernel) (by decide +kernel)
      (by decide +kernel) (by decide +kernel) (by decide +kernel) hiddenSent shownSent
  exact ⟨hidden, left, shown, other, front, behind, hiddenSent, shownSent, hiddenBody, shownBody,
    reasoning.trans (by decide +kernel)⟩

end ClineProxy
