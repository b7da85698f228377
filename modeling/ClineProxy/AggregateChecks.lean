import ClineProxy.ChunkFacts

/-! Which streams the aggregation for non-streaming clients accepts, and as what message. -/

namespace ClineProxy

open Json FirstSeen

/-- A chunk that adds to the response. -/
def chunkSpeaks (value : Value) : Bool :=
  chunkText value ≠ "" || chunkReasoning value ≠ "" || chunkCalls value ≠ [] ||
    (chunkFinish value).isSome

def usable (calls : List Value) (index : UInt64) : Bool :=
  (firstNameAt index calls).isSome || !(argumentsAt index calls).isEmpty

def seenIndexes (calls : List Value) : List UInt64 := firstSeen (calls.map toolCallIndex)

def toolBlock (id name : String) (input : Value) : Value :=
  .object [("type", .string "tool_use"), ("id", .string id), ("name", .string name),
    ("input", input)]

def idOr (index : UInt64) (id : Option String) : String :=
  id.getD ("toolu_" ++ toString index.toNat)

def nameOr (name : Option String) : String := name.getD "unknown"

def callInput (codec : Codec) (calls : List Value) (index : UInt64) : Value :=
  (toolInput codec (argumentsAt index calls)).getD .null

def ArgumentsParse (codec : Codec) (calls : List Value) : Prop :=
  ∀ index ∈ seenIndexes calls, (toolInput codec (argumentsAt index calls)).isSome

def aggregatedTool (codec : Codec) (calls : List Value) (index : UInt64) : Value :=
  toolBlock (idOr index (firstIdAt index calls)) (nameOr (firstNameAt index calls))
    (callInput codec calls index)

theorem join_eq_empty {texts : List String} :
    String.join texts = "" ↔ ∀ text ∈ texts, text = "" := by
  induction texts with
  | nil => simp
  | cons text rest ih => simp [String.join_cons, ih]

theorem mem_seenIndexes {calls : List Value} {index : UInt64} :
    index ∈ seenIndexes calls ↔ callsAt index calls ≠ [] := by
  rw [seenIndexes, mem_firstSeen, callsAt, ne_eq, List.filter_eq_nil_iff]
  simp

theorem toolInput_empty (codec : Codec) : toolInput codec "" = some (.object []) := rfl

namespace Accumulated

variable {values : List Value} {accumulator : NonStreamAccumulator}

theorem tools_isEmpty (held : Accumulated values accumulator) :
    accumulator.tools.isEmpty = (allCalls values).isEmpty := by
  rw [Bool.eq_iff_iff, List.isEmpty_iff, List.isEmpty_iff]
  constructor
  · intro empty
    refine List.eq_nil_iff_forall_not_mem.mpr fun call member => ?_
    have tool := held.tools (toolCallIndex call)
    have filled : callsAt (toolCallIndex call) (allCalls values) ≠ [] :=
      List.ne_nil_of_mem (List.mem_filter.mpr ⟨member, by simp⟩)
    rw [empty, if_neg filled] at tool
    cases tool
  · intro empty
    refine List.eq_nil_iff_forall_not_mem.mpr fun entry member => ?_
    have none_held := held.tools entry.1
    rw [empty] at none_held
    exact OrderedMap.lookup_eq_none.mp none_held entry member rfl

theorem hasContent (held : Accumulated values accumulator) :
    accumulator.hasContent = values.any chunkSpeaks := by
  have text : accumulator.text.isEmpty = values.all fun value => chunkText value = "" := by
    rw [Bool.eq_iff_iff, held.text]
    simp [join_eq_empty]
  have reasoning : accumulator.reasoning.isEmpty =
      values.all fun value => chunkReasoning value = "" := by
    rw [Bool.eq_iff_iff, held.reasoning]
    simp [join_eq_empty]
  have tools : accumulator.tools.isEmpty = values.all fun value => chunkCalls value = [] := by
    rw [Bool.eq_iff_iff, held.tools_isEmpty]
    simp [allCalls]
  have finish : accumulator.finishReason.isNone =
      values.all fun value => (chunkFinish value).isNone := by
    rw [Bool.eq_iff_iff, held.finishReason]
    simp [lastFinish]
  rw [NonStreamAccumulator.hasContent, held.sawEvent, text, reasoning, tools, finish]
  rcases said : values.any chunkSpeaks with _ | _
  · have silent := List.any_eq_false.mp said
    simp only [chunkSpeaks, Bool.or_eq_true, not_or, decide_eq_true_eq, not_not] at silent
    have all_text : (values.all fun value => chunkText value = "") = true :=
      List.all_eq_true.mpr fun value member => by simp [(silent value member).1.1.1]
    have all_reasoning : (values.all fun value => chunkReasoning value = "") = true :=
      List.all_eq_true.mpr fun value member => by simp [(silent value member).1.1.2]
    have all_calls : (values.all fun value => chunkCalls value = []) = true :=
      List.all_eq_true.mpr fun value member => by simp [(silent value member).1.2]
    have all_finish : (values.all fun value => (chunkFinish value).isNone) = true :=
      List.all_eq_true.mpr fun value member => by simpa using (silent value member).2
    simp [all_text, all_reasoning, all_calls, all_finish]
  · obtain ⟨value, member, speaks⟩ := List.any_eq_true.mp said
    have filled : values ≠ [] := List.ne_nil_of_mem member
    simp only [chunkSpeaks, Bool.or_eq_true, decide_eq_true_eq] at speaks
    simp only [List.isEmpty_eq_false_iff.mpr filled, Bool.not_false, Bool.true_and,
      Bool.not_eq_true', Bool.and_eq_false_iff, List.all_eq_false]
    rcases speaks with ((text | reasoning) | calls) | finish
    · exact .inl (.inl (.inl ⟨value, member, by simpa using text⟩))
    · exact .inl (.inl (.inr ⟨value, member, by simpa using reasoning⟩))
    · exact .inl (.inr ⟨value, member, by simpa using calls⟩)
    · exact .inr ⟨value, member, by simpa [Option.isSome_iff_ne_none] using finish⟩

theorem toolCallOf (held : Accumulated values accumulator) (index : UInt64) :
    accumulator.toolCallOf index =
      if usable (allCalls values) index then
        some (.object [("id", .string (idOr index (firstIdAt index (allCalls values)))),
          ("type", .string "function"), ("function", .object [
            ("name", .string (nameOr (firstNameAt index (allCalls values)))),
            ("arguments", .string (argumentsAt index (allCalls values)))])])
      else none := by
  rw [NonStreamAccumulator.toolCallOf, held.tools index]
  by_cases absent : callsAt index (allCalls values) = []
  · simp [absent, usable, firstNameAt, argumentsAt]
  · have unusable : ((firstNameAt index (allCalls values)).isNone &&
        (argumentsAt index (allCalls values)).isEmpty) = !usable (allCalls values) index := by
      rw [usable, Bool.not_or, Bool.not_not, Option.not_isSome]
    simp only [absent, ↓reduceIte, Option.bind_some, NonStreamAccumulator.collected, unusable]
    by_cases use : usable (allCalls values) index = true <;> simp [use, idOr, nameOr]

end Accumulated

theorem mapM_eq_ok {First Second : Type} {convert : First → Fallible Second}
    {given : First → Second} {items : List First}
    (all : ∀ item ∈ items, convert item = .ok (given item)) :
    items.mapM convert = .ok (items.map given) := by
  induction items with
  | nil => rfl
  | cons item rest ih =>
      rw [List.mapM_cons, all item (by simp), ih fun other member => all other (by simp [member])]
      rfl

theorem mapM_ok_mem {First Second : Type} {convert : First → Fallible Second}
    {items : List First} {results : List Second} (done : items.mapM convert = .ok results) :
    ∀ item ∈ items, ∃ result, convert item = .ok result := by
  induction items generalizing results with
  | nil => simp
  | cons item rest ih =>
      rw [List.mapM_cons] at done
      obtain ⟨first, head, done⟩ := bind_eq_ok.mp done
      obtain ⟨others, tail, -⟩ := bind_eq_ok.mp done
      intro other member
      rcases List.mem_cons.mp member with rfl | later
      · exact ⟨first, head⟩
      · exact ih tail other later

def usableIndexes (values : List Value) : List UInt64 :=
  (seenIndexes (allCalls values)).filter (usable (allCalls values))

def callOf (calls : List Value) (index : UInt64) : Value :=
  .object [("id", .string (idOr index (firstIdAt index calls))), ("type", .string "function"),
    ("function", .object [("name", .string (nameOr (firstNameAt index calls))),
      ("arguments", .string (argumentsAt index calls))])]

def orUpstreamBlock (codec : Codec) (calls : List Value) (index : UInt64) :
    Fallible (List Value) :=
  (orUpstreamError "upstream returned malformed tool arguments"
    (toolInput codec (argumentsAt index calls))).map fun input =>
      [toolBlock (idOr index (firstIdAt index calls)) (nameOr (firstNameAt index calls)) input]

def convertAccumulated (platform : Platform) (accumulator : NonStreamAccumulator)
    (requestId fallbackModel : String) (exposeThinking : Bool) : Fallible Value := do
  let body ← accumulator.intoResponse requestId
  convertResponse platform body requestId fallbackModel exposeThinking

namespace Accumulated

variable {values : List Value} {accumulator : NonStreamAccumulator}

theorem toolCalls (held : Accumulated values accumulator) :
    accumulator.toolOrder.filterMap accumulator.toolCallOf =
      (usableIndexes values).map (callOf (allCalls values)) := by
  rw [held.toolOrder, usableIndexes, seenIndexes]
  induction firstSeen ((allCalls values).map toolCallIndex) with
  | nil => rfl
  | cons index rest ih =>
      rw [List.filterMap_cons, held.toolCallOf, List.filter_cons]
      by_cases use : usable (allCalls values) index = true <;> simp [use, ih, callOf]

theorem messageCalls (held : Accumulated values accumulator) :
    accumulator.responseMessage.get "tool_calls" =
      if usableIndexes values = [] then none
      else some (.array ((usableIndexes values).map (callOf (allCalls values)))) := by
  rw [NonStreamAccumulator.responseMessage, held.toolCalls]
  by_cases silent : accumulator.reasoning.isEmpty = true <;>
    by_cases none_used : usableIndexes values = [] <;>
    simp [silent, none_used, Map.get, OrderedMap.lookup]

theorem messageReasoning (held : Accumulated values accumulator) :
    reasoningText accumulator.responseMessage = String.join (values.map chunkReasoning) := by
  rw [NonStreamAccumulator.responseMessage, held.reasoning]
  by_cases silent : (String.join (values.map chunkReasoning)).isEmpty = true
  · rw [if_pos silent, List.append_nil, String.isEmpty_iff.mp silent]
    split <;> rfl
  · rw [if_neg silent]
    rfl

theorem convertToolCalls (held : Accumulated values accumulator) (codec : Codec) :
    ClineProxy.convertToolCalls codec [] (accumulator.responseMessage.get "tool_calls") =
      ((usableIndexes values).mapM (orUpstreamBlock codec (allCalls values))).map
        List.flatten := by
  rw [held.messageCalls]
  by_cases none_used : usableIndexes values = []
  · rw [if_pos none_used, none_used]
    rfl
  · rw [if_neg none_used]
    simp only [ClineProxy.convertToolCalls, Option.bind_some, Value.asArray_array, List.mapM_map]
    congr 2

theorem toolBlocks_eq {codec : Codec} {calls : List Value} {indexes : List UInt64}
    (all : ∀ index ∈ indexes, (toolInput codec (argumentsAt index calls)).isSome) :
    (indexes.mapM (orUpstreamBlock codec calls)).map List.flatten =
      .ok (indexes.map (aggregatedTool codec calls)) := by
  have each : ∀ index ∈ indexes, orUpstreamBlock codec calls index =
      .ok [aggregatedTool codec calls index] := by
    intro index member
    obtain ⟨input, found⟩ := Option.isSome_iff_exists.mp (all index member)
    simp [orUpstreamBlock, found, orUpstreamError, Except.map, aggregatedTool, callInput]
  rw [mapM_eq_ok each, Except.map, ← List.flatMap_def, ← List.map_eq_flatMap]

theorem toolBlocks_ok {codec : Codec} {calls : List Value} {indexes : List UInt64}
    {blocks : List Value}
    (done : (indexes.mapM (orUpstreamBlock codec calls)).map List.flatten = .ok blocks) :
    ∀ index ∈ indexes, (toolInput codec (argumentsAt index calls)).isSome := by
  intro index member
  obtain ⟨results, mapped, -⟩ := map_eq_ok.mp done
  obtain ⟨result, converted⟩ := mapM_ok_mem mapped index member
  obtain ⟨input, read, -⟩ := map_eq_ok.mp converted
  cases found : toolInput codec (argumentsAt index calls) with
  | none => simp [found, orUpstreamError, upstreamError] at read
  | some input => rfl

theorem argumentsParse_iff (codec : Codec) (values : List Value) :
    ArgumentsParse codec (allCalls values) ↔ ∀ index ∈ usableIndexes values,
      (toolInput codec (argumentsAt index (allCalls values))).isSome := by
  constructor
  · exact fun parse index member => parse index (List.mem_filter.mp member).1
  · intro parse index member
    by_cases use : usable (allCalls values) index = true
    · exact parse index (List.mem_filter.mpr ⟨member, use⟩)
    · have empty : argumentsAt index (allCalls values) = "" := by
        simp only [usable, Bool.or_eq_true, not_or, Bool.not_eq_true', Bool.not_eq_false,
          String.isEmpty_iff] at use
        exact use.2
      rw [empty, toolInput_empty]
      rfl

theorem convertResponse_body (platform : Platform) (message : Map) (usage : Value)
    (id model finish requestId fallbackModel : String) (exposeThinking : Bool) :
    convertResponse platform (.object [("id", .string id), ("model", .string model),
        ("choices", .array [.object [("index", .ofNat 0), ("message", .object message),
          ("finish_reason", .string finish)]]), ("usage", usage)])
        requestId fallbackModel exposeThinking =
      (ClineProxy.convertToolCalls platform.codec [] (message.get "tool_calls")).map fun tools =>
        .object [
          ("id", .string id), ("type", .string "message"), ("role", .string "assistant"),
          ("content", .array (thinkingContent platform requestId
            (if exposeThinking then reasoningText message else "") ++
            messageText (message.get "content") ++ tools)),
          ("model", .string model), ("stop_reason", mapStopReason (some finish)),
          ("stop_sequence", .null), ("usage", convertUsageWith (some usage) 0)] := by
  cases tools : ClineProxy.convertToolCalls platform.codec [] (message.get "tool_calls") <;>
    simp [convertResponse, convertResponseWith, plainOptions, firstChoice, orUpstreamError,
      OrderedMap.lookup, tools, bind, Except.bind, Except.map, pure, Except.pure]

theorem convert_eq (held : Accumulated values accumulator) (platform : Platform)
    (requestId fallbackModel : String) (exposeThinking : Bool)
    (speaks : values.any chunkSpeaks = true) :
    convertAccumulated platform accumulator requestId fallbackModel exposeThinking =
      (((usableIndexes values).mapM (orUpstreamBlock platform.codec (allCalls values))).map
        List.flatten).map fun tools => .object [
          ("id", .string (accumulator.id.getD requestId)), ("type", .string "message"),
          ("role", .string "assistant"),
          ("content", .array (thinkingContent platform requestId (if exposeThinking then
              String.join (values.map chunkReasoning) else "") ++
            (if (String.join (values.map chunkText)).isEmpty then []
              else [textContent (String.join (values.map chunkText))]) ++ tools)),
          ("model", .string (accumulator.model.getD "")),
          ("stop_reason", mapStopReason (some ((lastFinish values).getD "stop"))),
          ("stop_sequence", .null),
          ("usage", convertUsageWith (some (lastObjectUsage values)) 0)] := by
  have content : accumulator.responseMessage.get "content" =
      some (.string (String.join (values.map chunkText))) := by
    rw [NonStreamAccumulator.responseMessage, held.text]
    rfl
  rw [convertAccumulated, NonStreamAccumulator.intoResponse, held.hasContent, speaks]
  simp only [Bool.not_true, Bool.false_eq_true, ↓reduceIte, held.finishReason, held.usage]
  refine (convertResponse_body platform accumulator.responseMessage _ _ _ _ requestId
    fallbackModel exposeThinking).trans ?_
  rw [held.convertToolCalls, held.messageReasoning, content]
  rfl

theorem convert_silent (held : Accumulated values accumulator) (platform : Platform)
    (requestId fallbackModel : String) (exposeThinking : Bool)
    (silent : values.any chunkSpeaks = false) :
    convertAccumulated platform accumulator requestId fallbackModel exposeThinking =
      upstreamError "upstream stream ended without any response content" := by
  rw [convertAccumulated, NonStreamAccumulator.intoResponse, held.hasContent, silent]
  rfl

/-- The accumulated chunks become a message exactly when they say something and the
arguments of their calls can be read. -/
theorem convert_ok (held : Accumulated values accumulator) (platform : Platform)
    (requestId fallbackModel : String) (exposeThinking : Bool) :
    (∃ message, convertAccumulated platform accumulator requestId fallbackModel exposeThinking =
        .ok message) ↔
      values.any chunkSpeaks = true ∧ ArgumentsParse platform.codec (allCalls values) := by
  rcases speaks : values.any chunkSpeaks with _ | _
  · simp [held.convert_silent platform requestId fallbackModel exposeThinking speaks,
      upstreamError]
  · rw [held.convert_eq platform requestId fallbackModel exposeThinking speaks,
      argumentsParse_iff]
    constructor
    · rintro ⟨message, done⟩
      obtain ⟨blocks, mapped, -⟩ := map_eq_ok.mp done
      exact ⟨rfl, toolBlocks_ok mapped⟩
    · rintro ⟨-, all⟩
      exact ⟨_, by rw [toolBlocks_eq all]; rfl⟩

end Accumulated

end ClineProxy
