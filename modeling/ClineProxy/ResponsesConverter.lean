import ClineProxy.ResponsesCore

/-! `ResponsesConverter`: the state behind the events, and the calls that the pump makes. -/

namespace ClineProxy

open Json

/-- `ReasoningState` and `MessageState`. -/
structure TextItemState where
  itemId : ItemId
  outputIndex : Option Nat
  accum : String
  itemAdded : Bool
  partAdded : Bool
  partDone : Bool
  itemDone : Bool
  deriving DecidableEq

structure ToolSlot where
  itemId : ItemId
  callId : String
  name : String
  arguments : String
  outputIndex : Nat
  done : Bool
  server : Bool
  deriving DecidableEq

/-- `Reasoning` and `Message` are `text`, told apart by the kind of their id. -/
inductive OutputItem where
  | text (id : ItemId)
  | functionCall (id : ItemId)
  | webSearchCall (item : ResponsesItem)
  deriving DecidableEq

structure ResponsesConverter where
  responseId : String
  model : String
  exposeThinking : Bool
  started : Bool
  sequence : Nat
  createdAt : UInt64
  nextOutputIndex : Nat
  reasoning : Option TextItemState
  message : Option TextItemState
  tools : List (Int × ToolSlot)
  serverToolNames : List String
  outputItems : List OutputItem
  finishReason : Option String
  usage : Option ResponsesUsage
  error : Option String
  modelSeen : Option String
  idsMade : Nat

abbrev ResponsesEmission := ResponsesConverter × List SequencedEvent

def ResponsesEmission.andThen (first : ResponsesEmission)
    (next : ResponsesConverter → ResponsesEmission) : ResponsesEmission :=
  ((next first.1).1, first.2 ++ (next first.1).2)

def signedCallIndex (call : Value) : Int :=
  match call.get "index" with
  | some (.number (.posInt index)) =>
      if index.toNat ≤ 9223372036854775807 then index.toNat else 0
  | some (.number (.negInt index)) => index.toInt
  | _ => 0

namespace ResponsesConverter

def withServerTools (responseId : String) (createdAt : UInt64) (model : String)
    (exposeThinking : Bool) (serverToolNames : List String) : ResponsesConverter where
  responseId := responseId
  model := model
  exposeThinking := exposeThinking
  started := false
  sequence := 0
  createdAt := createdAt
  nextOutputIndex := 0
  reasoning := none
  message := none
  tools := []
  serverToolNames := serverToolNames
  outputItems := []
  finishReason := none
  usage := none
  error := none
  modelSeen := none
  idsMade := 0

def emit (converter : ResponsesConverter) (event : ResponsesEvent) : ResponsesEmission :=
  ({ converter with sequence := converter.sequence + 1 }, [⟨converter.sequence + 1, event⟩])

def emitAll (converter : ResponsesConverter) : List ResponsesEvent → ResponsesEmission
  | [] => (converter, [])
  | event :: rest => (converter.emit event).andThen fun next => next.emitAll rest

def baseResponse (converter : ResponsesConverter) (status : ResponseStatus)
    (output : List ResponsesItem) (usage : Option ResponsesUsage) : ResponseObject where
  responseId := converter.responseId
  createdAt := converter.createdAt
  status := status
  model := converter.modelSeen.getD converter.model
  output := output
  usage := usage.getD ⟨0, 0, 0, 0⟩
  error := none
  incompleteDetails := none

def ensureStarted (converter : ResponsesConverter) : ResponsesEmission :=
  if converter.started then (converter, [])
  else
    let response := converter.baseResponse .inProgress [] none
    emitAll { converter with started := true } [.created response, .inProgress response]

/-! Text items -/

def textState (converter : ResponsesConverter) : TextKind → Option TextItemState
  | .reasoning => converter.reasoning
  | .message => converter.message

def setTextState (converter : ResponsesConverter) (kind : TextKind) (state : TextItemState) :
    ResponsesConverter :=
  match kind with
  | .reasoning => { converter with reasoning := some state }
  | .message => { converter with message := some state }

def newTextState (kind : TextKind) (serial : Nat) : TextItemState :=
  ⟨⟨.text kind, serial⟩, none, "", false, false, false, false⟩

def ensureTextState (converter : ResponsesConverter) (kind : TextKind) :
    TextItemState × ResponsesConverter :=
  match converter.textState kind with
  | some state => (state, converter)
  | none =>
      (newTextState kind converter.idsMade, { converter with idsMade := converter.idsMade + 1 })

def feedEvents (state : TextItemState) (partFirst : Bool) (index : Nat) (text : String) :
    List ResponsesEvent :=
  (if state.itemAdded then [] else [.item state.itemId index (.added (.text state.itemId none))]) ++
    (if partFirst then [.item state.itemId index .partAdded] else []) ++
    [.item state.itemId index (.delta text)]

def feedTextItem (kind : TextKind) (partFirst : TextItemState → Bool) (text : String)
    (converter : ResponsesConverter) : ResponsesEmission :=
  let (state, before) := converter.ensureTextState kind
  let index := state.outputIndex.getD before.nextOutputIndex
  let fed := { state with
    accum := state.accum ++ text
    outputIndex := some index
    itemAdded := true
    partAdded := state.partAdded || partFirst state }
  let announced : List OutputItem := if state.itemAdded then [] else [.text state.itemId]
  emitAll
    { before.setTextState kind fed with
      nextOutputIndex := before.nextOutputIndex + if state.outputIndex.isNone then 1 else 0
      outputItems := before.outputItems ++ announced }
    (feedEvents state (partFirst state) index text)

/-- Reasoning that was not requested is recorded and not shown. -/
def feedReasoning (converter : ResponsesConverter) (reasoning : String) : ResponsesEmission :=
  if converter.exposeThinking then
    converter.feedTextItem .reasoning (fun state => !state.partAdded) reasoning
  else
    let (state, before) := converter.ensureTextState .reasoning
    (before.setTextState .reasoning { state with accum := state.accum ++ reasoning }, [])

def feedText (converter : ResponsesConverter) (content : String) : ResponsesEmission :=
  converter.feedTextItem .message (fun state => !state.itemAdded) content

def closingEvents (state : TextItemState) : List ResponsesEvent :=
  let index := state.outputIndex.getD 18446744073709551615
  (if state.partAdded && !state.partDone then
      [.item state.itemId index (.textDone state.accum),
        .item state.itemId index (.partDone state.accum)]
    else []) ++
    [.item state.itemId index (.done (.text state.itemId (some state.accum)))]

def closeTextItem (kind : TextKind) (closes : TextItemState → Bool)
    (converter : ResponsesConverter) : ResponsesEmission :=
  match converter.textState kind with
  | none => (converter, [])
  | some state =>
      if closes state then
        (converter.setTextState kind { state with itemDone := true, partDone := true }).emitAll
          (closingEvents state)
      else (converter, [])

def closeMessageItem (converter : ResponsesConverter) : ResponsesEmission :=
  converter.closeTextItem .message fun state => !state.itemDone

def closeReasoningItem (converter : ResponsesConverter) : ResponsesEmission :=
  converter.closeTextItem .reasoning fun state => state.itemAdded && !state.itemDone

/-! Tool calls -/

/-- Makes the slot of an index that has none, and announces the call unless it is a server's. -/
def addToolSlot (converter : ResponsesConverter) (call : Value) : ResponsesEmission :=
  let callId := ((call.get "id").bind Value.asStr).getD ""
  let name := (stringAt "name" (toolCallFunction call)).getD ""
  let server := converter.serverToolNames.contains name
  let itemId : ItemId := ⟨.functionCall, converter.idsMade⟩
  let slotted : ResponsesConverter := { converter with
    idsMade := converter.idsMade + 1
    nextOutputIndex := converter.nextOutputIndex + 1
    tools := OrderedMap.insert (signedCallIndex call)
      ⟨itemId, callId, name, "", converter.nextOutputIndex, false, server⟩ converter.tools }
  if server then (slotted, [])
  else
    emitAll { slotted with outputItems := converter.outputItems ++ [.functionCall itemId] }
      [.item itemId converter.nextOutputIndex
        (.added (.functionCall itemId callId name "" false))]

def ensureToolItemAdded (converter : ResponsesConverter) (call : Value) : ResponsesEmission :=
  if (OrderedMap.lookup (signedCallIndex call) converter.tools).isSome then (converter, [])
  else
    let closed : ResponsesEmission :=
      if converter.tools.isEmpty then converter.closeMessageItem else (converter, [])
    closed.andThen fun next => next.addToolSlot call

def feedToolCallArguments (converter : ResponsesConverter) (call : Value) : ResponsesEmission :=
  match OrderedMap.lookup (signedCallIndex call) converter.tools with
  | none => (converter, [])
  | some slot =>
      let arguments := toolCallArguments call
      let fed : ToolSlot := { slot with
        callId := (toolCallId call).getD slot.callId
        name := (toolCallName call).getD slot.name
        arguments := slot.arguments ++ arguments }
      emitAll
        { converter with tools := OrderedMap.insert (signedCallIndex call) fed converter.tools }
        (if arguments.isEmpty || slot.server then []
          else [.item slot.itemId slot.outputIndex (.delta arguments)])

def overCalls (act : ResponsesConverter → Value → ResponsesEmission)
    (converter : ResponsesConverter) : List Value → ResponsesEmission
  | [] => (converter, [])
  | call :: rest => (act converter call).andThen fun next => overCalls act next rest

/-- Every new call is announced before the arguments of any call are sent. -/
def feedToolCalls (converter : ResponsesConverter) (calls : List Value) : ResponsesEmission :=
  (overCalls ensureToolItemAdded converter calls).andThen fun next =>
    overCalls feedToolCallArguments next calls

def unlessEmpty (converter : ResponsesConverter)
    (feed : ResponsesConverter → String → ResponsesEmission) (text : String) : ResponsesEmission :=
  if text.isEmpty then (converter, []) else feed converter text

def feedDelta (converter : ResponsesConverter) (delta : Value) : ResponsesEmission :=
  let reasoning := ((delta.get "reasoning_content").bind Value.asStr).getD ""
  let content := ((delta.get "content").bind Value.asStr).getD ""
  let calls := ((delta.get "tool_calls").bind Value.asArray).getD []
  ((converter.unlessEmpty feedReasoning reasoning).andThen
    fun next => next.unlessEmpty feedText content).andThen
    fun next => next.feedToolCalls calls

def feedChoice (converter : ResponsesConverter) (choice : Value) : ResponsesEmission :=
  let finished := { converter with
    finishReason := ((choice.get "finish_reason").bind Value.asStr).or converter.finishReason }
  match choice.get "delta" with
  | none => (finished, [])
  | some delta => finished.feedDelta delta

def feedChoices (converter : ResponsesConverter) : List Value → ResponsesEmission
  | [] => (converter, [])
  | choice :: rest => (converter.feedChoice choice).andThen fun next => next.feedChoices rest

def noteChunk (converter : ResponsesConverter) (chunk : Value) : ResponsesConverter :=
  { converter with
    modelSeen := (((chunk.get "model").bind Value.asStr).filter fun model =>
      !model.isEmpty).or converter.modelSeen
    usage := (((chunk.get "usage").filter Value.isObject).map mapUsage).or converter.usage }

def feedChunk (converter : ResponsesConverter) (chunk : Value) : ResponsesEmission :=
  converter.ensureStarted.andThen fun next =>
    (next.noteChunk chunk).feedChoices (((chunk.get "choices").bind Value.asArray).getD [])

def itemText (converter : ResponsesConverter) (id : ItemId) : String :=
  match id.kind with
  | .text kind =>
      (((converter.textState kind).filter fun state => state.itemId = id).map
        TextItemState.accum).getD ""
  | _ => ""

def slotItem (slot : ToolSlot) : ResponsesItem :=
  .functionCall slot.itemId slot.callId slot.name slot.arguments true

def slotOf (converter : ResponsesConverter) (id : ItemId) : Option ToolSlot :=
  (converter.tools.map Prod.snd).find? fun slot => slot.itemId = id

def finalItem (converter : ResponsesConverter) : OutputItem → Option ResponsesItem
  | .text id => some (.text id (some (converter.itemText id)))
  | .functionCall id => (converter.slotOf id).map slotItem
  | .webSearchCall item => some item

def terminalResponse (converter : ResponsesConverter) (status : ResponseStatus) : ResponseObject :=
  converter.baseResponse status (converter.outputItems.filterMap converter.finalItem)
    converter.usage

def successStatus (converter : ResponsesConverter) : ResponseStatus :=
  if converter.finishReason = some "length" then .incomplete else .completed

def successResponse (converter : ResponsesConverter) : ResponseObject :=
  { converter.terminalResponse converter.successStatus with
    incompleteDetails :=
      if converter.finishReason = some "length" then some "max_output_tokens" else none }

def failedResponse (converter : ResponsesConverter) (message : String) : ResponseObject :=
  { converter.terminalResponse .failed with error := some message }

def slotDoneEvents (slot : ToolSlot) : List ResponsesEvent :=
  if slot.done || slot.server then []
  else [.item slot.itemId slot.outputIndex (.textDone slot.arguments),
    .item slot.itemId slot.outputIndex (.done (slotItem slot))]

def finishTools (converter : ResponsesConverter) : ResponsesEmission :=
  emitAll
    { converter with
      tools := converter.tools.map fun entry => (entry.1, { entry.2 with done := true }) }
    (converter.tools.flatMap fun entry => slotDoneEvents entry.2)

def finish (converter : ResponsesConverter) (error : Option String) : ResponsesEmission :=
  let noted := { converter with error := error }
  match error with
  | some message => noted.emit (.terminal (noted.failedResponse message))
  | none =>
      ((noted.closeReasoningItem.andThen closeMessageItem).andThen finishTools).andThen
        fun next => next.emit (.terminal next.successResponse)

def nonstreamResponse (converter : ResponsesConverter) : ResponseObject :=
  match converter.error with
  | some message => converter.failedResponse message
  | none => converter.successResponse

/-! Web search rounds -/

def hasServerTools (converter : ResponsesConverter) : Bool :=
  converter.tools.any fun entry => entry.2.server

def hasClientTools (converter : ResponsesConverter) : Bool :=
  converter.tools.any fun entry => !entry.2.server

def serverToolCalls (converter : ResponsesConverter) : List OpenAiToolCall :=
  (converter.tools.filter fun entry => entry.2.server).map fun entry =>
    ⟨entry.2.callId, entry.2.name, entry.2.arguments⟩

def beginNewUpstreamRound (converter : ResponsesConverter) : ResponsesConverter :=
  { converter with tools := [], finishReason := none }

def searchItem (id : ItemId) (outcome : SearchOutcome) : ResponsesItem :=
  .webSearchCall id outcome.error.isSome outcome.query
    (outcome.results.filterMap fun result => (result.get "url").bind Value.asStr)

def emitWebSearchCall (converter : ResponsesConverter) (outcome : SearchOutcome) :
    ResponsesEmission :=
  let id : ItemId := ⟨.webSearchCall, converter.idsMade⟩
  let item := searchItem id outcome
  let index := converter.nextOutputIndex
  emitAll
    { converter with
      idsMade := converter.idsMade + 1
      nextOutputIndex := index + 1
      outputItems := converter.outputItems ++ [.webSearchCall item] }
    [.item id index .searchStarted, .item id index (.done item)]

def emitWebSearchCalls (converter : ResponsesConverter) :
    List (OpenAiToolCall × SearchOutcome) → ResponsesEmission
  | [] => (converter, [])
  | (_, outcome) :: rest =>
      (converter.emitWebSearchCall outcome).andThen fun next => next.emitWebSearchCalls rest

def emitWebSearchRound (converter : ResponsesConverter) (calls : List OpenAiToolCall)
    (outcomes : List SearchOutcome) : ResponsesEmission :=
  converter.emitWebSearchCalls (calls.zip outcomes)

end ResponsesConverter

inductive ConverterCall where
  | feedChunk (chunk : Value)
  | searchRound (calls : List OpenAiToolCall) (outcomes : List SearchOutcome)
  | finish (error : Option String)

namespace ResponsesConverter

def apply (converter : ResponsesConverter) : ConverterCall → ResponsesEmission
  | .feedChunk chunk => converter.feedChunk chunk
  | .searchRound calls outcomes => (converter.emitWebSearchRound calls outcomes).andThen
      fun next => (next.beginNewUpstreamRound, [])
  | .finish error => converter.finish error

def applyAll (converter : ResponsesConverter) : List ConverterCall → ResponsesEmission
  | [] => (converter, [])
  | call :: rest => (converter.apply call).andThen fun next => next.applyAll rest

end ResponsesConverter

end ClineProxy
