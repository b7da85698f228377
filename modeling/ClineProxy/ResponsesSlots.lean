import ClineProxy.ResponsesBoard

/-! The calls of a round on the board, and the board after any moves. -/

namespace ClineProxy

open Json

variable {names : List String} {exposeThinking : Bool} {track : Track}
  {converter next : ResponsesConverter} {events : List ResponsesEvent}

/-- The slot of an index is made or replaced, with some events of its own. -/
structure ToolStep (converter next : ResponsesConverter) (index : Int) (slot : ToolSlot) :
    Prop where
  serverNames : next.serverToolNames = converter.serverToolNames
  exposes : next.exposeThinking = converter.exposeThinking
  texts : ∀ kind, next.textState kind = converter.textState kind
  idsMade : converter.idsMade ≤ next.idsMade
  tools : next.tools = OrderedMap.insert index slot converter.tools
  isCall : slot.itemId.kind = .functionCall
  made : slot.itemId.serial < next.idsMade
  whose : (OrderedMap.lookup index converter.tools = none ∧
      converter.idsMade ≤ slot.itemId.serial) ∨
    ∃ old, OrderedMap.lookup index converter.tools = some old ∧ old.itemId = slot.itemId

theorem ToolStep.lookup {index : Int} {slot : ToolSlot} (step : ToolStep converter next index slot)
    (other : Int) : OrderedMap.lookup other next.tools =
      if other = index then some slot else OrderedMap.lookup other converter.tools := by
  rw [step.tools, OrderedMap.lookup_insert]

theorem Board.others (board : Board names exposeThinking track converter events) {index : Int}
    {slot : ToolSlot} (step : ToolStep converter next index slot) {other : Int} {held : ToolSlot}
    (different : other ≠ index) (found : OrderedMap.lookup other converter.tools = some held) :
    held.itemId ≠ slot.itemId := by
  rcases step.whose with ⟨_, unmade⟩ | ⟨old, was, same⟩
  · obtain ⟨_, _, slotted⟩ := board.slots other held found
    intro equal
    have serial := slotted.serial
    rw [equal] at serial
    omega
  · intro equal
    exact different (board.apart other held index old found was (equal.trans same.symm))

theorem ToolStep.unslotted {index : Int} {slot : ToolSlot}
    (step : ToolStep converter next index slot) {id : ItemId}
    (apart : ∀ other held, OrderedMap.lookup other next.tools = some held → held.itemId ≠ id) :
    slot.itemId ≠ id ∧
      ∀ other held, OrderedMap.lookup other converter.tools = some held → held.itemId ≠ id := by
  have own : slot.itemId ≠ id := apart index slot (by rw [step.lookup, if_pos rfl])
  refine ⟨own, fun other held found => ?_⟩
  by_cases same : other = index
  · subst same
    rcases step.whose with ⟨absent, _⟩ | ⟨old, was, equal⟩
    · simp [absent] at found
    · obtain rfl := Option.some.inj (was.symm.trans found)
      exact equal ▸ own
  · exact apart other held (by rw [step.lookup, if_neg same, found])

theorem Board.toolStep (board : Board names exposeThinking track converter events) {index : Int}
    {slot : ToolSlot} (step : ToolStep converter next index slot) (later : Track) {first : Value}
    (said : ∀ kind, later.said kind = track.said kind) (earlier : later.earlier = track.earlier)
    (firsts : ∀ other, other ≠ index → later.round.firstAt other = track.round.firstAt other)
    (fragments : ∀ other, other ≠ index →
      later.round.fragmentsAt other = track.round.fragmentsAt other)
    (found : later.round.firstAt index = some first)
    (own : ∀ call ∈ later.round.registered,
      later.round.firstAt (signedCallIndex call) = some call) (position : Nat) (changes : List ItemChange)
    (slotted : SlotBoard names first (later.round.fragmentsAt index) slot next.idsMade
      (events ++ itemEvents slot.itemId position changes)) :
    Board names exposeThinking later next
      (events ++ itemEvents slot.itemId position changes) := by
  have lost : later.Lost names ↔ track.Lost names := by rw [Track.Lost, earlier, Track.Lost]
  have elsewhere {id : ItemId} (other : id.kind ≠ .functionCall) :
      changesOf id (events ++ itemEvents slot.itemId position changes) = changesOf id events :=
    changesOf_append_other (ne_of_kind step.isCall other).symm position changes
  have texts {kind : TextKind} {state : TextItemState}
      (held : next.textState kind = some state) : state.itemId.kind ≠ .functionCall := by
    rw [(board.textIds kind state (step.texts kind ▸ held)).1]
    simp
  exact {
    serverNames := step.serverNames.trans board.serverNames
    exposes := step.exposes.trans board.exposes
    fresh := fresh_append board.fresh step.idsMade step.made
    textIds := fun kind state held => by
      obtain ⟨isText, made⟩ := board.textIds kind state (step.texts kind ▸ held)
      exact ⟨isText, Nat.lt_of_lt_of_le made step.idsMade⟩
    said := fun kind state held => said kind ▸ board.said kind state (step.texts kind ▸ held)
    silent := fun kind absent => (said kind).trans (board.silent kind (step.texts kind ▸ absent))
    shown := fun kind state shows held => by
      rw [said kind]
      exact (board.shown kind state shows (step.texts kind ▸ held)).frame (elsewhere (texts held))
    hidden := fun kind state hides held => by
      obtain ⟨notAdded, nothing⟩ := board.hidden kind state hides (step.texts kind ▸ held)
      exact ⟨notAdded, (elsewhere (texts held)).trans nothing⟩
    otherTexts := fun id kind isText others =>
      (elsewhere (by simp [isText])).trans
        (board.otherTexts id kind isText fun state held => others state (step.texts kind ▸ held))
    slots := fun other held has => by
      rw [step.lookup] at has
      by_cases same : other = index
      · subst same
        rw [if_pos rfl] at has
        obtain rfl := Option.some.inj has
        exact ⟨first, found, slotted⟩
      · rw [if_neg same] at has
        obtain ⟨start, begun, was⟩ := board.slots other held has
        rw [firsts other same, fragments other same]
        exact ⟨start, begun, was.frame step.idsMade
          (changesOf_append_other (board.others step same has) position changes)⟩
    noSlots := fun other absent => by
      rw [step.lookup] at absent
      by_cases same : other = index
      · simp [same] at absent
      · rw [if_neg same] at absent
        rw [firsts other same, fragments other same]
        exact board.noSlots other absent
    own := own
    sorted := by
      rw [step.tools]
      exact OrderedMap.insert_sorted (fun _ _ => by omega) (fun _ _ _ => by omega) board.sorted
    apart := fun one held other kept has also same => by
      rw [step.lookup] at has also
      by_cases mine : one = index <;> by_cases yours : other = index
      · exact mine.trans yours.symm
      · rw [if_pos mine] at has
        rw [if_neg yours] at also
        obtain rfl := Option.some.inj has
        exact absurd same.symm (board.others step yours also)
      · rw [if_neg mine] at has
        rw [if_pos yours] at also
        obtain rfl := Option.some.inj also
        exact absurd same (board.others step mine has)
      · rw [if_neg mine] at has
        rw [if_neg yours] at also
        exact board.apart one held other kept has also same
    left := fun id isCall others => by
      obtain ⟨own, before⟩ := step.unslotted others
      rw [changesOf_append_other own.symm, lost]
      exact board.left id isCall before
    lost := fun happened => by
      obtain ⟨id, isCall, before, used⟩ := board.lost (lost.mp happened)
      have own : slot.itemId ≠ id := by
        rintro rfl
        rcases step.whose with ⟨_, unmade⟩ | ⟨old, was, same⟩
        · exact used (board.unused unmade)
        · exact before index old was same
      have kept := @changesOf_append_other events id slot.itemId own.symm position changes
      refine ⟨id, isCall, fun other held has => ?_, kept ▸ used⟩
      rw [step.lookup] at has
      by_cases same : other = index
      · rw [if_pos same] at has
        exact Option.some.inj has ▸ own
      · rw [if_neg same] at has
        exact before other held has
    searches := fun id isSearch => by
      rw [elsewhere (by simp [isSearch])]
      exact board.searches id isSearch }

namespace ResponsesConverter

def newSlot (converter : ResponsesConverter) (call : Value) : ToolSlot :=
  ⟨⟨.functionCall, converter.idsMade⟩, fragmentId call, fragmentName call, "",
    converter.nextOutputIndex, false, converter.serverToolNames.contains (fragmentName call)⟩

def newSlotChanges (converter : ResponsesConverter) (call : Value) : List ItemChange :=
  if converter.serverToolNames.contains (fragmentName call) then []
  else callScript ⟨.functionCall, converter.idsMade⟩ call []

theorem addToolSlot_eq (converter : ResponsesConverter) (call : Value) :
    converter.addToolSlot call = emitAll
      { converter with
        idsMade := converter.idsMade + 1
        nextOutputIndex := converter.nextOutputIndex + 1
        tools := OrderedMap.insert (signedCallIndex call) (converter.newSlot call) converter.tools
        outputItems := converter.outputItems ++
          if (converter.newSlot call).server then []
          else [.functionCall (converter.newSlot call).itemId] }
      (itemEvents (converter.newSlot call).itemId converter.nextOutputIndex
        (converter.newSlotChanges call)) := by
  have named : (stringAt "name" (toolCallFunction call)).getD "" = fragmentName call := rfl
  have identified : ((call.get "id").bind Value.asStr).getD "" = fragmentId call := rfl
  simp only [addToolSlot, newSlot, newSlotChanges, named, identified]
  split
  next server => simp only [server, if_true, List.append_nil]; rfl
  next client => simp only [client]; rfl

def fedSlot (slot : ToolSlot) (call : Value) : ToolSlot := { slot with
  callId := (toolCallId call).getD slot.callId
  name := (toolCallName call).getD slot.name
  arguments := slot.arguments ++ toolCallArguments call }

theorem feedToolCallArguments_held {converter : ResponsesConverter} {call : Value}
    {slot : ToolSlot} (held : OrderedMap.lookup (signedCallIndex call) converter.tools = some slot) :
    converter.feedToolCallArguments call = emitAll
      { converter with
        tools := OrderedMap.insert (signedCallIndex call) (fedSlot slot call) converter.tools }
      (itemEvents slot.itemId slot.outputIndex
        (if (toolCallArguments call).isEmpty || slot.server then []
          else [.delta (toolCallArguments call)])) := by
  rw [feedToolCallArguments, held]
  simp only [fedSlot]
  split <;> rfl

end ResponsesConverter

theorem SlotBoard.fed {first : Value} {fragments : List Value} {slot : ToolSlot} {made : Nat}
    (slotted : SlotBoard names first fragments slot made events) (call : Value) {more : Nat}
    (serial : slot.itemId.serial < more) :
    SlotBoard names first (fragments ++ [call]) (ResponsesConverter.fedSlot slot call) more
      (events ++ itemEvents slot.itemId slot.outputIndex
        (if (toolCallArguments call).isEmpty || slot.server then []
          else [.delta (toolCallArguments call)])) := by
  refine ⟨?_, ?_, ?_, slotted.server, slotted.done, slotted.kind, serial, ?_⟩
  · rw [lastOr_append, ← slotted.callId]
    rfl
  · rw [lastOr_append, ← slotted.name]
    rfl
  · rw [List.map_append, String.join_append, ← slotted.arguments]
    simp [ResponsesConverter.fedSlot]
  · have same : (ResponsesConverter.fedSlot slot call).itemId = slot.itemId := rfl
    have kept : (ResponsesConverter.fedSlot slot call).server = slot.server := rfl
    rw [same, kept, changesOf_append, changesOf_same, slotted.changes]
    cases server : slot.server with
    | true => simp
    | false =>
        cases empty : (toolCallArguments call).isEmpty <;>
          simp [callScript, argumentDeltas_append, empty]

theorem Board.slotless_iff (board : Board names exposeThinking track converter events) :
    converter.tools = [] ↔ track.round.registered = [] := by
  constructor
  · intro none_there
    cases registered : track.round.registered with
    | nil => rfl
    | cons call rest =>
        have absent := board.noSlots (signedCallIndex call) (by rw [none_there]; rfl)
        simp [CallRound.firstAt, registered] at absent
  · intro none_there
    cases tools : converter.tools with
    | nil => rfl
    | cons entry rest =>
        obtain ⟨first, found, _⟩ := board.slots entry.1 entry.2 (by rw [tools]; simp [OrderedMap.lookup])
        simp [CallRound.firstAt, none_there] at found

theorem toolStep_add (call : Value)
    (absent : OrderedMap.lookup (signedCallIndex call) converter.tools = none) :
    ToolStep converter (converter.addToolSlot call).1 (signedCallIndex call)
      (converter.newSlot call) := by
  rw [converter.addToolSlot_eq call, ResponsesConverter.emitAll_fst]
  exact ⟨rfl, rfl, fun kind => by cases kind <;> rfl, Nat.le_succ _, rfl, rfl,
    Nat.lt_succ_self _, .inl ⟨absent, Nat.le_refl _⟩⟩

theorem toolStep_extend (call : Value) {slot : ToolSlot}
    (held : OrderedMap.lookup (signedCallIndex call) converter.tools = some slot)
    (isCall : slot.itemId.kind = .functionCall) (made : slot.itemId.serial < converter.idsMade) :
    ToolStep converter (converter.feedToolCallArguments call).1 (signedCallIndex call)
      (ResponsesConverter.fedSlot slot call) := by
  rw [ResponsesConverter.feedToolCallArguments_held held, ResponsesConverter.emitAll_fst]
  exact ⟨rfl, rfl, fun kind => by cases kind <;> rfl, Nat.le_refl _, rfl, isCall, made,
    .inr ⟨slot, held, rfl⟩⟩

theorem Board.addSlot (board : Board names exposeThinking track converter events) (call : Value)
    (absent : OrderedMap.lookup (signedCallIndex call) converter.tools = none) :
    Board names exposeThinking (track.register names call) (converter.addToolSlot call).1
      (events ++ (converter.addToolSlot call).events) := by
  have added := converter.addToolSlot_eq call
  obtain ⟨unseen, unsaid⟩ := board.noSlots _ absent
  have step := toolStep_add call absent
  have unused : changesOf (converter.newSlot call).itemId events = [] :=
    board.unused (Nat.le_refl _)
  have server : (converter.newSlot call).server = names.contains (fragmentName call) :=
    congrArg (List.contains · _) board.serverNames
  rw [congrArg ResponsesEmission.events added, ResponsesConverter.emitAll_events]
  refine board.toolStep step (track.register names call) (fun kind => by cases kind <;> rfl) rfl
    (fun other different => (CallRound.firstAt_register unseen).trans (if_neg different))
    (fun _ _ => rfl) ((CallRound.firstAt_register unseen).trans (if_pos rfl))
    (CallRound.own_register unseen board.own) _ _ ?_
  have nothing : (track.register names call).round.fragmentsAt (signedCallIndex call) = [] := unsaid
  rw [nothing]
  refine ⟨rfl, rfl, rfl, server, rfl, rfl, step.made, ?_⟩
  rw [changesOf_append, changesOf_same, unused, List.nil_append]
  rfl

theorem Board.extend (board : Board names exposeThinking track converter events) (call : Value)
    {slot : ToolSlot}
    (held : OrderedMap.lookup (signedCallIndex call) converter.tools = some slot) :
    Board names exposeThinking { track with round := track.round.extend call }
      (converter.feedToolCallArguments call).1
      (events ++ (converter.feedToolCallArguments call).events) := by
  have fed := ResponsesConverter.feedToolCallArguments_held held
  obtain ⟨first, found, slotted⟩ := board.slots _ slot held
  have step := toolStep_extend call held slotted.kind slotted.serial
  rw [congrArg ResponsesEmission.events fed, ResponsesConverter.emitAll_events]
  refine board.toolStep step { track with round := track.round.extend call }
    (fun kind => by cases kind <;> rfl) rfl (fun _ _ => rfl)
    (fun other different => ?_) found board.own slot.outputIndex _ ?_
  · rw [CallRound.fragmentsAt_extend, if_neg different, List.append_nil]
  · rw [CallRound.fragmentsAt_extend, if_pos rfl]
    exact slotted.fed call step.made

theorem Board.search (board : Board names exposeThinking track converter events)
    (outcome : SearchOutcome) (opened : List Bool) :
    Board names exposeThinking { track with opened := opened }
      (converter.emitWebSearchCall outcome).1
      (events ++ (converter.emitWebSearchCall outcome).events) := by
  let id : ItemId := ⟨.webSearchCall, converter.idsMade⟩
  have emitted : (converter.emitWebSearchCall outcome).events =
      itemEvents id converter.nextOutputIndex
        [.searchStarted, .done (ResponsesConverter.searchItem id outcome)] :=
    ResponsesConverter.emitAll_events ..
  rw [emitted, ResponsesConverter.emitWebSearchCall, ResponsesConverter.emitAll_fst]
  have elsewhere {other : ItemId} (apart : other.kind ≠ .webSearchCall) :=
    @changesOf_append_other events other id (fun same => apart (same ▸ rfl))
      converter.nextOutputIndex [.searchStarted, .done (ResponsesConverter.searchItem id outcome)]
  have texts {kind : TextKind} {state : TextItemState}
      (held : converter.textState kind = some state) : state.itemId.kind ≠ .webSearchCall := by
    rw [(board.textIds kind state held).1]
    simp
  have textState (kind : TextKind) : ∀ other : ResponsesConverter,
      other.message = converter.message → other.reasoning = converter.reasoning →
      other.textState kind = converter.textState kind := by
    intro other message reasoning
    cases kind
    · exact reasoning
    · exact message
  exact {
    serverNames := board.serverNames
    exposes := board.exposes
    fresh := fresh_append board.fresh (Nat.le_succ _) (Nat.lt_succ_self _)
    textIds := fun kind state held => by
      obtain ⟨isText, made⟩ := board.textIds kind state (textState kind _ rfl rfl ▸ held)
      exact ⟨isText, Nat.lt_succ_of_lt made⟩
    said := fun kind state held => by
      have before := board.said kind state (textState kind _ rfl rfl ▸ held)
      cases kind <;> exact before
    silent := fun kind absent => by
      have before := board.silent kind (textState kind _ rfl rfl ▸ absent)
      cases kind <;> exact before
    shown := fun kind state shows held => by
      have was : converter.textState kind = some state := textState kind _ rfl rfl ▸ held
      have before := (board.shown kind state shows was).frame (elsewhere (texts was))
      cases kind <;> exact before
    hidden := fun kind state hides held => by
      have was : converter.textState kind = some state := textState kind _ rfl rfl ▸ held
      obtain ⟨notAdded, nothing⟩ := board.hidden kind state hides was
      exact ⟨notAdded, (elsewhere (texts was)).trans nothing⟩
    otherTexts := fun id kind isText others =>
      (elsewhere (by simp [isText])).trans (board.otherTexts id kind isText fun state held =>
        others state ((textState kind _ rfl rfl).trans held))
    slots := fun index slot held => by
      obtain ⟨first, found, slotted⟩ := board.slots index slot held
      exact ⟨first, found, slotted.frame (Nat.le_succ _) (elsewhere (by simp [slotted.kind]))⟩
    noSlots := board.noSlots
    own := board.own
    sorted := board.sorted
    apart := board.apart
    left := fun id isCall others => by
      rw [elsewhere (by simp [isCall])]
      exact board.left id isCall others
    lost := fun happened => by
      obtain ⟨id, isCall, others, used⟩ := board.lost happened
      exact ⟨id, isCall, others, (@elsewhere id (by simp [isCall])) ▸ used⟩
    searches := fun other isSearch item => by
      rw [changesOf_append]
      intro member
      rcases List.mem_append.mp member with before | now
      · exact board.searches other isSearch item before
      · by_cases same : other = id
        · subst same
          simp at now
        · rw [changesOf_other (Ne.symm same)] at now
          cases now }

theorem lost_newRound (track : Track) :
    ({ track with earlier := track.earlier ++ [track.round], round := .new } : Track).Lost names ↔
      track.Lost names ∨
        ∃ call ∈ track.round.registered, names.contains (fragmentName call) = false := by
  simp [Track.Lost, or_and_right, exists_or]

theorem Board.newRound (board : Board names exposeThinking track converter events) :
    Board names exposeThinking
      { track with earlier := track.earlier ++ [track.round], round := .new }
      converter.beginNewUpstreamRound events where
  serverNames := board.serverNames
  exposes := board.exposes
  fresh := board.fresh
  textIds := fun kind state held => board.textIds kind state (by cases kind <;> exact held)
  said := fun kind state held => by
    have before := board.said kind state (by cases kind <;> exact held)
    cases kind <;> exact before
  silent := fun kind absent => by
    have before := board.silent kind (by cases kind <;> exact absent)
    cases kind <;> exact before
  shown := fun kind state shows held => by
    have before := board.shown kind state shows (by cases kind <;> exact held)
    cases kind <;> exact before
  hidden := fun kind state hides held =>
    board.hidden kind state hides (by cases kind <;> exact held)
  otherTexts := fun id kind isText others => board.otherTexts id kind isText fun state held =>
    others state (by cases kind <;> exact held)
  slots := by
    intro index slot held
    cases held
  noSlots := fun _ _ => ⟨rfl, rfl⟩
  own := fun _ member => by cases member
  sorted := List.Pairwise.nil
  apart := by
    intro index slot other held found
    cases found
  left := fun id isCall _ => by
    rw [lost_newRound, not_or]
    by_cases slotted : ∃ index slot, OrderedMap.lookup index converter.tools = some slot ∧
        slot.itemId = id
    · obtain ⟨index, slot, held, rfl⟩ := slotted
      obtain ⟨first, found, about⟩ := board.slots index slot held
      rw [about.changes]
      cases server : slot.server with
      | true => simp
      | false =>
          refine ⟨?_, fun none_lost => ?_⟩
          · intro change member
            simp only [Bool.false_eq_true, if_false, callScript, List.mem_cons,
              List.mem_map] at member
            rcases member with rfl | ⟨text, _, rfl⟩ <;> rfl
          · have client : names.contains (fragmentName first) = false := about.server ▸ server
            exact absurd ⟨first, List.mem_of_find?_eq_some found, client⟩ none_lost.2
    · have before := board.left id isCall fun index slot held same =>
        slotted ⟨index, slot, held, same⟩
      exact ⟨before.1, fun none_lost => before.2 none_lost.1⟩
  lost := fun happened => by
    have unslotted {id : ItemId} : ∀ index slot,
        OrderedMap.lookup index converter.beginNewUpstreamRound.tools = some slot →
          slot.itemId ≠ id := by
      intro index slot held
      cases held
    rcases (lost_newRound track).mp happened with before | ⟨call, member, client⟩
    · obtain ⟨id, isCall, _, used⟩ := board.lost before
      exact ⟨id, isCall, unslotted, used⟩
    · cases held : OrderedMap.lookup (signedCallIndex call) converter.tools with
      | none =>
          have absent := (board.noSlots _ held).1
          simp [board.own call member] at absent
      | some slot =>
          obtain ⟨first, found, about⟩ := board.slots _ slot held
          obtain rfl := Option.some.inj ((board.own call member).symm.trans found)
          refine ⟨slot.itemId, about.kind, unslotted, ?_⟩
          rw [about.changes, about.server, client]
          simp [callScript]
  searches := board.searches

namespace ResponsesConverter

theorem tools_closeTextItem (converter : ResponsesConverter) (kind : TextKind)
    (closes : TextItemState → Bool) :
    (converter.closeTextItem kind closes).1.tools = converter.tools := by
  rw [closeTextItem]
  split
  next => rfl
  next state _ =>
    split
    next =>
      rw [emitAll_fst]
      cases kind <;> rfl
    next => rfl

end ResponsesConverter

theorem Board.started (board : Board names exposeThinking track converter events) :
    Board names exposeThinking track converter.ensureStarted.1
      (events ++ converter.ensureStarted.events) := by
  have same : SameItems converter converter.ensureStarted.1 := by
    rw [ResponsesConverter.ensureStarted]
    split
    next => exact ⟨rfl, rfl, rfl, rfl, rfl, rfl⟩
    next =>
      rw [ResponsesConverter.emitAll_fst]
      exact ⟨rfl, rfl, rfl, rfl, rfl, rfl⟩
  refine (board.same same).more ?_
  intro id index change member
  rw [ResponsesConverter.ensureStarted] at member
  split at member
  next => cases member
  next => simp [ResponsesConverter.emitAll_events] at member

theorem Board.reasoned (board : Board names exposeThinking track converter events)
    (text : String) : Board names exposeThinking (track.hear .reasoning exposeThinking text)
      (converter.feedReasoning text).1 (events ++ (converter.feedReasoning text).events) := by
  cases exposeThinking with
  | false => exact board.feedHidden rfl text
  | true =>
      have fed := board.feed .reasoning (fun state => !state.partAdded) text rfl (fun _ => rfl)
        fun _ _ partAdded => by simp [partAdded]
      have same : converter.feedReasoning text =
          converter.feedTextItem .reasoning (fun state => !state.partAdded) text := by
        rw [ResponsesConverter.feedReasoning, if_pos board.exposes]
      exact same ▸ fed

theorem Board.texted (board : Board names exposeThinking track converter events)
    (text : String) : Board names exposeThinking (track.hear .message true text)
      (converter.feedText text).1 (events ++ (converter.feedText text).events) :=
  board.feed .message (fun state => !state.itemAdded) text rfl (fun _ => rfl)
    fun _ itemAdded _ => by simp [itemAdded]

theorem Board.closing (board : Board names exposeThinking track converter events)
    {closed : ResponsesEmission}
    (equal : closed =
      if converter.tools.isEmpty then converter.closeMessageItem else (converter, [])) :
    Board names exposeThinking track.closing closed.1 (events ++ closed.events) ∧
      closed.1.tools = converter.tools := by
  rw [equal]
  simp only [Track.closing, List.isEmpty_iff, ← board.slotless_iff]
  split
  next =>
    exact ⟨board.close .message (fun state => !state.itemDone) rfl fun _ _ => rfl,
      converter.tools_closeTextItem _ _⟩
  next => exact ⟨by simpa [ResponsesEmission.events] using board, rfl⟩

theorem Board.registered (board : Board names exposeThinking track converter events)
    (call : Value) : Board names exposeThinking
      (track.move names exposeThinking (.register call)) (converter.ensureToolItemAdded call).1
      (events ++ (converter.ensureToolItemAdded call).events) := by
  cases held : OrderedMap.lookup (signedCallIndex call) converter.tools with
  | some slot =>
      obtain ⟨first, found, _⟩ := board.slots _ slot held
      have nothing : converter.ensureToolItemAdded call = (converter, []) := by
        rw [ResponsesConverter.ensureToolItemAdded, held]
        rfl
      rw [nothing, Track.move, if_pos (by rw [found]; rfl)]
      simpa [ResponsesEmission.events] using board
  | none =>
      let closed : ResponsesEmission :=
        if converter.tools.isEmpty then converter.closeMessageItem else (converter, [])
      have made : converter.ensureToolItemAdded call =
          closed.andThen fun next => next.addToolSlot call := by
        rw [ResponsesConverter.ensureToolItemAdded, held]
        rfl
      obtain ⟨after, kept⟩ := @Board.closing _ _ _ _ _ board closed rfl
      rw [made, Track.move, if_neg (by rw [(board.noSlots _ held).1]; simp),
        ResponsesEmission.events_andThen, ← List.append_assoc]
      exact after.addSlot call (kept ▸ held)

theorem Board.extended (board : Board names exposeThinking track converter events)
    (call : Value) : Board names exposeThinking
      (track.move names exposeThinking (.extend call)) (converter.feedToolCallArguments call).1
      (events ++ (converter.feedToolCallArguments call).events) := by
  rw [Track.move]
  cases held : OrderedMap.lookup (signedCallIndex call) converter.tools with
  | some slot =>
      obtain ⟨first, found, _⟩ := board.slots _ slot held
      rw [if_pos (by rw [found]; rfl)]
      exact board.extend call held
  | none =>
      rw [if_neg (by simp [(board.noSlots _ held).1]), ResponsesConverter.feedToolCallArguments,
        held]
      simpa [ResponsesEmission.events] using board

theorem Board.moved (board : Board names exposeThinking track converter events)
    (move : ConverterMove) : Board names exposeThinking (track.move names exposeThinking move)
      (converter.move move).1 (events ++ (converter.move move).events) := by
  have silent {track : Track} {next : ResponsesConverter}
      (quiet : Board names exposeThinking track next events) :
      Board names exposeThinking track next (events ++ ResponsesEmission.events (next, [])) := by
    simpa [ResponsesEmission.events] using quiet
  cases move with
  | start => exact board.started
  | note chunk =>
      have same : SameItems converter (converter.noteChunk chunk) := ⟨rfl, rfl, rfl, rfl, rfl, rfl⟩
      exact silent (board.same same)
  | finish reason =>
      have same : SameItems converter { converter with
        finishReason := reason.or converter.finishReason } := ⟨rfl, rfl, rfl, rfl, rfl, rfl⟩
      exact silent (board.same same)
  | reasoning text => exact board.reasoned text
  | text text => exact board.texted text
  | register call => exact board.registered call
  | extend call => exact board.extended call
  | searched outcome => exact board.search outcome _
  | newRound => exact silent board.newRound

theorem Board.movedAll (board : Board names exposeThinking track converter events)
    (moves : List ConverterMove) :
    Board names exposeThinking (track.moveAll names exposeThinking moves)
      (converter.moveAll moves).1 (events ++ (converter.moveAll moves).events) := by
  induction moves generalizing track converter events with
  | nil => simpa [ResponsesConverter.moveAll, ResponsesEmission.events, Track.moveAll] using board
  | cons move rest ih =>
      rw [ResponsesConverter.moveAll, ResponsesEmission.events_andThen, ← List.append_assoc]
      exact ih (board.moved move)

end ClineProxy
