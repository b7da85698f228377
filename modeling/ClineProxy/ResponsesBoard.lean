import ClineProxy.ResponsesTrack

/-! What the converter and its events hold after a list of moves. -/

namespace ClineProxy

open Json

def openingChanges (id : ItemId) : List ItemChange := [.added (.text id none), .partAdded]

def closingChanges (id : ItemId) (text : String) : List ItemChange :=
  [.textDone text, .partDone text, .done (.text id (some text))]

def textScript (id : ItemId) (said : Said) : List ItemChange :=
  openingChanges id ++ said.spoken.map .delta ++
    (if said.closed then closingChanges id (String.join said.spoken) else []) ++
    said.resumed.map .delta

def argumentDeltas (fragments : List Value) : List String :=
  (fragments.map toolCallArguments).filter fun text => !text.isEmpty

def callScript (id : ItemId) (first : Value) (fragments : List Value) : List ItemChange :=
  .added (.functionCall id (fragmentId first) (fragmentName first) "" false) ::
    (argumentDeltas fragments).map .delta

def lastOr (pick : Value → Option String) (base : String) (fragments : List Value) : String :=
  (fragments.reverse.findSome? pick).getD base

theorem lastOr_append (pick : Value → Option String) (base : String) (fragments : List Value)
    (call : Value) :
    lastOr pick base (fragments ++ [call]) = (pick call).getD (lastOr pick base fragments) := by
  cases said : pick call <;> simp [lastOr, said]

theorem argumentDeltas_append (fragments : List Value) (call : Value) :
    argumentDeltas (fragments ++ [call]) = argumentDeltas fragments ++
      if (toolCallArguments call).isEmpty then [] else [toolCallArguments call] := by
  cases empty : (toolCallArguments call).isEmpty <;> simp [argumentDeltas, empty]

theorem join_argumentDeltas (fragments : List Value) :
    String.join (argumentDeltas fragments) = String.join (fragments.map toolCallArguments) := by
  induction fragments with
  | nil => rfl
  | cons call rest ih =>
      have head : argumentDeltas (call :: rest) =
          (if (toolCallArguments call).isEmpty then [] else [toolCallArguments call]) ++
            argumentDeltas rest := by
        cases empty : (toolCallArguments call).isEmpty <;> simp [argumentDeltas, empty]
      rw [head, String.join_append, ih, List.map_cons, String.join_cons]
      split
      next empty => simp [String.isEmpty_iff.mp empty]
      next => simp

/-- A text item that is shown. -/
structure TextShown (state : TextItemState) (said : Said) (events : List ResponsesEvent) :
    Prop where
  changes : changesOf state.itemId events = textScript state.itemId said
  accum : state.accum = String.join (said.spoken ++ said.resumed)
  itemAdded : state.itemAdded = true
  partAdded : state.partAdded = true
  partDone : state.partDone = said.closed
  itemDone : state.itemDone = said.closed
  placed : state.outputIndex.isSome = true
  quiet : said.closed = false → said.resumed = []

def TextKind.shown (exposeThinking : Bool) : TextKind → Bool
  | reasoning => exposeThinking
  | message => true

structure SlotBoard (names : List String) (first : Value) (fragments : List Value)
    (slot : ToolSlot) (made : Nat) (events : List ResponsesEvent) : Prop where
  callId : slot.callId = lastOr toolCallId (fragmentId first) fragments
  name : slot.name = lastOr toolCallName (fragmentName first) fragments
  arguments : slot.arguments = String.join (fragments.map toolCallArguments)
  server : slot.server = names.contains (fragmentName first)
  done : slot.done = false
  kind : slot.itemId.kind = .functionCall
  serial : slot.itemId.serial < made
  changes : changesOf slot.itemId events =
    if slot.server then [] else callScript slot.itemId first fragments

def ItemChange.closes : ItemChange → Bool
  | textDone _ | partDone _ | done _ => true
  | _ => false

structure Board (names : List String) (exposeThinking : Bool) (track : Track)
    (converter : ResponsesConverter) (events : List ResponsesEvent) : Prop where
  serverNames : converter.serverToolNames = names
  exposes : converter.exposeThinking = exposeThinking
  fresh : ∀ id index change, .item id index change ∈ events → id.serial < converter.idsMade
  textIds : ∀ kind state, converter.textState kind = some state →
    state.itemId.kind = .text kind ∧ state.itemId.serial < converter.idsMade
  said : ∀ kind state, converter.textState kind = some state → (track.said kind).spoken ≠ []
  silent : ∀ kind, converter.textState kind = none → track.said kind = .new
  shown : ∀ kind state, kind.shown exposeThinking = true →
    converter.textState kind = some state → TextShown state (track.said kind) events
  hidden : ∀ kind state, kind.shown exposeThinking = false →
    converter.textState kind = some state →
    state.itemAdded = false ∧ changesOf state.itemId events = []
  otherTexts : ∀ id kind, id.kind = .text kind →
    (∀ state, converter.textState kind = some state → state.itemId ≠ id) → changesOf id events = []
  slots : ∀ index slot, OrderedMap.lookup index converter.tools = some slot → ∃ first,
    track.round.firstAt index = some first ∧
      SlotBoard names first (track.round.fragmentsAt index) slot converter.idsMade events
  noSlots : ∀ index, OrderedMap.lookup index converter.tools = none →
    track.round.firstAt index = none ∧ track.round.fragmentsAt index = []
  own : ∀ call ∈ track.round.registered, track.round.firstAt (signedCallIndex call) = some call
  sorted : OrderedMap.Sorted converter.tools
  apart : ∀ index slot other held, OrderedMap.lookup index converter.tools = some slot →
    OrderedMap.lookup other converter.tools = some held → slot.itemId = held.itemId → index = other
  left : ∀ id, id.kind = .functionCall →
    (∀ index slot, OrderedMap.lookup index converter.tools = some slot → slot.itemId ≠ id) →
    (∀ change ∈ changesOf id events, change.closes = false) ∧
      (¬ track.Lost names → changesOf id events = [])
  lost : track.Lost names → ∃ id, id.kind = .functionCall ∧
    (∀ index slot, OrderedMap.lookup index converter.tools = some slot → slot.itemId ≠ id) ∧
    changesOf id events ≠ []
  searches : ∀ id, id.kind = .webSearchCall → ∀ item, .added item ∉ changesOf id events

theorem board_new (responseId : String) (createdAt : UInt64) (model : String)
    (exposeThinking : Bool) (names : List String) :
    Board names exposeThinking .new
      (.withServerTools responseId createdAt model exposeThinking names) [] where
  serverNames := rfl
  exposes := rfl
  fresh := by simp
  textIds := fun kind _ held => by cases kind <;> cases held
  said := fun kind _ held => by cases kind <;> cases held
  silent := fun kind _ => by cases kind <;> rfl
  shown := fun kind _ _ held => by cases kind <;> cases held
  hidden := fun kind _ _ held => by cases kind <;> cases held
  otherTexts := fun _ _ _ _ => rfl
  slots := by
    intro index slot held
    cases held
  noSlots := fun _ _ => ⟨rfl, rfl⟩
  own := fun _ member => by cases member
  sorted := List.Pairwise.nil
  apart := by
    intro index slot other held found
    cases found
  left := by simp
  lost := fun ⟨_, member, _⟩ => by cases member
  searches := by simp

variable {names : List String} {exposeThinking : Bool} {track : Track}
  {converter next : ResponsesConverter} {events : List ResponsesEvent}

theorem Board.unused (board : Board names exposeThinking track converter events) {id : ItemId}
    (unmade : converter.idsMade ≤ id.serial) : changesOf id events = [] := by
  by_contra used
  obtain ⟨index, change, member⟩ := changesOf_ne_nil used
  have made := board.fresh id index change member
  omega

structure SameItems (converter next : ResponsesConverter) : Prop where
  serverNames : next.serverToolNames = converter.serverToolNames
  exposes : next.exposeThinking = converter.exposeThinking
  message : next.message = converter.message
  reasoning : next.reasoning = converter.reasoning
  tools : next.tools = converter.tools
  idsMade : next.idsMade = converter.idsMade

theorem SameItems.textState (same : SameItems converter next) (kind : TextKind) :
    next.textState kind = converter.textState kind := by
  cases kind
  · exact same.reasoning
  · exact same.message

theorem Board.same (board : Board names exposeThinking track converter events)
    (same : SameItems converter next) : Board names exposeThinking track next events where
  serverNames := same.serverNames.trans board.serverNames
  exposes := same.exposes.trans board.exposes
  fresh := same.idsMade ▸ board.fresh
  textIds kind state held := same.idsMade ▸ board.textIds kind state (same.textState kind ▸ held)
  said kind state held := board.said kind state (same.textState kind ▸ held)
  silent kind absent := board.silent kind (same.textState kind ▸ absent)
  shown kind state shows held := board.shown kind state shows (same.textState kind ▸ held)
  hidden kind state hides held := board.hidden kind state hides (same.textState kind ▸ held)
  otherTexts id kind isText apart := board.otherTexts id kind isText fun state held =>
    apart state ((same.textState kind).trans held)
  slots := same.tools ▸ same.idsMade ▸ board.slots
  noSlots := same.tools ▸ board.noSlots
  own := board.own
  sorted := same.tools ▸ board.sorted
  apart := same.tools ▸ board.apart
  left := same.tools ▸ board.left
  lost := same.tools ▸ board.lost
  searches := board.searches

def NoItems (events : List ResponsesEvent) : Prop :=
  ∀ id index change, .item id index change ∉ events

theorem NoItems.changesOf {events : List ResponsesEvent} (none_there : NoItems events)
    (id : ItemId) : changesOf id events = [] := by
  by_contra used
  obtain ⟨index, change, member⟩ := changesOf_ne_nil used
  exact none_there id index change member

theorem TextShown.frame {state : TextItemState} {said : Said} {later : List ResponsesEvent}
    (shown : TextShown state said events)
    (same : changesOf state.itemId later = changesOf state.itemId events) :
    TextShown state said later :=
  ⟨same.trans shown.changes, shown.accum, shown.itemAdded, shown.partAdded, shown.partDone,
    shown.itemDone, shown.placed, shown.quiet⟩

theorem SlotBoard.frame {first : Value} {fragments : List Value} {slot : ToolSlot}
    {made more : Nat} {later : List ResponsesEvent}
    (slotted : SlotBoard names first fragments slot made events) (grown : made ≤ more)
    (same : changesOf slot.itemId later = changesOf slot.itemId events) :
    SlotBoard names first fragments slot more later :=
  ⟨slotted.callId, slotted.name, slotted.arguments, slotted.server, slotted.done, slotted.kind,
    Nat.lt_of_lt_of_le slotted.serial grown, same.trans slotted.changes⟩

theorem Board.more (board : Board names exposeThinking track converter events)
    {more : List ResponsesEvent} (noItems : NoItems more) :
    Board names exposeThinking track converter (events ++ more) := by
  have same (id : ItemId) : ClineProxy.changesOf id (events ++ more) =
      ClineProxy.changesOf id events := by
    rw [changesOf_append, noItems.changesOf, List.append_nil]
  exact {
    serverNames := board.serverNames
    exposes := board.exposes
    fresh := fun id index change member => (List.mem_append.mp member).elim
      (board.fresh id index change) fun now => absurd now (noItems id index change)
    textIds := board.textIds
    said := board.said
    silent := board.silent
    shown := fun kind state shows held => (board.shown kind state shows held).frame (same _)
    hidden := fun kind state hides held => ⟨(board.hidden kind state hides held).1,
      (same _).trans (board.hidden kind state hides held).2⟩
    otherTexts := fun id kind isText apart => (same id).trans (board.otherTexts id kind isText apart)
    slots := fun index slot held => by
      obtain ⟨first, found, slotted⟩ := board.slots index slot held
      exact ⟨first, found, slotted.frame (Nat.le_refl _) (same _)⟩
    noSlots := board.noSlots
    own := board.own
    sorted := board.sorted
    apart := board.apart
    left := fun id isCall apart => by
      rw [same]
      exact board.left id isCall apart
    lost := fun lost => by
      obtain ⟨id, isCall, apart, used⟩ := board.lost lost
      exact ⟨id, isCall, apart, same id ▸ used⟩
    searches := fun id isSearch => by
      rw [same]
      exact board.searches id isSearch }

namespace ResponsesConverter

theorem feedTextItem_fresh {converter : ResponsesConverter} {kind : TextKind}
    (partFirst : TextItemState → Bool) (text : String) (absent : converter.textState kind = none)
    (first : partFirst (newTextState kind converter.idsMade) = true) :
    converter.feedTextItem kind partFirst text =
      emitAll { converter.setTextState kind ⟨⟨.text kind, converter.idsMade⟩,
          some converter.nextOutputIndex, text, true, true, false, false⟩ with
        idsMade := converter.idsMade + 1
        nextOutputIndex := converter.nextOutputIndex + 1
        outputItems := converter.outputItems ++ [.text ⟨.text kind, converter.idsMade⟩] }
        (itemEvents ⟨.text kind, converter.idsMade⟩ converter.nextOutputIndex
          (openingChanges ⟨.text kind, converter.idsMade⟩ ++ [.delta text])) := by
  simp only [feedTextItem, ensureTextState, absent, first]
  cases kind <;> simp [newTextState, feedEvents, setTextState, itemEvents, openingChanges]

theorem feedTextItem_held {converter : ResponsesConverter} {kind : TextKind}
    {state : TextItemState} (partFirst : TextItemState → Bool) (text : String) {index : Nat}
    (held : converter.textState kind = some state) (later : partFirst state = false)
    (added : state.itemAdded = true) (placed : state.outputIndex = some index) :
    converter.feedTextItem kind partFirst text =
      emitAll (converter.setTextState kind { state with accum := state.accum ++ text })
        (itemEvents state.itemId index [.delta text]) := by
  have same : ({ state with
      accum := state.accum ++ text, outputIndex := some index, itemAdded := true,
      partAdded := state.partAdded || false } : TextItemState) =
      { state with accum := state.accum ++ text } := by
    rw [← placed, ← added, Bool.or_false]
  simp only [feedTextItem, ensureTextState, held, later, placed, Option.getD_some, same]
  cases kind <;> simp [feedEvents, setTextState, itemEvents, added]

end ResponsesConverter

theorem changesOf_append_other {id other : ItemId} (apart : id ≠ other) (index : Nat)
    (changes : List ItemChange) :
    changesOf id (events ++ itemEvents other index changes) = changesOf id events := by
  rw [changesOf_append, changesOf_other apart.symm, List.append_nil]

theorem ne_of_kind {id other : ItemId} {kind : ItemKind} (first : id.kind = kind)
    (second : other.kind ≠ kind) : id ≠ other := by
  rintro rfl
  exact second first

theorem Board.slots_frame (board : Board names exposeThinking track converter events)
    {id : ItemId} {kind : TextKind} (isText : id.kind = .text kind) (index : Nat)
    (changes : List ItemChange) {made : Nat} (grown : converter.idsMade ≤ made) :
    ∀ position slot, OrderedMap.lookup position converter.tools = some slot → ∃ first,
      track.round.firstAt position = some first ∧
        SlotBoard names first (track.round.fragmentsAt position) slot made
          (events ++ itemEvents id index changes) := by
  intro position slot held
  obtain ⟨first, found, slotted⟩ := board.slots position slot held
  refine ⟨first, found, slotted.frame grown (changesOf_append_other ?_ index changes)⟩
  exact ne_of_kind slotted.kind (by simp [isText])

theorem changesOf_append_text {id other : ItemId} {kind : TextKind} (isText : id.kind = .text kind)
    (isOther : ∀ kind, other.kind ≠ .text kind) (index : Nat) (changes : List ItemChange) :
    changesOf other (events ++ itemEvents id index changes) = changesOf other events :=
  changesOf_append_other (ne_of_kind isText (isOther kind)).symm index changes

theorem fresh_append {made more : Nat} {id : ItemId} {index : Nat} {changes : List ItemChange}
    (fresh : ∀ id index change, ResponsesEvent.item id index change ∈ events → id.serial < made)
    (grown : made ≤ more) (new : id.serial < more) :
    ∀ other position change, ResponsesEvent.item other position change ∈
      events ++ itemEvents id index changes → other.serial < more := by
  intro other position change member
  rcases List.mem_append.mp member with before | now
  · exact Nat.lt_of_lt_of_le (fresh other position change before) grown
  · exact (mem_itemEvents now).1 ▸ new

theorem TextShown.fed {state : TextItemState} {said : Said} (shown : TextShown state said events)
    (index : Nat) (text : String) :
    TextShown { state with accum := state.accum ++ text } (said.hear text)
      (events ++ itemEvents state.itemId index [.delta text]) := by
  obtain ⟨closed, spoken, resumed⟩ := said
  have changes := shown.changes
  have accum := shown.accum
  have quiet := shown.quiet
  cases closed with
  | true =>
      refine ⟨?_, ?_, shown.itemAdded, shown.partAdded, shown.partDone, shown.itemDone,
        shown.placed, fun going => by cases going⟩
      · rw [changesOf_append, changesOf_same, changes]
        simp [textScript, Said.hear]
      · simp [Said.hear, accum, String.join_append, String.append_assoc]
  | false =>
      obtain rfl : resumed = [] := quiet rfl
      refine ⟨?_, ?_, shown.itemAdded, shown.partAdded, shown.partDone, shown.itemDone,
        shown.placed, fun _ => rfl⟩
      · rw [changesOf_append, changesOf_same, changes]
        simp [textScript, Said.hear]
      · simp [Said.hear, accum, String.join_append]

theorem textShown_fresh {id : ItemId} (unused : changesOf id events = []) (index : Nat)
    (text : String) : TextShown ⟨id, some index, text, true, true, false, false⟩ (Said.new.hear text)
      (events ++ itemEvents id index (openingChanges id ++ [.delta text])) := by
  refine ⟨?_, ?_, rfl, rfl, rfl, rfl, rfl, fun _ => rfl⟩
  · rw [changesOf_append, changesOf_same, unused]
    simp [textScript, Said.hear, Said.new]
  · simp [Said.hear, Said.new]

theorem Board.otherTexts_frame (board : Board names exposeThinking track converter events)
    {own : ItemId} {kind : TextKind} (isText : own.kind = .text kind) (index : Nat)
    (changes : List ItemChange)
    (now : ∃ state, next.textState kind = some state ∧ state.itemId = own)
    (before : ∀ state, converter.textState kind = some state → state.itemId = own)
    (others : ∀ other, other ≠ kind → next.textState other = converter.textState other) :
    ∀ id other, id.kind = .text other →
      (∀ state, next.textState other = some state → state.itemId ≠ id) →
      changesOf id (events ++ itemEvents own index changes) = [] := by
  intro id other isOther apart
  obtain ⟨state, held, same⟩ := now
  by_cases matching : other = kind
  · subst matching
    have different : own ≠ id := same ▸ apart state held
    rw [changesOf_append_other different.symm]
    exact board.otherTexts id other isOther fun old was => before old was ▸ different
  · rw [changesOf_append_other (ne_of_kind isOther (by simpa [isText] using Ne.symm matching))]
    exact board.otherTexts id other isOther fun old was =>
      apart old ((others other matching).trans was)

/-- A text item of a kind gets a new state and some events of its own. -/
structure TextStep (converter next : ResponsesConverter) (kind : TextKind)
    (state : TextItemState) : Prop where
  serverNames : next.serverToolNames = converter.serverToolNames
  exposes : next.exposeThinking = converter.exposeThinking
  tools : next.tools = converter.tools
  idsMade : converter.idsMade ≤ next.idsMade
  now : next.textState kind = some state
  others : ∀ other, other ≠ kind → next.textState other = converter.textState other
  isText : state.itemId.kind = .text kind
  made : state.itemId.serial < next.idsMade
  before : ∀ old, converter.textState kind = some old → old.itemId = state.itemId

theorem Board.textStep (board : Board names exposeThinking track converter events)
    {kind : TextKind} {state : TextItemState} (step : TextStep converter next kind state)
    {later : Track} (round : later.round = track.round) (earlier : later.earlier = track.earlier)
    (others : ∀ other, other ≠ kind → later.said other = track.said other)
    (spoken : (later.said kind).spoken ≠ []) (index : Nat) (changes : List ItemChange)
    (shown : kind.shown exposeThinking = true → TextShown state (later.said kind)
      (events ++ itemEvents state.itemId index changes))
    (hidden : kind.shown exposeThinking = false → state.itemAdded = false ∧
      changesOf state.itemId (events ++ itemEvents state.itemId index changes) = []) :
    Board names exposeThinking later next (events ++ itemEvents state.itemId index changes) := by
  have lost : later.Lost names ↔ track.Lost names := by rw [Track.Lost, earlier, Track.Lost]
  have notText {id : ItemId} {isKind : ItemKind} (same : id.kind = isKind)
      (isOther : ∀ kind, isKind ≠ .text kind) :
      changesOf id (events ++ itemEvents state.itemId index changes) = changesOf id events :=
    changesOf_append_text step.isText (fun kind => same ▸ isOther kind) index changes
  have apart {other : TextKind} {held : TextItemState}
      (was : converter.textState other = some held) (different : other ≠ kind) :
      held.itemId ≠ state.itemId :=
    ne_of_kind (board.textIds other held was).1 (by simpa [step.isText] using Ne.symm different)
  exact {
    serverNames := step.serverNames.trans board.serverNames
    exposes := step.exposes.trans board.exposes
    fresh := fresh_append board.fresh step.idsMade step.made
    textIds := fun other held has => by
      by_cases same : other = kind
      · subst same
        obtain rfl := Option.some.inj (step.now.symm.trans has)
        exact ⟨step.isText, step.made⟩
      · obtain ⟨isText, made⟩ := board.textIds other held (step.others other same ▸ has)
        exact ⟨isText, Nat.lt_of_lt_of_le made step.idsMade⟩
    said := fun other held has => by
      by_cases same : other = kind
      · exact same ▸ spoken
      · exact others other same ▸ board.said other held (step.others other same ▸ has)
    silent := fun other absent => by
      by_cases same : other = kind
      · subst same
        cases step.now.symm.trans absent
      · exact (others other same).trans (board.silent other (step.others other same ▸ absent))
    shown := fun other held shows has => by
      by_cases same : other = kind
      · subst same
        obtain rfl := Option.some.inj (step.now.symm.trans has)
        exact shown shows
      · have was := (step.others other same).symm.trans has
        rw [others other same]
        exact (board.shown other held shows was).frame (changesOf_append_other (apart was same) _ _)
    hidden := fun other held hides has => by
      by_cases same : other = kind
      · subst same
        obtain rfl := Option.some.inj (step.now.symm.trans has)
        exact hidden hides
      · have was := (step.others other same).symm.trans has
        obtain ⟨notAdded, quiet⟩ := board.hidden other held hides was
        exact ⟨notAdded, (changesOf_append_other (apart was same) _ _).trans quiet⟩
    otherTexts := board.otherTexts_frame step.isText index changes ⟨state, step.now, rfl⟩
      step.before step.others
    slots := fun position slot held => by
      rw [round]
      exact board.slots_frame step.isText index changes step.idsMade position slot
        (step.tools ▸ held)
    noSlots := fun position absent => by
      rw [round]
      exact board.noSlots position (step.tools ▸ absent)
    own := round ▸ board.own
    sorted := step.tools ▸ board.sorted
    apart := step.tools ▸ board.apart
    left := fun id isCall others => by
      rw [notText isCall (by simp), lost]
      exact board.left id isCall (step.tools ▸ others)
    lost := fun happened => by
      obtain ⟨id, isCall, others, used⟩ := board.lost (lost.mp happened)
      exact ⟨id, isCall, step.tools ▸ others, notText isCall (by simp) ▸ used⟩
    searches := fun id isSearch => by
      rw [notText isSearch (by simp)]
      exact board.searches id isSearch }

theorem textStep_fresh {kind : TextKind} (partFirst : TextItemState → Bool) (text : String)
    (absent : converter.textState kind = none)
    (first : partFirst (ResponsesConverter.newTextState kind converter.idsMade) = true) :
    TextStep converter (converter.feedTextItem kind partFirst text).1 kind
      ⟨⟨.text kind, converter.idsMade⟩, some converter.nextOutputIndex, text, true, true, false,
        false⟩ := by
  rw [ResponsesConverter.feedTextItem_fresh partFirst text absent first,
    ResponsesConverter.emitAll_fst]
  refine ⟨by cases kind <;> rfl, by cases kind <;> rfl, by cases kind <;> rfl,
    Nat.le_succ _, by cases kind <;> rfl, fun other different => ?_, rfl,
    Nat.lt_succ_self _, fun old was => by cases absent.symm.trans was⟩
  cases kind <;> cases other <;> first | rfl | exact absurd rfl different

theorem textStep_replace {kind : TextKind} {state : TextItemState} (later : TextItemState)
    (held : converter.textState kind = some state) (same : later.itemId = state.itemId)
    (isText : state.itemId.kind = .text kind) (made : state.itemId.serial < converter.idsMade)
    (sequence : Nat) :
    TextStep converter { converter.setTextState kind later with sequence := sequence } kind
      later := by
  refine ⟨by cases kind <;> rfl, by cases kind <;> rfl, by cases kind <;> rfl,
    by cases kind <;> exact Nat.le_refl _, by cases kind <;> rfl, fun other different => ?_,
    same ▸ isText, by cases kind <;> exact same ▸ made, fun old was => ?_⟩
  · cases kind <;> cases other <;> first | rfl | exact absurd rfl different
  · obtain rfl := Option.some.inj (was.symm.trans held)
    exact same.symm

theorem textStep_held {kind : TextKind} {state : TextItemState}
    (partFirst : TextItemState → Bool) (text : String) {index : Nat}
    (held : converter.textState kind = some state) (later : partFirst state = false)
    (added : state.itemAdded = true) (placed : state.outputIndex = some index)
    (isText : state.itemId.kind = .text kind) (made : state.itemId.serial < converter.idsMade) :
    TextStep converter (converter.feedTextItem kind partFirst text).1 kind
      { state with accum := state.accum ++ text } := by
  rw [ResponsesConverter.feedTextItem_held partFirst text held later added placed,
    ResponsesConverter.emitAll_fst]
  exact textStep_replace { state with accum := state.accum ++ text } held rfl isText made _

theorem Said.hear_spoken {said : Said} (text : String)
    (begun : said.closed = true → said.spoken ≠ []) : (said.hear text).spoken ≠ [] := by
  rw [Said.hear]
  split
  next closed => exact begun closed
  next => simp

theorem Board.feed (board : Board names exposeThinking track converter events) (kind : TextKind)
    (partFirst : TextItemState → Bool) (text : String)
    (shows : kind.shown exposeThinking = true)
    (first : ∀ serial, partFirst (ResponsesConverter.newTextState kind serial) = true)
    (later : ∀ state : TextItemState, state.itemAdded = true → state.partAdded = true →
      partFirst state = false) :
    Board names exposeThinking (track.hear kind true text)
      (converter.feedTextItem kind partFirst text).1
      (events ++ (converter.feedTextItem kind partFirst text).events) := by
  have hides {Goal : Prop} (hidden : kind.shown exposeThinking = false) : Goal := by
    simp [shows] at hidden
  have round := Track.round_hear track kind true text
  have earlier := Track.earlier_hear track kind true text
  have others (other : TextKind) (different : other ≠ kind) :
      (track.hear kind true text).said other = track.said other := by
    rw [Track.said_hear, if_neg different]
  cases held : converter.textState kind with
  | none =>
      have silent := board.silent kind held
      have unused : changesOf ⟨.text kind, converter.idsMade⟩ events = [] :=
        board.unused (Nat.le_refl _)
      have fed := ResponsesConverter.feedTextItem_fresh partFirst text held (first _)
      have step := textStep_fresh partFirst text held (first _)
      have spoken : ((track.hear kind true text).said kind).spoken ≠ [] := by
        rw [Track.said_hear, if_pos rfl, silent]
        simp [Said.hear, Said.new]
      rw [congrArg ResponsesEmission.events fed, ResponsesConverter.emitAll_events]
      refine board.textStep step round earlier others spoken _ _ (fun _ => ?_) hides
      rw [Track.said_hear, if_pos rfl, silent]
      exact textShown_fresh unused _ text
  | some state =>
      have shown := board.shown kind state shows held
      obtain ⟨index, placed⟩ := Option.isSome_iff_exists.mp shown.placed
      obtain ⟨isText, made⟩ := board.textIds kind state held
      have silentPart := later state shown.itemAdded shown.partAdded
      have fed := ResponsesConverter.feedTextItem_held partFirst text held silentPart
        shown.itemAdded placed
      have step := textStep_held partFirst text held silentPart shown.itemAdded placed isText made
      have spoken : ((track.hear kind true text).said kind).spoken ≠ [] := by
        rw [Track.said_hear, if_pos rfl]
        exact Said.hear_spoken text fun _ => board.said kind state held
      rw [congrArg ResponsesEmission.events fed, ResponsesConverter.emitAll_events]
      refine board.textStep step round earlier others spoken _ _ (fun _ => ?_) hides
      rw [Track.said_hear, if_pos rfl]
      exact shown.fed index text

def Unsent (converter : ResponsesConverter) (emission : ResponsesEmission) : Prop :=
  emission.events = [] ∧ emission.1.outputItems = converter.outputItems ∧
    emission.1.nextOutputIndex = converter.nextOutputIndex

theorem hidden_fresh (text : String) (hides : converter.exposeThinking = false)
    (absent : converter.textState .reasoning = none) :
    TextStep converter (converter.feedReasoning text).1 .reasoning
        ⟨⟨.text .reasoning, converter.idsMade⟩, none, "" ++ text, false, false, false, false⟩ ∧
      Unsent converter (converter.feedReasoning text) := by
  have fed : converter.feedReasoning text =
      ({ converter with
        reasoning := some ⟨⟨.text .reasoning, converter.idsMade⟩, none, "" ++ text, false, false,
          false, false⟩
        idsMade := converter.idsMade + 1 }, []) := by
    rw [ResponsesConverter.feedReasoning, if_neg (by simp [hides]),
      ResponsesConverter.ensureTextState, absent]
    rfl
  rw [fed]
  refine ⟨⟨rfl, rfl, rfl, Nat.le_succ _, rfl, fun other different => ?_, rfl,
    Nat.lt_succ_self _, fun old was => by cases absent.symm.trans was⟩, rfl, rfl, rfl⟩
  cases other <;> first | rfl | exact absurd rfl different

theorem hidden_held (text : String) (hides : converter.exposeThinking = false)
    {state : TextItemState} (held : converter.textState .reasoning = some state)
    (isText : state.itemId.kind = .text .reasoning)
    (made : state.itemId.serial < converter.idsMade) :
    TextStep converter (converter.feedReasoning text).1 .reasoning
        { state with accum := state.accum ++ text } ∧
      Unsent converter (converter.feedReasoning text) := by
  have fed : converter.feedReasoning text =
      ({ converter with reasoning := some { state with accum := state.accum ++ text } }, []) := by
    rw [ResponsesConverter.feedReasoning, if_neg (by simp [hides]),
      ResponsesConverter.ensureTextState, held]
    rfl
  rw [fed]
  exact ⟨textStep_replace { state with accum := state.accum ++ text } held rfl isText made
    converter.sequence, rfl, rfl, rfl⟩

theorem Board.feedHidden (board : Board names exposeThinking track converter events)
    (hides : exposeThinking = false) (text : String) :
    Board names exposeThinking (track.hear .reasoning exposeThinking text)
      (converter.feedReasoning text).1 (events ++ (converter.feedReasoning text).events) := by
  have others (other : TextKind) (different : other ≠ .reasoning) :
      (track.hear .reasoning exposeThinking text).said other = track.said other := by
    rw [Track.said_hear, if_neg different]
  have spoken (begun : (track.said .reasoning).closed = true →
      (track.said .reasoning).spoken ≠ []) :
      ((track.hear .reasoning exposeThinking text).said .reasoning).spoken ≠ [] := by
    rw [Track.said_hear, if_pos rfl]
    exact Said.hear_spoken text begun
  have shows {Goal : Prop} (shown : TextKind.reasoning.shown exposeThinking = true) : Goal := by
    simp [TextKind.shown, hides] at shown
  have exposes := board.exposes.trans hides
  cases held : converter.textState .reasoning with
  | none =>
      obtain ⟨step, fed⟩ := hidden_fresh text exposes held
      have unused : changesOf ⟨.text .reasoning, converter.idsMade⟩ events = [] :=
        board.unused (Nat.le_refl _)
      rw [fed.1]
      refine board.textStep step (Track.round_hear ..) (Track.earlier_hear ..) others
        (spoken fun closed => ?_) 0 [] shows fun _ => ⟨rfl, ?_⟩
      · simp [board.silent .reasoning held, Said.new] at closed
      · simpa using unused
  | some state =>
      obtain ⟨isText, made⟩ := board.textIds .reasoning state held
      obtain ⟨step, fed⟩ := hidden_held text exposes held isText made
      obtain ⟨notAdded, quiet⟩ := board.hidden .reasoning state
        (by simp [TextKind.shown, hides]) held
      rw [fed.1]
      refine board.textStep step (Track.round_hear ..) (Track.earlier_hear ..) others
        (spoken fun _ => board.said .reasoning state held) 0 [] shows fun _ => ⟨notAdded, ?_⟩
      simpa using quiet

theorem TextShown.close {state : TextItemState} {said : Said} (shown : TextShown state said events)
    (going : said.closed = false) (index : Nat) :
    TextShown { state with itemDone := true, partDone := true } { said with closed := true }
      (events ++ itemEvents state.itemId index (closingChanges state.itemId state.accum)) := by
  have quiet := shown.quiet going
  refine ⟨?_, shown.accum, shown.itemAdded, shown.partAdded, rfl, rfl, shown.placed,
    fun open_ => by cases open_⟩
  rw [changesOf_append, changesOf_same, shown.changes, shown.accum]
  simp [textScript, going, quiet]

theorem Said.close_of_spoken {said : Said} (begun : said.spoken ≠ []) :
    said.close = { said with closed := true } := by
  simp [Said.close, begun]

namespace ResponsesConverter

theorem closeTextItem_closed {converter : ResponsesConverter} {kind : TextKind}
    {state : TextItemState} {closes : TextItemState → Bool}
    (held : converter.textState kind = some state) (kept : closes state = false) :
    converter.closeTextItem kind closes = (converter, []) := by
  rw [closeTextItem, held]
  simp [kept]

theorem closeTextItem_open {converter : ResponsesConverter} {kind : TextKind}
    {state : TextItemState} {closes : TextItemState → Bool} {index : Nat}
    (held : converter.textState kind = some state) (closed : closes state = true)
    (placed : state.outputIndex = some index) (partAdded : state.partAdded = true)
    (partDone : state.partDone = false) :
    converter.closeTextItem kind closes =
      (converter.setTextState kind { state with itemDone := true, partDone := true }).emitAll
        (itemEvents state.itemId index (closingChanges state.itemId state.accum)) := by
  rw [closeTextItem, held]
  simp [closed, closingEvents, placed, partAdded, partDone, itemEvents, closingChanges]

end ResponsesConverter

theorem Board.close (board : Board names exposeThinking track converter events) (kind : TextKind)
    (closes : TextItemState → Bool) (shows : kind.shown exposeThinking = true)
    (when : ∀ state : TextItemState, state.itemAdded = true → closes state = !state.itemDone) :
    Board names exposeThinking (track.setSaid kind (track.said kind).close)
      (converter.closeTextItem kind closes).1
      (events ++ (converter.closeTextItem kind closes).events) := by
  have unchanged (same : (track.said kind).close = track.said kind) :
      track.setSaid kind (track.said kind).close = track := by
    rw [same]
    cases kind <;> rfl
  cases held : converter.textState kind with
  | none =>
      have fed : converter.closeTextItem kind closes = (converter, []) := by
        rw [ResponsesConverter.closeTextItem, held]
      rw [unchanged (by rw [board.silent kind held]; rfl), fed]
      simpa [ResponsesEmission.events] using board
  | some state =>
      have shown := board.shown kind state shows held
      have begun := board.said kind state held
      have asked := when state shown.itemAdded
      cases closed : (track.said kind).closed with
      | true =>
          have fed := ResponsesConverter.closeTextItem_closed held
            (asked.trans (by rw [shown.itemDone, closed]; rfl))
          rw [unchanged (by rw [Said.close_of_spoken begun, ← closed]), fed]
          simpa [ResponsesEmission.events] using board
      | false =>
          obtain ⟨index, placed⟩ := Option.isSome_iff_exists.mp shown.placed
          obtain ⟨isText, made⟩ := board.textIds kind state held
          have fed := ResponsesConverter.closeTextItem_open held
            (asked.trans (by rw [shown.itemDone, closed]; rfl)) placed
            shown.partAdded (shown.partDone.trans closed)
          have step : TextStep converter (converter.closeTextItem kind closes).1 kind
              { state with itemDone := true, partDone := true } := by
            rw [fed, ResponsesConverter.emitAll_fst]
            exact textStep_replace { state with itemDone := true, partDone := true } held rfl
              isText made _
          rw [congrArg ResponsesEmission.events fed, ResponsesConverter.emitAll_events]
          refine board.textStep step (Track.round_setSaid ..) (Track.earlier_setSaid ..)
            (fun other different => ?_) ?_ _ _ (fun _ => ?_) fun hidden => ?_
          · rw [Track.said_setSaid, if_neg different]
          · rw [Track.said_setSaid, if_pos rfl]
            exact begun
          · rw [Track.said_setSaid, if_pos rfl, Said.close_of_spoken begun]
            exact shown.close closed index
          · simp [shows] at hidden

end ClineProxy
