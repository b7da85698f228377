import ClineProxy.StreamDriver

/-! The frames that a client gets over all rounds of a stream follow one lifecycle. -/

namespace ClineProxy

open Json

def startedIndexes (frames : List SseFrame) : List Nat :=
  frames.filterMap fun
    | .blockStart index _ => some index
    | _ => none

def stoppedIndexes (frames : List SseFrame) : List Nat :=
  frames.filterMap fun
    | .blockStop index => some index
    | _ => none

def SseFrame.isMessageStart : SseFrame → Bool
  | messageStart _ => true
  | _ => false

def SseFrame.needsStart : SseFrame → Bool
  | messageStart _ | error _ | ping => false
  | _ => true

def SseFrame.isPing : SseFrame → Bool
  | ping => true
  | _ => false

structure Lifecycle (frames : List SseFrame) : Prop where
  one_start : frames.countP SseFrame.isMessageStart ≤ 1
  start_first : ∀ before frame later, frames = before ++ frame :: later →
    frame.needsStart = true → before.any SseFrame.isMessageStart = true
  starts : startedIndexes frames = List.range (startedIndexes frames).length
  deltas : ∀ before index kind field text later,
    frames = before ++ .blockDelta index kind field text :: later →
      index ∈ startedIndexes before ∧ index ∉ stoppedIndexes before
  stops : ∀ before index later, frames = before ++ .blockStop index :: later →
    index ∈ startedIndexes before ∧ index ∉ stoppedIndexes before
  all_stopped : ∀ before reason sequence usage later,
    frames = before ++ .messageDelta reason sequence usage :: later →
      startedIndexes before ⊆ stoppedIndexes before
  delta_then_stop : ∀ before reason sequence usage later,
    frames = before ++ .messageDelta reason sequence usage :: later → later = [.messageStop]
  nothing_after_stop : ∀ before later, frames = before ++ .messageStop :: later → later = []
  nothing_after_error : ∀ before envelope later,
    frames = before ++ .error envelope :: later → later = []

inductive ClientPhase where
  | fresh
  | running
  | closing
  | ended
  deriving DecidableEq

/-- `blocks` says of each block that was started whether it is still open. -/
structure Client where
  phase : ClientPhase
  blocks : List Bool
  deriving DecidableEq

namespace Client

def new : Client := ⟨.fresh, []⟩

def accept (client : Client) : SseFrame → Option Client
  | .ping => some client
  | .messageStart _ => if client.phase = .fresh then some ⟨.running, client.blocks⟩ else none
  | .blockStart index _ =>
      if client.phase = .running ∧ index = client.blocks.length then
        some ⟨.running, client.blocks ++ [true]⟩
      else none
  | .blockDelta index _ _ _ =>
      if client.phase = .running ∧ client.blocks[index]? = some true then some client else none
  | .blockStop index =>
      if client.phase = .running ∧ client.blocks[index]? = some true then
        some ⟨.running, client.blocks.set index false⟩
      else none
  | .messageDelta .. =>
      if client.phase = .running ∧ client.blocks.all (· = false) then
        some ⟨.closing, client.blocks⟩
      else none
  | .messageStop => if client.phase = .closing then some ⟨.ended, client.blocks⟩ else none
  | .error _ =>
      if client.phase = .fresh ∨ client.phase = .running then some ⟨.ended, client.blocks⟩
      else none

def follow (client : Client) : List SseFrame → Option Client
  | [] => some client
  | frame :: rest => (client.accept frame).bind fun next => next.follow rest

theorem follow_append (client : Client) (first second : List SseFrame) :
    client.follow (first ++ second) =
      (client.follow first).bind fun next => next.follow second := by
  induction first generalizing client with
  | nil => rfl
  | cons frame rest ih =>
      simp only [List.cons_append, follow]
      cases client.accept frame with
      | none => rfl
      | some next => exact ih next

theorem follow_singleton (client : Client) (frame : SseFrame) :
    client.follow [frame] = client.accept frame := by
  simp [follow]

theorem follow_without_pings (client : Client) (frames : List SseFrame) :
    client.follow (frames.filter fun frame => !frame.isPing) = client.follow frames := by
  induction frames generalizing client with
  | nil => rfl
  | cons frame rest ih =>
      cases frame with
      | ping => exact ih client
      | _ =>
          rw [List.filter_cons_of_pos (by rfl), follow, follow]
          exact congrArg _ (funext fun next => ih next)

/-- What a client that has followed the frames knows of them. -/
structure Knows (frames : List SseFrame) (client : Client) : Prop where
  starts : startedIndexes frames = List.range client.blocks.length
  stops : ∀ index, index ∈ stoppedIndexes frames ↔ client.blocks[index]? = some false
  one_start : frames.countP SseFrame.isMessageStart ≤ 1
  fresh : client.phase = .fresh → frames.countP SseFrame.isMessageStart = 0
  running : client.phase = .running → frames.any SseFrame.isMessageStart = true
  closing : client.phase = .closing → frames.any SseFrame.isMessageStart = true

theorem knows_new : Knows [] new :=
  ⟨rfl, by simp [stoppedIndexes, new], by simp, by simp, by simp [new], by simp [new]⟩

theorem knows_step {frames : List SseFrame} {client next : Client} {frame : SseFrame}
    (knows : Knows frames client) (accepted : client.accept frame = some next) :
    Knows (frames ++ [frame]) next := by
  have starts := knows.starts
  have stops := knows.stops
  cases frame with
  | ping =>
      cases accepted
      constructor <;> simp_all [startedIndexes, stoppedIndexes, SseFrame.isMessageStart,
        knows.one_start, knows.fresh, knows.running, knows.closing]
  | messageStart message =>
      simp only [accept] at accepted
      split at accepted
      next fresh =>
        cases accepted
        have none_before := knows.fresh fresh
        constructor <;> simp_all [startedIndexes, stoppedIndexes, SseFrame.isMessageStart]
      next => cases accepted
  | blockStart index block =>
      simp only [accept] at accepted
      split at accepted
      next legal =>
        obtain ⟨running, rfl⟩ := legal
        cases accepted
        have seen := knows.running running
        constructor
        · simp_all [startedIndexes, List.range_succ]
        · intro query
          have before := stops query
          simp only [stoppedIndexes, List.filterMap_append, List.filterMap_cons,
            List.filterMap_nil, List.append_nil] at before ⊢
          rw [before]
          rcases Nat.lt_trichotomy query client.blocks.length with less | same | more
          · rw [List.getElem?_append_left less]
          · subst same
            simp
          · rw [List.getElem?_eq_none (by omega), List.getElem?_eq_none (by simp; omega)]
        · simpa [SseFrame.isMessageStart] using knows.one_start
        · simp
        · simp_all [SseFrame.isMessageStart]
        · simp
      next => cases accepted
  | blockDelta index kind field text =>
      simp only [accept] at accepted
      split at accepted
      next legal =>
        cases accepted
        have seen := knows.running legal.1
        constructor <;> simp_all [startedIndexes, stoppedIndexes, SseFrame.isMessageStart,
          knows.one_start]
      next => cases accepted
  | blockStop index =>
      simp only [accept] at accepted
      split at accepted
      next legal =>
        obtain ⟨running, isOpen⟩ := legal
        cases accepted
        have seen := knows.running running
        constructor
        · simp_all [startedIndexes]
        · intro query
          have before := stops query
          simp only [stoppedIndexes, List.filterMap_append, List.filterMap_cons,
            List.filterMap_nil, List.mem_append, List.mem_singleton] at before ⊢
          rw [before, List.getElem?_set]
          have inside := (List.getElem?_eq_some_iff.mp isOpen).1
          by_cases same : index = query
          · subst same
            simp [inside]
          · simp [same, Ne.symm same]
        · simpa [SseFrame.isMessageStart] using knows.one_start
        · simp
        · simp_all [SseFrame.isMessageStart]
        · simp
      next => cases accepted
  | messageDelta reason sequence usage =>
      simp only [accept] at accepted
      split at accepted
      next legal =>
        cases accepted
        have seen := knows.running legal.1
        constructor <;> simp_all [startedIndexes, stoppedIndexes, SseFrame.isMessageStart,
          knows.one_start]
      next => cases accepted
  | messageStop =>
      simp only [accept] at accepted
      split at accepted
      next legal =>
        cases accepted
        constructor <;> simp_all [startedIndexes, stoppedIndexes, SseFrame.isMessageStart,
          knows.one_start]
      next => cases accepted
  | error envelope =>
      simp only [accept] at accepted
      split at accepted
      next legal =>
        cases accepted
        constructor <;> simp_all [startedIndexes, stoppedIndexes, SseFrame.isMessageStart,
          knows.one_start]
      next => cases accepted

theorem knows_follow {before frames : List SseFrame} {client last : Client}
    (knows : Knows before client) (followed : client.follow frames = some last) :
    Knows (before ++ frames) last := by
  induction frames generalizing before client with
  | nil =>
      cases followed
      simpa using knows
  | cons frame rest ih =>
      obtain ⟨next, accepted, later⟩ := Option.bind_eq_some_iff.mp followed
      simpa using ih (knows_step knows accepted) later

theorem follow_split {before later : List SseFrame} {frame : SseFrame} {last : Client}
    (followed : new.follow (before ++ frame :: later) = some last) :
    ∃ client next, Knows before client ∧ client.accept frame = some next ∧
      next.follow later = some last := by
  rw [follow_append] at followed
  obtain ⟨client, first, followed⟩ := Option.bind_eq_some_iff.mp followed
  obtain ⟨next, accepted, rest⟩ := Option.bind_eq_some_iff.mp followed
  have knows := knows_follow knows_new first
  rw [List.nil_append] at knows
  exact ⟨client, next, knows, accepted, rest⟩

theorem mem_starts {frames : List SseFrame} {client : Client} (knows : Knows frames client)
    {index : Nat} : index ∈ startedIndexes frames ↔ index < client.blocks.length := by
  rw [knows.starts, List.mem_range]

theorem open_block {frames : List SseFrame} {client : Client} (knows : Knows frames client)
    {index : Nat} (isOpen : client.blocks[index]? = some true) :
    index ∈ startedIndexes frames ∧ index ∉ stoppedIndexes frames := by
  rw [mem_starts knows, knows.stops]
  exact ⟨(List.getElem?_eq_some_iff.mp isOpen).1, by simp [isOpen]⟩

theorem follow_ended {client last : Client} {frames : List SseFrame}
    (ended : client.phase = .ended) (followed : client.follow frames = some last)
    (quiet : ∀ frame ∈ frames, frame.isPing = false) : frames = [] := by
  cases frames with
  | nil => rfl
  | cons frame rest =>
      obtain ⟨next, accepted, -⟩ := Option.bind_eq_some_iff.mp followed
      have real := quiet frame (by simp)
      cases frame <;> simp_all [accept, SseFrame.isPing]

theorem lifecycle_of_follow {frames : List SseFrame} {last : Client}
    (followed : new.follow frames = some last) (complete : last.phase ≠ .closing)
    (quiet : ∀ frame ∈ frames, frame.isPing = false) : Lifecycle frames where
  one_start := by simpa using (knows_follow knows_new followed).one_start
  start_first := by
    rintro before frame later rfl needs
    obtain ⟨client, next, knows, accepted, -⟩ := follow_split followed
    cases frame with
    | messageStart _ | error _ | ping => cases needs
    | blockStart _ _ | blockDelta _ _ _ _ | blockStop _ | messageDelta _ _ _ =>
        simp only [accept] at accepted
        split at accepted
        next legal => exact knows.running legal.1
        next => cases accepted
    | messageStop =>
        simp only [accept] at accepted
        split at accepted
        next closing => exact knows.closing closing
        next => cases accepted
  starts := by
    have starts := (knows_follow knows_new followed).starts
    rw [List.nil_append] at starts
    rw [starts, List.length_range]
  deltas := by
    rintro before index kind field text later rfl
    obtain ⟨client, next, knows, accepted, -⟩ := follow_split followed
    simp only [accept] at accepted
    split at accepted
    next legal => exact open_block knows legal.2
    next => cases accepted
  stops := by
    rintro before index later rfl
    obtain ⟨client, next, knows, accepted, -⟩ := follow_split followed
    simp only [accept] at accepted
    split at accepted
    next legal => exact open_block knows legal.2
    next => cases accepted
  all_stopped := by
    rintro before reason sequence usage later rfl index started
    obtain ⟨client, next, knows, accepted, -⟩ := follow_split followed
    simp only [accept] at accepted
    split at accepted
    next legal =>
      have inside := (mem_starts knows).mp started
      rw [knows.stops, List.getElem?_eq_getElem inside]
      have all := List.all_eq_true.mp legal.2 client.blocks[index] (List.getElem_mem inside)
      exact congrArg some (by simpa using all)
    next => cases accepted
  delta_then_stop := by
    rintro before reason sequence usage later rfl
    obtain ⟨client, next, knows, accepted, rest⟩ := follow_split followed
    simp only [accept] at accepted
    split at accepted
    next =>
      cases accepted
      cases later with
      | nil =>
          cases rest
          exact absurd rfl complete
      | cons frame later =>
          obtain ⟨after, first, rest⟩ := Option.bind_eq_some_iff.mp rest
          have real := quiet frame (by simp)
          cases frame with
          | messageStop =>
              cases first
              rw [follow_ended rfl rest fun frame member => quiet frame (by simp [member])]
          | ping => cases real
          | _ => simp [accept] at first
    next => cases accepted
  nothing_after_stop := by
    rintro before later rfl
    obtain ⟨client, next, knows, accepted, rest⟩ := follow_split followed
    simp only [accept] at accepted
    split at accepted
    next =>
      cases accepted
      exact follow_ended rfl rest fun frame member => quiet frame (by simp [member])
    next => cases accepted
  nothing_after_error := by
    rintro before envelope later rfl
    obtain ⟨client, next, knows, accepted, rest⟩ := follow_split followed
    simp only [accept] at accepted
    split at accepted
    next =>
      cases accepted
      exact follow_ended rfl rest fun frame member => quiet frame (by simp [member])
    next => cases accepted

end Client

structure InStep (state : StreamState) (client : Client) : Prop where
  phase : client.phase = if state.started then .running else .fresh
  blocks : client.blocks = state.blocks.map fun kind => decide (kind ≠ .closed)
  text : ∀ index, state.textIndex = some index → state.blocks[index]? = some .text
  thinking : ∀ index, state.thinkingIndex = some index → state.blocks[index]? = some .thinking
  tools : ∀ key tool position, OrderedMap.lookup key state.tools = some tool →
    tool.blockIndex = some position → state.blocks[position]? = some .tool
  finished : state.finishReason.isSome → state.started = true
  round : state.roundComplete = true → state.started = true

def Steps (state : StreamState) (emission : Emission) : Prop :=
  ∀ client, InStep state client → state.started = true →
    ∃ next, client.follow emission.2 = some next ∧ InStep emission.1 next ∧
      emission.1.started = true ∧ emission.1.terminal = state.terminal

def Ends (state : StreamState) (emission : Emission) : Prop :=
  ∀ client, InStep state client → state.started = true →
    ∃ next, client.follow emission.2 = some next ∧ next.phase = .ended

variable {state : StreamState} {client : Client}

theorem InStep.length (synced : InStep state client) :
    client.blocks.length = state.blocks.length := by
  rw [synced.blocks, List.length_map]

theorem InStep.running (synced : InStep state client) (started : state.started = true) :
    client.phase = .running := by
  rw [synced.phase, if_pos started]

theorem InStep.isOpen (synced : InStep state client) {kind : BlockKind} {index : Nat}
    (held : state.blocks[index]? = some kind) (opened : kind ≠ .closed) :
    client.blocks[index]? = some true := by
  rw [synced.blocks, List.getElem?_map, held]
  simp [opened]

theorem InStep.push (synced : InStep state client) (started : state.started = true)
    (kind : BlockKind) : InStep { state with blocks := state.blocks ++ [kind] }
      ⟨.running, client.blocks ++ [decide (kind ≠ .closed)]⟩ := by
  have kept {index : Nat} {held : BlockKind} (found : state.blocks[index]? = some held) :
      (state.blocks ++ [kind])[index]? = some held := by
    rwa [List.getElem?_append_left (List.getElem?_eq_some_iff.mp found).1]
  exact ⟨by simp [started], by simp [synced.blocks],
    fun index held => kept (synced.text index held),
    fun index held => kept (synced.thinking index held),
    fun key tool position found held => kept (synced.tools key tool position found held),
    synced.finished, synced.round⟩

theorem InStep.accept_start (synced : InStep state client) (started : state.started = true)
    (block : Value) : client.accept (.blockStart state.blocks.length block) =
      some ⟨.running, client.blocks ++ [true]⟩ := by
  simp [Client.accept, synced.running started, synced.length]

theorem InStep.accept_delta (synced : InStep state client) (started : state.started = true)
    {index : Nat} {held : BlockKind} (found : state.blocks[index]? = some held)
    (opened : held ≠ .closed) (kind field text : String) :
    client.accept (.blockDelta index kind field text) = some client := by
  simp [Client.accept, synced.running started, synced.isOpen found opened]

theorem steps_refl (state : StreamState) : Steps state (state, []) :=
  fun client synced started => ⟨client, rfl, synced, started, rfl⟩

theorem Steps.andThen {state : StreamState} {first : Emission}
    {next : StreamState → Emission} (steps : Steps state first)
    (later : Steps first.1 (next first.1)) : Steps state (first.andThen next) := by
  intro client synced started
  obtain ⟨middle, followed, syncedMiddle, startedMiddle, same⟩ := steps client synced started
  obtain ⟨last, rest, syncedLast, startedLast, sameLast⟩ :=
    later middle syncedMiddle startedMiddle
  refine ⟨last, ?_, syncedLast, startedLast, sameLast.trans same⟩
  rw [Emission.andThen, Client.follow_append, followed]
  exact rest

theorem Steps.andThen_ends {state : StreamState} {first : Emission}
    {next : StreamState → Emission} (steps : Steps state first)
    (later : Ends first.1 (next first.1)) : Ends state (first.andThen next) := by
  intro client synced started
  obtain ⟨middle, followed, syncedMiddle, startedMiddle, -⟩ := steps client synced started
  obtain ⟨last, rest, ended⟩ := later middle syncedMiddle startedMiddle
  refine ⟨last, ?_, ended⟩
  rw [Emission.andThen, Client.follow_append, followed]
  exact rest

theorem steps_ensureText (state : StreamState) : Steps state state.ensureText := by
  rw [StreamState.ensureText]
  split
  next => exact steps_refl state
  next =>
    intro client synced started
    have pushed := synced.push started .text
    refine ⟨_, by rw [StreamState.pushBlock, Client.follow_singleton,
      synced.accept_start started], ?_, started, rfl⟩
    refine ⟨pushed.phase, pushed.blocks, ?_, pushed.thinking, pushed.tools, pushed.finished,
      pushed.round⟩
    rintro index held
    cases held
    simp [StreamState.pushBlock]

theorem steps_ensureThinking (state : StreamState) : Steps state state.ensureThinking := by
  rw [StreamState.ensureThinking]
  split
  next => exact steps_refl state
  next =>
    intro client synced started
    have pushed := synced.push started .thinking
    refine ⟨_, by rw [StreamState.pushBlock, Client.follow_singleton,
      synced.accept_start started], ?_, started, rfl⟩
    refine ⟨pushed.phase, pushed.blocks, pushed.text, ?_, pushed.tools, pushed.finished,
      pushed.round⟩
    rintro index held
    cases held
    simp [StreamState.pushBlock]

theorem steps_delta (state : StreamState) {index : Option Nat} (kind field text : String)
    (opened : ∀ client position, InStep state client → index = some position →
      ∃ held, state.blocks[position]? = some held ∧ held ≠ .closed) :
    Steps state (state.delta index kind field text) := by
  intro client synced started
  refine ⟨client, ?_, synced, started, rfl⟩
  cases index with
  | none => rfl
  | some position =>
      obtain ⟨held, found, isOpen⟩ := opened client position synced rfl
      simp [StreamState.delta, Client.follow, synced.accept_delta started found isOpen]

theorem steps_handleText (state : StreamState) (text : String) :
    Steps state (state.handleText text) := by
  rw [StreamState.handleText]
  split
  next => exact steps_refl state
  next =>
    exact (steps_ensureText state).andThen (steps_delta _ _ _ _
      fun client position synced held => ⟨_, synced.text position held, by decide⟩)

theorem steps_handleReasoning (state : StreamState) (reasoning : String) :
    Steps state (state.handleReasoning reasoning) := by
  rw [StreamState.handleReasoning]
  split
  next => exact steps_refl state
  next =>
    exact (steps_ensureThinking state).andThen (steps_delta _ _ _ _
      fun client position synced held => ⟨_, synced.thinking position held, by decide⟩)

theorem InStep.setTool (synced : InStep state client) (key : UInt64) (tool : ToolStream)
    (held : ∀ position, tool.blockIndex = some position →
      state.blocks[position]? = some .tool) : InStep (state.setTool key tool) client := by
  refine ⟨synced.phase, synced.blocks, synced.text, synced.thinking, ?_, synced.finished,
    synced.round⟩
  intro query stored position found index
  simp only [StreamState.setTool, OrderedMap.lookup_insert] at found
  split at found
  next =>
    cases found
    exact held position index
  next => exact synced.tools query stored position found index

theorem InStep.toolBlock (synced : InStep state client) (key : UInt64) (position : Nat)
    (held : ((OrderedMap.lookup key state.tools).getD .empty).blockIndex = some position) :
    state.blocks[position]? = some .tool := by
  cases found : OrderedMap.lookup key state.tools with
  | none => simp [found, ToolStream.empty] at held
  | some tool =>
      rw [found] at held
      exact synced.tools key tool position found held

theorem steps_startTool (state : StreamState) (key : UInt64) (tool : ToolStream) :
    Steps state (state.startTool key tool) := by
  intro client synced started
  have pushed := synced.push started .tool
  have last : (state.blocks ++ [BlockKind.tool])[state.blocks.length]? = some .tool := by simp
  refine ⟨⟨.running, client.blocks ++ [true]⟩, ?_, ?_, started, rfl⟩
  · rw [StreamState.startTool, Client.follow_append, StreamState.pushBlock,
      Client.follow_singleton, synced.accept_start started, Option.bind_some]
    split
    next => rfl
    next =>
      rw [Client.follow_singleton]
      exact pushed.accept_delta started last (by decide) _ _ _
  · refine InStep.setTool pushed key _ fun position held => ?_
    cases held
    exact last

theorem steps_appendArguments (state : StreamState) (key : UInt64) (arguments : String) :
    Steps state (state.appendArguments key arguments) := by
  intro client synced started
  simp only [StreamState.appendArguments]
  split
  next => exact steps_refl state client synced started
  next =>
    split
    next position held =>
      refine ⟨client, ?_, synced, started, rfl⟩
      rw [Client.follow_singleton]
      exact synced.accept_delta started (synced.toolBlock key position held) (by decide) _ _ _
    next held =>
      refine ⟨client, rfl, ?_, started, rfl⟩
      exact synced.setTool key _ fun position index => by simp [held] at index

theorem steps_handleTool (state : StreamState) (call : Value) :
    Steps state (state.handleTool call) := by
  refine Steps.andThen ?_ (steps_appendArguments _ _ _)
  split
  next => exact steps_startTool state _ _
  next =>
    intro client synced started
    refine ⟨client, rfl, ?_, started, rfl⟩
    exact synced.setTool _ _ fun position held => synced.toolBlock _ position held

theorem steps_handleTools (calls : List Value) (state : StreamState) :
    Steps state (state.handleTools calls) := by
  induction calls generalizing state with
  | nil => exact steps_refl state
  | cons call rest ih => exact (steps_handleTool state call).andThen (ih _)

theorem steps_handleDelta (state : StreamState) (delta : Map) :
    Steps state (state.handleDelta delta) :=
  ((steps_handleReasoning state _).andThen (steps_handleText _ _)).andThen
    (steps_handleTools _ _)

theorem Steps.noted {noted : StreamState} {emission : Emission} (steps : Steps noted emission)
    (same : ∀ client, InStep state client → state.started = true → InStep noted client)
    (started : noted.started = state.started) (terminal : noted.terminal = state.terminal) :
    Steps state emission := by
  intro client synced isStarted
  obtain ⟨next, followed, rest, isStartedNext, sameTerminal⟩ :=
    steps client (same client synced isStarted) (started.trans isStarted)
  exact ⟨next, followed, rest, isStartedNext, sameTerminal.trans terminal⟩

theorem steps_handleChoice (state : StreamState) (choice : Value) :
    Steps state (state.handleChoice choice) := by
  have noted : ∀ client, InStep state client → state.started = true → InStep { state with
      finishReason := ((choice.get "finish_reason").bind Value.asStr).or state.finishReason
      stopSequence := (choice.get "stop_sequence").getD state.stopSequence } client :=
    fun client synced started => ⟨synced.phase, synced.blocks, synced.text, synced.thinking,
      synced.tools, fun _ => started, synced.round⟩
  rw [StreamState.handleChoice]
  split
  next => exact (steps_handleDelta _ _).noted noted rfl rfl
  next => exact (steps_refl _).noted noted rfl rfl

theorem steps_handleStarted (state : StreamState) (value : Value) :
    Steps state (let noted := { state with usage := (value.get "usage").getD state.usage }
      match firstChoice value with
      | some choice => noted.handleChoice choice
      | none => (noted, [])) := by
  have noted : ∀ client, InStep state client → state.started = true →
      InStep { state with usage := (value.get "usage").getD state.usage } client :=
    fun client synced _ => ⟨synced.phase, synced.blocks, synced.text, synced.thinking,
      synced.tools, synced.finished, synced.round⟩
  dsimp only
  split
  next => exact (steps_handleChoice _ _).noted noted rfl rfl
  next => exact (steps_refl _).noted noted rfl rfl

theorem follow_closing (platform : Platform) (state : StreamState) (kind : BlockKind)
    (front : List Bool) (rest : List Bool) :
    Client.follow ⟨.running, front ++ decide (kind ≠ .closed) :: rest⟩
        (state.closingFrames platform (kind, front.length)) =
      some ⟨.running, front ++ false :: rest⟩ := by
  cases kind <;>
    simp [StreamState.closingFrames, Client.follow, Client.accept, List.set_append_right]

theorem follow_closings (platform : Platform) (state : StreamState) (kinds : List BlockKind)
    (front : List Bool) :
    Client.follow ⟨.running, front ++ kinds.map fun kind => decide (kind ≠ .closed)⟩
        ((kinds.zipIdx front.length).flatMap (state.closingFrames platform)) =
      some ⟨.running, front ++ kinds.map fun _ => false⟩ := by
  induction kinds generalizing front with
  | nil => simp [Client.follow]
  | cons kind rest ih =>
      rw [List.zipIdx_cons, List.flatMap_cons, Client.follow_append, List.map_cons,
        follow_closing, Option.bind_some]
      have next := ih (front ++ [false])
      simpa using next

theorem ends_finishWithStop (platform : Platform) (stopOverride : Option String)
    (state : StreamState) : Ends state (state.finishWithStop platform stopOverride) := by
  intro client synced started
  have shape : client =
      ⟨.running, [] ++ state.blocks.map fun kind => decide (kind ≠ .closed)⟩ := by
    cases client
    simp only [Client.mk.injEq]
    exact ⟨synced.running started, synced.blocks⟩
  have closed := follow_closings platform state state.blocks []
  refine ⟨⟨.ended, state.blocks.map fun _ => false⟩, ?_, rfl⟩
  rw [StreamState.finishWithStop, Client.follow_append, shape]
  simp only [List.length_nil] at closed
  rw [closed]
  simp [Client.follow, Client.accept, StreamState.messageDelta]

theorem steps_openTools (keys : List UInt64) (state : StreamState) :
    Steps state (state.openTools keys) := by
  induction keys generalizing state with
  | nil => exact steps_refl state
  | cons key rest ih => exact (steps_startTool state key _).andThen (ih _)

theorem ends_finalize (platform : Platform) {state : StreamState}
    (running : state.terminal = false) : Ends state (state.finalize platform) := by
  rw [StreamState.finalize, if_neg (by simp [running])]
  exact (steps_openTools _ state).andThen_ends (ends_finishWithStop platform none _)

theorem InStep.accept_error (synced : InStep state client) (message requestId : String) :
    client.follow [errorFrame message requestId] = some ⟨.ended, client.blocks⟩ := by
  have phase : client.phase = .fresh ∨ client.phase = .running := by
    rw [synced.phase]
    split <;> simp
  simp [Client.follow, errorFrame, Client.accept, phase]

/-- A payload keeps the client in step, or ends the stream. -/
def KeepsUp (client : Client) (emission : Emission) : Prop :=
  ∃ next, client.follow emission.2 = some next ∧
    ((emission.1.terminal = false ∧ InStep emission.1 next) ∨
      (emission.1.terminal = true ∧ next.phase = .ended))

theorem finalize_terminal (platform : Platform) {state : StreamState}
    (running : state.terminal = false) : (state.finalize platform).1.terminal = true := by
  rw [StreamState.finalize, if_neg (by simp [running])]
  rfl

theorem keepsUp_handleValue (synced : InStep state client) (running : state.terminal = false)
    (value : Value) : KeepsUp client (state.handleValue value) := by
  rw [StreamState.handleValue]
  have begun : ∃ middle, client.follow (state.start value).2 = some middle ∧
      InStep (state.start value).1 middle ∧ (state.start value).1.started = true ∧
      (state.start value).1.terminal = false := by
    rw [StreamState.start]
    split
    next started => exact ⟨client, rfl, synced, started, running⟩
    next fresh =>
      refine ⟨⟨.running, client.blocks⟩, ?_, ?_, rfl, running⟩
      · have phase : client.phase = .fresh := by rw [synced.phase, if_neg fresh]
        simp [Client.follow, Client.accept, StreamState.messageStart, phase]
      · exact ⟨rfl, synced.blocks, synced.text, synced.thinking, synced.tools, fun _ => rfl,
          fun _ => rfl⟩
  obtain ⟨middle, first, syncedMiddle, started, runningMiddle⟩ := begun
  obtain ⟨next, rest, syncedNext, -, same⟩ :=
    steps_handleStarted (state.start value).1 value middle syncedMiddle started
  refine ⟨next, ?_, .inl ⟨same.trans runningMiddle, syncedNext⟩⟩
  rw [Emission.andThen, Client.follow_append, first]
  exact rest

theorem keepsUp_fail (synced : InStep state client) (message : String) :
    KeepsUp client (state.fail message) :=
  ⟨_, synced.accept_error message state.requestId, .inr ⟨rfl, rfl⟩⟩

theorem keepsUp_handle (platform : Platform) (synced : InStep state client)
    (running : state.terminal = false) (data : String) :
    KeepsUp client (state.handle platform data) := by
  rw [StreamState.handle]
  split
  next =>
    split
    next => exact keepsUp_fail synced _
    next unfinished =>
      have started : state.started = true := by
        apply synced.finished
        cases held : state.finishReason <;> simp_all
      split
      next =>
        obtain ⟨next, followed, ended⟩ := ends_finalize platform running client synced started
        exact ⟨next, followed, .inr ⟨finalize_terminal platform running, ended⟩⟩
      next =>
        exact ⟨client, rfl, .inl ⟨running, synced.phase, synced.blocks, synced.text,
          synced.thinking, synced.tools, synced.finished, fun _ => started⟩⟩
  next =>
    split
    next => exact keepsUp_fail synced _
    next =>
      split
      next => exact keepsUp_fail synced _
      next => exact keepsUp_handleValue synced running _

theorem set_closed_keeps {blocks : List BlockKind} {index query : Nat} {held kind : BlockKind}
    (found : blocks[index]? = some held) (different : kind ≠ held)
    (stays : blocks[query]? = some kind) :
    (blocks.set index .closed)[query]? = some kind := by
  have apart : index ≠ query := by
    rintro rfl
    exact different (Option.some.inj (stays.symm.trans found))
  rwa [List.getElem?_set_ne apart]

theorem follow_close (platform : Platform) (synced : InStep state client)
    (started : state.started = true) {index : Nat} {held : BlockKind}
    (found : state.blocks[index]? = some held) (opened : held ≠ .closed) :
    client.follow (state.closingFrames platform (held, index)) =
      some ⟨.running, client.blocks.set index false⟩ := by
  have isOpen := synced.isOpen found opened
  cases held <;>
    simp_all [StreamState.closingFrames, Client.follow, Client.accept, synced.running started]

theorem steps_closeThinking (platform : Platform) (state : StreamState) :
    Steps state (state.closeThinking platform) := by
  rw [StreamState.closeThinking]
  split
  next => exact steps_refl state
  next index held =>
    intro client synced started
    have found := synced.thinking index held
    rw [if_pos found]
    refine ⟨_, follow_close platform synced started found (by decide), ?_, started, rfl⟩
    refine ⟨by simp [started], by simp [synced.blocks, List.map_set], ?_, ?_, ?_,
      synced.finished, synced.round⟩
    · exact fun query at_ => set_closed_keeps found (by decide) (synced.text query at_)
    · exact fun query at_ => by cases at_
    · exact fun key tool position stored at_ =>
        set_closed_keeps found (by decide) (synced.tools key tool position stored at_)

theorem steps_closeText (platform : Platform) (state : StreamState) :
    Steps state (state.closeText platform) := by
  rw [StreamState.closeText]
  split
  next => exact steps_refl state
  next index held =>
    intro client synced started
    have found := synced.text index held
    rw [if_pos found]
    refine ⟨_, follow_close platform synced started found (by decide), ?_, started, rfl⟩
    refine ⟨by simp [started], by simp [synced.blocks, List.map_set], ?_, ?_, ?_,
      synced.finished, synced.round⟩
    · exact fun query at_ => by cases at_
    · exact fun query at_ => set_closed_keeps found (by decide) (synced.thinking query at_)
    · exact fun key tool position stored at_ =>
        set_closed_keeps found (by decide) (synced.tools key tool position stored at_)

theorem InStep.pushClosed (synced : InStep state client) (started : state.started = true)
    (block : Value) (deltas : List SseFrame)
    (accepted : Client.follow ⟨.running, client.blocks ++ [true]⟩ deltas =
      some ⟨.running, client.blocks ++ [true]⟩) :
    client.follow (.blockStart state.blocks.length block :: deltas ++
        [.blockStop state.blocks.length]) = some ⟨.running, client.blocks ++ [false]⟩ := by
  rw [List.cons_append, Client.follow, synced.accept_start started, Option.bind_some,
    Client.follow_append, accepted, Option.bind_some, Client.follow_singleton]
  simp [Client.accept, ← synced.length]

theorem steps_serverToolUse (codec : Codec) (call : OpenAiToolCall) (id : String)
    (state : StreamState) : Steps state (state.serverToolUse codec call id) := by
  intro client synced started
  have pushed := synced.push started .closed
  refine ⟨⟨.running, client.blocks ++ [false]⟩, ?_, ?_, started, rfl⟩
  · refine synced.pushClosed started _ [_] ?_
    simp [Client.follow_singleton, Client.accept, ← synced.length]
  · exact ⟨pushed.phase, pushed.blocks, pushed.text, pushed.thinking, pushed.tools,
      pushed.finished, pushed.round⟩

theorem steps_serverToolUses (codec : Codec) (ids : Nat → String) (calls : List OpenAiToolCall)
    (state : StreamState) : Steps state (state.serverToolUses codec ids calls) := by
  induction calls generalizing state with
  | nil => exact steps_refl state
  | cons call rest ih => exact (steps_serverToolUse codec call _ state).andThen (ih _)

theorem steps_emitServerToolUse (platform : Platform) (ids : Nat → String)
    (calls : List OpenAiToolCall) (state : StreamState) :
    Steps state (state.emitServerToolUse platform ids calls) := by
  refine ((steps_closeThinking platform state).andThen (steps_closeText platform _)).andThen ?_
  exact (steps_serverToolUses platform.codec ids calls _).noted
    (fun _ synced _ => ⟨synced.phase, synced.blocks, synced.text, synced.thinking,
      synced.tools, synced.finished, synced.round⟩) rfl rfl

theorem steps_serverToolResults (results : List (String × SearchOutcome)) (state : StreamState) :
    Steps state (state.serverToolResults results) := by
  induction results generalizing state with
  | nil => exact steps_refl state
  | cons result rest ih =>
      obtain ⟨id, outcome⟩ := result
      refine Steps.andThen ?_ (ih _)
      intro client synced started
      have pushed := synced.push started .closed
      refine ⟨⟨.running, client.blocks ++ [false]⟩, ?_, ?_, started, rfl⟩
      · exact synced.pushClosed started _ [] rfl
      · exact ⟨pushed.phase, pushed.blocks, pushed.text, pushed.thinking, pushed.tools,
          pushed.finished, pushed.round⟩

theorem steps_finishServerToolRound (outcomes : List SearchOutcome) (state : StreamState) :
    Steps state (state.finishServerToolRound outcomes) :=
  (steps_serverToolResults _ _).noted
    (fun _ synced _ => ⟨synced.phase, synced.blocks, synced.text, synced.thinking,
      synced.tools, synced.finished, synced.round⟩) rfl rfl

/-- After a panic the client waits where the stream was cut. -/
def Attends (body : StreamBody) (client : Client) : Prop :=
  (body.returned = true ∧ client.phase = if body.crashed then .running else .ended) ∨
    (body.returned = false ∧ body.crashed = false ∧ body.state.terminal = false ∧
      InStep body.state client)

def Serves (client : Client) (output : Output) : Prop :=
  ∃ next, client.follow output.2 = some next ∧ Attends output.1 next

variable {body : StreamBody}

theorem serves_error (synced : InStep body.state client) (whole : body.crashed = false)
    (message : String) : Serves client (body.returnError message) :=
  ⟨_, synced.accept_error message body.state.requestId, .inl ⟨rfl, by simp [
    StreamBody.returnError, StreamBody.returnWith, whole]⟩⟩

theorem serves_ends {emission : Emission} (synced : InStep body.state client)
    (whole : body.crashed = false) (started : body.state.started = true)
    (ends : Ends body.state emission) : Serves client (body.returnWith emission) := by
  obtain ⟨next, followed, ended⟩ := ends client synced started
  exact ⟨next, followed, .inl ⟨rfl, by simp [ended, StreamBody.returnWith, whole]⟩⟩

theorem keepsUp_handleEvents (platform : Platform) (events : List SseEvent)
    (synced : InStep state client) (running : state.terminal = false) :
    KeepsUp client (StreamBody.handleEvents platform state events) := by
  induction events generalizing state client with
  | nil => exact ⟨client, rfl, .inl ⟨running, synced⟩⟩
  | cons event rest ih =>
      have handled := keepsUp_handle platform synced running (String.ofList event.data)
      rw [StreamBody.handleEvents]
      split
      next => exact handled
      next more =>
        obtain ⟨middle, first, ⟨runningMiddle, syncedMiddle⟩ | ⟨terminal, -⟩⟩ := handled
        · obtain ⟨last, later, state⟩ := ih syncedMiddle runningMiddle
          refine ⟨last, ?_, state⟩
          rw [Emission.andThen, Client.follow_append, first]
          exact later
        · simp [terminal] at more

theorem serves_bytes (platform : Platform) (chunk : List UInt8)
    (synced : InStep body.state client) (whole : body.crashed = false)
    (running : body.state.terminal = false) :
    Serves client (body.onBytes platform chunk) := by
  rw [StreamBody.onBytes]
  split
  next => exact serves_error synced whole _
  next decoder events _ =>
    obtain ⟨next, followed, kept⟩ := keepsUp_handleEvents platform events synced running
    refine ⟨next, followed, ?_⟩
    rcases kept with ⟨going, syncedNext⟩ | ⟨terminal, ended⟩
    · exact .inr ⟨going, whole, going, syncedNext⟩
    · exact .inl ⟨terminal, by simp [ended, whole]⟩

theorem steps_searchRound (platform : Platform) (replies : RoundReplies)
    (calls : List OpenAiToolCall) (outcomes : List SearchOutcome) (state : StreamState) :
    Steps state (StreamBody.searchRound platform replies calls outcomes state) :=
  (steps_emitServerToolUse platform replies.toolIds calls state).andThen
    (steps_finishServerToolRound outcomes _)

theorem serves_continueWith (continuation : Continuation) {shown : Emission}
    (synced : InStep body.state client) (whole : body.crashed = false)
    (started : body.state.started = true) (going : body.returned = false) (running : body.state.terminal = false)
    (steps : Steps body.state shown) :
    Serves client (body.continueWith continuation shown) := by
  have failed (last : StreamBody) (whole : last.crashed = false) (message : String) :
      Serves client (StreamBody.continueWith.fail shown last message) := by
    have ends : Ends body.state
        (shown.andThen fun state => (state, [errorFrame message state.requestId])) := by
      refine steps.andThen_ends ?_
      exact fun middle syncedMiddle _ =>
        ⟨_, syncedMiddle.accept_error message shown.1.requestId, rfl⟩
    obtain ⟨next, followed, ended⟩ := ends client synced started
    exact ⟨next, followed, .inl ⟨rfl, by simp [ended, StreamBody.continueWith.fail,
      StreamBody.returnWith, whole]⟩⟩
  unfold StreamBody.continueWith
  split
  next =>
    obtain ⟨next, followed, syncedNext, startedNext, same⟩ := steps client synced started
    refine ⟨next, followed, .inr ⟨going, whole, same.trans running, ?_⟩⟩
    exact ⟨syncedNext.phase, syncedNext.blocks, syncedNext.text, syncedNext.thinking,
      (fun _ _ _ stored => by cases stored), fun _ => startedNext, fun _ => startedNext⟩
  next => exact failed _ whole _
  next => exact failed _ whole _
  next => exact failed _ whole _

theorem serves_continueRound (replies : RoundReplies) (calls : List OpenAiToolCall)
    (outcomes : List SearchOutcome) {shown : Emission}
    (synced : InStep body.state client) (whole : body.crashed = false)
    (started : body.state.started = true) (going : body.returned = false) (running : body.state.terminal = false)
    (steps : Steps body.state shown) :
    Serves client (body.continueRound replies calls outcomes shown) := by
  rw [StreamBody.continueRound]
  split
  next =>
    obtain ⟨next, followed, syncedNext, startedNext, -⟩ := steps client synced started
    exact ⟨next, followed, .inl ⟨rfl, syncedNext.running startedNext⟩⟩
  next serverLoop _ =>
    exact @serves_continueWith _ { body with
      rounds := body.rounds ++ [⟨calls, outcomes⟩], serverLoop := serverLoop }
      replies.continuation _ synced whole started going running steps

theorem serves_serverRound (platform : Platform) (replies : RoundReplies)
    (synced : InStep body.state client) (whole : body.crashed = false)
    (started : body.state.started = true) (going : body.returned = false)
    (running : body.state.terminal = false) :
    Serves client (body.serverRound platform replies) := by
  rw [StreamBody.serverRound]
  dsimp only
  split
  next => exact serves_ends synced whole started (ends_finalize platform running)
  next => exact serves_ends synced whole started (ends_finalize platform running)
  next =>
    have steps := steps_searchRound platform replies (body.state.openaiToolCalls.filter fun call =>
      (StreamBody.serverNames body.serverLoop).contains call.name)
      (body.searchOutcomes platform replies false (body.state.openaiToolCalls.filter fun call =>
        (StreamBody.serverNames body.serverLoop).contains call.name)).1 body.state
    obtain ⟨_, _, _, _, same⟩ := steps client synced started
    exact @serves_ends _ (body.searched platform false _) _ synced whole started
      (steps.andThen_ends (ends_finalize platform (same.trans running)))
  next =>
    split
    next =>
      exact @serves_ends _ { body.searched platform _ _ with usesLeft := _ } _ synced whole started
        ((steps_searchRound platform replies _ _ _).andThen_ends
          (ends_finishWithStop platform _ _))
    next =>
      exact @serves_continueRound _ { body.searched platform _ _ with usesLeft := _ }
        replies _ _ _ synced whole started going running
        (steps_searchRound platform replies _ _ _)

theorem serves_endOfRound (platform : Platform) (replies : RoundReplies)
    (synced : InStep body.state client) (whole : body.crashed = false)
    (going : body.returned = false) (running : body.state.terminal = false) :
    Serves client (body.onEndOfRound platform replies) := by
  rw [StreamBody.onEndOfRound, if_neg (by simp [running])]
  split
  next =>
    split
    next finished =>
      exact serves_ends synced whole (synced.finished finished) (ends_finalize platform running)
    next => exact serves_error synced whole _
  next =>
    split
    next => exact serves_error synced whole _
    next complete =>
      have started : body.state.started = true := by
        rcases finished : body.state.finishReason with _ | reason
        · exact synced.round (by simpa [finished] using complete)
        · exact synced.finished (by simp [finished])
      exact serves_serverRound platform replies synced whole started going running

theorem serves_ended (platform : Platform) (replies : RoundReplies)
    (synced : InStep body.state client) (whole : body.crashed = false)
    (going : body.returned = false) (running : body.state.terminal = false) :
    Serves client (body.onEnded platform replies) := by
  rw [StreamBody.onEnded, if_neg (by simp [running])]
  split
  next => exact serves_error synced whole _
  next events finished =>
    dsimp only
    have few := SseDecoder.finish_length finished
    have trailing : KeepsUp client (StreamBody.handleTrailing platform body.state events) := by
      match events, few with
      | [], _ => exact ⟨client, rfl, .inl ⟨running, synced⟩⟩
      | [event], _ =>
          simpa [StreamBody.handleTrailing, Emission.andThen] using
            keepsUp_handle platform synced running (String.ofList event.data)
    obtain ⟨middle, first, ⟨runningMiddle, syncedMiddle⟩ | ⟨terminal, ended⟩⟩ := trailing
    · have served : Serves middle (StreamBody.onEndOfRound platform replies { body with
          state := (StreamBody.handleTrailing platform body.state events).1 }) :=
        serves_endOfRound platform replies syncedMiddle whole going runningMiddle
      obtain ⟨next, later, attends⟩ := served
      refine ⟨next, ?_, attends⟩
      rw [Client.follow_append, first]
      exact later
    · refine ⟨middle, ?_, ?_⟩
      · rw [Client.follow_append, first, StreamBody.onEndOfRound, if_pos terminal]
        rfl
      · rw [StreamBody.onEndOfRound, if_pos terminal]
        exact .inl ⟨rfl, by simp [ended, StreamBody.returnWith, whole]⟩

theorem serves_step (platform : Platform) (arrival : Arrival) (attends : Attends body client) :
    Serves client (body.step platform arrival) := by
  unfold StreamBody.step
  rcases attends with ⟨returned, ended⟩ | ⟨going, whole, running, synced⟩
  · rw [if_pos returned]
    exact ⟨client, rfl, .inl ⟨returned, ended⟩⟩
  · rw [if_neg (by simp [going])]
    cases arrival with
    | bytes chunk => exact serves_bytes platform chunk synced whole running
    | interrupted => exact serves_error synced whole _
    | stalled kind => exact serves_error synced whole _
    | idle => exact ⟨client, rfl, .inr ⟨going, whole, running, synced⟩⟩
    | ended replies => exact serves_ended platform replies synced whole going running

theorem serves_run (platform : Platform) (arrivals : List Arrival)
    (attends : Attends body client) : Serves client (body.run platform arrivals) := by
  induction arrivals generalizing body client with
  | nil => exact ⟨client, rfl, attends⟩
  | cons arrival rest ih =>
      obtain ⟨middle, first, attendsMiddle⟩ := serves_step platform arrival attends
      obtain ⟨last, later, attendsLast⟩ := ih attendsMiddle
      refine ⟨last, ?_, attendsLast⟩
      rw [StreamBody.run, Client.follow_append, first]
      exact later

theorem attends_start (requestId fallbackModel : String) (exposeThinking : Bool)
    (serverLoop : Option ServerLoopContext) :
    Attends (.start requestId fallbackModel exposeThinking serverLoop) .new :=
  .inr ⟨rfl, rfl, rfl, ⟨rfl, rfl, (fun _ held => by cases held), (fun _ held => by cases held),
    (fun _ _ _ stored => by cases stored), (fun finished => by cases finished),
    (fun round => by cases round)⟩⟩

theorem sse_lifecycle (platform : Platform) (requestId fallbackModel : String)
    (exposeThinking : Bool) (serverLoop : Option ServerLoopContext) (arrivals : List Arrival) :
    Lifecycle (((StreamBody.start requestId fallbackModel exposeThinking serverLoop).run
      platform arrivals).2.filter fun frame => !frame.isPing) := by
  obtain ⟨last, followed, attends⟩ := serves_run platform arrivals
    (attends_start requestId fallbackModel exposeThinking serverLoop)
  rw [← Client.follow_without_pings] at followed
  refine Client.lifecycle_of_follow followed ?_ fun frame member => ?_
  · rcases attends with ⟨-, ended⟩ | ⟨-, -, -, synced⟩
    · rw [ended]
      split <;> simp
    · rw [synced.phase]
      split <;> simp
  · simpa using (List.mem_filter.mp member).2

end ClineProxy
