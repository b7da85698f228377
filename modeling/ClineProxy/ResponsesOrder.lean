import ClineProxy.JsonText
import ClineProxy.ResponsesRequest

/-! The order of the messages that input items turn into, by the items they come from. -/

namespace ClineProxy

open Json

/-- A message with the positions of the items it comes from, one for each of its calls. -/
structure TracedMessage where
  origins : List Nat
  message : Value

/-- The state of the loop with the origins of all it holds. -/
structure TracedInput where
  messages : List TracedMessage
  pendingCalls : List (Nat × Value)

namespace TracedInput

def start : TracedInput := ⟨[], []⟩

def flushCalls (state : TracedInput) : TracedInput :=
  if state.pendingCalls.isEmpty then state
  else ⟨state.messages ++ [⟨state.pendingCalls.map Prod.fst,
    assistantCalls (state.pendingCalls.map Prod.snd)⟩], []⟩

def apply (index : Nat) (state : TracedInput) : ItemEffect → TracedInput
  | .message message => { state with messages := state.messages ++ [⟨[index], message⟩] }
  | .call call => { state with pendingCalls := state.pendingCalls ++ [(index, call)] }
  | .flushed messages =>
      { state.flushCalls with
        messages := state.flushCalls.messages ++ messages.map fun message => ⟨[index], message⟩ }

def plain (state : TracedInput) : InputState :=
  ⟨state.messages.map TracedMessage.message, state.pendingCalls.map Prod.snd⟩

theorem plain_flushCalls (state : TracedInput) : state.flushCalls.plain = state.plain.flushCalls := by
  rw [flushCalls, InputState.flushCalls]
  cases waiting : state.pendingCalls with
  | nil => simp [plain, waiting]
  | cons first rest => simp [plain, waiting]

theorem plain_apply (index : Nat) (state : TracedInput) (effect : ItemEffect) :
    (state.apply index effect).plain = state.plain.apply effect := by
  cases effect with
  | message message => simp [apply, InputState.apply, plain]
  | call call => simp [apply, InputState.apply, plain]
  | flushed messages =>
      rw [InputState.apply, ← plain_flushCalls, apply]
      simp [plain, Function.comp_def]

/-- The origins of all messages in their order. -/
def origins (state : TracedInput) : List Nat := state.messages.flatMap TracedMessage.origins

def waiting (state : TracedInput) : List Nat := state.pendingCalls.map Prod.fst

theorem origins_flushCalls (state : TracedInput) :
    state.flushCalls.origins = state.origins ++ state.waiting ∧ state.flushCalls.waiting = [] := by
  rw [flushCalls]
  split
  next empty =>
    have none_ : state.pendingCalls = [] := by simpa using empty
    simp [waiting, none_]
  next => simp [origins, waiting]

end TracedInput

def tracedItem (codec : Codec) (state : TracedInput) (item : Value × Nat) :
    Fallible TracedInput :=
  (convertInputItem codec item.2 item.1).map (state.apply item.2)

def tracedItems (codec : Codec) (items : List Value) : Fallible (List TracedMessage) := do
  let state ← items.zipIdx.foldlM (tracedItem codec) .start
  return state.flushCalls.messages

theorem tracedItems_fold (codec : Codec) (items : List (Value × Nat)) (state : TracedInput) :
    items.foldlM (convertItem codec) state.plain =
      (items.foldlM (tracedItem codec) state).map TracedInput.plain := by
  induction items generalizing state with
  | nil => rfl
  | cons item rest ih =>
      rw [List.foldlM_cons, List.foldlM_cons, convertItem, tracedItem]
      cases convertInputItem codec item.2 item.1 with
      | error abort => rfl
      | ok effect =>
          have step := ih (state.apply item.2 effect)
          rw [state.plain_apply] at step
          exact step

theorem tracedItems_messages {codec : Codec} {items messages : List Value}
    (accepted : convertInputItems codec items = .ok messages) :
    ∃ traced, tracedItems codec items = .ok traced ∧
      traced.map TracedMessage.message = messages := by
  obtain ⟨state, folded, kept⟩ := bind_eq_ok.mp accepted
  have same := tracedItems_fold codec items.zipIdx .start
  rw [show TracedInput.start.plain = InputState.start from rfl, folded] at same
  obtain ⟨traced, made, rfl⟩ := map_eq_ok.mp same.symm
  refine ⟨traced.flushCalls.messages, ?_, ?_⟩
  · rw [tracedItems, made]
    rfl
  · simp only [← TracedInput.plain_flushCalls] at kept
    split at kept
    next => cases kept
    next => exact Except.ok.inj kept

/-- What an earlier item produces stands before what a later one produces. -/
def InItemOrder (traced : List TracedMessage) : Prop :=
  (traced.flatMap TracedMessage.origins).Pairwise (· ≤ ·)

def isKind (kind : String) (item : Value) : Prop :=
  ∃ object, item = .object object ∧ itemKind object = kind

/-- Between two calls of one message there are only calls and reasoning. -/
def MergesCalls (items : List Value) (traced : List TracedMessage) : Prop :=
  ∀ message ∈ traced, ∀ first ∈ message.origins, ∀ second ∈ message.origins, ∀ between item,
    first < between → between < second → items[between]? = some item →
      isKind "function_call" item ∨ isKind "reasoning" item

/-- No message item stands right behind a call. -/
def CallsAnswered (items : List Value) : Prop :=
  ∀ index call message, items[index]? = some call → items[index + 1]? = some message →
    isKind "function_call" call → ¬isKind "message" message

def ItemEffect.Fits (item : Value) : ItemEffect → Prop
  | .message _ => isKind "message" item
  | .call _ => isKind "function_call" item
  | .flushed _ => ¬isKind "message" item ∧ ¬isKind "function_call" item

theorem convertInputItem_fits {codec : Codec} {index : Nat} {item : Value} {effect : ItemEffect}
    (converted : convertInputItem codec index item = .ok effect) : effect.Fits item := by
  obtain ⟨object, shape, made⟩ := bind_eq_ok.mp converted
  obtain rfl := Value.asObject_eq_some (orReject_eq_ok.mp shape)
  have same {kind : String} (is : isKind kind (.object object)) : itemKind object = kind := by
    obtain ⟨other, equal, named⟩ := is
    obtain rfl := Value.object.inj equal
    exact named
  split at made
  next kind =>
    obtain ⟨_, _, rfl⟩ := map_eq_ok.mp made
    exact ⟨object, rfl, kind⟩
  next kind =>
    obtain ⟨_, _, rfl⟩ := map_eq_ok.mp made
    exact ⟨object, rfl, kind⟩
  next kind =>
    obtain ⟨_, _, rfl⟩ := map_eq_ok.mp made
    exact ⟨fun is => absurd (kind.symm.trans (same is)) (by decide),
      fun is => absurd (kind.symm.trans (same is)) (by decide)⟩
  next kind =>
    obtain rfl := Except.ok.inj made
    exact ⟨fun is => absurd (kind.symm.trans (same is)) (by decide),
      fun is => absurd (kind.symm.trans (same is)) (by decide)⟩
  next kind =>
    obtain ⟨_, _, rfl⟩ := map_eq_ok.mp made
    exact ⟨fun is => absurd (kind.symm.trans (same is)) (by decide),
      fun is => absurd (kind.symm.trans (same is)) (by decide)⟩
  next => cases made
  next => cases made

theorem traced_extends {codec : Codec} {items : List (Value × Nat)} {state final : TracedInput}
    (run : items.foldlM (tracedItem codec) state = .ok final) :
    ∃ new, final.flushCalls.origins = state.origins ++ new ∧ ∀ index ∈ state.waiting, index ∈ new := by
  induction items generalizing state with
  | nil =>
      obtain rfl := Except.ok.inj run
      exact ⟨state.waiting, state.origins_flushCalls.1, fun _ member => member⟩
  | cons item rest ih =>
      rw [List.foldlM_cons] at run
      obtain ⟨next_, stepped, run⟩ := bind_eq_ok.mp run
      obtain ⟨effect, _, rfl⟩ := map_eq_ok.mp stepped
      obtain ⟨new, made, kept⟩ := ih run
      rw [made]
      cases effect with
      | message message =>
          refine ⟨item.2 :: new, ?_, fun index member => List.mem_cons_of_mem _ (kept index member)⟩
          simp [TracedInput.apply, TracedInput.origins]
      | call call =>
          refine ⟨new, rfl, fun index member => kept index ?_⟩
          exact List.mem_map.mpr (by
            obtain ⟨entry, there, same⟩ := List.mem_map.mp member
            exact ⟨entry, List.mem_append_left _ there, same⟩)
      | flushed messages =>
          obtain ⟨flushed, _⟩ := state.origins_flushCalls
          refine ⟨state.waiting ++ (messages.map fun _ => item.2) ++ new, ?_, fun index member => by
            simp [member]⟩
          have all : (state.apply item.2 (.flushed messages)).origins =
              state.flushCalls.origins ++ messages.map fun _ => item.2 := by
            simp [TracedInput.apply, TracedInput.origins, List.flatMap_map, ← List.map_eq_flatMap]
          rw [all, flushed, List.append_assoc, List.append_assoc, List.append_assoc]

structure InputOrdered (done : List Value) (state : TracedInput) : Prop where
  sorted : (state.origins ++ state.waiting).Pairwise (· ≤ ·)
  below : ∀ origin ∈ state.origins ++ state.waiting, origin < done.length
  calls : ∀ first ∈ state.waiting, ∀ between item, first ≤ between → done[between]? = some item →
    isKind "function_call" item
  merges : MergesCalls done state.messages

theorem inputOrdered_start : InputOrdered [] .start where
  sorted := List.Pairwise.nil
  below := fun _ member => by cases member
  calls := fun _ member => by cases member
  merges := fun _ member => by cases member

theorem MergesCalls.snoc {done : List Value} {messages : List TracedMessage}
    (merges : MergesCalls done messages) (item : Value)
    (below : ∀ message ∈ messages, ∀ origin ∈ message.origins, origin < done.length) :
    MergesCalls (done ++ [item]) messages := by
  intro message member first one second two between other lower upper there
  have inside := below message member second two
  rw [List.getElem?_append_left (by omega)] at there
  exact merges message member first one second two between other lower upper there

theorem MergesCalls.single {items : List Value} {messages : List TracedMessage}
    (single : ∀ message ∈ messages, ∃ index, message.origins = [index]) :
    MergesCalls items messages := by
  intro message member first one second two between _ lower upper _
  obtain ⟨index, same⟩ := single message member
  rw [same] at one two
  have equal := (List.mem_singleton.mp one).trans (List.mem_singleton.mp two).symm
  omega

theorem mergesCalls_append {items : List Value} {first second : List TracedMessage} :
    MergesCalls items (first ++ second) ↔ MergesCalls items first ∧ MergesCalls items second := by
  simp only [MergesCalls, List.mem_append, or_imp, forall_and]

theorem sorted_snoc {origins : List Nat} {index : Nat} (sorted : origins.Pairwise (· ≤ ·))
    (below : ∀ origin ∈ origins, origin < index) : (origins ++ [index]).Pairwise (· ≤ ·) := by
  rw [List.pairwise_append]
  refine ⟨sorted, List.pairwise_singleton _ _, fun origin member last same => ?_⟩
  have less := below origin member
  have equal := List.mem_singleton.mp same
  omega

section Step

variable {done : List Value} {state : TracedInput}

theorem InputOrdered.flushCalls (ordered : InputOrdered done state) : InputOrdered done state.flushCalls := by
  obtain ⟨flushed, empty⟩ := state.origins_flushCalls
  refine ⟨?_, ?_, ?_, ?_⟩
  · rw [flushed, empty, List.append_nil]
    exact ordered.sorted
  · rw [flushed, empty, List.append_nil]
    exact ordered.below
  · intro first member
    rw [empty] at member
    cases member
  · rw [TracedInput.flushCalls]
    split
    next => exact ordered.merges
    next =>
      rw [mergesCalls_append]
      refine ⟨ordered.merges, ?_⟩
      intro message member first one second two between item lower upper there
      obtain rfl := List.mem_singleton.mp member
      exact .inl (ordered.calls first one between item (Nat.le_of_lt lower) there)

theorem InputOrdered.push (ordered : InputOrdered done state) (empty : state.waiting = []) (item : Value)
    {messages : List TracedMessage}
    (single : ∀ message ∈ messages, message.origins = [done.length]) :
    InputOrdered (done ++ [item]) { state with messages := state.messages ++ messages } := by
  have origins : TracedInput.origins { state with messages := state.messages ++ messages } =
      state.origins ++ messages.map fun _ => done.length := by
    have each : messages.flatMap TracedMessage.origins = messages.map fun _ => done.length := by
      rw [List.map_eq_flatMap]
      exact List.flatMap_congr fun message member => single message member
    rw [TracedInput.origins, List.flatMap_append, each, TracedInput.origins]
  have same : TracedInput.waiting { state with messages := state.messages ++ messages } = [] :=
    empty
  have sorted := ordered.sorted
  have below := ordered.below
  rw [empty, List.append_nil] at sorted below
  refine ⟨?_, ?_, ?_, ?_⟩
  · rw [origins, same, List.append_nil, List.pairwise_append]
    refine ⟨sorted, ?_, fun first member second there => ?_⟩
    · exact List.pairwise_map.mpr (List.pairwise_of_forall fun _ _ => Nat.le_refl _)
    · obtain ⟨_, _, rfl⟩ := List.mem_map.mp there
      exact Nat.le_of_lt (below first member)
  · rw [origins, same, List.append_nil, List.length_append]
    intro origin member
    rcases List.mem_append.mp member with earlier | new
    · exact Nat.lt_add_right _ (below origin earlier)
    · obtain ⟨_, _, rfl⟩ := List.mem_map.mp new
      exact Nat.lt_succ_self _
  · intro first member
    rw [same] at member
    cases member
  · rw [mergesCalls_append]
    refine ⟨ordered.merges.snoc item fun message member origin one => below origin ?_,
      .single fun message member => ⟨_, single message member⟩⟩
    exact List.mem_flatMap.mpr ⟨message, member, one⟩

theorem InputOrdered.step {codec : Codec} {item : Value} {effect : ItemEffect}
    (ordered : InputOrdered done state) (answered : CallsAnswered (done ++ [item]))
    (converted : convertInputItem codec done.length item = .ok effect) :
    InputOrdered (done ++ [item]) (state.apply done.length effect) := by
  have fits := convertInputItem_fits converted
  cases effect with
  | message message =>
      have empty : state.waiting = [] := by
        by_contra some_
        obtain ⟨first, member⟩ := List.exists_mem_of_ne_nil _ some_
        have below := ordered.below first (List.mem_append_right _ member)
        obtain ⟨call, there⟩ : ∃ call, done[done.length - 1]? = some call :=
          ⟨_, List.getElem?_eq_getElem (by omega)⟩
        have called := ordered.calls first member _ call (by omega) there
        have before : (done ++ [item])[done.length - 1]? = some call := by
          rw [List.getElem?_append_left (by omega), there]
        have behind : (done ++ [item])[done.length - 1 + 1]? = some item := by
          rw [Nat.sub_add_cancel (by omega), List.getElem?_concat_length]
        exact answered _ call item before behind called fits
      exact ordered.push empty item fun _ member => by
        rw [List.mem_singleton.mp member]
  | call call =>
      have waiting : (state.apply done.length (.call call)).waiting =
          state.waiting ++ [done.length] := by
        simp [TracedInput.apply, TracedInput.waiting]
      have origins : (state.apply done.length (.call call)).origins = state.origins := rfl
      refine ⟨?_, ?_, ?_, ?_⟩
      · rw [origins, waiting, ← List.append_assoc]
        exact sorted_snoc ordered.sorted ordered.below
      · rw [origins, waiting, ← List.append_assoc, List.length_append]
        intro origin member
        rcases List.mem_append.mp member with earlier | new
        · exact Nat.lt_add_right _ (ordered.below origin earlier)
        · exact List.mem_singleton.mp new ▸ Nat.lt_succ_self _
      · rw [waiting]
        intro first member between other lower there
        rcases Nat.lt_or_ge between done.length with inside | last
        · rw [List.getElem?_append_left inside] at there
          rcases List.mem_append.mp member with earlier | new
          · exact ordered.calls first earlier between other lower there
          · have same := List.mem_singleton.mp new
            omega
        · have bound := (List.getElem?_eq_some_iff.mp there).1
          rw [List.length_append, List.length_singleton] at bound
          obtain rfl : between = done.length := by omega
          rw [List.getElem?_concat_length] at there
          exact Option.some.inj there ▸ fits
      · exact ordered.merges.snoc item fun message member origin one =>
          ordered.below origin (List.mem_append_left _ (List.mem_flatMap.mpr ⟨message, member, one⟩))
  | flushed messages =>
      have empty := state.origins_flushCalls.2
      exact ordered.flushCalls.push empty item fun message member => by
        obtain ⟨_, _, rfl⟩ := List.mem_map.mp member
        rfl

end Step

theorem CallsAnswered.before {first second : List Value}
    (answered : CallsAnswered (first ++ second)) : CallsAnswered first := by
  intro index call message one two
  have inside := (List.getElem?_eq_some_iff.mp two).1
  refine answered index call message ?_ ?_
  · rw [List.getElem?_append_left (by omega), one]
  · rw [List.getElem?_append_left inside, two]

theorem InputOrdered.run {codec : Codec} {rest done : List Value} {state final : TracedInput}
    (ordered : InputOrdered done state) (answered : CallsAnswered (done ++ rest))
    (run : (rest.zipIdx done.length).foldlM (tracedItem codec) state = .ok final) :
    InputOrdered (done ++ rest) final := by
  induction rest generalizing done state with
  | nil =>
      obtain rfl := Except.ok.inj run
      rw [List.append_nil]
      exact ordered
  | cons item rest ih =>
      rw [List.zipIdx_cons, List.foldlM_cons] at run
      obtain ⟨next_, stepped, run⟩ := bind_eq_ok.mp run
      obtain ⟨effect, converted, rfl⟩ := map_eq_ok.mp stepped
      rw [List.append_cons] at answered ⊢
      have later := ordered.step answered.before converted
      refine ih later answered ?_
      rw [List.length_append]
      exact run

theorem effect_of_call {codec : Codec} {index : Nat} {item : Value} {effect : ItemEffect}
    (kind : isKind "function_call" item) (converted : convertInputItem codec index item = .ok effect) :
    ∃ call, effect = .call call := by
  have fits := convertInputItem_fits converted
  cases effect with
  | message =>
      obtain ⟨object, rfl, named⟩ := kind
      obtain ⟨other, same, message⟩ := fits
      obtain rfl := Value.object.inj same
      exact absurd (named.symm.trans message) (by decide)
  | call call => exact ⟨call, rfl⟩
  | flushed => exact absurd kind fits.2

theorem effect_of_message {codec : Codec} {index : Nat} {item : Value} {effect : ItemEffect}
    (kind : isKind "message" item) (converted : convertInputItem codec index item = .ok effect) :
    ∃ message, effect = .message message := by
  have fits := convertInputItem_fits converted
  cases effect with
  | message message => exact ⟨message, rfl⟩
  | call =>
      obtain ⟨object, rfl, named⟩ := kind
      obtain ⟨other, same, called⟩ := fits
      obtain rfl := Value.object.inj same
      exact absurd (named.symm.trans called) (by decide)
  | flushed => exact absurd kind fits.1

theorem split_at {items : List Value} {index : Nat} {first second : Value}
    (one : items[index]? = some first) (two : items[index + 1]? = some second) :
    ∃ before after, items = before ++ first :: second :: after ∧ before.length = index := by
  obtain ⟨inside, here⟩ := List.getElem?_eq_some_iff.mp one
  obtain ⟨behind, there⟩ := List.getElem?_eq_some_iff.mp two
  refine ⟨items.take index, items.drop (index + 2), ?_, List.length_take_of_le (by omega)⟩
  rw [← there, ← here, ← List.drop_eq_getElem_cons behind, ← List.drop_eq_getElem_cons inside,
    List.take_append_drop]

theorem answered_of_order {codec : Codec} {items : List Value} {final : TracedInput}
    (run : items.zipIdx.foldlM (tracedItem codec) .start = .ok final)
    (sorted : final.flushCalls.origins.Pairwise (· ≤ ·)) : CallsAnswered items := by
  intro index call message one two called isMessage
  obtain ⟨before, after, rfl, rfl⟩ := split_at one two
  rw [List.zipIdx_append, List.foldlM_append, List.zipIdx_cons, List.zipIdx_cons] at run
  obtain ⟨state, _, run⟩ := bind_eq_ok.mp run
  simp only [Nat.zero_add, List.foldlM_cons] at run
  obtain ⟨second, stepped, run⟩ := bind_eq_ok.mp run
  obtain ⟨effect, converted, rfl⟩ := map_eq_ok.mp stepped
  obtain ⟨third, stepped, run⟩ := bind_eq_ok.mp run
  obtain ⟨other, next_, rfl⟩ := map_eq_ok.mp stepped
  obtain ⟨made, rfl⟩ := effect_of_call called converted
  obtain ⟨shown, rfl⟩ := effect_of_message isMessage next_
  obtain ⟨new, origins, kept⟩ := traced_extends run
  have waiting : before.length ∈ new := kept _ (by simp [TracedInput.apply, TracedInput.waiting])
  rw [origins] at sorted
  have early : before.length + 1 ∈ TracedInput.origins ((state.apply before.length (.call made)).apply
      (before.length + 1) (.message shown)) := by
    simp [TracedInput.apply, TracedInput.origins]
  have wrong := (List.pairwise_append.mp sorted).2.2 _ early _ waiting
  omega

/-- The messages stand in the order of the items, with only calls merged, exactly when no message
item stands right behind a call. -/
theorem responses_input_order (codec : Codec) (items messages : List Value) :
    convertInputItems codec items = .ok messages →
      ∃ traced, tracedItems codec items = .ok traced ∧
        traced.map TracedMessage.message = messages ∧
          (InItemOrder traced ∧ MergesCalls items traced ↔ CallsAnswered items) := by
  intro accepted
  obtain ⟨traced, made, same⟩ := tracedItems_messages accepted
  refine ⟨traced, made, same, ?_⟩
  obtain ⟨final, run, kept⟩ := bind_eq_ok.mp made
  obtain rfl := Except.ok.inj kept
  constructor
  · rintro ⟨sorted, _⟩
    exact answered_of_order run sorted
  · intro answered
    have ordered : InputOrdered ([] ++ items) final := inputOrdered_start.run answered run
    have flushed := ordered.flushCalls
    have sorted := flushed.sorted
    rw [final.origins_flushCalls.2, List.append_nil] at sorted
    exact ⟨sorted, flushed.merges⟩

def callItem (callId : String) : Value :=
  .object [("type", .string "function_call"), ("call_id", .string callId), ("name", .string "f")]

def doneItem (callId : String) : Value :=
  .object [("type", .string "function_call_output"), ("call_id", .string callId),
    ("output", .string "done")]

def userItem : Value := .object [("role", .string "user"), ("content", .string "go on")]

def twoCalls : List Value := [callItem "a", callItem "b", doneItem "a", doneItem "b"]

theorem twoCalls_answered : CallsAnswered twoCalls := by
  intro index call message one two called isMessage
  have kinds : ∀ item ∈ twoCalls, (item.asObject.map itemKind) ≠ some "message" := by
    decide +kernel
  obtain ⟨object, rfl, named⟩ := isMessage
  exact kinds _ (List.mem_of_getElem? two) (congrArg some named)

theorem responses_input_order_calls : ∃ messages traced,
    convertInputItems (documentCodec []) twoCalls = .ok messages ∧
      tracedItems (documentCodec []) twoCalls = .ok traced ∧
        traced.map TracedMessage.message = messages ∧
          InItemOrder traced ∧ MergesCalls twoCalls traced := by
  obtain ⟨traced, made, same, order⟩ := responses_input_order (documentCodec []) twoCalls _ rfl
  exact ⟨_, traced, rfl, made, same, order.mpr twoCalls_answered⟩

def lateUser : List Value := [callItem "a", userItem, doneItem "a"]

theorem responses_input_order_fails : ∃ messages traced,
    convertInputItems (documentCodec []) lateUser = .ok messages ∧
      tracedItems (documentCodec []) lateUser = .ok traced ∧
        traced.map TracedMessage.message = messages ∧
          ¬(InItemOrder traced ∧ MergesCalls lateUser traced) := by
  refine ⟨_, _, rfl, rfl, rfl, ?_⟩
  rintro ⟨sorted, _⟩
  have origins : (_ : List Nat).Pairwise (· ≤ ·) := sorted
  revert origins
  decide

end ClineProxy
