import ClineProxy.ResponsesOrder
import Mathlib.Data.List.Induction

/-! Reasoning items among the input items, and the messages with and without them. -/

namespace ClineProxy

open Json

theorem mapM_moved {First Second : Type} {convert other : First → Fallible Second}
    (moved : ∀ item result, convert item = .ok result → other item = .ok result)
    {items : List First} {results : List Second} (done : items.mapM convert = .ok results) :
    items.mapM other = .ok results := by
  induction items generalizing results with
  | nil => exact done
  | cons item rest ih =>
      rw [List.mapM_cons] at done ⊢
      obtain ⟨first, head, done⟩ := bind_eq_ok.mp done
      obtain ⟨later, tail, done⟩ := bind_eq_ok.mp done
      exact bind_eq_ok.mpr ⟨first, moved item first head, bind_eq_ok.mpr ⟨later, ih tail, done⟩⟩

section Moved

variable {codec : Codec} {index : Nat} (other : Nat)

theorem convertInputPart_moved {place images text : String} {partIndex : Nat} {part : Value}
    (done : convertInputPart index place images partIndex part = .ok text) :
    convertInputPart other place images partIndex part = .ok text := by
  obtain ⟨object, shape, done⟩ := bind_eq_ok.mp done
  refine bind_eq_ok.mpr ⟨object, orReject_eq_ok.mpr (orReject_eq_ok.mp shape), ?_⟩
  split at done
  next => exact done
  next => exact done
  next => cases done
  next =>
    split at done
    next inContent => exact (if_pos inContent).trans done
    next => cases done
  next => cases done
  next => cases done

theorem convertInputParts_moved {place images text : String} {parts : List Value}
    (done : convertInputParts index place images parts = .ok text) :
    convertInputParts other place images parts = .ok text := by
  obtain ⟨texts, converted, done⟩ := bind_eq_ok.mp done
  refine bind_eq_ok.mpr ⟨texts, mapM_moved (fun _ _ => ?_) converted, done⟩
  exact convertInputPart_moved other

theorem contentText_moved {content : Value} {text : String}
    (done : contentText index content = .ok text) : contentText other content = .ok text := by
  cases content with
  | string => exact done
  | array => exact convertInputParts_moved other done
  | null => exact done
  | bool | number | object => cases done

theorem itemString_moved {object : Map} {kind name text : String}
    (done : itemString object index kind name = .ok text) :
    itemString object other kind name = .ok text :=
  orReject_eq_ok.mpr (orReject_eq_ok.mp done)

theorem messageOf_moved {role text : String} {made : Value}
    (done : messageOf index role text = .ok made) : messageOf other role text = .ok made := by
  unfold messageOf at done
  split at done
  next => exact done
  next => exact done
  next => exact done
  next => exact done
  next => cases done

theorem convertMessageItem_moved {object : Map} {made : Value}
    (done : convertMessageItem object index = .ok made) :
    convertMessageItem object other = .ok made := by
  obtain ⟨role, given, done⟩ := bind_eq_ok.mp done
  obtain ⟨text, shown, done⟩ := bind_eq_ok.mp done
  exact bind_eq_ok.mpr ⟨role, orReject_eq_ok.mpr (orReject_eq_ok.mp given),
    bind_eq_ok.mpr ⟨text, contentText_moved other shown, messageOf_moved other done⟩⟩

theorem convertFunctionCall_moved {object : Map} {made : Value}
    (done : convertFunctionCall object index = .ok made) :
    convertFunctionCall object other = .ok made := by
  obtain ⟨callId, called, done⟩ := bind_eq_ok.mp done
  obtain ⟨name, named, done⟩ := bind_eq_ok.mp done
  exact bind_eq_ok.mpr ⟨callId, itemString_moved other called,
    bind_eq_ok.mpr ⟨name, itemString_moved other named, done⟩⟩

theorem convertFunctionCallOutput_moved {object : Map} {made : Value}
    (done : convertFunctionCallOutput object index = .ok made) :
    convertFunctionCallOutput object other = .ok made := by
  obtain ⟨callId, called, done⟩ := bind_eq_ok.mp done
  refine bind_eq_ok.mpr ⟨callId, itemString_moved other called, ?_⟩
  dsimp only at done ⊢
  split at done
  next => exact done
  next => exact done
  next => exact done
  next =>
    obtain ⟨content, shown, done⟩ := bind_eq_ok.mp done
    exact bind_eq_ok.mpr ⟨content, convertInputParts_moved other shown, done⟩
  next => cases done

theorem convertWebSearchCall_moved {object : Map} {made : Value × Value}
    (done : convertWebSearchCall codec object index = .ok made) :
    convertWebSearchCall codec object other = .ok made := by
  obtain ⟨id, named, done⟩ := bind_eq_ok.mp done
  exact bind_eq_ok.mpr ⟨id, itemString_moved other named, done⟩

theorem convertInputItem_moved {item : Value} {effect : ItemEffect}
    (done : convertInputItem codec index item = .ok effect) :
    convertInputItem codec other item = .ok effect := by
  obtain ⟨object, shape, done⟩ := bind_eq_ok.mp done
  refine bind_eq_ok.mpr ⟨object, orReject_eq_ok.mpr (orReject_eq_ok.mp shape), ?_⟩
  split at done
  next =>
    obtain ⟨made, converted, rfl⟩ := map_eq_ok.mp done
    exact map_eq_ok.mpr ⟨made, convertMessageItem_moved other converted, rfl⟩
  next =>
    obtain ⟨made, converted, rfl⟩ := map_eq_ok.mp done
    exact map_eq_ok.mpr ⟨made, convertFunctionCall_moved other converted, rfl⟩
  next =>
    obtain ⟨made, converted, rfl⟩ := map_eq_ok.mp done
    exact map_eq_ok.mpr ⟨made, convertFunctionCallOutput_moved other converted, rfl⟩
  next =>
    exact done
  next =>
    obtain ⟨made, converted, rfl⟩ := map_eq_ok.mp done
    exact map_eq_ok.mpr ⟨made, convertWebSearchCall_moved other converted, rfl⟩
  next => cases done
  next => cases done

end Moved

section Steps

variable {codec : Codec}

def Converted (codec : Codec) (steps : List (Value × ItemEffect)) : Prop :=
  ∀ step ∈ steps, convertInputItem codec 0 step.1 = .ok step.2

def runSteps (steps : List (Value × ItemEffect)) : InputState :=
  (steps.map Prod.snd).foldl InputState.apply .start

theorem runSteps_snoc (steps : List (Value × ItemEffect)) (step : Value × ItemEffect) :
    runSteps (steps ++ [step]) = (runSteps steps).apply step.2 := by
  rw [runSteps, List.map_append, List.foldl_append]
  rfl

theorem foldlM_converted {steps : List (Value × ItemEffect)} (converted : Converted codec steps)
    (index : Nat) (state : InputState) :
    ((steps.map Prod.fst).zipIdx index).foldlM (convertItem codec) state =
      .ok ((steps.map Prod.snd).foldl InputState.apply state) := by
  induction steps generalizing index state with
  | nil => rfl
  | cons step rest ih =>
      have first := convertInputItem_moved index (converted step List.mem_cons_self)
      rw [List.map_cons, List.zipIdx_cons, List.foldlM_cons, convertItem, first]
      exact ih (fun other member => converted other (List.mem_cons_of_mem _ member)) _ _

theorem converted_of_foldlM {items : List Value} {index : Nat} {state final : InputState}
    (done : (items.zipIdx index).foldlM (convertItem codec) state = .ok final) :
    ∃ steps, steps.map Prod.fst = items ∧ Converted codec steps := by
  induction items generalizing index state with
  | nil => exact ⟨[], rfl, by simp [Converted]⟩
  | cons item rest ih =>
      rw [List.zipIdx_cons, List.foldlM_cons] at done
      obtain ⟨next, first, done⟩ := bind_eq_ok.mp done
      obtain ⟨effect, converted, rfl⟩ := map_eq_ok.mp first
      obtain ⟨steps, rfl, all⟩ := ih done
      refine ⟨(item, effect) :: steps, rfl, fun step member => ?_⟩
      rcases List.mem_cons.mp member with rfl | later
      · exact convertInputItem_moved 0 converted
      · exact all step later

theorem convertInputItems_steps {steps : List (Value × ItemEffect)}
    (converted : Converted codec steps) : convertInputItems codec (steps.map Prod.fst) =
      if (runSteps steps).flushCalls.messages.isEmpty then reject "input must not be empty"
      else .ok (runSteps steps).flushCalls.messages := by
  rw [convertInputItems, foldlM_converted converted]
  rfl

theorem kinds_differ {item : Value} {first second : String} (one : isKind first item)
    (two : isKind second item) : first = second := by
  obtain ⟨object, rfl, named⟩ := one
  obtain ⟨other, same, called⟩ := two
  obtain rfl := Value.object.inj same
  exact named.symm.trans called

def ItemEffect.Sends (item : Value) : ItemEffect → Prop
  | .message sent => sent.get "tool_calls" = none
  | .call _ => True
  | .flushed messages => messages = [] ↔ isKind "reasoning" item

theorem effect_sends {item : Value} {effect : ItemEffect}
    (converted : convertInputItem codec 0 item = .ok effect) : effect.Sends item := by
  obtain ⟨object, shape, made⟩ := bind_eq_ok.mp converted
  obtain rfl := Value.asObject_eq_some (orReject_eq_ok.mp shape)
  have notReasoning {kind : String} (named : itemKind object = kind) (other : kind ≠ "reasoning") :
      ¬isKind "reasoning" (.object object) :=
    fun is => other (kinds_differ ⟨object, rfl, named⟩ is)
  split at made
  next =>
    obtain ⟨message, shown, rfl⟩ := map_eq_ok.mp made
    obtain ⟨role, -, shown⟩ := bind_eq_ok.mp shown
    obtain ⟨text, -, shown⟩ := bind_eq_ok.mp shown
    unfold messageOf at shown
    split at shown
    next =>
      cases shown
      exact rfl
    next =>
      cases shown
      exact rfl
    next =>
      cases shown
      exact rfl
    next =>
      cases shown
      exact rfl
    next => cases shown
  next =>
    obtain ⟨call, -, rfl⟩ := map_eq_ok.mp made
    trivial
  next kind =>
    obtain ⟨message, -, rfl⟩ := map_eq_ok.mp made
    exact iff_of_false (List.cons_ne_nil _ _) (notReasoning kind (by decide))
  next kind =>
    obtain rfl := Except.ok.inj made
    exact iff_of_true rfl ⟨object, rfl, kind⟩
  next kind =>
    obtain ⟨⟨assistant, tool⟩, -, rfl⟩ := map_eq_ok.mp made
    exact iff_of_false (List.cons_ne_nil _ _) (notReasoning kind (by decide))
  next => cases made
  next => cases made

end Steps

inductive CallWaits : List Value → Prop
  | call {items : List Value} {item : Value} :
      isKind "function_call" item → CallWaits (items ++ [item])
  | message {items : List Value} {item : Value} :
      CallWaits items → isKind "message" item → CallWaits (items ++ [item])

inductive Paused : List Value → Prop
  | first {items : List Value} {item : Value} :
      CallWaits items → isKind "reasoning" item → Paused (items ++ [item])
  | more {items : List Value} {item : Value} :
      Paused items → isKind "reasoning" item → Paused (items ++ [item])

/-- Reasoning parts a call that waits from a later call or message. -/
def PartsTurn (items : List Value) : Prop :=
  ∃ before next after, items = before ++ next :: after ∧ Paused before ∧
    (isKind "function_call" next ∨ isKind "message" next)

theorem not_callWaits_nil : ¬CallWaits [] := by
  intro waits
  generalize shape : ([] : List Value) = whole at waits
  cases waits <;> simp at shape

theorem not_paused_nil : ¬Paused [] := by
  intro pauses
  generalize shape : ([] : List Value) = whole at pauses
  cases pauses <;> simp at shape

theorem not_partsTurn_nil : ¬PartsTurn [] := by
  rintro ⟨before, next, after, shape, -⟩
  simp at shape

theorem callWaits_snoc {items : List Value} {item : Value} : CallWaits (items ++ [item]) ↔
    isKind "function_call" item ∨ isKind "message" item ∧ CallWaits items := by
  constructor
  · intro waiting
    generalize shape : items ++ [item] = whole at waiting
    cases waiting with
    | call called =>
        obtain ⟨-, last⟩ := List.append_inj' shape rfl
        exact .inl (List.singleton_inj.mp last ▸ called)
    | message waits shown =>
        obtain ⟨rfl, last⟩ := List.append_inj' shape rfl
        exact .inr ⟨List.singleton_inj.mp last ▸ shown, waits⟩
  · rintro (called | ⟨shown, waits⟩)
    · exact .call called
    · exact .message waits shown

theorem paused_snoc {items : List Value} {item : Value} : Paused (items ++ [item]) ↔
    isKind "reasoning" item ∧ (CallWaits items ∨ Paused items) := by
  constructor
  · intro paused
    generalize shape : items ++ [item] = whole at paused
    cases paused with
    | first waits reasons =>
        obtain ⟨rfl, last⟩ := List.append_inj' shape rfl
        exact ⟨List.singleton_inj.mp last ▸ reasons, .inl waits⟩
    | more pauses reasons =>
        obtain ⟨rfl, last⟩ := List.append_inj' shape rfl
        exact ⟨List.singleton_inj.mp last ▸ reasons, .inr pauses⟩
  · rintro ⟨reasons, waits | pauses⟩
    · exact .first waits reasons
    · exact .more pauses reasons

theorem partsTurn_snoc {items : List Value} {item : Value} : PartsTurn (items ++ [item]) ↔
    PartsTurn items ∨ Paused items ∧ (isKind "function_call" item ∨ isKind "message" item) := by
  constructor
  · rintro ⟨before, next, after, shape, pauses, kind⟩
    rcases List.eq_nil_or_concat after with rfl | ⟨rest, last, rfl⟩
    · obtain ⟨rfl, one⟩ := List.append_inj' shape rfl
      exact .inr ⟨pauses, List.singleton_inj.mp one ▸ kind⟩
    · have cut : items ++ [item] = (before ++ next :: rest) ++ [last] := by simp [shape]
      obtain ⟨rfl, -⟩ := List.append_inj' cut rfl
      exact .inl ⟨before, next, rest, rfl, pauses, kind⟩
  · rintro (⟨before, next, after, rfl, pauses, kind⟩ | ⟨pauses, kind⟩)
    · exact ⟨before, next, after ++ [item], by simp, pauses, kind⟩
    · exact ⟨items, item, [], rfl, pauses, kind⟩

/-- The calls come out before something that comes first in the other run, or too early to have
more calls beside them. -/
def Diverged (full other : InputState) : Prop :=
  ∃ messages pending, messages ++ [assistantCalls pending] <+: full.messages ∧
    ((∃ first, first ≠ assistantCalls pending ∧ messages ++ [first] <+: other.messages) ∨
      other.messages = messages ∧ ∃ call more, other.pendingCalls = pending ++ call :: more)

/-- The run with the reasoning and the run without it. -/
inductive ItemStage (items : List Value) (full other : InputState) : Prop
  | even (same : full = other) (waits : CallWaits items ↔ full.pendingCalls ≠ [])
      (running : ¬Paused items) (whole : ¬PartsTurn items)
  | ahead (pending : other.pendingCalls ≠ []) (same : full = other.flushCalls)
      (running : ¬CallWaits items) (pauses : Paused items) (whole : ¬PartsTurn items)
  | apart (parts : PartsTurn items) (diverged : Diverged full other)

theorem assistantCalls_inj {first second : List Value}
    (same : assistantCalls first = assistantCalls second) : first = second := by
  simpa [assistantCalls] using same

namespace InputState

theorem flushCalls_pending {state : InputState} (pending : state.pendingCalls ≠ []) :
    state.flushCalls = ⟨state.messages ++ [assistantCalls state.pendingCalls], []⟩ := by
  rw [flushCalls, if_neg (by simpa using pending)]

theorem flushCalls_idle {state : InputState} (idle : state.pendingCalls = []) :
    state.flushCalls = state := by
  rw [flushCalls, if_pos (by simp [idle])]

theorem flushCalls_twice (state : InputState) : state.flushCalls.flushCalls = state.flushCalls := by
  by_cases idle : state.pendingCalls = []
  · rw [flushCalls_idle idle, flushCalls_idle idle]
  · rw [flushCalls_pending idle, flushCalls_idle rfl]

theorem messages_flushCalls (state : InputState) : state.messages <+: state.flushCalls.messages := by
  rw [flushCalls]
  split
  next => exact List.prefix_refl _
  next => exact List.prefix_append _ _

theorem messages_apply (state : InputState) (effect : ItemEffect) :
    state.messages <+: (state.apply effect).messages := by
  cases effect with
  | message => exact List.prefix_append _ _
  | call => exact List.prefix_refl _
  | flushed messages => exact (messages_flushCalls state).trans (List.prefix_append _ _)

end InputState

open InputState

theorem Diverged.full {full other : InputState} (diverged : Diverged full other)
    (effect : ItemEffect) : Diverged (full.apply effect) other := by
  obtain ⟨messages, pending, early, late⟩ := diverged
  exact ⟨messages, pending, early.trans (messages_apply full effect), late⟩

theorem Diverged.other {full other : InputState} (diverged : Diverged full other)
    {effect : ItemEffect} (plain : ∀ message, effect = .message message →
      message.get "tool_calls" = none) : Diverged full (other.apply effect) := by
  obtain ⟨messages, pending, early, ⟨first, differs, shown⟩ | ⟨rfl, call, more, waits⟩⟩ := diverged
  · exact ⟨messages, pending, early,
      .inl ⟨first, differs, shown.trans (messages_apply other effect)⟩⟩
  · refine ⟨other.messages, pending, early, ?_⟩
    cases effect with
    | message message =>
        refine .inl ⟨message, fun same => ?_, List.prefix_refl _⟩
        have none_ := plain message rfl
        rw [same] at none_
        cases none_
    | call last => exact .inr ⟨rfl, call, more ++ [last], by simp [InputState.apply, waits]⟩
    | flushed sent =>
        have pendingCalls : other.pendingCalls ≠ [] := by simp [waits]
        refine .inl ⟨assistantCalls other.pendingCalls, fun same => ?_, ?_⟩
        · have length := congrArg List.length (assistantCalls_inj same)
          simp [waits] at length
        · rw [InputState.apply, flushCalls_pending pendingCalls]
          exact List.prefix_append _ _

theorem Diverged.ends {full other : InputState} (diverged : Diverged full other) :
    other.flushCalls.messages ≠ full.flushCalls.messages := by
  obtain ⟨messages, pending, early, late⟩ := diverged
  have fullAt := early.trans (messages_flushCalls full)
  have otherAt : ∃ first, first ≠ assistantCalls pending ∧
      messages ++ [first] <+: other.flushCalls.messages := by
    rcases late with ⟨first, differs, shown⟩ | ⟨rfl, call, more, waits⟩
    · exact ⟨first, differs, shown.trans (messages_flushCalls other)⟩
    · have pendingCalls : other.pendingCalls ≠ [] := by simp [waits]
      refine ⟨assistantCalls other.pendingCalls, fun same => ?_, ?_⟩
      · have length := congrArg List.length (assistantCalls_inj same)
        simp [waits] at length
      · have flushed := congrArg InputState.messages (flushCalls_pending pendingCalls)
        exact ⟨[], by rw [flushed, List.append_nil]⟩
  obtain ⟨first, differs, shown⟩ := otherAt
  intro same
  rw [same] at shown
  have equal := (List.prefix_of_prefix_length_le shown fullAt (by simp)).eq_of_length (by simp)
  exact differs (List.singleton_inj.mp (List.append_cancel_left equal))

section Run

def isReasoningItem (item : Value) : Bool := (item.asObject.map itemKind) == some "reasoning"

theorem isKind_iff {kind : String} {item : Value} :
    isKind kind item ↔ item.asObject.map itemKind = some kind := by
  rw [Option.map_eq_some_iff]
  exact exists_congr fun object => and_congr_left fun _ =>
    ⟨fun same => by rw [same]; rfl, Value.asObject_eq_some⟩

theorem isReasoningItem_iff {item : Value} : isReasoningItem item = true ↔ isKind "reasoning" item := by
  rw [isReasoningItem, beq_iff_eq, isKind_iff]

def withoutReasoning (steps : List (Value × ItemEffect)) : List (Value × ItemEffect) :=
  steps.filter fun step => !isReasoningItem step.1

variable {codec : Codec}

theorem ItemStage.reasoning {items : List Value} {item : Value} {full other : InputState}
    (stage : ItemStage items full other) (reasons : isKind "reasoning" item) :
    ItemStage (items ++ [item]) (full.apply (.flushed [])) other := by
  have notCall : ¬isKind "function_call" item := fun is => absurd (kinds_differ reasons is) (by decide)
  have notMessage : ¬isKind "message" item := fun is => absurd (kinds_differ reasons is) (by decide)
  have flushed : full.apply (.flushed []) = full.flushCalls := by
    rw [InputState.apply, List.append_nil]
  have stays : ¬CallWaits (items ++ [item]) := by
    rw [callWaits_snoc]
    rintro (called | ⟨shown, -⟩)
    · exact notCall called
    · exact notMessage shown
  have whole (before : ¬PartsTurn items) : ¬PartsTurn (items ++ [item]) := by
    rw [partsTurn_snoc]
    rintro (parts | ⟨-, called | shown⟩)
    · exact before parts
    · exact notCall called
    · exact notMessage shown
  cases stage with
  | even same waits running parts =>
      subst same
      by_cases idle : full.pendingCalls = []
      · refine .even (by rw [flushed, flushCalls_idle idle]) ?_ ?_ (whole parts)
        · rw [flushed, flushCalls_idle idle]
          exact iff_of_false stays (not_not.mpr idle)
        · rw [paused_snoc]
          rintro ⟨-, waiting | paused⟩
          · exact waits.mp waiting idle
          · exact running paused
      · exact .ahead idle flushed stays (paused_snoc.mpr ⟨reasons, .inl (waits.mpr idle)⟩)
          (whole parts)
  | ahead pending same running pauses parts =>
      refine .ahead pending ?_ stays (paused_snoc.mpr ⟨reasons, .inr pauses⟩) (whole parts)
      rw [flushed, same, flushCalls_twice]
  | apart parts diverged =>
      exact .apart (partsTurn_snoc.mpr (.inl parts)) (diverged.full _)

theorem ItemStage.other {items : List Value} {item : Value} {effect : ItemEffect}
    {full other : InputState} (stage : ItemStage items full other)
    (converted : convertInputItem codec 0 item = .ok effect)
    (plain : ¬isKind "reasoning" item) :
    ItemStage (items ++ [item]) (full.apply effect) (other.apply effect) := by
  have fits := convertInputItem_fits converted
  have sends := effect_sends converted
  have runs : ¬Paused (items ++ [item]) := fun paused => plain (paused_snoc.mp paused).1
  cases stage with
  | even same waits running parts =>
      subst same
      have whole : ¬PartsTurn (items ++ [item]) := by
        rw [partsTurn_snoc]
        exact fun either => either.elim parts fun paused => running paused.1
      refine .even rfl ?_ runs whole
      rw [callWaits_snoc]
      cases effect with
      | message message =>
          have notCall : ¬isKind "function_call" item :=
            fun is => absurd (kinds_differ fits is) (by decide)
          have shown : isKind "message" item := fits
          refine Iff.trans ?_ waits
          simp only [notCall, shown, false_or, true_and]
      | call call =>
          refine iff_of_true (.inl fits) ?_
          simp [InputState.apply]
      | flushed messages =>
          refine iff_of_false ?_ ?_
          · exact fun either => either.elim fits.2 fun shown => fits.1 shown.1
          · by_cases idle : full.pendingCalls = []
            · simp [InputState.apply, flushCalls_idle idle, idle]
            · simp [InputState.apply, flushCalls_pending idle]
  | ahead pending same running pauses parts =>
      cases effect with
      | message message =>
          refine .apart (partsTurn_snoc.mpr (.inr ⟨pauses, .inr fits⟩)) ?_
          refine ⟨other.messages, other.pendingCalls, ?_, .inl ⟨message, fun differs => ?_, ?_⟩⟩
          · rw [same, flushCalls_pending pending]
            exact List.prefix_append _ _
          · have none_ : message.get "tool_calls" = none := sends
            rw [differs] at none_
            cases none_
          · exact List.prefix_refl _
      | call call =>
          refine .apart (partsTurn_snoc.mpr (.inr ⟨pauses, .inl fits⟩)) ?_
          refine ⟨other.messages, other.pendingCalls, ?_, .inr ⟨rfl, call, [], rfl⟩⟩
          rw [same, flushCalls_pending pending]
          exact List.prefix_refl _
      | flushed messages =>
          have whole : ¬PartsTurn (items ++ [item]) := by
            rw [partsTurn_snoc]
            rintro (before | ⟨-, called | shown⟩)
            · exact parts before
            · exact fits.2 called
            · exact fits.1 shown
          refine .even ?_ ?_ runs whole
          · simp only [InputState.apply, same, flushCalls_twice]
          · rw [callWaits_snoc]
            refine iff_of_false ?_ ?_
            · exact fun either => either.elim fits.2 fun shown => fits.1 shown.1
            · simp only [InputState.apply, same, flushCalls_twice]
              simp [flushCalls_pending pending]
  | apart parts diverged =>
      refine .apart (partsTurn_snoc.mpr (.inl parts)) ?_
      refine (diverged.full effect).other ?_
      rintro message rfl
      exact sends

theorem itemStage_runSteps {steps : List (Value × ItemEffect)} (converted : Converted codec steps) :
    ItemStage (steps.map Prod.fst) (runSteps steps) (runSteps (withoutReasoning steps)) := by
  induction steps using List.reverseRecOn with
  | nil =>
      exact .even rfl (iff_of_false not_callWaits_nil (by simp [runSteps, InputState.start]))
        not_paused_nil not_partsTurn_nil
  | append_singleton steps step ih =>
      have stage := ih fun other member => converted other (List.mem_append_left _ member)
      have own := converted step (List.mem_append_right _ (List.mem_singleton_self step))
      rw [List.map_append, runSteps_snoc, withoutReasoning, List.filter_append]
      by_cases reasons : isKind "reasoning" step.1
      · have effect : step.2 = .flushed [] := by
          have sends := effect_sends own
          have fits := convertInputItem_fits own
          cases made : step.2 with
          | message =>
              rw [made] at fits
              exact absurd (kinds_differ reasons fits) (by decide)
          | call =>
              rw [made] at fits
              exact absurd (kinds_differ reasons fits) (by decide)
          | flushed messages =>
              rw [made] at sends
              exact congrArg _ (sends.mpr reasons)
        rw [List.filter_cons_of_neg (by simpa using isReasoningItem_iff.mpr reasons), List.filter_nil,
          List.append_nil,
          effect]
        exact stage.reasoning reasons
      · rw [List.filter_cons_of_pos (by simpa using mt isReasoningItem_iff.mp reasons), List.filter_nil,
          runSteps_snoc]
        exact stage.other own reasons

theorem converted_withoutReasoning {steps : List (Value × ItemEffect)}
    (converted : Converted codec steps) : Converted codec (withoutReasoning steps) :=
  fun step member => converted step (List.mem_of_mem_filter member)

theorem ends_same {steps : List (Value × ItemEffect)} (converted : Converted codec steps) :
    (runSteps (withoutReasoning steps)).flushCalls.messages =
        (runSteps steps).flushCalls.messages ↔ ¬PartsTurn (steps.map Prod.fst) := by
  cases itemStage_runSteps converted with
  | even same _ _ whole => exact iff_of_true (by rw [same]) whole
  | ahead _ same _ _ whole => exact iff_of_true (by rw [same, flushCalls_twice]) whole
  | apart parts diverged => exact iff_of_false diverged.ends (not_not.mpr parts)

end Run

/-- Without its reasoning items an accepted input gives the same messages, unless reasoning parts a
call that waits from a later call or message. -/
theorem reasoning_transparent {codec : Codec} {items messages : List Value}
    (accepted : convertInputItems codec items = .ok messages) :
    convertInputItems codec (items.filter fun item => !isReasoningItem item) = .ok messages ↔
      ¬PartsTurn items := by
  obtain ⟨state, folded, -⟩ := bind_eq_ok.mp accepted
  obtain ⟨steps, rfl, converted⟩ := converted_of_foldlM folded
  have filtered : (steps.map Prod.fst).filter (fun item => !isReasoningItem item) =
      (withoutReasoning steps).map Prod.fst := List.filter_map
  rw [convertInputItems_steps converted] at accepted
  rw [filtered, convertInputItems_steps (converted_withoutReasoning converted),
    ← ends_same converted]
  split at accepted
  next => cases accepted
  next sent =>
    obtain rfl := Except.ok.inj accepted
    constructor
    · intro same
      split at same
      next => cases same
      next => exact Except.ok.inj same
    · intro same
      rw [same, if_neg sent]

def reasoningItem : Value := .object [("type", .string "reasoning"), ("summary", .array [])]

def thoughtCall : List Value := [userItem, reasoningItem, callItem "a", doneItem "a"]

theorem thoughtCall_whole : ¬PartsTurn thoughtCall := by
  have split_ : thoughtCall =
      ((([] ++ [userItem]) ++ [reasoningItem]) ++ [callItem "a"]) ++ [doneItem "a"] := rfl
  rw [split_]
  simp only [partsTurn_snoc, paused_snoc, callWaits_snoc, not_callWaits_nil, not_paused_nil,
    not_partsTurn_nil, isKind_iff]
  decide

theorem reasoning_transparent_thought : ∃ messages,
    convertInputItems (documentCodec []) thoughtCall = .ok messages ∧
      convertInputItems (documentCodec [])
        (thoughtCall.filter fun item => !isReasoningItem item) = .ok messages :=
  ⟨_, rfl, (reasoning_transparent rfl).mpr thoughtCall_whole⟩

def partedCalls : List Value :=
  [callItem "a", reasoningItem, callItem "b", doneItem "a", doneItem "b"]

theorem reasoning_transparent_fails : ∃ messages,
    convertInputItems (documentCodec []) partedCalls = .ok messages ∧
      convertInputItems (documentCodec [])
        (partedCalls.filter fun item => !isReasoningItem item) ≠ .ok messages := by
  refine ⟨_, rfl, fun same => ?_⟩
  have length := congrArg (fun outcome : Fallible (List Value) => outcome.map List.length) same
  exact absurd length (by decide)

end ClineProxy
