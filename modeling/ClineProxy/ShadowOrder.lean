import ClineProxy.ShadowPressure

/-!
The order in which the shadow store evicts sessions. The queue keeps the place of a session that is
stored to again or restored from.
-/

namespace ClineProxy

open Clock ReasoningShadowStore TransitionSystem.System

section Touch

variable (hash : String → UInt64) (limits : ShadowLimits)

def touch (shadow : ReasoningShadowStore) : ShadowEvent → Option (String × Instant)
  | .store fingerprint now _ toolCallIds reasoning =>
      if skips limits toolCallIds reasoning then none else some (fingerprint, now)
  | .restore fingerprint now toolCallIds =>
      if (shadow.restore hash fingerprint now toolCallIds).1.isSome then some (fingerprint, now)
      else none
  | .clear _ => none

structure TouchedRun where
  run : ShadowRun
  touched : String → Instant

def TouchedRun.step (state : TouchedRun) (event : ShadowEvent) : Option TouchedRun :=
  (state.run.step hash limits event).map fun next => {
    run := next
    touched := fun name =>
      match touch hash limits state.run.shadow event with
      | some (other, time) => if name = other then time else state.touched name
      | none => state.touched name }

def touchedStore (ttl : Duration) : TransitionSystem.System TouchedRun ShadowEvent where
  initial state := state.run = .start ttl
  step state event := state.step hash limits event

/-- The event touches no session, a new one, or the last one of the queue. -/
def TouchesLast (state : TouchedRun) (event : ShadowEvent) : Prop :=
  ∀ name time, touch hash limits state.run.shadow event = some (name, time) →
    name ∉ state.run.shadow.lru ∨ state.run.shadow.lru.getLast? = some name

end Touch

variable {hash : String → UInt64} {limits : ShadowLimits} {ttl : Duration}
  {state next : TouchedRun} {event : ShadowEvent}

/-- The queue is in the order of the last touches, none of them in the future. -/
structure TouchOrdered (state : TouchedRun) : Prop where
  order : state.run.shadow.lru.Pairwise fun first second =>
    state.touched first ≤ state.touched second
  past : ∀ name ∈ state.run.shadow.lru, state.touched name ≤ state.run.clock

theorem pairwise_touched {lru : List String} {touched : String → Instant} {name : String}
    {now : Instant} (order : lru.Pairwise fun first second => touched first ≤ touched second)
    (past : ∀ other ∈ lru, touched other ≤ now)
    (distinct : (lru ++ [name]).Nodup) :
    (lru ++ [name]).Pairwise fun first second =>
      (if first = name then now else touched first) ≤
        (if second = name then now else touched second) := by
  rw [List.nodup_append] at distinct
  have others : ∀ other ∈ lru, other ≠ name := fun other member =>
    distinct.2.2 other member name (List.mem_singleton_self name)
  rw [List.pairwise_append]
  refine ⟨order.imp_of_mem fun first second before => ?_, List.pairwise_singleton _ _, ?_⟩
  · rw [if_neg (others _ first), if_neg (others _ second)]
    exact before
  · intro other member last single
    rw [List.mem_singleton.mp single, if_pos rfl, if_neg (others other member)]
    exact past other member

theorem step_touched (stepped : state.step hash limits event = some next) :
    state.run.step hash limits event = some next.run ∧
      (touch hash limits state.run.shadow event = none → next.touched = state.touched) ∧
      ∀ name time, touch hash limits state.run.shadow event = some (name, time) →
        next.touched = fun other => if other = name then time else state.touched other := by
  obtain ⟨run, made, rfl⟩ := Option.map_eq_some_iff.mp stepped
  refine ⟨made, fun none_ => ?_, fun name time some_ => ?_⟩
  · dsimp only
    rw [none_]
  · dsimp only
    rw [some_]

theorem TouchOrdered.touch {name : String} {now : Instant} {queue : List String}
    (ordered : TouchOrdered state) (distinct : queue.Nodup) (later : state.run.clock ≤ now)
    (placed : name ∉ state.run.shadow.lru ∧ queue = state.run.shadow.lru ++ [name] ∨
      state.run.shadow.lru.getLast? = some name ∧ queue = state.run.shadow.lru) :
    (queue.Pairwise fun first second => (if first = name then now else state.touched first) ≤
        (if second = name then now else state.touched second)) ∧
      ∀ other ∈ queue, (if other = name then now else state.touched other) ≤ now := by
  have past : ∀ other ∈ state.run.shadow.lru, state.touched other ≤ now := fun other member =>
    (ordered.past other member).trans later
  have below : ∀ queue : List String, (∀ other ∈ queue, other = name ∨ other ∈ state.run.shadow.lru) →
      ∀ other ∈ queue, (if other = name then now else state.touched other) ≤ now := by
    intro queue known other member
    split
    next => exact le_rfl
    next different => exact past other ((known other member).resolve_left different)
  rcases placed with ⟨-, rfl⟩ | ⟨last, rfl⟩
  · refine ⟨pairwise_touched ordered.order past distinct, below _ fun other member => ?_⟩
    rcases List.mem_append.mp member with old | new
    · exact .inr old
    · exact .inl (List.mem_singleton.mp new)
  · obtain ⟨before, parts⟩ := List.getLast?_eq_some_iff.mp last
    refine ⟨?_, below _ fun other member => .inr member⟩
    have order := ordered.order
    rw [parts] at order distinct past ⊢
    exact pairwise_touched (List.pairwise_append.mp order).1
      (fun other member => past other (List.mem_append_left _ member)) distinct

theorem TouchOrdered.inserted {fingerprint reasoning : String} {now swept : Instant}
    {toolCallIds : List String} (ordered : TouchOrdered state)
    (represented : state.run.shadow.Represented limits)
    (kept : skips limits toolCallIds reasoning = false) (later : state.run.clock ≤ now)
    (last : TouchesLast hash limits state
      (.store fingerprint now swept toolCallIds reasoning)) :
    ((state.run.shadow.insertReasoning hash fingerprint now toolCallIds reasoning).lru.Pairwise
        fun first second => (if first = fingerprint then now else state.touched first) ≤
          (if second = fingerprint then now else state.touched second)) ∧
      ∀ other ∈ (state.run.shadow.insertReasoning hash fingerprint now toolCallIds reasoning).lru,
        (if other = fingerprint then now else state.touched other) ≤ now := by
  have inserted : (state.run.shadow.insertReasoning hash fingerprint now toolCallIds
      reasoning).Represented limits := represented.insertReasoning (le_of_kept kept)
  refine ordered.touch inserted.nodup later ?_
  have placed := last fingerprint now (by simp [ClineProxy.touch, kept])
  rw [insertReasoning]
  cases found : OrderedMap.lookup fingerprint state.run.shadow.sessions with
  | none => exact .inl ⟨fun live => represented.mem_lru.mp live found, rfl⟩
  | some session =>
      have live : fingerprint ∈ state.run.shadow.lru := represented.mem_lru.mpr (by simp [found])
      exact .inr ⟨placed.resolve_left (not_not.mpr live), rfl⟩

theorem enforced_sublist {shadow : ReasoningShadowStore} (represented : shadow.Represented limits)
    (now : Instant) : (enforceLimits limits now shadow).lru.Sublist (sweep now shadow).lru := by
  obtain ⟨gone, queue, -⟩ := enforceLimits_cases represented now
  rw [queue]
  exact List.sublist_append_right ..

theorem sweep_sublist {shadow : ReasoningShadowStore} (represented : shadow.Represented limits)
    (now : Instant) : (sweep now shadow).lru.Sublist shadow.lru := by
  rw [sweep, represented.clearAll_lru]
  exact List.filter_sublist

theorem restore_lru {shadow : ReasoningShadowStore} {fingerprint : String} {now : Instant}
    {toolCallIds : List String} :
    (shadow.restore hash fingerprint now toolCallIds).2.lru = shadow.lru := by
  obtain same | ⟨session, -, made⟩ := @restore_cases shadow hash fingerprint now toolCallIds
  · rw [same]
  · rw [made]

theorem live_of_restore {shadow : ReasoningShadowStore} {fingerprint : String} {now : Instant}
    {toolCallIds : List String}
    (restored : (shadow.restore hash fingerprint now toolCallIds).1.isSome = true) :
    OrderedMap.lookup fingerprint shadow.sessions ≠ none := by
  intro absent
  rw [restore, absent] at restored
  split at restored <;> cases restored

theorem ordered_step (ordered : TouchOrdered state) (represented : state.run.shadow.Represented limits)
    (last : TouchesLast hash limits state event)
    (stepped : state.step hash limits event = some next) : TouchOrdered next := by
  obtain ⟨ran, untouched, touched⟩ := step_touched stepped
  cases event with
  | clear fingerprint =>
      have made := step_clear.mp ran
      have fewer : (state.run.shadow.clearSession fingerprint).lru.Sublist state.run.shadow.lru := by
        rw [represented.clear_lru]
        exact List.filter_sublist
      constructor
      · rw [untouched rfl, ← made]
        exact ordered.order.sublist fewer
      · rw [untouched rfl, ← made]
        exact fun name member => ordered.past name (fewer.subset member)
  | restore fingerprint now toolCallIds =>
      obtain ⟨later, made⟩ := step_restore.mp ran
      cases success : (state.run.shadow.restore hash fingerprint now toolCallIds).1.isSome with
      | false =>
          have none_ : touch hash limits state.run.shadow (.restore fingerprint now toolCallIds) =
              none := if_neg (success ▸ Bool.false_ne_true)
          constructor
          · rw [untouched none_, ← made, restore_lru]
            exact ordered.order
          · rw [untouched none_, ← made, restore_lru]
            exact fun name member => (ordered.past name member).trans later
      | true =>
          have some_ : touch hash limits state.run.shadow (.restore fingerprint now toolCallIds) =
              some (fingerprint, now) := if_pos success
          have live := represented.mem_lru.mpr (live_of_restore success)
          have final := (last fingerprint now some_).resolve_left (not_not.mpr live)
          obtain ⟨order, past⟩ := ordered.touch represented.nodup later (.inr ⟨final, rfl⟩)
          constructor
          · rw [touched _ _ some_, ← made, restore_lru]
            exact order
          · rw [touched _ _ some_, ← made, restore_lru]
            exact past
  | store fingerprint now swept toolCallIds reasoning =>
      obtain ⟨⟨later, forward⟩, made⟩ := step_store.mp ran
      cases skipped : skips limits toolCallIds reasoning with
      | true =>
          have none_ : touch hash limits state.run.shadow
              (.store fingerprint now swept toolCallIds reasoning) = none := if_pos skipped
          constructor
          · rw [untouched none_, ← made, store_skipped skipped]
            exact ordered.order
          · rw [untouched none_, ← made, store_skipped skipped]
            exact fun name member => (ordered.past name member).trans (later.trans forward)
      | false =>
          have some_ : touch hash limits state.run.shadow
              (.store fingerprint now swept toolCallIds reasoning) = some (fingerprint, now) :=
            if_neg (skipped ▸ Bool.false_ne_true)
          have inserted : (state.run.shadow.insertReasoning hash fingerprint now toolCallIds
              reasoning).Represented limits := represented.insertReasoning (le_of_kept skipped)
          have fewer := (enforced_sublist inserted swept).trans (sweep_sublist inserted swept)
          obtain ⟨order, past⟩ := ordered.inserted represented skipped later last
          constructor
          · rw [touched _ _ some_, ← made, store_kept skipped]
            exact order.sublist fewer
          · rw [touched _ _ some_, ← made, store_kept skipped]
            exact fun name member => (past name (fewer.subset member)).trans forward

theorem reachable_ordered
    (reached : (touchedStore hash limits ttl).ReachableWhere (TouchesLast hash limits) state) :
    TouchOrdered state ∧ state.run.shadow.Represented limits := by
  induction reached with
  | initial begun =>
      rename_i first
      have begun : first.run = .start ttl := begun
      exact ⟨⟨begun ▸ List.Pairwise.nil, by rw [begun]; nofun⟩, begun ▸ start_represented⟩
  | step _ last stepped ih =>
      exact ⟨ordered_step ih.1 ih.2 last stepped, step_represented ih.2 (step_touched stepped).1⟩

/-- A session that the limits cost was touched no later than any that survives, in runs whose events
touch the last session of the queue only. -/
theorem shadow_eviction_order
    (reached : (touchedStore hash limits ttl).ReachableWhere (TouchesLast hash limits) state)
    (last : TouchesLast hash limits state event)
    (stepped : state.step hash limits event = some next) :
    ∀ victim survivor, Evicts hash limits event state.run.shadow next.run.shadow victim →
      survivor ∈ next.run.shadow.lru → next.touched victim ≤ next.touched survivor := by
  obtain ⟨ordered, represented⟩ := reachable_ordered reached
  obtain ⟨ran, -, touched⟩ := step_touched stepped
  rintro victim survivor ⟨fingerprint, now, swept, toolCallIds, reasoning, rfl, live, evicted⟩ stays
  obtain ⟨⟨later, -⟩, made⟩ := step_store.mp ran
  rw [insertedBy] at live
  rw [← made] at evicted stays
  dsimp only at evicted stays
  cases skipped : skips limits toolCallIds reasoning with
  | true =>
      rw [skipped, if_pos rfl] at live
      rw [store_skipped skipped] at evicted
      exact absurd ((sweep_sublist represented swept).subset live) evicted
  | false =>
      rw [skipped, if_neg Bool.false_ne_true] at live
      rw [store_kept skipped] at evicted stays
      have some_ : touch hash limits state.run.shadow
          (.store fingerprint now swept toolCallIds reasoning) = some (fingerprint, now) :=
        if_neg (skipped ▸ Bool.false_ne_true)
      have inserted : (state.run.shadow.insertReasoning hash fingerprint now toolCallIds
          reasoning).Represented limits := represented.insertReasoning (le_of_kept skipped)
      have order := (ordered.inserted represented skipped later last).1.sublist
        (sweep_sublist inserted swept)
      obtain ⟨gone, queue, -⟩ := enforceLimits_cases inserted swept
      rw [queue] at live order
      have first := (List.mem_append.mp live).resolve_right evicted
      rw [touched _ _ some_]
      exact (List.pairwise_append.mp order).2.2 victim first survivor stays

theorem touchesLast_new {name : String} {time : Instant} (fresh : name ∉ state.run.shadow.lru) :
    TouchesLast hash limits state (planAt name time) := by
  intro other now touched
  rw [planAt, touch] at touched
  split at touched
  next => cases touched
  next =>
    cases touched
    exact .inl fresh

def untouchedRun : TouchedRun := ⟨.start 600, fun _ => 0⟩

def agentTouched : TouchedRun :=
  (untouchedRun.step lengthHash tenBytes (planAt "agent" 1)).get (by decide +kernel)

def otherTouched : TouchedRun :=
  (agentTouched.step lengthHash tenBytes (planAt "other" 3)).get (by decide +kernel)

def thirdTouched : TouchedRun :=
  (otherTouched.step lengthHash tenBytes (planAt "third" 5)).get (by decide +kernel)

theorem shadow_eviction_order_third :
    thirdTouched.touched "agent" ≤ thirdTouched.touched "other" := by
  have first : (touchedStore lengthHash tenBytes 600).step untouchedRun (planAt "agent" 1) =
      some agentTouched := (Option.some_get _).symm
  have second : (touchedStore lengthHash tenBytes 600).step agentTouched (planAt "other" 3) =
      some otherTouched := (Option.some_get _).symm
  have begun : (touchedStore lengthHash tenBytes 600).ReachableWhere
      (TouchesLast lengthHash tenBytes) untouchedRun := .initial rfl
  have reached := ReachableWhere.step (.step begun (touchesLast_new (by decide +kernel)) first)
    (touchesLast_new (by decide +kernel)) second
  exact shadow_eviction_order reached (touchesLast_new (by decide +kernel))
    (Option.some_get _).symm "agent" "other"
    ⟨"third", 5, 6, ["call"], "plan", rfl, by decide +kernel, by decide +kernel⟩
    (by decide +kernel)

def twoSessions : ShadowLimits := ⟨2, 100, 8⟩

def againTouched : TouchedRun :=
  ((touchedStore lengthHash twoSessions 600).runFrom untouchedRun
    [planAt "agent" 1, planAt "other" 3, planAt "agent" 5]).get (by decide +kernel)

def againEvicted : TouchedRun :=
  (againTouched.step lengthHash twoSessions (planAt "third" 7)).get (by decide +kernel)

theorem shadow_eviction_order_fails : ¬ ∀ state event next,
    (touchedStore lengthHash twoSessions 600).Reachable state →
    state.step lengthHash twoSessions event = some next →
    ∀ victim survivor,
      Evicts lengthHash twoSessions event state.run.shadow next.run.shadow victim →
      survivor ∈ next.run.shadow.lru → next.touched victim ≤ next.touched survivor := by
  intro claim
  have begun : (touchedStore lengthHash twoSessions 600).Reachable untouchedRun := .initial rfl
  have reached : (touchedStore lengthHash twoSessions 600).Reachable againTouched :=
    runFrom_reachable begun (Option.some_get _).symm
  have order := claim againTouched (planAt "third" 7) againEvicted reached
    (Option.some_get _).symm "agent" "other"
    ⟨"third", 7, 8, ["call"], "plan", rfl, by decide +kernel, by decide +kernel⟩
    (by decide +kernel)
  exact absurd order (by decide +kernel)

end ClineProxy
