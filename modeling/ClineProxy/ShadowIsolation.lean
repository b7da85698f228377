import ClineProxy.ShadowPressure

/-!
What a session of the shadow store reads depends on its own operations only, up to its evictions.
-/

namespace ClineProxy

open Clock ReasoningShadowStore TransitionSystem.System

def ShadowEvent.fingerprint : ShadowEvent → String
  | .store fingerprint _ _ _ _ => fingerprint
  | .restore fingerprint _ _ => fingerprint
  | .clear fingerprint => fingerprint

def onSession (name : String) (event : ShadowEvent) : Bool := event.fingerprint = name

section Expected

variable (hash : String → UInt64) (limits : ShadowLimits)

/-- The entry of a session under a key after one more event, if nothing is ever evicted or old. -/
def expectedStep (name : String) (key : ShadowKey) (held : Option ShadowEntry) :
    ShadowEvent → Option ShadowEntry
  | .store fingerprint now _ toolCallIds reasoning =>
      if fingerprint = name ∧ skips limits toolCallIds reasoning = false ∧
          key ∈ toolCallIds.map (keyOf hash name) then some ⟨reasoning, now⟩
      else held
  | .restore _ _ _ => held
  | .clear fingerprint => if fingerprint = name then none else held

def expectedEntry (name : String) (key : ShadowKey) (events : List ShadowEvent) :
    Option ShadowEntry := events.foldl (expectedStep hash limits name key) none

/-- The session went under the limits after the last store under the id. -/
def EvictedSince (ttl : Duration) (events : List ShadowEvent) (name id : String) : Prop :=
  ∃ before event after run next, events = before ++ event :: after ∧
    (shadowStore hash limits ttl).runFrom (.start ttl) before = some run ∧
    run.step hash limits event = some next ∧
    Evicts hash limits event run.shadow next.shadow name ∧
    ∀ later ∈ after, ¬Overwrites limits later name id

end Expected

variable {hash : String → UInt64} {limits : ShadowLimits} {ttl : Duration}
  {events : List ShadowEvent} {event : ShadowEvent} {run next : ShadowRun} {name id : String}
  {key : ShadowKey}

theorem expectedEntry_snoc : expectedEntry hash limits name key (events ++ [event]) =
    expectedStep hash limits name key (expectedEntry hash limits name key events) event :=
  List.foldl_concat ..

theorem expectedStep_other {held : Option ShadowEntry} (other : onSession name event = false) :
    expectedStep hash limits name key held event = held := by
  have different : event.fingerprint ≠ name := of_decide_eq_false other
  cases event with
  | store => exact if_neg fun both => different both.1
  | restore => rfl
  | clear => exact if_neg different

theorem expectedEntry_filter : expectedEntry hash limits name key (events.filter (onSession name)) =
    expectedEntry hash limits name key events := by
  induction events using List.reverseRecOn with
  | nil => rfl
  | append_singleton events event ih =>
      rw [List.filter_append, expectedEntry_snoc]
      cases own : onSession name event with
      | true => rw [List.filter_cons_of_pos own, List.filter_nil, expectedEntry_snoc, ih]
      | false =>
          rw [List.filter_cons_of_neg (by simp [own]), List.filter_nil, List.append_nil, ih,
            expectedStep_other own]

theorem stored_of_expected {entry : ShadowEntry}
    (found : expectedEntry hash limits name key events = some entry) :
    ∃ swept toolCallIds, .store name entry.created swept toolCallIds entry.reasoning ∈ events ∧
      key ∈ toolCallIds.map (keyOf hash name) := by
  induction events using List.reverseRecOn with
  | nil => cases found
  | append_singleton events event ih =>
      have older : expectedEntry hash limits name key events = some entry →
          ∃ swept toolCallIds, .store name entry.created swept toolCallIds entry.reasoning ∈
            events ++ [event] ∧ key ∈ toolCallIds.map (keyOf hash name) := fun found => by
        obtain ⟨swept, toolCallIds, member, listed⟩ := ih found
        exact ⟨swept, toolCallIds, List.mem_append_left _ member, listed⟩
      rw [expectedEntry_snoc] at found
      cases event with
      | store fingerprint now swept toolCallIds reasoning =>
          rw [expectedStep] at found
          split at found
          next hit =>
            cases found
            exact ⟨swept, toolCallIds, by simp [hit.1], hit.2.2⟩
          next => exact older found
      | restore => exact older found
      | clear fingerprint =>
          rw [expectedStep] at found
          split at found
          next => cases found
          next => exact older found

/-- An entry is as expected, or gone by age or by an eviction. -/
def Linked (hash : String → UInt64) (limits : ShadowLimits) (ttl : Duration) (name id : String)
    (events : List ShadowEvent) (run : ShadowRun) : Prop :=
  let key := keyOf hash name id
  let expected := expectedEntry hash limits name key events
  run.shadow.ttl = ttl ∧
    (run.shadow.entryOf name key = expected ∨
      run.shadow.entryOf name key = none ∧
        ((∃ entry, expected = some entry ∧ ttl < run.clock - entry.created) ∨
          EvictedSince hash limits ttl events name id))

theorem EvictedSince.snoc (evicted : EvictedSince hash limits ttl events name id)
    (kept : ¬Overwrites limits event name id) :
    EvictedSince hash limits ttl (events ++ [event]) name id := by
  obtain ⟨before, store, after, run, next, rfl, ran, stepped, gone, none_⟩ := evicted
  refine ⟨before, store, after ++ [event], run, next, by simp, ran, stepped, gone, ?_⟩
  intro later member
  rcases List.mem_append.mp member with old | new
  · exact none_ later old
  · exact List.mem_singleton.mp new ▸ kept

theorem enforced_entryOf {shadow : ReasoningShadowStore} {swept : Instant}
    (represented : shadow.Represented limits) :
    (enforceLimits limits swept shadow).entryOf name key = shadow.entryOf name key ∨
    (enforceLimits limits swept shadow).entryOf name key = none ∧
      ((∃ entry, shadow.entryOf name key = some entry ∧ shadow.ttl < swept - entry.created) ∨
        name ∈ (shadow.sweep swept).lru ∧ name ∉ (enforceLimits limits swept shadow).lru) := by
  obtain ⟨gone, queue, made, -⟩ := enforceLimits_cases represented swept
  cases found : shadow.entryOf name key with
  | none =>
      refine .inl ?_
      rw [made, entryOf_clearAll, sweep, entryOf_clearAll, found]
      simp
  | some entry =>
      by_cases evicted : name ∈ gone
      · refine .inr ⟨by rw [made, entryOf_clearAll, if_pos evicted], .inr ⟨?_, ?_⟩⟩
        · rw [queue]
          exact List.mem_append_left _ evicted
        · rw [made, (represented.sweep swept).clearAll_lru]
          simp [evicted]
      · by_cases late : shadow.ttl < swept - entry.created
        · have rest : (shadow.sweep swept).entryOf name key = some entry ∨
              (shadow.sweep swept).entryOf name key = none := by
            rw [sweep, entryOf_clearAll, found]
            split
            next => exact .inr rfl
            next => exact .inl rfl
          rw [made, entryOf_clearAll, if_neg evicted]
          rcases rest with stays | swept_
          · exact .inl stays
          · exact .inr ⟨swept_, .inl ⟨entry, rfl, late⟩⟩
        · refine .inl ?_
          rw [made, entryOf_clearAll, if_neg evicted]
          exact entryOf_sweep represented found late

theorem enforced_ttl {shadow : ReasoningShadowStore} {swept : Instant}
    (represented : shadow.Represented limits) :
    (enforceLimits limits swept shadow).ttl = shadow.ttl := by
  obtain ⟨gone, -, made, -⟩ := enforceLimits_cases represented swept
  rw [made, clearAll_ttl, sweep, clearAll_ttl]

theorem linked_store {fingerprint reasoning : String} {now swept : Instant}
    {toolCallIds : List String} (represented : run.shadow.Represented limits)
    (ran : (shadowStore hash limits ttl).runFrom (.start ttl) events = some run)
    (linked : Linked hash limits ttl name id events run)
    (stepped : run.step hash limits (.store fingerprint now swept toolCallIds reasoning) = some next)
    (kept : skips limits toolCallIds reasoning = false) :
    Linked hash limits ttl name id
      (events ++ [.store fingerprint now swept toolCallIds reasoning]) next := by
  obtain ⟨⟨later, forward⟩, made⟩ := step_store.mp stepped
  rw [store_kept kept] at made
  obtain ⟨same, held⟩ := linked
  have inserted : (run.shadow.insertReasoning hash fingerprint now toolCallIds
      reasoning).Represented limits := represented.insertReasoning (le_of_kept kept)
  have ttl_ : (run.shadow.insertReasoning hash fingerprint now toolCallIds reasoning).ttl = ttl :=
    same
  -- either the store puts the entry, or it leaves what was held and expected
  have put : (run.shadow.insertReasoning hash fingerprint now toolCallIds reasoning).entryOf name
        (keyOf hash name id) = expectedEntry hash limits name (keyOf hash name id)
          (events ++ [.store fingerprint now swept toolCallIds reasoning]) ∨
      (run.shadow.insertReasoning hash fingerprint now toolCallIds reasoning).entryOf name
        (keyOf hash name id) = none ∧
      ((∃ entry, expectedEntry hash limits name (keyOf hash name id)
          (events ++ [.store fingerprint now swept toolCallIds reasoning]) = some entry ∧
          ttl < swept - entry.created) ∨
        EvictedSince hash limits ttl
          (events ++ [.store fingerprint now swept toolCallIds reasoning]) name id) := by
    rw [entryOf_insertReasoning, expectedEntry_snoc, expectedStep]
    by_cases hit : name = fingerprint ∧ keyOf hash name id ∈ toolCallIds.map (keyOf hash fingerprint)
    · obtain ⟨rfl, listed⟩ := hit
      exact .inl (by rw [if_pos ⟨rfl, listed⟩, if_pos ⟨rfl, kept, listed⟩])
    · have missed : ¬(fingerprint = name ∧ skips limits toolCallIds reasoning = false ∧
          keyOf hash name id ∈ toolCallIds.map (keyOf hash name)) := by
        rintro ⟨rfl, -, listed⟩
        exact hit ⟨rfl, listed⟩
      rw [if_neg hit, if_neg missed]
      rcases held with held | ⟨gone, old | evicted⟩
      · exact .inl held
      · obtain ⟨entry, found, late⟩ := old
        exact .inr ⟨gone, .inl ⟨entry, found, late.trans_le
          (Nat.sub_le_sub_right (later.trans forward) _)⟩⟩
      · refine .inr ⟨gone, .inr (evicted.snoc ?_)⟩
        rintro ⟨_, _, _, _, event, member, -⟩
        cases event
        exact hit ⟨rfl, List.mem_map_of_mem member⟩
  rw [← made] at stepped ⊢
  refine ⟨(enforced_ttl inserted).trans ttl_, ?_⟩
  dsimp only
  rcases @enforced_entryOf limits name (keyOf hash name id) _ swept inserted with
    stays | ⟨gone, cause⟩
  · rw [stays]
    exact put
  · refine .inr ⟨gone, ?_⟩
    rcases cause with ⟨entry, found, late⟩ | ⟨live, evicted⟩
    · rcases put with put | ⟨absent, -⟩
      · exact .inl ⟨entry, put.symm.trans found, ttl_ ▸ late⟩
      · cases found.symm.trans absent
    · refine .inr ⟨events, _, [], run, _, rfl, ran, stepped, ⟨fingerprint, now, swept, toolCallIds,
        reasoning, rfl, ?_, evicted⟩, nofun⟩
      rw [insertedBy, if_neg (kept ▸ Bool.false_ne_true)]
      exact live

theorem linked_step (represented : run.shadow.Represented limits)
    (ran : (shadowStore hash limits ttl).runFrom (.start ttl) events = some run)
    (linked : Linked hash limits ttl name id events run)
    (stepped : run.step hash limits event = some next) :
    Linked hash limits ttl name id (events ++ [event]) next := by
  cases event with
  | store fingerprint now swept toolCallIds reasoning =>
      cases skipped : skips limits toolCallIds reasoning with
      | false => exact linked_store represented ran linked stepped skipped
      | true =>
          obtain ⟨⟨later, forward⟩, rfl⟩ := step_store.mp stepped
          obtain ⟨same, held⟩ := linked
          rw [Linked, expectedEntry_snoc, expectedStep, if_neg (by simp [skipped]),
            store_skipped skipped]
          refine ⟨same, held.imp_right fun lost => ⟨lost.1, ?_⟩⟩
          rcases lost.2 with ⟨entry, found, late⟩ | evicted
          · exact .inl ⟨entry, found, late.trans_le
              (Nat.sub_le_sub_right (later.trans forward) _)⟩
          · refine .inr (evicted.snoc ?_)
            rintro ⟨_, _, _, _, event, -, kept⟩
            cases event
            cases skipped.symm.trans kept
  | restore fingerprint now toolCallIds =>
      obtain ⟨later, rfl⟩ := step_restore.mp stepped
      obtain ⟨same, held⟩ := linked
      rw [Linked, expectedEntry_snoc, expectedStep]
      refine ⟨restore_ttl.trans same, ?_⟩
      dsimp only
      have quiet : ¬Overwrites limits (.restore fingerprint now toolCallIds) name id := by
        rintro ⟨_, _, _, _, event, -⟩
        cases event
      rcases held with held | ⟨gone, cause⟩
      · rcases @entryOf_restore run.shadow name (keyOf hash name id) hash fingerprint now toolCallIds
          with stays | ⟨dropped, entry, found, late⟩
        · exact .inl (stays.trans held)
        · exact .inr ⟨dropped, .inl ⟨entry, held.symm.trans found, same ▸ late⟩⟩
      · have absent : (run.shadow.restore hash fingerprint now toolCallIds).2.entryOf name
            (keyOf hash name id) = none := by
          rcases @entryOf_restore run.shadow name (keyOf hash name id) hash fingerprint now
            toolCallIds with stays | ⟨dropped, -⟩
          · exact stays.trans gone
          · exact dropped
        refine .inr ⟨absent, ?_⟩
        rcases cause with ⟨entry, found, late⟩ | evicted
        · exact .inl ⟨entry, found, late.trans_le (Nat.sub_le_sub_right later _)⟩
        · exact .inr (evicted.snoc quiet)
  | clear fingerprint =>
      obtain rfl := step_clear.mp stepped
      obtain ⟨same, held⟩ := linked
      rw [Linked, expectedEntry_snoc, expectedStep]
      refine ⟨clearSession_ttl.trans same, ?_⟩
      dsimp only
      rw [entryOf_clearSession]
      by_cases own : name = fingerprint
      · rw [if_pos own, if_pos own.symm]
        exact .inl rfl
      · rw [if_neg own, if_neg (Ne.symm own)]
        refine held.imp_right fun lost => ⟨lost.1, lost.2.imp_right fun evicted => evicted.snoc ?_⟩
        rintro ⟨_, _, _, _, event, -⟩
        cases event

theorem run_linked (ran : (shadowStore hash limits ttl).runFrom (.start ttl) events = some run) :
    Linked hash limits ttl name id events run := by
  have begins : Linked hash limits ttl name id [] (.start ttl) := ⟨rfl, .inl rfl⟩
  refine runFrom_linked begins ?_ ran
  intro events run event next ran linked stepped
  exact linked_step (reachable_represented (runFrom_reachable (.initial rfl) ran)) ran linked stepped

theorem restore_single {shadow : ReasoningShadowStore} {now : Instant} :
    (shadow.restore hash name now [id]).1 = (shadow.entryOf name (keyOf hash name id)).bind
      fun entry => if shadow.ttl < now - entry.created then none else some entry.reasoning := by
  rw [restore_eq, List.findSome?_cons, List.findSome?_nil]
  cases shadow.entryOf name (keyOf hash name id) <;> rfl

theorem restore_expected (ran : (shadowStore hash limits ttl).runFrom (.start ttl) events = some run)
    {now : Instant} (later : run.clock ≤ now) :
    ((run.shadow.restore hash name now [id]).1 =
        (expectedEntry hash limits name (keyOf hash name id) events).bind fun entry =>
          if ttl < now - entry.created then none else some entry.reasoning) ∨
      (run.shadow.restore hash name now [id]).1 = none ∧
        EvictedSince hash limits ttl events name id := by
  obtain ⟨same, held⟩ : Linked hash limits ttl name id events run := run_linked ran
  rw [restore_single, same]
  rcases held with held | ⟨gone, ⟨entry, found, late⟩ | evicted⟩
  · exact .inl (by rw [held])
  · refine .inl ?_
    rw [gone, found, Option.bind_some,
      if_pos (late.trans_le (Nat.sub_le_sub_right later entry.created))]
    rfl
  · exact .inr ⟨by rw [gone]; rfl, evicted⟩

/-- Two runs with the same operations of a session restore the same under its ids, up to the evictions
of the session, and only what was stored under it. -/
theorem shadow_isolation {first second : List ShadowEvent} {run other : ShadowRun}
    {name id : String} {now : Instant}
    (ran : (shadowStore hash limits ttl).runFrom (.start ttl) first = some run)
    (ranOther : (shadowStore hash limits ttl).runFrom (.start ttl) second = some other)
    (same : first.filter (onSession name) = second.filter (onSession name))
    (later : run.clock ≤ now) (laterOther : other.clock ≤ now) :
    ((run.shadow.restore hash name now [id]).1 = (other.shadow.restore hash name now [id]).1 ∨
      (run.shadow.restore hash name now [id]).1 = none ∧
        EvictedSince hash limits ttl first name id ∨
      (other.shadow.restore hash name now [id]).1 = none ∧
        EvictedSince hash limits ttl second name id) ∧
    ∀ reasoning, (run.shadow.restore hash name now [id]).1 = some reasoning →
      ∃ time swept toolCallIds, .store name time swept toolCallIds reasoning ∈ first ∧
        hash id ∈ toolCallIds.map hash := by
  have expected : expectedEntry hash limits name (keyOf hash name id) first =
      expectedEntry hash limits name (keyOf hash name id) second := by
    rw [← expectedEntry_filter, same, expectedEntry_filter]
  have firstRead := @restore_expected hash limits ttl first run name id ran now later
  have secondRead := @restore_expected hash limits ttl second other name id ranOther now laterOther
  refine ⟨?_, fun reasoning restored => ?_⟩
  · rcases firstRead with read | lost
    · rcases secondRead with readOther | lost
      · exact .inl (by rw [read, readOther, expected])
      · exact .inr (.inr lost)
    · exact .inr (.inl lost)
  · rcases firstRead with read | ⟨none_, -⟩
    · obtain ⟨entry, found, fresh⟩ := Option.bind_eq_some_iff.mp (read.symm.trans restored)
      obtain ⟨swept, toolCallIds, member, listed⟩ := stored_of_expected found
      split at fresh
      next => cases fresh
      next =>
        cases fresh
        obtain ⟨stored, listed, key⟩ := List.mem_map.mp listed
        exact ⟨entry.created, swept, toolCallIds, member,
          List.mem_map.mpr ⟨stored, listed, congrArg ShadowKey.toolCall key⟩⟩
    · cases none_.symm.trans restored

def bothStored : ShadowRun :=
  ((shadowStore lengthHash tenBytes 600).runFrom (.start 600)
    [planAt "agent" 1, planAt "other" 3]).get (by decide +kernel)

theorem shadow_isolation_agent :
    ((onceStored.shadow.restore lengthHash "agent" 10 ["call"]).1 =
        (bothStored.shadow.restore lengthHash "agent" 10 ["call"]).1 ∨
      (onceStored.shadow.restore lengthHash "agent" 10 ["call"]).1 = none ∧
        EvictedSince lengthHash tenBytes 600 [planAt "agent" 1] "agent" "call" ∨
      (bothStored.shadow.restore lengthHash "agent" 10 ["call"]).1 = none ∧
        EvictedSince lengthHash tenBytes 600 [planAt "agent" 1, planAt "other" 3]
          "agent" "call") ∧
    ∀ reasoning, (onceStored.shadow.restore lengthHash "agent" 10 ["call"]).1 = some reasoning →
      ∃ time swept toolCallIds,
        .store "agent" time swept toolCallIds reasoning ∈ [planAt "agent" 1] ∧
        lengthHash "call" ∈ toolCallIds.map lengthHash :=
  shadow_isolation (Option.some_get _).symm (Option.some_get _).symm
    (by simp [onSession, planAt, ShadowEvent.fingerprint]) (by decide +kernel) (by decide +kernel)

end ClineProxy
