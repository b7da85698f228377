import ClineProxy.RestoreChecks
import ClineProxy.ShadowIsolation

/-! What a restore under several ids gives, and what the operations make of those ids. -/

namespace ClineProxy

open Clock ReasoningShadowStore TransitionSystem.System

section Found

variable {Item Found Result : Type} (find : Item → Option Found) (read : Found → Option Result)

theorem findSome?_bind_iff (items : List Item) :
    (items.findSome? find).bind read = (items.findSome? fun item => (find item).bind read) ↔
      ∀ first, items.findSome? find = some first → read first = none →
        ∀ item ∈ items, ∀ found, find item = some found → read found = none := by
  induction items with
  | nil => simp
  | cons item rest ih =>
      rw [List.findSome?_cons, List.findSome?_cons, List.forall_mem_cons]
      cases here : find item with
      | none => simpa using ih
      | some found =>
          cases value : read found with
          | some result => simp [value]
          | none =>
              simp only [Option.bind_some, value, Option.some.injEq, forall_eq', true_implies,
                true_and]
              rw [eq_comm, List.findSome?_eq_none_iff]
              simp only [Option.bind_eq_none_iff]

theorem eq_findSome?_iff (items : List Item) (found : Option Found) :
    found = items.findSome? find ↔ ∀ result, found = some result ↔
      ∃ before item after, items = before ++ item :: after ∧ find item = some result ∧
        ∀ other ∈ before, ∀ said, find other ≠ some said := by
  have first (result : Found) : items.findSome? find = some result ↔
      ∃ before item after, items = before ++ item :: after ∧ find item = some result ∧
        ∀ other ∈ before, ∀ said, find other ≠ some said := by
    rw [List.findSome?_eq_some_iff]
    simp only [Option.eq_none_iff_forall_ne_some]
  constructor
  · rintro rfl result
    exact first result
  · intro same
    refine Option.ext fun result => ?_
    rw [same, first]

end Found

def ShadowEvent.storedIds : ShadowEvent → List String
  | .store _ _ _ toolCallIds _ => toolCallIds
  | .restore _ _ _ => []
  | .clear _ => []

section Live

variable (hash : String → UInt64) (limits : ShadowLimits) (ttl : Duration)

def lastStoredStep (name id : String) (held : Option ShadowEntry) :
    ShadowEvent → Option ShadowEntry
  | .store fingerprint now _ toolCallIds reasoning =>
      if fingerprint = name ∧ skips limits toolCallIds reasoning = false ∧ id ∈ toolCallIds then
        some ⟨reasoning, now⟩
      else held
  | .restore _ _ _ => held
  | .clear fingerprint => if fingerprint = name then none else held

def lastStored (name id : String) (events : List ShadowEvent) : Option ShadowEntry :=
  events.foldl (lastStoredStep limits name id) none

/-- The id has an entry that is neither cleared nor evicted nor expired. -/
def LiveEntry (events : List ShadowEvent) (name : String) (now : Instant) (id reasoning : String) :
    Prop :=
  ∃ entry, lastStored limits name id events = some entry ∧ entry.reasoning = reasoning ∧
    ¬ttl < now - entry.created ∧ ¬EvictedSince hash limits ttl events name id

/-- No other id that was stored under has the hash of this one. -/
def Apart (events : List ShadowEvent) (id : String) : Prop :=
  ∀ event ∈ events, ∀ stored ∈ event.storedIds, hash stored = hash id → stored = id

/-- The reasoning of the first id that has a live entry. -/
def RestoresLive (events : List ShadowEvent) (name : String) (now : Instant)
    (toolCallIds : List String) (restored : Option String) : Prop :=
  ∀ reasoning, restored = some reasoning ↔
    ∃ before id after, toolCallIds = before ++ id :: after ∧
      LiveEntry hash limits ttl events name now id reasoning ∧
      ∀ other ∈ before, ∀ said, ¬LiveEntry hash limits ttl events name now other said

/-- The first of the ids that the session holds an entry for has a fresh one, or none of the ids
has a fresh one. -/
def NoneHidden (shadow : ReasoningShadowStore) (name : String) (now : Instant)
    (toolCallIds : List String) : Prop :=
  ∀ first, (toolCallIds.findSome? fun id => shadow.entryOf name (keyOf hash name id)) = some first →
    shadow.ttl < now - first.created → ∀ id ∈ toolCallIds, ∀ entry,
      shadow.entryOf name (keyOf hash name id) = some entry → shadow.ttl < now - entry.created

end Live

variable {hash : String → UInt64} {limits : ShadowLimits} {ttl : Duration}
  {events : List ShadowEvent} {event : ShadowEvent} {run next : ShadowRun} {name id : String}
  {now : Instant}

theorem lastStored_snoc : lastStored limits name id (events ++ [event]) =
    lastStoredStep limits name id (lastStored limits name id events) event :=
  List.foldl_concat ..

theorem keyOf_mem {toolCallIds : List String}
    (apart : ∀ stored ∈ toolCallIds, hash stored = hash id → stored = id) :
    keyOf hash name id ∈ toolCallIds.map (keyOf hash name) ↔ id ∈ toolCallIds := by
  refine ⟨fun member => ?_, List.mem_map_of_mem⟩
  obtain ⟨other, listed, same⟩ := List.mem_map.mp member
  exact apart other listed (congrArg ShadowKey.toolCall same) ▸ listed

theorem expectedEntry_eq (apart : Apart hash events id) :
    expectedEntry hash limits name (keyOf hash name id) events =
      lastStored limits name id events := by
  induction events using List.reverseRecOn with
  | nil => rfl
  | append_singleton events event ih =>
      rw [expectedEntry_snoc, lastStored_snoc,
        ih fun other member => apart other (List.mem_append_left _ member)]
      have own := apart event (List.mem_append_right _ (List.mem_singleton_self event))
      cases event with
      | store fingerprint now swept toolCallIds reasoning =>
          have same := @keyOf_mem hash name id toolCallIds own
          simp only [expectedStep, lastStoredStep, same]
      | restore => rfl
      | clear => rfl

theorem entryOf_step (apart : ∀ stored ∈ event.storedIds, hash stored = hash id → stored = id)
    (represented : run.shadow.Represented limits)
    (absent : run.shadow.entryOf name (keyOf hash name id) = none)
    (stepped : run.step hash limits event = some next) (quiet : ¬Overwrites limits event name id) :
    next.shadow.entryOf name (keyOf hash name id) = none := by
  cases event with
  | store fingerprint now swept toolCallIds reasoning =>
      obtain ⟨-, rfl⟩ := step_store.mp stepped
      dsimp only
      cases skipped : skips limits toolCallIds reasoning with
      | true => rwa [store_skipped skipped]
      | false =>
          have missed : (run.shadow.insertReasoning hash fingerprint now toolCallIds
              reasoning).entryOf name (keyOf hash name id) = none := by
            rw [entryOf_insertReasoning, if_neg, absent]
            rintro ⟨rfl, listed⟩
            exact quiet ⟨now, swept, toolCallIds, reasoning, rfl, (keyOf_mem apart).mp listed,
              skipped⟩
          rw [store_kept skipped]
          rcases @enforced_entryOf limits name (keyOf hash name id) _ swept
            (represented.insertReasoning (le_of_kept skipped)) with stays | ⟨gone, -⟩
          · rw [stays, missed]
          · exact gone
  | restore fingerprint now toolCallIds =>
      obtain ⟨-, rfl⟩ := step_restore.mp stepped
      refine Option.eq_none_iff_forall_ne_some.mpr fun entry held => ?_
      rw [entryOf_of_restore held] at absent
      cases absent
  | clear fingerprint =>
      obtain rfl := step_clear.mp stepped
      dsimp only
      rw [entryOf_clearSession]
      split
      next => rfl
      next => exact absent

theorem entryOf_absent {shadow : ReasoningShadowStore} (represented : shadow.Represented limits)
    {key : ShadowKey} (absent : name ∉ shadow.lru) : shadow.entryOf name key = none := by
  have missing : OrderedMap.lookup name shadow.sessions = none := by
    refine Option.eq_none_iff_forall_ne_some.mpr fun session found => ?_
    have member := List.mem_map_of_mem (f := Prod.fst) (OrderedMap.mem_of_lookup found)
    exact absent (represented.queue.mem_iff.mpr member)
  rw [entryOf, missing]
  rfl

theorem EvictedSince.unsnoc
    (evicted : EvictedSince hash limits ttl (events ++ [event]) name id) :
    (∃ run next, (shadowStore hash limits ttl).runFrom (.start ttl) events = some run ∧
      run.step hash limits event = some next ∧
      Evicts hash limits event run.shadow next.shadow name) ∨
    EvictedSince hash limits ttl events name id ∧ ¬Overwrites limits event name id := by
  obtain ⟨before, store, after, run, next, same, ran, stepped, gone, quiet⟩ := evicted
  rcases List.eq_nil_or_concat after with rfl | ⟨rest, last, rfl⟩
  · obtain ⟨rfl, one⟩ := List.append_inj' same rfl
    obtain rfl := List.cons.inj one |>.1
    exact .inl ⟨run, next, ran, stepped, gone⟩
  · have split_ : events ++ [event] = (before ++ store :: rest) ++ [last] := by simp [same]
    obtain ⟨rfl, one⟩ := List.append_inj' split_ rfl
    obtain rfl := List.cons.inj one |>.1
    exact .inr ⟨⟨before, store, rest, run, next, rfl, ran, stepped, gone,
      fun later member => quiet later (by simp [member])⟩, quiet event (by simp)⟩

theorem evictedSince_gone (apart : Apart hash events id)
    (ran : (shadowStore hash limits ttl).runFrom (.start ttl) events = some run)
    (evicted : EvictedSince hash limits ttl events name id) :
    run.shadow.entryOf name (keyOf hash name id) = none := by
  have linked := @runFrom_linked _ _ (shadowStore hash limits ttl)
    (fun events run => Apart hash events id → EvictedSince hash limits ttl events name id →
      run.shadow.entryOf name (keyOf hash name id) = none) (.start ttl) (fun _ _ => rfl)
  refine linked ?_ ran apart evicted
  intro events run event next ran held stepped apart evicted
  have reached := runFrom_reachable (.initial rfl) ran
  rcases evicted.unsnoc with ⟨other, after, again, steppedAgain, gone⟩ | ⟨earlier, quiet⟩
  · obtain rfl := Option.some.inj (ran.symm.trans again)
    obtain rfl := Option.some.inj (steppedAgain.symm.trans stepped)
    obtain ⟨_, _, _, _, _, -, -, absent⟩ := gone
    exact entryOf_absent (reachable_represented (reached.next stepped)) absent
  · have own := apart event (List.mem_append_right _ (List.mem_singleton_self event))
    have before : Apart hash events id := fun other member =>
      apart other (List.mem_append_left _ member)
    exact entryOf_step own (reachable_represented reached) (held before earlier) stepped quiet

theorem liveEntry_iff (apart : Apart hash events id)
    (ran : (shadowStore hash limits ttl).runFrom (.start ttl) events = some run)
    (later : run.clock ≤ now) {reasoning : String} :
    LiveEntry hash limits ttl events name now id reasoning ↔
      ∃ entry, run.shadow.entryOf name (keyOf hash name id) = some entry ∧
        entry.reasoning = reasoning ∧ ¬ttl < now - entry.created := by
  obtain ⟨-, held⟩ : Linked hash limits ttl name id events run := run_linked ran
  rw [expectedEntry_eq apart] at held
  constructor
  · rintro ⟨entry, stored, said, fresh, kept⟩
    refine ⟨entry, ?_, said, fresh⟩
    rcases held with held | ⟨-, ⟨old, found, late⟩ | evicted⟩
    · exact held.trans stored
    · obtain rfl := Option.some.inj (stored.symm.trans found)
      exact absurd (late.trans_le (Nat.sub_le_sub_right later entry.created)) fresh
    · exact absurd evicted kept
  · rintro ⟨entry, found, said, fresh⟩
    rcases held with held | ⟨absent, -⟩
    · refine ⟨entry, held.symm.trans found, said, fresh, fun evicted => ?_⟩
      rw [evictedSince_gone apart ran evicted] at found
      cases found
    · rw [absent] at found
      cases found

/-- A restore gives the reasoning of the first id with a live entry, unless an expired entry of
another id hides it. -/
theorem restores_live {toolCallIds : List String}
    (injective : Set.InjOn hash {id | id ∈ events.flatMap ShadowEvent.storedIds ++ toolCallIds})
    (ran : (shadowStore hash limits ttl).runFrom (.start ttl) events = some run)
    (later : run.clock ≤ now) :
    RestoresLive hash limits ttl events name now toolCallIds
        (run.shadow.restore hash name now toolCallIds).1 ↔
      NoneHidden hash run.shadow name now toolCallIds := by
  obtain ⟨same, -⟩ : Linked hash limits ttl name "" events run := run_linked ran
  have apart (id : String) (listed : id ∈ toolCallIds) : Apart hash events id := by
    intro event member stored given same
    have before : stored ∈ events.flatMap ShadowEvent.storedIds :=
      List.mem_flatMap.mpr ⟨event, member, given⟩
    exact injective (List.mem_append_left _ before) (List.mem_append_right _ listed) same
  have live (id : String) (listed : id ∈ toolCallIds) (reasoning : String) : LiveEntry hash limits ttl events name now id reasoning ↔
      ((run.shadow.entryOf name (keyOf hash name id)).bind fun entry =>
        if run.shadow.ttl < now - entry.created then none else some entry.reasoning) =
          some reasoning := by
    rw [liveEntry_iff (apart id listed) ran later, Option.bind_eq_some_iff, same]
    refine exists_congr fun entry => and_congr_right fun _ => ?_
    split
    next late => simp [late]
    next fresh => simp [fresh]
  have expired (entry : ShadowEntry) : (if run.shadow.ttl < now - entry.created then none
      else some entry.reasoning) = none ↔ run.shadow.ttl < now - entry.created := by
    split
    next late => simp [late]
    next fresh => simp [fresh]
  have found := findSome?_bind_iff
    (fun id => run.shadow.entryOf name (keyOf hash name id))
    (fun entry => if run.shadow.ttl < now - entry.created then none else some entry.reasoning)
    toolCallIds
  simp only [expired] at found
  rw [RestoresLive, NoneHidden, ← found, ← restore_eq, eq_findSome?_iff]
  refine forall_congr' fun reasoning => iff_congr Iff.rfl (exists_congr fun before =>
    exists_congr fun id => exists_congr fun after => and_congr_right fun cut => ?_)
  refine and_congr (live id (by simp [cut]) reasoning) ?_
  exact forall_congr' fun other => forall_congr' fun member => forall_congr' fun said =>
    not_congr (live other (by simp [cut, member]) said)

def twoTurns : List ShadowEvent :=
  [planAt "agent" 1, .store "agent" 500 501 ["later"] "late"]

def turnsStored : ShadowRun :=
  ((shadowStore lengthHash tenBytes 600).runFrom (.start 600) twoTurns).get (by decide +kernel)

theorem turnsStored_ran :
    (shadowStore lengthHash tenBytes 600).runFrom (.start 600) twoTurns = some turnsStored :=
  (Option.some_get _).symm

theorem lengthHash_twoTurns (toolCallIds : List String)
    (known : ∀ id ∈ toolCallIds, id ∈ ["call", "later"]) :
    Set.InjOn lengthHash {id | id ∈ twoTurns.flatMap ShadowEvent.storedIds ++ toolCallIds} := by
  have within : ∀ id ∈ twoTurns.flatMap ShadowEvent.storedIds ++ toolCallIds,
      id = "call" ∨ id = "later" := by
    intro id member
    rcases List.mem_append.mp member with stored | given
    · simpa [twoTurns, planAt, ShadowEvent.storedIds] using stored
    · simpa using known id given
  intro first member second other same
  rcases within first member with rfl | rfl <;> rcases within second other with rfl | rfl
  · rfl
  · exact absurd same (by decide +kernel)
  · exact absurd same (by decide +kernel)
  · rfl

theorem restores_live_later :
    RestoresLive lengthHash tenBytes 600 twoTurns "agent" 700 ["later", "call"]
      (turnsStored.shadow.restore lengthHash "agent" 700 ["later", "call"]).1 := by
  refine (restores_live (lengthHash_twoTurns _ (by decide)) turnsStored_ran
    (by decide +kernel)).mpr ?_
  intro first found late
  have fresh : ((["later", "call"].findSome? fun id => turnsStored.shadow.entryOf "agent"
      (keyOf lengthHash "agent" id)).all fun entry => entry.created = 500) = true := by
    decide +kernel
  rw [found, Option.all_some, decide_eq_true_eq] at fresh
  rw [fresh] at late
  exact absurd late (by decide +kernel)

theorem restores_live_fails :
    ¬RestoresLive lengthHash tenBytes 600 twoTurns "agent" 700 ["call", "later"]
      (turnsStored.shadow.restore lengthHash "agent" 700 ["call", "later"]).1 := by
  intro right
  have injective := lengthHash_twoTurns ["call", "later"] (by decide)
  have live : LiveEntry lengthHash tenBytes 600 twoTurns "agent" 700 "later" "late" := by
    have held : ((turnsStored.shadow.entryOf "agent" (keyOf lengthHash "agent" "later")).any
        fun entry => entry.reasoning = "late" && !decide (600 < 700 - entry.created)) = true := by
      decide +kernel
    obtain ⟨entry, found, facts⟩ := (Option.any_eq_true _ _).mp held
    rw [Bool.and_eq_true, decide_eq_true_eq, Bool.not_eq_true', decide_eq_false_iff_not] at facts
    refine (liveEntry_iff (fun event member stored given same => ?_) turnsStored_ran
      (by decide +kernel)).mpr ⟨entry, found, facts⟩
    exact injective (List.mem_append_left _ (List.mem_flatMap.mpr ⟨event, member, given⟩))
      (List.mem_append_right _ (by decide)) same
  have hidden : (turnsStored.shadow.restore lengthHash "agent" 700 ["call", "later"]).1 ≠
      some "late" := by decide +kernel
  refine hidden ((right "late").mpr ⟨["call"], "later", [], rfl, live, ?_⟩)
  intro other member said old
  obtain rfl := List.mem_singleton.mp member
  obtain ⟨entry, stored, -, fresh, -⟩ := old
  obtain rfl : ⟨"plan", 1⟩ = entry := Option.some.inj stored
  exact absurd fresh (by decide +kernel)

end ClineProxy
