import ClineProxy.ShadowChecks
import Mathlib.Algebra.Order.BigOperators.Group.List
import Mathlib.Algebra.Order.Group.Nat

/-!
Why an entry of the shadow store disappears. The byte counters drift from the content where a store
overwrites an entry and where a restore drops an old one.
-/

namespace ClineProxy

open Clock ReasoningShadowStore TransitionSystem.System

variable {hash : String → UInt64} {limits : ShadowLimits} {ttl : Duration}

namespace ReasoningShadowStore

def Exact (shadow : ReasoningShadowStore) : Prop :=
  ∀ held ∈ shadow.sessions, held.2.size = held.2.bytes

variable {shadow : ReasoningShadowStore} {fingerprint reasoning : String} {now : Instant}
  {toolCallIds : List String}

theorem eq_of_sum_eq {Item : Type} {items : List Item} {first second : Item → Nat}
    (below : ∀ item ∈ items, first item ≤ second item)
    (same : (items.map first).sum = (items.map second).sum) :
    ∀ item ∈ items, first item = second item := by
  induction items with
  | nil => nofun
  | cons item rest ih =>
      obtain ⟨head, tail⟩ := List.forall_mem_cons.mp below
      have others : (rest.map first).sum ≤ (rest.map second).sum := List.sum_le_sum tail
      rw [List.map_cons, List.map_cons, List.sum_cons, List.sum_cons] at same
      exact List.forall_mem_cons.mpr ⟨by omega, ih tail (by omega)⟩

theorem Represented.exact (represented : shadow.Represented limits)
    (same : shadow.size = shadow.totalBytes) : shadow.Exact :=
  eq_of_sum_eq represented.counted (same.trans represented.total)

theorem Represented.size_of_exact (represented : shadow.Represented limits)
    (exact_ : shadow.Exact) : shadow.size = shadow.totalBytes := by
  rw [size, represented.total, List.map_congr_left exact_]

theorem Exact.clearAll (exact_ : shadow.Exact) (names : List String) :
    (shadow.clearAll names).Exact := by
  induction names generalizing shadow with
  | nil => exact exact_
  | cons name rest ih =>
      rw [clearAll_cons]
      refine ih fun held member => exact_ held ?_
      rw [clearSession_sessions] at member
      exact (List.mem_filter.mp member).1

theorem Exact.insertReasoning (exact_ : shadow.Exact)
    (distinct : (toolCallIds.map (keyOf hash fingerprint)).Nodup)
    (fresh : ∀ id ∈ toolCallIds, shadow.entryOf fingerprint (keyOf hash fingerprint id) = none) :
    (shadow.insertReasoning hash fingerprint now toolCallIds reasoning).Exact := by
  intro held member
  rw [ReasoningShadowStore.insertReasoning] at member
  rcases OrderedMap.mem_put member with rfl | old
  · dsimp only
    rw [SessionState.size, blobBytes_insertEntries_fresh distinct, List.length_map]
    · cases found : OrderedMap.lookup fingerprint shadow.sessions with
      | none => simp [blobBytes]
      | some session =>
          have count := exact_ _ (OrderedMap.mem_of_lookup found)
          rw [SessionState.size] at count
          simp [count]
    · intro key listed
      obtain ⟨id, member, rfl⟩ := List.mem_map.mp listed
      have absent := fresh id member
      rw [entryOf] at absent
      cases found : OrderedMap.lookup fingerprint shadow.sessions with
      | none => rfl
      | some session =>
          rw [found] at absent
          exact absent
  · exact exact_ held old

end ReasoningShadowStore

section Causes

variable (hash : String → UInt64) (limits : ShadowLimits)

/-- The store after the insertion of an event and before its limits. -/
def insertedBy (event : ShadowEvent) (shadow : ReasoningShadowStore) : ReasoningShadowStore :=
  match event with
  | .store fingerprint now _ toolCallIds reasoning =>
      if skips limits toolCallIds reasoning then shadow
      else shadow.insertReasoning hash fingerprint now toolCallIds reasoning
  | _ => shadow

def StoredUnder (events : List ShadowEvent) (name id : String) (entry : ShadowEntry) : Prop :=
  ∃ swept toolCallIds, .store name entry.created swept toolCallIds entry.reasoning ∈ events ∧
    id ∈ toolCallIds ∧ skips limits toolCallIds entry.reasoning = false

def Overwrites (event : ShadowEvent) (name id : String) : Prop :=
  ∃ now swept toolCallIds reasoning, event = .store name now swept toolCallIds reasoning ∧
    id ∈ toolCallIds ∧ skips limits toolCallIds reasoning = false

/-- When the turn of the session to be evicted comes, the entries still held are above the byte
limit, or the sessions above their number. -/
def Pressed (event : ShadowEvent) (shadow : ReasoningShadowStore) (name : String) : Prop :=
  ∃ fingerprint now swept toolCallIds reasoning before after,
    event = .store fingerprint now swept toolCallIds reasoning ∧
    (sweep swept (insertedBy hash limits event shadow)).lru = before ++ name :: after ∧
    let held := (sweep swept (insertedBy hash limits event shadow)).clearAll before
    limits.maxTotalBytes < held.size ∨ limits.maxSessions < held.sessions.length

/-- The event is a store whose limits cost the session, which is no old one. -/
def Evicts (event : ShadowEvent) (before after : ReasoningShadowStore) (name : String) : Prop :=
  ∃ fingerprint now swept toolCallIds reasoning,
    event = .store fingerprint now swept toolCallIds reasoning ∧
    name ∈ (sweep swept (insertedBy hash limits event before)).lru ∧ name ∉ after.lru

/-- No id of a store has the hash of another id of its session, and either the byte counter stays
within its limit, or it is exact and the store overwrites nothing. -/
def Undrifted (events : List ShadowEvent) (shadow : ReasoningShadowStore) : ShadowEvent → Prop
  | .store fingerprint _ _ toolCallIds reasoning =>
      skips limits toolCallIds reasoning = true ∨
      (∀ id ∈ toolCallIds, ∀ other entry, StoredUnder limits events fingerprint other entry →
        hash other = hash id → other = id) ∧
      (shadow.totalBytes + toolCallIds.length * reasoning.utf8ByteSize ≤ limits.maxTotalBytes ∨
        shadow.size = shadow.totalBytes ∧ (toolCallIds.map hash).Nodup ∧
          ∀ id ∈ toolCallIds, shadow.entryOf fingerprint (keyOf hash fingerprint id) = none)
  | _ => True

end Causes

variable {events : List ShadowEvent} {event : ShadowEvent} {run next : ShadowRun}

theorem overwritten (undrifted : Undrifted hash limits events run.shadow event) {name id : String}
    {entry : ShadowEntry} (stored : StoredUnder limits events name id entry)
    (held : run.shadow.entryOf name (keyOf hash name id) = some entry) :
    (insertedBy hash limits event run.shadow).entryOf name (keyOf hash name id) = some entry ∨
      Overwrites limits event name id := by
  cases event with
  | store fingerprint now swept toolCallIds reasoning =>
      rw [insertedBy]
      cases skipped : skips limits toolCallIds reasoning with
      | true => exact .inl held
      | false =>
          obtain ⟨separate, -⟩ := undrifted.resolve_left (skipped ▸ Bool.false_ne_true)
          rw [if_neg Bool.false_ne_true, entryOf_insertReasoning]
          split
          next hit =>
            obtain ⟨rfl, listed⟩ := hit
            obtain ⟨other, member, same⟩ := List.mem_map.mp listed
            have hashes : hash id = hash other := (congrArg ShadowKey.toolCall same).symm
            obtain rfl := separate other member id entry stored hashes
            exact .inr ⟨now, swept, toolCallIds, reasoning, rfl, member, skipped⟩
          next => exact .inl held
  | restore => exact .inl held
  | clear => exact .inl held

theorem undrifted_inserted {fingerprint reasoning : String} {now swept : Instant}
    {toolCallIds : List String} {shadow : ReasoningShadowStore}
    (represented : shadow.Represented limits)
    (kept : skips limits toolCallIds reasoning = false)
    (undrifted : Undrifted hash limits events shadow
      (.store fingerprint now swept toolCallIds reasoning)) :
    (shadow.insertReasoning hash fingerprint now toolCallIds reasoning).totalBytes ≤
        limits.maxTotalBytes ∨
      (shadow.insertReasoning hash fingerprint now toolCallIds reasoning).Exact := by
  obtain ⟨-, low | ⟨same, distinct, fresh⟩⟩ := undrifted.resolve_left (kept ▸ Bool.false_ne_true)
  · exact .inl low
  · have keys : (toolCallIds.map (keyOf hash fingerprint)).Nodup := by
      refine List.Nodup.of_map ShadowKey.toolCall ?_
      rw [List.map_map]
      exact distinct
    exact .inr ((represented.exact same).insertReasoning keys fresh)

theorem size_of_overBytes {shadow : ReasoningShadowStore} {swept : Instant} {before : List String}
    (represented : shadow.Represented limits)
    (fair : shadow.totalBytes ≤ limits.maxTotalBytes ∨ shadow.Exact)
    (exceeds : overBytes limits ((shadow.sweep swept).clearAll before) = true) :
    limits.maxTotalBytes < ((shadow.sweep swept).clearAll before).size := by
  have above : limits.maxTotalBytes < ((shadow.sweep swept).clearAll before).totalBytes :=
    of_decide_eq_true exceeds
  rcases fair with low | exact_
  · have less : ((shadow.sweep swept).clearAll before).totalBytes ≤ shadow.totalBytes :=
      (clearAll_total_le before).trans (sweep_total_le swept)
    exact absurd (above.trans_le less) (Nat.not_lt.mpr low)
  · rw [((represented.sweep swept).clearAll before).size_of_exact
      ((exact_.clearAll _).clearAll before)]
    exact above

theorem enforced_lost {shadow : ReasoningShadowStore} {swept : Instant} {name : String}
    {key : ShadowKey} {entry : ShadowEntry} (represented : shadow.Represented limits)
    (fair : shadow.totalBytes ≤ limits.maxTotalBytes ∨ shadow.Exact)
    (held : shadow.entryOf name key = some entry) (fresh : ¬shadow.ttl < swept - entry.created) :
    (enforceLimits limits swept shadow).entryOf name key = some entry ∨
      ∃ before after, (shadow.sweep swept).lru = before ++ name :: after ∧
        (limits.maxTotalBytes < ((shadow.sweep swept).clearAll before).size ∨
          limits.maxSessions < ((shadow.sweep swept).clearAll before).sessions.length) := by
  obtain ⟨gone, queue, made, pressed, -⟩ := enforceLimits_cases represented swept
  rw [made, entryOf_clearAll]
  split
  next evicted =>
    obtain ⟨before, after, parts⟩ := List.append_of_mem evicted
    refine .inr ⟨before, after ++ (enforceLimits limits swept shadow).lru, ?_, ?_⟩
    · rw [queue, parts, List.append_assoc, List.cons_append]
    · rcases pressed before name after parts with bytes | sessions
      · exact .inl (size_of_overBytes represented fair bytes)
      · exact .inr (of_decide_eq_true sessions)
  next => exact .inl (entryOf_sweep represented held fresh)

theorem lost_entries (represented : run.shadow.Represented limits)
    (stepped : run.step hash limits event = some next)
    (undrifted : Undrifted hash limits events run.shadow event) {name : String} {key : ShadowKey}
    {entry : ShadowEntry}
    (held : (insertedBy hash limits event run.shadow).entryOf name key = some entry) :
    next.shadow.entryOf name key = some entry ∨ event = .clear name ∨
      run.shadow.ttl < next.clock - entry.created ∨
      Pressed hash limits event run.shadow name := by
  cases event with
  | clear fingerprint =>
      obtain rfl := step_clear.mp stepped
      dsimp only
      rw [entryOf_clearSession]
      split
      next same => exact .inr (.inl (congrArg _ same.symm))
      next => exact .inl held
  | restore fingerprint now toolCallIds =>
      obtain ⟨-, rfl⟩ := step_restore.mp stepped
      rcases entryOf_restore with same | ⟨-, old, found, late⟩
      · exact .inl (same.trans held)
      · cases found.symm.trans held
        exact .inr (.inr (.inl late))
  | store fingerprint now swept toolCallIds reasoning =>
      obtain ⟨-, rfl⟩ := step_store.mp stepped
      dsimp only
      cases skipped : skips limits toolCallIds reasoning with
      | true =>
          have same : insertedBy hash limits (.store fingerprint now swept toolCallIds reasoning)
              run.shadow = run.shadow := if_pos skipped
          rw [store_skipped skipped, ← held, same]
          exact .inl rfl
      | false =>
          have made : insertedBy hash limits (.store fingerprint now swept toolCallIds reasoning)
              run.shadow = run.shadow.insertReasoning hash fingerprint now toolCallIds reasoning :=
            if_neg (skipped ▸ Bool.false_ne_true)
          have inserted : (run.shadow.insertReasoning hash fingerprint now toolCallIds
              reasoning).Represented limits := represented.insertReasoning (le_of_kept skipped)
          rw [made] at held
          rw [store_kept skipped]
          by_cases late : run.shadow.ttl < swept - entry.created
          · exact .inr (.inr (.inl late))
          · rcases enforced_lost inserted (undrifted_inserted represented skipped undrifted) held late
              with same | ⟨before, after, queue, above⟩
            · exact .inl same
            · refine .inr (.inr (.inr ⟨fingerprint, now, swept, toolCallIds, reasoning, before,
                after, rfl, ?_⟩))
              rw [made]
              exact ⟨queue, above⟩

/-- In every run an entry disappears only by a clear of its session, by a store under its own id, by
age, or under real pressure, at each step that meets the condition. -/
theorem shadow_evictions (ran : (shadowStore hash limits ttl).runFrom (.start ttl) events = some run)
    (stepped : run.step hash limits event = some next)
    (undrifted : Undrifted hash limits events run.shadow event) :
    (∀ name id entry, StoredUnder limits events name id entry →
      run.shadow.entryOf name (keyOf hash name id) = some entry →
      (insertedBy hash limits event run.shadow).entryOf name (keyOf hash name id) = some entry ∨
        Overwrites limits event name id) ∧
    ∀ name key entry, (insertedBy hash limits event run.shadow).entryOf name key = some entry →
      next.shadow.entryOf name key = some entry ∨ event = .clear name ∨
        run.shadow.ttl < next.clock - entry.created ∨
        Pressed hash limits event run.shadow name := by
  have reached := runFrom_reachable (.initial rfl) ran
  exact ⟨fun _ _ _ stored held => overwritten undrifted stored held, fun _ _ _ held =>
    lost_entries (reachable_represented reached) stepped undrifted held⟩

def lengthHash (id : String) : UInt64 := .ofNat id.length

def tenBytes : ShadowLimits := ⟨2, 10, 8⟩

def planAt (name : String) (time : Instant) : ShadowEvent :=
  .store name time (time + 1) ["call"] "plan"

def onceStored : ShadowRun :=
  ((shadowStore lengthHash tenBytes 600).runFrom (.start 600) [planAt "agent" 1]).get
    (by decide +kernel)

def thenOther : ShadowRun :=
  (onceStored.step lengthHash tenBytes (planAt "other" 3)).get (by decide +kernel)

theorem shadow_evictions_other :
    (∀ name id entry, StoredUnder tenBytes [planAt "agent" 1] name id entry →
      onceStored.shadow.entryOf name (keyOf lengthHash name id) = some entry →
      (insertedBy lengthHash tenBytes (planAt "other" 3) onceStored.shadow).entryOf name
          (keyOf lengthHash name id) = some entry ∨
        Overwrites tenBytes (planAt "other" 3) name id) ∧
    ∀ name key entry,
      (insertedBy lengthHash tenBytes (planAt "other" 3) onceStored.shadow).entryOf name key =
        some entry →
      thenOther.shadow.entryOf name key = some entry ∨ planAt "other" 3 = .clear name ∨
        onceStored.shadow.ttl < thenOther.clock - entry.created ∨
        Pressed lengthHash tenBytes (planAt "other" 3) onceStored.shadow name := by
  refine shadow_evictions (Option.some_get _).symm (Option.some_get _).symm
    (.inr ⟨?_, .inl (by decide +kernel)⟩)
  rintro id - other entry ⟨swept, toolCallIds, member, -⟩
  simp [planAt] at member

def twiceStored : ShadowRun :=
  ((shadowStore lengthHash tenBytes 600).runFrom (.start 600)
    [planAt "agent" 1, planAt "agent" 3]).get (by decide +kernel)

def agentEvicted : ShadowRun :=
  (twiceStored.step lengthHash tenBytes (planAt "other" 5)).get (by decide +kernel)

theorem shadow_evictions_fail : ¬ ∀ events run event next,
    (shadowStore lengthHash tenBytes 600).runFrom (.start 600) events = some run →
    run.step lengthHash tenBytes event = some next →
    ∀ name id entry, StoredUnder tenBytes events name id entry →
      run.shadow.entryOf name (keyOf lengthHash name id) = some entry →
      next.shadow.entryOf name (keyOf lengthHash name id) = some entry ∨
        event = .clear name ∨ Overwrites tenBytes event name id ∨
        run.shadow.ttl < next.clock - entry.created ∨
        Pressed lengthHash tenBytes event run.shadow name := by
  intro claim
  have plan : (twiceStored.shadow.entryOf "agent" (keyOf lengthHash "agent" "call")).map
      (fun entry => (entry.reasoning, entry.created)) = some ("plan", 3) := by decide +kernel
  have gone : (agentEvicted.shadow.entryOf "agent" (keyOf lengthHash "agent" "call")).isNone =
      true := by decide +kernel
  have queue : (sweep 6 (insertedBy lengthHash tenBytes (planAt "other" 5) twiceStored.shadow)).lru =
      ["agent", "other"] := by decide +kernel
  have small : (sweep 6 (insertedBy lengthHash tenBytes (planAt "other" 5)
        twiceStored.shadow)).size ≤ tenBytes.maxTotalBytes ∧
      (sweep 6 (insertedBy lengthHash tenBytes (planAt "other" 5)
        twiceStored.shadow)).sessions.length ≤ tenBytes.maxSessions := by decide +kernel
  obtain ⟨⟨reasoning, created⟩, held, same⟩ := Option.map_eq_some_iff.mp plan
  cases same
  have stored : StoredUnder tenBytes [planAt "agent" 1, planAt "agent" 3] "agent" "call"
      ⟨"plan", 3⟩ := ⟨4, ["call"], by simp [planAt], by simp, by decide +kernel⟩
  rcases claim _ twiceStored (planAt "other" 5) agentEvicted (Option.some_get _).symm
    (Option.some_get _).symm "agent" "call" _ stored held with
      same | cleared | ⟨now, swept, ids, reasoning, same, -⟩ | late | pressed
  · rw [same] at gone
    cases gone
  · cases cleared
  · simp [planAt] at same
  · exact absurd late (by decide +kernel)
  · obtain ⟨fingerprint, now, swept, ids, reasoning, before, after, same, parts, above⟩ := pressed
    obtain rfl : 6 = swept := by
      injection same
    rw [queue] at parts
    have first : before = [] := by
      cases before with
      | nil => rfl
      | cons name rest => cases rest <;> simp at parts
    rw [first, clearAll_nil] at above
    omega

end ClineProxy
