import ClineProxy.ShadowStore
import Mathlib.Data.List.Perm.Basic

/-!
The representation of the shadow store: its map, its queue and its counters are views of one
content, and every operation is a sequence of insertions and removals of whole sessions.
-/

namespace ClineProxy

open Clock

def blobBytes (entries : List (ShadowKey × ShadowEntry)) : Nat :=
  (entries.map fun held => held.2.reasoning.utf8ByteSize).sum

def SessionState.size (session : SessionState) : Nat := blobBytes session.entries

namespace ReasoningShadowStore

def size (shadow : ReasoningShadowStore) : Nat :=
  (shadow.sessions.map fun held => held.2.size).sum

/-- The queue names the live sessions once, the total is that of the counters of the sessions, no
counter is below the size of its session, and no blob is above the limit. -/
structure Represented (limits : ShadowLimits) (shadow : ReasoningShadowStore) : Prop where
  named : (shadow.sessions.map Prod.fst).Nodup
  queue : shadow.lru.Perm (shadow.sessions.map Prod.fst)
  total : shadow.totalBytes = (shadow.sessions.map fun held => held.2.bytes).sum
  counted : ∀ held ∈ shadow.sessions, held.2.size ≤ held.2.bytes
  small : ∀ held ∈ shadow.sessions, ∀ entry ∈ held.2.entries,
    entry.2.reasoning.utf8ByteSize ≤ limits.maxEntryBytes

variable {limits : ShadowLimits} {shadow : ReasoningShadowStore} {name other : String}
  {session : SessionState}

theorem clearSession_sessions : (shadow.clearSession name).sessions =
    shadow.sessions.filter fun held => held.1 ≠ name := by
  rw [clearSession]
  split
  next absent => exact (OrderedMap.filter_of_fresh absent).symm
  next => rfl

theorem clearAll_nil : shadow.clearAll [] = shadow := rfl

theorem clearAll_cons (name : String) (rest : List String) :
    shadow.clearAll (name :: rest) = (shadow.clearSession name).clearAll rest := rfl

theorem clearSession_ttl : (shadow.clearSession name).ttl = shadow.ttl := by
  rw [clearSession]
  split <;> rfl

theorem lookup_clearSession : OrderedMap.lookup other (shadow.clearSession name).sessions =
    if other = name then none else OrderedMap.lookup other shadow.sessions := by
  rw [clearSession_sessions]
  have kept := OrderedMap.lookup_filter other (fun held => decide (held ≠ name)) shadow.sessions
  rw [kept]
  split <;> simp_all

namespace Represented

theorem nodup (represented : shadow.Represented limits) : shadow.lru.Nodup :=
  represented.queue.nodup_iff.mpr represented.named

theorem mem_lru (represented : shadow.Represented limits) :
    name ∈ shadow.lru ↔ OrderedMap.lookup name shadow.sessions ≠ none := by
  rw [represented.queue.mem_iff, Ne, OrderedMap.lookup_of_fresh_key, not_not]

theorem clear_lru (represented : shadow.Represented limits) :
    (shadow.clearSession name).lru = shadow.lru.filter fun held => held ≠ name := by
  rw [clearSession]
  split
  next absent =>
    refine (List.filter_eq_self.mpr fun held member => decide_eq_true ?_).symm
    rintro rfl
    exact represented.mem_lru.mp member absent
  next => rfl

theorem clear_total (represented : shadow.Represented limits)
    (found : OrderedMap.lookup name shadow.sessions = some session) :
    shadow.totalBytes = session.bytes + (shadow.clearSession name).totalBytes := by
  have parts := OrderedMap.sum_of_lookup SessionState.bytes represented.named found
  rw [clearSession, found]
  have total := represented.total
  dsimp only
  omega

theorem clear (represented : shadow.Represented limits) :
    (shadow.clearSession name).Represented limits := by
  have kept : ∀ held ∈ (shadow.clearSession name).sessions, held ∈ shadow.sessions := by
    intro held member
    rw [clearSession_sessions] at member
    exact (List.mem_filter.mp member).1
  refine ⟨?_, ?_, ?_, fun held member => represented.counted held (kept held member),
    fun held member => represented.small held (kept held member)⟩
  · rw [clearSession_sessions]
    exact represented.named.sublist (List.filter_sublist.map _)
  · rw [represented.clear_lru, clearSession_sessions]
    have queue := represented.queue.filter fun held => decide (held ≠ name)
    rwa [List.filter_map] at queue
  · cases found : OrderedMap.lookup name shadow.sessions with
    | none =>
        rw [clearSession, found]
        exact represented.total
    | some session =>
        have parts := OrderedMap.sum_of_lookup SessionState.bytes represented.named found
        have total := represented.clear_total found
        rw [represented.total, parts] at total
        rw [clearSession_sessions]
        omega

theorem clearAll (represented : shadow.Represented limits) (names : List String) :
    (shadow.clearAll names).Represented limits := by
  induction names generalizing shadow with
  | nil => exact represented
  | cons name rest ih => exact ih represented.clear

end Represented

theorem clearAll_append (first second : List String) :
    shadow.clearAll (first ++ second) = (shadow.clearAll first).clearAll second :=
  List.foldl_append

theorem clearAll_ttl (names : List String) : (shadow.clearAll names).ttl = shadow.ttl := by
  induction names generalizing shadow with
  | nil => rfl
  | cons name rest ih =>
      rw [clearAll_cons, ih, clearSession_ttl]

theorem lookup_clearAll (names : List String) :
    OrderedMap.lookup other (shadow.clearAll names).sessions =
      if other ∈ names then none else OrderedMap.lookup other shadow.sessions := by
  induction names generalizing shadow with
  | nil => rfl
  | cons name rest ih =>
      rw [clearAll_cons, ih, lookup_clearSession]
      by_cases later : other ∈ rest
      · simp [later]
      · simp [later]

theorem Represented.clearAll_lru (represented : shadow.Represented limits) (names : List String) :
    (shadow.clearAll names).lru = shadow.lru.filter fun held => held ∉ names := by
  induction names generalizing shadow with
  | nil => simp [clearAll_nil]
  | cons name rest ih =>
      rw [clearAll_cons, ih represented.clear, represented.clear_lru,
        List.filter_filter]
      refine List.filter_congr fun held _ => ?_
      by_cases same : held = name
      · simp [same]
      · simp [same]

theorem Represented.evict {rest : List String} (represented : shadow.Represented limits)
    (front : shadow.lru = name :: rest) :
    { removeSession name shadow with lru := rest } = shadow.clearSession name := by
  have distinct := represented.nodup
  rw [front] at distinct
  have live := represented.mem_lru.mp (front ▸ List.mem_cons_self)
  obtain ⟨session, found⟩ := Option.ne_none_iff_exists'.mp live
  have left : (shadow.lru.filter fun held => held ≠ name) = rest := by
    rw [front, List.filter_cons_of_neg (by simp)]
    refine List.filter_eq_self.mpr fun held member => decide_eq_true ?_
    rintro rfl
    exact (List.nodup_cons.mp distinct).1 member
  rw [removeSession, clearSession, found]
  dsimp only
  rw [left]

theorem evictWhile_cases (exceeds : ReasoningShadowStore → Bool)
    (represented : shadow.Represented limits) :
    ∃ gone kept, shadow.lru = gone ++ kept ∧
      evictWhile exceeds shadow.lru.length shadow = shadow.clearAll gone ∧
      (shadow.clearAll gone).lru = kept ∧
      (∀ before victim after, gone = before ++ victim :: after →
        exceeds (shadow.clearAll before) = true) ∧
      (exceeds (shadow.clearAll gone) = false ∨ kept = []) := by
  generalize queue : shadow.lru = lru
  induction lru generalizing shadow with
  | nil => exact ⟨[], [], rfl, rfl, queue, by simp, .inr rfl⟩
  | cons front rest ih =>
      rw [List.length_cons, evictWhile]
      cases above : exceeds shadow with
      | false => exact ⟨[], front :: rest, rfl, rfl, queue, by simp, .inl above⟩
      | true =>
          have cleared := represented.evict queue
          have left : (shadow.clearSession front).lru = rest := by rw [← cleared]
          rw [if_pos rfl, queue]
          dsimp only
          rw [cleared]
          obtain ⟨gone, kept, parts, made, last, pressed, ended⟩ := ih represented.clear left
          refine ⟨front :: gone, kept, by rw [parts]; rfl, made, last, ?_, ended⟩
          intro before victim after split_
          cases before with
          | nil => exact above
          | cons first between =>
              obtain ⟨rfl, between_⟩ := List.cons.inj split_
              exact pressed between victim after between_

theorem Represented.empty (represented : shadow.Represented limits) (queue : shadow.lru = []) :
    shadow.sessions = [] ∧ shadow.totalBytes = 0 := by
  have names := represented.queue
  rw [queue] at names
  have sessions : shadow.sessions = [] := List.map_eq_nil_iff.mp names.nil_eq.symm
  exact ⟨sessions, by rw [represented.total, sessions]; rfl⟩

theorem clearAll_total_le (names : List String) :
    (shadow.clearAll names).totalBytes ≤ shadow.totalBytes := by
  induction names generalizing shadow with
  | nil => exact le_rfl
  | cons name rest ih =>
      rw [clearAll_cons]
      refine ih.trans ?_
      rw [clearSession]
      split
      next => exact le_rfl
      next => exact Nat.sub_le ..

theorem Represented.sweep (represented : shadow.Represented limits) (now : Instant) :
    (shadow.sweep now).Represented limits := represented.clearAll _

theorem sweep_total_le (now : Instant) : (shadow.sweep now).totalBytes ≤ shadow.totalBytes :=
  clearAll_total_le _

theorem lookup_sweep (represented : shadow.Represented limits) (now : Instant) :
    OrderedMap.lookup name (sweep now shadow).sessions =
      (OrderedMap.lookup name shadow.sessions).filter fun session =>
        !expired shadow.ttl now session := by
  rw [sweep, lookup_clearAll]
  cases found : OrderedMap.lookup name shadow.sessions with
  | none => simp
  | some session =>
      have old : name ∈ (shadow.sessions.filter fun held => expired shadow.ttl now held.2).map
          Prod.fst ↔ expired shadow.ttl now session = true := by
        rw [List.mem_map]
        constructor
        · rintro ⟨⟨held, other⟩, member, rfl⟩
          obtain ⟨listed, late⟩ := List.mem_filter.mp member
          have same := OrderedMap.lookup_of_distinct represented.named listed
          rw [same] at found
          cases found
          exact late
        · intro late
          exact ⟨(name, session), List.mem_filter.mpr ⟨OrderedMap.mem_of_lookup found, late⟩, rfl⟩
      cases late : expired shadow.ttl now session with
      | true =>
          rw [if_pos (old.mpr late), Option.filter_some, late]
          rfl
      | false =>
          have stays := mt old.mp (late ▸ Bool.false_ne_true)
          rw [if_neg stays, Option.filter_some, late]
          rfl

/-- Enforcing the limits clears what is expired and then a start of the queue, as long as it is over
a limit. -/
theorem enforceLimits_cases (represented : shadow.Represented limits) (now : Instant) :
    ∃ gone, (sweep now shadow).lru = gone ++ (enforceLimits limits now shadow).lru ∧
      enforceLimits limits now shadow = (sweep now shadow).clearAll gone ∧
      (∀ before victim after, gone = before ++ victim :: after →
        overBytes limits ((sweep now shadow).clearAll before) = true ∨
          overSessions limits ((sweep now shadow).clearAll before) = true) ∧
      (enforceLimits limits now shadow).totalBytes ≤ limits.maxTotalBytes ∧
      (enforceLimits limits now shadow).sessions.length ≤ limits.maxSessions := by
  have swept := represented.sweep now
  rw [enforceLimits]
  obtain ⟨first, between, firstParts, firstMade, firstLeft, firstPressed, firstEnded⟩ :=
    evictWhile_cases (overBytes limits) swept
  have middle := swept.clearAll first
  obtain ⟨second, kept, secondParts, secondMade, secondLeft, secondPressed, secondEnded⟩ :=
    evictWhile_cases (overSessions limits) middle
  have last := middle.clearAll second
  rw [firstMade, secondMade]
  refine ⟨first ++ second, ?_, (clearAll_append first second).symm, ?_, ?_, ?_⟩
  · rw [firstParts, ← firstLeft, secondParts, secondLeft, List.append_assoc]
  · intro before victim after parts
    rcases List.append_eq_append_iff.mp parts with ⟨more, rfl, later⟩ | ⟨more, early, later⟩
    · rw [clearAll_append]
      exact .inr (secondPressed more victim after later)
    · cases more with
      | nil =>
          rw [List.append_nil] at early
          rw [List.nil_append] at later
          subst early
          exact .inr (secondPressed [] victim after later.symm)
      | cons head tail =>
          obtain ⟨rfl, rfl⟩ := List.cons.inj later
          exact .inl (firstPressed before victim tail early)
  · rcases firstEnded with within | emptied
    · have bound : ((sweep now shadow).clearAll first).totalBytes ≤ limits.maxTotalBytes := by
        simpa [overBytes] using within
      exact (clearAll_total_le second).trans bound
    · have none_ := (middle.empty (firstLeft.trans emptied)).2
      exact (clearAll_total_le second).trans (by omega)
  · rcases secondEnded with within | emptied
    · simpa [overSessions] using within
    · rw [(last.empty (secondLeft.trans emptied)).1]
      exact Nat.zero_le _

variable {keys : List ShadowKey} {key : ShadowKey} {entry : ShadowEntry}
  {entries : List (ShadowKey × ShadowEntry)}

theorem insertEntries_cons (key : ShadowKey) (keys : List ShadowKey) :
    insertEntries (key :: keys) entry entries =
      insertEntries keys entry (OrderedMap.put key entry entries) := rfl

theorem lookup_insertEntries (query : ShadowKey) :
    OrderedMap.lookup query (insertEntries keys entry entries) =
      if query ∈ keys then some entry else OrderedMap.lookup query entries := by
  induction keys generalizing entries with
  | nil => rfl
  | cons key rest ih =>
      rw [insertEntries_cons, ih, OrderedMap.lookup_put]
      by_cases later : query ∈ rest
      · simp [later]
      · simp [later]

theorem mem_insertEntries {held : ShadowKey × ShadowEntry}
    (member : held ∈ insertEntries keys entry entries) : held.2 = entry ∨ held ∈ entries := by
  induction keys generalizing entries with
  | nil => exact .inr member
  | cons key rest ih =>
      rcases ih member with new | old
      · exact .inl new
      · rcases OrderedMap.mem_put old with rfl | old
        · exact .inl rfl
        · exact .inr old

theorem blobBytes_insertEntries : blobBytes (insertEntries keys entry entries) ≤
    blobBytes entries + keys.length * entry.reasoning.utf8ByteSize := by
  induction keys generalizing entries with
  | nil => exact Nat.le_add_right ..
  | cons key rest ih =>
      have one : blobBytes (OrderedMap.put key entry entries) ≤
          blobBytes entries + entry.reasoning.utf8ByteSize := by
        let weight := fun held : ShadowEntry => held.reasoning.utf8ByteSize
        cases found : OrderedMap.lookup key entries with
        | none => exact (OrderedMap.sum_put_fresh weight entry found).le
        | some held =>
            have total := OrderedMap.sum_put_held weight entry found
            exact (Nat.le_add_right ..).trans total.le
      rw [insertEntries_cons, List.length_cons, Nat.succ_mul]
      have more := @ih (OrderedMap.put key entry entries)
      omega

theorem blobBytes_insertEntries_fresh (distinct : keys.Nodup)
    (fresh : ∀ key ∈ keys, OrderedMap.lookup key entries = none) :
    blobBytes (insertEntries keys entry entries) =
      blobBytes entries + keys.length * entry.reasoning.utf8ByteSize := by
  induction keys generalizing entries with
  | nil => simp [insertEntries]
  | cons key rest ih =>
      obtain ⟨other, distinct⟩ := List.nodup_cons.mp distinct
      have one : blobBytes (OrderedMap.put key entry entries) =
          blobBytes entries + entry.reasoning.utf8ByteSize :=
        OrderedMap.sum_put_fresh (fun held : ShadowEntry => held.reasoning.utf8ByteSize) entry
          (fresh key List.mem_cons_self)
      rw [insertEntries_cons, ih distinct, one, List.length_cons, Nat.succ_mul]
      · omega
      · intro later member
        rw [OrderedMap.lookup_put, if_neg]
        · exact fresh later (List.mem_cons_of_mem _ member)
        · rintro rfl
          exact other member

theorem setSession_eq_put {held : SessionState} {sessions : List (String × SessionState)}
    (found : OrderedMap.lookup name sessions = some held) :
    setSession name session sessions = OrderedMap.put name session sessions := by
  induction sessions with
  | nil => cases found
  | cons first rest ih =>
      rw [OrderedMap.lookup] at found
      rw [setSession, OrderedMap.put]
      split at found
      next same => rw [if_pos same.symm, if_pos same, same]
      next different => rw [if_neg (Ne.symm different), if_neg different, ih found]

theorem Represented.replace {held : SessionState} {added : Nat}
    (represented : shadow.Represented limits)
    (found : OrderedMap.lookup name shadow.sessions = some held)
    (bytes : session.bytes = held.bytes + added) (counted : session.size ≤ session.bytes)
    (small : ∀ entry ∈ session.entries, entry.2.reasoning.utf8ByteSize ≤ limits.maxEntryBytes) :
    Represented limits { shadow with
      sessions := OrderedMap.put name session shadow.sessions
      totalBytes := shadow.totalBytes + added } := by
  have keys : (OrderedMap.put name session shadow.sessions).map Prod.fst =
      shadow.sessions.map Prod.fst := by
    rw [OrderedMap.put_keys, found]
    rfl
  have sum := OrderedMap.sum_put_held SessionState.bytes session found
  refine ⟨keys ▸ represented.named, keys ▸ represented.queue, ?_, fun other member => ?_,
    fun other member => ?_⟩
  · have total := represented.total
    dsimp only
    omega
  · rcases OrderedMap.mem_put member with rfl | old
    · exact counted
    · exact represented.counted other old
  · rcases OrderedMap.mem_put member with rfl | old
    · exact small
    · exact represented.small other old

theorem Represented.add (represented : shadow.Represented limits)
    (fresh : OrderedMap.lookup name shadow.sessions = none)
    (counted : session.size ≤ session.bytes)
    (small : ∀ entry ∈ session.entries, entry.2.reasoning.utf8ByteSize ≤ limits.maxEntryBytes) :
    Represented limits { shadow with
      sessions := OrderedMap.put name session shadow.sessions
      lru := shadow.lru ++ [name]
      totalBytes := shadow.totalBytes + session.bytes } := by
  have keys : (OrderedMap.put name session shadow.sessions).map Prod.fst =
      shadow.sessions.map Prod.fst ++ [name] := by
    rw [OrderedMap.put_keys, fresh]
    rfl
  have sum := OrderedMap.sum_put_fresh SessionState.bytes session fresh
  refine ⟨?_, ?_, ?_, fun other member => ?_, fun other member => ?_⟩
  · rw [keys, List.nodup_append]
    refine ⟨represented.named, List.nodup_singleton _, fun held listed last single same => ?_⟩
    rw [List.mem_singleton.mp single] at same
    exact OrderedMap.lookup_of_fresh_key.mp fresh (same ▸ listed)
  · rw [keys]
    exact represented.queue.append_right [name]
  · have total := represented.total
    dsimp only
    omega
  · rcases OrderedMap.mem_put member with rfl | old
    · exact counted
    · exact represented.counted other old
  · rcases OrderedMap.mem_put member with rfl | old
    · exact small
    · exact represented.small other old

variable {hash : String → UInt64} {fingerprint reasoning : String} {now : Instant}
  {toolCallIds : List String}

theorem Represented.insertReasoning (represented : shadow.Represented limits)
    (small : reasoning.utf8ByteSize ≤ limits.maxEntryBytes) :
    Represented limits (shadow.insertReasoning hash fingerprint now toolCallIds reasoning) := by
  have entriesSmall {entries : List (ShadowKey × ShadowEntry)}
      (old : ∀ entry ∈ entries, entry.2.reasoning.utf8ByteSize ≤ limits.maxEntryBytes) :
      ∀ entry ∈ insertEntries (toolCallIds.map (keyOf hash fingerprint)) ⟨reasoning, now⟩ entries,
        entry.2.reasoning.utf8ByteSize ≤ limits.maxEntryBytes := by
    intro entry member
    rcases mem_insertEntries member with same | held
    · rw [same]
      exact small
    · exact old entry held
  have counted (entries : List (ShadowKey × ShadowEntry)) :=
    @blobBytes_insertEntries (toolCallIds.map (keyOf hash fingerprint)) ⟨reasoning, now⟩ entries
  simp only [List.length_map] at counted
  rw [ReasoningShadowStore.insertReasoning]
  cases found : OrderedMap.lookup fingerprint shadow.sessions with
  | none =>
      let session : SessionState :=
        ⟨insertEntries (toolCallIds.map (keyOf hash fingerprint)) ⟨reasoning, now⟩ [],
          0 + toolCallIds.length * reasoning.utf8ByteSize⟩
      have size : session.size ≤ session.bytes := counted []
      simpa [session] using represented.add found size (entriesSmall nofun)
  | some held =>
      have member := OrderedMap.mem_of_lookup found
      exact represented.replace found rfl
        ((counted held.entries).trans (Nat.add_le_add_right (represented.counted _ member) _))
        (entriesSmall (represented.small _ member))

theorem restoreEntries_cases (ttl : Duration) (keyOf : String → ShadowKey) :
    (restoreEntries ttl now keyOf entries toolCallIds).2 = entries ∨
      ∃ id ∈ toolCallIds, ∃ entry, OrderedMap.lookup (keyOf id) entries = some entry ∧
        ttl < now - entry.created ∧
        (restoreEntries ttl now keyOf entries toolCallIds).2 =
          entries.filter fun held => held.1 ≠ keyOf id := by
  induction toolCallIds with
  | nil => exact .inl rfl
  | cons id rest ih =>
      rw [restoreEntries]
      split
      next =>
        rcases ih with same | ⟨id, member, facts⟩
        · exact .inl same
        · exact .inr ⟨id, List.mem_cons_of_mem _ member, facts⟩
      next entry found =>
        split
        next late => exact .inr ⟨id, List.mem_cons_self, entry, found, late, rfl⟩
        next => exact .inl rfl

theorem restoreEntries_sublist (ttl : Duration) (keyOf : String → ShadowKey) :
    (restoreEntries ttl now keyOf entries toolCallIds).2.Sublist entries := by
  obtain same | ⟨id, -, entry, -, -, made⟩ :=
    @restoreEntries_cases entries now toolCallIds ttl keyOf
  · rw [same]
  · rw [made]
    exact List.filter_sublist

theorem blobBytes_sublist {kept : List (ShadowKey × ShadowEntry)} (fewer : kept.Sublist entries) :
    blobBytes kept ≤ blobBytes entries := by
  induction fewer with
  | slnil => exact le_rfl
  | cons entry _ ih => exact ih.trans (Nat.le_add_left ..)
  | cons_cons entry _ ih => exact Nat.add_le_add_left ih _

theorem restore_cases : (shadow.restore hash fingerprint now toolCallIds).2 = shadow ∨
    ∃ session, OrderedMap.lookup fingerprint shadow.sessions = some session ∧
      (shadow.restore hash fingerprint now toolCallIds).2 = { shadow with
        sessions := OrderedMap.put fingerprint ⟨(restoreEntries shadow.ttl now
          (keyOf hash fingerprint) session.entries toolCallIds).2, session.bytes⟩
            shadow.sessions } := by
  rw [restore]
  split
  next => exact .inl rfl
  split
  next => exact .inl rfl
  next session found =>
    refine .inr ⟨session, found, ?_⟩
    dsimp only
    rw [setSession_eq_put found]
    rfl

theorem Represented.restore (represented : shadow.Represented limits) :
    Represented limits (shadow.restore hash fingerprint now toolCallIds).2 := by
  obtain same | ⟨session, found, made⟩ :=
    @restore_cases shadow hash fingerprint now toolCallIds
  · rw [same]
    exact represented
  · have member := OrderedMap.mem_of_lookup found
    have fewer := @restoreEntries_sublist session.entries now toolCallIds shadow.ttl
      (keyOf hash fingerprint)
    have counted := (blobBytes_sublist fewer).trans (represented.counted _ member)
    rw [made]
    exact @represented.replace limits shadow fingerprint _ session 0 found rfl counted
      fun held kept => represented.small _ member held (fewer.subset kept)

def entryOf (name : String) (key : ShadowKey) (shadow : ReasoningShadowStore) :
    Option ShadowEntry :=
  (OrderedMap.lookup name shadow.sessions).bind fun session =>
    OrderedMap.lookup key session.entries

theorem entryOf_clearSession : (shadow.clearSession name).entryOf other key =
    if other = name then none else shadow.entryOf other key := by
  rw [entryOf, lookup_clearSession]
  split <;> rfl

theorem entryOf_clearAll (names : List String) : (shadow.clearAll names).entryOf other key =
    if other ∈ names then none else shadow.entryOf other key := by
  rw [entryOf, lookup_clearAll]
  split <;> rfl

theorem entryOf_insertReasoning :
    (shadow.insertReasoning hash fingerprint now toolCallIds reasoning).entryOf other key =
      if other = fingerprint ∧ key ∈ toolCallIds.map (keyOf hash fingerprint) then
        some ⟨reasoning, now⟩
      else shadow.entryOf other key := by
  rw [entryOf, ReasoningShadowStore.insertReasoning]
  dsimp only
  rw [OrderedMap.lookup_put]
  by_cases same : other = fingerprint
  · subst same
    rw [if_pos rfl, Option.bind_some, lookup_insertEntries, entryOf]
    simp only [true_and]
    cases OrderedMap.lookup other shadow.sessions <;> rfl
  · rw [if_neg same, if_neg fun both => same both.1]
    rfl

theorem entryOf_restore : (shadow.restore hash fingerprint now toolCallIds).2.entryOf other key =
      shadow.entryOf other key ∨
    (shadow.restore hash fingerprint now toolCallIds).2.entryOf other key = none ∧
      ∃ entry, shadow.entryOf other key = some entry ∧ shadow.ttl < now - entry.created := by
  obtain same | ⟨session, found, made⟩ :=
    @restore_cases shadow hash fingerprint now toolCallIds
  · rw [same]
    exact .inl rfl
  · rw [made, entryOf, entryOf]
    dsimp only
    rw [OrderedMap.lookup_put]
    split
    next here =>
      rw [here, found, Option.bind_some, Option.bind_some]
      obtain kept | ⟨id, -, entry, held, late, dropped⟩ := @restoreEntries_cases session.entries
        now toolCallIds shadow.ttl (keyOf hash fingerprint)
      · exact .inl (congrArg _ kept)
      · dsimp only
        rw [dropped]
        have filtered := OrderedMap.lookup_filter key
          (fun held => decide (held ≠ keyOf hash fingerprint id)) session.entries
        rw [filtered]
        by_cases gone : key = keyOf hash fingerprint id
        · exact .inr ⟨if_neg (by simp [gone]), entry, gone ▸ held, late⟩
        · exact .inl (if_pos (decide_eq_true gone))
    next => exact .inl rfl

theorem restoreEntries_eq (ttl : Duration) (keyOf : String → ShadowKey) :
    (restoreEntries ttl now keyOf entries toolCallIds).1 =
      (toolCallIds.findSome? fun id => OrderedMap.lookup (keyOf id) entries).bind fun entry =>
        if ttl < now - entry.created then none else some entry.reasoning := by
  induction toolCallIds with
  | nil => rfl
  | cons id rest ih =>
      rw [restoreEntries, List.findSome?_cons]
      cases OrderedMap.lookup (keyOf id) entries with
      | none => exact ih
      | some entry =>
          dsimp only
          rw [Option.bind_some]
          split <;> rfl

theorem restore_eq : (shadow.restore hash fingerprint now toolCallIds).1 =
    (toolCallIds.findSome? fun id => shadow.entryOf fingerprint (keyOf hash fingerprint id)).bind
      fun entry => if shadow.ttl < now - entry.created then none else some entry.reasoning := by
  rw [restore]
  split
  next empty => rw [List.isEmpty_iff.mp empty, List.findSome?_nil, Option.bind_none]
  split
  next absent =>
    have missing : (toolCallIds.findSome? fun id =>
        shadow.entryOf fingerprint (keyOf hash fingerprint id)) = none := by
      simp [entryOf, absent]
    rw [missing, Option.bind_none]
  next session found =>
    refine (restoreEntries_eq shadow.ttl (keyOf hash fingerprint)).trans ?_
    simp only [entryOf, found, Option.bind_some]

theorem restore_ttl : (shadow.restore hash fingerprint now toolCallIds).2.ttl = shadow.ttl := by
  obtain same | ⟨session, -, made⟩ := @restore_cases shadow hash fingerprint now toolCallIds
  · rw [same]
  · rw [made]

theorem entryOf_sweep (represented : shadow.Represented limits)
    (held : shadow.entryOf name key = some entry) (fresh : ¬shadow.ttl < now - entry.created) :
    (sweep now shadow).entryOf name key = some entry := by
  obtain ⟨session, found, listed⟩ := Option.bind_eq_some_iff.mp held
  have alive : expired shadow.ttl now session = false := by
    rw [expired, List.all_eq_false]
    exact ⟨(key, entry), OrderedMap.mem_of_lookup listed, by simpa using fresh⟩
  rw [entryOf, lookup_sweep represented, found, Option.filter_some, alive]
  exact listed

end ReasoningShadowStore

end ClineProxy
