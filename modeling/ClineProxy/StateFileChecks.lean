import ClineProxy.ServiceCore
import Mathlib.Logic.Equiv.List
import Mathlib.Tactic.DeriveEncodable

/-! Which states of the pool survive the state file, and when every state does. -/

namespace ClineProxy

open Clock KeyPool TransitionSystem

/-- The serializer reads back what it wrote. -/
def StateCodec.Faithful (codec : StateCodec) : Prop :=
  ∀ state, codec.decode (codec.encode state) = .ok state

/-- The wall clock shows a positive number of milliseconds that fits a 64-bit word. -/
def AfterEpoch (time : Int) : Prop :=
  (nanosPerMilli : Int) ≤ time ∧ time < (u64Bound : Int) * (nanosPerMilli : Int)

def RoundTrips (codec : StateCodec) (world : World) : Prop :=
  load codec (.contents (store codec (world.pool.persistedState world.clock))) =
    .loaded (world.pool.persistedState world.clock)

def maxModelBytes : Nat := 256

def ShortModels (pool : KeyPool) : Prop :=
  ∀ key ∈ pool.keys, ∀ model, key.runtime.last429Model = some model →
    model.utf8ByteSize ≤ maxModelBytes

/-- A 429 that the event records comes with a sanitized model within the loader's bound. -/
def RecordsShortModel (upstream : ClineUpstream) (world : World) : ServiceEvent → Prop
  | .run event => ∀ index cooldown kind message model,
      world.opOf upstream event = some (.markHttp429 index cooldown kind message (some model)) →
      model.utf8ByteSize ≤ maxModelBytes
  | .restart _ _ => True

theorem unixMs_pos {time : Int} (after : AfterEpoch time) : unixMs time ≠ 0 := by
  obtain ⟨lower, upper⟩ := after
  rw [unixMs_of_nonneg (le_trans (Int.natCast_nonneg _) lower)]
  simp only [nanosPerMilli, u64Bound, Nat.reducePow] at *
  omega

theorem entryComplaint_none {entry : String × PersistedKeyState}
    (named : (Text.trim entry.1.toList).isEmpty = false) :
    entryComplaint entry = none ↔
      ∀ model, entry.2.model = some model → model.utf8ByteSize ≤ maxModelBytes := by
  simp only [entryComplaint, named, Bool.false_eq_true, if_false]
  cases entry.2.model with
  | none => simp
  | some model => simp [maxModelBytes]

theorem roundTrips_iff {codec : StateCodec} (faithful : codec.Faithful) {world : World}
    (sound : world.Sound) (after : AfterEpoch world.clock.wall) :
    RoundTrips codec world ↔ ShortModels world.pool := by
  have stamped : (world.pool.persistedState world.clock).updatedAtUnixMs ≠ 0 := unixMs_pos after
  have versioned : (world.pool.persistedState world.clock).version = stateSchemaVersion := rfl
  have named : ∀ entry ∈ (world.pool.persistedState world.clock).keys,
      ∃ key ∈ world.pool.keys, entry = (key.name, persistKey key) ∧
        (Text.trim entry.1.toList).isEmpty = false := by
    intro entry member
    obtain ⟨key, inside, rfl⟩ := OrderedMap.mem_collect member
    exact ⟨key, inside, rfl, sound.named.not_blank _ (List.mem_map.mpr ⟨key, inside, rfl⟩)⟩
  have accepted : RoundTrips codec world ↔
      (world.pool.persistedState world.clock).keys.findSome? entryComplaint = none := by
    simp only [RoundTrips, load, store, faithful _, versioned, ne_eq, not_true_eq_false, if_false,
      stamped]
    cases (world.pool.persistedState world.clock).keys.findSome? entryComplaint <;> simp
  rw [accepted, List.findSome?_eq_none_iff]
  constructor
  · intro quiet key member model recorded
    have entryMember := OrderedMap.mem_of_lookup
      (lookup_persisted sound.named.distinct world.clock member)
    obtain ⟨_, _, _, notBlank⟩ := named _ entryMember
    exact (entryComplaint_none notBlank).mp (quiet _ entryMember) model recorded
  · intro short entry member
    obtain ⟨key, inside, rfl, notBlank⟩ := named entry member
    exact (entryComplaint_none notBlank).mpr fun model recorded => short key inside model recorded

theorem shortModels_apply {pool : KeyPool} (valid : pool.Valid) (short : ShortModels pool)
    (clock : Reading) {op : PoolOp}
    (records : ∀ index cooldown kind message model,
      op = .markHttp429 index cooldown kind message (some model) →
      model.utf8ByteSize ≤ maxModelBytes) : ShortModels (op.apply clock pool) := by
  intro key member model recorded
  rcases op.apply_keys valid clock with same | ⟨index, change, changed, which⟩
  · exact short key (same ▸ member) model recorded
  · rw [changed] at member
    obtain ⟨position, at_⟩ := List.getElem?_of_mem member
    rw [getElem?_modify_key, Option.map_eq_some_iff] at at_
    obtain ⟨old, oldAt, rfl⟩ := at_
    have before := short old (List.mem_of_getElem? oldAt)
    split at recorded
    · rcases which with rfl | rfl | rfl | ⟨cooldown, kind, message, held, rfl, rfl⟩
      · exact before model recorded
      · exact before model recorded
      · exact before model recorded
      · exact records index cooldown kind message model (by rw [show held = some model from recorded])
    · exact before model recorded

theorem shortModels_step {upstream : ClineUpstream} {world next : World} {event : ServiceEvent}
    (sound : world.Sound) (short : ShortModels world.pool)
    (records : RecordsShortModel upstream world event)
    (stepped : (service upstream).step world event = some next) : ShortModels next.pool := by
  cases event with
  | run event =>
      have poolKeys := (step_pool stepped).2
      intro key member
      rw [poolKeys] at member
      cases made : world.opOf upstream event with
      | none =>
          rw [made] at member
          exact short key member
      | some op =>
          rw [made] at member
          refine shortModels_apply sound.valid short world.clock ?_ key member
          rintro index cooldown kind message model rfl
          exact records index cooldown kind message model made
  | restart configured clock =>
      simp only [service, Option.some.injEq] at stepped
      subst stepped
      intro key member model recorded
      rcases restart_key sound member with ⟨_, fresh⟩ | ⟨old, inOld, _, restored⟩
      · simp [fresh, KeyRuntime.default] at recorded
      · rw [restored] at recorded
        exact short old inOld model recorded

/-- The state file gives back a state of the service exactly when every recorded model is
short; it gives back every state of a run that records only such models. -/
theorem state_file_round_trip (upstream : ClineUpstream) (codec : StateCodec)
    (faithful : codec.Faithful) :
    (∀ world, (service upstream).Reachable world → AfterEpoch world.clock.wall →
      (RoundTrips codec world ↔ ShortModels world.pool)) ∧
    ∀ world, (service upstream).ReachableWhere (RecordsShortModel upstream) world →
      AfterEpoch world.clock.wall → RoundTrips codec world := by
  constructor
  · intro world reached after
    exact roundTrips_iff faithful (service_sound reached) after
  · intro world reached after
    refine (roundTrips_iff faithful (service_sound reached) after).mpr ?_
    apply reached.invariant
    · rintro world ⟨configured, clock, rfl⟩ key member model recorded
      simp [new_runtime member, KeyRuntime.default] at recorded
    · intro world event next before short records stepped
      exact shortModels_step (service_sound before) short records stepped

section Runs

instance encodableChar : Encodable Char := Encodable.ofLeftInverse Char.toNat Char.ofNat (by intro c; simp)

instance encodableString : Encodable String :=
  Encodable.ofLeftInverse String.toList String.ofList (by intro text; simp)

deriving instance Encodable for RateLimitKind, PersistedKeyState, PersistedState

def codecShowing (shown : PersistedState) (text : Bytes) : StateCodec :=
  { encode := fun state =>
      if state = shown then text else text ++ List.replicate (Encodable.encode state + 1) 0
    decode := fun bytes =>
      if bytes = text then .ok shown
      else
        match Encodable.decode (bytes.length - text.length - 1) with
        | some state => .ok state
        | none => .error "trailing characters" }

theorem codecShowing_faithful (shown : PersistedState) (text : Bytes) :
    (codecShowing shown text).Faithful := by
  intro state
  simp only [codecShowing]
  by_cases same : state = shown
  · simp [same]
  · have longer : text ++ List.replicate (Encodable.encode state + 1) 0 ≠ text := by simp
    simp [same, longer]

def bytesOf (text : String) : Bytes := text.toUTF8.data.toList

def namingBody (model : String) : Bytes :=
  bytesOf ("\x7b\"message\":\"quota\",\"model\":\"" ++ model ++ "\"\x7d")

def namingValue (model : String) : Json.Value :=
  .object [("message", .string "quota"), ("model", .string model)]

def namingUpstream (model : String) : ClineUpstream :=
  { plainUpstream with
    env :=
      { codec := ⟨fun _ => none,
          fun bytes => if bytes = namingBody model then some (namingValue model) else none,
          fun _ => ""⟩
        headerToStr := fun _ => none
        parseHttpDate := fun _ => none } }

def namingResponse (model : String) : HttpResponse := ⟨429, [], [namingBody model]⟩

def namesModel (model : String) : Event := .request 0 (.respond (.response (namingResponse model)))

def namingText (model : String) : String :=
  "\x7b\n  \"version\": 1,\n  \"updated_at_unix_ms\": 1700000000000,\n" ++
  "  \"active_key\": \"a\",\n  \"keys\": \x7b\n    \"a\": \x7b\n" ++
  "      \"cooldown_until_unix_ms\": 1700000060000,\n" ++
  "      \"rate_limit_kind\": \"transient\",\n      \"model\": \"" ++ model ++ "\",\n" ++
  "      \"last_429_at_unix_ms\": 1700000000000\n    \x7d\n  \x7d\n\x7d"

theorem naming_judged {model : String} (short : (namingBody model).length ≤ maxErrorBodyBytes)
    (now : SystemTime) : ∃ hint, hint.model = some model ∧
      judge (namingUpstream model) now (.response (namingResponse model)) = .limited hint := by
  have read : (namingResponse model).errorBody = namingBody model := by
    rw [HttpResponse.errorBody, readLimited_eq]
    simpa [namingResponse] using List.take_of_length_le short
  have found : ((namingUpstream model).env.codec.fromSlice (namingBody model)).bind extractModel =
      some model := by
    simp only [namingUpstream, if_true, Option.bind_some]
    rfl
  refine ⟨_, retryHint_model (namingUpstream model).env now [] (namingBody model) (fromSecs 60)
    found, ?_⟩
  simp only [judge, ClineUpstream.classify, read]
  rfl

def awaitsKeyZero (world : World) : Bool :=
  match (world.requests 0).phase with
  | .sending selected => selected.index == 0 && world.clock == readingAt 0 && world.pool.len == 1
  | _ => false

theorem naming_recorded {model : String} (clean : sanitizeText model [] = model)
    (short : (namingBody model).length ≤ maxErrorBodyBytes) : ∃ before after,
    (service (namingUpstream model)).ReachableWhere (RecordsShortModel (namingUpstream model))
        before ∧
      (∀ index cooldown kind message held, before.opOf (namingUpstream model)
        (namesModel model) = some (.markHttp429 index cooldown kind message held) →
        held = some model) ∧
      (service (namingUpstream model)).step before (.run (namesModel model)) = some after ∧
      after.clock = readingAt 0 ∧
      ∃ key ∈ after.pool.keys, key.runtime.last429Model = some model := by
  obtain ⟨before, reached, awaits⟩ : ∃ before,
      (service (namingUpstream model)).ReachableWhere (RecordsShortModel (namingUpstream model))
        before ∧ awaitsKeyZero before = true := by
    refine ⟨_, @System.ReachableWhere.step _ _ _ _ _ (.run (.request 0 .select)) _
      (@System.ReachableWhere.step _ _ _ _ _ (.run (.request 0 .start)) _
        (.initial ⟨oneKeyConfig, readingAt 0, rfl⟩) ?_ rfl) ?_ rfl, rfl⟩
    · intro index cooldown kind message model made
      cases made
    · intro index cooldown kind message model made
      cases made
  simp only [awaitsKeyZero] at awaits
  split at awaits
  · rename_i selected sending
    simp only [Bool.and_eq_true, beq_iff_eq] at awaits
    obtain ⟨⟨index, clock⟩, single⟩ := awaits
    obtain ⟨hint, hinted, judged⟩ := naming_judged short before.clock.wall
    have enabled : ((service (namingUpstream model)).step before
        (.run (namesModel model))).isSome = true := by
      simp [service, World.step, namesModel, Request.step, sending]
    obtain ⟨after, stepped⟩ := Option.isSome_iff_exists.mp enabled
    have limits : limitedOp (namingUpstream model) 0 hint = .markHttp429 0 hint.duration
        (classifyRateLimitKind (hint.message.map fun text => sanitizeText text []) hint.duration)
        (hint.message.map fun text => sanitizeText text []) (some model) := by
      simp [limitedOp, hinted, namingUpstream, plainUpstream, clean]
    have made : before.opOf (namingUpstream model) (namesModel model) =
        some (limitedOp (namingUpstream model) 0 hint) := by
      simp [World.opOf, namesModel, Request.step, sending, judged, Request.conclude, index]
    obtain ⟨key, at_⟩ : ∃ key, before.pool.keys[0]? = some key := by
      have bound : 0 < before.pool.keys.length := by
        rw [len] at single
        omega
      exact ⟨_, List.getElem?_eq_getElem bound⟩
    refine ⟨before, after, reached, ?_, stepped, (request_clock stepped).trans clock, ?_⟩
    · intro index cooldown kind message held recorded
      rw [made, limits, Option.some.injEq, PoolOp.markHttp429.injEq] at recorded
      exact recorded.2.2.2.2.symm
    · have keysEq := (step_pool stepped).2
      rw [made, limits] at keysEq
      have recorded : after.pool.keys[0]? = some (coolKey hint.duration
          (classifyRateLimitKind (hint.message.map fun text => sanitizeText text []) hint.duration)
          (hint.message.map fun text => sanitizeText text []) (some model) before.clock key) := by
        simp [keysEq, applyOp, PoolOp.apply, at_]
      exact ⟨_, List.mem_of_getElem? recorded, rfl⟩
  · simp at awaits

theorem afterEpoch_start {time : SystemTime} (same : time = (readingAt 0).wall) :
    AfterEpoch time := by
  rw [same]
  unfold AfterEpoch
  decide

theorem state_file_round_trip_named : ∃ world,
    (service (namingUpstream "glm-4.6")).Reachable world ∧
      (∃ key ∈ world.pool.keys, key.runtime.last429Model = some "glm-4.6") ∧
      RoundTrips (codecShowing (world.pool.persistedState world.clock)
        (bytesOf (namingText "glm-4.6"))) world ∧ ShortModels world.pool := by
  obtain ⟨before, after, reached, records, stepped, clock, recorded⟩ :=
    @naming_recorded "glm-4.6" (by decide) (by decide)
  have short : RecordsShortModel (namingUpstream "glm-4.6") before
      (.run (namesModel "glm-4.6")) := by
    intro index cooldown kind message model made
    rw [Option.some.inj (records index cooldown kind message _ made)]
    decide
  have reachedWhere := System.ReachableWhere.step reached short stepped
  have past := afterEpoch_start (congrArg Reading.wall clock)
  obtain ⟨exactly, kept⟩ := state_file_round_trip (namingUpstream "glm-4.6") _
    (codecShowing_faithful (after.pool.persistedState after.clock) (bytesOf (namingText "glm-4.6")))
  have trips := kept after reachedWhere past
  exact ⟨after, reachedWhere.reachable, recorded, trips,
    (exactly after reachedWhere.reachable past).mp trips⟩

def longLetters : List Char := List.replicate 257 'a'

def longModel : String := String.ofList longLetters

theorem sanitize_longModel : sanitizeText longModel [] = longModel := by
  have unchanged : truncateChars (Text.join [' '] (redactWords false
      (Text.splitWhitespace longLetters))) maxPublicTextChars = longLetters := by decide +kernel
  simp only [sanitizeText, longModel, redactExact, List.foldl_nil, String.toList_ofList, unchanged]

/-- One 429 whose body names a model of 257 letters makes the file unloadable. -/
theorem state_file_round_trip_fails :
    ¬∀ codec world, codec.Faithful → (service (namingUpstream longModel)).Reachable world →
      AfterEpoch world.clock.wall → RoundTrips codec world := by
  intro claim
  obtain ⟨before, after, reached, _, stepped, clock, key, member, recorded⟩ :=
    naming_recorded sanitize_longModel (by decide +kernel)
  have faithful := codecShowing_faithful (after.pool.persistedState after.clock)
    (bytesOf (namingText longModel))
  have past := afterEpoch_start (congrArg Reading.wall clock)
  have reachedAfter := reached.reachable.next stepped
  have short := (roundTrips_iff faithful (service_sound reachedAfter) past).mp
    (claim _ after faithful reachedAfter past)
  exact absurd (short key member longModel recorded) (by decide +kernel)

end Runs

end ClineProxy
