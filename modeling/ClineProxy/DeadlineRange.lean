import ClineProxy.Configuration
import ClineProxy.StallChecks

/-! The additions of a stream watch's next deadline against the range of the clock. -/

namespace ClineProxy

open Clock TransitionSystem StreamWatch

namespace StreamWatch

def notify (watch : StreamWatch) : Notification → StreamWatch
  | .bytes now => watch.onUpstreamBytes now
  | .sseEvent => watch.onSseEvent
  | .semantic now => watch.onSemantic now

def behind (timeouts : StreamTimeouts) (started : Instant) (events : List Notification) :
    StreamWatch :=
  events.foldl notify (new timeouts started)

end StreamWatch

variable {timeouts : StreamTimeouts} {started : Instant}

/-- Its instants are the start and those of its notifications. -/
structure WatchNotes (timeouts : StreamTimeouts) (started : Instant) (events : List Notification)
    (watch : StreamWatch) : Prop where
  sameTimeouts : watch.timeouts = timeouts
  sameStart : watch.started = started
  bytes : watch.lastByte = started ∨ .bytes watch.lastByte ∈ events
  semantic : watch.gotFirstSemantic = true → .semantic watch.lastSemantic ∈ events

theorem notes_notify {events : List Notification} {watch : StreamWatch}
    (notes : WatchNotes timeouts started events watch) (event : Notification) :
    WatchNotes timeouts started (events ++ [event]) (watch.notify event) := by
  have bytes := notes.bytes.imp_right (List.mem_append_left [event])
  have semantic := fun got => List.mem_append_left [event] (notes.semantic got)
  have last : event ∈ events ++ [event] := List.mem_append_right _ (List.mem_singleton_self _)
  cases event with
  | bytes now => exact ⟨notes.sameTimeouts, notes.sameStart, .inr last, semantic⟩
  | sseEvent => exact ⟨notes.sameTimeouts, notes.sameStart, bytes, semantic⟩
  | semantic now => exact ⟨notes.sameTimeouts, notes.sameStart, bytes, fun _ => last⟩

theorem notes_behind (events : List Notification) :
    WatchNotes timeouts started events (behind timeouts started events) := by
  induction events using List.reverseRecOn with
  | nil => exact ⟨rfl, rfl, .inl rfl, fun got => by cases got⟩
  | append_singleton events event ih =>
      rw [behind, List.foldl_append]
      exact notes_notify ih event

theorem runFrom_behind {events : List Notification} {last : Watching}
    (ran : (streamWatch timeouts started).runFrom ⟨.new timeouts started, started⟩ events =
      some last) : last.watch = behind timeouts started events := by
  refine @System.runFrom_linked _ _ (streamWatch timeouts started)
    (fun events state => state.watch = behind timeouts started events) _ rfl ?_ _ _ ran
  intro events state event next _ linked stepped
  rw [behind, List.foldl_append, ← behind, ← linked]
  rcases step_cases stepped with ⟨now, rfl, -, rfl⟩ | ⟨rfl, rfl⟩ | ⟨now, rfl, -, rfl⟩ <;> rfl

/-- Every configured timeout ends within the range of the clock, counted from each instant that
its timer is set to. -/
structure DeadlinesInRange (upstream : UpstreamConfig) (started : Instant)
    (events : List Notification) : Prop where
  year : started + year ≤ lastRepresentable
  firstEvent : upstream.firstEventTimeoutSecs ≠ 0 →
    started + fromSecs upstream.firstEventTimeoutSecs.toNat ≤ lastRepresentable
  firstSemantic : upstream.firstSemanticTimeoutSecs ≠ 0 →
    started + fromSecs upstream.firstSemanticTimeoutSecs.toNat ≤ lastRepresentable
  streamIdle : upstream.streamIdleTimeoutSecs ≠ 0 → ∀ time,
    time = started ∨ .bytes time ∈ events →
      time + fromSecs upstream.streamIdleTimeoutSecs.toNat ≤ lastRepresentable
  semanticIdle : upstream.semanticIdleTimeoutSecs ≠ 0 → ∀ time, .semantic time ∈ events →
    time + fromSecs upstream.semanticIdleTimeoutSecs.toNat ≤ lastRepresentable

theorem fromSecs_ne_zero {seconds : UInt64} : fromSecs seconds.toNat ≠ 0 ↔ seconds ≠ 0 := by
  rw [fromSecs, Nat.mul_ne_zero_iff, and_iff_left (by decide), ne_eq, ne_eq, ← UInt64.toNat_inj]
  rfl

variable {upstream : UpstreamConfig} {events before : List Notification}

theorem DeadlinesInRange.earlier (range : DeadlinesInRange upstream started events)
    (earlier : before ⊆ events) : DeadlinesInRange upstream started before where
  year := range.year
  firstEvent := range.firstEvent
  firstSemantic := range.firstSemantic
  streamIdle enabled time noted := range.streamIdle enabled time (noted.imp_right (@earlier _))
  semanticIdle enabled time noted := range.semanticIdle enabled time (earlier noted)

theorem fits_behind : (behind upstream.streamTimeouts started events).Fits ↔
    let watch := behind upstream.streamTimeouts started events
    started + year ≤ lastRepresentable ∧
      (watch.gotFirstEvent = false → upstream.firstEventTimeoutSecs ≠ 0 →
        started + fromSecs upstream.firstEventTimeoutSecs.toNat ≤ lastRepresentable) ∧
      (watch.gotFirstSemantic = false → upstream.firstSemanticTimeoutSecs ≠ 0 →
        started + fromSecs upstream.firstSemanticTimeoutSecs.toNat ≤ lastRepresentable) ∧
      (upstream.streamIdleTimeoutSecs ≠ 0 →
        watch.lastByte + fromSecs upstream.streamIdleTimeoutSecs.toNat ≤ lastRepresentable) ∧
      (watch.gotFirstSemantic = true → upstream.semanticIdleTimeoutSecs ≠ 0 →
        watch.lastSemantic + fromSecs upstream.semanticIdleTimeoutSecs.toNat ≤
          lastRepresentable) := by
  have notes := @notes_behind upstream.streamTimeouts started events
  rw [fits_iff, notes.sameTimeouts, notes.sameStart]
  simp only [UpstreamConfig.streamTimeouts, StreamTimeouts.fromSecs, fromSecs_ne_zero]

theorem DeadlinesInRange.fits (range : DeadlinesInRange upstream started events) :
    (behind upstream.streamTimeouts started events).Fits := by
  have notes := @notes_behind upstream.streamTimeouts started events
  exact fits_behind.mpr ⟨range.year, fun _ => range.firstEvent, fun _ => range.firstSemantic,
    fun enabled => range.streamIdle enabled _ notes.bytes,
    fun got enabled => range.semanticIdle enabled _ (notes.semantic got)⟩

theorem behind_snoc (events : List Notification) (event : Notification) :
    behind timeouts started (events ++ [event]) = (behind timeouts started events).notify event :=
  List.foldl_append ..

theorem exists_prefix {event : Notification} (noted : event ∈ events) :
    ∃ before, before ++ [event] <+: events := by
  obtain ⟨before, after, rfl⟩ := List.append_of_mem noted
  exact ⟨before, after, by rw [List.append_assoc, List.singleton_append]⟩

theorem inRange_of_fits
    (fits : ∀ before, before <+: events → (behind upstream.streamTimeouts started before).Fits) :
    DeadlinesInRange upstream started events := by
  obtain ⟨year, firstEvent, firstSemantic, idle, -⟩ := fits_behind.mp (fits [] List.nil_prefix)
  refine ⟨year, firstEvent rfl, firstSemantic rfl, ?_, ?_⟩
  · rintro enabled time (rfl | noted)
    · exact idle enabled
    · obtain ⟨before, earlier⟩ := exists_prefix noted
      have there := (fits_behind.mp (fits _ earlier)).2.2.2.1 enabled
      rwa [behind_snoc] at there
  · intro enabled time noted
    obtain ⟨before, earlier⟩ := exists_prefix noted
    have there := (fits_behind.mp (fits _ earlier)).2.2.2.2
    rw [behind_snoc] at there
    exact there rfl enabled

/-- The next deadline is computed after every notification exactly when each of its additions is
in range. -/
theorem deadline_in_range {parsers : Parsers} (admitted : AdmittedConfig parsers)
    (started : Instant) (events : List Notification) :
    (∀ before, before <+: events → (behind admitted.config.upstream.streamTimeouts started
        before).nextDeadline.isSome = true) ↔
      DeadlinesInRange admitted.config.upstream started events := by
  constructor
  · exact fun found => inRange_of_fits fun before earlier =>
      nextDeadline_isSome.mp (found before earlier)
  · exact fun range before earlier =>
      nextDeadline_isSome.mpr (range.earlier earlier.subset).fits

def plainParsers : Parsers where
  socketAddr text := text = "127.0.0.1:8788"
  headerName text :=
    if text.toList.all fun character => character.isAlphanum || character = '-' then
      some (text.map Char.toLower)
    else none
  headerValue text := text.toList.all fun character => 32 ≤ character.toNat && character.toNat < 127
  url text :=
    if text = "https://api.cline.bot/api/v1" then
      some ⟨"https", some "api.cline.bot", none, none, "", none⟩
    else none
  envFilter text := text = "info"
  quoted text := "\"" ++ text ++ "\""

def loadedConfig : AdmittedConfig plainParsers where
  config := {
    server := ⟨"127.0.0.1:8788", "gateway-secret"⟩
    upstream := {
      baseUrl := "https://api.cline.bot/api/v1"
      chatPath := "/chat/completions"
      timeoutSecs := 600
      connectTimeoutSecs := 20
      firstEventTimeoutSecs := 180
      firstSemanticTimeoutSecs := 180
      streamIdleTimeoutSecs := 120
      semanticIdleTimeoutSecs := 180
      fallback429CooldownSecs := 3600
      proxy := none
      headers := [("x-client-type", "cline-vscode"), ("x-title", "Cline")] }
    clineApiKeys := [⟨"main", "cline-key", true⟩]
    models := ⟨"z-ai/glm-5.3-flash", []⟩
    runtime := ⟨33554432, "info", 30⟩
    logging := ⟨some "logs", 64, 1024, 85, 1000⟩
    glm53 := {
      reasoning := ⟨.high, .high, true, .requestedOnly⟩
      maxOutputTokens := 16384
      context := ⟨true, true, true, none, 1024, 256⟩ } }
  valid := by decide +kernel

theorem deadline_in_range_fails : ¬∀ (admitted : AdmittedConfig plainParsers)
    (started : Instant) (events : List Notification),
    (behind admitted.config.upstream.streamTimeouts started events).nextDeadline.isSome = true := by
  intro claim
  have found := claim (loadedConfig.withStreamTimeouts 180 180 18446744073709551615 180)
    (fromSecs 1) []
  have idle := (fits_behind.mp (nextDeadline_isSome.mp found)).2.2.2.1 (by decide)
  exact absurd idle (by decide)

end ClineProxy
