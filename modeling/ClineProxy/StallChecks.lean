import ClineProxy.StreamWatch

/-! The next deadline of a stream watch against the verdict of its check. -/

namespace ClineProxy

open Clock TransitionSystem StreamWatch

/-- Within a year of the start, a stall is reported from the next deadline on and not before. -/
def DeadlineAgrees (watch : StreamWatch) : Prop :=
  ∃ deadline, watch.nextDeadline = some deadline ∧
    ∀ now < watch.started + year, (watch.check now).isSome = true ↔ deadline ≤ now

/-- The first semantic progress arms the timer of semantic idleness. -/
def Arms (watch : StreamWatch) : Notification → Prop
  | .semantic _ => watch.gotFirstSemantic = false ∧ watch.timeouts.semanticIdle ≠ 0
  | .bytes _ | .sseEvent => False

def NotEarlier (watch next : StreamWatch) : Prop :=
  ∀ deadline later, watch.nextDeadline = some deadline → next.nextDeadline = some later →
    deadline ≤ later

theorem StallTimer.Ended.earlier {now : Instant} {timer other : StallTimer}
    (ended : timer.Ended now) (armed : timer.enabled = true → other.enabled = true)
    (since : other.since ≤ timer.since) (same : other.timeout = timer.timeout) :
    other.Ended now := by
  refine ⟨armed ended.1, ?_⟩
  rw [same]
  exact (Nat.add_le_add_right since _).trans ended.2

theorem exists_timer {watch : StreamWatch} {holds : StallTimer → Prop} :
    (∃ timer ∈ watch.timers, holds timer) ↔
      holds ⟨.firstEvent, !watch.gotFirstEvent, watch.started, watch.timeouts.firstEvent⟩ ∨
      holds ⟨.firstSemantic, !watch.gotFirstSemantic, watch.started,
        watch.timeouts.firstSemantic⟩ ∨
      holds ⟨.streamIdle, true, watch.lastByte, watch.timeouts.streamIdle⟩ ∨
      holds ⟨.semanticIdle, watch.gotFirstSemantic, watch.lastSemantic,
        watch.timeouts.semanticIdle⟩ := by
  simp [timers]

variable {timeouts : StreamTimeouts} {started : Instant} {state next : Watching}
  {event : Notification}

theorem step_cases (stepped : (streamWatch timeouts started).step state event = some next) :
    (∃ now, event = .bytes now ∧ state.latest ≤ now ∧
        next = ⟨state.watch.onUpstreamBytes now, now⟩) ∨
      (event = .sseEvent ∧ next = ⟨state.watch.onSseEvent, state.latest⟩) ∨
      ∃ now, event = .semantic now ∧ state.latest ≤ now ∧
        next = ⟨state.watch.onSemantic now, now⟩ := by
  simp only [streamWatch] at stepped
  split at stepped
  next now =>
    obtain ⟨later, same⟩ := Option.ite_none_right_eq_some.mp stepped
    exact .inl ⟨now, rfl, later, (Option.some.inj same).symm⟩
  next => exact .inr (.inl ⟨rfl, (Option.some.inj stepped).symm⟩)
  next now =>
    obtain ⟨later, same⟩ := Option.ite_none_right_eq_some.mp stepped
    exact .inr (.inr ⟨now, rfl, later, (Option.some.inj same).symm⟩)

structure Noted (state : Watching) : Prop where
  bytes : state.watch.lastByte ≤ state.latest
  semantic : state.watch.lastSemantic ≤ state.latest

theorem noted_step (noted : Noted state)
    (stepped : (streamWatch timeouts started).step state event = some next) : Noted next := by
  rcases step_cases stepped with ⟨now, -, later, rfl⟩ | ⟨-, rfl⟩ | ⟨now, -, later, rfl⟩
  · exact ⟨le_rfl, noted.semantic.trans later⟩
  · exact ⟨noted.bytes, noted.semantic⟩
  · exact ⟨noted.bytes.trans later, le_rfl⟩

theorem reachable_noted (reached : (streamWatch timeouts started).Reachable state) :
    Noted state := by
  refine reached.invariant ?_ fun _ _ _ _ noted stepped => noted_step noted stepped
  rintro state rfl
  exact ⟨le_rfl, le_rfl⟩

theorem ended_step (noted : Noted state)
    (stepped : (streamWatch timeouts started).step state event = some next)
    (quiet : ¬Arms state.watch event) {now : Instant}
    (ended : ∃ timer ∈ next.watch.timers, timer.Ended now) :
    ∃ timer ∈ state.watch.timers, timer.Ended now := by
  rw [exists_timer] at ended ⊢
  rcases step_cases stepped with ⟨time, -, later, rfl⟩ | ⟨-, rfl⟩ | ⟨time, rfl, later, rfl⟩
  · rcases ended with first | semantic | idle | silent
    · exact .inl first
    · exact .inr (.inl semantic)
    · exact .inr (.inr (.inl (idle.earlier id (noted.bytes.trans later) rfl)))
    · exact .inr (.inr (.inr silent))
  · rcases ended with first | others
    · cases first.1
    · exact .inr others
  · rcases ended with first | semantic | idle | silent
    · exact .inl first
    · cases semantic.1
    · exact .inr (.inr (.inl idle))
    · refine .inr (.inr (.inr (silent.earlier (fun on => ?_) (noted.semantic.trans later) rfl)))
      cases known : state.watch.gotFirstSemantic with
      | true => exact on
      | false =>
          -- the timer was not armed before, and its timeout is zero
          have disabled := not_and.mp quiet known
          simp only [StallTimer.enabled, Bool.and_eq_true, decide_eq_true_eq] at on
          exact absurd on.2 disabled

theorem started_step (stepped : (streamWatch timeouts started).step state event = some next) :
    next.watch.started = state.watch.started := by
  rcases step_cases stepped with ⟨now, -, -, rfl⟩ | ⟨-, rfl⟩ | ⟨now, -, -, rfl⟩ <;> rfl

theorem deadline_step (noted : Noted state)
    (stepped : (streamWatch timeouts started).step state event = some next)
    (quiet : ¬Arms state.watch event) : NotEarlier state.watch next.watch := by
  intro deadline later before after
  rw [nextDeadline_le before, ← started_step stepped]
  exact ((nextDeadline_le after later).mp le_rfl).imp_right (ended_step noted stepped quiet)

theorem agrees_of_fits {watch : StreamWatch} (fits : watch.Fits) : DeadlineAgrees watch := by
  obtain ⟨deadline, found⟩ := Option.isSome_iff_exists.mp (nextDeadline_isSome.mpr fits)
  refine ⟨deadline, found, fun now soon => ?_⟩
  rw [check_iff, nextDeadline_le found, or_iff_right (Nat.not_le.mpr soon)]

/-- The deadline and the check agree, and no notification moves the deadline earlier, exactly
when no armed timer ends past the range of the clock. -/
theorem deadline_agrees (reached : (streamWatch timeouts started).Reachable state) :
    (DeadlineAgrees state.watch ∧ ∀ event next,
      (streamWatch timeouts started).step state event = some next →
        ¬Arms state.watch event → NotEarlier state.watch next.watch) ↔ state.watch.Fits := by
  constructor
  · rintro ⟨⟨deadline, found, -⟩, -⟩
    exact nextDeadline_isSome.mp (Option.isSome_of_eq_some found)
  · exact fun fits => ⟨agrees_of_fits fits, fun event next stepped quiet =>
      deadline_step (reachable_noted reached) stepped quiet⟩

theorem fits_new {timeouts : StreamTimeouts} {started : Instant} :
    (StreamWatch.new timeouts started).Fits ↔ started + year ≤ lastRepresentable ∧
      (timeouts.firstEvent ≠ 0 → started + timeouts.firstEvent ≤ lastRepresentable) ∧
      (timeouts.firstSemantic ≠ 0 → started + timeouts.firstSemantic ≤ lastRepresentable) ∧
      (timeouts.streamIdle ≠ 0 → started + timeouts.streamIdle ≤ lastRepresentable) := by
  rw [StreamWatch.fits_iff]
  simp [StreamWatch.new]

def defaultTimeouts : StreamTimeouts := ⟨fromSecs 180, fromSecs 180, fromSecs 120, fromSecs 180⟩

def quietStream : Watching where
  watch := ⟨defaultTimeouts, fromSecs 1, fromSecs 100, fromSecs 4, true, true⟩
  latest := fromSecs 100

theorem quietStream_reached :
    (streamWatch defaultTimeouts (fromSecs 1)).Reachable quietStream := by
  have ran : (streamWatch defaultTimeouts (fromSecs 1)).runFrom
      ⟨.new defaultTimeouts (fromSecs 1), fromSecs 1⟩
      [.bytes (fromSecs 3), .sseEvent, .semantic (fromSecs 4), .bytes (fromSecs 100)] =
        some quietStream := rfl
  exact System.runFrom_reachable (.initial rfl) ran

theorem deadline_agrees_quiet : quietStream.watch.nextDeadline = some (fromSecs 184) ∧
    DeadlineAgrees quietStream.watch ∧ ∀ event next,
      (streamWatch defaultTimeouts (fromSecs 1)).step quietStream event = some next →
        ¬Arms quietStream.watch event → NotEarlier quietStream.watch next.watch :=
  ⟨by decide, (deadline_agrees quietStream_reached).mpr (StreamWatch.fits_iff.mpr (by decide))⟩

def endlessTimeouts : StreamTimeouts := ⟨0, 0, fromSecs (2 ^ 64 - 1), 0⟩

theorem deadline_agrees_fails : ¬∀ timeouts started state,
    (streamWatch timeouts started).Reachable state → DeadlineAgrees state.watch := by
  intro claim
  obtain ⟨deadline, found, -⟩ := claim endlessTimeouts (fromSecs 1) _ (.initial rfl)
  have fits := nextDeadline_isSome.mp (Option.isSome_of_eq_some found)
  exact absurd ((fits_new.mp fits).2.2.2 (by decide)) (by decide)

end ClineProxy
