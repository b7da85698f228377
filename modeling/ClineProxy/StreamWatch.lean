import Mathlib.Order.MinMax
import ClineProxy.Clock
import ClineProxy.Protocol
import ClineProxy.TransitionSystem

/-! `stream_watch.rs`: the timers that find a stalled upstream stream. -/

namespace ClineProxy

open Clock TransitionSystem

structure StreamTimeouts where
  firstEvent : Duration
  firstSemantic : Duration
  streamIdle : Duration
  semanticIdle : Duration

/-- One of the four timers; a timeout of zero disables it. -/
structure StallTimer where
  kind : StallKind
  armed : Bool
  since : Instant
  timeout : Duration

namespace StallTimer

def enabled (timer : StallTimer) : Bool := timer.armed && timer.timeout ≠ 0

def stalls (now : Instant) (timer : StallTimer) : Bool :=
  timer.enabled && timer.timeout ≤ now - timer.since

/-- The earlier of the deadline and the end of the timer; `none` where the addition panics. -/
def sooner (deadline : Instant) (timer : StallTimer) : Option Instant :=
  if timer.enabled then (instantCheckedAdd timer.since timer.timeout).map (min deadline)
  else some deadline

def Fits (timer : StallTimer) : Prop :=
  timer.enabled = true → timer.since + timer.timeout ≤ lastRepresentable

def Ended (now : Instant) (timer : StallTimer) : Prop :=
  timer.enabled = true ∧ timer.since + timer.timeout ≤ now

theorem le_sub_iff {now since timeout : Nat} (positive : timeout ≠ 0) :
    timeout ≤ now - since ↔ since + timeout ≤ now := by
  omega

theorem stalls_iff {now : Instant} {timer : StallTimer} :
    timer.stalls now = true ↔ timer.Ended now := by
  simp only [stalls, Ended, enabled, Bool.and_eq_true, decide_eq_true_eq]
  exact and_congr_right fun on => le_sub_iff on.2

end StallTimer

structure StreamWatch where
  timeouts : StreamTimeouts
  started : Instant
  lastByte : Instant
  lastSemantic : Instant
  gotFirstEvent : Bool
  gotFirstSemantic : Bool

namespace StreamWatch

def new (timeouts : StreamTimeouts) (started : Instant) : StreamWatch where
  timeouts
  started
  lastByte := started
  lastSemantic := started
  gotFirstEvent := false
  gotFirstSemantic := false

def onUpstreamBytes (now : Instant) (watch : StreamWatch) : StreamWatch :=
  { watch with lastByte := now }

def onSseEvent (watch : StreamWatch) : StreamWatch := { watch with gotFirstEvent := true }

def onSemantic (now : Instant) (watch : StreamWatch) : StreamWatch :=
  { watch with gotFirstSemantic := true, lastSemantic := now }

/-- The timers in the order in which both functions below ask them. -/
def timers (watch : StreamWatch) : List StallTimer :=
  [⟨.firstEvent, !watch.gotFirstEvent, watch.started, watch.timeouts.firstEvent⟩,
    ⟨.firstSemantic, !watch.gotFirstSemantic, watch.started, watch.timeouts.firstSemantic⟩,
    ⟨.streamIdle, true, watch.lastByte, watch.timeouts.streamIdle⟩,
    ⟨.semanticIdle, watch.gotFirstSemantic, watch.lastSemantic, watch.timeouts.semanticIdle⟩]

def check (now : Instant) (watch : StreamWatch) : Option StallKind :=
  (watch.timers.find? (StallTimer.stalls now)).map StallTimer.kind

def year : Duration := fromSecs (60 * 60 * 24 * 365)

def nextDeadline (watch : StreamWatch) : Option Instant := do
  let deadline ← instantCheckedAdd watch.started year
  watch.timers.foldlM StallTimer.sooner deadline

theorem check_iff {now : Instant} {watch : StreamWatch} :
    (watch.check now).isSome = true ↔ ∃ timer ∈ watch.timers, timer.Ended now := by
  rw [check, Option.isSome_map, List.find?_isSome]
  exact exists_congr fun timer => and_congr_right fun _ => StallTimer.stalls_iff

theorem soonest_isSome {timers : List StallTimer} {deadline : Instant} :
    (timers.foldlM StallTimer.sooner deadline).isSome = true ↔
      ∀ timer ∈ timers, timer.Fits := by
  induction timers generalizing deadline with
  | nil => simp
  | cons timer rest ih =>
      rw [List.foldlM_cons, List.forall_mem_cons, StallTimer.sooner, StallTimer.Fits]
      by_cases on : timer.enabled = true
      · by_cases fits : timer.since + timer.timeout ≤ lastRepresentable
        · rw [if_pos on, instantCheckedAdd_eq fits]
          simpa [on, fits] using ih
        · simp [on, fits, instantCheckedAdd]
      · simpa [on] using ih

theorem soonest_le {timers : List StallTimer} {deadline soonest : Instant}
    (found : timers.foldlM StallTimer.sooner deadline = some soonest) (now : Instant) :
    soonest ≤ now ↔ deadline ≤ now ∨ ∃ timer ∈ timers, timer.Ended now := by
  induction timers generalizing deadline with
  | nil =>
      cases found
      simp
  | cons timer rest ih =>
      rw [List.foldlM_cons] at found
      obtain ⟨middle, first, later⟩ := Option.bind_eq_some_iff.mp found
      simp only [ih later, List.mem_cons, exists_eq_or_imp, ← or_assoc]
      refine or_congr_left ?_
      rw [StallTimer.sooner] at first
      split at first
      next on =>
        obtain ⟨ends, added, rfl⟩ := Option.map_eq_some_iff.mp first
        rw [instantCheckedAdd] at added
        split at added
        next =>
          cases added
          rw [min_le_iff, StallTimer.Ended, and_iff_right on]
        next => cases added
      next off =>
        cases first
        rw [StallTimer.Ended, or_iff_left fun ended => off ended.1]

/-- Every instant that the next deadline is computed from is one of the clock. -/
def Fits (watch : StreamWatch) : Prop :=
  watch.started + year ≤ lastRepresentable ∧ ∀ timer ∈ watch.timers, timer.Fits

theorem fits_iff {watch : StreamWatch} : watch.Fits ↔
    watch.started + year ≤ lastRepresentable ∧
      (watch.gotFirstEvent = false → watch.timeouts.firstEvent ≠ 0 →
        watch.started + watch.timeouts.firstEvent ≤ lastRepresentable) ∧
      (watch.gotFirstSemantic = false → watch.timeouts.firstSemantic ≠ 0 →
        watch.started + watch.timeouts.firstSemantic ≤ lastRepresentable) ∧
      (watch.timeouts.streamIdle ≠ 0 →
        watch.lastByte + watch.timeouts.streamIdle ≤ lastRepresentable) ∧
      (watch.gotFirstSemantic = true → watch.timeouts.semanticIdle ≠ 0 →
        watch.lastSemantic + watch.timeouts.semanticIdle ≤ lastRepresentable) := by
  simp [Fits, StallTimer.Fits, StallTimer.enabled, timers]

theorem nextDeadline_isSome {watch : StreamWatch} :
    watch.nextDeadline.isSome = true ↔ watch.Fits := by
  by_cases room : watch.started + year ≤ lastRepresentable
  · rw [nextDeadline, instantCheckedAdd_eq room, Fits, and_iff_right room]
    exact soonest_isSome
  · rw [nextDeadline, instantCheckedAdd_none room, Fits]
    exact iff_of_false Bool.false_ne_true fun fits => room fits.left

theorem nextDeadline_le {watch : StreamWatch} {deadline : Instant}
    (found : watch.nextDeadline = some deadline) (now : Instant) :
    deadline ≤ now ↔ watch.started + year ≤ now ∨ ∃ timer ∈ watch.timers, timer.Ended now := by
  have fits := nextDeadline_isSome.mp (Option.isSome_of_eq_some found)
  rw [nextDeadline, instantCheckedAdd_eq fits.1] at found
  exact soonest_le found now

end StreamWatch

inductive Notification where
  | bytes (now : Instant)
  | sseEvent
  | semantic (now : Instant)
  deriving DecidableEq

/-- A watch and the time of its last notification. -/
structure Watching where
  watch : StreamWatch
  latest : Instant

def streamWatch (timeouts : StreamTimeouts) (started : Instant) :
    System Watching Notification where
  initial state := state = ⟨.new timeouts started, started⟩
  step state
    | .bytes now =>
        if state.latest ≤ now then some ⟨state.watch.onUpstreamBytes now, now⟩ else none
    | .sseEvent => some ⟨state.watch.onSseEvent, state.latest⟩
    | .semantic now =>
        if state.latest ≤ now then some ⟨state.watch.onSemantic now, now⟩ else none

end ClineProxy
