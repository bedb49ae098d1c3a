import CryptoTrading.Kit.Calendar
import CryptoTrading.Kit.DailyWindow
import CryptoTrading.Kit.PaddedDigits
import CryptoTrading.Reporting.ValidationPreflight
import Mathlib.Data.Finset.Insert
import Mathlib.Tactic.Ring

/-! The trading schedule and the stop at the close of its session.  The delay of the stop is a difference of
wall-clock readings, and the sleep for it takes real time.  The two agree as long as the offset of the zone
moves no reading into the window or out of it before the close. -/

namespace CryptoTrading

open Kit Kit.Calendar Kit.PaddedDigits

/-- A `time`, in microseconds of the day. -/
structure TimeOfDay where
  micros : ℤ
  nonneg : 0 ≤ micros
  lt_day : micros < day

/-- The offset of a zone from UTC at every moment, as the tz database gives it. -/
abbrev ZoneOffset := Datetime → ℤ

inductive ScheduleError
  /-- What `ZoneInfo(timezone)` raises of a name that the tz database does not have. -/
  | unknownZone (timezone : String)
  /-- `ValueError`: "Trading schedule end must be later than start" -/
  | endNotLater
  /-- `ValueError`: "Trading-window checks require a timezone-aware datetime" -/
  | naiveMoment
  deriving DecidableEq

structure TradingSchedule where
  zone : ZoneOffset
  start : TimeOfDay
  finish : TimeOfDay
  weekdays : Finset ℤ
  start_lt_finish : start.micros < finish.micros

/-- `date.weekday()`, of a date counted from the epoch, which was a Thursday. -/
def weekday (date : ℤ) : ℤ := (date + 3) % 7

namespace TradingSchedule

/-- `TradingSchedule(timezone, start, end, weekdays)`. -/
def new (zones : String → Option ZoneOffset) (timezone : String) (start finish : TimeOfDay)
    (weekdays : Finset ℤ) : Except ScheduleError TradingSchedule :=
  match zones timezone with
  | none => .error (.unknownZone timezone)
  | some zone =>
    if h : start.micros < finish.micros then .ok ⟨zone, start, finish, weekdays, h⟩
    else .error .endNotLater

variable (schedule : TradingSchedule)

/-- `localize`: the wall-clock reading of a moment. -/
def localize : Timestamp → Except ScheduleError ℤ
  | .naive _ => .error .naiveMoment
  | .aware moment => .ok (moment + schedule.zone moment)

/-- What `contains` asks of a reading; the close boundary is exclusive. -/
def inWindow (reading : ℤ) : Bool :=
  decide (weekday (reading / day) ∈ schedule.weekdays) &&
    decide (schedule.start.micros ≤ reading % day ∧ reading % day < schedule.finish.micros)

/-- `contains` -/
def contains (moment : Timestamp) : Except ScheduleError Bool :=
  return schedule.inWindow (← schedule.localize moment)

/-- `session_id` -/
def sessionId (moment : Timestamp) : Except ScheduleError (Option String) := do
  let reading ← schedule.localize moment
  if schedule.inWindow reading then
    let date := civilDate (reading / day)
    return some ("paper_session_" ++
      String.ofList (padded 4 date.year ++ padded 2 date.month ++ padded 2 date.day))
  else return none

/-- `close_at`, as a reading. -/
def closeAt (moment : Timestamp) : Except ScheduleError (Option ℤ) := do
  let reading ← schedule.localize moment
  if schedule.inWindow reading then return some (reading / day * day + schedule.finish.micros)
  else return none

/-- `seconds_until_close`, in microseconds. -/
def secondsUntilClose (moment : Timestamp) : Except ScheduleError (Option ℤ) := do
  match ← schedule.closeAt moment with
  | none => return none
  | some close => return some (max 0 (close - (← schedule.localize moment)))

end TradingSchedule

/-! ### `session_manager.py` -/

structure TradingSession where
  sessionId : String
  startedAt : Timestamp
  scheduledCloseAt : ℤ
  deriving DecidableEq

/-- `SessionManager`; each call takes what its clock reads. -/
structure SessionManager where
  schedule : TradingSchedule
  current : Option TradingSession := none

namespace SessionManager

variable (manager : SessionManager)

/-- `open`: the manager that it leaves, whose current session it returns. -/
def opened (now : Timestamp) : Except ScheduleError SessionManager := do
  let sessionId ← manager.schedule.sessionId now
  let closeAt ← manager.schedule.closeAt now
  match sessionId, closeAt with
  | some sessionId, some closeAt => return { manager with current := some ⟨sessionId, now, closeAt⟩ }
  | _, _ => return { manager with current := none }

/-- `entries_allowed` -/
def entriesAllowed (now : Timestamp) : Except ScheduleError Bool :=
  if manager.current.isSome then manager.schedule.contains now else .ok false

/-- `seconds_until_close` -/
def secondsUntilClose (now : Timestamp) : Except ScheduleError (Option ℤ) :=
  if manager.current.isSome then manager.schedule.secondsUntilClose now else .ok none

/-- `close` -/
def closed : SessionManager := { manager with current := none }

/-- When `_stop_at_session_close` disables trading, of a session that is running at `now`: after it has slept
for the delay until the close. -/
def stopAtSessionClose (now : Datetime) : Except ScheduleError (Option Datetime) :=
  return (← manager.secondsUntilClose (.aware now)).map (now + ·)

end SessionManager

namespace TradingSchedule

variable (schedule : TradingSchedule) {moment : Datetime}

/-! ### The window of the schedule -/

def window : DailyWindow where
  period := day
  opening := schedule.start.micros
  closing := schedule.finish.micros
  allowed date := decide (weekday date ∈ schedule.weekdays)
  opening_nonneg := schedule.start.nonneg
  opening_lt_closing := schedule.start_lt_finish
  closing_lt_period := schedule.finish.lt_day

@[simp] theorem window_opening : schedule.window.opening = schedule.start.micros := rfl

@[simp] theorem window_closing : schedule.window.closing = schedule.finish.micros := rfl

@[simp] theorem window_period : schedule.window.period = day := rfl

/-- The reading at a moment. -/
def clock (moment : Datetime) : ℤ := moment + schedule.zone moment

theorem contains_aware (moment : Datetime) :
    schedule.contains (.aware moment) = .ok (schedule.window.contains (schedule.clock moment)) := rfl

theorem contains_eq_ok_true_iff : schedule.contains (.aware moment) = .ok true ↔
    schedule.window.contains (schedule.clock moment) = true := by
  rw [contains_aware, Except.ok.injEq]

/-- How far a reading is from the closing of its day. -/
def remaining (moment : Datetime) : ℤ :=
  schedule.window.closingOf (schedule.clock moment) - schedule.clock moment

theorem secondsUntilClose_eq (h : schedule.contains (.aware moment) = .ok true) :
    schedule.secondsUntilClose (.aware moment) = .ok (some (schedule.remaining moment)) := by
  rw [contains_eq_ok_true_iff] at h
  have hlt := (schedule.window.mem_day h).2
  have hclose : schedule.closeAt (.aware moment) =
      .ok (some (schedule.window.closingOf (schedule.clock moment))) := if_pos h
  have hdelay : max 0 (schedule.remaining moment) = schedule.remaining moment :=
    max_eq_right (sub_nonneg.mpr hlt.le)
  rw [secondsUntilClose, hclose]
  exact congrArg (fun delay => Except.ok (some delay)) hdelay

/-! ### Changes of the offset -/

/-- Until the close of the day, the readings of the zone are in the window where those at the offset of the
moment are. -/
def OffsetKeepsWindow (moment : Datetime) : Prop :=
  ∀ t, moment ≤ t → t + schedule.zone moment ≤ schedule.window.closingOf (schedule.clock moment) →
    schedule.inWindow (t + schedule.zone t) = schedule.inWindow (t + schedule.zone moment)

theorem firstFails_iff (h : schedule.contains (.aware moment) = .ok true) :
    FirstFails (fun t => schedule.contains (.aware t) = .ok true) moment
        (moment + schedule.remaining moment) ↔ schedule.OffsetKeepsWindow moment := by
  simp only [schedule.contains_eq_ok_true_iff] at h ⊢
  have heven : ∀ t, schedule.clock moment + (t - moment) = t + schedule.zone moment := by
    intro t
    rw [clock]
    ring
  rw [remaining, schedule.window.firstFails_iff schedule.clock h]
  simp only [heven]
  rfl

theorem offsetKeepsWindow_of_fixed
    (hfixed : ∀ t, moment ≤ t → t + schedule.zone moment ≤ schedule.window.closingOf (schedule.clock moment) →
      schedule.zone t = schedule.zone moment) : schedule.OffsetKeepsWindow moment :=
  fun t hfrom hto => by rw [hfixed t hfrom hto]

/-- Where the clock was set back before the close, by no more than the window, the delay ends inside it. -/
theorem contains_of_set_back (h : schedule.contains (.aware moment) = .ok true) {lost : ℤ} (hlost : 0 < lost)
    (hle : lost ≤ schedule.finish.micros - schedule.start.micros)
    (hzone : schedule.zone (moment + schedule.remaining moment) = schedule.zone moment - lost) :
    schedule.contains (.aware (moment + schedule.remaining moment)) = .ok true := by
  rw [contains_eq_ok_true_iff] at h ⊢
  have hreading : schedule.clock (moment + schedule.remaining moment) =
      schedule.window.closingOf (schedule.clock moment) - lost := by
    rw [clock, hzone, remaining, clock]
    ring
  have hopening := schedule.start.nonneg
  have hclosing := schedule.finish.lt_day
  rw [hreading]
  refine (schedule.window.contains_of_day h ?_ ?_).mpr ⟨?_, ?_⟩ <;>
    simp only [DailyWindow.closingOf, window_opening, window_closing, window_period] <;> linarith

/-- Where the clock was set forward before the close, by no more than the time between it and midnight, the
window is left before the delay ends. -/
theorem not_contains_of_set_forward (h : schedule.contains (.aware moment) = .ok true) {gained : ℤ}
    (hle : gained ≤ day - schedule.finish.micros) {t : Datetime}
    (hbefore : t < moment + schedule.remaining moment) (hafter : moment + schedule.remaining moment ≤ t + gained)
    (hzone : schedule.zone t = schedule.zone moment + gained) :
    schedule.contains (.aware t) = .ok false := by
  rw [contains_eq_ok_true_iff] at h
  rw [contains_aware, Except.ok.injEq, ← Bool.not_eq_true]
  have hremaining : moment + schedule.remaining moment + schedule.zone moment =
      schedule.window.closingOf (schedule.clock moment) := by
    rw [remaining, clock]
    ring
  have hreading : schedule.clock t = t + schedule.zone moment + gained := by
    rw [clock, hzone, add_assoc]
  have hopening := schedule.start.nonneg
  have hlt := schedule.start_lt_finish
  have hclose : schedule.window.closingOf (schedule.clock moment) =
      schedule.clock moment / day * day + schedule.finish.micros := rfl
  rw [schedule.window.contains_of_day h ?_ ?_]
  · rintro ⟨-, hinside⟩
    linarith
  · rw [window_period]
    linarith
  · rw [window_period]
    linarith

end TradingSchedule

/-- While a session is open, in a zone that keeps the window, trading is disabled when entries cease to be
allowed. -/
theorem SessionManager.stop_on_time (manager : SessionManager) (hopen : manager.current.isSome = true)
    {now : Datetime} (hallowed : manager.entriesAllowed (.aware now) = .ok true)
    (hkeeps : manager.schedule.OffsetKeepsWindow now) :
    ∃ stop, manager.stopAtSessionClose now = .ok (some stop) ∧
      FirstFails (fun t => manager.entriesAllowed (.aware t) = .ok true) now stop := by
  have hcontains : ∀ t, manager.entriesAllowed t = manager.schedule.contains t := fun _ => if_pos hopen
  have hdelay : manager.secondsUntilClose (.aware now) = manager.schedule.secondsUntilClose (.aware now) :=
    if_pos hopen
  rw [hcontains] at hallowed
  refine ⟨now + manager.schedule.remaining now, ?_, ?_⟩
  · rw [stopAtSessionClose, hdelay, manager.schedule.secondsUntilClose_eq hallowed]
    rfl
  · simp only [hcontains]
    exact (manager.schedule.firstFails_iff hallowed).mpr hkeeps

/-- From a moment inside the window, the delay until the close ends at the first moment outside it exactly
when the offset of the zone keeps the window until the close. -/
theorem session_close_on_time_iff (schedule : TradingSchedule) (moment : Datetime)
    (hinside : schedule.contains (.aware moment) = .ok true) :
    ∃ delay, schedule.secondsUntilClose (.aware moment) = .ok (some delay) ∧
      (FirstFails (fun t => schedule.contains (.aware t) = .ok true) moment (moment + delay) ↔
        schedule.OffsetKeepsWindow moment) :=
  ⟨_, schedule.secondsUntilClose_eq hinside, schedule.firstFails_iff hinside⟩

/-! ### A day with a change of the clocks -/

/-- Every day from midnight to seven in the evening. -/
def allWeek (zone : ZoneOffset) : TradingSchedule where
  zone := zone
  start := ⟨0, le_rfl, by decide⟩
  finish := ⟨19 * hour, by decide, by decide⟩
  weekdays := {0, 1, 2, 3, 4, 5, 6}
  start_lt_finish := by decide

/-- Half past midnight, UTC, on Sunday the 29th of March 2026. -/
def marchNight : Datetime := 20541 * day + hour / 2

/-- London, in 2026 until October: from one in the night of the 29th of March on, one hour ahead of UTC. -/
def london : ZoneOffset := fun moment => if moment < 20541 * day + hour then 0 else hour

/-- In UTC the session closes at seven. -/
theorem utc_closes_at_seven : ∃ delay,
    (allWeek fun _ => 0).secondsUntilClose (.aware marchNight) = .ok (some delay) ∧
      FirstFails (fun t => (allWeek fun _ => 0).contains (.aware t) = .ok true) marchNight
        (marchNight + delay) := by
  obtain ⟨delay, hdelay, hiff⟩ := session_close_on_time_iff (allWeek fun _ => 0) marchNight rfl
  exact ⟨delay, hdelay, hiff.mpr ((allWeek fun _ => 0).offsetKeepsWindow_of_fixed fun _ _ _ => rfl)⟩

/-- In London the stop comes at eight, an hour after the close. -/
theorem london_stops_at_eight :
    (allWeek london).contains (.aware marchNight) = .ok true ∧
      (allWeek london).secondsUntilClose (.aware marchNight) = .ok (some (18 * hour + hour / 2)) ∧
      (allWeek london).contains (.aware (marchNight + (17 * hour + hour / 2))) = .ok false ∧
      ¬FirstFails (fun t => (allWeek london).contains (.aware t) = .ok true) marchNight
        (marchNight + (18 * hour + hour / 2)) := by
  have hseven : (allWeek london).contains (.aware (marchNight + (17 * hour + hour / 2))) = .ok false := by
    decide
  refine ⟨by decide, by decide, hseven, fun hfirst => ?_⟩
  have hinside : (allWeek london).contains (.aware (marchNight + (17 * hour + hour / 2))) = .ok true :=
    hfirst.2 _ (by decide) (by decide)
  exact absurd (hseven.symm.trans hinside) (by decide)

end CryptoTrading
