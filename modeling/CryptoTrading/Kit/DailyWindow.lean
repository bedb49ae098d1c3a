import Mathlib.Algebra.Order.Ring.Int
import Mathlib.Tactic.Linarith

/-! A window of time on each allowed day, as a clock reads it.  A clock that ticks evenly leaves the window
first at its closing.  Any other clock does so too exactly when it agrees with the even one, until the
closing, on which readings are inside. -/

namespace CryptoTrading.Kit

/-- A window of the days of `period` ticks that are allowed. -/
structure DailyWindow where
  period : ℤ
  opening : ℤ
  closing : ℤ
  allowed : ℤ → Bool
  opening_nonneg : 0 ≤ opening
  opening_lt_closing : opening < closing
  closing_lt_period : closing < period

/-- The moment is the first from `start` on at which `P` fails. -/
def FirstFails (P : ℤ → Prop) (start moment : ℤ) : Prop :=
  ¬P moment ∧ ∀ t, start ≤ t → t < moment → P t

namespace DailyWindow

variable (window : DailyWindow) {reading : ℤ}

def contains (reading : ℤ) : Bool :=
  window.allowed (reading / window.period) &&
    decide (window.opening ≤ reading % window.period ∧ reading % window.period < window.closing)

/-- The closing of the day of a reading. -/
def closingOf (reading : ℤ) : ℤ := reading / window.period * window.period + window.closing

theorem contains_iff : window.contains reading = true ↔
    window.allowed (reading / window.period) = true ∧ window.opening ≤ reading % window.period ∧
      reading % window.period < window.closing := by
  rw [contains, Bool.and_eq_true, decide_eq_true_eq]

theorem period_pos : 0 < window.period :=
  (window.opening_nonneg.trans_lt window.opening_lt_closing).trans window.closing_lt_period

/-- A reading from the same midnight on, before the next one, has the same day. -/
theorem div_eq {other : ℤ} (hfrom : reading / window.period * window.period ≤ other)
    (hto : other < reading / window.period * window.period + window.period) :
    other / window.period = reading / window.period :=
  (Int.ediv_eq_iff_of_pos window.period_pos).mpr ⟨hfrom, hto⟩

/-- Of the readings of the day of one inside, those from the opening to the closing are inside. -/
theorem contains_of_day (h : window.contains reading = true) {other : ℤ}
    (hfrom : reading / window.period * window.period ≤ other)
    (hto : other < reading / window.period * window.period + window.period) :
    window.contains other = true ↔
      reading / window.period * window.period + window.opening ≤ other ∧ other < window.closingOf reading := by
  have hday := window.div_eq hfrom hto
  have hmod := Int.emod_def other window.period
  rw [hday, mul_comm] at hmod
  have hallowed := (window.contains_iff.mp h).1
  rw [contains_iff, hday, hmod, closingOf]
  constructor
  · rintro ⟨-, hopen, hclose⟩
    exact ⟨by linarith, by linarith⟩
  · rintro ⟨hopen, hclose⟩
    exact ⟨hallowed, by linarith, by linarith⟩

theorem mem_day (h : window.contains reading = true) :
    reading / window.period * window.period + window.opening ≤ reading ∧
      reading < window.closingOf reading := by
  have hmod := Int.emod_def reading window.period
  obtain ⟨-, hopen, hclose⟩ := window.contains_iff.mp h
  rw [mul_comm] at hmod
  rw [closingOf]
  exact ⟨by linarith, by linarith⟩

/-- An even clock is inside until the closing. -/
theorem contains_later (h : window.contains reading = true) {later : ℤ} (hfrom : reading ≤ later)
    (hto : later ≤ window.closingOf reading) :
    window.contains later = true ↔ later < window.closingOf reading := by
  have hmem := window.mem_day h
  have hopening := window.opening_nonneg
  have hclosing := window.closing_lt_period
  have hclose : window.closingOf reading = reading / window.period * window.period + window.closing := rfl
  rw [window.contains_of_day h (by linarith) (by linarith)]
  exact ⟨And.right, fun hlt => ⟨by linarith, hlt⟩⟩

/-- A clock leaves the window first after as many ticks as its reading is before the closing, exactly when
until then it is inside where an even clock is. -/
theorem firstFails_iff (clock : ℤ → ℤ) {start : ℤ} (h : window.contains (clock start) = true) :
    FirstFails (fun t => window.contains (clock t) = true) start
        (start + (window.closingOf (clock start) - clock start)) ↔
      ∀ t, start ≤ t → clock start + (t - start) ≤ window.closingOf (clock start) →
        window.contains (clock t) = window.contains (clock start + (t - start)) := by
  have hlt := (window.mem_day h).2
  have heven : ∀ t, start ≤ t → clock start + (t - start) ≤ window.closingOf (clock start) →
      (window.contains (clock start + (t - start)) = true ↔
        t < start + (window.closingOf (clock start) - clock start)) := by
    intro t hfrom hto
    rw [window.contains_later h (by linarith) hto]
    constructor <;> intro hbefore <;> linarith
  constructor
  · rintro ⟨hleft, hinside⟩ t hfrom hto
    rw [Bool.eq_iff_iff, heven t hfrom hto]
    refine ⟨fun hcontains => ?_, hinside t hfrom⟩
    refine lt_of_le_of_ne (by linarith) fun heq => hleft ?_
    rw [← heq]
    exact hcontains
  · intro hagree
    refine ⟨fun hcontains => ?_, fun t hfrom hbefore => ?_⟩
    · have hto : clock start + (start + (window.closingOf (clock start) - clock start) - start) ≤
          window.closingOf (clock start) := by linarith
      exact lt_irrefl _ ((heven _ (by linarith) hto).mp ((hagree _ (by linarith) hto).symm.trans hcontains))
    · have hto : clock start + (t - start) ≤ window.closingOf (clock start) := by linarith
      exact (hagree t hfrom hto).trans ((heven t hfrom hto).mpr hbefore)

end DailyWindow

end CryptoTrading.Kit
