import CryptoTrading.Kit.Dict
import CryptoTrading.Kit.Progression
import CryptoTrading.Models

/-! The monitor of the candles that come in: how late one is, and how many its stream has skipped.  Of each
stream the monitor keeps no more than the latest time. -/

namespace CryptoTrading

open Kit

inductive MarketHealthStatus
  | ok
  | warning
  | critical
  deriving DecidableEq

structure MarketHealthResult where
  status : MarketHealthStatus
  lag : ℤ
  missingIntervals : ℕ
  tradingEnabled : Bool
  deriving DecidableEq

/-- What the constructor accepts: "warning threshold must be below critical threshold". -/
structure MarketThresholds where
  warningAfter : ℤ
  criticalAfter : ℤ
  ordered : warningAfter < criticalAfter

structure MarketHealthMonitor where
  thresholds : MarketThresholds
  lastCandle : Dict (String × String) Datetime := .empty

/-- The arguments of `check`, with the time that it takes for now. -/
structure MarketCheck where
  symbol : String
  interval : String
  candleTime : Datetime
  now : Datetime
  expectedInterval : Option ℤ := none

namespace MarketCheck

def key (check : MarketCheck) : String × String := (check.symbol, check.interval)

def lag (check : MarketCheck) : ℤ := max 0 (check.now - check.candleTime)

/-- `missing`, after a candle of the stream at `previous`. -/
def missing (check : MarketCheck) (previous : Option Datetime) : ℕ :=
  match previous, check.expectedInterval with
  | some previous, some step =>
    if 0 < step then ((check.candleTime - previous).tdiv step - 1).toNat else 0
  | _, _ => 0

end MarketCheck

namespace MarketHealthMonitor

variable (monitor : MarketHealthMonitor)

/-- `self._last_candle` after a candle. -/
def seen (check : MarketCheck) : MarketHealthMonitor :=
  if (monitor.lastCandle.get? check.key).all fun previous => decide (previous < check.candleTime) then
    { monitor with lastCandle := monitor.lastCandle.set check.key check.candleTime }
  else monitor

def check (check : MarketCheck) : MarketHealthResult × MarketHealthMonitor :=
  let missing := check.missing (monitor.lastCandle.get? check.key)
  let status : MarketHealthStatus :=
    if monitor.thresholds.criticalAfter < check.lag ∨ missing ≠ 0 then .critical
    else if monitor.thresholds.warningAfter ≤ check.lag then .warning
    else .ok
  (⟨status, check.lag, missing, decide (status ≠ .critical)⟩, monitor.seen check)

/-- A call of a run: the monitor, and the results so far. -/
def record (state : MarketHealthMonitor × List (MarketCheck × MarketHealthResult)) (check : MarketCheck) :
    MarketHealthMonitor × List (MarketCheck × MarketHealthResult) :=
  ((state.1.check check).2, state.2 ++ [(check, (state.1.check check).1)])

/-- The calls of `check` on a new monitor, one after another. -/
def run (thresholds : MarketThresholds) (checks : List MarketCheck) :
    MarketHealthMonitor × List (MarketCheck × MarketHealthResult) :=
  checks.foldl record ({ thresholds }, [])

end MarketHealthMonitor

/-! ### What is kept of a stream -/

/-- The latest candle of these calls. -/
def latestCandle (checks : List MarketCheck) : Option Datetime := (checks.map MarketCheck.candleTime).max?

/-- The calls for a stream. -/
def ofStream (key : String × String) (checks : List MarketCheck) : List MarketCheck :=
  checks.filter fun check => decide (check.key = key)

/-- The call comes a step or more after a moment on the grid of the latest candle before it. -/
def MarketCheck.Skips (check : MarketCheck) (before : List MarketCheck) (moment : Datetime) : Prop :=
  ∃ previous ∈ latestCandle before, ∃ step ∈ check.expectedInterval,
    0 < step ∧ step ∣ moment - previous ∧ previous < moment ∧ moment + step ≤ check.candleTime

/-- The moments that a call skips. -/
def MarketCheck.skipped (check : MarketCheck) (before : List MarketCheck) : List Datetime :=
  match latestCandle before, check.expectedInterval with
  | some previous, some step => progression (previous + step) step (check.missing (some previous))
  | _, _ => []

section Streams

variable {thresholds : MarketThresholds} {checks before : List MarketCheck} {check : MarketCheck}
  {key : String × String} {moment : Datetime}

theorem latestCandle_concat (checks : List MarketCheck) (check : MarketCheck) :
    latestCandle (checks ++ [check]) =
      some ((latestCandle checks).elim check.candleTime fun latest => max latest check.candleTime) := by
  unfold latestCandle
  cases checks with
  | nil => simp
  | cons first rest =>
    rw [List.cons_append, List.map_cons, List.map_cons, List.max?_cons', List.max?_cons', List.map_append,
      List.foldl_append]
    rfl

theorem le_latestCandle {latest : Datetime} (h : latestCandle checks = some latest) :
    ∀ check ∈ checks, check.candleTime ≤ latest := by
  intro check hcheck
  exact (List.max?_eq_some_iff.mp h).2 _ (List.mem_map_of_mem hcheck)

@[simp] theorem ofStream_concat (key : String × String) (checks : List MarketCheck) (check : MarketCheck) :
    ofStream key (checks ++ [check]) =
      if check.key = key then ofStream key checks ++ [check] else ofStream key checks := by
  by_cases h : check.key = key <;> simp [ofStream, h]

theorem run_concat (thresholds : MarketThresholds) (checks : List MarketCheck) (check : MarketCheck) :
    MarketHealthMonitor.run thresholds (checks ++ [check]) =
      MarketHealthMonitor.record (MarketHealthMonitor.run thresholds checks) check := by
  simp [MarketHealthMonitor.run]

/-- The monitor keeps the latest candle of each stream. -/
theorem lastCandle_run (thresholds : MarketThresholds) (checks : List MarketCheck) (key : String × String) :
    (MarketHealthMonitor.run thresholds checks).1.lastCandle.get? key = latestCandle (ofStream key checks) := by
  induction checks using List.reverseRecOn with
  | nil => rfl
  | append_singleton checks check ih =>
    rw [run_concat, ofStream_concat]
    show ((MarketHealthMonitor.run thresholds checks).1.seen check).lastCandle.get? key = _
    unfold MarketHealthMonitor.seen
    by_cases hkey : check.key = key
    · subst hkey
      rw [ih, if_pos rfl, latestCandle_concat]
      cases hlatest : latestCandle (ofStream check.key checks) with
      | none => simp
      | some latest =>
        by_cases hlater : latest < check.candleTime
        · simp [hlater, max_eq_right hlater.le]
        · simp [hlater, ih, hlatest, max_eq_left (not_lt.mp hlater)]
    · rw [if_neg hkey]
      split
      · simp [Dict.get?_set, hkey, ih]
      · exact ih

theorem thresholds_run (thresholds : MarketThresholds) (checks : List MarketCheck) :
    (MarketHealthMonitor.run thresholds checks).1.thresholds = thresholds := by
  induction checks using List.reverseRecOn with
  | nil => rfl
  | append_singleton checks check ih =>
    rw [run_concat]
    show ((MarketHealthMonitor.run thresholds checks).1.seen check).thresholds = thresholds
    unfold MarketHealthMonitor.seen
    split <;> exact ih

theorem results_run (thresholds : MarketThresholds) (checks : List MarketCheck) :
    (MarketHealthMonitor.run thresholds checks).2.map Prod.fst = checks := by
  induction checks using List.reverseRecOn with
  | nil => rfl
  | append_singleton checks check ih =>
    rw [run_concat]
    simp [MarketHealthMonitor.record, ih]

theorem skipped_eq {previous : Datetime} {step : ℤ} (hprevious : latestCandle before = some previous)
    (hstep : check.expectedInterval = some step) (hpos : 0 < step) : check.skipped before =
      progression (previous + step) step ((check.candleTime - previous).tdiv step - 1).toNat := by
  simp only [MarketCheck.skipped, MarketCheck.missing, hprevious, hstep, if_pos hpos]

theorem skipped_eq_nil (h : ∀ previous ∈ latestCandle before, ∀ step ∈ check.expectedInterval, ¬0 < step) :
    check.skipped before = [] := by
  unfold MarketCheck.skipped
  split
  · rename_i previous step hprevious hstep
    simp only [MarketCheck.missing, hstep, if_neg (h previous hprevious step hstep)]
    rfl
  · rfl

theorem skipped_cases (check : MarketCheck) (before : List MarketCheck) :
    (∃ previous step, latestCandle before = some previous ∧ check.expectedInterval = some step ∧ 0 < step) ∨
      ∀ previous ∈ latestCandle before, ∀ step ∈ check.expectedInterval, ¬0 < step := by
  by_cases h : ∃ previous step, latestCandle before = some previous ∧ check.expectedInterval = some step ∧
      0 < step
  · exact .inl h
  · exact .inr fun previous hprevious step hstep hpos => h ⟨previous, step, hprevious, hstep, hpos⟩

theorem mem_skipped_iff : moment ∈ check.skipped before ↔ check.Skips before moment := by
  rcases skipped_cases check before with ⟨previous, step, hprevious, hstep, hpos⟩ | hnone
  · rw [skipped_eq hprevious hstep hpos, mem_progression_between hpos]
    simp [MarketCheck.Skips, hprevious, hstep, hpos]
  · rw [skipped_eq_nil hnone]
    refine iff_of_false List.not_mem_nil ?_
    rintro ⟨previous, hprevious, step, hstep, hpos, -⟩
    exact hnone previous hprevious step hstep hpos

theorem nodup_skipped (check : MarketCheck) (before : List MarketCheck) : (check.skipped before).Nodup := by
  rcases skipped_cases check before with ⟨previous, step, hprevious, hstep, hpos⟩ | hnone
  · rw [skipped_eq hprevious hstep hpos]
    exact nodup_progression hpos
  · rw [skipped_eq_nil hnone]
    exact List.nodup_nil

theorem missing_eq_length (check : MarketCheck) (before : List MarketCheck) :
    check.missing (latestCandle before) = (check.skipped before).length := by
  unfold MarketCheck.skipped
  split
  · rename_i previous step hprevious hstep
    rw [hprevious, length_progression]
  · rename_i hnone
    unfold MarketCheck.missing
    split
    · exact absurd (hnone _ _ ‹_› ‹_›) id
    · rfl

/-- What a call skips is later than every candle before it. -/
theorem MarketCheck.Skips.lt (h : check.Skips before moment) : ∀ other ∈ before, other.candleTime < moment := by
  obtain ⟨previous, hprevious, -, -, -, -, hlt, -⟩ := h
  exact fun other hother => (le_latestCandle hprevious other hother).trans_lt hlt

theorem MarketCheck.Skips.lt_candleTime (h : check.Skips before moment) : moment < check.candleTime := by
  obtain ⟨previous, -, step, -, hpos, -, -, hle⟩ := h
  exact (lt_add_of_pos_right moment hpos).trans_le hle

theorem skips_concat_iff (own : List MarketCheck) (last : MarketCheck) :
    (∃ before check after, own ++ [last] = before ++ check :: after ∧ check.Skips before moment) ↔
      (∃ before check after, own = before ++ check :: after ∧ check.Skips before moment) ∨
        last.Skips own moment := by
  constructor
  · rintro ⟨before, check, after, heq, hskips⟩
    rcases List.eq_nil_or_concat after with rfl | ⟨rest, final, rfl⟩
    · obtain ⟨rfl, hlast⟩ := List.append_inj' heq rfl
      cases hlast
      exact .inr hskips
    · rw [List.concat_eq_append, ← List.cons_append, ← List.append_assoc] at heq
      obtain ⟨rfl, -⟩ := List.append_inj' heq rfl
      exact .inl ⟨before, check, rest, rfl, hskips⟩
  · rintro (⟨before, check, after, rfl, hskips⟩ | hskips)
    · exact ⟨before, check, after ++ [last], by simp, hskips⟩
    · exact ⟨own, last, [], rfl, hskips⟩

end Streams

/-! ### What is reported -/

/-- The missing intervals that the results of a stream report. -/
def missingOf (key : String × String) (results : List (MarketCheck × MarketHealthResult)) : ℕ :=
  ((results.filter fun item => decide (item.1.key = key)).map fun item => item.2.missingIntervals).sum

theorem missingOf_concat (key : String × String) (results : List (MarketCheck × MarketHealthResult))
    (item : MarketCheck × MarketHealthResult) : missingOf key (results ++ [item]) =
      missingOf key results + if item.1.key = key then item.2.missingIntervals else 0 := by
  by_cases h : item.1.key = key <;> simp [missingOf, h]

/-- The missing intervals are the moments that were skipped. -/
theorem missingOf_run (thresholds : MarketThresholds) (checks : List MarketCheck) (key : String × String) :
    ∃ skipped : List Datetime, skipped.Nodup ∧
      missingOf key (MarketHealthMonitor.run thresholds checks).2 = skipped.length ∧
      ∀ moment, moment ∈ skipped ↔ ∃ before check after, ofStream key checks = before ++ check :: after ∧
        check.Skips before moment := by
  induction checks using List.reverseRecOn with
  | nil => exact ⟨[], List.nodup_nil, rfl, fun moment => by simp [ofStream]⟩
  | append_singleton checks last ih =>
    obtain ⟨skipped, hnodup, hlength, hmem⟩ := ih
    have hmissing : (last.missing ((MarketHealthMonitor.run thresholds checks).1.lastCandle.get? last.key)) =
        (last.skipped (ofStream last.key checks)).length := by
      rw [lastCandle_run, missing_eq_length]
    rw [run_concat, ofStream_concat]
    show ∃ skipped : List Datetime, _ ∧ missingOf key ((MarketHealthMonitor.run thresholds checks).2 ++ _) = _ ∧ _
    rw [missingOf_concat, hlength]
    by_cases hkey : last.key = key
    · subst hkey
      rw [if_pos rfl, if_pos rfl]
      refine ⟨skipped ++ last.skipped (ofStream last.key checks), ?_, ?_, fun moment => ?_⟩
      · rw [List.nodup_append]
        refine ⟨hnodup, nodup_skipped _ _, fun first hfirst second hsecond heq => ?_⟩
        -- What was skipped before is earlier than a candle that has come.
        subst heq
        obtain ⟨before, check, after, hown, hskips⟩ := (hmem first).mp hfirst
        have hlater := (mem_skipped_iff.mp hsecond).lt check (by rw [hown]; simp)
        exact lt_asymm hlater hskips.lt_candleTime
      · rw [List.length_append, ← hmissing]
        rfl
      · rw [List.mem_append, hmem, mem_skipped_iff, skips_concat_iff]
    · rw [if_neg hkey, if_neg hkey]
      exact ⟨skipped, hnodup, rfl, hmem⟩

/-- The result of a call is told by the calls before it. -/
theorem getElem?_run (thresholds : MarketThresholds) (before after : List MarketCheck) (check : MarketCheck) :
    (MarketHealthMonitor.run thresholds (before ++ check :: after)).2[before.length]? =
      some (check, ((MarketHealthMonitor.run thresholds before).1.check check).1) := by
  have hlength (checks : List MarketCheck) : (MarketHealthMonitor.run thresholds checks).2.length =
      checks.length := by
    rw [← List.length_map (f := Prod.fst), results_run]
  induction after using List.reverseRecOn with
  | nil =>
    rw [run_concat]
    simp [MarketHealthMonitor.record, ← hlength before]
  | append_singleton after last ih =>
    rw [← List.cons_append, ← List.append_assoc, run_concat]
    show ((MarketHealthMonitor.run thresholds (before ++ check :: after)).2 ++ _)[before.length]? = _
    rw [List.getElem?_append_left, ih]
    rw [hlength]
    simp

theorem tradingEnabled_check_iff (monitor : MarketHealthMonitor) (check : MarketCheck) :
    (monitor.check check).1.tradingEnabled = true ↔ check.lag ≤ monitor.thresholds.criticalAfter ∧
      check.missing (monitor.lastCandle.get? check.key) = 0 := by
  simp only [MarketHealthMonitor.check, decide_eq_true_eq]
  split
  · rename_i hcritical
    refine iff_of_false (fun h => h rfl) fun h => ?_
    exact hcritical.elim (fun hlag => absurd h.1 (not_le.mpr hlag)) fun hmissing => hmissing h.2
  · rename_i hfine
    rw [not_or, not_lt, not_not] at hfine
    refine iff_of_true ?_ hfine
    split <;> exact fun h => by cases h

/-- Over a run of checks, in which the candles of any streams come in any order, the missing intervals that
are reported for a stream are as many moments: those on the grid of its latest candle that a still later
candle came a step or more after.  That such a candle comes later takes none back.  Trading is enabled by a
check exactly when its candle is not too late and skips nothing. -/
theorem market_health_reported (thresholds : MarketThresholds) (checks : List MarketCheck) :
    (∀ key, ∃ skipped : List Datetime, skipped.Nodup ∧
      missingOf key (MarketHealthMonitor.run thresholds checks).2 = skipped.length ∧
      ∀ moment, moment ∈ skipped ↔ ∃ before check after, ofStream key checks = before ++ check :: after ∧
        check.Skips before moment) ∧
    ∀ before check after, checks = before ++ check :: after →
      ∃ result, (MarketHealthMonitor.run thresholds checks).2[before.length]? = some (check, result) ∧
        (result.tradingEnabled = true ↔ check.lag ≤ thresholds.criticalAfter ∧
          ∀ moment, ¬check.Skips (ofStream check.key before) moment) := by
  refine ⟨missingOf_run thresholds checks, ?_⟩
  rintro before check after rfl
  refine ⟨_, getElem?_run thresholds before after check, ?_⟩
  rw [tradingEnabled_check_iff, thresholds_run, lastCandle_run, missing_eq_length, List.length_eq_zero_iff,
    List.eq_nil_iff_forall_not_mem]
  simp only [mem_skipped_iff]

end CryptoTrading
