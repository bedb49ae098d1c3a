import CryptoTrading.Strategies.TrendDca
import Mathlib.Algebra.Order.Floor.Ring
import Mathlib.Data.Rat.Floor

/-! The walk-forward experiment on the slope of the EMA200: its windows, the slopes that are added to the
candles, and the threshold that a window takes from its training candles. -/

namespace CryptoTrading

open Kit

/-- What the experiment raises. -/
inductive WalkForwardError
  /-- "end must be greater than start" -/
  | endNotAfterStart
  /-- "Requested range is too short for one complete train/test walk-forward window" -/
  | rangeTooShort
  /-- "Cannot calculate percentile from empty values" -/
  | emptyPercentile
  /-- "Percentile q must be between 0 and 1" -/
  | percentileOutOfRange
  /-- "Window {index} has no baseline entry opportunities in TRAIN" -/
  | noOpportunities (index : ℕ)
  deriving DecidableEq

/-- A configuration that `__post_init__` accepts. -/
structure WalkForwardConfig where
  trainDays : ℤ := 180
  testDays : ℤ := 60
  stepDays : ℤ := 60
  initialBalance : Decimal := 500
  randomSeed : ℤ := 42
  trainDays_pos : 0 < trainDays := by decide
  testDays_pos : 0 < testDays := by decide
  stepDays_pos : 0 < stepDays := by decide
  initialBalance_pos : 0 < initialBalance := by decide +kernel

structure WalkForwardWindow where
  index : ℕ
  trainStart : Datetime
  trainEnd : Datetime
  testStart : Datetime
  testEnd : Datetime
  deriving DecidableEq

namespace WalkForwardConfig

variable (config : WalkForwardConfig)

/-- The window that starts at an anchor. -/
def windowAt (index : ℕ) (anchor : Datetime) : WalkForwardWindow :=
  let trainStart := anchor
  let trainEnd := trainStart + config.trainDays * day
  let testStart := trainEnd
  { index, trainStart, trainEnd, testStart, testEnd := testStart + config.testDays * day }

theorem windowAt_testEnd (index : ℕ) (anchor : Datetime) : (config.windowAt index anchor).testEnd =
    anchor + config.trainDays * day + config.testDays * day := rfl

theorem step_pos : 0 < config.stepDays * day := mul_pos config.stepDays_pos (by decide)

theorem window_pos : 0 < config.trainDays * day + config.testDays * day :=
  add_pos (mul_pos config.trainDays_pos (by decide)) (mul_pos config.testDays_pos (by decide))

/-- The windows from an anchor on, until one ends too late. -/
def windowsFrom (finish : Datetime) (index : ℕ) (anchor : Datetime) : List WalkForwardWindow :=
  if (config.windowAt index anchor).testEnd > finish then []
  else config.windowAt index anchor ::
    windowsFrom finish (index + 1) (anchor + config.stepDays * day)
termination_by (finish - anchor).toNat
decreasing_by
  rename_i hlate
  have hstep := config.step_pos
  have hlength := config.window_pos
  have hfits := not_lt.mp hlate
  rw [windowAt_testEnd] at hfits
  exact (Int.toNat_lt_toNat (by linarith)).mpr (by linarith)

/-- `generate_walk_forward_windows`. -/
def generateWindows (start finish : Datetime) : Except WalkForwardError (List WalkForwardWindow) :=
  if finish ≤ start then .error .endNotAfterStart
  else
    match config.windowsFrom finish 1 start with
    | [] => .error .rangeTooShort
    | windows => .ok windows

/-- The window at a position is that at its own anchor, if it ends in time. -/
theorem windowsFrom_getElem? (finish : Datetime) (index : ℕ) (anchor : Datetime) (k : ℕ)
    (window : WalkForwardWindow) :
    (config.windowsFrom finish index anchor)[k]? = some window ↔
      window = config.windowAt (index + k) (anchor + k * (config.stepDays * day)) ∧
        window.testEnd ≤ finish := by
  have hstep := config.step_pos
  induction k generalizing index anchor with
  | zero =>
    rw [windowsFrom]
    split
    · rename_i hlate
      simp only [List.getElem?_nil, Nat.cast_zero, zero_mul, add_zero]
      refine iff_of_false (fun h => by cases h) ?_
      rintro ⟨rfl, hfits⟩
      exact absurd hlate (not_lt.mpr hfits)
    · rename_i hfits
      simp only [List.getElem?_cons_zero, Option.some.injEq, Nat.cast_zero, zero_mul, add_zero]
      constructor
      · rintro rfl
        exact ⟨rfl, not_lt.mp hfits⟩
      · rintro ⟨rfl, -⟩
        rfl
  | succ k ih =>
    have hanchor : anchor + ((k + 1 : ℕ) : ℤ) * (config.stepDays * day) =
        anchor + config.stepDays * day + k * (config.stepDays * day) := by
      push_cast
      ring
    have hindex : index + (k + 1) = index + 1 + k := by omega
    rw [windowsFrom, hanchor, hindex]
    split
    · rename_i hlate
      -- A later window ends later still.
      refine iff_of_false (fun h => by cases h) ?_
      rintro ⟨rfl, hfits⟩
      have hlater : 0 ≤ (k : ℤ) * (config.stepDays * day) :=
        mul_nonneg (Int.natCast_nonneg k) hstep.le
      rw [windowAt_testEnd] at hlate hfits
      linarith
    · rw [List.getElem?_cons_succ]
      exact ih (index + 1) (anchor + config.stepDays * day)

/-- The windows are those that end in time, in order, and none is missing. -/
theorem generateWindows_ok {start finish : Datetime} {windows : List WalkForwardWindow}
    (h : config.generateWindows start finish = .ok windows) (k : ℕ) (window : WalkForwardWindow) :
    windows[k]? = some window ↔
      window = config.windowAt (k + 1) (start + k * (config.stepDays * day)) ∧
        window.testEnd ≤ finish := by
  unfold generateWindows at h
  split at h
  · cases h
  split at h
  · cases h
  · cases h
    rw [windowsFrom_getElem?, add_comm 1 k]

/-- There are windows when the first one ends in time. -/
theorem exists_generateWindows_iff (start finish : Datetime) :
    (∃ windows, config.generateWindows start finish = .ok windows) ↔
      (config.windowAt 1 start).testEnd ≤ finish := by
  have hlength := config.window_pos
  constructor
  · rintro ⟨windows, h⟩
    have hfirst := config.generateWindows_ok h 0
    unfold generateWindows at h
    split at h
    · cases h
    split at h
    · cases h
    · rename_i hsome
      cases h
      cases hwindows : config.windowsFrom finish 1 start with
      | nil => exact absurd hwindows hsome
      | cons window rest =>
        obtain ⟨rfl, hfits⟩ := (hfirst window).mp (by rw [hwindows]; rfl)
        simpa using hfits
  · intro hfits
    rw [windowAt_testEnd] at hfits
    rw [generateWindows, if_neg (by linarith), windowsFrom,
      if_neg (by rw [windowAt_testEnd]; exact not_lt.mpr hfits)]
    exact ⟨_, rfl⟩

end WalkForwardConfig

/-! ### The threshold of a window -/

/-- The indicators with the slope that `add_ema200_slope_10` adds. -/
structure SlopeIndicators extends StrategyIndicators where
  ema200Slope10 : Option Decimal
  deriving DecidableEq

/-- `_percentile`. -/
def percentile (values : List Decimal) (q : Decimal) : Except WalkForwardError Decimal :=
  if values.isEmpty then .error .emptyPercentile
  else if q < 0 ∨ q > 1 then .error .percentileOutOfRange
  else
    let ordered := values.mergeSort
    if ordered.length = 1 then .ok (ordered.getD 0 0)
    else
      let position := ((ordered.length - 1 : ℕ) : Decimal) * q
      let lower := ⌊position⌋.toNat
      let upper := min (lower + 1) (ordered.length - 1)
      let fraction := position - lower
      .ok (ordered.getD lower 0 + (ordered.getD upper 0 - ordered.getD lower 0) * fraction)

/-- The slope of the EMA200 at a candle, over ten of its values. -/
def ema200SlopeAt (candles : List (BacktestCandle StrategyIndicators)) (index : ℕ) : Option Decimal :=
  if 9 ≤ index then
    match candles[index]?.bind (·.indicators.ema200), candles[index - 9]?.bind (·.indicators.ema200) with
    | some current, some past => if past ≠ 0 then some ((current - past) / past) else none
    | _, _ => none
  else none

/-- A candle with the slope at its index. -/
def withSlope (candles : List (BacktestCandle StrategyIndicators))
    (item : BacktestCandle StrategyIndicators × ℕ) : BacktestCandle SlopeIndicators :=
  { item.1 with
    indicators :=
      { toStrategyIndicators := item.1.indicators
        ema200Slope10 := ema200SlopeAt candles item.2 } }

/-- `add_ema200_slope_10`. -/
def addEma200Slope10 (candles : List (BacktestCandle StrategyIndicators)) :
    List (BacktestCandle SlopeIndicators) :=
  candles.zipIdx.map (withSlope candles)

/-- `_is_baseline_entry_opportunity`. -/
def isBaselineEntryOpportunity (candle : BacktestCandle SlopeIndicators) : Bool :=
  let indicators := candle.indicators
  match indicators.ema200, indicators.ema50, indicators.rsi, indicators.regime,
    indicators.ema200Slope10 with
  | some ema200, some ema50, some rsi, some regime, some _ =>
    decide (regime = trendUp) && !(decide (candle.close ≤ ema200) || decide (ema50 ≤ ema200) ||
      decide (rsi > 45)) && !(indicators.volatility.any fun volatility => decide (volatility > 8 / 10))
  | _, _, _, _, _ => false

/-- `derive_train_p75_threshold`. -/
def deriveTrainP75Threshold (candles : List (BacktestCandle SlopeIndicators))
    (window : WalkForwardWindow) : Except WalkForwardError (Decimal × ℕ) :=
  let opportunities := candles.filter fun candle =>
    decide (window.trainStart ≤ candle.openTime ∧ candle.openTime < window.trainEnd) &&
      isBaselineEntryOpportunity candle
  let slopes := opportunities.filterMap fun candle => candle.indicators.ema200Slope10
  if slopes.isEmpty then .error (.noOpportunities window.index)
  else (percentile slopes (3 / 4)).map fun threshold => (threshold, slopes.length)

/-- `TrendDCAEMA200SlopeP75Strategy`: the base order waits for a slope that is not below the
threshold. -/
def slopeP75Strategy (strategy : StrategyIdentity) (threshold : Decimal) :
    SignalStrategy TrendDCAState SlopeIndicators :=
  let strategy := { strategy with
    config := { parametersVersion := "trend_dca_v1_ema200_slope_train_p75" } }
  let baseline := trendDCAStrategy strategy
  let plain (candle : BacktestCandle SlopeIndicators) : BacktestCandle StrategyIndicators :=
    { candle with indicators := candle.indicators.toStrategyIndicators }
  { baseline with
    shouldEnter := fun state candle indicators entry =>
      match indicators.ema200Slope10 with
      | none => .ok (state, none)
      | some slope =>
        if slope < threshold then .ok (state, none)
        else baseline.shouldEnter state (plain candle) indicators.toStrategyIndicators entry
    shouldExit := fun state candle indicators position =>
      baseline.shouldExit state (plain candle) indicators.toStrategyIndicators position
    shouldAddDca := fun state candle indicators position =>
      baseline.shouldAddDca state (plain candle) indicators.toStrategyIndicators position }

/-- The strategy that a window is tested with. -/
def windowStrategy (strategy : StrategyIdentity)
    (candles : List (BacktestCandle StrategyIndicators)) (window : WalkForwardWindow) :
    Except WalkForwardError (SignalStrategy TrendDCAState SlopeIndicators) :=
  (deriveTrainP75Threshold (addEma200Slope10 candles) window).map fun derived =>
    slopeP75Strategy strategy derived.1

/-! ### What the threshold reads -/

/-- In the order of time, what is before a moment comes first. -/
theorem eq_filter_append_filter {α : Type} (time : α → Datetime) (cutoff : Datetime) {list : List α}
    (hordered : list.Pairwise fun a b => time a ≤ time b) :
    list = (list.filter fun a => decide (time a < cutoff)) ++
      list.filter fun a => !decide (time a < cutoff) := by
  induction list with
  | nil => rfl
  | cons a rest ih =>
    obtain ⟨hfirst, hrest⟩ := List.pairwise_cons.mp hordered
    by_cases hbefore : time a < cutoff
    · simp only [List.filter_cons, hbefore, decide_true, Bool.not_true, if_true,
        Bool.false_eq_true, if_false, List.cons_append]
      exact congrArg (a :: ·) (ih hrest)
    · have hnone : ((a :: rest).filter fun a => decide (time a < cutoff)) = [] := by
        refine List.filter_eq_nil_iff.mpr fun b hb => ?_
        rw [decide_eq_true_eq, not_lt]
        rcases List.mem_cons.mp hb with rfl | hb
        · exact not_lt.mp hbefore
        · exact (not_lt.mp hbefore).trans (hfirst b hb)
      have hall : ((a :: rest).filter fun a => !decide (time a < cutoff)) = a :: rest := by
        refine List.filter_eq_self.mpr fun b hb => ?_
        have hb' := List.filter_eq_nil_iff.mp hnone b hb
        simpa using hb'
      rw [hnone, hall, List.nil_append]

section Causal

variable {first second before after : List (BacktestCandle StrategyIndicators)}
  {window : WalkForwardWindow}

theorem ema200SlopeAt_append {index : ℕ} (h : index < before.length) :
    ema200SlopeAt (before ++ after) index = ema200SlopeAt before index := by
  have hpast : index - 9 < before.length := by omega
  rw [ema200SlopeAt, List.getElem?_append_left h, List.getElem?_append_left hpast]
  rfl

theorem addEma200Slope10_append : addEma200Slope10 (before ++ after) =
    addEma200Slope10 before ++ (after.zipIdx before.length).map (withSlope (before ++ after)) := by
  rw [addEma200Slope10, List.zipIdx_append, List.map_append, Nat.zero_add]
  congr 1
  refine List.map_congr_left fun item hitem => ?_
  have hindex : item.2 < before.length := by
    have hmem := List.mem_zipIdx hitem
    omega
  rw [withSlope, ema200SlopeAt_append hindex]
  rfl

/-- The threshold of a window reads no candle from the end of its training on. -/
theorem deriveTrainP75Threshold_append (hlater : ∀ candle ∈ after, window.trainEnd ≤ candle.openTime) :
    deriveTrainP75Threshold (addEma200Slope10 (before ++ after)) window =
      deriveTrainP75Threshold (addEma200Slope10 before) window := by
  have hnone : (((after.zipIdx before.length).map (withSlope (before ++ after))).filter fun candle =>
      decide (window.trainStart ≤ candle.openTime ∧ candle.openTime < window.trainEnd) &&
        isBaselineEntryOpportunity candle) = [] := by
    refine List.filter_eq_nil_iff.mpr fun candle hcandle => ?_
    obtain ⟨item, hitem, rfl⟩ := List.mem_map.mp hcandle
    have hlate := hlater item.1 (List.fst_mem_of_mem_zipIdx hitem)
    have htime : (withSlope (before ++ after) item).openTime = item.1.openTime := rfl
    rw [htime, Bool.and_eq_true, decide_eq_true_eq]
    rintro ⟨⟨-, hearly⟩, -⟩
    exact absurd hlate (not_le.mpr hearly)
  simp only [deriveTrainP75Threshold, addEma200Slope10_append, List.filter_append, hnone,
    List.append_nil]

/-- Histories that agree before the end of a window's training have one threshold in it. -/
theorem deriveTrainP75Threshold_congr
    (hfirst : first.Pairwise fun a b => a.openTime ≤ b.openTime)
    (hsecond : second.Pairwise fun a b => a.openTime ≤ b.openTime)
    (hagree : (first.filter fun candle => decide (candle.openTime < window.trainEnd)) =
      second.filter fun candle => decide (candle.openTime < window.trainEnd)) :
    deriveTrainP75Threshold (addEma200Slope10 first) window =
      deriveTrainP75Threshold (addEma200Slope10 second) window := by
  have hlater : ∀ list : List (BacktestCandle StrategyIndicators),
      ∀ candle ∈ list.filter (fun candle => !decide (candle.openTime < window.trainEnd)),
        window.trainEnd ≤ candle.openTime := by
    intro list candle hcandle
    simpa using (List.mem_filter.mp hcandle).2
  rw [eq_filter_append_filter BacktestCandle.openTime window.trainEnd hfirst,
    deriveTrainP75Threshold_append (hlater first), hagree,
    ← deriveTrainP75Threshold_append (hlater second),
    ← eq_filter_append_filter BacktestCandle.openTime window.trainEnd hsecond]

end Causal

/-- The windows are those that end in time, in order, with none missing, and there are some when the
first ends in time; and what the candles are from the end of a window's training on changes neither its
threshold nor the strategy that it is tested with. -/
theorem walk_forward_no_leakage (config : WalkForwardConfig) (start finish : Datetime) :
    (∀ windows, config.generateWindows start finish = .ok windows → ∀ k window,
        windows[k]? = some window ↔
          window = config.windowAt (k + 1) (start + k * (config.stepDays * day)) ∧
            window.testEnd ≤ finish) ∧
      ((∃ windows, config.generateWindows start finish = .ok windows) ↔
        (config.windowAt 1 start).testEnd ≤ finish) ∧
      ∀ (window : WalkForwardWindow) (first second : List (BacktestCandle StrategyIndicators)),
        (first.Pairwise fun a b => a.openTime ≤ b.openTime) →
        (second.Pairwise fun a b => a.openTime ≤ b.openTime) →
        ((first.filter fun candle => decide (candle.openTime < window.trainEnd)) =
          second.filter fun candle => decide (candle.openTime < window.trainEnd)) →
        deriveTrainP75Threshold (addEma200Slope10 first) window =
            deriveTrainP75Threshold (addEma200Slope10 second) window ∧
          ∀ strategy, windowStrategy strategy first window = windowStrategy strategy second window := by
  refine ⟨fun windows h k window => config.generateWindows_ok h k window,
    config.exists_generateWindows_iff start finish,
    fun window first second hfirst hsecond hagree => ?_⟩
  have hderived := deriveTrainP75Threshold_congr hfirst hsecond hagree
  refine ⟨hderived, fun strategy => ?_⟩
  rw [windowStrategy, hderived, windowStrategy]

end CryptoTrading
