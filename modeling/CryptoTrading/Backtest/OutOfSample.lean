import CryptoTrading.Backtest.WalkForward
import CryptoTrading.Kit.Fallible
import CryptoTrading.Kit.Progression

/-! The walk-forward runner with fixed parameters: every test window is a backtest of its own, over the
candles of the window, and the totals are sums over the windows.  A configuration is accepted whatever the
step is against the length of a test, so that one window may begin before the last one has ended. -/

namespace CryptoTrading

open Kit

/-- What the runner raises. -/
inductive OutOfSampleError
  | windows (error : WalkForwardError)
  /-- "Unsupported interval: {interval}" -/
  | unsupportedInterval (interval : String)
  /-- "Incomplete test window {index}: expected={expected} actual={actual}" -/
  | incompleteWindow (index : ℕ) (expected : ℤ) (actual : ℕ)
  /-- "Time gap in test window {index}: {previous} -> {current}" -/
  | timeGap (index : ℕ) (previous current : Datetime)
  | backtest (error : BacktestError)
  deriving DecidableEq

/-- `_INTERVAL_SECONDS`. -/
def testIntervals : List (String × ℤ) :=
  [("5m", 5 * 60), ("15m", 15 * 60), ("1h", 60 * 60), ("4h", 4 * 60 * 60), ("1d", 24 * 60 * 60)]

structure WalkForwardWindowResult where
  window : WalkForwardWindow
  candleCount : ℕ
  initialBalance : Decimal
  finalEquity : Decimal
  totalPnl : Decimal
  totalTrades : ℕ
  winningTrades : ℕ
  losingTrades : ℕ
  winRate : Decimal
  profitFactor : Decimal
  maxDrawdown : Decimal
  deriving DecidableEq

structure WalkForwardResult where
  symbol : String
  interval : String
  config : WalkForwardConfig
  windows : List WalkForwardWindowResult
  totalOosPnl : Decimal
  profitableWindows : ℕ
  losingWindows : ℕ
  flatWindows : ℕ
  totalOosTrades : ℕ

/-- What the runner is given from outside: the strategies, each with the state that it is constructed in,
the draws of the random generator for a seed, and for each window the clock and the identity of its run. -/
structure OutOfSampleSetup (σ ι : Type) where
  strategyFactory : String → BaseStrategy σ ι × σ
  draws : ℤ → ℕ → Decimal
  clock : WalkForwardWindow → ℕ → Datetime
  runId : WalkForwardWindow → String

/-- The candle is in the test of the window. -/
def WalkForwardWindow.Tests {ι : Type} (window : WalkForwardWindow) (candle : BacktestCandle ι) :
    Prop :=
  window.testStart ≤ candle.openTime ∧ candle.openTime < window.testEnd

instance {ι : Type} (window : WalkForwardWindow) (candle : BacktestCandle ι) :
    Decidable (window.Tests candle) :=
  inferInstanceAs (Decidable (_ ∧ _))

/-- The candles of the test of a window. -/
def WalkForwardWindow.testCandles {ι : Type} (window : WalkForwardWindow)
    (candles : List (BacktestCandle ι)) : List (BacktestCandle ι) :=
  candles.filter fun candle => decide (window.Tests candle)

/-- The number of candles that a test of `length` microseconds has at an interval of `step` seconds. -/
def expectedCandles (length step : ℤ) : ℤ := length / (step * 1000000)

/-- `_validate_test_candles`. -/
def validateTestCandles {ι : Type} (candles : List (BacktestCandle ι)) (interval : String)
    (window : WalkForwardWindow) : Except OutOfSampleError Unit :=
  match testIntervals.lookup interval with
  | none => .error (.unsupportedInterval interval)
  | some step =>
    let expected := expectedCandles (window.testEnd - window.testStart) step
    if (candles.length : ℤ) ≠ expected then
      .error (.incompleteWindow window.index expected candles.length)
    else
      match (candles.zip candles.tail).find? fun pair =>
          decide (pair.2.openTime - pair.1.openTime ≠ step * 1000000) with
      | some (previous, current) =>
        .error (.timeGap window.index previous.openTime current.openTime)
      | none => .ok ()

namespace OutOfSampleSetup

variable {σ ι : Type} (setup : OutOfSampleSetup σ ι) (config : WalkForwardConfig)
  (candles : List (BacktestCandle ι)) (symbol interval : String)

/-- The run of a test window, in which the candles bring their own indicators. -/
def testRun (window : WalkForwardWindow) (candles : List (BacktestCandle ι)) : BacktestRun σ ι where
  candles := candles
  strategy := .base (setup.strategyFactory symbol).1
  initialState := (setup.strategyFactory symbol).2
  indicatorProvider := some fun candle _ => .ok candle.indicators
  clock := setup.clock window
  runId := setup.runId window

/-- `_run_test_window`: the portfolio, the strategy, the risk engine and the draws are new. -/
def runTestWindow (window : WalkForwardWindow) (candles : List (BacktestCandle ι)) :
    Except OutOfSampleError BacktestResult :=
  match (setup.testRun symbol window candles).result
      (.new { initialBalance := config.initialBalance } {} (setup.draws config.randomSeed)) with
  | .raised error => .error (.backtest error)
  | .returned result _ => .ok result

/-- A turn of the loop of `run_fixed_parameter_walk_forward`. -/
def windowResult (window : WalkForwardWindow) : Except OutOfSampleError WalkForwardWindowResult := do
  let testCandles := window.testCandles candles
  validateTestCandles testCandles interval window
  let result ← setup.runTestWindow config symbol window testCandles
  return {
    window, candleCount := testCandles.length, initialBalance := config.initialBalance
    finalEquity := result.portfolio.totalEquity, totalPnl := result.totalPnl
    totalTrades := result.totalTrades, winningTrades := result.winningTrades
    losingTrades := result.losingTrades, winRate := result.winRate
    profitFactor := result.profitFactor, maxDrawdown := result.maxDrawdown }

/-- The totals over the windows. -/
def summary (results : List WalkForwardWindowResult) : WalkForwardResult :=
  let profitable := results.countP fun item => decide (item.totalPnl > 0)
  let losing := results.countP fun item => decide (item.totalPnl < 0)
  { symbol, interval, config, windows := results
    totalOosPnl := (results.map WalkForwardWindowResult.totalPnl).sum
    profitableWindows := profitable, losingWindows := losing
    flatWindows := results.length - profitable - losing
    totalOosTrades := (results.map WalkForwardWindowResult.totalTrades).sum }

/-- `run_fixed_parameter_walk_forward`. -/
def runFixedParameterWalkForward (start finish : Datetime) :
    Except OutOfSampleError WalkForwardResult := do
  let windows ← (config.generateWindows start finish).mapError OutOfSampleError.windows
  let results ← windows.mapM (setup.windowResult config candles symbol interval)
  return summary config symbol interval results

end OutOfSampleSetup

/-! ### The candles of a test -/

theorem testIntervals_divide {interval : String} {step : ℤ}
    (h : testIntervals.lookup interval = some step) : 0 < step ∧ step * 1000000 ∣ day := by
  have hall : ∀ entry ∈ testIntervals, 0 < entry.2 ∧ entry.2 * 1000000 ∣ day := by decide
  obtain ⟨before, after, hsplit, -⟩ := List.lookup_eq_some_iff.mp h
  exact hall (interval, step) (by rw [hsplit]; simp)

section Complete

variable {ι : Type} {candles : List (BacktestCandle ι)} {interval : String} {window : WalkForwardWindow}

theorem validateTestCandles_ok (h : validateTestCandles candles interval window = .ok ()) :
    ∃ step, testIntervals.lookup interval = some step ∧
      (candles.length : ℤ) = expectedCandles (window.testEnd - window.testStart) step ∧
      ∀ pair ∈ candles.zip candles.tail, pair.2.openTime - pair.1.openTime = step * 1000000 := by
  unfold validateTestCandles at h
  split at h
  · cases h
  rename_i step hstep
  simp only at h
  split at h
  · cases h
  rename_i hlength
  split at h
  · cases h
  rename_i hspaced
  refine ⟨step, hstep, not_not.mp hlength, fun pair hpair => ?_⟩
  simpa using List.find?_eq_none.mp hspaced pair hpair

/-- Times that are a step apart and end before the last of as many steps has passed begin within the
first. -/
theorem progression_head_lt {first step stop : ℤ} {count : ℕ} (hcount : 0 < count)
    (hbefore : ∀ t ∈ progression first step count, t < stop) : first + count * step < stop + step := by
  have hlast := hbefore (first + ((count - 1 : ℕ) : ℤ) * step)
    (mem_progression_iff.mpr ⟨count - 1, Nat.sub_lt hcount Nat.one_pos, rfl⟩)
  rw [Nat.cast_sub hcount, Nat.cast_one] at hlast
  linarith

/-- The candles of a complete test are a step apart, and as many as it has steps, so that the first of them
opens on its first day. -/
theorem exists_early_candle (hlong : day ∣ window.testEnd - window.testStart)
    (hpos : window.testStart < window.testEnd)
    (h : validateTestCandles (window.testCandles candles) interval window = .ok ()) :
    ∃ candle ∈ candles, window.Tests candle ∧ candle.openTime < window.testStart + day := by
  obtain ⟨step, hstep, hlength, hspaced⟩ := validateTestCandles_ok h
  obtain ⟨hpositive, hdivides⟩ := testIntervals_divide hstep
  have hmicro : 0 < step * 1000000 := mul_pos hpositive (by decide)
  have hday : step * 1000000 ≤ day := Int.le_of_dvd (by decide) hdivides
  have htotal : ((window.testCandles candles).length : ℤ) * (step * 1000000) =
      window.testEnd - window.testStart := by
    rw [hlength, expectedCandles, Int.ediv_mul_cancel (hdivides.trans hlong)]
  cases htests : window.testCandles candles with
  | nil =>
    rw [htests, List.length_nil, Nat.cast_zero, zero_mul] at htotal
    linarith
  | cons first rest =>
    have hfirst : first ∈ candles ∧ window.Tests first := by
      have hmem : first ∈ window.testCandles candles := htests ▸ List.mem_cons_self
      simpa [WalkForwardWindow.testCandles] using hmem
    refine ⟨first, hfirst.1, hfirst.2, ?_⟩
    have htimes : (window.testCandles candles).map BacktestCandle.openTime =
        progression first.openTime (step * 1000000)
          ((window.testCandles candles).map BacktestCandle.openTime).length := by
      refine eq_progression (fun pair hpair => ?_) fun time htime => ?_
      · rw [← List.map_tail, List.zip_map, List.mem_map] at hpair
        obtain ⟨candles', hcandles, rfl⟩ := hpair
        exact hspaced candles' hcandles
      · rw [htests] at htime
        exact (Option.some.inj htime).symm
    have hbefore : ∀ t ∈ progression first.openTime (step * 1000000)
        (window.testCandles candles).length, t < window.testEnd := by
      intro t ht
      rw [List.length_map] at htimes
      rw [← htimes, List.mem_map] at ht
      obtain ⟨candle, hcandle, rfl⟩ := ht
      have htested : window.Tests candle := by
        simpa using (List.mem_filter.mp hcandle).2
      exact htested.2
    have hcount : 0 < (window.testCandles candles).length := by
      rw [htests]
      exact Nat.succ_pos _
    have hhead := progression_head_lt hcount hbefore
    rw [htotal] at hhead
    linarith

end Complete

/-! ### The windows of a run -/

namespace WalkForwardConfig

variable (config : WalkForwardConfig)

theorem windowAt_long (index : ℕ) (anchor : Datetime) :
    (config.windowAt index anchor).testEnd - (config.windowAt index anchor).testStart =
      config.testDays * day := add_sub_cancel_left _ _

theorem second_window {config : WalkForwardConfig} {start finish : Datetime}
    {windows : List WalkForwardWindow} (h : config.generateWindows start finish = .ok windows)
    (window : WalkForwardWindow) :
    windows[1]? = some window ↔
      window = config.windowAt 2 (start + config.stepDays * day) ∧ window.testEnd ≤ finish := by
  have hsecond := config.generateWindows_ok h 1 window
  rwa [Nat.cast_one, one_mul] at hsecond

/-- The tests of two windows whose steps are as long as a test follow one another. -/
theorem windows_apart {config : WalkForwardConfig} (h : config.testDays ≤ config.stepDays)
    {start finish : Datetime} {windows : List WalkForwardWindow}
    (hwindows : config.generateWindows start finish = .ok windows) :
    windows.Pairwise fun earlier later => earlier.testEnd ≤ later.testStart := by
  rw [List.pairwise_iff_getElem]
  intro i j hi hj hij
  obtain ⟨hearlier, -⟩ := (config.generateWindows_ok hwindows i _).mp (List.getElem?_eq_getElem hi)
  obtain ⟨hlater, -⟩ := (config.generateWindows_ok hwindows j _).mp (List.getElem?_eq_getElem hj)
  have hlength : config.testDays * day ≤ config.stepDays * day :=
    mul_le_mul_of_nonneg_right h (by decide)
  have hsteps : ((i : ℤ) + 1) * (config.stepDays * day) ≤ j * (config.stepDays * day) :=
    mul_le_mul_of_nonneg_right (by exact_mod_cast hij) config.step_pos.le
  rw [hearlier, hlater]
  simp only [windowAt]
  linarith

end WalkForwardConfig

/-- Every candle is counted in one test at most, and the totals are those of the tests. -/
structure WalkForwardResult.CountsOnce {ι : Type} (result : WalkForwardResult)
    (candles : List (BacktestCandle ι)) : Prop where
  disjoint : result.windows.Pairwise fun earlier later =>
    ∀ candle ∈ candles, earlier.window.Tests candle → ¬ later.window.Tests candle
  totalOosPnl : result.totalOosPnl = (result.windows.map WalkForwardWindowResult.totalPnl).sum
  totalOosTrades : result.totalOosTrades =
    (result.windows.map WalkForwardWindowResult.totalTrades).sum
  windowCounts : result.profitableWindows + result.losingWindows + result.flatWindows =
    result.windows.length

section Run

variable {σ ι : Type} {setup : OutOfSampleSetup σ ι} {config : WalkForwardConfig}
  {candles : List (BacktestCandle ι)} {symbol interval : String}

theorem countP_signs_le (results : List WalkForwardWindowResult) :
    (results.countP fun item => decide (item.totalPnl > 0)) +
      (results.countP fun item => decide (item.totalPnl < 0)) ≤ results.length := by
  induction results with
  | nil => exact le_rfl
  | cons item rest ih =>
    simp only [List.countP_cons, List.length_cons]
    have hone : ¬(item.totalPnl > 0 ∧ item.totalPnl < 0) := fun h => lt_asymm h.1 h.2
    by_cases hpositive : item.totalPnl > 0
    · have hnegative : ¬ item.totalPnl < 0 := fun h => hone ⟨hpositive, h⟩
      simp only [hpositive, hnegative, decide_true, decide_false, if_true, Bool.false_eq_true, if_false]
      omega
    · simp only [hpositive, decide_false, Bool.false_eq_true, if_false]
      split <;> omega

theorem countsOnce_summary_iff (results : List WalkForwardWindowResult) :
    (OutOfSampleSetup.summary config symbol interval results).CountsOnce candles ↔
      (results.map WalkForwardWindowResult.window).Pairwise fun earlier later =>
        ∀ candle ∈ candles, earlier.Tests candle → ¬ later.Tests candle := by
  rw [List.pairwise_map]
  refine ⟨fun h => h.disjoint, fun h => ⟨h, rfl, rfl, ?_⟩⟩
  have hsigns := countP_signs_le results
  simp only [OutOfSampleSetup.summary]
  omega

theorem windowResult_ok {window : WalkForwardWindow} {result : WalkForwardWindowResult}
    (h : setup.windowResult config candles symbol interval window = .ok result) :
    result.window = window ∧
      validateTestCandles (window.testCandles candles) interval window = .ok () := by
  obtain ⟨_, hvalid, h⟩ := bind_eq_ok_iff.mp h
  obtain ⟨_, -, h⟩ := bind_eq_ok_iff.mp h
  cases h
  exact ⟨rfl, hvalid⟩

/-- A run that returns has tested the windows of its range, each of them complete. -/
theorem runFixedParameterWalkForward_ok {start finish : Datetime} {result : WalkForwardResult}
    (h : setup.runFixedParameterWalkForward config candles symbol interval start finish =
      .ok result) :
    ∃ windows results, config.generateWindows start finish = .ok windows ∧
      results.map WalkForwardWindowResult.window = windows ∧
      (∀ window ∈ windows,
        validateTestCandles (window.testCandles candles) interval window = .ok ()) ∧
      result = OutOfSampleSetup.summary config symbol interval results := by
  obtain ⟨windows, hwindows, h⟩ := bind_eq_ok_iff.mp h
  obtain ⟨results, hresults, h⟩ := bind_eq_ok_iff.mp h
  cases h
  refine ⟨windows, results, ?_, map_of_mapM_eq_ok (fun _ _ h => (windowResult_ok h).1) hresults,
    fun window hwindow => ?_, rfl⟩
  · cases hgenerated : config.generateWindows start finish with
    | error error => rw [hgenerated] at hwindows; cases hwindows
    | ok generated => rw [hgenerated] at hwindows; cases hwindows; rfl
  · obtain ⟨item, -, hitem⟩ := (mapM_eq_ok hresults).1 window hwindow
    exact (windowResult_ok hitem).2

end Run

/-- The second test begins with a candle that is still in the first, where it begins before that ends. -/
theorem tested_twice {ι : Type} {config : WalkForwardConfig} {candles : List (BacktestCandle ι)}
    {interval : String} {start : Datetime} (hshort : config.stepDays < config.testDays)
    (hvalid : validateTestCandles ((config.windowAt 2 (start + config.stepDays * day)).testCandles
      candles) interval (config.windowAt 2 (start + config.stepDays * day)) = .ok ()) :
    ∃ candle ∈ candles, (config.windowAt 1 start).Tests candle ∧
      (config.windowAt 2 (start + config.stepDays * day)).Tests candle := by
  have hlength := config.windowAt_long 2 (start + config.stepDays * day)
  have hlong : day ∣ (config.windowAt 2 (start + config.stepDays * day)).testEnd -
      (config.windowAt 2 (start + config.stepDays * day)).testStart :=
    hlength ▸ Dvd.intro_left _ rfl
  have htest : 0 < config.testDays * day := mul_pos config.testDays_pos (by decide)
  obtain ⟨candle, hmem, htests, hearly⟩ := exists_early_candle hlong (by linarith) hvalid
  refine ⟨candle, hmem, ⟨?_, ?_⟩, htests⟩
  · have hlate := htests.1
    have hstep := config.step_pos
    simp only [WalkForwardConfig.windowAt] at hlate ⊢
    linarith
  · have hdays : (config.stepDays + 1) * day ≤ config.testDays * day :=
      mul_le_mul_of_nonneg_right hshort (by decide)
    simp only [WalkForwardConfig.windowAt] at hearly ⊢
    linarith

/-- A run counts every candle once exactly when a step is as long as a test, or a second test does not end
in the range. -/
theorem candles_counted_once_iff {σ ι : Type} (setup : OutOfSampleSetup σ ι)
    (config : WalkForwardConfig) (candles : List (BacktestCandle ι)) (symbol interval : String)
    (start finish : Datetime) {result : WalkForwardResult}
    (hrun : setup.runFixedParameterWalkForward config candles symbol interval start finish =
      .ok result) :
    result.CountsOnce candles ↔
      config.testDays ≤ config.stepDays ∨
        finish < (config.windowAt 2 (start + config.stepDays * day)).testEnd := by
  obtain ⟨windows, results, hwindows, hmap, hvalid, rfl⟩ := runFixedParameterWalkForward_ok hrun
  rw [countsOnce_summary_iff, hmap]
  constructor
  · intro hdisjoint
    by_contra hneither
    push Not at hneither
    obtain ⟨hshort, hfits⟩ := hneither
    have hsecond := (WalkForwardConfig.second_window hwindows _).mpr ⟨rfl, hfits⟩
    obtain ⟨hone, hget⟩ := List.getElem?_eq_some_iff.mp hsecond
    have hzero : 0 < windows.length := Nat.zero_lt_of_lt hone
    have hfirst : windows[0] = config.windowAt 1 start := by
      have hstart := (config.generateWindows_ok hwindows 0 _).mp (List.getElem?_eq_getElem hzero)
      rw [hstart.1, Nat.cast_zero, zero_mul, add_zero]
    obtain ⟨candle, hmem, hearlier, hlater⟩ :=
      tested_twice hshort (hvalid _ (List.mem_of_getElem? hsecond))
    refine List.pairwise_iff_getElem.mp hdisjoint 0 1 hzero hone Nat.zero_lt_one candle hmem ?_ ?_
    · rwa [hfirst]
    · rwa [hget]
  · rintro (hlong | hlate)
    · refine (WalkForwardConfig.windows_apart hlong hwindows).imp ?_
      intro earlier later hapart candle _ hearlier hlater
      exact absurd hlater.1 (not_le.mpr (hearlier.2.trans_le hapart))
    · -- There is no second window.
      cases windows with
      | nil => exact .nil
      | cons first rest =>
        cases rest with
        | nil => exact List.pairwise_singleton _ _
        | cons second rest =>
          obtain ⟨rfl, hfits⟩ := (WalkForwardConfig.second_window hwindows second).mp rfl
          exact absurd hfits (not_le.mpr hlate)

/-- A strategy that never gives a signal. -/
def idleSetup : OutOfSampleSetup Unit Unit where
  strategyFactory _ :=
    ({ shouldEnter := fun state _ _ _ => .ok (state, none)
       shouldExit := fun state _ _ _ => .ok (state, none) }, ())
  draws _ _ := 0
  clock _ _ := 0
  runId _ := ""

/-- Tests of two days, of which one begins every day. -/
def dailyStep : WalkForwardConfig :=
  { trainDays := 1, testDays := 2, stepDays := 1 }

def dailyCandles : List (BacktestCandle Unit) :=
  [flatCandle "BTCUSDT" 0 100, flatCandle "BTCUSDT" day 100, flatCandle "BTCUSDT" (2 * day) 100,
    flatCandle "BTCUSDT" (3 * day) 100]

theorem dailyStep_windows : dailyStep.generateWindows 0 (4 * day) =
    .ok [dailyStep.windowAt 1 0, dailyStep.windowAt 2 day] := by
  rw [WalkForwardConfig.generateWindows, if_neg (by decide), WalkForwardConfig.windowsFrom,
    if_neg (by decide), WalkForwardConfig.windowsFrom, if_neg (by decide),
    WalkForwardConfig.windowsFrom, if_pos (by decide)]
  rfl

/-- The two tests of four daily candles return. -/
theorem dailyStep_returns : ∃ result,
    idleSetup.runFixedParameterWalkForward dailyStep dailyCandles "BTCUSDT" "1d" 0 (4 * day) =
      .ok result := by
  have htests : ([dailyStep.windowAt 1 0, dailyStep.windowAt 2 day].mapM
      (idleSetup.windowResult dailyStep dailyCandles "BTCUSDT" "1d")).toOption.isSome = true := by
    decide +kernel
  cases hresults : [dailyStep.windowAt 1 0, dailyStep.windowAt 2 day].mapM
      (idleSetup.windowResult dailyStep dailyCandles "BTCUSDT" "1d") with
  | error error =>
    rw [hresults] at htests
    cases htests
  | ok results =>
    refine ⟨OutOfSampleSetup.summary dailyStep "BTCUSDT" "1d" results, ?_⟩
    rw [OutOfSampleSetup.runFixedParameterWalkForward, dailyStep_windows]
    exact bind_eq_ok_iff.mpr ⟨_, rfl, bind_eq_ok_iff.mpr ⟨results, hresults, rfl⟩⟩

theorem dailyStep_counted_once_iff : ∃ result,
    idleSetup.runFixedParameterWalkForward dailyStep dailyCandles "BTCUSDT" "1d" 0 (4 * day) =
        .ok result ∧
      (result.CountsOnce dailyCandles ↔ dailyStep.testDays ≤ dailyStep.stepDays ∨
        4 * day < (dailyStep.windowAt 2 (0 + dailyStep.stepDays * day)).testEnd) := by
  obtain ⟨result, hresult⟩ := dailyStep_returns
  exact ⟨result, hresult, candles_counted_once_iff idleSetup dailyStep dailyCandles "BTCUSDT" "1d" 0
    (4 * day) hresult⟩

/-- The candle of the third day is in both tests. -/
theorem dailyStep_counted_twice : ∃ result,
    idleSetup.runFixedParameterWalkForward dailyStep dailyCandles "BTCUSDT" "1d" 0 (4 * day) =
        .ok result ∧ ¬ result.CountsOnce dailyCandles := by
  obtain ⟨result, hresult⟩ := dailyStep_returns
  obtain ⟨windows, results, hwindows, hmap, -, rfl⟩ := runFixedParameterWalkForward_ok hresult
  cases dailyStep_windows.symm.trans hwindows
  refine ⟨_, hresult, fun honce => ?_⟩
  have hdisjoint := (countsOnce_summary_iff results).mp honce
  rw [hmap] at hdisjoint
  have hshared := (List.pairwise_cons.mp hdisjoint).1 _ (List.mem_singleton_self _)
    (flatCandle "BTCUSDT" (2 * day) 100) (by simp [dailyCandles])
  exact hshared (by decide) (by decide)

end CryptoTrading
