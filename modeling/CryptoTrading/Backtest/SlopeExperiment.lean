import CryptoTrading.Backtest.OutOfSample

/-! The walk-forward experiment on the slope of the EMA200, as a whole: the test of a window runs over
candles that carry the slope, with a strategy of the window's own threshold.  What comes after the end of
a test changes nothing about it, so a longer history continues the results of a shorter one. -/

namespace CryptoTrading

open Kit

/-- What `run_ema200_slope_train_p75_walk_forward` raises. -/
inductive SlopeExperimentError
  | threshold (error : WalkForwardError)
  /-- "EMA200 slope p75 experiment currently supports only 1h" -/
  | unsupportedInterval
  /-- "Incomplete test window {index}: expected={expected} actual={actual}" -/
  | incompleteWindow (index : ℕ) (expected : ℤ) (actual : ℕ)
  /-- "Time gap in test window {index}" -/
  | timeGap (index : ℕ)
  | outOfSample (error : OutOfSampleError)
  deriving DecidableEq

structure WindowThreshold where
  windowIndex : ℕ
  trainOpportunities : ℕ
  threshold : Decimal
  deriving DecidableEq

structure SlopeWalkForwardResult where
  result : WalkForwardResult
  thresholds : List WindowThreshold

/-- `_validate_test_window` -/
def validateTestWindow (candles : List (BacktestCandle SlopeIndicators)) (window : WalkForwardWindow)
    (interval : String) : Except SlopeExperimentError Unit :=
  if interval ≠ "1h" then .error .unsupportedInterval
  else if (candles.length : ℤ) ≠ expectedCandles (window.testEnd - window.testStart) 3600 then
    .error (.incompleteWindow window.index (expectedCandles (window.testEnd - window.testStart) 3600)
      candles.length)
  else if (candles.zip candles.tail).any fun pair => decide (pair.2.openTime - pair.1.openTime ≠ hour) then
    .error (.timeGap window.index)
  else .ok ()

/-- What the experiment is given from outside: the identity of its strategies, and what a run of an engine
draws. -/
structure SlopeExperiment where
  identity : StrategyIdentity
  draws : ℤ → ℕ → Decimal
  clock : WalkForwardWindow → ℕ → Datetime
  runId : WalkForwardWindow → String

namespace SlopeExperiment

variable (experiment : SlopeExperiment) (config : WalkForwardConfig) (symbol interval : String)

/-- The strategy of a window, and what its engine is given. -/
def setup (threshold : Decimal) : OutOfSampleSetup TrendDCAState SlopeIndicators where
  strategyFactory _ := ((slopeP75Strategy experiment.identity threshold).base, {})
  draws := experiment.draws
  clock := experiment.clock
  runId := experiment.runId

/-- A turn of the loop over the windows. -/
def windowTurn (enriched : List (BacktestCandle SlopeIndicators)) (window : WalkForwardWindow) :
    Except SlopeExperimentError (WindowThreshold × WalkForwardWindowResult) := do
  let (threshold, count) ← (deriveTrainP75Threshold enriched window).mapError .threshold
  let testCandles := window.testCandles enriched
  validateTestWindow testCandles window interval
  let result ← ((experiment.setup threshold).runTestWindow config symbol window testCandles).mapError
    .outOfSample
  return (
    { windowIndex := window.index, trainOpportunities := count, threshold },
    { window, candleCount := testCandles.length, initialBalance := config.initialBalance
      finalEquity := result.portfolio.totalEquity, totalPnl := result.totalPnl
      totalTrades := result.totalTrades, winningTrades := result.winningTrades
      losingTrades := result.losingTrades, winRate := result.winRate
      profitFactor := result.profitFactor, maxDrawdown := result.maxDrawdown })

/-- `run_ema200_slope_train_p75_walk_forward` -/
def walkForward (candles : List (BacktestCandle StrategyIndicators)) (start finish : Datetime) :
    Except SlopeExperimentError SlopeWalkForwardResult := do
  let enriched := addEma200Slope10 candles
  let windows ← (config.generateWindows start finish).mapError .threshold
  let turns ← windows.mapM (experiment.windowTurn config symbol interval enriched)
  return {
    result := OutOfSampleSetup.summary config symbol interval (turns.map Prod.snd)
    thresholds := turns.map Prod.fst }

end SlopeExperiment

/-! ### A longer history -/

section Extended

variable {experiment : SlopeExperiment} {config : WalkForwardConfig} {symbol interval : String}
  {before after first second : List (BacktestCandle StrategyIndicators)} {window : WalkForwardWindow}
  {start finish finish' : Datetime}

theorem testCandles_append (hlater : ∀ candle ∈ after, window.testEnd ≤ candle.openTime) :
    window.testCandles (addEma200Slope10 (before ++ after)) =
      window.testCandles (addEma200Slope10 before) := by
  have hnone : window.testCandles ((after.zipIdx before.length).map (withSlope (before ++ after))) = [] := by
    refine List.filter_eq_nil_iff.mpr fun candle hcandle => ?_
    obtain ⟨item, hitem, rfl⟩ := List.mem_map.mp hcandle
    have hlate := hlater item.1 (List.fst_mem_of_mem_zipIdx hitem)
    rw [decide_eq_true_eq]
    intro htests
    exact absurd htests.2 (not_lt.mpr hlate)
  unfold WalkForwardWindow.testCandles at hnone ⊢
  rw [addEma200Slope10_append, List.filter_append, hnone, List.append_nil]

/-- The turn of a window reads no candle from the end of its test on. -/
theorem windowTurn_append (htrain : window.trainEnd ≤ window.testEnd)
    (hlater : ∀ candle ∈ after, window.testEnd ≤ candle.openTime) :
    experiment.windowTurn config symbol interval (addEma200Slope10 (before ++ after)) window =
      experiment.windowTurn config symbol interval (addEma200Slope10 before) window := by
  have hderived : deriveTrainP75Threshold (addEma200Slope10 (before ++ after)) window =
      deriveTrainP75Threshold (addEma200Slope10 before) window :=
    deriveTrainP75Threshold_append fun candle hcandle => htrain.trans (hlater candle hcandle)
  unfold SlopeExperiment.windowTurn
  rw [hderived]
  simp only [testCandles_append hlater]

/-- Histories that agree before a moment give one turn of a window that has ended by then. -/
theorem windowTurn_congr (hfirst : first.Pairwise fun a b => a.openTime ≤ b.openTime)
    (hsecond : second.Pairwise fun a b => a.openTime ≤ b.openTime)
    (hagree : (first.filter fun candle => decide (candle.openTime < finish)) =
      second.filter fun candle => decide (candle.openTime < finish))
    (htrain : window.trainEnd ≤ window.testEnd) (hended : window.testEnd ≤ finish) :
    experiment.windowTurn config symbol interval (addEma200Slope10 first) window =
      experiment.windowTurn config symbol interval (addEma200Slope10 second) window := by
  have hlater (list : List (BacktestCandle StrategyIndicators)) :
      ∀ candle ∈ list.filter (fun candle => !decide (candle.openTime < finish)),
        window.testEnd ≤ candle.openTime := by
    intro candle hcandle
    have hlate : finish ≤ candle.openTime := by simpa using (List.mem_filter.mp hcandle).2
    exact hended.trans hlate
  rw [eq_filter_append_filter BacktestCandle.openTime finish hfirst, windowTurn_append htrain (hlater first),
    hagree, ← windowTurn_append htrain (hlater second),
    ← eq_filter_append_filter BacktestCandle.openTime finish hsecond]

theorem WalkForwardConfig.trainEnd_le_testEnd (config : WalkForwardConfig) (index : ℕ) (anchor : Datetime) :
    (config.windowAt index anchor).trainEnd ≤ (config.windowAt index anchor).testEnd :=
  le_add_of_nonneg_right (mul_pos config.testDays_pos (by decide)).le

/-- The windows of a longer range continue those of a shorter one, and end after it. -/
theorem generateWindows_extend {windows : List WalkForwardWindow} (hle : finish ≤ finish')
    (h : config.generateWindows start finish = .ok windows) :
    ∃ later, config.generateWindows start finish' = .ok (windows ++ later) ∧
      ∀ window ∈ later, finish < window.testEnd := by
  have hfits := (config.exists_generateWindows_iff start finish).mp ⟨windows, h⟩
  obtain ⟨windows', h'⟩ := (config.exists_generateWindows_iff start finish').mpr (hfits.trans hle)
  have hprefix : windows <+: windows' := by
    rw [List.prefix_iff_getElem?]
    intro index hindex
    obtain ⟨hwindow, hended⟩ := (config.generateWindows_ok h index _).mp (List.getElem?_eq_getElem hindex)
    exact (config.generateWindows_ok h' index _).mpr ⟨hwindow, hended.trans hle⟩
  obtain ⟨later, rfl⟩ := hprefix
  refine ⟨later, h', fun window hmem => ?_⟩
  obtain ⟨index, hindex⟩ := List.mem_iff_getElem?.mp hmem
  have hplace : (windows ++ later)[windows.length + index]? = some window := by
    rw [List.getElem?_append_right (Nat.le_add_right _ _), Nat.add_sub_cancel_left, hindex]
  obtain ⟨hwindow, -⟩ := (config.generateWindows_ok h' _ _).mp hplace
  by_contra hended
  have hmissing : windows[windows.length + index]? = some window :=
    (config.generateWindows_ok h _ _).mpr ⟨hwindow, not_lt.mp hended⟩
  rw [List.getElem?_eq_none (Nat.le_add_right _ _)] at hmissing
  cases hmissing

theorem windowTurn_window {enriched : List (BacktestCandle SlopeIndicators)}
    {turn : WindowThreshold × WalkForwardWindowResult}
    (h : experiment.windowTurn config symbol interval enriched window = .ok turn) : turn.2.window = window := by
  obtain ⟨_, -, h⟩ := bind_eq_ok_iff.mp h
  obtain ⟨_, -, h⟩ := bind_eq_ok_iff.mp h
  obtain ⟨_, -, h⟩ := bind_eq_ok_iff.mp h
  cases h
  rfl

/-- A run whose range has windows is the computation over them. -/
theorem walkForward_of_windows {windows : List WalkForwardWindow}
    (h : config.generateWindows start finish = .ok windows) (candles : List (BacktestCandle StrategyIndicators)) :
    experiment.walkForward config symbol interval candles start finish =
      (windows.mapM (experiment.windowTurn config symbol interval (addEma200Slope10 candles))).map fun turns =>
        { result := OutOfSampleSetup.summary config symbol interval (turns.map Prod.snd)
          thresholds := turns.map Prod.fst } := by
  unfold SlopeExperiment.walkForward
  rw [h]
  simp only [Except.mapError, bind, Except.bind]
  cases windows.mapM (experiment.windowTurn config symbol interval (addEma200Slope10 candles)) with
  | error error => rfl
  | ok turns => rfl

/-- A run over a longer history and range, of which an earlier run has seen the beginning: it returns what
the earlier one did for each window of that, with the later windows after them; or it raises, and then at a
window that ends after the range of the earlier run. -/
theorem walk_forward_continues (experiment : SlopeExperiment) (config : WalkForwardConfig)
    (symbol interval : String) (first second : List (BacktestCandle StrategyIndicators))
    (start finish finish' : Datetime) (result : SlopeWalkForwardResult)
    (hfirst : first.Pairwise fun a b => a.openTime ≤ b.openTime)
    (hsecond : second.Pairwise fun a b => a.openTime ≤ b.openTime)
    (hagree : (first.filter fun candle => decide (candle.openTime < finish)) =
      second.filter fun candle => decide (candle.openTime < finish))
    (hle : finish ≤ finish')
    (h : experiment.walkForward config symbol interval first start finish = .ok result) :
    match experiment.walkForward config symbol interval second start finish' with
    | .ok result' => result.thresholds <+: result'.thresholds ∧
        result.result.windows <+: result'.result.windows ∧
        ∀ item ∈ result'.result.windows.drop result.result.windows.length, finish < item.window.testEnd
    | .error error => ∃ window, finish < window.testEnd ∧
        experiment.windowTurn config symbol interval (addEma200Slope10 second) window = .error error := by
  obtain ⟨windows, hwindows⟩ : ∃ windows, config.generateWindows start finish = .ok windows := by
    obtain ⟨windows, hwindows, -⟩ := bind_eq_ok_iff.mp h
    cases hgenerated : config.generateWindows start finish with
    | error error => rw [hgenerated] at hwindows; cases hwindows
    | ok generated => exact ⟨generated, rfl⟩
  obtain ⟨later, hextended, hlater⟩ := generateWindows_extend hle hwindows
  rw [walkForward_of_windows hwindows, map_eq_ok_iff] at h
  obtain ⟨turns, hturns, rfl⟩ := h
  have hsame : windows.mapM (experiment.windowTurn config symbol interval (addEma200Slope10 second)) =
      .ok turns := by
    rw [← hturns]
    refine mapM_congr_of_mem fun window hmem => ?_
    obtain ⟨index, hindex⟩ := List.mem_iff_getElem?.mp hmem
    obtain ⟨rfl, hended⟩ := (config.generateWindows_ok hwindows index window).mp hindex
    exact (windowTurn_congr hfirst hsecond hagree (config.trainEnd_le_testEnd _ _) hended).symm
  rw [walkForward_of_windows hextended, mapM_append_of_ok hsame]
  cases hmore : later.mapM (experiment.windowTurn config symbol interval (addEma200Slope10 second)) with
  | error error =>
    obtain ⟨window, hmem, hraises⟩ := mapM_eq_error hmore
    exact ⟨window, hlater window hmem, hraises⟩
  | ok more =>
    refine ⟨?_, ?_, fun item hitem => ?_⟩
    · exact ⟨more.map Prod.fst, List.map_append.symm⟩
    · exact ⟨more.map Prod.snd, List.map_append.symm⟩
    · simp only [OutOfSampleSetup.summary, List.map_append, List.length_map] at hitem
      rw [List.drop_left' (by simp), List.mem_map] at hitem
      obtain ⟨turn, hturn, rfl⟩ := hitem
      obtain ⟨window, hmem, hreturns⟩ := (mapM_eq_ok hmore).2 turn hturn
      rw [windowTurn_window hreturns]
      exact hlater window hmem

end Extended

/-- Tests of a day, of which one begins every day. -/
def dailySlope : WalkForwardConfig :=
  { dailyStep with testDays := 1, testDays_pos := Int.one_pos }

/-- An hour with an entry for the baseline once a day. -/
def slopeCandle (index : ℕ) : BacktestCandle StrategyIndicators where
  symbol := "BTCUSDT"
  openTime := index * hour
  close := 100
  indicators :=
    { ema50 := some 99, ema200 := some 98, regime := some trendUp
      rsi := if index % 24 = 12 then some 40 else none }

def slopeCandles (count : ℕ) : List (BacktestCandle StrategyIndicators) :=
  (List.range count).map slopeCandle

def undrawnExperiment : SlopeExperiment where
  identity := { name := "trend_dca", newSignalId := fun _ => .uuid 0 }
  draws _ _ := 0
  clock _ _ := 0
  runId _ := ""

theorem slopeCandles_ordered (count : ℕ) :
    (slopeCandles count).Pairwise fun a b => a.openTime ≤ b.openTime := by
  refine List.pairwise_map.mpr (List.pairwise_lt_range.imp fun {a b} hab => ?_)
  have hhour : (0 : ℤ) ≤ hour := by decide
  exact mul_le_mul_of_nonneg_right (by exact_mod_cast hab.le) hhour

theorem dailySlope_window : dailySlope.generateWindows 0 (2 * day) = .ok [dailySlope.windowAt 1 0] := by
  rw [WalkForwardConfig.generateWindows, if_neg (by decide), WalkForwardConfig.windowsFrom,
    if_neg (by decide), WalkForwardConfig.windowsFrom, if_pos (by decide)]

theorem dailySlope_windows : dailySlope.generateWindows 0 (3 * day) =
    .ok [dailySlope.windowAt 1 0, dailySlope.windowAt 2 day] := by
  rw [WalkForwardConfig.generateWindows, if_neg (by decide), WalkForwardConfig.windowsFrom,
    if_neg (by decide), WalkForwardConfig.windowsFrom, if_neg (by decide),
    WalkForwardConfig.windowsFrom, if_pos (by decide)]
  rfl

theorem exists_map_of_isSome {ε α β : Type} {x : Except ε α} {f : α → β} (h : x.toOption.isSome = true) :
    ∃ b, x.map f = .ok b := by
  cases x with
  | error error => cases h
  | ok a => exact ⟨f a, rfl⟩

/-- Two days have one test, and the third one has the second. -/
theorem third_day_continues : ∃ result result',
    undrawnExperiment.walkForward dailySlope "BTCUSDT" "1h" (slopeCandles 48) 0 (2 * day) = .ok result ∧
      undrawnExperiment.walkForward dailySlope "BTCUSDT" "1h" (slopeCandles 72) 0 (3 * day) = .ok result' ∧
      result.thresholds <+: result'.thresholds ∧ result.result.windows <+: result'.result.windows := by
  have hfirst : ([dailySlope.windowAt 1 0].mapM (undrawnExperiment.windowTurn dailySlope "BTCUSDT" "1h"
      (addEma200Slope10 (slopeCandles 48)))).toOption.isSome = true := by
    decide +kernel
  have hsecond : ([dailySlope.windowAt 1 0, dailySlope.windowAt 2 day].mapM (undrawnExperiment.windowTurn
      dailySlope "BTCUSDT" "1h" (addEma200Slope10 (slopeCandles 72)))).toOption.isSome = true := by
    decide +kernel
  obtain ⟨result, hresult⟩ : ∃ result, undrawnExperiment.walkForward dailySlope "BTCUSDT" "1h"
      (slopeCandles 48) 0 (2 * day) = .ok result := by
    rw [walkForward_of_windows dailySlope_window]
    exact exists_map_of_isSome hfirst
  have htwo : ((slopeCandles 48).filter fun candle => decide (candle.openTime < 2 * day)) =
      (slopeCandles 72).filter fun candle => decide (candle.openTime < 2 * day) := by
    rw [slopeCandles, slopeCandles, List.filter_map, List.filter_map]
    exact congrArg (List.map slopeCandle) (by decide +kernel)
  have hcontinues := walk_forward_continues undrawnExperiment dailySlope "BTCUSDT" "1h" (slopeCandles 48)
    (slopeCandles 72) 0 (2 * day) (3 * day) result (slopeCandles_ordered 48) (slopeCandles_ordered 72)
    htwo (by decide) hresult
  obtain ⟨result', hresult'⟩ : ∃ result', undrawnExperiment.walkForward dailySlope "BTCUSDT" "1h"
      (slopeCandles 72) 0 (3 * day) = .ok result' := by
    rw [walkForward_of_windows dailySlope_windows]
    exact exists_map_of_isSome hsecond
  rw [hresult'] at hcontinues
  exact ⟨result, result', hresult, hresult', hcontinues.1, hcontinues.2.1⟩

end CryptoTrading
