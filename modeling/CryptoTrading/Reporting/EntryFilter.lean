import CryptoTrading.Backtest.SlopeExperiment
import CryptoTrading.Reporting.TradeReconstruction

/-! The report that tells which trades of the baseline a filter on the slope of the EMA200 would have let
pass.  It finds the trades of every test window again from their fills, as the report on the entry funnel
does, and labels each by the threshold that the training of its window gives. -/

namespace CryptoTrading

open Kit

/-- The indicators that the report reads. -/
structure EntryIndicators extends SlopeIndicators where
  atr : Option Decimal := none
  regimeConfidence : Option Decimal := none

inductive OutcomeGroup
  | tdLoss
  | winner
  | other
  deriving DecidableEq

/-- `_outcome_group` -/
def outcomeGroup (reason : String) (pnl : Decimal) : OutcomeGroup :=
  if reason = "Regime changed to TREND_DOWN" ∧ pnl < 0 then .tdLoss
  else if reason ∈ ["Take-profit hit", "Take profit hit", "Trailing stop hit"] ∧ pnl > 0 then .winner
  else .other

/-- The `CounterfactualTrade` of the report. -/
structure FilteredTrade where
  symbol : String
  windowIndex : ℕ
  testStart : Datetime
  testEnd : Datetime
  trainP75 : Decimal
  trainOpportunities : ℕ
  entrySignalTime : Datetime
  entryFillTime : Datetime
  exitTime : Datetime
  exitReason : String
  realizedPnl : Decimal
  outcomeGroup : OutcomeGroup
  /-- Whether the text begins with "PASS" or with "FILTERED", and the outcome that follows. -/
  filterGroup : Bool × OutcomeGroup
  wouldPassP75 : Bool
  entryEma200Slope10 : Decimal
  slopeMarginToThreshold : Decimal
  rsi : Option Decimal
  closeToEma200 : Option Decimal
  ema20Slope10 : Option Decimal
  ema50Slope10 : Option Decimal
  atrPct : Option Decimal
  volatility : Option Decimal
  regimeConfidence : Option Decimal
  trendUpAgeBars : ℕ
  deriving DecidableEq

/-- What the report raises. -/
inductive EntryFilterError
  /-- "ENTRY FILTER COUNTERFACTUAL diagnostics supports only 1h" -/
  | unsupportedInterval
  | windows (error : WalkForwardError)
  /-- "Incomplete test window {index}: expected={expected} actual={actual}" -/
  | incompleteWindow (index : ℕ) (expected : ℤ) (actual : ℕ)
  | outOfSample (error : OutOfSampleError)
  /-- "Fill has no matching order signal: {order_id}" -/
  | noSignal (orderId : String)
  /-- "Unsupported fill side: {side}" -/
  | unsupportedSide (side : String)
  /-- "Sell fill without an open baseline position" -/
  | sellWithoutPosition
  /-- "Partial/oversized sell: sell={sell} position={position}" -/
  | partialSell (sell position : Decimal)
  /-- "Baseline entry signal candle not found: {time}" -/
  | noCandle (time : Datetime)
  /-- "Entry has no ema200_slope_10: {time}" -/
  | noSlope (time : Datetime)
  /-- "Baseline audit ended with an open position" -/
  | openAtEnd
  /-- "Trade count mismatch: reconstructed={reconstructed} backtest={expected}" -/
  | tradeCount (reconstructed expected : ℕ)
  /-- "PnL reconciliation failed: reconstructed={reconstructed} backtest={expected}" -/
  | pnl (reconstructed expected : Decimal)
  /-- `DivisionByZero` -/
  | divisionByZero
  deriving DecidableEq

/-- `_ratio` -/
def ratioTo (value base : Option Decimal) : Option Decimal :=
  match value, base with
  | some value, some base => if base = 0 then none else some ((value - base) / base)
  | _, _ => none

/-- `_slope_10` of the indicator -/
def slope10 (candles : List (BacktestCandle EntryIndicators)) (index : ℕ)
    (indicator : EntryIndicators → Option Decimal) : Option Decimal :=
  if index < 9 then none
  else ratioTo (candles[index]?.bind fun candle => indicator candle.indicators)
    (candles[index - 9]?.bind fun candle => indicator candle.indicators)

/-- `_trend_up_age` -/
def trendUpAge (candles : List (BacktestCandle EntryIndicators)) (index : ℕ) : ℕ :=
  ((candles.take (index + 1)).reverse.takeWhile fun candle =>
    decide (candle.indicators.regime = some trendUp)).length

/-- The arguments of `reconstruct_window_counterfactual` beside the backtest. -/
structure FilterWindow where
  symbol : String
  window : WalkForwardWindow
  threshold : WindowThreshold
  allCandles : List (BacktestCandle EntryIndicators)

namespace FilterWindow

variable (context : FilterWindow)

/-- The record of a trade: its candle is the last one that opens at the time of its entry signal. -/
def record (trade : ReconstructedTrade) : Except EntryFilterError FilteredTrade :=
  match context.allCandles.zipIdx.reverse.find? fun item =>
      decide (item.1.openTime = trade.entrySignalTime) with
  | none => .error (.noCandle trade.entrySignalTime)
  | some (candle, index) =>
    match candle.indicators.ema200Slope10 with
    | none => .error (.noSlope trade.entrySignalTime)
    | some slope =>
      let outcome := outcomeGroup trade.exitReason trade.pnl
      let wouldPass := decide (slope ≥ context.threshold.threshold)
      .ok
        { symbol := context.symbol, windowIndex := context.window.index
          testStart := context.window.testStart, testEnd := context.window.testEnd
          trainP75 := context.threshold.threshold
          trainOpportunities := context.threshold.trainOpportunities
          entrySignalTime := trade.entrySignalTime, entryFillTime := trade.entryFillTime
          exitTime := trade.exitTime, exitReason := trade.exitReason, realizedPnl := trade.pnl
          outcomeGroup := outcome, filterGroup := (wouldPass, outcome), wouldPassP75 := wouldPass
          entryEma200Slope10 := slope, slopeMarginToThreshold := slope - context.threshold.threshold
          rsi := candle.indicators.rsi, closeToEma200 := ratioTo (some candle.close) candle.indicators.ema200
          ema20Slope10 := slope10 context.allCandles index fun indicators => indicators.ema20
          ema50Slope10 := slope10 context.allCandles index fun indicators => indicators.ema50
          atrPct := candle.indicators.atr.bind fun atr =>
            if candle.close = 0 then none else some (atr / candle.close)
          volatility := candle.indicators.volatility
          regimeConfidence := candle.indicators.regimeConfidence
          trendUpAgeBars := trendUpAge context.allCandles index }

end FilterWindow

/-- The variables of the loop of `reconstruct_window_counterfactual`. -/
structure EntryFilter where
  quantity : Decimal := 0
  weightedEntry : Decimal := 0
  entryCommission : Decimal := 0
  entrySignal : Option Signal := none
  entryFillTime : Option Datetime := none
  records : List FilteredTrade := []

namespace EntryFilter

/-- A buy of a loop turn, of an order with this signal. -/
def buy (state : EntryFilter) (signal : Signal) (fill : Fill) : Except EntryFilterError EntryFilter :=
  if state.quantity = 0 then
    .ok { state with
      quantity := fill.quantity, weightedEntry := fill.price, entryCommission := fill.commission
      entrySignal := some signal, entryFillTime := some fill.timestamp }
  else
    let totalQuantity := state.quantity + fill.quantity
    if totalQuantity = 0 then .error .divisionByZero
    else .ok { state with
      quantity := totalQuantity
      weightedEntry := (state.weightedEntry * state.quantity + fill.price * fill.quantity) / totalQuantity
      entryCommission := state.entryCommission + fill.commission }

/-- The trade that a sell closes. -/
def close (state : EntryFilter) (signal : Signal) (fill : Fill) : Except EntryFilterError ReconstructedTrade :=
  if state.quantity ≤ 0 then .error .sellWithoutPosition
  else
    match state.entrySignal, state.entryFillTime with
    | some entrySignal, some entryFillTime =>
      if |fill.quantity - state.quantity| > qtyTolerance then
        .error (.partialSell fill.quantity state.quantity)
      else
        let pnl := (fill.price - state.weightedEntry) * state.quantity - state.entryCommission -
          fill.commission
        .ok ⟨entrySignal.timestamp, entryFillTime, fill.timestamp, pnl, orUnknown (some signal.reason)⟩
    | _, _ => .error .sellWithoutPosition

/-- A sell of a loop turn. -/
def sell (context : FilterWindow) (state : EntryFilter) (signal : Signal) (fill : Fill) :
    Except EntryFilterError EntryFilter := do
  let trade ← state.close signal fill
  let record ← context.record trade
  return { records := state.records ++ [record] }

/-- A turn of the loop of `reconstruct_window_counterfactual`. -/
def fill (context : FilterWindow) (signalByOrderId : Dict String Signal) (state : EntryFilter) (fill : Fill) :
    Except EntryFilterError EntryFilter :=
  match signalByOrderId.get? fill.orderId with
  | none => .error (.noSignal fill.orderId)
  | some signal =>
    let side := fill.side.text.toLower
    if side = "buy" then state.buy signal fill
    else if side ≠ "sell" then .error (.unsupportedSide side)
    else state.sell context signal fill

end EntryFilter

/-- `PNL_TOLERANCE` of the report -/
def filterPnlTolerance : Decimal := 1 / 10 ^ 9

/-- `reconstruct_window_counterfactual` -/
def reconstructWindowCounterfactual (context : FilterWindow) (backtest : BacktestResult) :
    Except EntryFilterError (List FilteredTrade) := do
  let state ← backtest.fills.foldlM
    (EntryFilter.fill context (.ofItems Order.orderId Order.signal backtest.orders)) {}
  let reconstructedPnl := (state.records.map FilteredTrade.realizedPnl).sum
  if state.quantity ≠ 0 then .error .openAtEnd
  else if state.records.length ≠ backtest.totalTrades then
    .error (.tradeCount state.records.length backtest.totalTrades)
  else if |reconstructedPnl - backtest.totalPnl| > filterPnlTolerance then
    .error (.pnl reconstructedPnl backtest.totalPnl)
  else .ok state.records

/-! ### The report over the windows -/

/-- `_avg` of the values that are there -/
def averageGiven (values : List (Option Decimal)) : Option Decimal :=
  let valid := values.filterMap id
  if valid = [] then none else some (valid.sum / valid.length)

/-- `_median` of the values that are there -/
def medianGiven (values : List (Option Decimal)) : Option Decimal :=
  let ordered := (values.filterMap id).mergeSort
  let middle := ordered.length / 2
  if ordered = [] then none
  else if ordered.length % 2 = 1 then ordered[middle]?
  else some ((ordered.getD (middle - 1) 0 + ordered.getD middle 0) / 2)

structure FeatureSummary where
  trades : ℕ
  averagePnl : Decimal
  averageRsi : Option Decimal
  medianRsi : Option Decimal
  averageCloseToEma200 : Option Decimal
  medianCloseToEma200 : Option Decimal
  averageEma20Slope10 : Option Decimal
  averageEma50Slope10 : Option Decimal
  averageEma200Slope10 : Option Decimal
  medianEma200Slope10 : Option Decimal
  averageAtrPct : Option Decimal
  averageVolatility : Option Decimal
  averageRegimeConfidence : Option Decimal
  averageTrendUpAgeBars : Option Decimal
  medianTrendUpAgeBars : Option Decimal
  deriving DecidableEq

/-- `summarize_features` -/
def summarizeFeatures (records : List FilteredTrade) : FeatureSummary :=
  let slopes := records.map fun record => some record.entryEma200Slope10
  let ages := records.map fun record => some (record.trendUpAgeBars : Decimal)
  { trades := records.length
    averagePnl := (averageGiven (records.map fun record => some record.realizedPnl)).getD 0
    averageRsi := averageGiven (records.map FilteredTrade.rsi)
    medianRsi := medianGiven (records.map FilteredTrade.rsi)
    averageCloseToEma200 := averageGiven (records.map FilteredTrade.closeToEma200)
    medianCloseToEma200 := medianGiven (records.map FilteredTrade.closeToEma200)
    averageEma20Slope10 := averageGiven (records.map FilteredTrade.ema20Slope10)
    averageEma50Slope10 := averageGiven (records.map FilteredTrade.ema50Slope10)
    averageEma200Slope10 := averageGiven slopes
    medianEma200Slope10 := medianGiven slopes
    averageAtrPct := averageGiven (records.map FilteredTrade.atrPct)
    averageVolatility := averageGiven (records.map FilteredTrade.volatility)
    averageRegimeConfidence := averageGiven (records.map FilteredTrade.regimeConfidence)
    averageTrendUpAgeBars := averageGiven ages
    medianTrendUpAgeBars := medianGiven ages }

/-- The `CounterfactualReport` of the report. -/
structure EntryFilterReport where
  symbol : String
  trades : List FilteredTrade
  baselineOosPnl : Decimal
  totalTrades : ℕ
  passWinner : ℕ
  passTdLoss : ℕ
  passOther : ℕ
  filteredWinner : ℕ
  filteredTdLoss : ℕ
  filteredOther : ℕ
  filteredWinnerFeatures : FeatureSummary
  filteredTdLossFeatures : FeatureSummary
  thresholds : List WindowThreshold

/-- `summarize_counterfactual` -/
def summarizeCounterfactual (symbol : String) (records : List FilteredTrade) (baselineOosPnl : Decimal)
    (thresholds : List WindowThreshold) : EntryFilterReport :=
  let count (passes : Bool) (outcome : OutcomeGroup) :=
    records.countP fun record => decide (record.filterGroup = (passes, outcome))
  let features (group : Bool × OutcomeGroup) :=
    summarizeFeatures (records.filter fun record => decide (record.filterGroup = group))
  { symbol, trades := records, baselineOosPnl, totalTrades := records.length
    passWinner := count true .winner, passTdLoss := count true .tdLoss, passOther := count true .other
    filteredWinner := count false .winner, filteredTdLoss := count false .tdLoss
    filteredOther := count false .other
    filteredWinnerFeatures := features (false, .winner), filteredTdLossFeatures := features (false, .tdLoss)
    thresholds }

/-- The candle with the indicators that the baseline reads. -/
def EntryIndicators.plain (candle : BacktestCandle EntryIndicators) : BacktestCandle StrategyIndicators :=
  { candle with indicators := candle.indicators.toStrategyIndicators }

def EntryIndicators.sloped (candle : BacktestCandle EntryIndicators) : BacktestCandle SlopeIndicators :=
  { candle with indicators := candle.indicators.toSlopeIndicators }

/-- `add_ema200_slope_10`, of candles with all the indicators -/
def enriched (candles : List (BacktestCandle EntryIndicators)) : List (BacktestCandle EntryIndicators) :=
  candles.zipIdx.map fun item =>
    { item.1 with
      indicators := { item.1.indicators with
        ema200Slope10 := ema200SlopeAt (candles.map EntryIndicators.plain) item.2 } }

/-- The threshold that the training of a window gives. -/
def thresholdOf (candles : List (BacktestCandle SlopeIndicators)) (window : WalkForwardWindow) :
    Except WalkForwardError WindowThreshold :=
  (deriveTrainP75Threshold candles window).map fun derived =>
    { windowIndex := window.index, trainOpportunities := derived.2, threshold := derived.1 }

namespace SlopeExperiment

variable (experiment : SlopeExperiment) (config : WalkForwardConfig) (symbol : String)

/-- The baseline, and what its engine is given. -/
def baseline : OutOfSampleSetup TrendDCAState StrategyIndicators where
  strategyFactory _ := ((trendDCAStrategy { experiment.identity with config := {} }).base, {})
  draws := experiment.draws
  clock := experiment.clock
  runId := experiment.runId

/-- A turn of the loop over the windows: the threshold, the records and the result of the baseline. -/
def filterTurn (candles : List (BacktestCandle EntryIndicators)) (window : WalkForwardWindow) :
    Except EntryFilterError (WindowThreshold × List FilteredTrade × Decimal) := do
  let threshold ← (thresholdOf (candles.map EntryIndicators.sloped) window).mapError .windows
  let testCandles := window.testCandles candles
  let expected := expectedCandles (window.testEnd - window.testStart) 3600
  if (testCandles.length : ℤ) ≠ expected then
    .error (.incompleteWindow window.index expected testCandles.length)
  else
    let backtest ← (experiment.baseline.runTestWindow config symbol window
      (testCandles.map EntryIndicators.plain)).mapError .outOfSample
    let records ← reconstructWindowCounterfactual
      { symbol, window, threshold, allCandles := candles } backtest
    return (threshold, records, backtest.totalPnl)

/-- `run_entry_filter_counterfactual` -/
def entryFilter (interval : String) (candles : List (BacktestCandle EntryIndicators))
    (start finish : Datetime) : Except EntryFilterError EntryFilterReport := do
  if interval ≠ "1h" then .error .unsupportedInterval
  else
    let windows ← (config.generateWindows start finish).mapError .windows
    let turns ← windows.mapM (experiment.filterTurn config symbol (enriched candles))
    return summarizeCounterfactual symbol (turns.flatMap fun turn => turn.2.1)
      (turns.map fun turn => turn.2.2).sum (turns.map Prod.fst)

end SlopeExperiment

/-! ### The trades of the entry funnel -/

/-- What the report on the entry funnel keeps of a record. -/
def FilteredTrade.trade (record : FilteredTrade) : ReconstructedTrade :=
  ⟨record.entrySignalTime, record.entryFillTime, record.exitTime, record.realizedPnl, record.exitReason⟩

section Labels

variable {context : FilterWindow} {trade : ReconstructedTrade} {record : FilteredTrade}

theorem FilterWindow.record_trade (h : context.record trade = .ok record) : record.trade = trade := by
  unfold FilterWindow.record at h
  split at h
  · cases h
  split at h
  · cases h
  · cases h
    rfl

/-- The label of a record is that of the slope at its entry. -/
theorem FilterWindow.record_label (h : context.record trade = .ok record) :
    record.windowIndex = context.window.index ∧
      (record.wouldPassP75 = true ↔ context.threshold.threshold ≤ record.entryEma200Slope10) ∧
      record.filterGroup.1 = record.wouldPassP75 ∧
      ∃ candle ∈ context.allCandles, candle.openTime = record.entrySignalTime ∧
        candle.indicators.ema200Slope10 = some record.entryEma200Slope10 := by
  unfold FilterWindow.record at h
  split at h
  · cases h
  rename_i candle index hfound
  split at h
  · cases h
  · rename_i slope hslope
    cases h
    have htime := List.find?_some hfound
    have hmem := List.mem_reverse.mp (List.mem_of_find?_eq_some hfound)
    rw [decide_eq_true_eq] at htime
    exact ⟨rfl, decide_eq_true_iff, rfl, candle, List.fst_mem_of_mem_zipIdx hmem, htime, hslope⟩

end Labels

namespace EntryFilter

/-- What the report on the entry funnel keeps of the variables. -/
def funnel (state : EntryFilter) : Funnel where
  quantity := state.quantity
  weightedEntry := state.weightedEntry
  entryCommission := state.entryCommission
  entrySignalTime := state.entrySignal.map Signal.timestamp
  entryFillTime := state.entryFillTime
  records := state.records.map FilteredTrade.trade

section Loop

variable {context : FilterWindow} {signals : Dict String Signal} {state next : EntryFilter}
  {kept after : Funnel} {signal : Signal} {fill : Fill} {labels : List FilteredTrade}

theorem buy_funnel (state : EntryFilter) (signal : Signal) (fill : Fill) :
    (state.buy signal fill).toOption.map funnel = (state.funnel.buy signal fill).toOption := by
  unfold buy Funnel.buy
  by_cases hflat : state.quantity = 0
  · rw [if_pos hflat, if_pos (show state.funnel.quantity = 0 from hflat)]
    rfl
  rw [if_neg hflat, if_neg (show ¬state.funnel.quantity = 0 from hflat)]
  dsimp only
  by_cases htotal : state.quantity + fill.quantity = 0
  · rw [if_pos htotal, if_pos (show state.funnel.quantity + fill.quantity = 0 from htotal)]
    rfl
  · rw [if_neg htotal, if_neg (show ¬state.funnel.quantity + fill.quantity = 0 from htotal)]
    rfl

theorem buy_records (h : state.buy signal fill = .ok next) : next.records = state.records := by
  unfold buy at h
  split at h
  · cases h
    rfl
  dsimp only at h
  split at h
  · cases h
  · cases h
    rfl

theorem close_funnel (state : EntryFilter) (signal : Signal) (fill : Fill) :
    ((state.close signal fill).toOption.map fun trade =>
      ({ records := state.funnel.records ++ [trade] } : Funnel)) =
      (state.funnel.sell signal fill).toOption := by
  have hsignal : state.funnel.entrySignalTime = state.entrySignal.map Signal.timestamp := rfl
  have hfill : state.funnel.entryFillTime = state.entryFillTime := rfl
  unfold close Funnel.sell
  by_cases hheld : state.quantity ≤ 0
  · rw [if_pos hheld, if_pos (show state.funnel.quantity ≤ 0 from hheld)]
    rfl
  rw [if_neg hheld, if_neg (show ¬state.funnel.quantity ≤ 0 from hheld), hsignal, hfill]
  cases state.entrySignal with
  | none => rfl
  | some entrySignal =>
    cases state.entryFillTime with
    | none => rfl
    | some entryFillTime =>
      dsimp only [Option.map_some]
      by_cases hpartial : |fill.quantity - state.quantity| > qtyTolerance
      · rw [if_pos hpartial,
          if_pos (show |fill.quantity - state.funnel.quantity| > qtyTolerance from hpartial)]
        rfl
      · rw [if_neg hpartial,
          if_neg (show ¬|fill.quantity - state.funnel.quantity| > qtyTolerance from hpartial)]
        rfl

/-- The loop keeps what the funnel keeps, and its records are the labels of the funnel's. -/
structure Follows (context : FilterWindow) (state : EntryFilter) (kept : Funnel) : Prop where
  keeps : state.funnel = kept
  labels : kept.records.mapM context.record = .ok state.records

theorem Follows.turn (h : state.Follows context kept) (hstep : state.fill context signals fill = .ok next) :
    ∃ after, kept.fill signals fill = .ok after ∧ next.Follows context after := by
  obtain ⟨rfl, hlabels⟩ := h
  unfold EntryFilter.fill at hstep
  unfold Funnel.fill
  cases hsignal : signals.get? fill.orderId with
  | none =>
    rw [hsignal] at hstep
    cases hstep
  | some signal =>
    rw [hsignal] at hstep
    dsimp only at hstep ⊢
    by_cases hbuy : fill.side.text.toLower = "buy"
    · rw [if_pos hbuy] at hstep ⊢
      refine ⟨next.funnel, toOption_eq_some_iff.mp ?_, rfl, ?_⟩
      · rw [← buy_funnel, hstep]
        rfl
      · have hrecords := buy_records hstep
        change (next.records.map FilteredTrade.trade).mapM context.record = .ok next.records
        rw [hrecords]
        exact hlabels
    rw [if_neg hbuy] at hstep ⊢
    by_cases hsell : fill.side.text.toLower ≠ "sell"
    · rw [if_pos hsell] at hstep
      cases hstep
    rw [if_neg hsell] at hstep ⊢
    obtain ⟨trade, hclose, hstep⟩ := bind_eq_ok_iff.mp hstep
    obtain ⟨record, hrecord, hstep⟩ := bind_eq_ok_iff.mp hstep
    cases hstep
    refine ⟨{ records := state.funnel.records ++ [trade] }, toOption_eq_some_iff.mp ?_, ?_, ?_⟩
    · rw [← close_funnel, hclose]
      rfl
    · simp [funnel, FilterWindow.record_trade hrecord]
    · dsimp only
      rw [mapM_append_of_ok hlabels, List.mapM_cons, hrecord]
      rfl

/-- A turn of the funnel whose trades can be labelled is a turn of this loop. -/
theorem Follows.exists_turn (h : state.Follows context kept) (hstep : kept.fill signals fill = .ok after)
    (hlabels : after.records.mapM context.record = .ok labels) :
    ∃ next, state.fill context signals fill = .ok next ∧ next.Follows context after := by
  suffices hreturns : ∃ next, state.fill context signals fill = .ok next by
    obtain ⟨next, hnext⟩ := hreturns
    obtain ⟨other, hother, hfollows⟩ := h.turn hnext
    obtain rfl : other = after := by simpa using hother.symm.trans hstep
    exact ⟨next, hnext, hfollows⟩
  obtain ⟨rfl, hkept⟩ := h
  unfold Funnel.fill at hstep
  unfold EntryFilter.fill
  cases hsignal : signals.get? fill.orderId with
  | none =>
    rw [hsignal] at hstep
    cases hstep
  | some signal =>
    rw [hsignal] at hstep
    dsimp only at hstep ⊢
    by_cases hbuy : fill.side.text.toLower = "buy"
    · rw [if_pos hbuy] at hstep ⊢
      have hbought := toOption_eq_some_iff.mpr hstep
      rw [← buy_funnel, Option.map_eq_some_iff] at hbought
      obtain ⟨next, hnext, -⟩ := hbought
      exact ⟨next, toOption_eq_some_iff.mp hnext⟩
    rw [if_neg hbuy] at hstep ⊢
    by_cases hsell : fill.side.text.toLower ≠ "sell"
    · rw [if_pos hsell] at hstep
      cases hstep
    rw [if_neg hsell] at hstep ⊢
    have hsold := toOption_eq_some_iff.mpr hstep
    rw [← close_funnel, Option.map_eq_some_iff] at hsold
    obtain ⟨trade, hclose, rfl⟩ := hsold
    dsimp only at hlabels
    rw [mapM_append_of_ok hkept] at hlabels
    obtain ⟨rest, hrest, -⟩ := map_eq_ok_iff.mp hlabels
    rw [List.mapM_cons] at hrest
    obtain ⟨record, hrecord, -⟩ := bind_eq_ok_iff.mp hrest
    exact ⟨_, bind_eq_ok_iff.mpr ⟨trade, toOption_eq_some_iff.mp hclose,
      bind_eq_ok_iff.mpr ⟨record, hrecord, rfl⟩⟩⟩

end Loop

end EntryFilter

theorem Funnel.fill_records {kept after : Funnel} {signals : Dict String Signal} {fill : Fill}
    (h : kept.fill signals fill = .ok after) : ∃ more, after.records = kept.records ++ more := by
  unfold Funnel.fill at h
  split at h
  · cases h
  dsimp only at h
  split at h
  · unfold Funnel.buy at h
    split at h
    · cases h
      exact ⟨[], (List.append_nil _).symm⟩
    dsimp only at h
    split at h
    · cases h
    · cases h
      exact ⟨[], (List.append_nil _).symm⟩
  split at h
  · cases h
  unfold Funnel.sell at h
  split at h
  · cases h
  split at h
  · split at h
    · cases h
    · cases h
      exact ⟨_, rfl⟩
  · cases h

namespace EntryFilter

variable (context : FilterWindow) (signals : Dict String Signal)

theorem fills_follow (fills : List Fill) :
    (∀ state, fills.foldlM (fill context signals) {} = .ok state →
      ∃ kept, fills.foldlM (Funnel.fill signals) {} = .ok kept ∧ state.Follows context kept) ∧
      ∀ kept labels, fills.foldlM (Funnel.fill signals) {} = .ok kept →
        kept.records.mapM context.record = .ok labels →
        ∃ state, fills.foldlM (fill context signals) {} = .ok state ∧ state.Follows context kept := by
  induction fills using List.reverseRecOn with
  | nil =>
    constructor
    · intro state h
      cases h
      exact ⟨{}, rfl, rfl, rfl⟩
    · intro kept labels h _
      cases h
      exact ⟨{}, rfl, rfl, rfl⟩
  | append_singleton fills last ih =>
    simp only [List.foldlM_append, List.foldlM_cons, List.foldlM_nil, bind_pure]
    constructor
    · intro state h
      obtain ⟨before, hbefore, hlast⟩ := bind_eq_ok_iff.mp h
      obtain ⟨kept, hkept, hfollows⟩ := ih.1 before hbefore
      obtain ⟨after, hafter, hfollows⟩ := hfollows.turn hlast
      exact ⟨after, bind_eq_ok_iff.mpr ⟨kept, hkept, hafter⟩, hfollows⟩
    · intro after labels h hlabels
      obtain ⟨kept, hkept, hlast⟩ := bind_eq_ok_iff.mp h
      obtain ⟨more, hmore⟩ := Funnel.fill_records hlast
      -- The trades before this turn are labelled where those after it are.
      obtain ⟨first, hfirst⟩ : ∃ first, kept.records.mapM context.record = .ok first := by
        rw [hmore, List.mapM_append] at hlabels
        obtain ⟨first, hfirst, -⟩ := bind_eq_ok_iff.mp hlabels
        exact ⟨first, hfirst⟩
      obtain ⟨state, hstate, hfollows⟩ := ih.2 kept first hkept hfirst
      obtain ⟨next, hnext, hfollows⟩ := hfollows.exists_turn hlast hlabels
      exact ⟨next, bind_eq_ok_iff.mpr ⟨state, hstate, hnext⟩, hfollows⟩

end EntryFilter

section Reconstructed

variable {context : FilterWindow} {backtest : BacktestResult} {records : List FilteredTrade}

theorem reconstructWindowCounterfactual_eq_ok_iff :
    reconstructWindowCounterfactual context backtest = .ok records ↔
      ∃ state, backtest.fills.foldlM
          (EntryFilter.fill context (.ofItems Order.orderId Order.signal backtest.orders)) {} = .ok state ∧
        state.quantity = 0 ∧ state.records.length = backtest.totalTrades ∧
        |(state.records.map FilteredTrade.realizedPnl).sum - backtest.totalPnl| ≤ filterPnlTolerance ∧
        state.records = records := by
  unfold reconstructWindowCounterfactual
  refine bind_eq_ok_iff.trans (exists_congr fun state => and_congr_right fun _ => ?_)
  dsimp only
  split
  · rename_i hopen
    exact ⟨fun h => (by cases h), fun h => absurd h.1 hopen⟩
  rename_i hflat
  split
  · rename_i hcount
    exact ⟨fun h => (by cases h), fun h => absurd h.2.1 hcount⟩
  rename_i hcount
  split
  · rename_i hpnl
    exact ⟨fun h => (by cases h), fun h => absurd h.2.2.1 (not_le.mpr hpnl)⟩
  · rename_i hpnl
    simp [not_not.mp hflat, not_not.mp hcount, not_lt.mp hpnl]

theorem reconstructTrades_of_fills {kept : Funnel}
    (h : backtest.fills.foldlM (Funnel.fill (.ofItems Order.orderId Order.signal backtest.orders)) {} =
      .ok kept) :
    reconstructTrades backtest =
      if kept.quantity ≠ 0 then .error .openAtEnd
      else if kept.records.length ≠ backtest.totalTrades then
        .error (.tradeCount kept.records.length backtest.totalTrades)
      else if |(kept.records.map ReconstructedTrade.pnl).sum - backtest.totalPnl| > pnlTolerance then
        .error (.pnl (kept.records.map ReconstructedTrade.pnl).sum backtest.totalPnl)
      else .ok kept.records := by
  unfold reconstructTrades
  rw [h]
  rfl

theorem fills_of_reconstructTrades {trades : List ReconstructedTrade}
    (h : reconstructTrades backtest = .ok trades) :
    ∃ kept, backtest.fills.foldlM
        (Funnel.fill (.ofItems Order.orderId Order.signal backtest.orders)) {} = .ok kept ∧
      kept.quantity = 0 ∧ kept.records.length = backtest.totalTrades ∧
      |(kept.records.map ReconstructedTrade.pnl).sum - backtest.totalPnl| ≤ pnlTolerance ∧
      kept.records = trades := by
  obtain ⟨kept, hkept, -⟩ := bind_eq_ok_iff.mp (by unfold reconstructTrades at h; exact h)
  rw [reconstructTrades_of_fills hkept] at h
  split at h
  · cases h
  rename_i hflat
  split at h
  · cases h
  rename_i hcount
  split at h
  · cases h
  · rename_i hpnl
    cases h
    exact ⟨kept, hkept, not_not.mp hflat, not_not.mp hcount, not_lt.mp hpnl, rfl⟩

/-- The records of a loop that follows the funnel have its number and its results. -/
theorem EntryFilter.Follows.totals {state : EntryFilter} {kept : Funnel} (h : state.Follows context kept) :
    state.quantity = kept.quantity ∧ state.records.length = kept.records.length ∧
      state.records.map FilteredTrade.realizedPnl = kept.records.map ReconstructedTrade.pnl := by
  obtain ⟨rfl, -⟩ := h
  refine ⟨rfl, (List.length_map _).symm, ?_⟩
  change _ = (state.records.map FilteredTrade.trade).map ReconstructedTrade.pnl
  rw [List.map_map]
  rfl

end Reconstructed

/-! ### The cells of the report -/

/-- Every record is in one of the six cells. -/
theorem sum_of_cells (symbol : String) (records : List FilteredTrade) (baselineOosPnl : Decimal)
    (thresholds : List WindowThreshold) :
    let report := summarizeCounterfactual symbol records baselineOosPnl thresholds
    report.passWinner + report.passTdLoss + report.passOther +
      (report.filteredWinner + report.filteredTdLoss + report.filteredOther) = report.totalTrades := by
  dsimp only [summarizeCounterfactual]
  induction records with
  | nil => rfl
  | cons record rest ih =>
    simp only [List.countP_cons, List.length_cons]
    obtain ⟨passes, outcome⟩ := record.filterGroup
    cases passes <;> cases outcome <;> simp <;> omega

theorem enriched_sloped (candles : List (BacktestCandle EntryIndicators)) :
    (enriched candles).map EntryIndicators.sloped = addEma200Slope10 (candles.map EntryIndicators.plain) := by
  unfold enriched addEma200Slope10
  rw [List.zipIdx_map, List.map_map, List.map_map]
  rfl

section Turns

variable {experiment : SlopeExperiment} {config : WalkForwardConfig} {symbol interval : String}
  {candles : List (BacktestCandle EntryIndicators)} {window : WalkForwardWindow}

theorem thresholdOf_windowTurn {slopes : List (BacktestCandle SlopeIndicators)}
    {turn : WindowThreshold × WalkForwardWindowResult}
    (h : experiment.windowTurn config symbol interval slopes window = .ok turn) :
    thresholdOf slopes window = .ok turn.1 := by
  obtain ⟨derived, hderived, h⟩ := bind_eq_ok_iff.mp h
  obtain ⟨_, -, h⟩ := bind_eq_ok_iff.mp h
  obtain ⟨_, -, h⟩ := bind_eq_ok_iff.mp h
  cases h
  exact map_eq_ok_iff.mpr ⟨derived, mapError_eq_ok_iff.mp hderived, rfl⟩

theorem filterTurn_ok {turn : WindowThreshold × List FilteredTrade × Decimal}
    (h : experiment.filterTurn config symbol candles window = .ok turn) :
    thresholdOf (candles.map EntryIndicators.sloped) window = .ok turn.1 ∧
      ∃ backtest : BacktestResult, turn.2.2 = backtest.totalPnl ∧ reconstructWindowCounterfactual
        { symbol, window, threshold := turn.1, allCandles := candles } backtest = .ok turn.2.1 := by
  obtain ⟨threshold, hthreshold, h⟩ := bind_eq_ok_iff.mp h
  dsimp only at h
  split at h
  · cases h
  obtain ⟨backtest, -, h⟩ := bind_eq_ok_iff.mp h
  obtain ⟨records, hrecords, h⟩ := bind_eq_ok_iff.mp h
  cases h
  exact ⟨mapError_eq_ok_iff.mp hthreshold, backtest, rfl, hrecords⟩

/-- The records of a turn make what its baseline has made, and each has the label of its threshold. -/
theorem filterTurn_records {turn : WindowThreshold × List FilteredTrade × Decimal}
    (h : experiment.filterTurn config symbol candles window = .ok turn) :
    |(turn.2.1.map FilteredTrade.realizedPnl).sum - turn.2.2| ≤ filterPnlTolerance ∧
      ∀ record ∈ turn.2.1, record.windowIndex = turn.1.windowIndex ∧
        (record.wouldPassP75 = true ↔ turn.1.threshold ≤ record.entryEma200Slope10) ∧
        record.filterGroup.1 = record.wouldPassP75 ∧
        ∃ candle ∈ candles, candle.openTime = record.entrySignalTime ∧
          candle.indicators.ema200Slope10 = some record.entryEma200Slope10 := by
  obtain ⟨hthreshold, backtest, hpnl, hrecords⟩ := filterTurn_ok h
  obtain ⟨state, hstate, -, -, hbound, hsame⟩ := reconstructWindowCounterfactual_eq_ok_iff.mp hrecords
  rw [hsame, ← hpnl] at hbound
  refine ⟨hbound, fun record hrecord => ?_⟩
  obtain ⟨kept, -, hfollows⟩ := (EntryFilter.fills_follow _ _ _).1 state hstate
  obtain ⟨trade, -, hlabel⟩ := (mapM_eq_ok hfollows.labels).2 record (hsame ▸ hrecord)
  obtain ⟨derived, -, hturn⟩ := map_eq_ok_iff.mp hthreshold
  have hindex : window.index = turn.1.windowIndex := by rw [← hturn]
  obtain ⟨hwindow, hrest⟩ := FilterWindow.record_label hlabel
  exact ⟨hwindow.trans hindex, hrest⟩

theorem sum_of_turns {turns : List (WindowThreshold × List FilteredTrade × Decimal)}
    (h : ∀ turn ∈ turns, |(turn.2.1.map FilteredTrade.realizedPnl).sum - turn.2.2| ≤ filterPnlTolerance) :
    |((turns.flatMap fun turn => turn.2.1).map FilteredTrade.realizedPnl).sum -
      (turns.map fun turn => turn.2.2).sum| ≤ turns.length * filterPnlTolerance := by
  induction turns with
  | nil => simp
  | cons turn rest ih =>
    have hfirst := h turn List.mem_cons_self
    have hrest := ih fun other hother => h other (List.mem_cons_of_mem _ hother)
    rw [List.flatMap_cons, List.map_append, List.sum_append, List.map_cons, List.sum_cons, add_sub_add_comm,
      List.length_cons, Nat.cast_succ, add_mul, one_mul, add_comm (_ * _)]
    exact (abs_add_le _ _).trans (add_le_add hfirst hrest)

end Turns

/-- The report is about the trades that the baseline has made, each of them in one cell. -/
structure EntryFilterReport.AddsUp (report : EntryFilterReport) (candles : List (BacktestCandle EntryIndicators)) :
    Prop where
  total : report.totalTrades = report.trades.length
  cells : report.passWinner + report.passTdLoss + report.passOther +
    (report.filteredWinner + report.filteredTdLoss + report.filteredOther) = report.totalTrades
  pnl : |(report.trades.map FilteredTrade.realizedPnl).sum - report.baselineOosPnl| ≤
    report.thresholds.length * filterPnlTolerance
  labels : ∀ record ∈ report.trades, ∃ threshold ∈ report.thresholds,
    record.windowIndex = threshold.windowIndex ∧
      (record.wouldPassP75 = true ↔ threshold.threshold ≤ record.entryEma200Slope10) ∧
      record.filterGroup.1 = record.wouldPassP75 ∧
      ∃ candle ∈ candles, candle.openTime = record.entrySignalTime ∧
        candle.indicators.ema200Slope10 = some record.entryEma200Slope10

/-- Each trade of a report is in one cell, with the slope at its entry and the threshold of its window, and
they make what the baseline has made.  The thresholds are those by which the experiment on the same candles
trades. -/
theorem entry_filter_adds_up (experiment : SlopeExperiment) (config : WalkForwardConfig)
    (symbol interval : String) (candles : List (BacktestCandle EntryIndicators)) (start finish : Datetime)
    (report : EntryFilterReport)
    (h : experiment.entryFilter config symbol interval candles start finish = .ok report) :
    report.AddsUp (enriched candles) ∧ ∀ result,
      experiment.walkForward config symbol interval (candles.map EntryIndicators.plain) start finish =
        .ok result → result.thresholds = report.thresholds := by
  unfold SlopeExperiment.entryFilter at h
  split at h
  · cases h
  obtain ⟨windows, hwindows, h⟩ := bind_eq_ok_iff.mp h
  obtain ⟨turns, hturns, h⟩ := bind_eq_ok_iff.mp h
  cases h
  have hreturns := (mapM_eq_ok hturns).2
  constructor
  · refine ⟨rfl, sum_of_cells _ _ _ _, ?_, ?_⟩
    · dsimp only [summarizeCounterfactual]
      rw [List.length_map]
      refine sum_of_turns fun turn hturn => ?_
      obtain ⟨window, -, hturn⟩ := hreturns turn hturn
      exact (filterTurn_records hturn).1
    · intro record hrecord
      obtain ⟨turn, hturn, hmem⟩ := List.mem_flatMap.mp hrecord
      obtain ⟨window, -, hmade⟩ := hreturns turn hturn
      exact ⟨turn.1, List.mem_map_of_mem hturn, (filterTurn_records hmade).2 record hmem⟩
  · intro result hresult
    obtain ⟨windows', hwindows', hresult⟩ := bind_eq_ok_iff.mp hresult
    obtain ⟨turns', hturns', hresult⟩ := bind_eq_ok_iff.mp hresult
    cases hresult
    have hsame : windows' = windows := by
      simpa using (mapError_eq_ok_iff.mp hwindows').symm.trans (mapError_eq_ok_iff.mp hwindows)
    subst hsame
    have hfilter := mapM_of_mapM (fun window turn hturn => (filterTurn_ok hturn).1) hturns
    have hexperiment := mapM_of_mapM (fun window turn hturn => thresholdOf_windowTurn hturn) hturns'
    rw [enriched_sloped] at hfilter
    simpa [summarizeCounterfactual] using hexperiment.symm.trans hfilter

def entryCandle (index : ℕ) : BacktestCandle EntryIndicators :=
  { slopeCandle index with
    indicators := { toStrategyIndicators := (slopeCandle index).indicators, ema200Slope10 := none } }

def entryCandles (count : ℕ) : List (BacktestCandle EntryIndicators) := (List.range count).map entryCandle

theorem second_day_labelled : ∃ report,
    undrawnExperiment.entryFilter dailySlope "BTCUSDT" "1h" (entryCandles 48) 0 (2 * day) = .ok report ∧
      report.totalTrades = 1 ∧ report.AddsUp (enriched (entryCandles 48)) := by
  have hturns : (([dailySlope.windowAt 1 0].mapM (undrawnExperiment.filterTurn dailySlope "BTCUSDT"
      (enriched (entryCandles 48)))).toOption.any fun turns =>
        decide ((turns.flatMap fun turn => turn.2.1).length = 1)) = true := by
    decide +kernel
  obtain ⟨turns, hreturns, hlength⟩ := (Option.any_eq_true _ _).mp hturns
  have hreport : undrawnExperiment.entryFilter dailySlope "BTCUSDT" "1h" (entryCandles 48) 0 (2 * day) =
      .ok (summarizeCounterfactual "BTCUSDT" (turns.flatMap fun turn => turn.2.1)
        (turns.map fun turn => turn.2.2).sum (turns.map Prod.fst)) := by
    unfold SlopeExperiment.entryFilter
    rw [if_neg (by decide), dailySlope_window]
    exact bind_eq_ok_iff.mpr ⟨_, rfl, bind_eq_ok_iff.mpr ⟨turns, toOption_eq_some_iff.mp hreturns, rfl⟩⟩
  exact ⟨_, hreport, of_decide_eq_true hlength, (entry_filter_adds_up _ _ _ _ _ _ _ _ hreport).1⟩

end CryptoTrading
