import CryptoTrading.Backtest.BacktestEngine
import CryptoTrading.Kit.Fallible

/-! The interface that the strategies implement, and the Trend DCA strategy. -/

namespace CryptoTrading

open Kit

/-! ### `base_strategy.py` -/

/-- The indicators that the strategies read. -/
structure StrategyIndicators where
  ema20 : Option Decimal := none
  ema50 : Option Decimal := none
  ema200 : Option Decimal := none
  rsi : Option Decimal := none
  regime : Option String := none
  volatility : Option Decimal := none
  deriving DecidableEq

/-- A `BaseStrategy` whose calls return a signal or none, as their types say. -/
structure SignalStrategy (σ ι : Type) where
  shouldEnter : σ → BacktestCandle ι → ι → EntryState → Except BacktestError (σ × Option Signal)
  shouldExit : σ → BacktestCandle ι → ι → PositionState → Except BacktestError (σ × Option Signal)
  shouldAddDca : σ → BacktestCandle ι → ι → PositionState → Except BacktestError (σ × Option Signal)
  onFill : σ → Signal → Fill → Except BacktestError σ

/-- What the engine makes of a signal or none. -/
def asSignalList {σ : Type} (called : σ × Option Signal) : StrategyCall σ :=
  (called.1, called.2.map fun signal => [.signal signal])

/-- The strategy, as the engine calls it. -/
def SignalStrategy.base {σ ι : Type} (strategy : SignalStrategy σ ι) : BaseStrategy σ ι where
  shouldEnter state candle indicators entry :=
    (strategy.shouldEnter state candle indicators entry).map asSignalList
  shouldExit state candle indicators position :=
    (strategy.shouldExit state candle indicators position).map asSignalList
  shouldAddDca := some fun state candle indicators position =>
    (strategy.shouldAddDca state candle indicators position).map asSignalList
  onFill := strategy.onFill

/-! ### `trend_dca.py` -/

/-- `MarketRegime.TREND_UP`. -/
def trendUp : String := "TREND_UP"

/-- `MarketRegime.TREND_DOWN`. -/
def trendDown : String := "TREND_DOWN"

structure DCAConfig where
  parametersVersion : String := "trend_dca_v1"
  baseOrderPct : Decimal := 1 / 4
  safetyOrder1Pct : Decimal := 1 / 5
  safetyOrder2Pct : Decimal := 1 / 4
  safetyOrder3Pct : Decimal := 3 / 10
  rsiEntryThreshold : Decimal := 45
  takeProfitPct : Decimal := 1 / 20
  stopLossPct : Decimal := 3 / 20
  trailingStopActivation : Decimal := 3 / 100
  trailingStopDistance : Decimal := 2 / 100
  maxHoldingPeriods : ℕ := 100
  maxCapitalPerPosition : Decimal := 1 / 10
  deriving DecidableEq

/-- What a strategy is constructed with, and the identity that is drawn for the signal that it creates at
a moment. -/
structure StrategyIdentity where
  name : String
  config : DCAConfig := {}
  newSignalId : Datetime → Identifier

/-- The state of `TrendDCAStrategy`, by symbol. -/
structure TrendDCAState where
  dcaLevels : Dict String ℤ := .empty
  trailingHighs : Dict String Decimal := .empty
  deriving DecidableEq

namespace StrategyIdentity

variable (strategy : StrategyIdentity) (candle : BacktestCandle StrategyIndicators)
  (indicators : StrategyIndicators)

/-- A signal to buy for a share of the capital that a position may take. -/
def openSignal (capital share : Decimal) (reason : String) (stopLoss takeProfit : Option Decimal)
    (metadata : SignalMetadata) : Except BacktestError Signal :=
  if candle.close = 0 then .error .divisionByZero
  else .ok {
    action := "open_long", symbol := candle.symbol, price := candle.close
    quantity := capital * strategy.config.maxCapitalPerPosition * share / candle.close
    timestamp := candle.openTime, reason, stopLoss, takeProfit, strategy := strategy.name
    parametersVersion := strategy.config.parametersVersion, regime := indicators.regime, metadata
    signalId := strategy.newSignalId candle.openTime }

/-- The signal of a base order, with its levels. -/
def baseOrder (capital : Decimal) (reason : String) (metadata : SignalMetadata) :
    Except BacktestError Signal :=
  strategy.openSignal candle indicators capital strategy.config.baseOrderPct reason
    (some (candle.close * (1 - strategy.config.stopLossPct)))
    (some (candle.close * (1 + strategy.config.takeProfitPct))) metadata

/-- A signal to sell the position. -/
def closeSignal (position : PositionState) (price : Decimal) (reason : String) : Signal :=
  { action := "close", symbol := candle.symbol, price, quantity := position.quantity
    timestamp := candle.openTime, reason, strategy := strategy.name
    parametersVersion := strategy.config.parametersVersion, regime := indicators.regime
    signalId := strategy.newSignalId candle.openTime }

/-- The trailing stop: the highs that are tracked after a candle, and the stop if it is hit. -/
def trail (trailingHighs : Dict String Decimal) (position : PositionState) :
    Dict String Decimal × Option Decimal :=
  let activationPrice := position.entryPrice * (1 + strategy.config.trailingStopActivation)
  let tracked := trailingHighs.get? candle.symbol
  if tracked.isSome || decide (candle.highPrice ≥ activationPrice) then
    let trailingHigh := max (truthyOr tracked candle.highPrice) candle.highPrice
    let raised := trailingHighs.set candle.symbol trailingHigh
    let trailingStop := trailingHigh * (1 - strategy.config.trailingStopDistance)
    if candle.lowPrice ≤ trailingStop then (raised.erase candle.symbol, some trailingStop)
    else (raised, none)
  else (trailingHighs, none)

end StrategyIdentity

namespace TrendDCAState

variable (state : TrendDCAState) (strategy : StrategyIdentity)
  (candle : BacktestCandle StrategyIndicators) (indicators : StrategyIndicators)

/-- `TrendDCAStrategy.should_enter`. -/
def shouldEnter (entry : EntryState) : Except BacktestError (TrendDCAState × Option Signal) :=
  match indicators.ema200, indicators.ema50, indicators.rsi, indicators.regime with
  | some ema200, some ema50, some rsi, some regime =>
    if entry.hasPosition then .ok (state, none)
    else if regime ≠ trendUp then .ok (state, none)
    else if candle.close ≤ ema200 then .ok (state, none)
    else if ema50 ≤ ema200 then .ok (state, none)
    else if rsi > strategy.config.rsiEntryThreshold then .ok (state, none)
    else if indicators.volatility.any fun volatility => decide (volatility > 8 / 10) then
      .ok (state, none)
    else do
      let signal ← strategy.baseOrder candle indicators entry.capital "Trend DCA base order"
        { dcaLevel := some 0 }
      return (state, some signal)
  | _, _, _, _ => .ok (state, none)

/-- What `should_exit` does after the exit on the regime: the trailing stop, and the profit. -/
def exitAtProfit (position : PositionState) : TrendDCAState × Option Signal :=
  match strategy.trail candle state.trailingHighs position with
  | (trailingHighs, some trailingStop) =>
    ({ state with trailingHighs },
      some (strategy.closeSignal candle indicators position trailingStop "Trailing stop hit"))
  | (trailingHighs, none) =>
    ({ state with trailingHighs },
      if position.unrealizedPnlPct ≥ strategy.config.takeProfitPct then
        some (strategy.closeSignal candle indicators position candle.close "Take profit hit")
      else none)

/-- `TrendDCAStrategy.should_exit`. -/
def shouldExit (position : PositionState) : TrendDCAState × Option Signal :=
  if position.holdingPeriods ≥ strategy.config.maxHoldingPeriods then
    (state, some (strategy.closeSignal candle indicators position candle.close
      "Max holding period reached"))
  else if indicators.regime = some trendDown then
    (state, some (strategy.closeSignal candle indicators position candle.close
      "Regime changed to TREND_DOWN"))
  else state.exitAtProfit strategy candle indicators position

/-- The drop of the price and the share of the capital of each safety order. -/
def safetyOrders (config : DCAConfig) : List (Decimal × Decimal) :=
  [(3 / 100, config.safetyOrder1Pct), (5 / 100, config.safetyOrder2Pct),
    (8 / 100, config.safetyOrder3Pct)]

/-- `f"DCA safety order {level + 1}"`. -/
def safetyReason (level : ℕ) : String := "DCA safety order " ++ toString (level + 1)

/-- `TrendDCAStrategy.should_add_dca`.  The level that is stored is that of a filled order, and so none
is negative. -/
def shouldAddDca (position : PositionState) : Except BacktestError (TrendDCAState × Option Signal) :=
  if indicators.regime ≠ some trendUp then .ok (state, none)
  else
    let level := ((state.dcaLevels.get? candle.symbol).getD 0).toNat
    match (safetyOrders strategy.config)[level]? with
    | none => .ok (state, none)
    | some (threshold, share) =>
      if position.entryPrice = 0 then .error .divisionByZero
      else if (position.entryPrice - candle.close) / position.entryPrice ≥ threshold then do
        let signal ← strategy.openSignal candle indicators position.capital share
          (safetyReason level) none none { dcaLevel := some (level + 1) }
        return (state, some signal)
      else .ok (state, none)

/-- `TrendDCAStrategy.on_fill`. -/
def onFill (signal : Signal) : TrendDCAState :=
  match signal.metadata.dcaLevel with
  | none => state
  | some level =>
    { dcaLevels := state.dcaLevels.set signal.symbol level
      trailingHighs := if level = 0 then state.trailingHighs.erase signal.symbol
        else state.trailingHighs }

end TrendDCAState

/-- `TrendDCAStrategy`. -/
def trendDCAStrategy (strategy : StrategyIdentity) : SignalStrategy TrendDCAState StrategyIndicators where
  shouldEnter state candle indicators entry := state.shouldEnter strategy candle indicators entry
  shouldExit state candle indicators position :=
    .ok (state.shouldExit strategy candle indicators position)
  shouldAddDca state candle indicators position :=
    state.shouldAddDca strategy candle indicators position
  onFill state signal _ := .ok (state.onFill signal)

/-! ### The signals of the calls -/

section Signals

variable {strategy : StrategyIdentity} {candle : BacktestCandle StrategyIndicators}
  {indicators : StrategyIndicators} {state after : TrendDCAState} {position : PositionState}
  {signal : Signal}

theorem StrategyIdentity.openSignal_ok {capital share : Decimal} {reason : String}
    {stopLoss takeProfit : Option Decimal} {metadata : SignalMetadata}
    (h : strategy.openSignal candle indicators capital share reason stopLoss takeProfit metadata =
      .ok signal) :
    signal.symbol = candle.symbol ∧ signal.action = "open_long" ∧ signal.reason = reason ∧
      signal.metadata = metadata := by
  unfold openSignal at h
  split at h
  · cases h
  · cases h
    exact ⟨rfl, rfl, rfl, rfl⟩

theorem TrendDCAState.shouldEnter_ok {entry : EntryState}
    (h : state.shouldEnter strategy candle indicators entry = .ok (after, some signal)) :
    signal.symbol = candle.symbol ∧ signal.reason = "Trend DCA base order" := by
  unfold shouldEnter at h
  repeat' split at h
  all_goals first | cases h | skip
  obtain ⟨bought, hbought, hreturned⟩ := bind_eq_ok_iff.mp h
  cases hreturned
  obtain ⟨hsymbol, -, hreason, -⟩ := StrategyIdentity.openSignal_ok hbought
  exact ⟨hsymbol, hreason⟩

theorem TrendDCAState.safetyReason_ne (level : ℕ) {other : String}
    (h : other.toList.head? ≠ some 'D') : safetyReason level ≠ other := by
  rintro rfl
  refine h ?_
  have hfirst : "DCA safety order ".toList.head? = some 'D' := by decide
  have hhead : ("DCA safety order " ++ toString (level + 1)).toList.head? = some 'D' := by
    simp only [String.toList_append, List.head?_append, hfirst, Option.some_or]
  exact hhead

theorem TrendDCAState.shouldAddDca_ok
    (h : state.shouldAddDca strategy candle indicators position = .ok (after, some signal)) :
    signal.symbol = candle.symbol ∧ ∃ level, signal.reason = safetyReason level := by
  unfold shouldAddDca at h
  simp only at h
  repeat' split at h
  all_goals first | cases h | skip
  obtain ⟨bought, hbought, hreturned⟩ := bind_eq_ok_iff.mp h
  cases hreturned
  obtain ⟨hsymbol, -, hreason, -⟩ := StrategyIdentity.openSignal_ok hbought
  exact ⟨hsymbol, _, hreason⟩

/-- The exits on profit are sales of the position. -/
theorem TrendDCAState.exitAtProfit_signal
    (h : (state.exitAtProfit strategy candle indicators position).2 = some signal) :
    ∃ price reason, signal = strategy.closeSignal candle indicators position price reason ∧
      (reason = "Trailing stop hit" ∨ reason = "Take profit hit") := by
  unfold exitAtProfit at h
  split at h
  · cases h
    exact ⟨_, _, rfl, Or.inl rfl⟩
  · simp only at h
    split at h
    · cases h
      exact ⟨_, _, rfl, Or.inr rfl⟩
    · cases h

/-- The exits are sales of the position. -/
theorem TrendDCAState.shouldExit_signal
    (h : (state.shouldExit strategy candle indicators position).2 = some signal) :
    ∃ price reason, signal = strategy.closeSignal candle indicators position price reason := by
  unfold shouldExit at h
  split at h
  · cases h
    exact ⟨_, _, rfl⟩
  split at h
  · cases h
    exact ⟨_, _, rfl⟩
  · obtain ⟨price, reason, hsignal, -⟩ := exitAtProfit_signal h
    exact ⟨price, reason, hsignal⟩

end Signals

end CryptoTrading
