import CryptoTrading.Strategies.TrendDca

/-! `trend_dca_confirm3.py`: Trend DCA with an exit on the regime that takes three bars. -/

namespace CryptoTrading

open Kit

/-- `TREND_DOWN_CONFIRMATION_BARS`. -/
def trendDownConfirmationBars : ℕ := 3

/-- The reason of the exit on the regime. -/
def confirmedReason : String := "TREND_DOWN confirmed for 3 consecutive bars"

/-- The state of `TrendDCAConfirm3Strategy`. -/
structure Confirm3State where
  dca : TrendDCAState := {}
  trendDownStreaks : Dict String ℕ := .empty
  deriving DecidableEq

namespace Confirm3State

variable (state : Confirm3State) (strategy : StrategyIdentity)
  (candle : BacktestCandle StrategyIndicators) (indicators : StrategyIndicators)

def streak (symbol : String) : ℕ := (state.trendDownStreaks.get? symbol).getD 0

/-- `trend_down_streaks.pop(symbol, None)`. -/
def withoutStreak (symbol : String) : Confirm3State :=
  { state with trendDownStreaks := state.trendDownStreaks.erase symbol }

def withStreak (symbol : String) (streak : ℕ) : Confirm3State :=
  { state with trendDownStreaks := state.trendDownStreaks.set symbol streak }

/-- The exits that follow the one on the regime.  They forget the streak. -/
def exitAtProfit (position : PositionState) : Confirm3State × Option Signal :=
  match state.dca.exitAtProfit strategy candle indicators position with
  | (dca, none) => ({ state with dca }, none)
  | (dca, some signal) => (({ state with dca }).withoutStreak candle.symbol, some signal)

/-- `TrendDCAConfirm3Strategy.should_exit`. -/
def shouldExit (position : PositionState) : Confirm3State × Option Signal :=
  if position.holdingPeriods ≥ strategy.config.maxHoldingPeriods then
    (state.withoutStreak candle.symbol, some (strategy.closeSignal candle indicators position
      candle.close "Max holding period reached"))
  else if indicators.regime = some trendDown then
    let streak := state.streak candle.symbol + 1
    if streak ≥ trendDownConfirmationBars then
      (state.withoutStreak candle.symbol, some (strategy.closeSignal candle indicators position
        candle.close confirmedReason))
    else (state.withStreak candle.symbol streak).exitAtProfit strategy candle indicators position
  else (state.withoutStreak candle.symbol).exitAtProfit strategy candle indicators position

end Confirm3State

/-- `TrendDCAConfirm3Strategy`. -/
def trendDCAConfirm3Strategy (strategy : StrategyIdentity) :
    SignalStrategy Confirm3State StrategyIndicators where
  shouldEnter state candle indicators entry := do
    let (dca, signal) ← state.dca.shouldEnter strategy candle indicators entry
    return ({ state with dca }, signal)
  shouldExit state candle indicators position :=
    .ok (state.shouldExit strategy candle indicators position)
  shouldAddDca state candle indicators position := do
    let (dca, signal) ← state.dca.shouldAddDca strategy candle indicators position
    return ({ state with dca }, signal)
  onFill state signal _ := .ok { state with dca := state.dca.onFill signal }

end CryptoTrading
