import CryptoTrading.Exchange.PaperExecutionEngine
import CryptoTrading.Kit.Smoothing
import Mathlib.Algebra.Field.Rat
import Mathlib.Algebra.Order.Ring.Rat

/-! The indicators that average over the past: the exponential moving average, and Wilder's relative
strength and true range. -/

namespace CryptoTrading

open Kit

/-! ### `ema.py` -/

/-- A step of the exponential moving average. -/
def emaStep (period : ℕ) (ema price : Decimal) : Decimal :=
  (price - ema) * (2 / (period + 1)) + ema

/-- `calculate_ema_series`. -/
def calculateEmaSeries (prices : List Decimal) (period : ℕ) : List (Option Decimal) :=
  smoothedSeries (emaStep period) period prices

theorem length_calculateEmaSeries {prices : List Decimal} {period : ℕ} (hperiod : 0 < period) :
    (calculateEmaSeries prices period).length = prices.length :=
  length_smoothedSeries _ hperiod _

theorem getElem?_calculateEmaSeries {prices : List Decimal} {period index : ℕ} (hperiod : 0 < period)
    (h : index < prices.length) : (calculateEmaSeries prices period)[index]?.join =
      if index + 1 < period then none
      else some (smoothed (emaStep period) period (prices.take (index + 1))) := by
  rw [calculateEmaSeries, getElem?_smoothedSeries _ hperiod h]
  rfl

/-- `calculate_ema_slope`. -/
def calculateEmaSlope (emaValues : List (Option Decimal)) (lookback : ℕ := 5) : Option Decimal :=
  let validValues := emaValues.filterMap id
  if validValues.length < lookback then none
  else do
    let current ← validValues.getLast?
    let past ← validValues[validValues.length - lookback]?
    if past = 0 then none else some ((current - past) / past)

/-! ### `rsi.py` -/

/-- A step of Wilder's smoothing. -/
def wilderStep (period : ℕ) (average value : Decimal) : Decimal :=
  (average * (period - 1) + value) / period

/-- `_rsi_from_averages`. -/
def rsiFromAverages (avgGain avgLoss : Decimal) : Decimal :=
  if avgGain = 0 ∧ avgLoss = 0 then 50
  else if avgLoss = 0 then 100
  else 100 - 100 / (1 + avgGain / avgLoss)

/-- `prices[i] - prices[i - 1]`. -/
def changes (prices : List Decimal) : List Decimal :=
  List.zipWith (fun price previous => price - previous) prices.tail prices

/-- `calculate_rsi`. -/
def calculateRsi (prices : List Decimal) (period : ℕ := 14) : Option Decimal :=
  if prices.length < period + 1 then none
  else
    let gains := (changes prices).map fun change => max change 0
    let losses := (changes prices).map fun change => |min change 0|
    some (rsiFromAverages (smoothed (wilderStep period) period gains)
      (smoothed (wilderStep period) period losses))

/-! ### `atr.py` -/

/-- `calculate_true_range`. -/
def calculateTrueRange (high low previousClose : Decimal) : Decimal :=
  max (max (high - low) |high - previousClose|) |low - previousClose|

/-- The true ranges of `calculate_atr`. -/
def trueRanges (highs lows closes : List Decimal) : List Decimal :=
  List.zipWith (fun range previousClose => calculateTrueRange range.1 range.2 previousClose)
    (highs.tail.zip lows.tail) closes

/-- `calculate_atr`. -/
def calculateAtr (highs lows closes : List Decimal) (period : ℕ := 14) : Option Decimal :=
  if highs.length < period + 1 ∨ lows.length < period + 1 ∨ closes.length < period + 1 then none
  else some (smoothed (wilderStep period) period (trueRanges highs lows closes))

/-- `calculate_atr_percentage`. -/
def calculateAtrPercentage (atr price : Decimal) : Decimal :=
  if price = 0 then 0 else atr / price

end CryptoTrading
