import CryptoTrading.Indicators.MovingAverages

/-! The market regime of a history of candles. -/

namespace CryptoTrading

/-- The annualized deviation of the last log returns of closes, of which the length is given, or
`none` where too many closes have no logarithm. -/
abbrev LogReturnDeviation := List Decimal → ℕ → Option Decimal

/-- `calculate_historical_volatility`, in the timeframe that `deviation` is for. -/
def calculateHistoricalVolatility (deviation : LogReturnDeviation) (closes : List Decimal)
    (period : ℕ := 20) : Option Decimal :=
  if closes.length < period + 1 then none else deviation closes period

/-- `calculate_volatility_regime`. -/
def calculateVolatilityRegime (volatility : Decimal) (lowThreshold : Decimal := 3 / 10)
    (highThreshold : Decimal := 8 / 10) : String :=
  if volatility < lowThreshold then "LOW"
  else if volatility > highThreshold then "HIGH"
  else "NORMAL"

inductive MarketRegime
  | unknown
  | trendUp
  | trendDown
  | range
  | highVolatility
  deriving DecidableEq, Repr

/-- The texts of `RegimeResult.reasons`. -/
inductive RegimeReason
  /-- "High volatility: {volatility:.2%}" -/
  | highVolatility (volatility : Decimal)
  /-- "Insufficient data for EMA 200" -/
  | insufficientEma200
  /-- "Insufficient EMA 200 history for slope" -/
  | insufficientSlope
  /-- "Price {price} > EMA200 {ema200}" -/
  | priceAbove (price ema200 : Decimal)
  /-- "EMA50 {ema50} > EMA200 {ema200}" -/
  | ema50Above (ema50 ema200 : Decimal)
  /-- "EMA200 slope {slope:.4f} > threshold" -/
  | slopeAbove (slope : Decimal)
  /-- "Price {price} < EMA200 {ema200}" -/
  | priceBelow (price ema200 : Decimal)
  /-- "EMA50 {ema50} < EMA200 {ema200}" -/
  | ema50Below (ema50 ema200 : Decimal)
  /-- "EMA200 slope {slope:.4f} < threshold" -/
  | slopeBelow (slope : Decimal)
  /-- "No clear trend detected" -/
  | noClearTrend
  /-- "EMA200 slope {slope:.4f} near zero" -/
  | slopeNearZero (slope : Decimal)
  /-- "EMAs close together: {distance:.4%}" -/
  | emasClose (distance : Decimal)
  deriving DecidableEq

structure RegimeResult where
  regime : MarketRegime
  confidence : Decimal
  reasons : List RegimeReason
  ema20 : Option Decimal := none
  ema50 : Option Decimal := none
  ema200 : Option Decimal := none
  atrPercentage : Option Decimal := none
  volatility : Option Decimal := none
  deriving DecidableEq

structure MarketRegimeDetector where
  emaShortPeriod : ℕ := 20
  emaMediumPeriod : ℕ := 50
  emaLongPeriod : ℕ := 200
  atrPeriod : ℕ := 14
  volatilityPeriod : ℕ := 20
  highVolatilityThreshold : Decimal := 8 / 10
  rangeDistanceThreshold : Decimal := 2 / 100
  slopeThreshold : Decimal := 1 / 1000

namespace MarketRegimeDetector

variable (detector : MarketRegimeDetector)

/-- The confidence in a trend, by the distance of the price from the long average. -/
def trendConfidence (distance : Decimal) : Decimal := min (9 / 10) (5 / 10 + distance * 10)

/-- The regime by the trend of the long average, and what speaks for it. -/
def trend (currentPrice ema50 : Option Decimal) (ema200 slope : Decimal) :
    MarketRegime × Decimal × List RegimeReason :=
  match currentPrice, ema50 with
  | some price, some ema50 =>
    if price > ema200 ∧ ema50 > ema200 ∧ slope > detector.slopeThreshold then
      (.trendUp, trendConfidence ((price - ema200) / ema200),
        [.priceAbove price ema200, .ema50Above ema50 ema200, .slopeAbove slope])
    else if price < ema200 ∧ ema50 < ema200 ∧ slope < -detector.slopeThreshold then
      (.trendDown, trendConfidence ((ema200 - price) / ema200),
        [.priceBelow price ema200, .ema50Below ema50 ema200, .slopeBelow slope])
    else (.range, 6 / 10, [.noClearTrend, .slopeNearZero slope] ++ close ema50)
  | _, some ema50 => (.range, 6 / 10, [.noClearTrend, .slopeNearZero slope] ++ close ema50)
  | _, none => (.range, 6 / 10, [.noClearTrend, .slopeNearZero slope])
where
  close (ema50 : Decimal) : List RegimeReason :=
    let distance := |ema50 - ema200| / ema200
    if distance < detector.rangeDistanceThreshold then [.emasClose distance] else []

/-- `detect`. -/
def detect (deviation : LogReturnDeviation) (closes highs lows : List Decimal) : RegimeResult :=
  let ema200Series := calculateEmaSeries closes detector.emaLongPeriod
  let ema200 := ema200Series.getLast?.join
  let ema50 := (calculateEmaSeries closes detector.emaMediumPeriod).getLast?.join
  let currentPrice := closes.getLast?
  let volatility := calculateHistoricalVolatility deviation closes detector.volatilityPeriod
  let (regime, confidence, reasons) : MarketRegime × Decimal × List RegimeReason :=
    match volatility.filter fun value => calculateVolatilityRegime value (3 / 10)
      detector.highVolatilityThreshold = "HIGH" with
    | some high => (.highVolatility, 8 / 10, [.highVolatility high])
    | none =>
      match ema200, calculateEmaSlope ema200Series 10 with
      | none, _ => (.unknown, 0, [.insufficientEma200])
      | some _, none => (.unknown, 0, [.insufficientSlope])
      | some ema200, some slope => detector.trend currentPrice ema50 ema200 slope
  { regime, confidence, reasons
    ema20 := (calculateEmaSeries closes detector.emaShortPeriod).getLast?.join, ema50, ema200
    atrPercentage := do
      let atr ← calculateAtr highs lows closes detector.atrPeriod
      let price ← currentPrice
      if price = 0 then none else some (calculateAtrPercentage atr price)
    volatility }

end MarketRegimeDetector

end CryptoTrading
