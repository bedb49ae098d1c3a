import CryptoTrading.Indicators.MarketRegime
import CryptoTrading.Kit.Dict

/-! The collector of the indicators and market regimes of one symbol: the calculation over all candles,
and the incremental one, which loads a warm-up window before the candles that are new. -/

namespace CryptoTrading

open Kit

/-- A valid row of `dds.candle`, with what its constraint checks of the prices. -/
structure DdsCandle where
  candleId : ℕ
  highPrice : Decimal
  lowPrice : Decimal
  closePrice : Decimal
  low_le_close : lowPrice ≤ closePrice
  close_le_high : closePrice ≤ highPrice
  close_pos : 0 < closePrice

theorem closePrices_pos {candles : List DdsCandle} {close : Decimal}
    (h : close ∈ candles.map DdsCandle.closePrice) : 0 < close := by
  obtain ⟨candle, -, rfl⟩ := List.mem_map.mp h
  exact candle.close_pos

inductive IndicatorName
  | ema
  | rsi
  | atr
  | volatility
  deriving DecidableEq, Repr

/-- What a row of `dds.indicator` is unique by, within a model version.  The period is the one entry
of its parameters. -/
structure IndicatorKey where
  candleId : ℕ
  name : IndicatorName
  period : ℕ
  deriving DecidableEq

/-- The stored indicators, and the regimes by candle. -/
structure IndicatorStore where
  indicators : Dict IndicatorKey Decimal := .empty
  regimes : Dict ℕ RegimeResult := .empty

/-- An indicator of a candle, if it has one. -/
structure IndicatorRow where
  name : IndicatorName
  period : ℕ
  value : Option Decimal

namespace IndicatorStore

/-- `_store_indicator`, of an indicator that is not `None`. -/
def storeIndicator (candleId : ℕ) (store : IndicatorStore) (row : IndicatorRow) : IndicatorStore :=
  match row.value with
  | none => store
  | some value =>
    { store with indicators := store.indicators.set ⟨candleId, row.name, row.period⟩ value }

/-- `_store_regime`. -/
def storeRegime (store : IndicatorStore) (candleId : ℕ) (regime : RegimeResult) : IndicatorStore :=
  { store with regimes := store.regimes.set candleId regime }

/-- `_get_last_indicator_candle_id`. -/
def lastIndicatorCandleId (store : IndicatorStore) : Option ℕ :=
  (store.indicators.keys.map IndicatorKey.candleId).max?

end IndicatorStore

section Calculation

variable (deviation : LogReturnDeviation)

/-- The indicators of the candle at `index` of a window. -/
def indicatorRows (window : List DdsCandle) (index : ℕ) : List IndicatorRow :=
  let closes := window.map DdsCandle.closePrice
  let historicalCloses := closes.take (index + 1)
  let historicalHighs := (window.map DdsCandle.highPrice).take (index + 1)
  let historicalLows := (window.map DdsCandle.lowPrice).take (index + 1)
  [ ⟨.ema, 20, (calculateEmaSeries closes 20)[index]?.join⟩,
    ⟨.ema, 50, (calculateEmaSeries closes 50)[index]?.join⟩,
    ⟨.ema, 200, (calculateEmaSeries closes 200)[index]?.join⟩,
    ⟨.rsi, 14, calculateRsi historicalCloses 14⟩,
    ⟨.atr, 14, calculateAtr historicalHighs historicalLows historicalCloses 14⟩,
    ⟨.volatility, 20, calculateHistoricalVolatility deviation historicalCloses 20⟩ ]

/-- The regime of the candle at `index` of a window, when 200 candles lead to it. -/
def regimeAt (window : List DdsCandle) (index : ℕ) : Option RegimeResult :=
  let historicalCloses := (window.map DdsCandle.closePrice).take (index + 1)
  if historicalCloses.length ≥ 200 then
    some (MarketRegimeDetector.detect {} deviation historicalCloses
      ((window.map DdsCandle.highPrice).take (index + 1))
      ((window.map DdsCandle.lowPrice).take (index + 1)))
  else none

/-- A turn of the loop over the candles of a window. -/
def storeCandle (window : List DdsCandle) (store : IndicatorStore) (index : ℕ) : IndicatorStore :=
  match window[index]? with
  | none => store
  | some candle =>
    let stored := (indicatorRows deviation window index).foldl (.storeIndicator candle.candleId) store
    match regimeAt deviation window index with
    | none => stored
    | some regime => stored.storeRegime candle.candleId regime

/-- The loop over the candles of a window from `start` on. -/
def storeFrom (window : List DdsCandle) (start : ℕ) (store : IndicatorStore) : IndicatorStore :=
  (List.range' start (window.length - start)).foldl (storeCandle deviation window) store

/-- `calculate_and_store_indicators`: how many candles are processed, and the store after it. -/
def calculateAndStoreIndicators (candles : List DdsCandle) (store : IndicatorStore) :
    ℕ × IndicatorStore :=
  (candles.length, storeFrom deviation candles 0 store)

/-- `_get_candles_for_indicators`, of candles in the order of their times. -/
def candlesForIndicators (candles : List DdsCandle) (afterCandleId : Option ℕ) : List DdsCandle :=
  match afterCandleId with
  | none => candles
  | some afterId => candles.filter fun candle => decide (afterId < candle.candleId)

/-- `_get_warmup_candles`. -/
def warmupCandles (candles : List DdsCandle) (beforeCandleId : ℕ) (warmupSize : ℕ := 200) :
    List DdsCandle :=
  ((candles.filter fun candle =>
    decide (candle.candleId < beforeCandleId)).reverse.take warmupSize).reverse

/-- `calculate_missing`. -/
def calculateMissing (candles : List DdsCandle) (store : IndicatorStore) : ℕ × IndicatorStore :=
  match candlesForIndicators candles store.lastIndicatorCandleId with
  | [] => (0, store)
  | first :: rest =>
    let warmup := warmupCandles candles first.candleId
    ((first :: rest).length,
      storeFrom deviation (warmup ++ first :: rest) warmup.length store)

/-- The candles arrive in chunks, and `calculate_missing` runs after each. -/
def arrive (state : List DdsCandle × IndicatorStore) (chunk : List DdsCandle) :
    List DdsCandle × IndicatorStore :=
  (state.1 ++ chunk, (calculateMissing deviation (state.1 ++ chunk) state.2).2)

def arrivals (chunks : List (List DdsCandle)) : List DdsCandle × IndicatorStore :=
  chunks.foldl (arrive deviation) ([], {})

end Calculation

end CryptoTrading
