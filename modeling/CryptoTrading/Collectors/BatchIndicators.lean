import CryptoTrading.Collectors.IncrementalIndicators
import CryptoTrading.Indicators.IndicatorSeries

/-! The batch collector calculates every series once.  At every candle it stores what the collector
stores that calculates the indicators anew from the candles that lead to it. -/

namespace CryptoTrading

open Kit

/-- What `_calculate_series` returns. -/
structure DerivedSeries where
  ema20 : List (Option Decimal)
  ema50 : List (Option Decimal)
  ema200 : List (Option Decimal)
  rsi14 : List (Option Decimal)
  atr14 : List (Option Decimal)
  volatility20 : List (Option Decimal)
  closes : List Decimal

/-- `_ema_slope_at`. -/
def emaSlopeAt (emaValues : List (Option Decimal)) (index : ℕ) (lookback : ℕ := 10) :
    Option Decimal := do
  let current ← emaValues[index]?.join
  if index + 1 < lookback then none
  else
    let past ← emaValues[index + 1 - lookback]?.join
    if past = 0 then none else some ((current - past) / past)

section Classification

variable (detector : MarketRegimeDetector)
  (currentPrice ema20 ema50 ema200 ema200Slope atrPercentage volatility : Option Decimal)

/-- The rules of `classify_regime` by the trend of the long average. -/
def classifyTrend (ema200 slope : Decimal) : MarketRegime × Decimal × List RegimeReason :=
  match currentPrice, ema50 with
  | some price, some ema50 =>
    if price > ema200 ∧ ema50 > ema200 ∧ slope > detector.slopeThreshold then
      (.trendUp, min (9 / 10) (5 / 10 + (price - ema200) / ema200 * 10),
        [.priceAbove price ema200, .ema50Above ema50 ema200, .slopeAbove slope])
    else if price < ema200 ∧ ema50 < ema200 ∧ slope < -detector.slopeThreshold then
      (.trendDown, min (9 / 10) (5 / 10 + (ema200 - price) / ema200 * 10),
        [.priceBelow price ema200, .ema50Below ema50 ema200, .slopeBelow slope])
    else inRange (some ema50)
  | _, ema50 => inRange ema50
where
  inRange (ema50 : Option Decimal) : MarketRegime × Decimal × List RegimeReason :=
    let close := ema50.filter fun ema50 =>
      decide (|ema50 - ema200| / ema200 < detector.rangeDistanceThreshold)
    (.range, 6 / 10, [.noClearTrend, .slopeNearZero slope] ++
      close.toList.map fun ema50 => .emasClose (|ema50 - ema200| / ema200))

/-- `classify_regime`. -/
def classifyRegime : RegimeResult :=
  let (regime, confidence, reasons) : MarketRegime × Decimal × List RegimeReason :=
    match volatility with
    | some high =>
      if calculateVolatilityRegime high (3 / 10) detector.highVolatilityThreshold = "HIGH" then
        (.highVolatility, 8 / 10, [.highVolatility high])
      else byTrend
    | none => byTrend
  { regime, confidence, reasons, ema20, ema50, ema200, atrPercentage, volatility }
where
  byTrend : MarketRegime × Decimal × List RegimeReason :=
    match ema200 with
    | none => (.unknown, 0, [.insufficientEma200])
    | some ema200 =>
      match ema200Slope with
      | none => (.unknown, 0, [.insufficientSlope])
      | some slope => classifyTrend detector currentPrice ema50 ema200 slope

end Classification

namespace BatchIndicatorCollector

variable {F : Type} (arithmetic : ReturnArithmetic F)

/-- `_calculate_series`. -/
def calculateSeries (candles : List DdsCandle) : DerivedSeries :=
  let closes := candles.map DdsCandle.closePrice
  let highs := candles.map DdsCandle.highPrice
  let lows := candles.map DdsCandle.lowPrice
  { ema20 := calculateEmaSeries closes 20
    ema50 := calculateEmaSeries closes 50
    ema200 := calculateEmaSeries closes 200
    rsi14 := calculateRsiSeries closes 14
    atr14 := calculateAtrSeries highs lows closes 14
    volatility20 := calculateHistoricalVolatilitySeries arithmetic closes 20
    closes }

/-- The indicators that `_store_derived_at` stores. -/
def derivedRows (series : DerivedSeries) (index : ℕ) : List IndicatorRow :=
  [ ⟨.ema, 20, series.ema20[index]?.join⟩,
    ⟨.ema, 50, series.ema50[index]?.join⟩,
    ⟨.ema, 200, series.ema200[index]?.join⟩,
    ⟨.rsi, 14, series.rsi14[index]?.join⟩,
    ⟨.atr, 14, series.atr14[index]?.join⟩,
    ⟨.volatility, 20, series.volatility20[index]?.join⟩ ]

/-- The regime that `_store_derived_at` stores, from the 200th candle on. -/
def derivedRegime (series : DerivedSeries) (index : ℕ) : Option RegimeResult :=
  if index ≥ 199 then
    let price := series.closes[index]?
    let atrPercentage := do
      let atr ← series.atr14[index]?.join
      let price ← price
      if price = 0 then none else some (calculateAtrPercentage atr price)
    some (classifyRegime {} price series.ema20[index]?.join series.ema50[index]?.join
      series.ema200[index]?.join (emaSlopeAt series.ema200 index 10) atrPercentage
      series.volatility20[index]?.join)
  else none

/-- `_store_derived_at`. -/
def storeDerivedAt (series : DerivedSeries) (store : IndicatorStore) (item : DdsCandle × ℕ) :
    IndicatorStore :=
  let stored := (derivedRows series item.2).foldl (.storeIndicator item.1.candleId) store
  match derivedRegime series item.2 with
  | none => stored
  | some regime => stored.storeRegime item.1.candleId regime

/-- `calculate_and_store_indicators`: how many candles are processed, and the store after it. -/
def calculateAndStoreIndicators (candles : List DdsCandle) (store : IndicatorStore) :
    ℕ × IndicatorStore :=
  (candles.length,
    candles.zipIdx.foldl (storeDerivedAt (calculateSeries arithmetic candles)) store)

end BatchIndicatorCollector

/-! ### Agreement -/

section Agreement

variable {F : Type} {arithmetic : ReturnArithmetic F} {candles : List DdsCandle} {index : ℕ}

open BatchIndicatorCollector

theorem derivedRows_eq (arithmetic : ReturnArithmetic F) (h : index < candles.length) :
    derivedRows (calculateSeries arithmetic candles) index =
      indicatorRows (historicalDeviation arithmetic) candles index := by
  simp only [derivedRows, indicatorRows, calculateSeries]
  rw [getElem?_calculateRsiSeries (by simpa using h),
    getElem?_calculateAtrSeries (by simp) (by simp) (by simpa using h),
    getElem?_calculateHistoricalVolatilitySeries arithmetic (fun _ => closePrices_pos) (by simpa using h)]

/-- The classification is that of the detector. -/
theorem classifyTrend_eq (detector : MarketRegimeDetector) (currentPrice ema50 : Option Decimal)
    (ema200 slope : Decimal) : classifyTrend detector currentPrice ema50 ema200 slope =
      detector.trend currentPrice ema50 ema200 slope := by
  have hclose : ∀ ema50 : Decimal, ((some ema50).filter (fun ema50 => decide (|ema50 - ema200| / ema200 <
      detector.rangeDistanceThreshold))).toList.map (fun ema50 =>
        RegimeReason.emasClose (|ema50 - ema200| / ema200)) =
      MarketRegimeDetector.trend.close detector ema200 ema50 := by
    intro ema50
    unfold MarketRegimeDetector.trend.close
    simp only [Option.filter_some, decide_eq_true_eq]
    split <;> rfl
  unfold classifyTrend MarketRegimeDetector.trend
  cases currentPrice with
  | none =>
    cases ema50 with
    | none => rfl
    | some ema50 => simp only [classifyTrend.inRange, hclose]
  | some price =>
    cases ema50 with
    | none => rfl
    | some ema50 =>
      simp only [classifyTrend.inRange, hclose]
      rfl

/-- `detect` classifies what it has calculated. -/
theorem detect_eq (detector : MarketRegimeDetector) (deviation : LogReturnDeviation)
    (closes highs lows : List Decimal) : detector.detect deviation closes highs lows =
      classifyRegime detector closes.getLast?
        (calculateEmaSeries closes detector.emaShortPeriod).getLast?.join
        (calculateEmaSeries closes detector.emaMediumPeriod).getLast?.join
        (calculateEmaSeries closes detector.emaLongPeriod).getLast?.join
        (calculateEmaSlope (calculateEmaSeries closes detector.emaLongPeriod) 10)
        (do
          let atr ← calculateAtr highs lows closes detector.atrPeriod
          let price ← closes.getLast?
          if price = 0 then none else some (calculateAtrPercentage atr price))
        (calculateHistoricalVolatility deviation closes detector.volatilityPeriod) := by
  unfold MarketRegimeDetector.detect classifyRegime classifyRegime.byTrend
  dsimp only
  generalize calculateHistoricalVolatility deviation closes detector.volatilityPeriod = volatility
  generalize (calculateEmaSeries closes detector.emaLongPeriod).getLast?.join = ema200
  generalize calculateEmaSlope (calculateEmaSeries closes detector.emaLongPeriod) 10 = slope
  simp only [← classifyTrend_eq]
  cases volatility with
  | none => cases ema200 <;> cases slope <;> rfl
  | some volatility =>
    rw [Option.filter_some]
    by_cases hhigh : calculateVolatilityRegime volatility (3 / 10) detector.highVolatilityThreshold =
      "HIGH"
    · simp only [hhigh, decide_true, if_true]
    · simp only [hhigh, decide_false, if_false]
      cases ema200 <;> cases slope <;> rfl

theorem getElem?_calculateEmaSeries_take {prices : List Decimal} {period past : ℕ}
    (hperiod : 0 < period) (h : index < prices.length) (hpast : past ≤ index) :
    (calculateEmaSeries (prices.take (index + 1)) period)[past]?.join =
      (calculateEmaSeries prices period)[past]?.join := by
  rw [getElem?_calculateEmaSeries hperiod (by rw [List.length_take]; omega),
    getElem?_calculateEmaSeries hperiod (by omega), List.take_take, Nat.min_eq_left (by omega)]

theorem getLast?_calculateEmaSeries {prices : List Decimal} {period : ℕ} (hperiod : 0 < period)
    (h : index < prices.length) :
    (calculateEmaSeries (prices.take (index + 1)) period).getLast?.join =
      (calculateEmaSeries prices period)[index]?.join := by
  rw [List.getLast?_eq_getElem?, length_calculateEmaSeries hperiod, List.length_take,
    Nat.min_eq_left (Nat.succ_le_of_lt h), Nat.succ_sub_one,
    getElem?_calculateEmaSeries_take hperiod h le_rfl]

theorem exists_calculateEmaSeries (prices : List Decimal) (period : ℕ) :
    ∃ (missing : ℕ) (values : List Decimal),
      calculateEmaSeries prices period = List.replicate missing none ++ values.map some := by
  unfold calculateEmaSeries smoothedSeries
  split
  · exact ⟨prices.length, [], by simp⟩
  · exact ⟨_, _, rfl⟩

/-- The slope at the last value counts back over values that are there. -/
theorem emaSlopeAt_last {missing lookback : ℕ} {values : List Decimal} (hlookback : 0 < lookback)
    (hlength : missing + values.length = index + 1) :
    emaSlopeAt (List.replicate missing none ++ values.map some) index lookback =
      calculateEmaSlope (List.replicate missing none ++ values.map some) lookback := by
  have hvalid : (List.replicate missing (none : Option Decimal) ++ values.map some).filterMap id =
      values := by
    rw [List.filterMap_append, List.filterMap_map]
    simp
  have hget : ∀ back, 0 < back → back ≤ index + 1 →
      (List.replicate missing (none : Option Decimal) ++ values.map some)[index + 1 - back]?.join =
        if values.length < back then none else values[values.length - back]? := by
    intro back hback hle
    split
    · rw [List.getElem?_append_left (by rw [List.length_replicate]; omega),
        List.getElem?_replicate_of_lt (by omega)]
      rfl
    · rw [List.getElem?_append_right (by rw [List.length_replicate]; omega), List.length_replicate,
        show index + 1 - back - missing = values.length - back by omega, List.getElem?_map]
      cases values[values.length - back]? <;> rfl
  have hcurrent := hget 1 Nat.one_pos (by omega)
  rw [Nat.add_sub_cancel, ← List.getLast?_eq_getElem?] at hcurrent
  unfold emaSlopeAt calculateEmaSlope
  simp only [hvalid, hcurrent]
  by_cases hshort : values.length < lookback
  · rw [if_pos hshort]
    by_cases hnone : index + 1 < lookback
    · simp [hnone]
    · simp [hnone, hget lookback hlookback (by omega), hshort]
  · have hcount : ¬values.length < 1 := by omega
    have hlong : ¬index + 1 < lookback := by omega
    simp only [hget lookback hlookback (by omega), hshort, hcount, hlong, if_false]

theorem emaSlopeAt_eq {prices : List Decimal} {period lookback : ℕ} (hperiod : 0 < period)
    (hlookback : 0 < lookback) (h : index < prices.length) :
    emaSlopeAt (calculateEmaSeries prices period) index lookback =
      calculateEmaSlope (calculateEmaSeries (prices.take (index + 1)) period) lookback := by
  have hlength : (calculateEmaSeries (prices.take (index + 1)) period).length = index + 1 := by
    rw [length_calculateEmaSeries hperiod, List.length_take, Nat.min_eq_left (Nat.succ_le_of_lt h)]
  have hpre : emaSlopeAt (calculateEmaSeries prices period) index lookback =
      emaSlopeAt (calculateEmaSeries (prices.take (index + 1)) period) index lookback := by
    unfold emaSlopeAt
    rw [getElem?_calculateEmaSeries_take hperiod h le_rfl,
      getElem?_calculateEmaSeries_take hperiod h (by omega)]
  obtain ⟨missing, values, hseries⟩ := exists_calculateEmaSeries (prices.take (index + 1)) period
  rw [hpre, hseries]
  rw [hseries, List.length_append, List.length_replicate, List.length_map] at hlength
  exact emaSlopeAt_last hlookback hlength

theorem derivedRegime_eq (arithmetic : ReturnArithmetic F) (h : index < candles.length) :
    derivedRegime (calculateSeries arithmetic candles) index =
      regimeAt (historicalDeviation arithmetic) candles index := by
  have hcloses : index < (candles.map DdsCandle.closePrice).length := by simpa using h
  have hlength : ((candles.map DdsCandle.closePrice).take (index + 1)).length = index + 1 := by
    rw [List.length_take, Nat.min_eq_left (Nat.succ_le_of_lt hcloses)]
  have hprice : ((candles.map DdsCandle.closePrice).take (index + 1)).getLast? =
      (candles.map DdsCandle.closePrice)[index]? := by
    rw [List.getLast?_eq_getElem?, hlength, Nat.add_sub_cancel,
      List.getElem?_take_of_lt (Nat.lt_succ_self index)]
  simp only [derivedRegime, regimeAt, calculateSeries, hlength]
  by_cases hearly : index ≥ 199
  · rw [if_pos hearly, if_pos (by omega)]
    refine congrArg some ?_
    rw [detect_eq, hprice, getLast?_calculateEmaSeries (by decide) hcloses,
      getLast?_calculateEmaSeries (by decide) hcloses, getLast?_calculateEmaSeries (by decide) hcloses,
      ← emaSlopeAt_eq (by decide) (by decide) hcloses,
      ← getElem?_calculateHistoricalVolatilitySeries arithmetic (fun _ => closePrices_pos) hcloses,
      ← getElem?_calculateAtrSeries (by simp) (by simp) (by simpa using h)]
  · rw [if_neg hearly, if_neg (by omega)]

end Agreement

/-- At every candle the batch collector stores the indicators and the regime that the collector stores,
and it leaves the same store. -/
theorem batch_agrees {F : Type} (arithmetic : ReturnArithmetic F) (candles : List DdsCandle) :
    (∀ index : Fin candles.length,
      BatchIndicatorCollector.derivedRows (BatchIndicatorCollector.calculateSeries arithmetic candles)
          index = indicatorRows (historicalDeviation arithmetic) candles index ∧
      BatchIndicatorCollector.derivedRegime
          (BatchIndicatorCollector.calculateSeries arithmetic candles) index =
        regimeAt (historicalDeviation arithmetic) candles index) ∧
    ∀ store, BatchIndicatorCollector.calculateAndStoreIndicators arithmetic candles store =
      calculateAndStoreIndicators (historicalDeviation arithmetic) candles store := by
  refine ⟨fun index => ⟨derivedRows_eq arithmetic index.isLt, derivedRegime_eq arithmetic index.isLt⟩,
    fun store => Prod.ext rfl ?_⟩
  rw [BatchIndicatorCollector.calculateAndStoreIndicators, calculateAndStoreIndicators, storeFrom,
    Nat.sub_zero, ← List.zipIdx_map_snd, List.foldl_map]
  refine List.foldl_ext _ _ _ fun stored item hitem => ?_
  have hcandle : candles[item.2]? = some item.1 := List.mem_zipIdx_iff_getElem?.mp hitem
  have hindex : item.2 < candles.length := (List.getElem?_eq_some_iff.mp hcandle).1
  cases hregime : regimeAt (historicalDeviation arithmetic) candles item.2 <;>
    simp only [BatchIndicatorCollector.storeDerivedAt, storeCandle, hcandle,
      derivedRows_eq arithmetic hindex, derivedRegime_eq arithmetic hindex, hregime]

end CryptoTrading
