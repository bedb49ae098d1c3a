import CryptoTrading.Indicators.MarketRegime
import Mathlib.Data.List.DropRight
import Mathlib.Data.List.ReduceOption

/-! The indicators as series over all candles.  At every candle a series has what its scalar function
calculates from the candles that lead to it. -/

namespace CryptoTrading

open Kit

/-! ### `rsi.py` -/

/-- A step of both averages of `calculate_rsi_series`. -/
def wilderSteps (period : ℕ) (averages change : Decimal × Decimal) : Decimal × Decimal :=
  (wilderStep period averages.1 change.1, wilderStep period averages.2 change.2)

/-- `calculate_rsi_series`. -/
def calculateRsiSeries (prices : List Decimal) (period : ℕ := 14) : List (Option Decimal) :=
  if prices.length < period + 1 then List.replicate prices.length none
  else
    let gains := (changes prices).map fun change => max change 0
    let losses := (changes prices).map fun change => |min change 0|
    List.replicate period none ++
      (((gains.zip losses).drop period).scanl (wilderSteps period)
        (seed period gains, seed period losses)).map fun averages =>
          some (rsiFromAverages averages.1 averages.2)

theorem foldl_wilderSteps (period : ℕ) {gains losses : List Decimal}
    (h : gains.length = losses.length) (averages : Decimal × Decimal) :
    (gains.zip losses).foldl (wilderSteps period) averages =
      (gains.foldl (wilderStep period) averages.1, losses.foldl (wilderStep period) averages.2) := by
  induction gains generalizing losses averages with
  | nil =>
    cases losses with
    | nil => rfl
    | cons loss losses => cases h
  | cons gain gains ih =>
    cases losses with
    | nil => cases h
    | cons loss losses => exact ih (by simpa using h) _

theorem zipWith_take_succ {α β γ : Type} (f : α → β → γ) (later : List α) (earlier : List β)
    (count : ℕ) : List.zipWith f (later.take count) (earlier.take (count + 1)) =
      (List.zipWith f later earlier).take count := by
  refine List.ext_getElem? fun index => ?_
  rcases Nat.lt_or_ge index count with hindex | hindex
  · rw [List.getElem?_take_of_lt hindex, List.getElem?_zipWith, List.getElem?_zipWith,
      List.getElem?_take_of_lt hindex, List.getElem?_take_of_lt (Nat.lt_succ_of_lt hindex)]
  · rw [List.getElem?_eq_none (by simp; omega), List.getElem?_eq_none (by simp; omega)]

theorem changes_take (prices : List Decimal) (count : ℕ) :
    changes (prices.take (count + 1)) = (changes prices).take count := by
  rw [changes, List.tail_take_eq_take_tail, Nat.add_sub_cancel, zipWith_take_succ, changes]

theorem getElem?_calculateRsiSeries {prices : List Decimal} {period index : ℕ}
    (h : index < prices.length) : (calculateRsiSeries prices period)[index]?.join =
      calculateRsi (prices.take (index + 1)) period := by
  have hlength : (prices.take (index + 1)).length = index + 1 := by
    rw [List.length_take, Nat.min_eq_left h]
  unfold calculateRsiSeries calculateRsi
  rw [hlength]
  split
  · rw [List.getElem?_replicate_of_lt h, if_pos (by omega)]
    rfl
  · simp only [changes_take, List.map_take]
    have hgains : ((changes prices).map fun change => max change 0).length = prices.length - 1 := by
      simp [changes]
    have hlosses : ((changes prices).map fun change => |min change 0|).length =
        prices.length - 1 := by
      simp [changes]
    generalize ((changes prices).map fun change => max change 0) = gains at hgains ⊢
    generalize ((changes prices).map fun change => |min change 0|) = losses at hlosses ⊢
    rw [getElem?_padded_scanl _ _ _ _ (by simp; omega), Option.join_some]
    by_cases hshort : index < period
    · rw [if_pos hshort, if_pos (by omega)]
    · rw [if_neg hshort, if_neg (by omega), smoothed_take _ (by omega), smoothed_take _ (by omega),
        List.zip, List.drop_zipWith, List.take_zipWith, ← List.zip, foldl_wilderSteps]
      simp only [List.length_take, List.length_drop, hgains, hlosses]

/-! ### `atr.py` -/

/-- `calculate_atr_series`. -/
def calculateAtrSeries (highs lows closes : List Decimal) (period : ℕ := 14) :
    List (Option Decimal) :=
  if highs.length < period + 1 ∨ lows.length < period + 1 ∨ closes.length < period + 1 then
    List.replicate highs.length none
  else
    let ranges := trueRanges highs lows closes
    List.replicate period none ++
      ((ranges.drop period).scanl (wilderStep period) (seed period ranges)).map some

theorem trueRanges_take (highs lows closes : List Decimal) (count : ℕ) :
    trueRanges (highs.take (count + 1)) (lows.take (count + 1)) (closes.take (count + 1)) =
      (trueRanges highs lows closes).take count := by
  simp only [trueRanges, List.tail_take_eq_take_tail, Nat.add_sub_cancel]
  rw [List.zip, ← List.take_zipWith, ← List.zip, zipWith_take_succ]

theorem getElem?_calculateAtrSeries {highs lows closes : List Decimal} {period index : ℕ}
    (hlows : lows.length = highs.length) (hcloses : closes.length = highs.length)
    (h : index < highs.length) : (calculateAtrSeries highs lows closes period)[index]?.join =
      calculateAtr (highs.take (index + 1)) (lows.take (index + 1)) (closes.take (index + 1))
        period := by
  unfold calculateAtrSeries calculateAtr
  simp only [List.length_take, hlows, hcloses, or_self, Nat.min_eq_left (Nat.succ_le_of_lt h)]
  split
  · rw [List.getElem?_replicate_of_lt h, if_pos (by omega)]
    rfl
  · have hranges : (trueRanges highs lows closes).length = highs.length - 1 := by
      simp [trueRanges, hlows, hcloses]
    simp only [trueRanges_take]
    generalize trueRanges highs lows closes = ranges at hranges ⊢
    have hindex : index ≤ period + (ranges.drop period).length := by
      rw [List.length_drop]
      omega
    refine (congrArg Option.join (getElem?_padded_scanl _ _ id _ hindex)).trans ?_
    rw [Option.join_some]
    by_cases hshort : index < period
    · rw [if_pos hshort, if_pos (by omega)]
    · rw [if_neg hshort, if_neg (by omega), smoothed_take _ (by omega), id_eq]

/-! ### `volatility.py` -/

/-- The float arithmetic of the volatility in a timeframe: the logarithm of the ratio of a close to the
one before, and the annualized deviation of log returns. -/
structure ReturnArithmetic (F : Type) where
  log : Decimal → F
  deviation : List F → Decimal

section Volatility

variable {F : Type} (arithmetic : ReturnArithmetic F)

/-- The log return of a close, where both closes are positive. -/
def logReturn (close previous : Decimal) : Option F :=
  if previous > 0 ∧ close > 0 then some (arithmetic.log (close / previous)) else none

/-- The log returns of closes, from the second one on. -/
def logReturns (closes : List Decimal) : List (Option F) :=
  List.zipWith (logReturn arithmetic) closes.tail closes

/-- The part of `calculate_historical_volatility` after its first check. -/
def historicalDeviation : LogReturnDeviation := fun closes period =>
  let returns := (logReturns arithmetic closes).reduceOption
  if returns.length < period then none else some (arithmetic.deviation (returns.rtake period))

/-- The volatility of the window of log returns that ends at a candle, if none of them is missing. -/
def windowVolatility (returns : List (Option F)) (period index : ℕ) : Option Decimal :=
  let window := (returns.drop (index + 1 - period)).take period
  if window.any Option.isNone then none else some (arithmetic.deviation window.reduceOption)

/-- `calculate_historical_volatility_series`. -/
def calculateHistoricalVolatilitySeries (closes : List Decimal) (period : ℕ := 20) :
    List (Option Decimal) :=
  if closes.length < period + 1 then List.replicate closes.length none
  else (List.range closes.length).map fun index =>
    if index < period then none
    else windowVolatility arithmetic (none :: logReturns arithmetic closes) period index

theorem length_logReturns (closes : List Decimal) :
    (logReturns arithmetic closes).length = closes.length - 1 := by
  simp [logReturns]

theorem logReturns_take (closes : List Decimal) (count : ℕ) :
    logReturns arithmetic (closes.take (count + 1)) = (logReturns arithmetic closes).take count := by
  rw [logReturns, List.tail_take_eq_take_tail, Nat.add_sub_cancel, zipWith_take_succ, logReturns]

theorem logReturns_drop (closes : List Decimal) (count : ℕ) :
    logReturns arithmetic (closes.drop count) = (logReturns arithmetic closes).drop count := by
  rw [logReturns, List.tail_drop, ← List.drop_tail, ← List.drop_zipWith, logReturns]

theorem logReturn_isSome {close previous : Decimal} :
    (logReturn arithmetic close previous).isSome = true ↔ 0 < previous ∧ 0 < close := by
  rw [logReturn]
  split <;> simp_all

/-- The closes that end at a candle, one more than a window of returns has. -/
def windowCloses (closes : List Decimal) (period index : ℕ) : List Decimal :=
  (closes.drop (index - period)).take (period + 1)

theorem window_eq {closes : List Decimal} {period index : ℕ} (hindex : period ≤ index) :
    ((none :: logReturns arithmetic closes).drop (index + 1 - period)).take period =
      logReturns arithmetic (windowCloses closes period index) := by
  rw [windowCloses, logReturns_take, logReturns_drop, Nat.succ_sub hindex, List.drop_succ_cons]

theorem logReturns_until {closes : List Decimal} {period index : ℕ} (hindex : period ≤ index) :
    logReturns arithmetic (closes.take (index + 1)) =
      (logReturns arithmetic closes).take (index - period) ++
        logReturns arithmetic (windowCloses closes period index) := by
  rw [windowCloses, logReturns_take, logReturns_take, logReturns_drop, ← List.take_add,
    Nat.sub_add_cancel hindex]

theorem calculateHistoricalVolatilitySeries_of_le {closes : List Decimal} {period index : ℕ}
    (hindex : period ≤ index) (h : index < closes.length) :
    (calculateHistoricalVolatilitySeries arithmetic closes period)[index]? =
      some (let window := logReturns arithmetic (windowCloses closes period index)
        if window.any Option.isNone then none else some (arithmetic.deviation window.reduceOption)) := by
  unfold calculateHistoricalVolatilitySeries
  rw [if_neg (by omega), List.getElem?_map, List.getElem?_range h, Option.map_some,
    if_neg (by omega), windowVolatility, window_eq arithmetic hindex]

theorem calculateHistoricalVolatilitySeries_of_lt {closes : List Decimal} {period index : ℕ}
    (hindex : index < period) (h : index < closes.length) :
    (calculateHistoricalVolatilitySeries arithmetic closes period)[index]? = some none := by
  unfold calculateHistoricalVolatilitySeries
  split
  · exact List.getElem?_replicate_of_lt h
  · rw [List.getElem?_map, List.getElem?_range h, Option.map_some, if_pos hindex]

theorem calculateHistoricalVolatility_of_lt {closes : List Decimal} {period index : ℕ}
    (hindex : index < period) : calculateHistoricalVolatility (historicalDeviation arithmetic)
      (closes.take (index + 1)) period = none :=
  if_pos (by
    rw [List.length_take]
    omega)

theorem calculateHistoricalVolatility_of_le {closes : List Decimal} {period index : ℕ}
    (hindex : period ≤ index) (h : index < closes.length) :
    calculateHistoricalVolatility (historicalDeviation arithmetic) (closes.take (index + 1)) period =
      (let returns := (logReturns arithmetic (closes.take (index + 1))).reduceOption
        if returns.length < period then none else some (arithmetic.deviation (returns.rtake period))) := by
  unfold calculateHistoricalVolatility historicalDeviation
  rw [if_neg]
  rw [List.length_take]
  omega

/-- Where no return of its window is missing, the series has the volatility of the closes until
then. -/
theorem volatility_of_window {closes : List Decimal} {period index : ℕ} (hindex : period ≤ index)
    (h : index < closes.length)
    (hwindow : ∀ value ∈ logReturns arithmetic (windowCloses closes period index), value.isSome) :
    (calculateHistoricalVolatilitySeries arithmetic closes period)[index]? =
      some (calculateHistoricalVolatility (historicalDeviation arithmetic) (closes.take (index + 1))
        period) := by
  have hlength : (logReturns arithmetic (windowCloses closes period index)).reduceOption.length =
      period := by
    rw [List.reduceOption_length_eq_iff.mpr hwindow, length_logReturns, windowCloses,
      List.length_take, List.length_drop]
    omega
  have hnone : (logReturns arithmetic (windowCloses closes period index)).any Option.isNone =
      false := by
    rw [List.any_eq_false]
    exact fun value hvalue => by simp [Option.isSome_iff_ne_none.mp (hwindow value hvalue)]
  rw [calculateHistoricalVolatilitySeries_of_le arithmetic hindex h,
    calculateHistoricalVolatility_of_le arithmetic hindex h, logReturns_until arithmetic hindex,
    List.reduceOption_append]
  simp only [hnone, Bool.false_eq_true, ↓reduceIte]
  rw [if_neg (by rw [List.length_append]; omega), List.rtake, List.length_append, hlength,
    Nat.add_sub_cancel, List.drop_left]

theorem logReturns_of_pos {closes : List Decimal} (h : ∀ close ∈ closes, 0 < close) :
    ∀ value ∈ logReturns arithmetic closes, value.isSome := by
  intro value hvalue
  rw [logReturns, ← List.map_uncurry_zip_eq_zipWith] at hvalue
  obtain ⟨⟨close, previous⟩, hpair, rfl⟩ := List.mem_map.mp hvalue
  obtain ⟨hclose, hprevious⟩ := List.of_mem_zip hpair
  exact (logReturn_isSome arithmetic).mpr ⟨h _ hprevious, h _ (List.mem_of_mem_tail hclose)⟩

theorem getElem?_calculateHistoricalVolatilitySeries {closes : List Decimal} {period index : ℕ}
    (hpos : ∀ close ∈ closes, 0 < close) (h : index < closes.length) :
    (calculateHistoricalVolatilitySeries arithmetic closes period)[index]?.join =
      calculateHistoricalVolatility (historicalDeviation arithmetic) (closes.take (index + 1))
        period := by
  rcases Nat.lt_or_ge index period with hindex | hindex
  · rw [calculateHistoricalVolatilitySeries_of_lt arithmetic hindex h,
      calculateHistoricalVolatility_of_lt arithmetic hindex, Option.join_some]
  · rw [volatility_of_window arithmetic hindex h, Option.join_some]
    exact logReturns_of_pos arithmetic fun close hclose =>
      hpos close (List.mem_of_mem_drop (List.mem_of_mem_take hclose))

end Volatility

end CryptoTrading
