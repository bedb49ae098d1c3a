import CryptoTrading.Indicators.IndicatorSeries

/-! The historical volatility in float arithmetic, at one candle and as a series.  The scalar leaves the
returns without a logarithm out and reaches further back, and the series has no value while one of
them is in its window. -/

namespace CryptoTrading

/-- The float operations of `volatility.py`: the conversions of a decimal and of an integer, the
built-in `sum`, the arithmetic, those of `math`, and the decimal of a float's text. -/
structure FloatArithmetic (F : Type) where
  float : Decimal → F
  ofNat : ℕ → F
  sum : List F → F
  sub : F → F → F
  mul : F → F → F
  div : F → F → F
  square : F → F
  log : F → F
  sqrt : F → F
  isClose : F → F → Bool
  decimal : F → Decimal

inductive TimeframeUnit
  | m | h | d | w
  deriving DecidableEq, Repr

/-- A supported timeframe code: a positive number of units. -/
structure Timeframe where
  unit : TimeframeUnit
  value : ℕ
  value_pos : 0 < value

/-- `"1h"` -/
def Timeframe.oneHour : Timeframe := ⟨.h, 1, Nat.one_pos⟩

namespace FloatArithmetic

variable {F : Type} (arithmetic : FloatArithmetic F)

/-- `_periods_per_year`. -/
def periodsPerYear (timeframe : Timeframe) : F :=
  let days := arithmetic.ofNat 365
  let hours := arithmetic.mul days (arithmetic.ofNat 24)
  let value := arithmetic.ofNat timeframe.value
  match timeframe.unit with
  | .m => arithmetic.div (arithmetic.mul hours (arithmetic.ofNat 60)) value
  | .h => arithmetic.div hours value
  | .d => arithmetic.div days value
  | .w => arithmetic.div days (arithmetic.mul (arithmetic.ofNat 7) value)

/-- `_annualization_factor`. -/
def annualizationFactor (timeframe : Timeframe) : Decimal :=
  arithmetic.decimal (arithmetic.sqrt (arithmetic.periodsPerYear timeframe))

/-- The log return of a close, where both closes are positive. -/
def logReturn (close previous : Decimal) : Option F :=
  if previous > 0 ∧ close > 0 then some (arithmetic.log (arithmetic.float (close / previous)))
  else none

/-- All returns are close to the first. -/
def allClose (returns : List F) : Bool :=
  match returns with
  | [] => true
  | first :: others => others.all fun value => arithmetic.isClose value first

/-- The root of the sample variance of returns. -/
def stdDev (returns : List F) : F :=
  let mean := arithmetic.div (arithmetic.sum returns) (arithmetic.ofNat returns.length)
  let variance := arithmetic.div
    (arithmetic.sum (returns.map fun value => arithmetic.square (arithmetic.sub value mean)))
    (arithmetic.ofNat (returns.length - 1))
  arithmetic.sqrt variance

/-- `calculate_historical_volatility`. -/
def calculateHistoricalVolatility (closes : List Decimal) (period : ℕ := 20)
    (annualize : Bool := true) (timeframe : Timeframe := .oneHour) : Option Decimal :=
  if closes.length < period + 1 then none
  else
    let logReturns := (List.zipWith arithmetic.logReturn closes.tail closes).reduceOption
    if logReturns.length < period then none
    else
      let recentReturns := logReturns.rtake period
      if arithmetic.allClose recentReturns then some 0
      else
        let volatility := arithmetic.decimal (arithmetic.stdDev recentReturns)
        some (if annualize then volatility * arithmetic.annualizationFactor timeframe else volatility)

/-- `calculate_historical_volatility_series`. -/
def calculateHistoricalVolatilitySeries (closes : List Decimal) (period : ℕ := 20)
    (annualize : Bool := true) (timeframe : Timeframe := .oneHour) : List (Option Decimal) :=
  if closes.length < period + 1 then List.replicate closes.length none
  else
    let logReturns := none :: List.zipWith arithmetic.logReturn closes.tail closes
    let annualizationFactor := if annualize then arithmetic.annualizationFactor timeframe else 1
    (List.range closes.length).map fun index =>
      if index < period then none
      else
        let window := (logReturns.drop (index + 1 - period)).take period
        if window.any Option.isNone then none
        else
          let recentReturns := window.reduceOption
          if arithmetic.allClose recentReturns then some 0
          else some (arithmetic.decimal (arithmetic.stdDev recentReturns) * annualizationFactor)

/-- The logarithm and the deviation of returns in a timeframe. -/
def returnArithmetic (annualize : Bool) (timeframe : Timeframe) : ReturnArithmetic F where
  log ratio := arithmetic.log (arithmetic.float ratio)
  deviation returns :=
    if arithmetic.allClose returns then 0
    else
      let volatility := arithmetic.decimal (arithmetic.stdDev returns)
      if annualize then volatility * arithmetic.annualizationFactor timeframe else volatility

variable (closes : List Decimal) (period : ℕ) (annualize : Bool) (timeframe : Timeframe)

theorem calculateHistoricalVolatility_eq :
    arithmetic.calculateHistoricalVolatility closes period annualize timeframe =
      CryptoTrading.calculateHistoricalVolatility
        (historicalDeviation (arithmetic.returnArithmetic annualize timeframe)) closes period := by
  unfold calculateHistoricalVolatility CryptoTrading.calculateHistoricalVolatility
    historicalDeviation returnArithmetic
  simp only [apply_ite some]
  rfl

theorem calculateHistoricalVolatilitySeries_eq :
    arithmetic.calculateHistoricalVolatilitySeries closes period annualize timeframe =
      CryptoTrading.calculateHistoricalVolatilitySeries
        (arithmetic.returnArithmetic annualize timeframe) closes period := by
  unfold calculateHistoricalVolatilitySeries CryptoTrading.calculateHistoricalVolatilitySeries
    windowVolatility returnArithmetic
  simp only [mul_ite, mul_one, apply_ite some]
  rfl

end FloatArithmetic

/-! ### Invalid closes -/

/-- The consecutive closes that are both positive. -/
def positivePairs (closes : List Decimal) : ℕ :=
  (closes.tail.zip closes).countP fun pair => 0 < pair.2 ∧ 0 < pair.1

section Invalid

variable {F : Type} (arithmetic : ReturnArithmetic F) {closes : List Decimal} {period index : ℕ}

theorem length_reduceOption_logReturns (closes : List Decimal) :
    (logReturns arithmetic closes).reduceOption.length = positivePairs closes := by
  rw [List.reduceOption_length_eq, logReturns, ← List.map_uncurry_zip_eq_zipWith,
    ← List.countP_eq_length_filter, List.countP_map, positivePairs]
  refine List.countP_congr fun pair _ => ?_
  rw [Function.comp_apply, Function.uncurry, logReturn_isSome, decide_eq_true_iff]

/-- Two closes or more with all their log returns are positive. -/
theorem pos_of_logReturns (hlength : 2 ≤ closes.length)
    (h : ∀ value ∈ logReturns arithmetic closes, value.isSome) : ∀ close ∈ closes, 0 < close := by
  induction closes with
  | nil => exact fun close hclose => absurd hclose List.not_mem_nil
  | cons previous later ih =>
    cases later with
    | nil => exact absurd hlength (by simp)
    | cons close rest =>
      have hsplit : logReturns arithmetic (previous :: close :: rest) =
        logReturn arithmetic close previous :: logReturns arithmetic (close :: rest) := rfl
      rw [hsplit, List.forall_mem_cons, logReturn_isSome] at h
      refine List.forall_mem_cons.mpr ⟨h.1.1, ?_⟩
      cases rest with
      | nil => simpa using h.1.2
      | cons next rest => exact ih (by simp) h.2

theorem windowValid_iff (hperiod : 0 < period) (hindex : period ≤ index)
    (h : index < closes.length) :
    (∀ value ∈ logReturns arithmetic (windowCloses closes period index), value.isSome) ↔
      ∀ close ∈ windowCloses closes period index, 0 < close := by
  refine ⟨pos_of_logReturns arithmetic ?_, logReturns_of_pos arithmetic⟩
  rw [windowCloses, List.length_take, List.length_drop]
  omega

theorem calculateHistoricalVolatilitySeries_of_missing (hindex : period ≤ index)
    (h : index < closes.length)
    (hwindow : ¬∀ value ∈ logReturns arithmetic (windowCloses closes period index), value.isSome) :
    (calculateHistoricalVolatilitySeries arithmetic closes period)[index]? = some none := by
  rw [calculateHistoricalVolatilitySeries_of_le arithmetic hindex h]
  simp only [List.any_eq_true, Option.isNone_iff_eq_none]
  push Not at hwindow
  obtain ⟨value, hvalue, hnone⟩ := hwindow
  rw [if_pos ⟨value, hvalue, by simpa using hnone⟩]

/-- The volatility until a candle is missing where too few of the closes follow each other with both
positive. -/
theorem calculateHistoricalVolatility_eq_none (hindex : period ≤ index) (h : index < closes.length) :
    calculateHistoricalVolatility (historicalDeviation arithmetic) (closes.take (index + 1)) period =
      none ↔ positivePairs (closes.take (index + 1)) < period := by
  rw [calculateHistoricalVolatility_of_le arithmetic hindex h]
  simp only [length_reduceOption_logReturns, ite_eq_left_iff, reduceCtorEq, imp_false, not_not]

theorem volatilitySeries_iff (hperiod : 0 < period) (h : index < closes.length) :
    (calculateHistoricalVolatilitySeries arithmetic closes period)[index]? =
        some (calculateHistoricalVolatility (historicalDeviation arithmetic)
          (closes.take (index + 1)) period) ↔
      index < period ∨ (∀ close ∈ windowCloses closes period index, 0 < close) ∨
        positivePairs (closes.take (index + 1)) < period := by
  rcases Nat.lt_or_ge index period with hindex | hindex
  · rw [calculateHistoricalVolatilitySeries_of_lt arithmetic hindex h,
      calculateHistoricalVolatility_of_lt arithmetic hindex]
    exact iff_of_true rfl (.inl hindex)
  rw [or_iff_right hindex.not_gt, ← windowValid_iff arithmetic hperiod hindex h]
  by_cases hwindow : ∀ value ∈ logReturns arithmetic (windowCloses closes period index), value.isSome
  · exact iff_of_true (volatility_of_window arithmetic hindex h hwindow) (.inl hwindow)
  · rw [calculateHistoricalVolatilitySeries_of_missing arithmetic hindex h hwindow,
      or_iff_right hwindow, ← calculateHistoricalVolatility_eq_none arithmetic hindex h,
      Option.some_inj, eq_comm]

end Invalid

/-- At a candle, the series has the volatility of the closes until then exactly if there is none to
have yet, all closes of its window are positive, or too few of the earlier closes are. -/
theorem historical_volatility_series_iff {F : Type} (arithmetic : FloatArithmetic F)
    (closes : List Decimal) {period index : ℕ} (annualize : Bool) (timeframe : Timeframe)
    (hperiod : 2 ≤ period) (h : index < closes.length) :
    (arithmetic.calculateHistoricalVolatilitySeries closes period annualize timeframe)[index]? =
        some (arithmetic.calculateHistoricalVolatility (closes.take (index + 1)) period annualize
          timeframe) ↔
      index < period ∨ (∀ close ∈ windowCloses closes period index, 0 < close) ∨
        positivePairs (closes.take (index + 1)) < period := by
  rw [arithmetic.calculateHistoricalVolatilitySeries_eq, arithmetic.calculateHistoricalVolatility_eq]
  exact volatilitySeries_iff _ (Nat.zero_lt_of_lt hperiod) h

/-- A close of zero after closes with enough returns: the scalar has the volatility of the returns
before it, and the series has no value, whatever the float operations are. -/
theorem historical_volatility_series_fails :
    ¬∃ (F : Type) (arithmetic : FloatArithmetic F), ∀ (closes : List Decimal) (period : ℕ)
      (annualize : Bool) (timeframe : Timeframe) (index : ℕ), 2 ≤ period → index < closes.length →
        (arithmetic.calculateHistoricalVolatilitySeries closes period annualize timeframe)[index]? =
          some (arithmetic.calculateHistoricalVolatility (closes.take (index + 1)) period annualize
            timeframe) := by
  rintro ⟨F, arithmetic, hall⟩
  have hagree := hall [1, 2, 1, 0] 2 true .oneHour 3 le_rfl (by decide)
  rw [arithmetic.calculateHistoricalVolatilitySeries_eq, arithmetic.calculateHistoricalVolatility_eq,
    volatilitySeries_iff _ Nat.two_pos (by decide)] at hagree
  rcases hagree with hindex | hwindow | hpairs
  · exact absurd hindex (by decide)
  · exact absurd hwindow (by decide +kernel)
  · exact absurd hpairs (by decide +kernel)

/-- A rational arithmetic that has the logarithm and the roots of zero and one alone. -/
def unitArithmetic : FloatArithmetic Decimal where
  float := id
  ofNat := Nat.cast
  sum := List.sum
  sub := (· - ·)
  mul := (· * ·)
  div := (· / ·)
  square value := value * value
  log value := value - 1
  sqrt := id
  isClose value other := |value - other| ≤ 1 / 10 ^ 15
  decimal := id

/-- After a zero the series goes on without a value while the scalar has one of zero. -/
theorem constantCloses_volatility :
    (unitArithmetic.calculateHistoricalVolatilitySeries [1, 1, 1, 0] 2)[2]? = some (some 0) ∧
    unitArithmetic.calculateHistoricalVolatility [1, 1, 1, 0] 2 = some 0 ∧
    (unitArithmetic.calculateHistoricalVolatilitySeries [1, 1, 1, 0] 2)[3]? ≠ some (some 0) := by
  have hvalue : unitArithmetic.calculateHistoricalVolatility [1, 1, 1] 2 = some 0 := by
    decide +kernel
  have hzero : unitArithmetic.calculateHistoricalVolatility [1, 1, 1, 0] 2 = some 0 := by
    decide +kernel
  refine ⟨?_, hzero, ?_⟩
  · have hseries := (historical_volatility_series_iff unitArithmetic [1, 1, 1, 0] true .oneHour
      (le_refl 2) (show 2 < 4 by decide)).mpr (.inr (.inl (by decide +kernel)))
    exact hseries.trans (congrArg some hvalue)
  · rw [← hzero]
    refine fun hseries => absurd ((historical_volatility_series_iff unitArithmetic [1, 1, 1, 0] true
      .oneHour (le_refl 2) (show 3 < 4 by decide)).mp hseries) ?_
    decide +kernel

end CryptoTrading
