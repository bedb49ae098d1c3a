import CryptoTrading.Indicators.IndicatorSeries
import Mathlib.Data.Finset.Max
import Mathlib.Tactic.FieldSimp
import Mathlib.Tactic.Ring

/-! The indicator series have at every candle what the scalar indicators calculate from the candles that
lead to it, and their values are within the bounds of what they average. -/

namespace CryptoTrading

open Kit

/-! ### The averages -/

theorem averages_emaStep (period : ℕ) (hperiod : 0 < period) : Averages (emaStep period) := by
  have hpos : (0 : Decimal) < period + 1 := by positivity
  have hone : (1 : Decimal) ≤ period := by exact_mod_cast hperiod
  refine .of_weight (2 / (period + 1)) (by positivity) ?_ fun average value => ?_
  · rw [div_le_one hpos]
    linarith
  · rw [emaStep]
    ring

theorem averages_wilderStep (period : ℕ) (hperiod : 0 < period) : Averages (wilderStep period) := by
  have hpos : (0 : Decimal) < period := by exact_mod_cast hperiod
  have hone : (1 : Decimal) ≤ period := by exact_mod_cast hperiod
  refine .of_weight (1 / period) (by positivity) ?_ fun average value => ?_
  · rw [div_le_one hpos]
    exact hone
  · rw [wilderStep]
    field_simp

theorem rsiFromAverages_mem {avgGain avgLoss : Decimal} (hgain : 0 ≤ avgGain) (hloss : 0 ≤ avgLoss) :
    0 ≤ rsiFromAverages avgGain avgLoss ∧ rsiFromAverages avgGain avgLoss ≤ 100 := by
  unfold rsiFromAverages
  split
  · norm_num
  split
  · norm_num
  · have hstrength : 0 ≤ avgGain / avgLoss := div_nonneg hgain hloss
    have hpos : 0 < 1 + avgGain / avgLoss := by linarith
    have hnonneg : 0 ≤ 100 / (1 + avgGain / avgLoss) := div_nonneg (by norm_num) hpos.le
    have hle : 100 / (1 + avgGain / avgLoss) ≤ 100 := by
      rw [div_le_iff₀ hpos]
      linarith
    constructor
    · linarith
    · linarith

theorem calculateTrueRange_nonneg (high low previousClose : Decimal) :
    0 ≤ calculateTrueRange high low previousClose :=
  (abs_nonneg _).trans (le_max_right _ _)

/-! ### The scalar indicators -/

theorem calculateRsi_mem {prices : List Decimal} {period : ℕ} {rsi : Decimal} (hperiod : 0 < period)
    (h : calculateRsi prices period = some rsi) : 0 ≤ rsi ∧ rsi ≤ 100 := by
  unfold calculateRsi at h
  split at h
  · cases h
  rename_i hlong
  obtain rfl := Option.some.inj h
  have hlength : period ≤ (changes prices).length := by
    simp only [changes, List.length_zipWith, List.length_tail]
    omega
  refine rsiFromAverages_mem ?_ ?_
  · refine (averages_wilderStep period hperiod).le_smoothed hperiod (by rwa [List.length_map]) ?_
    intro gain hgain
    obtain ⟨change, -, rfl⟩ := List.mem_map.mp hgain
    exact le_max_right _ _
  · refine (averages_wilderStep period hperiod).le_smoothed hperiod (by rwa [List.length_map]) ?_
    intro loss hloss
    obtain ⟨change, -, rfl⟩ := List.mem_map.mp hloss
    exact abs_nonneg _

theorem calculateAtr_nonneg {highs lows closes : List Decimal} {period : ℕ} {atr : Decimal}
    (hperiod : 0 < period) (h : calculateAtr highs lows closes period = some atr) : 0 ≤ atr := by
  unfold calculateAtr at h
  split at h
  · cases h
  rename_i hlong
  obtain rfl := Option.some.inj h
  refine (averages_wilderStep period hperiod).le_smoothed hperiod ?_ fun range hrange => ?_
  · simp only [trueRanges, List.length_zipWith, List.length_zip, List.length_tail]
    omega
  · obtain ⟨index, hindex⟩ := List.mem_iff_getElem?.mp hrange
    rw [trueRanges, List.getElem?_zipWith_eq_some] at hindex
    obtain ⟨pair, previousClose, -, -, rfl⟩ := hindex
    exact calculateTrueRange_nonneg _ _ _

/-! ### The series -/

theorem length_calculateRsiSeries (prices : List Decimal) (period : ℕ) :
    (calculateRsiSeries prices period).length = prices.length := by
  unfold calculateRsiSeries
  split
  · exact List.length_replicate
  · simp only [List.length_append, List.length_replicate, List.length_map, List.length_scanl,
      List.length_drop, List.length_zip, changes, List.length_zipWith, List.length_tail]
    omega

theorem length_calculateAtrSeries {highs lows closes : List Decimal} (period : ℕ)
    (hlows : lows.length = highs.length) (hcloses : closes.length = highs.length) :
    (calculateAtrSeries highs lows closes period).length = highs.length := by
  unfold calculateAtrSeries
  split
  · exact List.length_replicate
  · simp only [List.length_append, List.length_replicate, List.length_map, List.length_scanl,
      List.length_drop, List.length_zip, trueRanges, List.length_zipWith, List.length_tail]
    omega

theorem getElem?_eq_some_of_join {α : Type} {values : List (Option α)} {index : ℕ} {value : Option α}
    (hindex : index < values.length) (h : values[index]?.join = value) :
    values[index]? = some value := by
  rw [List.getElem?_eq_getElem hindex] at h ⊢
  rw [← h, Option.join_some]

theorem length_prefix {values : List Decimal} {index : ℕ} (h : index < values.length) :
    (values.take (index + 1)).length = index + 1 := by
  rw [List.length_take, Nat.min_eq_left h]

/-- The average of a prefix is between its least and its greatest price. -/
theorem exists_extremes_ema {prices : List Decimal} {period : ℕ} (hperiod : 0 < period)
    (hlength : period ≤ prices.length) : ∃ lowest ∈ prices, ∃ highest ∈ prices,
      (∀ price ∈ prices, lowest ≤ price ∧ price ≤ highest) ∧
      lowest ≤ smoothed (emaStep period) period prices ∧
      smoothed (emaStep period) period prices ≤ highest := by
  have hne : prices.toFinset.Nonempty := by
    rw [List.toFinset_nonempty_iff, ← List.length_pos_iff]
    omega
  obtain ⟨lowest, hlowest, hleast⟩ := Finset.exists_min_image prices.toFinset id hne
  obtain ⟨highest, hhighest, hgreatest⟩ := Finset.exists_max_image prices.toFinset id hne
  simp only [List.mem_toFinset, id_eq] at hlowest hhighest hleast hgreatest
  have haverages := averages_emaStep period hperiod
  exact ⟨lowest, hlowest, highest, hhighest, fun price hprice => ⟨hleast price hprice,
    hgreatest price hprice⟩, haverages.le_smoothed hperiod hlength hleast,
    haverages.smoothed_le hperiod hlength hgreatest⟩

/-- The series at `index` are the scalar indicators of the candles up to it, missing when these are too
few, and within their bounds. -/
structure PrefixIndicators (highs lows closes : List Decimal) (period index : ℕ) : Prop where
  rsi : (calculateRsiSeries closes period)[index]? =
    some (calculateRsi (closes.take (index + 1)) period)
  rsiMissing : calculateRsi (closes.take (index + 1)) period = none ↔
    (closes.take (index + 1)).length < period + 1
  rsiBounds : ∀ value, (calculateRsiSeries closes period)[index]? = some (some value) →
    0 ≤ value ∧ value ≤ 100
  atr : (calculateAtrSeries highs lows closes period)[index]? =
    some (calculateAtr (highs.take (index + 1)) (lows.take (index + 1)) (closes.take (index + 1)) period)
  atrMissing : calculateAtr (highs.take (index + 1)) (lows.take (index + 1)) (closes.take (index + 1))
    period = none ↔ (closes.take (index + 1)).length < period + 1
  atrBounds : ∀ value, (calculateAtrSeries highs lows closes period)[index]? = some (some value) →
    0 ≤ value
  ema : ∀ other, other.take (index + 1) = closes.take (index + 1) →
    (calculateEmaSeries other period)[index]? = (calculateEmaSeries closes period)[index]?
  emaMissing : (calculateEmaSeries closes period)[index]? = some none ↔
    (closes.take (index + 1)).length < period
  emaBounds : ∀ value, (calculateEmaSeries closes period)[index]? = some (some value) →
    ∃ lowest ∈ closes.take (index + 1), ∃ highest ∈ closes.take (index + 1),
      (∀ price ∈ closes.take (index + 1), lowest ≤ price ∧ price ≤ highest) ∧
      lowest ≤ value ∧ value ≤ highest

theorem indicator_series_are_prefix_indicators (highs lows closes : List Decimal) (period index : ℕ)
    (hlows : lows.length = highs.length) (hcloses : closes.length = highs.length)
    (hperiod : 1 ≤ period) (hindex : index < closes.length) :
    PrefixIndicators highs lows closes period index := by
  have hlength := length_prefix hindex
  have hrsi : (calculateRsiSeries closes period)[index]? =
      some (calculateRsi (closes.take (index + 1)) period) :=
    getElem?_eq_some_of_join (by rwa [length_calculateRsiSeries]) (getElem?_calculateRsiSeries hindex)
  have hhighs : index < highs.length := hcloses ▸ hindex
  have hatr : (calculateAtrSeries highs lows closes period)[index]? =
      some (calculateAtr (highs.take (index + 1)) (lows.take (index + 1)) (closes.take (index + 1))
        period) :=
    getElem?_eq_some_of_join (by rwa [length_calculateAtrSeries period hlows hcloses])
      (getElem?_calculateAtrSeries hlows hcloses hhighs)
  have hema := getElem?_smoothedSeries (emaStep period) hperiod hindex
  refine ⟨hrsi, ?_, fun value hvalue => ?_, hatr, ?_, fun value hvalue => ?_, fun other hother => ?_, ?_,
    fun value hvalue => ?_⟩
  · unfold calculateRsi
    split <;> simp_all
  · rw [hrsi, Option.some_inj] at hvalue
    exact calculateRsi_mem hperiod hvalue
  · unfold calculateAtr
    simp only [List.length_take, hlows, hcloses, or_self]
    split <;> simp_all
  · rw [hatr, Option.some_inj] at hvalue
    exact calculateAtr_nonneg hperiod hvalue
  · have hothers : index < other.length := by
      have htake := congrArg List.length hother
      rw [hlength, List.length_take] at htake
      omega
    rw [calculateEmaSeries, getElem?_smoothedSeries (emaStep period) hperiod hothers, hother, ← hema]
    rfl
  · rw [calculateEmaSeries, hema, hlength, Option.some_inj]
    simp
  · rw [calculateEmaSeries, hema, Option.some_inj] at hvalue
    split at hvalue
    · cases hvalue
    · cases hvalue
      exact exists_extremes_ema hperiod (by omega)

/-- `indicator_series_are_prefix_indicators` for the third of four candles. -/
theorem third_candle_indicators : PrefixIndicators [2, 3, 5, 4] [1, 2, 3, 2] [2, 3, 4, 3] 2 2 :=
  indicator_series_are_prefix_indicators _ _ _ 2 2 rfl rfl (by decide) (by decide)

end CryptoTrading
