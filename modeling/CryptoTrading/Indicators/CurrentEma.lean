import CryptoTrading.Indicators.IndicatorBounds

/-! The exponential moving average by a single call.  With the previous average it is the next of the
series; without one it is the mean of the oldest prices, whatever came after them. -/

namespace CryptoTrading

open Kit

/-- `calculate_ema`. -/
def calculateEma (prices : List Decimal) (period : ℕ) (previousEma : Option Decimal := none) :
    Option Decimal :=
  if prices.length < period then none
  else
    match previousEma with
    | none => some ((prices.take period).sum / period)
    | some previousEma =>
      prices.getLast?.map fun currentPrice =>
        (currentPrice - previousEma) * (2 / (period + 1)) + previousEma

/-- `calculate_keltner_channels`: the upper channel, the average and the lower channel. -/
def calculateKeltnerChannels (highs lows closes : List Decimal) (emaPeriod : ℕ := 20)
    (atrPeriod : ℕ := 10) (atrMultiplier : Decimal := 3 / 2) : Option (Decimal × Decimal × Decimal) :=
  if closes.length < max emaPeriod atrPeriod then none
  else do
    let ema ← calculateEma closes emaPeriod
    let atr ← calculateAtr highs lows closes atrPeriod
    some (ema + atr * atrMultiplier, ema, ema - atr * atrMultiplier)

/-- The last value of `calculate_ema_series`. -/
def lastEma (prices : List Decimal) (period : ℕ) : Option Decimal :=
  (calculateEmaSeries prices period).getLast?.join

/-- How far the prices after the first `period` are from the mean of these, each less by a decay for every
price after it. -/
def emaDrift (prices : List Decimal) (period : ℕ) : Decimal :=
  decayed (1 - 2 / (period + 1)) ((prices.take period).sum / period) (prices.drop period)

variable {prices : List Decimal} {period : ℕ}

theorem lastEma_eq (hperiod : 0 < period) (hlength : period ≤ prices.length) :
    lastEma prices period = some (smoothed (emaStep period) period prices) := by
  rw [lastEma, List.getLast?_eq_getElem?, length_calculateEmaSeries hperiod,
    getElem?_calculateEmaSeries hperiod (by omega), if_neg (by omega), Nat.sub_add_cancel (by omega),
    List.take_length]

theorem calculateEma_none (hlength : period ≤ prices.length) :
    calculateEma prices period = some (seed period prices) :=
  if_neg (by omega)

theorem calculateEma_eq_lastEma_iff (hperiod : 0 < period) (hlength : period ≤ prices.length) :
    calculateEma prices period = lastEma prices period ↔ emaDrift prices period = 0 := by
  have hweight : (2 : Decimal) / (period + 1) ≠ 0 := by positivity
  rw [calculateEma_none hlength, lastEma_eq hperiod hlength, Option.some_inj, eq_comm]
  exact smoothed_eq_seed_iff hweight (fun average value => by rw [emaStep]; ring) period prices

/-- The value before in the series gives the next one. -/
theorem calculateEma_incremental (hperiod : 0 < period) {index : ℕ}
    (h : index + 1 < prices.length) :
    calculateEma (prices.take (index + 2)) period (calculateEmaSeries prices period)[index]?.join =
      (calculateEmaSeries prices period)[index + 1]?.join := by
  have htake : (prices.take (index + 2)).length = index + 2 := by
    rw [List.length_take]
    omega
  rw [getElem?_calculateEmaSeries hperiod (Nat.lt_of_succ_lt h), getElem?_calculateEmaSeries hperiod h]
  rcases Nat.lt_trichotomy (index + 2) period with hshort | hseed | hlong
  · rw [if_pos (by omega), if_pos (by omega), calculateEma, if_pos (by omega)]
  · -- the mean of the first prices is the first value of the series
    rw [if_pos (by omega), if_neg (by omega), calculateEma_none (by omega), smoothed, hseed,
      List.drop_take_self, List.foldl_nil]
  · have hlast : (prices.take (index + 2)).getLast? = some prices[index + 1] := by
      rw [List.getLast?_eq_getElem?, htake, List.getElem?_take_of_lt (by omega)]
      exact List.getElem?_eq_getElem h
    rw [if_neg (by omega), if_neg (by omega), calculateEma, if_neg (by omega),
      smoothed_take_succ (by omega) (List.getElem?_eq_getElem h)]
    exact congrArg (Option.map _) hlast

/-- The middle line is the average of a single call. -/
theorem calculateKeltnerChannels_middle {highs lows closes : List Decimal} {atrPeriod : ℕ}
    {atrMultiplier : Decimal} {channels : Decimal × Decimal × Decimal}
    (h : calculateKeltnerChannels highs lows closes period atrPeriod atrMultiplier = some channels) :
    calculateEma closes period = some channels.2.1 := by
  unfold calculateKeltnerChannels at h
  split at h
  · cases h
  obtain ⟨ema, hema, h⟩ := Option.bind_eq_some_iff.mp h
  obtain ⟨atr, hatr, h⟩ := Option.bind_eq_some_iff.mp h
  cases h
  exact hema

/-- The single call, with the value before or without one, and the middle line of the Keltner channels
are what the series has. -/
structure CurrentEma (prices : List Decimal) (period : ℕ) : Prop where
  scalar : calculateEma prices period = lastEma prices period
  incremental : ∀ index, index + 1 < prices.length →
    calculateEma (prices.take (index + 2)) period (calculateEmaSeries prices period)[index]?.join =
      (calculateEmaSeries prices period)[index + 1]?.join
  middle : ∀ highs lows atrPeriod atrMultiplier channels,
    calculateKeltnerChannels highs lows prices period atrPeriod atrMultiplier = some channels →
      some channels.2.1 = lastEma prices period

end CryptoTrading
