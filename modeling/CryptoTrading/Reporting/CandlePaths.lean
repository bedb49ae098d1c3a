import CryptoTrading.Kit.Fallible
import CryptoTrading.Kit.Progression
import CryptoTrading.Kit.StableSort
import CryptoTrading.Models.Trading

/-! The hourly candles of a window, as the diagnostics of closed trades read them: in order, without a
gap, and by the time of their open.  Without a gap there is one candle at most for a time, and a list of
candles says no more than which they are. -/

namespace CryptoTrading

open Kit

/-- A candle, with the indicators that the diagnostics read.  Its dictionary may lack the open. -/
structure PathCandle where
  openTime : Datetime
  opening : Option Decimal := none
  high : Decimal
  low : Decimal
  close : Decimal
  regime : Option String := none
  ema20 : Option Decimal := none
  ema50 : Option Decimal := none
  ema200 : Option Decimal := none
  atr : Option Decimal := none
  volatility : Option Decimal := none
  regimeConfidence : Option Decimal := none
  deriving DecidableEq

/-- `_regime` -/
def PathCandle.regimeText (candle : PathCandle) : String := candle.regime.getD "UNKNOWN"

/-- `candle.get("open", candle["close"])` -/
def PathCandle.openingPrice (candle : PathCandle) : Decimal := candle.opening.getD candle.close

/-- `BreakoutRetestTrade`, with what the diagnostics of its path read. -/
structure RetestTrade where
  symbol : String
  windowIndex : ℤ
  breakoutLevel : Decimal
  breakoutStrengthPct : Decimal := 0
  barsToRetest : ℤ := 0
  retestDepthPct : Decimal := 0
  entryFillTime : Datetime
  entryPrice : Decimal
  quantity : Decimal
  entryRegime : String := "UNKNOWN"
  exitTime : Datetime
  exitPrice : Decimal
  exitReason : String
  entryCommission : Decimal
  realizedPnl : Decimal
  holdingBars : ℤ
  deriving DecidableEq

/-- The `ValueError`s of the diagnostics, and the division by an entry price of zero. -/
inductive PathError
  | exitPrecedesEntry
  /-- "... gapless 1h candles: {previous} -> {current}" -/
  | gap (previous current : Datetime)
  /-- "Entry candle missing at {time}" -/
  | entryMissing (time : Datetime)
  /-- "No active candles between entry and exit" -/
  | noActiveCandles
  /-- "Missing candle for {hours}h snapshot at {time}" -/
  | snapshotMissing (hours : ℕ) (time : Datetime)
  /-- "Missing EMA20/EMA50 at frozen 24h snapshot {time}" -/
  | emaMissing (time : Datetime)
  /-- "Missing candles for window {index}" -/
  | windowMissing (index : ℤ)
  /-- "24h snapshot candle missing at {time}" -/
  | snapshotCandleMissing (time : Datetime)
  /-- "Previous snapshot candle missing at {time}" -/
  | previousCandleMissing (time : Datetime)
  /-- "24h snapshot expected 24 candles, got {count}" -/
  | snapshotLength (count : ℕ)
  /-- "EMA value must be non-zero" -/
  | zeroEma
  /-- "Previous EMA value must be non-zero" -/
  | zeroPreviousEma
  /-- "breakout_level must be positive" -/
  | levelNotPositive
  /-- "Trade/result identity mismatch" -/
  | identityMismatch
  /-- "Trade/result entry timestamp mismatch" -/
  | entryTimeMismatch
  /-- "False-positive attribution accepts triggered trades only" -/
  | notTriggered
  /-- "Triggered trade has no eligible 24h snapshot" -/
  | noSnapshot
  /-- "Counterfactual/snapshot 24h timestamp mismatch" -/
  | snapshotTimeMismatch
  | divisionByZero
  deriving DecidableEq

/-- The loop of `_validate_hourly_sequence` over candles and those after them. -/
def validateHourlySequence : List PathCandle → Except PathError Unit
  | previous :: current :: rest =>
    if current.openTime - previous.openTime = hour then validateHourlySequence (current :: rest)
    else .error (.gap previous.openTime current.openTime)
  | _ => .ok ()

/-- `sorted(candles, key=lambda item: item["open_time"])`, without a gap. -/
def orderedCandles (candles : List PathCandle) : Except PathError (List PathCandle) := do
  let ordered := StableSort.sortOn PathCandle.openTime candles
  validateHourlySequence ordered
  return ordered

/-- The candle of a time, in the dictionary of ordered candles by their time: the last of them. -/
def candleAt (ordered : List PathCandle) (time : Datetime) : Option PathCandle :=
  ordered.reverse.find? fun candle => candle.openTime = time

/-! ### Candles without a gap -/

variable {candles ordered other : List PathCandle}

theorem validateHourlySequence_eq_ok_iff : validateHourlySequence ordered = .ok () ↔
    ordered.IsChain fun previous current => current.openTime - previous.openTime = hour := by
  induction ordered with
  | nil => simp [validateHourlySequence]
  | cons first rest ih =>
    cases rest with
    | nil => simp [validateHourlySequence]
    | cons second rest =>
      rw [validateHourlySequence, List.isChain_cons_cons, ← ih]
      split
      · simp [*]
      · simp [*]

/-- The open times are a progression. -/
theorem times_of_valid {first : PathCandle} (h : validateHourlySequence (first :: candles) = .ok ()) :
    (first :: candles).map PathCandle.openTime = progression first.openTime hour (candles.length + 1) := by
  have hsteps (rest : List PathCandle) (hvalid : validateHourlySequence rest = .ok ()) :
      ∀ pair ∈ (rest.map PathCandle.openTime).zip (rest.map PathCandle.openTime).tail,
        pair.2 - pair.1 = hour := by
    induction rest with
    | nil => simp
    | cons previous rest ih =>
      cases rest with
      | nil => simp
      | cons current rest =>
        rw [validateHourlySequence] at hvalid
        split at hvalid
        · rename_i hapart
          intro pair hpair
          rcases List.mem_cons.mp hpair with rfl | hpair
          · exact hapart
          · exact ih hvalid pair hpair
        · cases hvalid
  have hstart : ∀ time ∈ ((first :: candles).map PathCandle.openTime).head?, time = first.openTime :=
    fun time htime => (Option.some.inj htime).symm
  have htimes := eq_progression (hsteps _ h) hstart
  rwa [List.length_map] at htimes

/-- Each candle has its place in the progression, and each place its candle. -/
theorem exists_places (h : validateHourlySequence ordered = .ok ()) : ∃ start : ℤ, ∀ time,
    (∃ candle ∈ ordered, candle.openTime = time) ↔ ∃ k < ordered.length, time = start + k * hour := by
  cases ordered with
  | nil => exact ⟨0, by simp⟩
  | cons first rest =>
    refine ⟨first.openTime, fun time => ?_⟩
    rw [← List.mem_map, times_of_valid h]
    exact mem_progression_iff

/-- The open times are whole hours apart. -/
theorem exists_hours (h : validateHourlySequence ordered = .ok ()) {earlier later : PathCandle}
    (hearlier : earlier ∈ ordered) (hlater : later ∈ ordered) (hle : earlier.openTime ≤ later.openTime) :
    ∃ hours : ℕ, later.openTime = earlier.openTime + hours * hour := by
  obtain ⟨start, hplaces⟩ := exists_places h
  obtain ⟨i, -, hi⟩ := (hplaces _).mp ⟨earlier, hearlier, rfl⟩
  obtain ⟨j, -, hj⟩ := (hplaces _).mp ⟨later, hlater, rfl⟩
  have hhour : (0 : ℤ) < hour := by decide
  have hij : i ≤ j := by
    have hbound : (i : ℤ) * hour ≤ j * hour := by linarith
    exact_mod_cast le_of_mul_le_mul_right hbound hhour
  refine ⟨j - i, ?_⟩
  rw [hi, hj, Nat.cast_sub hij]
  ring

/-- Between two candles there is one at every hour. -/
theorem exists_between (h : validateHourlySequence ordered = .ok ()) {earlier later : PathCandle}
    (hearlier : earlier ∈ ordered) (hlater : later ∈ ordered) (hours : ℕ)
    (hle : earlier.openTime + hours * hour ≤ later.openTime) :
    ∃ candle ∈ ordered, candle.openTime = earlier.openTime + hours * hour := by
  obtain ⟨start, hplaces⟩ := exists_places h
  obtain ⟨i, -, hi⟩ := (hplaces _).mp ⟨earlier, hearlier, rfl⟩
  obtain ⟨j, hj, hjs⟩ := (hplaces _).mp ⟨later, hlater, rfl⟩
  have hhour : (0 : ℤ) < hour := by decide
  have hbound : ((i + hours : ℕ) : ℤ) * hour ≤ j * hour := by
    push_cast
    linarith
  have hij : i + hours ≤ j := by exact_mod_cast le_of_mul_le_mul_right hbound hhour
  refine (hplaces _).mpr ⟨i + hours, by omega, ?_⟩
  push_cast
  linarith

/-- The open times ascend. -/
theorem ascending_of_valid (h : validateHourlySequence ordered = .ok ()) :
    ordered.Pairwise fun earlier later => earlier.openTime < later.openTime := by
  have hchain := (validateHourlySequence_eq_ok_iff.mp h).imp (S := fun earlier later : PathCandle =>
    earlier.openTime < later.openTime) fun a b hab => by
      have hpositive : (0 : ℤ) < hour := by decide
      exact sub_pos.mp (hab ▸ hpositive)
  exact (List.isChain_iff_pairwise (R := fun earlier later : PathCandle =>
    earlier.openTime < later.openTime)).mp hchain

theorem orderedCandles_eq_ok_iff : orderedCandles candles = .ok ordered ↔
    ordered = StableSort.sortOn PathCandle.openTime candles ∧ validateHourlySequence ordered = .ok () := by
  unfold orderedCandles
  rw [bind_eq_ok_iff]
  constructor
  · rintro ⟨⟨⟩, hvalid, ⟨⟩⟩
    exact ⟨rfl, hvalid⟩
  · rintro ⟨rfl, hvalid⟩
    exact ⟨(), hvalid, rfl⟩

theorem orderedCandles_of_perm (hperm : candles.Perm ordered) (hvalid : validateHourlySequence ordered = .ok ()) :
    orderedCandles candles = .ok ordered := by
  have hascending := ascending_of_valid hvalid
  have hkeys : (candles.map PathCandle.openTime).Nodup :=
    (hperm.map _).nodup_iff.mpr (List.pairwise_map.mpr (hascending.imp ne_of_lt))
  refine orderedCandles_eq_ok_iff.mpr ⟨?_, hvalid⟩
  rw [StableSort.sortOn_eq_sortOn_iff.mpr (StableSort.withKey_eq_of_perm hperm hkeys)]
  exact (StableSort.sortOn_eq_self (hascending.imp le_of_lt)).symm

theorem mem_ordered (h : orderedCandles candles = .ok ordered) {candle : PathCandle} :
    candle ∈ ordered ↔ candle ∈ candles := by
  rw [(orderedCandles_eq_ok_iff.mp h).1, StableSort.mem_sortOn]

/-- Of ascending candles the one of a time is the one that has it. -/
theorem candleAt_eq_some_iff (h : ordered.Pairwise fun earlier later => earlier.openTime < later.openTime)
    {time : Datetime} {candle : PathCandle} :
    candleAt ordered time = some candle ↔ candle ∈ ordered ∧ candle.openTime = time := by
  have hkeys : (ordered.map PathCandle.openTime).Nodup := List.pairwise_map.mpr (h.imp ne_of_lt)
  constructor
  · intro hfound
    exact ⟨List.mem_reverse.mp (List.mem_of_find?_eq_some hfound), by simpa using List.find?_some hfound⟩
  · rintro ⟨hmem, htime⟩
    cases hfound : candleAt ordered time with
    | none => exact absurd (List.find?_eq_none.mp hfound candle (List.mem_reverse.mpr hmem)) (by simpa using htime)
    | some found =>
      have hfoundTime : found.openTime = time := by simpa using List.find?_some hfound
      rw [List.inj_on_of_nodup_map hkeys (List.mem_reverse.mp (List.mem_of_find?_eq_some hfound)) hmem
        (hfoundTime.trans htime.symm)]

/-- Ascending lists with the same candle of a time. -/
theorem candleAt_eq_of_mem (h : ordered.Pairwise fun earlier later => earlier.openTime < later.openTime)
    (h' : other.Pairwise fun earlier later => earlier.openTime < later.openTime) {time : Datetime}
    (hmem : ∀ candle : PathCandle, candle.openTime = time → (candle ∈ ordered ↔ candle ∈ other)) :
    candleAt ordered time = candleAt other time := by
  refine Option.ext fun candle => ?_
  rw [candleAt_eq_some_iff h, candleAt_eq_some_iff h']
  constructor
  · rintro ⟨hfound, htime⟩
    exact ⟨(hmem candle htime).mp hfound, htime⟩
  · rintro ⟨hfound, htime⟩
    exact ⟨(hmem candle htime).mpr hfound, htime⟩

/-- Ascending candles are told by which they are. -/
theorem eq_of_ascending (h : ordered.Pairwise fun earlier later => earlier.openTime < later.openTime)
    (h' : other.Pairwise fun earlier later => earlier.openTime < later.openTime)
    (hmem : ∀ candle, candle ∈ ordered ↔ candle ∈ other) : ordered = other := by
  have hnodup : ordered.Nodup := h.imp fun hlt heq => by rw [heq] at hlt; exact lt_irrefl _ hlt
  have hnodup' : other.Nodup := h'.imp fun hlt heq => by rw [heq] at hlt; exact lt_irrefl _ hlt
  have hperm : ordered.Perm other := (List.perm_ext_iff_of_nodup hnodup hnodup').mpr hmem
  have hkeys : (ordered.map PathCandle.openTime).Nodup := List.pairwise_map.mpr (h.imp ne_of_lt)
  rw [← StableSort.sortOn_eq_self (h.imp le_of_lt), ← StableSort.sortOn_eq_self (h'.imp le_of_lt),
    StableSort.sortOn_eq_sortOn_iff]
  exact StableSort.withKey_eq_of_perm hperm hkeys

end CryptoTrading
