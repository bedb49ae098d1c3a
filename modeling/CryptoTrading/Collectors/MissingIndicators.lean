import CryptoTrading.Collectors.BatchIndicators
import CryptoTrading.Collectors.CausalIndicators
import CryptoTrading.Reporting.ValidationPreflight

/-! The derivation of what is missing in a window.  The query of the window asks six indicators and a regime
of every candle, and the writer has each of them from its own place in the history on.  A candle that comes
earlier stays missing, and every run derives it anew. -/

namespace CryptoTrading

open Kit

/-- A row that the query asks of a candle. -/
inductive DerivedRow
  | indicator (name : IndicatorName) (period : ℕ)
  | regime
  deriving DecidableEq

/-- The rows of `_get_missing_derived_candle_ids`. -/
def requiredRows : List DerivedRow :=
  [.indicator .ema 20, .indicator .ema 50, .indicator .ema 200, .indicator .rsi 14, .indicator .atr 14,
    .indicator .volatility 20, .regime]

/-- The place in the history from which on a row is derived. -/
def DerivedRow.first : DerivedRow → ℕ
  | .indicator .ema period => period - 1
  | .indicator _ period => period
  | .regime => 199

def IndicatorStore.has (store : IndicatorStore) (candleId : ℕ) : DerivedRow → Bool
  | .indicator name period => (store.indicators.get? ⟨candleId, name, period⟩).isSome
  | .regime => (store.regimes.get? candleId).isSome

/-- The valid candles of an instrument, whose identities are unique. -/
structure CandleHistory extends CandleTable where
  nodup : (rows.map fun row => row.candleId).Nodup

namespace CandleHistory

variable (history : CandleHistory)

/-- `_get_missing_derived_candle_ids` -/
def missingDerivedCandleIds (startTime endTime : Datetime) (store : IndicatorStore) : List ℕ :=
  (history.rows.filter fun row => decide (startTime ≤ row.openTime ∧ row.openTime < endTime) &&
    requiredRows.any fun required => !store.has row.candleId required).map fun row => row.candleId

end CandleHistory

/-- `_target_indices`, with the candles. -/
def targetIndices (candles : List DdsCandle) (targetIds : List ℕ) : List (DdsCandle × ℕ) :=
  candles.zipIdx.filter fun item => decide (item.1.candleId ∈ targetIds)

inductive DerivationError
  /-- `ValueError`: "incremental derived timestamps must be timezone-aware" -/
  | naiveTimestamps
  /-- `RuntimeError`: "No valid DDS candles for {symbol} {interval}" -/
  | noCandles
  /-- `RuntimeError`: "Target DDS candles disappeared while deriving {symbol}: {ids}" -/
  | disappeared (candleIds : List ℕ)
  deriving DecidableEq

namespace BatchIndicatorCollector

variable {F : Type} (arithmetic : ReturnArithmetic F)

/-- `calculate_and_store_missing_indicators`, of the instrument that the symbol names, if there is one: how
many candles are processed, and the store after it. -/
def calculateAndStoreMissingIndicators (instrument : Option CandleHistory) (startTime endTime : Timestamp)
    (store : IndicatorStore) : Except DerivationError (ℕ × IndicatorStore) :=
  if startTime.isAware = false ∨ endTime.isAware = false then .error .naiveTimestamps
  else if endTime.key ≤ startTime.key then .ok (0, store)
  else
    match instrument with
    | none => .ok (0, store)
    | some history =>
      let targetIds := history.missingDerivedCandleIds startTime.key endTime.key store
      if targetIds = [] then .ok (0, store)
      else if history.candles = [] then .error .noCandles
      else
        let indices := targetIndices history.candles targetIds
        let foundIds := indices.map fun item => item.1.candleId
        let missingFromHistory := targetIds.filter fun candleId : ℕ => decide (candleId ∉ foundIds)
        if missingFromHistory ≠ [] then .error (.disappeared missingFromHistory)
        else
          .ok (indices.length,
            indices.foldl (storeDerivedAt (calculateSeries arithmetic history.candles)) store)

end BatchIndicatorCollector

/-! ### What the writer derives -/

section Derived

open BatchIndicatorCollector

variable {F : Type} {arithmetic : ReturnArithmetic F} {candles : List DdsCandle} {index : ℕ}

/-- The rows that `_store_derived_at` writes at a place of the history. -/
def derives (series : DerivedSeries) (index : ℕ) : DerivedRow → Bool
  | .indicator name period => (derivedRows series index).any fun row =>
      decide (row.name = name ∧ row.period = period) && row.value.isSome
  | .regime => (derivedRegime series index).isSome

theorem isSome_calculateEmaSeries {prices : List Decimal} {period : ℕ} (hperiod : 0 < period)
    (h : index < prices.length) :
    (calculateEmaSeries prices period)[index]?.join.isSome = decide (period ≤ index + 1) := by
  rw [getElem?_calculateEmaSeries hperiod h]
  split <;> simp <;> omega

theorem isSome_calculateRsi (prices : List Decimal) (period : ℕ) :
    (calculateRsi prices period).isSome = decide (period < prices.length) := by
  unfold calculateRsi
  split <;> simp <;> omega

theorem isSome_calculateAtr {highs lows closes : List Decimal} {period : ℕ}
    (hlows : lows.length = highs.length) (hcloses : closes.length = highs.length) :
    (calculateAtr highs lows closes period).isSome = decide (period < highs.length) := by
  unfold calculateAtr
  simp only [hlows, hcloses, or_self]
  split <;> simp <;> omega

/-- Positive closes have every log return. -/
theorem isSome_calculateHistoricalVolatility {closes : List Decimal} {period : ℕ}
    (hpos : ∀ close ∈ closes, 0 < close) :
    (calculateHistoricalVolatility (historicalDeviation arithmetic) closes period).isSome =
      decide (period < closes.length) := by
  have hlength : (logReturns arithmetic closes).reduceOption.length = closes.length - 1 := by
    rw [List.reduceOption_length_eq_iff.mpr (logReturns_of_pos arithmetic hpos), length_logReturns]
  simp only [calculateHistoricalVolatility, historicalDeviation, hlength]
  split
  · simp
    omega
  · rw [if_neg (by omega)]
    simp
    omega

/-- From its own place on, and from there only, each required row is derived. -/
theorem derives_eq (arithmetic : ReturnArithmetic F) (h : index < candles.length) {row : DerivedRow}
    (hrow : row ∈ requiredRows) :
    derives (calculateSeries arithmetic candles) index row = decide (row.first ≤ index) := by
  have hlength : ∀ field : DdsCandle → Decimal, ((candles.map field).take (index + 1)).length = index + 1 := by
    intro field
    simp only [List.length_take, List.length_map]
    omega
  have hpos : ∀ close ∈ (candles.map DdsCandle.closePrice).take (index + 1), 0 < close :=
    fun close hclose => closePrices_pos (List.mem_of_mem_take hclose)
  have hema : ∀ period, 0 < period →
      (calculateEmaSeries (candles.map DdsCandle.closePrice) period)[index]?.join.isSome =
        decide (period ≤ index + 1) :=
    fun period hperiod => isSome_calculateEmaSeries hperiod (by simpa using h)
  cases row with
  | indicator name period =>
    simp only [requiredRows, List.mem_cons, DerivedRow.indicator.injEq, reduceCtorEq, List.not_mem_nil,
      or_false] at hrow
    simp only [derives, derivedRows_eq arithmetic h, indicatorRows, List.any_cons, List.any_nil,
      hema 20 (by decide), hema 50 (by decide), hema 200 (by decide), isSome_calculateRsi,
      isSome_calculateAtr ((hlength _).trans (hlength _).symm) ((hlength _).trans (hlength _).symm),
      isSome_calculateHistoricalVolatility hpos, hlength]
    rcases hrow with ⟨rfl, rfl⟩ | ⟨rfl, rfl⟩ | ⟨rfl, rfl⟩ | ⟨rfl, rfl⟩ | ⟨rfl, rfl⟩ | ⟨rfl, rfl⟩ <;>
      simp [DerivedRow.first] <;> exact decide_eq_decide.mpr (by omega)
  | regime =>
    simp only [derives, derivedRegime, DerivedRow.first]
    split
    · rename_i hlate
      exact (decide_eq_true hlate).symm
    · rename_i hearly
      exact (decide_eq_false hearly).symm

end Derived

/-! ### What is stored -/

section Stored

variable {candleId : ℕ} {row : DerivedRow}

theorem has_storeIndicator (candleId' : ℕ) (store : IndicatorStore) (stored : IndicatorRow) :
    (store.storeIndicator candleId' stored).has candleId row = (store.has candleId row ||
      decide (candleId' = candleId ∧ row = .indicator stored.name stored.period) &&
        stored.value.isSome) := by
  obtain ⟨name', period', value⟩ := stored
  cases value with
  | none => simp [IndicatorStore.storeIndicator]
  | some value =>
    cases row with
    | indicator name period =>
      simp only [IndicatorStore.has, IndicatorStore.storeIndicator, Dict.get?_set]
      by_cases h : (⟨candleId', name', period'⟩ : IndicatorKey) = ⟨candleId, name, period⟩
      · cases h
        simp
      · rw [if_neg h]
        simp only [IndicatorKey.mk.injEq] at h
        simp
        tauto
    | regime => simp [IndicatorStore.has, IndicatorStore.storeIndicator]

theorem has_storeIndicators (candleId' : ℕ) (rows : List IndicatorRow) (store : IndicatorStore) :
    (rows.foldl (.storeIndicator candleId') store).has candleId row = (store.has candleId row ||
      rows.any fun stored => decide (candleId' = candleId ∧ row = .indicator stored.name stored.period) &&
        stored.value.isSome) := by
  induction rows generalizing store with
  | nil => simp
  | cons stored rows ih => rw [List.foldl_cons, ih, has_storeIndicator, List.any_cons, Bool.or_assoc]

theorem has_storeRegime (candleId' : ℕ) (store : IndicatorStore) (regime : RegimeResult) :
    (store.storeRegime candleId' regime).has candleId row =
      (store.has candleId row || decide (candleId' = candleId ∧ row = .regime)) := by
  cases row with
  | indicator name period => simp [IndicatorStore.has, IndicatorStore.storeRegime]
  | regime =>
    simp only [IndicatorStore.has, IndicatorStore.storeRegime, Dict.get?_set]
    split <;> simp_all

open BatchIndicatorCollector

variable {series : DerivedSeries}

/-- A candle's turn adds the rows that are derived at its place, and no other candle's. -/
theorem has_storeDerivedAt (store : IndicatorStore) (item : DdsCandle × ℕ) :
    (storeDerivedAt series store item).has candleId row =
      (store.has candleId row || decide (item.1.candleId = candleId) && derives series item.2 row) := by
  have hturn : (storeDerivedAt series store item).has candleId row =
      (((derivedRows series item.2).foldl (.storeIndicator item.1.candleId) store).has candleId row ||
        (derivedRegime series item.2).isSome && decide (item.1.candleId = candleId ∧ row = .regime)) := by
    unfold storeDerivedAt
    cases derivedRegime series item.2 with
    | none => simp
    | some regime => simp [has_storeRegime]
  rw [hturn, has_storeIndicators, Bool.or_assoc]
  refine congrArg (store.has candleId row || ·) ?_
  cases row with
  | indicator name period =>
    by_cases hown : item.1.candleId = candleId <;>
      simp [derives, hown, @eq_comm _ name, @eq_comm _ period]
  | regime =>
    by_cases hown : item.1.candleId = candleId <;> simp [derives, hown]

theorem has_foldl (items : List (DdsCandle × ℕ)) (store : IndicatorStore) :
    (items.foldl (storeDerivedAt series) store).has candleId row = (store.has candleId row ||
      items.any fun item => decide (item.1.candleId = candleId) && derives series item.2 row) := by
  induction items generalizing store with
  | nil => simp
  | cons item items ih => rw [List.foldl_cons, ih, has_storeDerivedAt, List.any_cons, Bool.or_assoc]

end Stored

/-! ### A second run -/

namespace CandleHistory

open BatchIndicatorCollector

variable {F : Type} (arithmetic : ReturnArithmetic F) (history : CandleHistory)

theorem mem_missingDerivedCandleIds {startTime endTime : Datetime} {store : IndicatorStore} {candleId : ℕ} :
    candleId ∈ history.missingDerivedCandleIds startTime endTime store ↔
      ∃ row ∈ history.rows, (startTime ≤ row.openTime ∧ row.openTime < endTime ∧
        ∃ required ∈ requiredRows, store.has row.candleId required = false) ∧
          row.candleId = candleId := by
  simp [missingDerivedCandleIds, and_assoc]

theorem getElem?_candles {index : ℕ} {row : TimedCandle} (h : history.rows[index]? = some row) :
    history.candles[index]? = some row.toDdsCandle := by
  rw [CandleTable.candles, List.getElem?_map, h]
  rfl

/-- The one place of a candle's identity. -/
theorem index_eq {index other : ℕ} {row : TimedCandle} {candle : DdsCandle}
    (h : history.rows[index]? = some row) (hother : history.candles[other]? = some candle)
    (hid : candle.candleId = row.candleId) : other = index := by
  have hlength : other < (history.rows.map fun row => row.candleId).length := by
    have := (List.getElem?_eq_some_iff.mp hother).1
    simpa [CandleTable.candles] using this
  refine (List.getElem?_inj hlength history.nodup).mp ?_
  rw [CandleTable.candles, List.getElem?_map] at hother
  obtain ⟨found, hfound, rfl⟩ := Option.map_eq_some_iff.mp hother
  rw [List.getElem?_map, List.getElem?_map, h, hfound]
  exact congrArg some hid

theorem mem_targetIndices {targetIds : List ℕ} {index : ℕ} {row : TimedCandle}
    (h : history.rows[index]? = some row) (htarget : row.candleId ∈ targetIds) :
    (row.toDdsCandle, index) ∈ targetIndices history.candles targetIds :=
  List.mem_filter.mpr ⟨List.mem_zipIdx_iff_getElem?.mpr (history.getElem?_candles h),
    decide_eq_true htarget⟩

/-- What a run stores of the targets. -/
def derived (store : IndicatorStore) (targetIds : List ℕ) : IndicatorStore :=
  (targetIndices history.candles targetIds).foldl
    (storeDerivedAt (calculateSeries arithmetic history.candles)) store

/-- After a run a target has the rows that are derived at its place, besides those that it had. -/
theorem has_derived {store : IndicatorStore} {targetIds : List ℕ} {index : ℕ} {row : TimedCandle}
    (h : history.rows[index]? = some row) {required : DerivedRow} (hrequired : required ∈ requiredRows) :
    (history.derived arithmetic store targetIds).has row.candleId required = true ↔
      store.has row.candleId required = true ∨ row.candleId ∈ targetIds ∧ required.first ≤ index := by
  have hcandle := history.getElem?_candles h
  have hplace := derives_eq arithmetic (List.getElem?_eq_some_iff.mp hcandle).1 hrequired
  rw [derived, has_foldl, Bool.or_eq_true, List.any_eq_true]
  refine or_congr_right ⟨?_, fun ⟨htarget, hfirst⟩ => ?_⟩
  · rintro ⟨⟨candle, other⟩, hitem, hderives⟩
    obtain ⟨hitem, htarget⟩ := List.mem_filter.mp hitem
    rw [Bool.and_eq_true, decide_eq_true_eq] at hderives
    obtain rfl := history.index_eq h (List.mem_zipIdx_iff_getElem?.mp hitem) hderives.1
    exact ⟨hderives.1 ▸ of_decide_eq_true htarget, of_decide_eq_true (hplace ▸ hderives.2)⟩
  · refine ⟨_, history.mem_targetIndices h htarget, ?_⟩
    rw [hplace]
    simpa using hfirst

/-- A run over aware times stores what its window misses. -/
theorem calculate_eq {startTime endTime : Timestamp} (hstart : startTime.isAware = true)
    (hend : endTime.isAware = true) (store : IndicatorStore) :
    let targetIds := history.missingDerivedCandleIds startTime.key endTime.key store
    calculateAndStoreMissingIndicators arithmetic (some history) startTime endTime store =
      .ok ((targetIndices history.candles targetIds).length, history.derived arithmetic store targetIds) := by
  intro targetIds
  have hempty : targetIds = [] → (Except.ok (0, store) : Except DerivationError (ℕ × IndicatorStore)) =
      .ok ((targetIndices history.candles targetIds).length, history.derived arithmetic store targetIds) := by
    intro htargets
    have hnone : targetIndices history.candles [] = [] := by simp [targetIndices]
    rw [derived, htargets, hnone]
    rfl
  have hfound : targetIds.filter (fun candleId => decide (candleId ∉
      (targetIndices history.candles targetIds).map fun item => item.1.candleId)) = [] := by
    refine List.filter_eq_nil_iff.mpr fun candleId hmem => ?_
    obtain ⟨row, hrow, -, rfl⟩ := history.mem_missingDerivedCandleIds.mp hmem
    obtain ⟨index, hindex⟩ := List.mem_iff_getElem?.mp hrow
    rw [decide_eq_true_eq, not_not]
    exact List.mem_map.mpr ⟨_, history.mem_targetIndices hindex hmem, rfl⟩
  unfold calculateAndStoreMissingIndicators
  rw [if_neg (by simp [hstart, hend])]
  by_cases hwindow : endTime.key ≤ startTime.key
  · rw [if_pos hwindow]
    refine hempty (List.eq_nil_iff_forall_not_mem.mpr fun candleId hmem => ?_)
    obtain ⟨row, -, ⟨hfrom, hto, -⟩, -⟩ := history.mem_missingDerivedCandleIds.mp hmem
    exact absurd (hfrom.trans_lt hto) (not_lt.mpr hwindow)
  rw [if_neg hwindow]
  by_cases htargets : targetIds = []
  · exact (if_pos htargets).trans (hempty htargets)
  have hcandles : history.candles ≠ [] := by
    obtain ⟨candleId, hmem⟩ := List.exists_mem_of_ne_nil _ htargets
    obtain ⟨row, hrow, -⟩ := history.mem_missingDerivedCandleIds.mp hmem
    exact List.ne_nil_of_mem (List.mem_map.mpr ⟨row, hrow, rfl⟩)
  refine (if_neg htargets).trans ((if_neg hcandles).trans ?_)
  exact if_neg (not_not_intro hfound)

/-- Each candle of the window comes late enough in the history for the required rows that it does not have
yet. -/
def Derivable (startTime endTime : Datetime) (store : IndicatorStore) : Prop :=
  ∀ index row, history.rows[index]? = some row → startTime ≤ row.openTime → row.openTime < endTime →
    ∀ required ∈ requiredRows, required.first ≤ index ∨ store.has row.candleId required = true

/-- After a run nothing is missing exactly when what was missing could be derived. -/
theorem missing_derived_iff (startTime endTime : Datetime) (store : IndicatorStore) :
    history.missingDerivedCandleIds startTime endTime (history.derived arithmetic store
        (history.missingDerivedCandleIds startTime endTime store)) = [] ↔
      history.Derivable startTime endTime store := by
  rw [List.eq_nil_iff_forall_not_mem]
  constructor
  · intro hnone index row hrow hstart hend required hrequired
    by_contra hlacks
    rw [not_or, Bool.not_eq_true] at hlacks
    refine hnone row.candleId (history.mem_missingDerivedCandleIds.mpr
      ⟨row, List.mem_of_getElem? hrow, ⟨hstart, hend, required, hrequired, ?_⟩, rfl⟩)
    rw [← Bool.not_eq_true, history.has_derived arithmetic hrow hrequired]
    simp [hlacks]
  · intro hderivable candleId hmem
    obtain ⟨row, hrow, ⟨hstart, hend, required, hrequired, hlacks⟩, rfl⟩ :=
      history.mem_missingDerivedCandleIds.mp hmem
    obtain ⟨index, hindex⟩ := List.mem_iff_getElem?.mp hrow
    rw [← Bool.not_eq_true, history.has_derived arithmetic hindex hrequired, not_or, not_and] at hlacks
    have htarget : row.candleId ∈ history.missingDerivedCandleIds startTime endTime store :=
      history.mem_missingDerivedCandleIds.mpr
        ⟨row, hrow, ⟨hstart, hend, required, hrequired, Bool.not_eq_true _ ▸ hlacks.1⟩, rfl⟩
    exact (hderivable index row hindex hstart hend required hrequired).elim (hlacks.2 htarget) hlacks.1

/-- Without a derived row, the window can be derived exactly when its candles are the 200th or later. -/
theorem derivable_empty_iff (startTime endTime : Datetime) :
    history.Derivable startTime endTime {} ↔ ∀ index row, history.rows[index]? = some row →
      startTime ≤ row.openTime → row.openTime < endTime → 199 ≤ index := by
  have hlate : ∀ index, (∀ required ∈ requiredRows, required.first ≤ index) ↔ 199 ≤ index := by
    intro index
    simp only [requiredRows, List.forall_mem_cons, DerivedRow.first, List.not_mem_nil, false_imp_iff,
      implies_true, and_true]
    omega
  have hlacks : ∀ candleId (required : DerivedRow), ({} : IndicatorStore).has candleId required = false := by
    intro candleId required
    cases required <;> rfl
  simp only [Derivable, hlacks, Bool.false_eq_true, or_false, hlate]

end CandleHistory

/-- A run leaves nothing for a second one exactly when each candle of the window comes late enough in the
history for the rows that it did not have: a second run then selects nothing, returns 0 and leaves the
store. -/
theorem derivation_idempotent_iff {F : Type} (arithmetic : ReturnArithmetic F)
    (instrument : Option CandleHistory) (startTime endTime : Timestamp) (store : IndicatorStore)
    {processed : ℕ} {stored : IndicatorStore}
    (hreturns : BatchIndicatorCollector.calculateAndStoreMissingIndicators arithmetic instrument startTime
      endTime store = .ok (processed, stored)) :
    ((∀ history ∈ instrument, history.missingDerivedCandleIds startTime.key endTime.key stored = []) ∧
      BatchIndicatorCollector.calculateAndStoreMissingIndicators arithmetic instrument startTime endTime
        stored = .ok (0, stored)) ↔
    ∀ history ∈ instrument, history.Derivable startTime.key endTime.key store := by
  obtain ⟨hstart, hend⟩ : startTime.isAware = true ∧ endTime.isAware = true := by
    by_contra hnaive
    rw [not_and_or, Bool.not_eq_true, Bool.not_eq_true] at hnaive
    unfold BatchIndicatorCollector.calculateAndStoreMissingIndicators at hreturns
    rw [if_pos hnaive] at hreturns
    cases hreturns
  cases instrument with
  | none =>
    have hnone : BatchIndicatorCollector.calculateAndStoreMissingIndicators arithmetic none startTime endTime
        stored = .ok (0, stored) := by
      simp [BatchIndicatorCollector.calculateAndStoreMissingIndicators, hstart, hend]
    simp [hnone]
  | some history =>
    rw [history.calculate_eq arithmetic hstart hend] at hreturns
    cases hreturns
    simp only [Option.mem_def, Option.some.injEq, forall_eq']
    rw [← history.missing_derived_iff arithmetic]
    refine ⟨And.left, fun hnone => ⟨hnone, ?_⟩⟩
    rw [history.calculate_eq arithmetic hstart hend, hnone]
    simp [CandleHistory.derived, targetIndices]

/-! ### Candles early in a history -/

def plainReturns : ReturnArithmetic Decimal where
  log := id
  deviation := List.sum

/-- The candle of an hour, counted from the epoch. -/
def hourlyCandle (place : ℕ) : TimedCandle :=
  { flatDdsCandle place 1 base_pos with openTime := place * hour }

/-- The candles of the first hours. -/
def hourlyHistory (count : ℕ) : CandleHistory where
  rows := (List.range count).map hourlyCandle
  ordered := List.pairwise_map.mpr (List.pairwise_lt_range.imp fun hlt =>
    mul_lt_mul_of_pos_right (Nat.cast_lt.mpr hlt) (by decide))
  nodup := by simpa [hourlyCandle, flatDdsCandle, Function.comp_def] using List.nodup_range

/-- What the 20th candle has, but for the short average. -/
def almostComplete : IndicatorStore :=
  let rows : List IndicatorRow :=
    [⟨.ema, 50, some 1⟩, ⟨.ema, 200, some 1⟩, ⟨.rsi, 14, some 50⟩, ⟨.atr, 14, some 0⟩,
      ⟨.volatility, 20, some 0⟩]
  (rows.foldl (IndicatorStore.storeIndicator 19) {}).storeRegime 19
    ⟨.range, 6 / 10, [], some 1, some 1, some 1, some 0, some 0⟩

/-- The short average of the 20th candle is derived once. -/
theorem almostComplete_derived_once : ∃ stored,
    BatchIndicatorCollector.calculateAndStoreMissingIndicators plainReturns (some (hourlyHistory 20))
        (.aware (19 * hour)) (.aware (20 * hour)) almostComplete = .ok (1, stored) ∧
      BatchIndicatorCollector.calculateAndStoreMissingIndicators plainReturns (some (hourlyHistory 20))
        (.aware (19 * hour)) (.aware (20 * hour)) stored = .ok (0, stored) := by
  have hreturns : BatchIndicatorCollector.calculateAndStoreMissingIndicators plainReturns
      (some (hourlyHistory 20)) (.aware (19 * hour)) (.aware (20 * hour)) almostComplete =
        .ok (1, (hourlyHistory 20).derived plainReturns almostComplete [19]) :=
    (hourlyHistory 20).calculate_eq plainReturns rfl rfl almostComplete
  refine ⟨_, hreturns, ((derivation_idempotent_iff plainReturns _ _ _ _ hreturns).mpr ?_).2⟩
  intro history hhistory index row hrow hstart _ required hrequired
  obtain rfl := Option.mem_some_iff.mp hhistory
  obtain ⟨place, hplace, rfl⟩ := Option.map_eq_some_iff.mp ((List.getElem?_map ..).symm.trans hrow)
  obtain ⟨hindex, rfl⟩ := List.getElem?_eq_some_iff.mp hplace
  rw [List.length_range] at hindex
  rw [List.getElem_range] at hstart ⊢
  have hlast : index = 19 := by
    have hpos : (0 : ℤ) < hour := by decide
    have hle : (19 : ℤ) ≤ index := le_of_mul_le_mul_right hstart hpos
    omega
  have hderivable : ∀ required ∈ requiredRows,
      required.first ≤ 19 ∨ almostComplete.has 19 required = true := by decide
  rw [hlast]
  exact hderivable required hrequired

/-- The first candle of a history is derived by every run, and nothing is ever stored for it. -/
theorem first_candle_rederived : ∃ stored,
    BatchIndicatorCollector.calculateAndStoreMissingIndicators plainReturns (some (hourlyHistory 1))
        (.aware 0) (.aware hour) {} = .ok (1, stored) ∧
      (hourlyHistory 1).missingDerivedCandleIds 0 hour stored = [0] ∧
      BatchIndicatorCollector.calculateAndStoreMissingIndicators plainReturns (some (hourlyHistory 1))
        (.aware 0) (.aware hour) stored = .ok (1, stored) := ⟨{}, rfl, rfl, rfl⟩

end CryptoTrading
