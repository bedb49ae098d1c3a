import CryptoTrading.Collectors.IndicatorCollector
import Mathlib.Data.List.Induction
import Mathlib.Data.List.SplitLengths
import Mathlib.Tactic.Linarith

/-! Incremental indicators are those of the full calculation as long as the warm-up window is the whole
past: every average goes back to the first candle of its window. -/

namespace CryptoTrading

open Kit

variable {deviation : LogReturnDeviation} {window other : List DdsCandle} {index start : ℕ}
  {store : IndicatorStore} {key : IndicatorKey} {candle : DdsCandle}

/-! ### What a candle's rows depend on -/

/-- The rows of a candle are calculated from the candles that lead to it. -/
theorem indicatorRows_congr (h : index < window.length) (h' : index < other.length)
    (htake : window.take (index + 1) = other.take (index + 1)) :
    indicatorRows deviation window index = indicatorRows deviation other index := by
  have hmap : ∀ field : DdsCandle → Decimal,
      (window.map field).take (index + 1) = (other.map field).take (index + 1) := fun field => by
    rw [← List.map_take, ← List.map_take, htake]
  have hema : ∀ period, 0 < period →
      (calculateEmaSeries (window.map DdsCandle.closePrice) period)[index]?.join =
        (calculateEmaSeries (other.map DdsCandle.closePrice) period)[index]?.join := by
    intro period hperiod
    rw [getElem?_calculateEmaSeries hperiod (by simpa using h),
      getElem?_calculateEmaSeries hperiod (by simpa using h'), hmap]
  simp only [indicatorRows, hmap, hema 20 (by decide), hema 50 (by decide), hema 200 (by decide)]

theorem regimeAt_congr (htake : window.take (index + 1) = other.take (index + 1)) :
    regimeAt deviation window index = regimeAt deviation other index := by
  have hmap : ∀ field : DdsCandle → Decimal,
      (window.map field).take (index + 1) = (other.map field).take (index + 1) := fun field => by
    rw [← List.map_take, ← List.map_take, htake]
  simp only [regimeAt, hmap]

theorem storeCandle_congr (h : index < window.length) (h' : index < other.length)
    (htake : window.take (index + 1) = other.take (index + 1)) :
    storeCandle deviation window store index = storeCandle deviation other store index := by
  have hget : window[index]? = other[index]? := by
    rw [← List.getElem?_take_of_lt (Nat.lt_succ_self index), htake,
      List.getElem?_take_of_lt (Nat.lt_succ_self index)]
  simp only [storeCandle, hget, indicatorRows_congr h h' htake, regimeAt_congr htake]

/-- The calculation over a longer history goes on from that over a shorter one. -/
theorem storeFrom_append (deviation : LogReturnDeviation) (earlier later : List DdsCandle)
    (store : IndicatorStore) : storeFrom deviation (earlier ++ later) 0 store =
      storeFrom deviation (earlier ++ later) earlier.length (storeFrom deviation earlier 0 store) := by
  have hsplit : List.range' 0 ((earlier ++ later).length - 0) =
      List.range' 0 (earlier.length - 0) ++
        List.range' earlier.length ((earlier ++ later).length - earlier.length) := by
    rw [List.length_append, Nat.add_sub_cancel_left, Nat.sub_zero, Nat.sub_zero]
    simpa using (List.range'_append_1 (s := 0) (m := earlier.length) (n := later.length)).symm
  rw [storeFrom, hsplit, List.foldl_append, storeFrom, storeFrom]
  congr 1
  refine List.foldl_ext _ _ _ fun stored index hindex => ?_
  have hlt : index < earlier.length := by simpa using hindex
  refine storeCandle_congr (by simp; omega) hlt ?_
  rw [List.take_append_of_le_length hlt]

theorem storeFrom_end (h : window.length ≤ start) :
    storeFrom deviation window start store = store := by
  simp [storeFrom, Nat.sub_eq_zero_of_le h]

/-- Fourteen candles have no indicators. -/
theorem storeFrom_short (h : window.length < 15) :
    storeFrom deviation window 0 store = store := by
  have hnone : ∀ index ∈ List.range' 0 (window.length - 0), ∀ stored,
      storeCandle deviation window stored index = stored := by
    intro index hindex stored
    have hlt : index < window.length := by simpa using hindex
    have hlength : ∀ field : DdsCandle → Decimal,
        ((window.map field).take (index + 1)).length = index + 1 := fun field => by
      simp only [List.length_take, List.length_map]
      omega
    have hema : ∀ period, 20 ≤ period →
        (calculateEmaSeries (window.map DdsCandle.closePrice) period)[index]?.join = none := by
      intro period hperiod
      rw [getElem?_calculateEmaSeries (by omega) (by simpa using hlt), if_pos (by omega)]
    have hrsi : calculateRsi ((window.map DdsCandle.closePrice).take (index + 1)) 14 = none :=
      if_pos (by rw [hlength]; omega)
    have hatr : calculateAtr ((window.map DdsCandle.highPrice).take (index + 1))
        ((window.map DdsCandle.lowPrice).take (index + 1))
        ((window.map DdsCandle.closePrice).take (index + 1)) 14 = none :=
      if_pos (Or.inl (by rw [hlength]; omega))
    have hvolatility : calculateHistoricalVolatility deviation
        ((window.map DdsCandle.closePrice).take (index + 1)) 20 = none :=
      if_pos (by rw [hlength]; omega)
    have hregime : regimeAt deviation window index = none := if_neg (by rw [hlength]; omega)
    simp only [storeCandle, List.getElem?_eq_getElem hlt, hregime, indicatorRows,
      hema 20 (by decide), hema 50 (by decide), hema 200 (by decide), hrsi, hatr, hvolatility,
      List.foldl_cons, List.foldl_nil, IndicatorStore.storeIndicator]
  rw [storeFrom]
  generalize List.range' 0 (window.length - 0) = indexes at hnone
  induction indexes with
  | nil => rfl
  | cons index rest ih =>
    rw [List.foldl_cons, hnone index List.mem_cons_self]
    exact ih fun other hmem => hnone other (List.mem_cons_of_mem _ hmem)

/-! ### What is stored -/

namespace IndicatorStore

theorem get?_storeIndicator_of_ne {candleId : ℕ} {row : IndicatorRow}
    (h : key ≠ ⟨candleId, row.name, row.period⟩) :
    (storeIndicator candleId store row).indicators.get? key = store.indicators.get? key := by
  unfold storeIndicator
  split
  · rfl
  · exact Dict.get?_set_ne _ _ h.symm

theorem get?_storeIndicators_of_ne {candleId : ℕ} {rows : List IndicatorRow}
    (h : ∀ row ∈ rows, key ≠ ⟨candleId, row.name, row.period⟩) :
    (rows.foldl (storeIndicator candleId) store).indicators.get? key =
      store.indicators.get? key := by
  induction rows generalizing store with
  | nil => rfl
  | cons row rest ih =>
    rw [List.foldl_cons, ih fun other hmem => h other (List.mem_cons_of_mem _ hmem),
      get?_storeIndicator_of_ne (h row List.mem_cons_self)]

/-- An indicator that a candle has is stored. -/
theorem get?_storeIndicators {candleId : ℕ} {rows : List IndicatorRow} {row : IndicatorRow}
    (hrows : rows.Pairwise fun first second => (first.name, first.period) ≠
      (second.name, second.period)) (h : row ∈ rows) {value : Decimal} (hvalue : row.value = some value) :
    (rows.foldl (storeIndicator candleId) store).indicators.get? ⟨candleId, row.name, row.period⟩ =
      some value := by
  induction rows generalizing store with
  | nil => cases h
  | cons first rest ih =>
    obtain ⟨hfirst, hrest⟩ := List.pairwise_cons.mp hrows
    rw [List.foldl_cons]
    rcases List.mem_cons.mp h with rfl | hmem
    · rw [get?_storeIndicators_of_ne fun other hother he => ?_]
      · simp [storeIndicator, hvalue]
      · simp only [IndicatorKey.mk.injEq, true_and] at he
        exact hfirst other hother (Prod.ext he.1 he.2)
    · exact ih hrest hmem

end IndicatorStore

theorem indicatorRows_distinct : (indicatorRows deviation window index).Pairwise fun first second =>
    (first.name, first.period) ≠ (second.name, second.period) := by
  simp [indicatorRows]

theorem get?_storeCandle (h : window[index]? = some candle) :
    (storeCandle deviation window store index).indicators =
      ((indicatorRows deviation window index).foldl (.storeIndicator candle.candleId)
        store).indicators := by
  simp only [storeCandle, h]
  split <;> rfl

theorem get?_storeCandle_of_ne (h : ∀ candle, window[index]? = some candle →
    key.candleId ≠ candle.candleId) :
    (storeCandle deviation window store index).indicators.get? key =
      store.indicators.get? key := by
  cases hcandle : window[index]? with
  | none => simp only [storeCandle, hcandle]
  | some candle =>
    rw [get?_storeCandle hcandle]
    exact IndicatorStore.get?_storeIndicators_of_ne fun row _ he =>
      h candle hcandle (congrArg IndicatorKey.candleId he)

theorem get?_storeCandles_of_ne {indexes : List ℕ} (h : ∀ index ∈ indexes, ∀ candle,
    window[index]? = some candle → key.candleId ≠ candle.candleId) :
    (indexes.foldl (storeCandle deviation window) store).indicators.get? key =
      store.indicators.get? key := by
  induction indexes generalizing store with
  | nil => rfl
  | cons index rest ih =>
    rw [List.foldl_cons, ih fun other hmem => h other (List.mem_cons_of_mem _ hmem),
      get?_storeCandle_of_ne (h index List.mem_cons_self)]

/-- The calculation of a window stores the indicators of each of its candles from the start on. -/
theorem get?_storeFrom (hnodup : (window.map DdsCandle.candleId).Nodup) (hstart : start ≤ index)
    (hcandle : window[index]? = some candle) {row : IndicatorRow}
    (hrow : row ∈ indicatorRows deviation window index) {value : Decimal}
    (hvalue : row.value = some value) :
    (storeFrom deviation window start store).indicators.get?
      ⟨candle.candleId, row.name, row.period⟩ = some value := by
  have hlt : index < window.length := (List.getElem?_eq_some_iff.mp hcandle).1
  have hsplit : List.range' start (window.length - start) =
      List.range' start (index - start) ++ index ::
        List.range' (index + 1) (window.length - (index + 1)) := by
    rw [← List.range'_succ]
    have := List.range'_append_1 (s := start) (m := index - start) (n := window.length - index)
    rw [Nat.add_sub_cancel' hstart] at this
    rw [show window.length - (index + 1) + 1 = window.length - index by omega, this]
    congr 1
    omega
  rw [storeFrom, hsplit, List.foldl_append, List.foldl_cons, get?_storeCandles_of_ne,
    get?_storeCandle hcandle, IndicatorStore.get?_storeIndicators indicatorRows_distinct hrow hvalue]
  intro later hlater other hother he
  have hne : index < later := (List.mem_range'_1.mp hlater).1
  have hids : (window.map DdsCandle.candleId)[index]? = (window.map DdsCandle.candleId)[later]? := by
    rw [List.getElem?_map, List.getElem?_map, hcandle, hother]
    exact congrArg some he
  exact hne.ne ((List.getElem?_inj (by simpa using hlt) hnodup).mp hids)

theorem get?_ema (deviation : LogReturnDeviation) (store : IndicatorStore)
    (hnodup : (window.map DdsCandle.candleId).Nodup) (hstart : start ≤ index)
    (hcandle : window[index]? = some candle) (hindex : 20 ≤ index + 1) :
    (storeFrom deviation window start store).indicators.get? ⟨candle.candleId, .ema, 20⟩ =
      some (smoothed (emaStep 20) 20 ((window.map DdsCandle.closePrice).take (index + 1))) := by
  have hlt : index < window.length := (List.getElem?_eq_some_iff.mp hcandle).1
  have hrow : (⟨.ema, 20, some (smoothed (emaStep 20) 20
      ((window.map DdsCandle.closePrice).take (index + 1)))⟩ : IndicatorRow) ∈
        indicatorRows deviation window index := by
    have hvalue : (calculateEmaSeries (window.map DdsCandle.closePrice) 20)[index]?.join = _ :=
      getElem?_calculateEmaSeries (by decide) (by simpa using hlt)
    rw [if_neg (Nat.not_lt.mpr hindex)] at hvalue
    rw [indicatorRows, hvalue]
    exact List.mem_cons_self
  exact get?_storeFrom hnodup hstart hcandle hrow rfl

/-! ### The incremental runs -/

/-- The candles of one symbol, in the order of their times, are numbered as they arrive. -/
def InOrder (candles : List DdsCandle) : Prop :=
  candles.Pairwise fun first second => first.candleId < second.candleId

theorem InOrder.nodup {candles : List DdsCandle} (h : InOrder candles) :
    (candles.map DdsCandle.candleId).Nodup :=
  List.pairwise_map.mpr (h.imp Nat.ne_of_lt)

/-- What the incremental runs need of the store to find the candles that are new. -/
structure Keyed (candles : List DdsCandle) (store : IndicatorStore) : Prop where
  fresh : candles.length < 15 → store = {}
  owned : ∀ key, (store.indicators.get? key).isSome →
    ∃ candle ∈ candles, key.candleId = candle.candleId
  last : 15 ≤ candles.length → ∀ candle, candles.getLast? = some candle →
    ∃ key, (store.indicators.get? key).isSome ∧ key.candleId = candle.candleId

section Runs

variable {earlier chunk : List DdsCandle}

theorem Keyed.lastIndicatorCandleId (h : Keyed earlier store) (horder : InOrder earlier)
    (hlength : 15 ≤ earlier.length) : ∃ last, store.lastIndicatorCandleId = some last ∧
      (∀ candle ∈ earlier, candle.candleId ≤ last) ∧
        ∃ candle ∈ earlier, candle.candleId = last := by
  obtain ⟨before, last, rfl⟩ : ∃ before last, earlier = before ++ [last] := by
    refine ⟨earlier.dropLast, earlier.getLast (by rintro rfl; simp at hlength), ?_⟩
    exact (List.dropLast_append_getLast _).symm
  have hle : ∀ candle ∈ before ++ [last], candle.candleId ≤ last.candleId := by
    intro candle hmem
    rcases List.mem_append.mp hmem with hmem | hmem
    · exact (List.pairwise_append.mp horder).2.2 candle hmem last List.mem_cons_self |>.le
    · rw [List.mem_singleton.mp hmem]
  refine ⟨last.candleId, ?_, hle, last, by simp, rfl⟩
  obtain ⟨key, hkey, hid⟩ := h.last hlength last (by simp)
  rw [IndicatorStore.lastIndicatorCandleId, List.max?_eq_some_iff]
  constructor
  · rw [← hid]
    exact List.mem_map_of_mem (Dict.isSome_get?_iff.mp hkey)
  · intro id hmem
    obtain ⟨other, hother, rfl⟩ := List.mem_map.mp hmem
    obtain ⟨candle, hcandle, hcandleId⟩ := h.owned other (Dict.isSome_get?_iff.mpr hother)
    rw [hcandleId]
    exact hle candle hcandle

/-- Once there are indicators, a run calculates those of the candles that have arrived since the last
one, in a window that begins 200 candles before them. -/
theorem calculateMissing_eq (h : Keyed earlier store) (horder : InOrder (earlier ++ chunk))
    (hlength : 15 ≤ earlier.length) :
    (calculateMissing deviation (earlier ++ chunk) store).2 =
      storeFrom deviation (earlier.drop (earlier.length - 200) ++ chunk) (min earlier.length 200)
        store := by
  obtain ⟨hearlier, hchunk, hacross⟩ := List.pairwise_append.mp horder
  obtain ⟨last, hlast, hle, latest, hlatest, rfl⟩ := h.lastIndicatorCandleId hearlier hlength
  have hnew : candlesForIndicators (earlier ++ chunk) store.lastIndicatorCandleId = chunk := by
    rw [hlast, candlesForIndicators, List.filter_append, List.filter_eq_nil_iff.mpr,
      List.filter_eq_self.mpr, List.nil_append]
    · exact fun candle hmem => decide_eq_true (hacross latest hlatest candle hmem)
    · intro candle hmem
      simpa using hle candle hmem
  cases chunk with
  | nil =>
    rw [List.append_nil] at hnew ⊢
    rw [storeFrom_end (by simp; omega)]
    simp only [calculateMissing, hnew]
  | cons first rest =>
    have hwarmup : warmupCandles (earlier ++ first :: rest) first.candleId =
        earlier.drop (earlier.length - 200) := by
      have hold : (earlier ++ first :: rest).filter
          (fun candle => decide (candle.candleId < first.candleId)) = earlier := by
        rw [List.filter_append, List.filter_eq_self.mpr, List.filter_eq_nil_iff.mpr,
          List.append_nil]
        · intro candle hmem
          rcases List.mem_cons.mp hmem with rfl | hmem
          · simp
          · simpa using ((List.pairwise_cons.mp hchunk).1 candle hmem).le
        · exact fun candle hmem => decide_eq_true (hacross candle hmem first List.mem_cons_self)
      rw [warmupCandles, hold, List.reverse_take, List.reverse_reverse, List.length_reverse]
    simp only [calculateMissing, hnew, hwarmup, List.length_drop]
    rw [show earlier.length - (earlier.length - 200) = min earlier.length 200 by omega]

/-- Until there are indicators, a run calculates those of all candles. -/
theorem calculateMissing_short (h : Keyed earlier store) (horder : InOrder (earlier ++ chunk))
    (hlength : earlier.length < 15) :
    (calculateMissing deviation (earlier ++ chunk) store).2 =
      storeFrom deviation (earlier ++ chunk) 0 {} := by
  rw [h.fresh hlength]
  generalize earlier ++ chunk = candles at horder
  have hnew : candlesForIndicators candles (IndicatorStore.lastIndicatorCandleId {}) = candles := rfl
  cases candles with
  | nil => rfl
  | cons first rest =>
    have hwarmup : warmupCandles (first :: rest) first.candleId = [] := by
      rw [warmupCandles, List.filter_eq_nil_iff.mpr]
      · rfl
      · intro candle hmem
        rcases List.mem_cons.mp hmem with rfl | hmem
        · simp
        · simpa using ((List.pairwise_cons.mp horder).1 candle hmem).le
    simp only [calculateMissing, hnew, hwarmup]
    rfl

/-- The calculation of a window that ends with the last candle keeps the store keyed. -/
theorem Keyed.storeFrom {candles : List DdsCandle} (hcandles : 15 ≤ candles.length)
    (hwindow : window <:+ candles) (hlength : 15 ≤ window.length) (hstart : start < window.length)
    (hnodup : (candles.map DdsCandle.candleId).Nodup)
    (howned : ∀ key, (store.indicators.get? key).isSome →
      ∃ candle ∈ candles, key.candleId = candle.candleId) :
    Keyed candles (storeFrom deviation window start store) := by
  refine ⟨fun h => absurd h hcandles.not_gt, fun key hkey => ?_, fun _ last hlast => ?_⟩
  · by_cases hnew : ∃ candle ∈ window, key.candleId = candle.candleId
    · obtain ⟨candle, hmem, hid⟩ := hnew
      exact ⟨candle, hwindow.subset hmem, hid⟩
    · refine howned key ?_
      rwa [CryptoTrading.storeFrom, get?_storeCandles_of_ne] at hkey
      intro index _ candle hcandle he
      exact hnew ⟨candle, List.mem_of_getElem? hcandle, he⟩
  · have hget : window[window.length - 1]? = some last := by
      obtain ⟨before, rfl⟩ := hwindow
      rw [← List.getLast?_eq_getElem?]
      rwa [List.getLast?_append_of_ne_nil _ (by rintro rfl; simp at hlength)] at hlast
    obtain ⟨value, hvalue⟩ : ∃ value, calculateRsi
        ((window.map DdsCandle.closePrice).take (window.length - 1 + 1)) 14 = some value :=
      ⟨_, if_neg (by simp; omega)⟩
    have hrow : (⟨.rsi, 14, some value⟩ : IndicatorRow) ∈
        indicatorRows deviation window (window.length - 1) := by
      rw [← hvalue]
      simp [indicatorRows]
    refine ⟨⟨last.candleId, .rsi, 14⟩, ?_, rfl⟩
    rw [get?_storeFrom (hnodup.sublist (hwindow.sublist.map _)) (Nat.le_sub_one_of_lt hstart) hget
      hrow rfl]
    rfl

theorem Keyed.arrive (deviation : LogReturnDeviation) (h : Keyed earlier store)
    (horder : InOrder (earlier ++ chunk)) :
    Keyed (earlier ++ chunk) (arrive deviation (earlier, store) chunk).2 := by
  have howned : ∀ key, (store.indicators.get? key).isSome →
      ∃ candle ∈ earlier ++ chunk, key.candleId = candle.candleId := fun key hkey => by
    obtain ⟨candle, hmem, hid⟩ := h.owned key hkey
    exact ⟨candle, List.mem_append_left _ hmem, hid⟩
  rw [CryptoTrading.arrive]
  by_cases hearlier : earlier.length < 15
  · rw [calculateMissing_short h horder hearlier]
    by_cases hlength : (earlier ++ chunk).length < 15
    · rw [storeFrom_short hlength]
      exact ⟨fun _ => rfl, fun key hkey => (by cases hkey), fun hle => absurd hlength hle.not_gt⟩
    · have hlong : 15 ≤ (earlier ++ chunk).length := Nat.le_of_not_lt hlength
      exact .storeFrom hlong List.suffix_rfl hlong (by omega) horder.nodup
        fun key hkey => by cases hkey
  · have hlong : 15 ≤ earlier.length := Nat.le_of_not_lt hearlier
    rw [calculateMissing_eq h horder hlong]
    by_cases hchunk : chunk = []
    · subst hchunk
      rw [List.append_nil]
      rw [storeFrom_end (by simp; omega)]
      exact h
    · have hpos : 0 < chunk.length := List.length_pos_iff.mpr hchunk
      refine .storeFrom (by simp; omega) ?_ (by simp; omega) (by simp; omega) horder.nodup howned
      exact ⟨earlier.take (earlier.length - 200), by
        rw [← List.append_assoc, List.take_append_drop]⟩

theorem keyed_arrivals (deviation : LogReturnDeviation) {chunks : List (List DdsCandle)}
    (horder : InOrder chunks.flatten) :
    (arrivals deviation chunks).1 = chunks.flatten ∧
      Keyed chunks.flatten (arrivals deviation chunks).2 := by
  induction chunks using List.reverseRecOn with
  | nil =>
    refine ⟨rfl, fun _ => rfl, fun key hkey => (by cases hkey), fun hle => ?_⟩
    simp at hle
  | append_singleton chunks chunk ih =>
    rw [List.flatten_append, List.flatten_singleton] at horder ⊢
    obtain ⟨hcandles, hkeyed⟩ := ih (List.pairwise_append.mp horder).1
    have hnext : arrivals deviation (chunks ++ [chunk]) =
        arrive deviation (arrivals deviation chunks) chunk := by
      rw [arrivals, List.foldl_append]
      rfl
    have hstate : arrivals deviation chunks = (chunks.flatten, (arrivals deviation chunks).2) :=
      Prod.ext hcandles rfl
    rw [hnext, hstate]
    exact ⟨rfl, hkeyed.arrive deviation horder⟩

/-- A run that finds at most 200 candles before the new ones goes on with the full calculation. -/
theorem arrive_full (h : Keyed earlier (storeFrom deviation earlier 0 {}))
    (horder : InOrder (earlier ++ chunk)) (hwarm : chunk ≠ [] → earlier.length ≤ 200) :
    (arrive deviation (earlier, storeFrom deviation earlier 0 {}) chunk).2 =
      storeFrom deviation (earlier ++ chunk) 0 {} := by
  rw [arrive]
  by_cases hearlier : earlier.length < 15
  · exact calculateMissing_short h horder hearlier
  · rw [calculateMissing_eq h horder (Nat.le_of_not_lt hearlier)]
    by_cases hchunk : chunk = []
    · subst hchunk
      rw [storeFrom_end (by simp; omega), List.append_nil]
    · have hlength := hwarm hchunk
      rw [Nat.sub_eq_zero_of_le hlength, Nat.min_eq_left hlength, List.drop_zero,
        ← storeFrom_append]

/-- The runs that find at most 200 candles before the new ones store what the full calculation does. -/
theorem arrivals_full (deviation : LogReturnDeviation) {chunks : List (List DdsCandle)}
    (horder : InOrder chunks.flatten)
    (hwarm : ∀ before chunk after, chunks = before ++ chunk :: after → chunk ≠ [] →
      before.flatten.length ≤ 200) :
    arrivals deviation chunks = (chunks.flatten, storeFrom deviation chunks.flatten 0 {}) := by
  induction chunks using List.reverseRecOn with
  | nil => rfl
  | append_singleton chunks chunk ih =>
    rw [List.flatten_append, List.flatten_singleton] at horder ⊢
    have hearlier := (List.pairwise_append.mp horder).1
    have hstate := ih hearlier fun before other after hsplit =>
      hwarm before other (after ++ [chunk]) (by rw [hsplit, List.append_assoc]; rfl)
    have hkeyed := (keyed_arrivals deviation hearlier).2
    rw [hstate] at hkeyed
    rw [arrivals, List.foldl_append, ← arrivals, hstate]
    exact Prod.ext rfl (arrive_full hkeyed horder (hwarm chunks chunk [] rfl))

/-- A run leaves what is stored of the candles before the new ones. -/
theorem arrive_other (h : Keyed earlier store) (horder : InOrder (earlier ++ chunk))
    (hlength : 15 ≤ earlier.length) (hkey : ∃ candle ∈ earlier, key.candleId = candle.candleId) :
    (arrive deviation (earlier, store) chunk).2.indicators.get? key =
      store.indicators.get? key := by
  rw [arrive, calculateMissing_eq h horder hlength, storeFrom, get?_storeCandles_of_ne]
  intro index hindex candle hcandle he
  have hle : (earlier.drop (earlier.length - 200)).length ≤ index := by
    have := (List.mem_range'_1.mp hindex).1
    rw [List.length_drop]
    omega
  rw [List.getElem?_append_right hle] at hcandle
  obtain ⟨old, hold, hid⟩ := hkey
  have hlt := (List.pairwise_append.mp horder).2.2 old hold candle (List.mem_of_getElem? hcandle)
  omega

theorem arrivals_other {after : List (List DdsCandle)} (h : Keyed earlier store)
    (horder : InOrder (earlier ++ after.flatten)) (hlength : 15 ≤ earlier.length)
    (hkey : ∃ candle ∈ earlier, key.candleId = candle.candleId) :
    (after.foldl (arrive deviation) (earlier, store)).2.indicators.get? key =
      store.indicators.get? key := by
  induction after generalizing earlier store with
  | nil => rfl
  | cons chunk rest ih =>
    rw [List.flatten_cons, ← List.append_assoc] at horder
    have hchunk : InOrder (earlier ++ chunk) := (List.pairwise_append.mp horder).1
    obtain ⟨candle, hmem, hid⟩ := hkey
    rw [List.foldl_cons]
    rw [show arrive deviation (earlier, store) chunk =
      (earlier ++ chunk, (arrive deviation (earlier, store) chunk).2) from rfl]
    rw [ih (h.arrive deviation hchunk) horder (by simp; omega)
        ⟨candle, List.mem_append_left _ hmem, hid⟩,
      arrive_other h hchunk hlength ⟨candle, hmem, hid⟩]

end Runs

/-! ### A history that is never forgotten -/

theorem ema_of_ones {values : List Decimal} (h : 20 ≤ values.length) (hones : ∀ v ∈ values, v = 1) :
    smoothed (emaStep 20) 20 values = 1 := by
  refine smoothed_induction (P := (· = 1)) ?_ fun average value hvalue haverage => ?_
  · have htake : values.take 20 = List.replicate 20 1 := List.eq_replicate_iff.mpr
      ⟨by simp [h], fun v hv => hones v (List.mem_of_mem_take hv)⟩
    rw [seed, htake, List.sum_replicate]
    norm_num
  · rw [emaStep, haverage, hones value (List.mem_of_mem_drop hvalue)]
    norm_num

/-- One price above the others stays in the average for good. -/
theorem ema_of_peak {values : List Decimal} (h : 19 ≤ values.length) (hones : ∀ v ∈ values, v = 1) :
    1 < smoothed (emaStep 20) 20 (2 :: values) := by
  refine smoothed_induction (P := (1 < ·)) ?_ fun average value hvalue haverage => ?_
  · have htake : values.take 19 = List.replicate 19 1 := List.eq_replicate_iff.mpr
      ⟨by simp [h], fun v hv => hones v (List.mem_of_mem_take hv)⟩
    rw [seed, List.take_succ_cons, htake, List.sum_cons, List.sum_replicate]
    norm_num
  · have hone : value = 1 := hones value (List.mem_of_mem_drop hvalue)
    rw [emaStep, hone]
    push_cast
    linarith

/-- A candle at one price. -/
def flatDdsCandle (candleId : ℕ) (price : Decimal) (h : 0 < price) : DdsCandle :=
  { candleId, highPrice := price, lowPrice := price, closePrice := price
    low_le_close := le_rfl, close_le_high := le_rfl, close_pos := h }

theorem peak_pos : (0 : Decimal) < 2 := two_pos

theorem base_pos : (0 : Decimal) < 1 := one_pos

/-- Candles at the price 1 but for the first, which is at 2. -/
def peakedCandle : ℕ → DdsCandle
  | 0 => flatDdsCandle 0 2 peak_pos
  | id + 1 => flatDdsCandle (id + 1) 1 base_pos

def peaked (count : ℕ) : List DdsCandle := (List.range count).map peakedCandle

theorem peakedCandle_id (id : ℕ) : (peakedCandle id).candleId = id := by
  cases id <;> rfl

theorem inOrder_peaked (count : ℕ) : InOrder (peaked count) := by
  refine List.pairwise_map.mpr (List.pairwise_lt_range.imp fun {a b} hlt => ?_)
  rw [peakedCandle_id, peakedCandle_id]
  exact hlt

theorem getElem?_peaked {count : ℕ} (h : index < count) :
    (peaked count)[index]? = some (peakedCandle index) := by
  rw [peaked, List.getElem?_map, List.getElem?_range h]
  rfl

theorem peaked_succ (count : ℕ) :
    peaked (count + 1) = peakedCandle 0 :: (List.range count).map fun id => peakedCandle (id + 1) := by
  rw [peaked, List.range_succ_eq_map, List.map_cons, List.map_map]
  rfl

theorem peaked_ones {count : ℕ} (hcandle : candle ∈ (peaked count).drop 1) :
    candle.closePrice = 1 := by
  cases count with
  | zero => cases hcandle
  | succ count =>
    rw [peaked_succ, List.drop_one, List.tail_cons] at hcandle
    obtain ⟨id, -, rfl⟩ := List.mem_map.mp hcandle
    rfl

/-- The average over the whole history keeps the peak. -/
theorem peaked_full (deviation : LogReturnDeviation) {count : ℕ} (hindex : 20 ≤ index + 1) (h : index < count) :
    ∃ value, 1 < value ∧ (storeFrom deviation (peaked count) 0 {}).indicators.get?
      ⟨index, .ema, 20⟩ = some value := by
  have hstored := get?_ema deviation {} (inOrder_peaked count).nodup (Nat.zero_le index)
    (getElem?_peaked h) hindex
  rw [peakedCandle_id] at hstored
  refine ⟨_, ?_, hstored⟩
  obtain ⟨rest, rfl⟩ : ∃ rest, count = rest + 1 := ⟨count - 1, by omega⟩
  rw [peaked_succ, List.map_cons, List.take_succ_cons]
  refine ema_of_peak (by simp; omega) fun price hprice => ?_
  obtain ⟨candle, hcandle, rfl⟩ := List.mem_map.mp (List.mem_of_mem_take hprice)
  have hdrop : candle ∈ (peaked (rest + 1)).drop 1 := by
    rwa [peaked_succ, List.drop_one, List.tail_cons]
  exact peaked_ones hdrop

/-- A window that begins after the peak has an average without it. -/
theorem peaked_window {count : ℕ} (hwindow : window.Sublist ((peaked count).drop 1))
    (hstart : start ≤ index) (hcandle : window[index]? = some candle) (hindex : 20 ≤ index + 1) :
    (storeFrom deviation window start store).indicators.get? ⟨candle.candleId, .ema, 20⟩ =
      some 1 := by
  have hnodup : (window.map DdsCandle.candleId).Nodup :=
    (inOrder_peaked count).nodup.sublist ((hwindow.trans (List.drop_sublist 1 _)).map _)
  have hlength : index < window.length := (List.getElem?_eq_some_iff.mp hcandle).1
  rw [get?_ema _ _ hnodup hstart hcandle hindex, ema_of_ones (by simp; omega)]
  intro price hprice
  obtain ⟨other, hother, rfl⟩ := List.mem_map.mp (List.mem_of_mem_take hprice)
  exact peaked_ones (hwindow.subset hother)

/-- A run that finds more than 200 candles before the new ones stores another average for the first
of these than the full calculation does. -/
theorem peaked_differs (deviation : LogReturnDeviation) (before after : List (List DdsCandle))
    (first : DdsCandle) (rest : List DdsCandle) {count : ℕ}
    (hflatten : (before ++ (first :: rest) :: after).flatten = peaked count)
    (hlong : 200 < before.flatten.length) :
    (arrivals deviation (before ++ (first :: rest) :: after)).2.indicators.get?
        ⟨first.candleId, .ema, 20⟩ ≠
      (storeFrom deviation (peaked count) 0 {}).indicators.get? ⟨first.candleId, .ema, 20⟩ := by
  have hsplit : peaked count = before.flatten ++ (first :: rest) ++ after.flatten := by
    rw [← hflatten, List.flatten_append, List.flatten_cons, List.append_assoc]
  have horder : InOrder (before.flatten ++ (first :: rest) ++ after.flatten) :=
    hsplit ▸ inOrder_peaked count
  have hchunk := (List.pairwise_append.mp horder).1
  obtain ⟨hcandles, hkeyed⟩ := keyed_arrivals deviation
    (List.pairwise_append.mp hchunk).1
  have hstate : arrivals deviation before = (before.flatten, (arrivals deviation before).2) :=
    Prod.ext hcandles rfl
  have hfirst : (peaked count)[before.flatten.length]? = some first := by
    rw [hsplit, List.append_assoc, List.getElem?_append_right le_rfl, Nat.sub_self]
    rfl
  have hlt : before.flatten.length < count := by
    have := (List.getElem?_eq_some_iff.mp hfirst).1
    simpa [peaked] using this
  have hid : first.candleId = before.flatten.length := by
    rw [getElem?_peaked hlt] at hfirst
    rw [← Option.some.inj hfirst, peakedCandle_id]
  have hseeded : 20 ≤ before.flatten.length + 1 := by omega
  obtain ⟨value, hvalue, hfull⟩ := peaked_full deviation hseeded hlt
  have hwindow : (before.flatten.drop (before.flatten.length - 200) ++ first :: rest).Sublist
      ((peaked count).drop 1) := by
    rw [hsplit, List.append_assoc, List.drop_append_of_le_length (by omega)]
    refine List.Sublist.append ?_ (List.sublist_append_left _ _)
    rw [show before.flatten.length - 200 = 1 + (before.flatten.length - 201) by omega,
      ← List.drop_drop]
    exact List.drop_sublist _ _
  have hhead : (before.flatten.drop (before.flatten.length - 200) ++ first :: rest)[200]? =
      some first := by
    have hwarmup : (before.flatten.drop (before.flatten.length - 200)).length = 200 := by
      rw [List.length_drop]
      omega
    rw [List.getElem?_append_right hwarmup.le, hwarmup]
    rfl
  have hrun : (arrive deviation (before.flatten, (arrivals deviation before).2)
      (first :: rest)).2.indicators.get? ⟨first.candleId, .ema, 20⟩ = some 1 := by
    rw [arrive, calculateMissing_eq hkeyed hchunk (by omega)]
    exact peaked_window hwindow (by omega) hhead (by omega)
  have hlength : 15 ≤ (before.flatten ++ first :: rest).length := by
    rw [List.length_append]
    omega
  have hkeep : (after.foldl (arrive deviation) (before.flatten ++ first :: rest,
      (arrive deviation (before.flatten, (arrivals deviation before).2)
        (first :: rest)).2)).2.indicators.get? ⟨first.candleId, .ema, 20⟩ = some 1 :=
    (arrivals_other (hkeyed.arrive deviation hchunk) horder hlength ⟨first, by simp, rfl⟩).trans hrun
  rw [arrivals, List.foldl_append, ← arrivals, hstate, List.foldl_cons, hid, hfull, ← hid]
  intro he
  exact hvalue.ne (Option.some.inj (hkeep.symm.trans he))

/-! ### The runs of a split -/

/-- Two stores agree on the averages and on the regime of a candle. -/
def SameStored (first second : IndicatorStore) (candle : DdsCandle) : Prop :=
  (∀ name ∈ [IndicatorName.ema, .rsi, .atr], ∀ period,
    first.indicators.get? ⟨candle.candleId, name, period⟩ =
      second.indicators.get? ⟨candle.candleId, name, period⟩) ∧
  first.regimes.get? candle.candleId = second.regimes.get? candle.candleId

/-- Whatever the candles that arrive in chunks of these sizes, the incremental runs store what the full
calculation does exactly when every run with candles to process finds at most 200 before them. -/
theorem incremental_iff (deviation : LogReturnDeviation) (sizes : List ℕ) :
    (∀ chunks : List (List DdsCandle), chunks.map List.length = sizes → InOrder chunks.flatten →
      ∀ candle ∈ chunks.flatten, SameStored (arrivals deviation chunks).2
        (calculateAndStoreIndicators deviation chunks.flatten {}).2 candle) ↔
    ∀ before size after, sizes = before ++ size :: after → 0 < size → before.sum ≤ 200 := by
  constructor
  · rintro h before size after rfl hsize
    by_contra hlong
    obtain ⟨chunks, hlengths, hflatten⟩ : ∃ chunks : List (List DdsCandle),
        chunks.map List.length = before ++ size :: after ∧
          chunks.flatten = peaked (before ++ size :: after).sum := by
      refine ⟨(before ++ size :: after).splitLengths (peaked (before ++ size :: after).sum),
        List.map_splitLengths_length _ _ ?_, List.flatten_splitLengths _ _ ?_⟩ <;> simp [peaked]
    obtain ⟨earlier, later, rfl, hearlier, hlater⟩ := List.map_eq_append_iff.mp hlengths
    obtain ⟨chunk, others, rfl, hchunk, -⟩ := List.map_eq_cons_iff.mp hlater
    obtain ⟨first, rest, rfl⟩ := List.exists_cons_of_length_pos (hchunk ▸ hsize)
    have hlength : 200 < earlier.flatten.length := by
      rw [List.length_flatten, hearlier]
      exact Nat.lt_of_not_le hlong
    have horder : InOrder (earlier ++ (first :: rest) :: others).flatten :=
      hflatten ▸ inOrder_peaked _
    have hsame := (h _ hlengths horder first (by simp)).1 .ema (by simp) 20
    rw [hflatten] at hsame
    exact peaked_differs deviation _ _ _ _ hflatten hlength hsame
  · rintro hwarm chunks rfl horder candle -
    have hfull := arrivals_full deviation horder ?_
    · rw [hfull]
      exact ⟨fun _ _ _ => rfl, rfl⟩
    · rintro before chunk after rfl hchunk
      rw [List.length_flatten]
      refine hwarm (before.map List.length) chunk.length (after.map List.length) ?_
        (List.length_pos_iff.mpr hchunk)
      rw [List.map_append, List.map_cons]

/-- The candles of a peaked history arrive in two runs, of which the second finds 201 candles. -/
theorem incremental_fails : ¬∀ (deviation : LogReturnDeviation) (chunks : List (List DdsCandle)),
    InOrder chunks.flatten → ∀ candle ∈ chunks.flatten, SameStored (arrivals deviation chunks).2
      (calculateAndStoreIndicators deviation chunks.flatten {}).2 candle := by
  intro h
  have hflatten : [peaked 201, [peakedCandle 201]].flatten = peaked 202 := by
    rw [List.flatten_cons, List.flatten_singleton, peaked, peaked, List.range_succ, List.map_append]
    rfl
  have horder : InOrder [peaked 201, [peakedCandle 201]].flatten := hflatten ▸ inOrder_peaked 202
  have hmem : peakedCandle 201 ∈ [peaked 201, [peakedCandle 201]].flatten := by simp
  have hsame := (h (fun _ _ => none) _ horder _ hmem).1 .ema (by simp) 20
  rw [hflatten] at hsame
  exact peaked_differs _ [peaked 201] [] (peakedCandle 201) [] hflatten (by simp [peaked]) hsame

end CryptoTrading
