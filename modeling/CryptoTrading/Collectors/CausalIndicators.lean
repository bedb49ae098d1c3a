import CryptoTrading.Collectors.IncrementalIndicators
import CryptoTrading.Kit.Run

/-! Candles are numbered in the order in which they are inserted, which need not be that of their times:
the recovery of a gap inserts older candles late.  The incremental calculation takes the candles that
are new, and those that warm it up, by their numbers.  Its indicators look back only, as long as no
candle that was inserted before the earliest of the new ones opens after it. -/

namespace CryptoTrading

open Kit

/-- A valid candle of `dds.candle`, with its time. -/
structure TimedCandle extends DdsCandle where
  openTime : Datetime

/-- The candles of a symbol, in the order of their times, which are unique. -/
structure CandleTable where
  rows : List TimedCandle := []
  ordered : rows.Pairwise fun first second => first.openTime < second.openTime := by simp

namespace CandleTable

/-- `INSERT INTO dds.candle … ON CONFLICT (…, open_time) DO NOTHING`. -/
def insert (table : CandleTable) (row : TimedCandle) : CandleTable :=
  if table.rows.any fun candle => decide (candle.openTime = row.openTime) then table
  else
    { rows := (table.rows.filter fun candle => decide (candle.openTime < row.openTime)) ++
        row :: table.rows.filter fun candle => decide (row.openTime < candle.openTime)
      ordered := by
        refine List.pairwise_append.mpr ⟨table.ordered.filter _, List.pairwise_cons.mpr ⟨?_,
          table.ordered.filter _⟩, ?_⟩
        · intro later hlater
          exact of_decide_eq_true (List.mem_filter.mp hlater).2
        · intro earlier hearlier other hother
          have hbefore := of_decide_eq_true (List.mem_filter.mp hearlier).2
          rcases List.mem_cons.mp hother with rfl | hlater
          · exact hbefore
          · exact hbefore.trans (of_decide_eq_true (List.mem_filter.mp hlater).2) }

theorem subset_insert (table : CandleTable) (row : TimedCandle) :
    table.rows ⊆ (table.insert row).rows := by
  intro candle hcandle
  unfold insert
  split
  · exact hcandle
  · rename_i hnew
    rcases lt_trichotomy candle.openTime row.openTime with hlt | heq | hgt
    · exact List.mem_append_left _ (List.mem_filter.mpr ⟨hcandle, decide_eq_true hlt⟩)
    · exact absurd (List.any_eq_true.mpr ⟨candle, hcandle, decide_eq_true heq⟩) hnew
    · exact List.mem_append_right _
        (List.mem_cons_of_mem _ (List.mem_filter.mpr ⟨hcandle, decide_eq_true hgt⟩))

theorem mem_insert {table : CandleTable} {row candle : TimedCandle}
    (h : candle ∈ (table.insert row).rows) : candle = row ∨ candle ∈ table.rows := by
  unfold insert at h
  split at h
  · exact Or.inr h
  · rcases List.mem_append.mp h with hbefore | hafter
    · exact Or.inr (List.mem_of_mem_filter hbefore)
    · rcases List.mem_cons.mp hafter with rfl | hlater
      · exact Or.inl rfl
      · exact Or.inr (List.mem_of_mem_filter hlater)

/-- The rows as `calculate_missing` reads them. -/
def candles (table : CandleTable) : List DdsCandle := table.rows.map TimedCandle.toDdsCandle

end CandleTable

/-- What is stored of a symbol. -/
structure CollectorState where
  table : CandleTable := {}
  store : IndicatorStore := {}

inductive CollectorEvent
  | inserted (row : TimedCandle)
  | calculated

namespace CollectorState

variable (deviation : LogReturnDeviation) (state : CollectorState)

/-- A candle is numbered after those that are there. -/
def Admits : CollectorEvent → Prop
  | .inserted row => ∀ candle ∈ state.table.rows, candle.candleId < row.candleId
  | .calculated => True

def after : CollectorEvent → CollectorState
  | .inserted row => { state with table := state.table.insert row }
  | .calculated =>
    { state with store := (calculateMissing deviation state.table.candles state.store).2 }

/-- The candles that `calculate_missing` finds to be new. -/
def newRows : List TimedCandle :=
  match state.store.lastIndicatorCandleId with
  | none => state.table.rows
  | some afterId => state.table.rows.filter fun candle => decide (afterId < candle.candleId)

/-- No candle that was inserted before the earliest new one opens after it. -/
def WarmsUpInOrder : Prop :=
  ∀ first ∈ state.newRows.head?, ∀ candle ∈ state.table.rows,
    candle.candleId < first.candleId → candle.openTime < first.openTime

instance : Decidable state.WarmsUpInOrder := by
  unfold WarmsUpInOrder
  infer_instance

end CollectorState

/-- Candles are inserted, and missing indicators calculated. -/
def CollectorStep (deviation : LogReturnDeviation) (state : CollectorState) (event : CollectorEvent)
    (next : CollectorState) : Prop :=
  state.Admits event ∧ next = state.after deviation event

/-- A step whose calculation warms up on earlier candles. -/
def OrderedStep (deviation : LogReturnDeviation) (state : CollectorState) (event : CollectorEvent)
    (next : CollectorState) : Prop :=
  CollectorStep deviation state event next ∧ (event = .calculated → state.WarmsUpInOrder)

/-- Candles of the table up to the one of an identity, in the order of their times. -/
structure Past (rows : List TimedCandle) (candleId : ℕ) (window : List TimedCandle) : Prop where
  known : window ⊆ rows
  inOrder : window.Pairwise fun first second => first.openTime < second.openTime
  own : ∃ candle, window.getLast? = some candle ∧ candle.candleId = candleId

/-- Every value that is stored for a candle is calculated from candles up to it. -/
structure CausalStore (deviation : LogReturnDeviation) (rows : List TimedCandle)
    (store : IndicatorStore) : Prop where
  indicators : ∀ key value, store.indicators.get? key = some value →
    ∃ window, Past rows key.candleId window ∧ (⟨key.name, key.period, some value⟩ : IndicatorRow) ∈
      indicatorRows deviation (window.map TimedCandle.toDdsCandle) (window.length - 1)
  regimes : ∀ candleId regime, store.regimes.get? candleId = some regime →
    ∃ window, Past rows candleId window ∧
      regimeAt deviation (window.map TimedCandle.toDdsCandle) (window.length - 1) = some regime

section Runs

variable {deviation : LogReturnDeviation} {state next : CollectorState} {event : CollectorEvent}
  {rows more window : List TimedCandle} {store : IndicatorStore}

theorem Past.mono {candleId : ℕ} (h : Past rows candleId window) (hmore : rows ⊆ more) :
    Past more candleId window :=
  ⟨fun _ hmem => hmore (h.known hmem), h.inOrder, h.own⟩

theorem CausalStore.mono (h : CausalStore deviation rows store) (hmore : rows ⊆ more) :
    CausalStore deviation more store where
  indicators key value hvalue := by
    obtain ⟨window, hpast, hrow⟩ := h.indicators key value hvalue
    exact ⟨window, hpast.mono hmore, hrow⟩
  regimes candleId regime hregime := by
    obtain ⟨window, hpast, hrow⟩ := h.regimes candleId regime hregime
    exact ⟨window, hpast.mono hmore, hrow⟩

theorem past_take {index : ℕ} {candle : TimedCandle} (hknown : window ⊆ rows)
    (horder : window.Pairwise fun first second => first.openTime < second.openTime)
    (hcandle : window[index]? = some candle) :
    Past rows candle.candleId (window.take (index + 1)) := by
  have hindex : index < window.length := (List.getElem?_eq_some_iff.mp hcandle).1
  refine ⟨fun _ hmem => hknown (List.mem_of_mem_take hmem), horder.sublist (List.take_sublist _ _),
    candle, ?_, rfl⟩
  rw [List.getLast?_eq_getElem?, List.length_take, Nat.min_eq_left (Nat.succ_le_of_lt hindex),
    Nat.succ_sub_one, List.getElem?_take_of_lt (Nat.lt_succ_self index), hcandle]

theorem IndicatorStore.get?_storeIndicators_cases {candleId : ℕ} {indicators : List IndicatorRow}
    {key : IndicatorKey} {value : Decimal}
    (h : (indicators.foldl (IndicatorStore.storeIndicator candleId) store).indicators.get? key =
      some value) :
    store.indicators.get? key = some value ∨
      key.candleId = candleId ∧ (⟨key.name, key.period, some value⟩ : IndicatorRow) ∈ indicators := by
  induction indicators generalizing store with
  | nil => exact Or.inl h
  | cons row rest ih =>
    rcases ih h with hstored | ⟨hown, hrow⟩
    · obtain ⟨name, period, _ | stored⟩ := row
      · exact Or.inl hstored
      · simp only [storeIndicator, Dict.get?_set] at hstored
        split at hstored
        · rename_i hkey
          cases hkey
          cases hstored
          exact Or.inr ⟨rfl, List.mem_cons_self⟩
        · exact Or.inl hstored
    · exact Or.inr ⟨hown, List.mem_cons_of_mem _ hrow⟩

theorem IndicatorStore.regimes_storeIndicators (candleId : ℕ) (indicators : List IndicatorRow)
    (store : IndicatorStore) :
    (indicators.foldl (IndicatorStore.storeIndicator candleId) store).regimes = store.regimes := by
  induction indicators generalizing store with
  | nil => rfl
  | cons row rest ih =>
    rw [List.foldl_cons, ih]
    obtain ⟨name, period, _ | value⟩ := row <;> rfl

/-- A turn of the loop over a window in order stores what the past of its candle gives. -/
theorem CausalStore.storeCandle (h : CausalStore deviation rows store) (hknown : window ⊆ rows)
    (horder : window.Pairwise fun first second => first.openTime < second.openTime) (index : ℕ) :
    CausalStore deviation rows
      (storeCandle deviation (window.map TimedCandle.toDdsCandle) store index) := by
  unfold CryptoTrading.storeCandle
  rw [List.getElem?_map]
  cases hcandle : window[index]? with
  | none => exact h
  | some candle =>
    have hindex : index < window.length := (List.getElem?_eq_some_iff.mp hcandle).1
    have hpast := past_take hknown horder hcandle
    have hlength : (window.take (index + 1)).length - 1 = index := by
      rw [List.length_take, Nat.min_eq_left (Nat.succ_le_of_lt hindex), Nat.succ_sub_one]
    have htake : (window.map TimedCandle.toDdsCandle).take (index + 1) =
        ((window.take (index + 1)).map TimedCandle.toDdsCandle).take (index + 1) := by
      rw [List.map_take, List.take_take, Nat.min_self]
    have hrows : indicatorRows deviation (window.map TimedCandle.toDdsCandle) index =
        indicatorRows deviation ((window.take (index + 1)).map TimedCandle.toDdsCandle) index :=
      indicatorRows_congr (by simpa using hindex) (by simp; omega) htake
    have hregime : regimeAt deviation (window.map TimedCandle.toDdsCandle) index =
        regimeAt deviation ((window.take (index + 1)).map TimedCandle.toDdsCandle) index :=
      regimeAt_congr htake
    have hstored : CausalStore deviation rows ((indicatorRows deviation
        (window.map TimedCandle.toDdsCandle) index).foldl
          (.storeIndicator candle.candleId) store) := by
      constructor
      · intro key value hvalue
        rcases IndicatorStore.get?_storeIndicators_cases hvalue with hold | ⟨hown, hrow⟩
        · exact h.indicators key value hold
        · exact ⟨_, hown ▸ hpast, by rwa [hlength, ← hrows]⟩
      · rw [IndicatorStore.regimes_storeIndicators]
        exact h.regimes
    dsimp only [Option.map_some]
    cases hvalue : regimeAt deviation (window.map TimedCandle.toDdsCandle) index with
    | none => exact hstored
    | some regime =>
      refine ⟨hstored.indicators, fun candleId found hfound => ?_⟩
      simp only [IndicatorStore.storeRegime, Dict.get?_set] at hfound
      split at hfound
      · rename_i hown
        cases hfound
        exact ⟨_, hown ▸ hpast, by rw [hlength, ← hregime, hvalue]⟩
      · exact hstored.regimes candleId found hfound

theorem CausalStore.storeFrom (h : CausalStore deviation rows store) (hknown : window ⊆ rows)
    (horder : window.Pairwise fun first second => first.openTime < second.openTime) (start : ℕ) :
    CausalStore deviation rows
      (storeFrom deviation (window.map TimedCandle.toDdsCandle) start store) := by
  unfold CryptoTrading.storeFrom
  generalize List.range' start _ = indexes
  induction indexes generalizing store with
  | nil => exact h
  | cons index rest ih => exact ih (h.storeCandle hknown horder index)

theorem candlesForIndicators_eq (state : CollectorState) :
    candlesForIndicators state.table.candles state.store.lastIndicatorCandleId =
      state.newRows.map TimedCandle.toDdsCandle := by
  unfold candlesForIndicators CollectorState.newRows CandleTable.candles
  cases state.store.lastIndicatorCandleId with
  | none => rfl
  | some afterId =>
    dsimp only
    rw [List.filter_map]
    rfl

/-- The window that `calculate_missing` loads. -/
theorem calculateMissing_window (deviation : LogReturnDeviation) (state : CollectorState)
    {first : TimedCandle} {rest : List TimedCandle} (hnew : state.newRows = first :: rest) :
    ∃ warmup, List.Sublist warmup
        (state.table.rows.filter fun candle => decide (candle.candleId < first.candleId)) ∧
      (calculateMissing deviation state.table.candles state.store).2 =
        storeFrom deviation ((warmup ++ state.newRows).map TimedCandle.toDdsCandle) warmup.length
          state.store := by
  have hwarmup : warmupCandles state.table.candles first.candleId =
      (((state.table.rows.filter fun candle =>
        decide (candle.candleId < first.candleId)).reverse.take 200).reverse).map
          TimedCandle.toDdsCandle := by
    unfold warmupCandles CandleTable.candles
    rw [List.filter_map, List.map_reverse, List.map_take, List.map_reverse]
    rfl
  generalize hrows : state.table.rows.filter (fun candle =>
    decide (candle.candleId < first.candleId)) = earlier at hwarmup ⊢
  refine ⟨(earlier.reverse.take 200).reverse, ?_, ?_⟩
  · have hsublist := (List.take_sublist 200 earlier.reverse).reverse
    rwa [List.reverse_reverse] at hsublist
  · unfold calculateMissing
    rw [candlesForIndicators_eq, hnew, List.map_cons]
    dsimp only
    rw [hwarmup, List.length_map, ← List.map_cons, ← List.map_append]

/-- A calculation that warms up in order keeps the store causal. -/
theorem CausalStore.calculateMissing (h : CausalStore deviation state.table.rows state.store)
    (horder : state.WarmsUpInOrder) : CausalStore deviation state.table.rows
      (calculateMissing deviation state.table.candles state.store).2 := by
  have hsublist : List.Sublist state.newRows state.table.rows := by
    unfold CollectorState.newRows
    split
    · exact List.Sublist.refl _
    · exact List.filter_sublist
  cases hnew : state.newRows with
  | nil =>
    have hcandles : candlesForIndicators state.table.candles state.store.lastIndicatorCandleId = [] := by
      rw [candlesForIndicators_eq, hnew]
      rfl
    rw [CryptoTrading.calculateMissing, hcandles]
    exact h
  | cons first rest =>
    obtain ⟨warmup, hwarmup, hstore⟩ := calculateMissing_window deviation state hnew
    have hnewOrder := state.table.ordered.sublist hsublist
    rw [hstore]
    refine h.storeFrom (List.append_subset.mpr ⟨fun candle hcandle => ?_, hsublist.subset⟩)
      (List.pairwise_append.mpr ⟨?_, hnewOrder, ?_⟩) _
    · exact List.filter_sublist.subset (hwarmup.subset hcandle)
    · exact state.table.ordered.sublist (hwarmup.trans List.filter_sublist)
    · intro earlier hearlier later hlater
      obtain ⟨hmem, hid⟩ := List.mem_filter.mp (hwarmup.subset hearlier)
      have hfirst : earlier.openTime < first.openTime :=
        horder first (by rw [hnew]; rfl) earlier hmem (of_decide_eq_true hid)
      rw [hnew] at hlater hnewOrder
      rcases List.mem_cons.mp hlater with rfl | hrest
      · exact hfirst
      · exact hfirst.trans ((List.pairwise_cons.mp hnewOrder).1 later hrest)

theorem CausalStore.step (h : CausalStore deviation state.table.rows state.store)
    (hstep : OrderedStep deviation state event next) :
    CausalStore deviation next.table.rows next.store := by
  obtain ⟨⟨-, rfl⟩, horder⟩ := hstep
  cases event with
  | inserted row => exact h.mono (state.table.subset_insert row)
  | calculated => exact h.calculateMissing (horder rfl)

end Runs

/-- Stored indicators look back only, in every run whose calculations warm up on earlier candles. -/
theorem stored_causal {deviation : LogReturnDeviation} {events : List CollectorEvent}
    {state : CollectorState} (h : Run (OrderedStep deviation) {} events state) :
    CausalStore deviation state.table.rows state.store := by
  refine Run.invariant (P := fun _ state => CausalStore deviation state.table.rows state.store) h
    ⟨fun key value hvalue => (by cases hvalue), fun candleId regime hregime => (by cases hregime)⟩ ?_
  exact fun _ state event next hstate hstep => hstate.step hstep

/-! ### A gap that is recovered late -/

/-- Candles that are numbered in their order can be inserted one after the other. -/
theorem run_inserted (deviation : LogReturnDeviation) {rows : List TimedCandle} {state : CollectorState}
    (hrows : rows.Pairwise fun first second => first.candleId < second.candleId)
    (hstate : ∀ candle ∈ state.table.rows, ∀ row ∈ rows, candle.candleId < row.candleId) :
    Run (OrderedStep deviation) state (rows.map .inserted)
      { state with table := rows.foldl .insert state.table } := by
  induction rows generalizing state with
  | nil => exact .nil state
  | cons row rest ih =>
    obtain ⟨hrow, hrest⟩ := List.pairwise_cons.mp hrows
    refine .cons ⟨⟨fun candle hcandle => hstate candle hcandle row List.mem_cons_self, rfl⟩,
      fun hevent => (by cases hevent)⟩ (ih hrest fun candle hcandle later hlater => ?_)
    rcases CandleTable.mem_insert hcandle with rfl | hold
    · exact hrow later hlater
    · exact hstate candle hold later (List.mem_cons_of_mem _ hlater)

/-- A candle whose prices are all 1. -/
def unitCandle (candleId : ℕ) (openTime : Datetime) : TimedCandle where
  candleId := candleId
  highPrice := 1
  lowPrice := 1
  closePrice := 1
  low_le_close := le_rfl
  close_le_high := le_rfl
  close_pos := one_pos
  openTime := openTime

/-- Fifteen hours of candles. -/
def fifteenCandles : List TimedCandle :=
  (List.range 15).map fun (index : ℕ) => unitCandle (index + 1) ((index + 1) * hour)

/-- What is stored after the indicators of the fifteen candles are calculated. -/
def fifteenStored : CollectorState :=
  ({ table := fifteenCandles.foldl .insert {} } : CollectorState).after (fun _ _ => none) .calculated

theorem run_fifteenCandles : Run (OrderedStep fun _ _ => none) {}
    (fifteenCandles.map .inserted ++ [.calculated]) fifteenStored :=
  (run_inserted (fun _ _ => none) (by decide) fun candle hcandle => (by cases hcandle)).snoc
    ⟨⟨trivial, rfl⟩, fun _ => by decide +kernel⟩

theorem stored_causal_fifteen : fifteenStored.store.indicators.get? ⟨15, .rsi, 14⟩ = some 50 ∧
    CausalStore (fun _ _ => none) fifteenStored.table.rows fifteenStored.store :=
  ⟨by decide +kernel, stored_causal run_fifteenCandles⟩

/-- The past of the earliest candle is that candle. -/
theorem Past.length_of_first {rows window : List TimedCandle} {candleId : ℕ} {time : Datetime}
    (h : Past rows candleId window) (hfirst : ∀ candle ∈ rows, time ≤ candle.openTime ∧
      (candle.candleId = candleId → candle.openTime = time)) : window.length = 1 := by
  obtain ⟨last, hlast, hid⟩ := h.own
  obtain ⟨before, rfl⟩ := List.getLast?_eq_some_iff.mp hlast
  have htime : last.openTime = time := (hfirst last (h.known (by simp))).2 hid
  cases before with
  | nil => rfl
  | cons candle rest =>
    have hbefore : candle.openTime < last.openTime :=
      (List.pairwise_cons.mp h.inOrder).1 last (by simp)
    exact absurd (hbefore.trans_eq htime) (not_lt.mpr (hfirst candle (h.known List.mem_cons_self)).1)

/-- One candle has no indicators. -/
theorem value_of_length_one {deviation : LogReturnDeviation} {window : List DdsCandle}
    {row : IndicatorRow} (h : window.length = 1) (hrow : row ∈ indicatorRows deviation window 0) :
    row.value = none := by
  obtain ⟨candle, rfl⟩ := List.length_eq_one_iff.mp h
  have hrows : indicatorRows deviation [candle] 0 = [⟨.ema, 20, none⟩, ⟨.ema, 50, none⟩,
      ⟨.ema, 200, none⟩, ⟨.rsi, 14, none⟩, ⟨.atr, 14, none⟩, ⟨.volatility, 20, none⟩] := by
    simp [indicatorRows, calculateEmaSeries, smoothedSeries, calculateRsi, calculateAtr,
      calculateHistoricalVolatility]
  rw [hrows] at hrow
  simp only [List.mem_cons, List.not_mem_nil, or_false] at hrow
  rcases hrow with rfl | rfl | rfl | rfl | rfl | rfl <;> rfl

/-- The candle before the fifteen comes late, and its strength is calculated from those after it. -/
theorem late_candle_looks_ahead : ¬∀ (deviation : LogReturnDeviation) (events : List CollectorEvent)
    (state : CollectorState), Run (CollectorStep deviation) {} events state →
      CausalStore deviation state.table.rows state.store := by
  intro h
  have hinserted : CollectorStep (fun _ _ => none) fifteenStored (.inserted (unitCandle 16 0)) _ :=
    ⟨show ∀ candle ∈ fifteenStored.table.rows, candle.candleId < 16 by decide +kernel, rfl⟩
  have hcalculated : CollectorStep (fun _ _ => none) (fifteenStored.after (fun _ _ => none)
    (.inserted (unitCandle 16 0))) .calculated _ := ⟨trivial, rfl⟩
  have hlate := ((run_fifteenCandles.imp fun _ _ _ _ hstep => hstep.1).snoc hinserted).snoc hcalculated
  obtain ⟨window, hpast, hrow⟩ := (h _ _ _ hlate).indicators ⟨16, .rsi, 14⟩ 50 (by decide +kernel)
  have hfirst : ∀ candle ∈ (fifteenStored.after (fun _ _ => none)
      (.inserted (unitCandle 16 0))).table.rows,
      0 ≤ candle.openTime ∧ (candle.candleId = 16 → candle.openTime = 0) := by decide +kernel
  have hlength : window.length = 1 := hpast.length_of_first hfirst
  rw [hlength] at hrow
  cases value_of_length_one (by rw [List.length_map, hlength]) hrow

end CryptoTrading
