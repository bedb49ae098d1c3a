import CryptoTrading.Kit.KeyedTable
import CryptoTrading.Kit.Selection
import CryptoTrading.Models
import Mathlib.Order.WithBot

/-! The ETL of candles from RAW to DDS, for the stream of one symbol and interval: a run takes the rows
that are new since the last run, by their time of loading, and those that have closed since. -/

namespace CryptoTrading

open Kit

/-- A `timestamptz`, the infinite ones included. -/
abbrev Timestamptz := WithBot (WithTop Datetime)

/-- The order of time.  As the integers are complete, there is one that does not compute as well. -/
instance timestamptzOrder : LinearOrder Timestamptz :=
  @WithBot.linearOrder _ (@WithTop.linearOrder _ Int.instLinearOrder)

instance : Preorder Timestamptz := timestamptzOrder.toPreorder

instance : DecidableLE Timestamptz := timestamptzOrder.toDecidableLE

instance : DecidableLT Timestamptz := timestamptzOrder.toDecidableLT

instance : Preorder (WithBot Datetime) := (@WithBot.linearOrder _ Int.instLinearOrder).toPreorder

/-- A row of `raw_market.candles`.  Its `loaded_at` is the `now()` of its transaction. -/
structure RawRow where
  openTime : Timestamptz
  closeTime : Option Timestamptz
  openPrice : Decimal
  highPrice : Decimal
  lowPrice : Decimal
  closePrice : Decimal
  volume : Option Decimal := none
  quoteVolume : Option Decimal := none
  tradeCount : Option ℤ := none
  sourcePayload : Option String := none
  loadedAt : Datetime
  deriving DecidableEq

/-- A row of `dds.candle`: its constraint `chk_dds_candle_ohlcv` holds. -/
structure DdsRow where
  openTime : Timestamptz
  closeTime : Timestamptz
  openPrice : Decimal
  highPrice : Decimal
  lowPrice : Decimal
  closePrice : Decimal
  volume : Decimal
  quoteVolume : Option Decimal
  tradeCount : Option ℤ
  ohlcv : openPrice ≤ highPrice ∧ closePrice ≤ highPrice ∧ lowPrice ≤ openPrice ∧
    lowPrice ≤ closePrice ∧ lowPrice ≤ highPrice ∧ 0 ≤ volume ∧ 0 < closePrice
  deriving DecidableEq

/-- The `check_name`s of `dds.data_quality_event`. -/
inductive QualityCheck
  /-- "invalid_close_time" -/
  | invalidCloseTime
  /-- "non_positive_price" -/
  | nonPositivePrice
  /-- "invalid_ohlc" -/
  | invalidOhlc
  /-- "negative_activity" -/
  | negativeActivity
  deriving DecidableEq, Repr

/-- What a row of `dds.data_quality_event` says: its `failed_checks`, its payload, and how often it was
found. -/
structure QualityEvent where
  failedChecks : List QualityCheck
  sourcePayload : Option String
  occurrenceCount : ℕ := 1
  deriving DecidableEq

/-! ### Rows -/

namespace RawRow

variable (row : RawRow)

/-- The conditions of the checks.  A comparison with `NULL` is not true. -/
def Fails : QualityCheck → Prop
  | .invalidCloseTime => row.closeTime = none ∨ ∃ t ∈ row.closeTime, t ≤ row.openTime
  | .nonPositivePrice =>
    row.openPrice ≤ 0 ∨ row.highPrice ≤ 0 ∨ row.lowPrice ≤ 0 ∨ row.closePrice ≤ 0
  | .invalidOhlc =>
    row.highPrice < row.openPrice ∨ row.highPrice < row.closePrice ∨ row.openPrice < row.lowPrice ∨
      row.closePrice < row.lowPrice ∨ row.highPrice < row.lowPrice
  | .negativeActivity =>
    row.volume.getD 0 < 0 ∨ (∃ q ∈ row.quoteVolume, q < 0) ∨ ∃ n ∈ row.tradeCount, n < 0

instance (check : QualityCheck) : Decidable (row.Fails check) := by
  cases check <;> unfold Fails <;> infer_instance

/-- `errors`. -/
def errors : List QualityCheck :=
  [QualityCheck.invalidCloseTime, .nonPositivePrice, .invalidOhlc, .negativeActivity].filter
    fun check => decide (row.Fails check)

/-- `cardinality(errors) = 0`. -/
def Valid : Prop := row.errors = []

instance : Decidable row.Valid := inferInstanceAs (Decidable (_ = _))

/-- `close_time IS NOT NULL AND close_time <= p_as_of`. -/
def ClosedBy (asOf : Timestamptz) : Prop := Due closeTime asOf row

instance (asOf : Timestamptz) : Decidable (row.ClosedBy asOf) :=
  inferInstanceAs (Decidable (∃ t ∈ row.closeTime, t ≤ asOf))

variable {row}

theorem mem_errors_iff {check : QualityCheck} : check ∈ row.errors ↔ row.Fails check := by
  cases check <;> simp [errors]

theorem not_fails_of_valid (h : row.Valid) (check : QualityCheck) : ¬row.Fails check := by
  rw [← mem_errors_iff, h]
  exact List.not_mem_nil

theorem Valid.ohlcv (h : row.Valid) : row.openPrice ≤ row.highPrice ∧ row.closePrice ≤ row.highPrice ∧
    row.lowPrice ≤ row.openPrice ∧ row.lowPrice ≤ row.closePrice ∧ row.lowPrice ≤ row.highPrice ∧
    0 ≤ row.volume.getD 0 ∧ 0 < row.closePrice := by
  have hprice := not_fails_of_valid h .nonPositivePrice
  have hohlc := not_fails_of_valid h .invalidOhlc
  have hactivity := not_fails_of_valid h .negativeActivity
  simp only [Fails, not_or, not_lt, not_le] at hprice hohlc hactivity
  exact ⟨hohlc.1, hohlc.2.1, hohlc.2.2.1, hohlc.2.2.2.1, hohlc.2.2.2.2, hactivity.1, hprice.2.2.2⟩

/-- The row of `dds.candle` that a valid row becomes. -/
def normalize (row : RawRow) : Option DdsRow :=
  match row.closeTime with
  | none => none
  | some closeTime =>
    if h : row.Valid then
      some { openTime := row.openTime, closeTime, openPrice := row.openPrice
             highPrice := row.highPrice, lowPrice := row.lowPrice, closePrice := row.closePrice
             volume := row.volume.getD 0, quoteVolume := row.quoteVolume, tradeCount := row.tradeCount
             ohlcv := h.ohlcv }
    else none

theorem normalize_openTime {candle : DdsRow} (h : row.normalize = some candle) :
    candle.openTime = row.openTime := by
  unfold normalize at h
  split at h
  · cases h
  · split at h
    · cases h
      rfl
    · cases h

/-- The rows that become candles are the valid ones. -/
theorem exists_normalize_iff : (∃ candle, row.normalize = some candle) ↔ row.Valid := by
  unfold normalize
  split
  · rename_i hnull
    refine iff_of_false (fun ⟨_, h⟩ => by cases h) fun hvalid => ?_
    exact not_fails_of_valid hvalid .invalidCloseTime (Or.inl hnull)
  · split
    · rename_i hvalid
      exact iff_of_true ⟨_, rfl⟩ hvalid
    · rename_i hinvalid
      exact iff_of_false (fun ⟨_, h⟩ => by cases h) hinvalid

end RawRow

/-! ### The tables and the run -/

/-- The tables of the stream, and its row of `dds.etl_checkpoint`.  The rows of RAW stand under their
`open_time`. -/
structure Warehouse where
  raw : Dict Timestamptz RawRow := .empty
  keyed : ∀ openTime row, raw.get? openTime = some row → row.openTime = openTime
  candles : Dict Timestamptz DdsRow := .empty
  events : Dict (Timestamptz × QualityCheck) QualityEvent := .empty
  lastLoadedAt : WithBot Datetime := ⊥
  lastRunAt : Timestamptz := ⊥

/-- What a run returns. -/
structure EtlReport where
  sourceCount : ℕ
  insertedCount : ℕ
  rejectedCount : ℕ
  deferredCount : ℕ
  deriving DecidableEq

/-- `INSERT INTO dds.data_quality_event … ON CONFLICT … DO UPDATE`, for a check of a row. -/
def recordEvent (row : RawRow) (events : Dict (Timestamptz × QualityCheck) QualityEvent)
    (check : QualityCheck) : Dict (Timestamptz × QualityCheck) QualityEvent :=
  let occurrences := ((events.get? (row.openTime, check)).map (·.occurrenceCount)).getD 0
  events.set (row.openTime, check) ⟨row.errors, row.sourcePayload, occurrences + 1⟩

/-- The events of a row. -/
def recordEvents (events : Dict (Timestamptz × QualityCheck) QualityEvent) (row : RawRow) :
    Dict (Timestamptz × QualityCheck) QualityEvent :=
  row.errors.foldl (recordEvent row) events

namespace Warehouse

/-- The tables before the first run. -/
def blank : Warehouse where
  keyed _ _ h := by cases h

variable (w : Warehouse)

def marks : Marks (WithBot Datetime) Timestamptz := ⟨w.lastLoadedAt, w.lastRunAt⟩

/-- `INSERT INTO raw_market.candles … ON CONFLICT … DO NOTHING`, of a transaction. -/
def commit (rows : List RawRow) : Warehouse :=
  { w with
    raw := w.raw.insertAll RawRow.openTime rows
    keyed := by
      intro openTime row h
      rcases Dict.get?_insertAll_cases h with hold | ⟨-, -, hkey⟩
      · exact w.keyed openTime row hold
      · exact hkey }

/-- `v_upper_loaded_at`: the latest `loaded_at` up to the cutoff, or the checkpoint. -/
def upperLoadedAt (cutoff : Datetime) : WithBot Datetime :=
  match ((w.raw.values.map (·.loadedAt)).filter fun moment => decide (moment ≤ cutoff)).max? with
  | some latest => latest
  | none => w.lastLoadedAt

/-- A row is one of `raw_to_dds_candidates`. -/
def Selects (asOf : Timestamptz) (cutoff : Datetime) (row : RawRow) : Prop :=
  w.marks.Selects (fun row => (row.loadedAt : WithBot Datetime)) RawRow.closeTime
    (w.upperLoadedAt cutoff) asOf row

instance (asOf : Timestamptz) (cutoff : Datetime) (row : RawRow) :
    Decidable (w.Selects asOf cutoff row) :=
  inferInstanceAs (Decidable (_ ∧ (_ ∨ ∃ t ∈ row.closeTime, w.lastRunAt < t ∧ t ≤ asOf)))

/-- `raw_to_dds_candidates`. -/
def candidates (asOf : Timestamptz) (cutoff : Datetime) : List RawRow :=
  w.raw.values.filter fun row => decide (w.Selects asOf cutoff row)

/-- The candidates that have closed. -/
def closed (asOf : Timestamptz) (cutoff : Datetime) : List RawRow :=
  (w.candidates asOf cutoff).filter fun row => decide (row.ClosedBy asOf)

/-- `dds.load_raw_candles` for the stream, as of an event time.  The cutoff is `clock_timestamp()` at
its start. -/
def loadRawCandles (asOf : Timestamptz) (cutoff : Datetime) : Warehouse × Option EtlReport :=
  -- There is no stream to loop over without a row.
  if w.raw.entries = [] then (w, none)
  else
    let candidates := w.candidates asOf cutoff
    let closed := w.closed asOf cutoff
    let candles := w.candles.insertAll DdsRow.openTime (closed.filterMap RawRow.normalize)
    ({ w with
       candles
       events := closed.foldl recordEvents w.events
       lastLoadedAt := w.upperLoadedAt cutoff
       lastRunAt := asOf },
      some
        { sourceCount := closed.length
          insertedCount := candles.entries.length - w.candles.entries.length
          rejectedCount := closed.countP fun row => decide ¬row.Valid
          deferredCount := candidates.countP fun row => decide ¬row.ClosedBy asOf })

/-! ### What a run does -/

variable {w} {row : RawRow} {openTime asOf : Timestamptz} {cutoff : Datetime} {check : QualityCheck}

/-- The row is committed. -/
def Holds (w : Warehouse) (row : RawRow) : Prop := w.raw.get? row.openTime = some row

theorem mem_raw_iff : row ∈ w.raw.values ↔ w.Holds row := by
  rw [Dict.mem_values_iff]
  constructor
  · rintro ⟨openTime, h⟩
    rwa [Holds, w.keyed openTime row h]
  · intro h
    exact ⟨row.openTime, h⟩

theorem holds_iff_get? : w.raw.get? openTime = some row ↔ w.Holds row ∧ row.openTime = openTime := by
  constructor
  · intro h
    have hkey := w.keyed openTime row h
    exact ⟨by rwa [Holds, hkey], hkey⟩
  · rintro ⟨h, rfl⟩
    exact h

theorem mem_candidates_iff :
    row ∈ w.candidates asOf cutoff ↔ w.Holds row ∧ w.Selects asOf cutoff row := by
  rw [candidates, List.mem_filter, mem_raw_iff, decide_eq_true_eq]

theorem mem_closed_iff : row ∈ w.closed asOf cutoff ↔
    w.Holds row ∧ w.Selects asOf cutoff row ∧ row.ClosedBy asOf := by
  rw [closed, List.mem_filter, mem_candidates_iff, decide_eq_true_eq, and_assoc]

theorem eq_of_mem_closed {other : RawRow} (h : row ∈ w.closed asOf cutoff)
    (hother : other ∈ w.closed asOf cutoff) (htime : other.openTime = row.openTime) : other = row := by
  have hrow := (mem_closed_iff.mp h).1
  have hother := (mem_closed_iff.mp hother).1
  rw [Holds] at hrow hother
  rw [htime, hrow] at hother
  exact (Option.some.inj hother).symm

theorem loadRawCandles_of_empty (h : w.raw.entries = []) : (w.loadRawCandles asOf cutoff).1 = w := by
  rw [loadRawCandles, if_pos h]

theorem not_holds_of_empty (h : w.raw.entries = []) : ¬w.Holds row := by
  rw [← mem_raw_iff, Dict.values, h]
  exact List.not_mem_nil

theorem not_exists_of_empty (h : w.raw.entries = []) {p : RawRow → Prop} :
    ¬∃ row, w.raw.get? openTime = some row ∧ p row := by
  rintro ⟨row, hrow, -⟩
  exact not_holds_of_empty h (holds_iff_get?.mp hrow).1

@[simp] theorem loadRawCandles_raw : (w.loadRawCandles asOf cutoff).1.raw = w.raw := by
  unfold loadRawCandles
  split <;> rfl

theorem loadRawCandles_marks (h : w.raw.entries ≠ []) :
    (w.loadRawCandles asOf cutoff).1.marks = ⟨w.upperLoadedAt cutoff, asOf⟩ := by
  rw [loadRawCandles, if_neg h]
  rfl

/-- The cutoff is not before the rows that are committed. -/
def Reaches (w : Warehouse) (cutoff : Datetime) : Prop := ∀ row, w.Holds row → row.loadedAt ≤ cutoff

theorem loadedAt_le_upper (hcutoff : w.Reaches cutoff) (hrow : w.Holds row) :
    (row.loadedAt : WithBot Datetime) ≤ w.upperLoadedAt cutoff := by
  have hmem : row.loadedAt ∈
      (w.raw.values.map (·.loadedAt)).filter fun moment => decide (moment ≤ cutoff) :=
    List.mem_filter.mpr
      ⟨List.mem_map_of_mem (mem_raw_iff.mpr hrow), decide_eq_true (hcutoff row hrow)⟩
  unfold upperLoadedAt
  split
  · rename_i latest hlatest
    exact WithBot.coe_le_coe.mpr ((List.max?_eq_some_iff.mp hlatest).2 _ hmem)
  · rename_i hnone
    rw [List.max?_eq_none_iff] at hnone
    rw [hnone] at hmem
    cases hmem

/-- The candles after a run are those before it, and what the closed candidates become. -/
theorem get?_candles_loadRawCandles {candle : DdsRow}
    (hown : ∀ other row, w.candles.get? openTime = some other → w.raw.get? openTime = some row →
      row.normalize = some other) :
    (w.loadRawCandles asOf cutoff).1.candles.get? openTime = some candle ↔
      w.candles.get? openTime = some candle ∨
        ∃ row, w.raw.get? openTime = some row ∧ row.normalize = some candle ∧
          w.Selects asOf cutoff row ∧ row.ClosedBy asOf := by
  by_cases hempty : w.raw.entries = []
  · rw [loadRawCandles_of_empty hempty]
    exact (or_iff_left (not_exists_of_empty hempty)).symm
  have hcandles : (w.loadRawCandles asOf cutoff).1.candles = w.candles.insertAll DdsRow.openTime
      ((w.closed asOf cutoff).filterMap RawRow.normalize) := by
    rw [loadRawCandles, if_neg hempty]
  rw [hcandles]
  constructor
  · intro h
    rcases Dict.get?_insertAll_cases h with hold | ⟨-, hmem, hkey⟩
    · exact Or.inl hold
    · obtain ⟨row, hrow, hnormal⟩ := List.mem_filterMap.mp hmem
      obtain ⟨hholds, hselects, hclosed⟩ := mem_closed_iff.mp hrow
      rw [RawRow.normalize_openTime hnormal] at hkey
      exact Or.inr ⟨row, holds_iff_get?.mpr ⟨hholds, hkey⟩, hnormal, hselects, hclosed⟩
  · rintro (hold | ⟨row, hrow, hnormal, hselects, hclosed⟩)
    · exact Dict.get?_insertAll_of_some hold
    · cases hcandle : w.candles.get? openTime with
      | some other =>
        rw [Dict.get?_insertAll_of_some hcandle]
        exact (hown other row hcandle hrow).symm.trans hnormal
      | none =>
        obtain ⟨hholds, rfl⟩ := holds_iff_get?.mp hrow
        have hmem : row ∈ w.closed asOf cutoff := mem_closed_iff.mpr ⟨hholds, hselects, hclosed⟩
        rw [← RawRow.normalize_openTime hnormal] at hcandle ⊢
        apply Dict.get?_insertAll_of_mem hcandle (List.mem_filterMap.mpr ⟨row, hmem, hnormal⟩)
        intro other hother hkey
        obtain ⟨from_, hfrom, hothernormal⟩ := List.mem_filterMap.mp hother
        rw [RawRow.normalize_openTime hothernormal, RawRow.normalize_openTime hnormal] at hkey
        rw [eq_of_mem_closed hmem hfrom hkey] at hothernormal
        exact Option.some.inj (hothernormal.symm.trans hnormal)

end Warehouse

/-! ### Events -/

theorem isSome_recordEvents_iff {events : Dict (Timestamptz × QualityCheck) QualityEvent}
    {row : RawRow} {key : Timestamptz × QualityCheck} :
    ((recordEvents events row).get? key).isSome ↔
      (events.get? key).isSome ∨ key.1 = row.openTime ∧ key.2 ∈ row.errors := by
  have hfold : ∀ (checks : List QualityCheck) (events : Dict (Timestamptz × QualityCheck) QualityEvent),
      ((checks.foldl (recordEvent row) events).get? key).isSome ↔
        (events.get? key).isSome ∨ key.1 = row.openTime ∧ key.2 ∈ checks := by
    intro checks
    induction checks with
    | nil => simp
    | cons check rest ih =>
      intro events
      rw [List.foldl_cons, ih, recordEvent, Dict.get?_set]
      split
      · rename_i hkey
        subst hkey
        simp
      · rename_i hkey
        rw [List.mem_cons, and_or_left]
        refine or_congr_right (or_iff_right ?_).symm
        rintro ⟨htime, hcheck⟩
        exact absurd (Prod.ext htime hcheck).symm hkey
  exact hfold row.errors events

/-- The events after a run are those before it, and those of the closed candidates. -/
theorem Warehouse.isSome_events_loadRawCandles {w : Warehouse} {asOf openTime : Timestamptz}
    {cutoff : Datetime} {check : QualityCheck} :
    ((w.loadRawCandles asOf cutoff).1.events.get? (openTime, check)).isSome ↔
      (w.events.get? (openTime, check)).isSome ∨
        ∃ row, w.raw.get? openTime = some row ∧ check ∈ row.errors ∧
          w.Selects asOf cutoff row ∧ row.ClosedBy asOf := by
  by_cases hempty : w.raw.entries = []
  · rw [loadRawCandles_of_empty hempty]
    exact (or_iff_left (not_exists_of_empty hempty)).symm
  have hevents : (w.loadRawCandles asOf cutoff).1.events =
      (w.closed asOf cutoff).foldl recordEvents w.events := by
    rw [loadRawCandles, if_neg hempty]
  have hfold : ∀ (rows : List RawRow) (events : Dict (Timestamptz × QualityCheck) QualityEvent),
      ((rows.foldl recordEvents events).get? (openTime, check)).isSome ↔
        (events.get? (openTime, check)).isSome ∨
          ∃ row ∈ rows, openTime = row.openTime ∧ check ∈ row.errors := by
    intro rows
    induction rows with
    | nil => simp
    | cons row rest ih =>
      intro events
      rw [List.foldl_cons, ih, isSome_recordEvents_iff, or_assoc, List.exists_mem_cons_iff]
  rw [hevents, hfold]
  apply or_congr_right
  constructor
  · rintro ⟨row, hrow, htime, hcheck⟩
    obtain ⟨hholds, hselects, hclosed⟩ := mem_closed_iff.mp hrow
    exact ⟨row, holds_iff_get?.mpr ⟨hholds, htime.symm⟩, hcheck, hselects, hclosed⟩
  · rintro ⟨row, hrow, hcheck, hselects, hclosed⟩
    obtain ⟨hholds, htime⟩ := holds_iff_get?.mp hrow
    exact ⟨row, mem_closed_iff.mpr ⟨hholds, hselects, hclosed⟩, htime.symm, hcheck⟩

end CryptoTrading
