import CryptoTrading.Collectors.HistoricalLoading
import Mathlib.Logic.Relation

/-! Where loading resumes: after the latest checkpoint of the journal.  The update of the holdout dataset
and the loader of histories both start there, so that a boundary before the checkpoint is never asked for
again, whether a batch covered it or not. -/

namespace CryptoTrading

open Kit

/-! ### The exchange of the loaders -/

/-- A row of a response to `/v5/market/kline`. -/
structure KlineRow where
  openTime : Datetime
  open_ : Decimal
  high : Decimal
  low : Decimal
  close : Decimal
  volume : Decimal
  turnover : Option Decimal := none
  deriving DecidableEq

/-- The `Candle` that `BybitClient.get_candles` makes of a row. -/
def KlineRow.candle (row : KlineRow) (request : CandleRequest) (duration : ℤ) : ExchangeCandle :=
  { exchangeName := "bybit", symbol := request.symbol, intervalCode := request.interval
    openTime := row.openTime, closeTime := some (row.openTime + duration), openPrice := row.open_
    highPrice := row.high, lowPrice := row.low, closePrice := row.close, volume := row.volume
    quoteVolume := row.turnover }

/-- What a `BybitClient` gets for its requests, and what the transactions raise. -/
structure BybitKlines where
  rows : ℕ → CandleRequest → Except String (List KlineRow)
  failure : ℕ → Option String := fun _ => none

/-- `BybitClient.get_candles`. -/
def BybitKlines.getCandles (klines : BybitKlines) (n : ℕ) (request : CandleRequest) :
    Except String (List ExchangeCandle) :=
  match intervalDuration request.interval with
  | .error _ => .error ("Unsupported candle interval: " ++ request.interval)
  | .ok duration => (klines.rows n request).map fun rows =>
      (rows.map fun row => row.candle request duration).insertionSort fun a b => a.openTime ≤ b.openTime

def BybitKlines.environment (klines : BybitKlines) : LoadEnvironment :=
  { getCandles := klines.getCandles, failure := klines.failure }

/-! ### The loaders -/

/-- `get_last_checkpoint`. -/
def RawStore.lastCheckpoint (store : RawStore) (symbol interval : String) : Option Datetime :=
  ((store.journal.filter fun row => decide (row.symbol = symbol) && decide (row.interval = interval)).map
    (·.endTime)).max?

/-- What the loaders raise. -/
inductive ResumeError
  /-- "unsupported holdout interval: {interval}" -/
  | holdoutInterval (interval : String)
  | load (error : LoadError)
  deriving DecidableEq

/-- What the collection reads of a `HoldoutDefinition`. -/
structure HoldoutDefinition where
  symbols : List String
  interval : String
  periodStart : Datetime
  periodEnd : Datetime

/-- `DERIVED_WARMUP_BARS`. -/
def derivedWarmupBars : ℤ := 208

namespace HoldoutDefinition

variable (definition : HoldoutDefinition)

/-- `completed_interval_end`. -/
def completedIntervalEnd (now : Datetime) : Except ResumeError Datetime :=
  let current := min now definition.periodEnd
  if definition.interval ≠ "1h" then .error (.holdoutInterval definition.interval)
  else
    let floored := current / hour * hour
    .ok (max definition.periodStart floored)

/-- The boundary from which the indicators of the period are warmed up. -/
def warmupStart (duration : ℤ) : Datetime := definition.periodStart - duration * derivedWarmupBars

/-- `next_collection_start`. -/
def nextCollectionStart (checkpoint : Option Datetime) : Except LoadError Datetime := do
  let duration ← intervalDuration definition.interval
  match checkpoint with
  | none => return definition.warmupStart duration
  | some checkpoint => return max (definition.warmupStart duration) (checkpoint + duration)

/-- The call that collects a symbol from there. -/
def collection (symbol : String) (start closedEnd : Datetime) : HistoryLoad :=
  { symbol, interval := definition.interval, startDate := start, endDate := closedEnd }

/-- The turn of `collect_closed_raw` for a symbol. -/
def collectSymbol (klines : BybitKlines) (asOf : Datetime) (symbol : String) (fuel : ℕ) (store : RawStore) :
    Option (Except ResumeError ℕ × RawStore) :=
  match definition.completedIntervalEnd asOf with
  | .error error => some (.error error, store)
  | .ok closedEnd =>
    match definition.nextCollectionStart (store.lastCheckpoint symbol definition.interval) with
    | .error error => some (.error (.load error), store)
    | .ok start =>
      if closedEnd ≤ start then some (.ok 0, store)
      else ((definition.collection symbol start closedEnd).load klines.environment fuel store).map
        fun outcome => (outcome.1.mapError .load, outcome.2.store)

end HoldoutDefinition

/-- Where `load_history --resume` starts a stream. -/
def resumePoint (store : RawStore) (symbol interval : String) (startDate : Datetime) (duration : ℤ) :
    Datetime :=
  match store.lastCheckpoint symbol interval with
  | some checkpoint => checkpoint + duration
  | none => alignToInterval startDate duration

/-- The call that resumes a stream. -/
def resumedLoad (store : RawStore) (symbol interval : String) (startDate endDate : Datetime)
    (duration : ℤ) : HistoryLoad :=
  { symbol, interval, startDate := resumePoint store symbol interval startDate duration, endDate }

/-- The turn of `load_history --resume` for a symbol and an interval. -/
def resumeStream (klines : BybitKlines) (symbol interval : String) (startDate endDate : Datetime)
    (fuel : ℕ) (store : RawStore) : Option (Except ResumeError ℕ × RawStore) :=
  match intervalDuration interval with
  | .error error => some (.error (.load error), store)
  | .ok duration =>
    ((resumedLoad store symbol interval startDate endDate duration).load klines.environment fuel
      store).map fun outcome => (outcome.1.mapError .load, outcome.2.store)

/-! ### What the journal says about the table -/

namespace RawStore

variable (store : RawStore) (symbol interval : String) (t : Datetime)

/-- The candle that opens then is stored. -/
def Has : Prop := (store.candles.get? ⟨"bybit", symbol, interval, t⟩).isSome

/-- A batch of the journal reaches over that time. -/
def Covers : Prop :=
  ∃ row ∈ store.journal, row.symbol = symbol ∧ row.interval = interval ∧
    row.startTime ≤ t ∧ t ≤ row.endTime

instance : Decidable (store.Has symbol interval t) := inferInstanceAs (Decidable (_ = true))

instance : Decidable (store.Covers symbol interval t) :=
  inferInstanceAs (Decidable (∃ row ∈ store.journal, _))

/-- The transaction of one batch of a call, which may be one of several calls at a time. -/
inductive StoresBatch (store : RawStore) : RawStore → Prop
  | batch (call : HistoryLoad) (klines : BybitKlines) {duration : ℤ} {n : ℕ} {start : Datetime}
      {candles : List ExchangeCandle} (hinterval : intervalDuration call.interval = .ok duration)
      (hstart : duration ∣ start)
      (hfetch : call.fetch klines.environment duration n start = .ok candles) :
      StoresBatch store
        (store.save call.symbol call.interval start (HistoryLoad.maxOpenTime start candles) candles)

/-- What batches leave, of any calls and in any order. -/
def Journaled : Prop := Relation.ReflTransGen StoresBatch {} store

variable {store} {symbol interval t} {duration : ℤ} {next : RawStore}

/-- What the journal says about the table: a boundary is stored if and only if a batch reaches over it. -/
structure Consistent (store : RawStore) : Prop where
  stored : ∀ {symbol interval duration}, intervalDuration interval = .ok duration → ∀ t,
    store.Has symbol interval t ↔ duration ∣ t ∧ store.Covers symbol interval t
  ends : ∀ row ∈ store.journal, ∀ duration, intervalDuration row.interval = .ok duration →
    duration ∣ row.endTime

end RawStore

/-- The candles of a client carry the names of the request. -/
def ExchangeCandle.Names (symbol interval : String) (candle : ExchangeCandle) : Prop :=
  candle.exchangeName = "bybit" ∧ candle.symbol = symbol ∧ candle.intervalCode = interval

theorem ExchangeCandle.Names.key_eq_iff {symbol interval symbol' interval' : String} {t : Datetime}
    {candle : ExchangeCandle} (h : candle.Names symbol interval) :
    candle.key = ⟨"bybit", symbol', interval', t⟩ ↔
      symbol = symbol' ∧ interval = interval' ∧ candle.openTime = t := by
  obtain ⟨hexchange, rfl, rfl⟩ := h
  rw [ExchangeCandle.key, CandleKey.mk.injEq, hexchange]
  exact ⟨fun h => h.2, fun h => ⟨rfl, h⟩⟩

namespace HistoryLoad

variable {call : HistoryLoad} {klines : BybitKlines} {duration : ℤ} {start t : Datetime} {n : ℕ}
  {candles : List ExchangeCandle} {symbol interval : String} {store : RawStore}

theorem fetch_names (h : call.fetch klines.environment duration n start = .ok candles) :
    ∀ candle ∈ candles, candle.Names call.symbol call.interval := by
  obtain ⟨answer, hanswer, haccept, -⟩ := fetch_ok_iff.mp h
  have hgiven : ∀ candle ∈ answer, candle.Names call.symbol call.interval := by
    have hget : klines.getCandles n (call.request duration start) = .ok answer := hanswer
    unfold BybitKlines.getCandles at hget
    split at hget
    · cases hget
    · obtain ⟨rows, -, rfl⟩ := map_eq_ok_iff.mp hget
      intro candle hcandle
      rw [List.mem_insertionSort] at hcandle
      obtain ⟨row, -, rfl⟩ := List.mem_map.mp hcandle
      exact ⟨rfl, rfl, rfl⟩
  intro candle hcandle
  exact hgiven candle (mem_of_accept haccept hcandle)

/-- A batch stores the boundaries that its row of the journal reaches over. -/
theorem has_save_iff (hduration : 0 < duration) (hstart : duration ∣ start)
    (h : call.fetch klines.environment duration n start = .ok candles) :
    (store.save call.symbol call.interval start (maxOpenTime start candles) candles).Has symbol interval
        t ↔
      store.Has symbol interval t ∨ call.symbol = symbol ∧ call.interval = interval ∧ duration ∣ t ∧
        start ≤ t ∧ t ≤ maxOpenTime start candles := by
  have hpage := fetch_ok h
  have hnames := fetch_names h
  have hnext := hpage.next hduration
  have htable : (store.save call.symbol call.interval start (maxOpenTime start candles) candles).candles =
      store.candles.insertAll ExchangeCandle.key candles := storeCandles_fst _ _
  unfold RawStore.Has
  rw [htable, Dict.isSome_get?_insertAll_iff]
  apply or_congr_right
  constructor
  · rintro ⟨candle, hcandle, hkey⟩
    obtain ⟨hsymbol, hinterval, rfl⟩ := (hnames candle hcandle).key_eq_iff.mp hkey
    have hmem : candle.openTime ∈ progression start duration candles.length := by
      rw [← hpage.times]
      exact List.mem_map_of_mem hcandle
    obtain ⟨k, hk, htime⟩ := mem_progression_iff.mp hmem
    obtain ⟨hdvd, hle⟩ := (exists_eq_add_mul_iff hduration hstart).mp ⟨k, htime⟩
    refine ⟨hsymbol, hinterval, hdvd, hle, ?_⟩
    have hlast : (k : ℤ) * duration + duration ≤ candles.length * duration := by
      have hsucc : (k : ℤ) + 1 ≤ candles.length := by exact_mod_cast hk
      linarith [mul_le_mul_of_nonneg_right hsucc hduration.le]
    linarith
  · rintro ⟨hsymbol, hinterval, hdvd, hle, hlast⟩
    obtain ⟨k, hk⟩ := (exists_eq_add_mul_iff hduration hstart).mpr ⟨hdvd, hle⟩
    have hcount : k < candles.length := by
      by_contra hge
      have hmul : (candles.length : ℤ) * duration ≤ k * duration :=
        mul_le_mul_of_nonneg_right (by exact_mod_cast not_lt.mp hge) hduration.le
      linarith
    have hmem : t ∈ candles.map (·.openTime) := by
      rw [hpage.times]
      exact mem_progression_iff.mpr ⟨k, hcount, hk⟩
    obtain ⟨candle, hcandle, rfl⟩ := List.mem_map.mp hmem
    exact ⟨candle, hcandle, (hnames candle hcandle).key_eq_iff.mpr ⟨hsymbol, hinterval, rfl⟩⟩

end HistoryLoad

namespace RawStore

variable {store next : RawStore} {symbol interval : String} {t : Datetime} {duration : ℤ}

theorem covers_save_iff {symbol' interval' : String} {start stop : Datetime}
    {candles : List ExchangeCandle} :
    (store.save symbol' interval' start stop candles).Covers symbol interval t ↔
      store.Covers symbol interval t ∨
        symbol' = symbol ∧ interval' = interval ∧ start ≤ t ∧ t ≤ stop := by
  simp only [Covers, save, List.mem_append, List.mem_singleton, or_and_right, exists_or,
    exists_eq_left]

theorem Consistent.batch (h : store.Consistent) (hbatch : StoresBatch store next) : next.Consistent := by
  obtain ⟨call, klines, hinterval, hstart, hfetch⟩ := hbatch
  rename_i duration n start candles
  obtain ⟨hduration, -⟩ := intervalDuration_spec hinterval
  constructor
  · intro symbol interval duration' hinterval' t
    rw [HistoryLoad.has_save_iff hduration hstart hfetch, covers_save_iff, h.stored hinterval' t, and_or_left]
    apply or_congr_right
    constructor
    · rintro ⟨hsymbol, rfl, hdvd, hle, hlast⟩
      cases hinterval.symm.trans hinterval'
      exact ⟨hdvd, hsymbol, rfl, hle, hlast⟩
    · rintro ⟨hdvd, hsymbol, rfl, hle, hlast⟩
      cases hinterval.symm.trans hinterval'
      exact ⟨hsymbol, rfl, hdvd, hle, hlast⟩
  · intro row hrow duration' hinterval'
    rcases List.mem_append.mp hrow with hold | hnew
    · exact h.ends row hold duration' hinterval'
    · cases List.mem_singleton.mp hnew
      cases hinterval.symm.trans hinterval'
      have hnext := (HistoryLoad.fetch_ok hfetch).next hduration
      have hlast : HistoryLoad.maxOpenTime start candles =
          start + candles.length * duration - duration := by linarith
      show duration ∣ HistoryLoad.maxOpenTime start candles
      rw [hlast]
      exact Int.dvd_sub (Int.dvd_add hstart (Dvd.intro_left _ rfl)) (Int.dvd_refl _)

theorem Journaled.consistent (h : store.Journaled) : store.Consistent := by
  induction h with
  | refl =>
    constructor
    · intro symbol interval duration _ t
      constructor
      · intro hhas
        cases hhas
      · rintro ⟨-, row, hrow, -⟩
        cases hrow
    · intro row hrow
      cases hrow
  | tail _ hbatch ih => exact ih.batch hbatch

end RawStore

/-! ### What a call adds -/

namespace HistoryLoad

variable {call : HistoryLoad} {klines : BybitKlines} {duration : ℤ} {symbol interval : String}
  {store : RawStore} {first t : Datetime} {fuel total : ℕ} {final : Collection}

/-- Up to where a call is, it has added the boundaries of its range. -/
structure Adds (call : HistoryLoad) (duration : ℤ) (first : Datetime) (store : RawStore)
    (at_ : Datetime × Collection) : Prop where
  aligned : duration ∣ at_.1
  later : first ≤ at_.1
  has : ∀ symbol interval t, at_.2.store.Has symbol interval t ↔ store.Has symbol interval t ∨
    call.symbol = symbol ∧ call.interval = interval ∧ duration ∣ t ∧ first ≤ t ∧ t < at_.1

theorem Adds.step {before after : Datetime × Collection} {candles : List ExchangeCandle}
    (hduration : 0 < duration) (h : Adds call duration first store before)
    (hstep : call.PageStep klines.environment duration before candles after) :
    Adds call duration first store after := by
  obtain ⟨-, hfetch, rfl⟩ := hstep
  have hnext := (fetch_ok hfetch).next hduration
  have hlength : 0 ≤ (candles.length : ℤ) * duration :=
    mul_nonneg (Int.natCast_nonneg _) hduration.le
  have hlater : first ≤ before.1 + candles.length * duration := by linarith [h.later]
  refine ⟨Int.dvd_add h.aligned (Dvd.intro_left _ rfl), hlater, ?_⟩
  intro symbol interval t
  show (RawStore.save _ _ _ _ _ _).Has symbol interval t ↔ _
  rw [has_save_iff hduration h.aligned hfetch]
  show before.2.store.Has symbol interval t ∨ _ ↔ _
  rw [h.has, or_assoc]
  apply or_congr_right
  constructor
  · rintro (⟨hsymbol, hinterval, hdvd, hfirst, hlt⟩ | ⟨hsymbol, hinterval, hdvd, hfirst, hlast⟩)
    · exact ⟨hsymbol, hinterval, hdvd, hfirst, by linarith⟩
    · exact ⟨hsymbol, hinterval, hdvd, h.later.trans hfirst, by linarith⟩
  · rintro ⟨hsymbol, hinterval, hdvd, hfirst, hlt⟩
    rcases lt_or_ge t before.1 with hbefore | hfrom
    · exact Or.inl ⟨hsymbol, hinterval, hdvd, hfirst, hbefore⟩
    · refine Or.inr ⟨hsymbol, hinterval, hdvd, hfrom, ?_⟩
      -- Both are boundaries, so that the last one before the next page is a duration before it.
      have hgap : duration ≤ before.1 + candles.length * duration - t :=
        Int.le_of_dvd (by linarith)
          (Int.dvd_sub (Int.dvd_add h.aligned (Dvd.intro_left _ rfl)) hdvd)
      linarith

/-- A call that returns added the boundaries of its range, from the aligned start on. -/
theorem has_of_load (hinterval : intervalDuration call.interval = .ok duration)
    (h : call.load klines.environment fuel store = some (.ok total, final)) (ht : t < call.endDate) :
    final.store.Has symbol interval t ↔ store.Has symbol interval t ∨ call.symbol = symbol ∧
      call.interval = interval ∧ duration ∣ t ∧ alignToInterval call.startDate duration ≤ t := by
  obtain ⟨hduration, hwhole⟩ := intervalDuration_spec hinterval
  unfold load at h
  split at h
  · cases h
  simp only [hinterval] at h
  obtain ⟨pages, last, hrun, hends⟩ := run_of_loadFrom hduration h
  have hstart : Adds call duration (alignToInterval call.startDate duration) store
      (alignToInterval call.startDate duration, { store }) := by
    refine ⟨dvd_alignToInterval hwhole _, le_rfl, fun symbol interval t => ?_⟩
    constructor
    · exact Or.inl
    · rintro (hhas | ⟨-, -, -, hle, hlt⟩)
      · exact hhas
      · exact absurd hlt (not_lt.mpr hle)
  have hlast : Adds call duration (alignToInterval call.startDate duration) store last :=
    hrun.invariant (P := fun _ => Adds call duration _ store) hstart
      fun _ _ _ _ hbefore hstep => hbefore.step hduration hstep
  cases hends with
  | passed hpassed =>
    rw [hlast.has]
    apply or_congr_right
    constructor
    · rintro ⟨hsymbol, hinterval, hdvd, hle, -⟩
      exact ⟨hsymbol, hinterval, hdvd, hle⟩
    · rintro ⟨hsymbol, hinterval, hdvd, hle⟩
      exact ⟨hsymbol, hinterval, hdvd, hle, ht.trans_le hpassed⟩

end HistoryLoad

/-- No boundary lies between a time and what it is aligned to. -/
theorem alignToInterval_le {value t : Datetime} {duration : ℤ} (hduration : 0 < duration)
    (hwhole : duration = seconds duration * 1000000) (hdvd : duration ∣ t) (hle : value ≤ t) :
    alignToInterval value duration ≤ t := by
  obtain ⟨k, rfl⟩ := hdvd
  have hpositive : 0 < seconds duration := by linarith
  have hseconds : seconds value ≤ seconds duration * k := by
    have hmono : seconds value ≤ seconds (duration * k) := Int.tdiv_le_tdiv (by decide) hle
    have hexact : seconds (duration * k) = seconds duration * k := by
      have hproduct : duration * k = seconds duration * k * 1000000 := by
        rw [mul_right_comm, ← hwhole]
      rw [hproduct]
      exact Int.mul_tdiv_cancel _ (by decide)
    rwa [hexact] at hmono
  have hfloor : seconds value / seconds duration * seconds duration ≤ seconds value :=
    Int.ediv_mul_le _ hpositive.ne'
  show seconds value / seconds duration * seconds duration * 1000000 ≤ duration * k
  have hproduct : duration * k = seconds duration * k * 1000000 := by
    rw [mul_right_comm, ← hwhole]
  rw [hproduct]
  linarith

/-- A boundary is aligned already. -/
theorem alignToInterval_of_dvd {value : Datetime} {duration : ℤ} (hduration : 0 < duration)
    (hwhole : duration = seconds duration * 1000000) (hdvd : duration ∣ value) :
    alignToInterval value duration = value := by
  obtain ⟨k, rfl⟩ := hdvd
  have hpositive : 0 < seconds duration := by linarith
  have hproduct : duration * k = seconds duration * k * 1000000 := by
    rw [mul_right_comm, ← hwhole]
  have hexact : seconds (duration * k) = seconds duration * k := by
    rw [hproduct]
    exact Int.mul_tdiv_cancel _ (by decide)
  show seconds (duration * k) / seconds duration * seconds duration * 1000000 = duration * k
  rw [hexact, Int.mul_ediv_cancel_left _ hpositive.ne', hproduct]
  ring

/-- The batches of a call, returned or not, are batches of the journal. -/
theorem journaled_of_load {call : HistoryLoad} {klines : BybitKlines} {store : RawStore} {fuel : ℕ}
    {result : Except LoadError ℕ} {final : Collection} (hstore : store.Journaled)
    (h : call.load klines.environment fuel store = some (result, final)) : final.store.Journaled := by
  unfold HistoryLoad.load at h
  split at h
  · cases h
    exact hstore
  cases hinterval : intervalDuration call.interval with
  | error error =>
    simp only [hinterval] at h
    cases h
    exact hstore
  | ok duration =>
    simp only [hinterval] at h
    obtain ⟨hduration, hwhole⟩ := intervalDuration_spec hinterval
    obtain ⟨pages, last, hrun, hends⟩ := HistoryLoad.run_of_loadFrom hduration h
    have hlast : duration ∣ last.1 ∧ last.2.store.Journaled := by
      apply hrun.invariant (P := fun _ at_ => duration ∣ at_.1 ∧ at_.2.store.Journaled)
        ⟨dvd_alignToInterval hwhole _, hstore⟩
      rintro _ ⟨start, state⟩ candles _ ⟨hdvd, hjournaled⟩ ⟨-, hfetch, rfl⟩
      exact ⟨Int.dvd_add hdvd (Dvd.intro_left _ rfl),
        hjournaled.tail (.batch call klines hinterval hdvd hfetch)⟩
    cases hends with
    | passed => exact hlast.2
    | raised => exact hlast.2

/-! ### What resuming leaves -/

namespace RawStore

variable (store : RawStore) (symbol interval : String) (duration : ℤ) (start finish : Datetime)

/-- Every boundary of a range is stored. -/
def Complete : Prop :=
  ∀ t, duration ∣ t → start ≤ t → t < finish → store.Has symbol interval t

/-- The batches of the journal leave out no boundary of a range that is not after the checkpoint. -/
def NoHole : Prop :=
  ∀ checkpoint, store.lastCheckpoint symbol interval = some checkpoint →
    ∀ t, duration ∣ t → start ≤ t → t < finish → t ≤ checkpoint → store.Covers symbol interval t

variable {store symbol interval duration start finish} {final : RawStore} {next checkpoint t : Datetime}

theorem Consistent.dvd_lastCheckpoint (h : store.Consistent)
    (hinterval : intervalDuration interval = .ok duration)
    (hcheckpoint : store.lastCheckpoint symbol interval = some checkpoint) : duration ∣ checkpoint := by
  obtain ⟨row, hrow, rfl⟩ := List.mem_map.mp (List.max?_mem hcheckpoint)
  rw [List.mem_filter, Bool.and_eq_true, decide_eq_true_eq, decide_eq_true_eq] at hrow
  obtain ⟨hmem, -, rfl⟩ := hrow
  exact h.ends row hmem duration hinterval

theorem add_le_iff_of_dvd (hduration : 0 < duration) (hcheckpoint : duration ∣ checkpoint)
    (ht : duration ∣ t) : checkpoint + duration ≤ t ↔ checkpoint < t := by
  constructor
  · intro h
    linarith
  · intro h
    have hgap : duration ≤ t - checkpoint :=
      Int.le_of_dvd (by linarith) (Int.dvd_sub ht hcheckpoint)
    linarith

/-- Resuming completes a range exactly where there is no hole in it before the checkpoint. -/
theorem Consistent.complete_iff (h : store.Consistent)
    (hinterval : intervalDuration interval = .ok duration)
    (hnext : ∀ t, duration ∣ t → start ≤ t → (next ≤ t ↔
      ∀ checkpoint, store.lastCheckpoint symbol interval = some checkpoint → checkpoint < t))
    (hfinal : ∀ t, duration ∣ t → start ≤ t → t < finish →
      (final.Has symbol interval t ↔ store.Has symbol interval t ∨ next ≤ t)) :
    final.Complete symbol interval duration start finish ↔
      store.NoHole symbol interval duration start finish := by
  constructor
  · intro hcomplete checkpoint hcheckpoint t hdvd hfrom hlt hle
    rcases (hfinal t hdvd hfrom hlt).mp (hcomplete t hdvd hfrom hlt) with hhas | hlater
    · exact ((h.stored hinterval t).mp hhas).2
    · exact absurd hle (not_le.mpr ((hnext t hdvd hfrom).mp hlater checkpoint hcheckpoint))
  · intro hholes t hdvd hfrom hlt
    rw [hfinal t hdvd hfrom hlt]
    by_cases hlater : next ≤ t
    · exact Or.inr hlater
    · rw [hnext t hdvd hfrom] at hlater
      push Not at hlater
      obtain ⟨checkpoint, hcheckpoint, hle⟩ := hlater
      have hcovers := hholes checkpoint hcheckpoint t hdvd hfrom hlt hle
      exact Or.inl ((h.stored hinterval t).mpr ⟨hdvd, hcovers⟩)

end RawStore

section Resuming

variable {definition : HoldoutDefinition} {klines : BybitKlines} {symbol interval : String}
  {asOf closedEnd startDate endDate : Datetime} {fuel total : ℕ} {duration : ℤ}
  {store final : RawStore}

/-- What a call of the loaders returned. -/
theorem returned_of_map {outcome : Option (Except LoadError ℕ × Collection)}
    (h : outcome.map (fun outcome => (outcome.1.mapError ResumeError.load, outcome.2.store)) =
      some (.ok total, final)) :
    ∃ collection, outcome = some (.ok total, collection) ∧ collection.store = final := by
  cases outcome with
  | none => cases h
  | some outcome =>
    obtain ⟨result, collection⟩ := outcome
    cases result with
    | error error => cases h
    | ok count =>
      cases h
      exact ⟨collection, rfl, rfl⟩

/-- What a call leaves that starts where nothing that was asked for is before it. -/
theorem has_of_resumed {call : HistoryLoad} {collection : Collection} {t : Datetime}
    (h : call.load klines.environment fuel store = some (.ok total, collection))
    (hinterval : intervalDuration call.interval = .ok duration)
    (hdvd : duration ∣ t) (hlt : t < call.endDate)
    (hstart : alignToInterval call.startDate duration ≤ t → call.startDate ≤ t) :
    collection.store.Has call.symbol call.interval t ↔
      store.Has call.symbol call.interval t ∨ call.startDate ≤ t := by
  obtain ⟨hduration, hwhole⟩ := intervalDuration_spec hinterval
  rw [HistoryLoad.has_of_load hinterval h hlt]
  apply or_congr_right
  constructor
  · rintro ⟨-, -, -, hle⟩
    exact hstart hle
  · intro hle
    exact ⟨rfl, rfl, hdvd, alignToInterval_le hduration hwhole hdvd hle⟩

/-- The collection of a symbol starts after the checkpoint, and not before the warm-up. -/
theorem nextCollectionStart_spec (symbol : String) (hstore : store.Consistent)
    (hinterval : intervalDuration definition.interval = .ok duration) :
    ∃ next, definition.nextCollectionStart (store.lastCheckpoint symbol definition.interval) =
      .ok next ∧ ∀ t, duration ∣ t → definition.warmupStart duration ≤ t →
        (alignToInterval next duration ≤ t → next ≤ t) ∧
        (next ≤ t ↔ ∀ checkpoint,
          store.lastCheckpoint symbol definition.interval = some checkpoint → checkpoint < t) := by
  obtain ⟨hduration, hwhole⟩ := intervalDuration_spec hinterval
  unfold HoldoutDefinition.nextCollectionStart
  rw [hinterval]
  cases hcheckpoint : store.lastCheckpoint symbol definition.interval with
  | none =>
    refine ⟨_, rfl, fun t _ hfrom => ⟨fun _ => hfrom, iff_of_true hfrom ?_⟩⟩
    intro checkpoint hsome
    cases hsome
  | some checkpoint =>
    have haligned := hstore.dvd_lastCheckpoint hinterval hcheckpoint
    refine ⟨_, rfl, fun t hdvd hfrom => ⟨?_, ?_⟩⟩
    · intro hle
      rcases max_choice (definition.warmupStart duration) (checkpoint + duration) with hmax | hmax
      · rw [hmax]
        exact hfrom
      · rw [hmax] at hle ⊢
        rwa [alignToInterval_of_dvd hduration hwhole (Int.dvd_add haligned (Int.dvd_refl _))] at hle
    · rw [max_le_iff, RawStore.add_le_iff_of_dvd hduration haligned hdvd]
      simp only [hfrom, true_and, Option.some.injEq, forall_eq']

/-- The collection of a symbol completes its range exactly where there is no hole in it. -/
theorem collectSymbol_complete_iff (hstore : store.Consistent)
    (hinterval : intervalDuration definition.interval = .ok duration)
    (hend : definition.completedIntervalEnd asOf = .ok closedEnd)
    (h : definition.collectSymbol klines asOf symbol fuel store = some (.ok total, final)) :
    final.Complete symbol definition.interval duration (definition.warmupStart duration) closedEnd ↔
      store.NoHole symbol definition.interval duration (definition.warmupStart duration) closedEnd := by
  obtain ⟨next, hstart, hnext⟩ := nextCollectionStart_spec symbol hstore hinterval
  unfold HoldoutDefinition.collectSymbol at h
  simp only [hend, hstart] at h
  apply hstore.complete_iff hinterval fun t hdvd hfrom => (hnext t hdvd hfrom).2
  intro t hdvd hfrom hlt
  split at h
  · rename_i hdone
    cases h
    exact (or_iff_left fun hle => absurd (hle.trans_lt hlt) (not_lt.mpr hdone)).symm
  · obtain ⟨collection, hload, rfl⟩ := returned_of_map h
    exact has_of_resumed hload hinterval hdvd hlt (hnext t hdvd hfrom).1

/-- The resumption of a stream completes its range exactly where there is no hole in it. -/
theorem resumeStream_complete_iff (hstore : store.Consistent)
    (hinterval : intervalDuration interval = .ok duration)
    (h : resumeStream klines symbol interval startDate endDate fuel store = some (.ok total, final)) :
    final.Complete symbol interval duration startDate endDate ↔
      store.NoHole symbol interval duration startDate endDate := by
  obtain ⟨hduration, hwhole⟩ := intervalDuration_spec hinterval
  unfold resumeStream at h
  simp only [hinterval] at h
  obtain ⟨collection, hload, rfl⟩ := returned_of_map h
  have hpoint : duration ∣ resumePoint store symbol interval startDate duration := by
    unfold resumePoint
    split
    · rename_i checkpoint hcheckpoint
      exact Int.dvd_add (hstore.dvd_lastCheckpoint hinterval hcheckpoint) (Int.dvd_refl _)
    · exact dvd_alignToInterval hwhole startDate
  apply hstore.complete_iff hinterval
  · intro t hdvd hfrom
    show resumePoint store symbol interval startDate duration ≤ t ↔ _
    unfold resumePoint
    cases hcheckpoint : store.lastCheckpoint symbol interval with
    | none =>
      refine iff_of_true (alignToInterval_le hduration hwhole hdvd hfrom) fun checkpoint hsome => ?_
      cases hsome
    | some checkpoint =>
      have haligned := hstore.dvd_lastCheckpoint hinterval hcheckpoint
      simp only [Option.some.injEq, forall_eq']
      exact RawStore.add_le_iff_of_dvd hduration haligned hdvd
  · intro t hdvd _ hlt
    apply has_of_resumed hload hinterval hdvd hlt
    intro hle
    change alignToInterval (resumePoint store symbol interval startDate duration) duration ≤ t at hle
    rwa [alignToInterval_of_dvd hduration hwhole hpoint] at hle

end Resuming

/-- Whatever batches the journal has, resuming after its checkpoint stores every boundary of the range
that is asked for if and only if the batches have no hole before the checkpoint. -/
theorem resume_completes_iff {store : RawStore} (hstore : store.Journaled) :
    (∀ (definition : HoldoutDefinition) klines asOf symbol fuel total final duration closedEnd,
      intervalDuration definition.interval = .ok duration →
      definition.completedIntervalEnd asOf = .ok closedEnd →
      definition.collectSymbol klines asOf symbol fuel store = some (.ok total, final) →
      (final.Complete symbol definition.interval duration (definition.warmupStart duration) closedEnd ↔
        store.NoHole symbol definition.interval duration (definition.warmupStart duration)
          closedEnd)) ∧
    ∀ klines symbol interval startDate endDate fuel total final duration,
      intervalDuration interval = .ok duration →
      resumeStream klines symbol interval startDate endDate fuel store = some (.ok total, final) →
      (final.Complete symbol interval duration startDate endDate ↔
        store.NoHole symbol interval duration startDate endDate) := by
  have hconsistent := hstore.consistent
  constructor
  · intro definition klines asOf symbol fuel total final duration closedEnd hinterval hend h
    exact collectSymbol_complete_iff hconsistent hinterval hend h
  · intro klines symbol interval startDate endDate fuel total final duration hinterval h
    exact resumeStream_complete_iff hconsistent hinterval h

/-- An exchange that lists these hours. -/
def listedHours (hours : List ℤ) : BybitKlines where
  rows _ request := .ok ((hours.map fun k =>
      { openTime := k * hour, open_ := 100, high := 110, low := 90, close := 105, volume := 7 }).filter
    fun row : KlineRow => decide (request.startTime ≤ row.openTime) &&
      decide (row.openTime ≤ request.endTime))

/-- A call that fetches these hours of a symbol. -/
def hoursCall (first last : ℤ) : HistoryLoad :=
  { symbol := "BTCUSDT", interval := "1h", startDate := first * hour, endDate := last * hour }

theorem resumedHours_complete : ∃ collection final,
    (hoursCall 0 2).load (listedHours [0, 1, 2, 3]).environment 2 {} = some (.ok 2, collection) ∧
      collection.store.Journaled ∧
      resumeStream (listedHours [0, 1, 2, 3]) "BTCUSDT" "1h" 0 (4 * hour) 2 collection.store =
        some (.ok 2, final) ∧
      final.Complete "BTCUSDT" "1h" hour 0 (4 * hour) := by
  have hload : ∃ collection, (hoursCall 0 2).load (listedHours [0, 1, 2, 3]).environment 2 {} =
      some (.ok 2, collection) ∧ collection.store.journal = [⟨"BTCUSDT", "1h", 0, hour, 2⟩] ∧
      ∃ final, resumeStream (listedHours [0, 1, 2, 3]) "BTCUSDT" "1h" 0 (4 * hour) 2 collection.store =
        some (.ok 2, final) := ⟨_, rfl, rfl, _, rfl⟩
  obtain ⟨collection, hload, hjournal, final, hresume⟩ := hload
  have hstore : collection.store.Journaled := journaled_of_load .refl hload
  refine ⟨collection, final, hload, hstore, hresume,
    ((resume_completes_iff hstore).2 _ _ _ _ _ _ _ _ _ rfl hresume).mpr ?_⟩
  intro checkpoint hcheckpoint t _ hfrom _ hle
  rw [RawStore.lastCheckpoint, hjournal] at hcheckpoint
  cases hcheckpoint
  exact ⟨⟨"BTCUSDT", "1h", 0, hour, 2⟩, by rw [hjournal]; exact List.mem_singleton.mpr rfl, rfl, rfl,
    hfrom, hle⟩

/-- A holdout whose warm-up starts at two o'clock. -/
def warmedHoldout : HoldoutDefinition :=
  { symbols := ["BTCUSDT"], interval := "1h", periodStart := 210 * hour, periodEnd := 400 * hour }

/-- After the last two hours of the warm-up were fetched, the rest of it is taken for collected. -/
theorem hole_not_revisited : ∃ collection,
    (hoursCall 208 210).load (listedHours [2, 208, 209]).environment 2 {} = some (.ok 2, collection) ∧
      collection.store.Journaled ∧ warmedHoldout.completedIntervalEnd (210 * hour) = .ok (210 * hour) ∧
      warmedHoldout.collectSymbol (listedHours [2, 208, 209]) (210 * hour) "BTCUSDT" 2 collection.store =
        some (.ok 0, collection.store) ∧
      ¬collection.store.Complete "BTCUSDT" warmedHoldout.interval hour (warmedHoldout.warmupStart hour)
        (210 * hour) := by
  have hload : ∃ collection, (hoursCall 208 210).load (listedHours [2, 208, 209]).environment 2 {} =
      some (.ok 2, collection) ∧
      warmedHoldout.collectSymbol (listedHours [2, 208, 209]) (210 * hour) "BTCUSDT" 2 collection.store =
        some (.ok 0, collection.store) ∧
      (collection.store.candles.get? ⟨"bybit", "BTCUSDT", "1h", 2 * hour⟩).isSome = false :=
    ⟨_, rfl, rfl, rfl⟩
  obtain ⟨collection, hload, hcollect, hmissing⟩ := hload
  refine ⟨collection, hload, journaled_of_load .refl hload, rfl, hcollect, fun hcomplete => ?_⟩
  have hhas : (collection.store.candles.get? ⟨"bybit", "BTCUSDT", "1h", 2 * hour⟩).isSome :=
    hcomplete (2 * hour) (by decide) (by decide) (by decide)
  rw [hmissing] at hhas
  cases hhas

end CryptoTrading
