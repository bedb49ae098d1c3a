import CryptoTrading.Kit.KeyedTable
import CryptoTrading.Kit.Progression
import CryptoTrading.Models
import Mathlib.Data.List.Sort

/-! The collection of historical candles: pages of a half-open range of times are asked of the exchange,
and each is validated and stored in one transaction, with its row of the loading journal. -/

namespace CryptoTrading

open Kit

/-- `timedelta(minutes=1)`. -/
def minute : ℤ := 60000000

/-- A `Candle` of `base_exchange`, as `raw_market.candles` keeps it. -/
structure ExchangeCandle where
  exchangeName : String := "bybit"
  symbol : String
  intervalCode : String
  openTime : Datetime
  closeTime : Option Datetime
  openPrice : Decimal
  highPrice : Decimal
  lowPrice : Decimal
  closePrice : Decimal
  volume : Decimal
  quoteVolume : Option Decimal := none
  tradeCount : Option ℤ := none
  deriving DecidableEq

/-- The primary key of `raw_market.candles`. -/
structure CandleKey where
  exchangeName : String
  symbol : String
  intervalCode : String
  openTime : Datetime
  deriving DecidableEq

def ExchangeCandle.key (candle : ExchangeCandle) : CandleKey :=
  ⟨candle.exchangeName, candle.symbol, candle.intervalCode, candle.openTime⟩

/-- A row of `raw_system.loading_journal`, of the exchange `bybit` and with the status `success`. -/
structure JournalRow where
  symbol : String
  interval : String
  startTime : Datetime
  endTime : Datetime
  rowsLoaded : ℕ
  deriving DecidableEq

/-- The tables that the collector writes. -/
structure RawStore where
  candles : Dict CandleKey ExchangeCandle := .empty
  journal : List JournalRow := []

/-- What `load_historical_candles` raises. -/
inductive LoadError
  /-- "batch_size must be positive" -/
  | batchSize
  /-- "Unsupported candle interval: {interval}" -/
  | unsupportedInterval (interval : String)
  /-- What `get_candles` raises. -/
  | exchange (message : String)
  /-- "Empty candle batch for expected range {start} to {stop}" -/
  | emptyBatch (start stop : Datetime)
  /-- "Duplicate candle open_time in Bybit response" -/
  | duplicate
  /-- "Candle open_time is not strictly monotonic" -/
  | notMonotonic
  /-- "Gap detected in Bybit candle response" -/
  | gap
  /-- "Batch starts at {first}, expected {expected}" -/
  | batchStart (first expected : Datetime)
  /-- `times[0]` of no candles -/
  | indexError
  /-- What the transaction raises. -/
  | database (message : String)
  deriving DecidableEq

/-! ### Intervals -/

/-- `INTERVAL_DURATIONS`. -/
def intervalDurations : List (String × ℤ) :=
  [("5m", 5 * minute), ("15m", 15 * minute), ("1h", hour), ("4h", 4 * hour), ("1d", day)]

/-- `interval_duration`. -/
def intervalDuration (interval : String) : Except LoadError ℤ :=
  match intervalDurations.lookup interval with
  | some duration => .ok duration
  | none => .error (.unsupportedInterval interval)

/-- `align_to_interval`. -/
def alignToInterval (value : Datetime) (duration : ℤ) : Datetime :=
  let durationSeconds := seconds duration
  let alignedSeconds := seconds value / durationSeconds * durationSeconds
  alignedSeconds * 1000000

/-- A supported duration is a whole number of seconds. -/
theorem intervalDuration_spec {interval : String} {duration : ℤ}
    (h : intervalDuration interval = .ok duration) :
    0 < duration ∧ duration = seconds duration * 1000000 := by
  have hall : ∀ entry ∈ intervalDurations,
      0 < entry.2 ∧ entry.2 = seconds entry.2 * 1000000 := by decide
  unfold intervalDuration at h
  split at h
  · rename_i found hfound
    cases h
    obtain ⟨before, after, hsplit, -⟩ := List.lookup_eq_some_iff.mp hfound
    exact hall (interval, duration) (by rw [hsplit]; simp)
  · cases h

theorem dvd_alignToInterval {duration : ℤ} (hwhole : duration = seconds duration * 1000000)
    (value : Datetime) : duration ∣ alignToInterval value duration := by
  refine ⟨seconds value / seconds duration, ?_⟩
  show seconds value / seconds duration * seconds duration * 1000000 = _
  rw [mul_assoc, ← hwhole, mul_comm]

/-! ### The exchange -/

/-- The keywords of `get_candles`. -/
structure CandleRequest where
  symbol : String
  interval : String
  startTime : Datetime
  endTime : Datetime
  limit : ℤ
  deriving DecidableEq

/-- What a call meets: the answer to its `n`th request, and what the transaction of its `n`th page
raises, if anything. -/
structure LoadEnvironment where
  getCandles : ℕ → CandleRequest → Except String (List ExchangeCandle)
  failure : ℕ → Option String := fun _ => none

/-! ### A page -/

/-- `_validate_batch`. -/
def validateBatch (candles : List ExchangeCandle) (duration : ℤ) (expectedStart : Datetime) :
    Except LoadError Unit :=
  let times := candles.map (·.openTime)
  let pairs := times.zip times.tail
  if ¬times.Nodup then .error .duplicate
  else if pairs.any fun pair => decide (pair.2 ≤ pair.1) then .error .notMonotonic
  else if pairs.any fun pair => decide (pair.2 - pair.1 ≠ duration) then .error .gap
  else
    match times with
    | [] => .error .indexError
    | first :: _ => if first ≠ expectedStart then .error (.batchStart first expectedStart) else .ok ()

/-- `_store_candles`: the table afterwards, and the number of rows that are new. -/
def storeCandles (table : Dict CandleKey ExchangeCandle) (candles : List ExchangeCandle) :
    Dict CandleKey ExchangeCandle × ℕ :=
  candles.foldl (fun (table, inserted) candle =>
    (table.insertNew candle.key candle,
      if (table.get? candle.key).isSome then inserted else inserted + 1)) (table, 0)

/-- The transaction of a page: its candles, and its row of the journal. -/
def RawStore.save (store : RawStore) (symbol interval : String) (start maxOpenTime : Datetime)
    (candles : List ExchangeCandle) : RawStore :=
  let (table, loadedCount) := storeCandles store.candles candles
  { candles := table
    journal := store.journal ++ [⟨symbol, interval, start, maxOpenTime, loadedCount⟩] }

/-- The arguments of `load_historical_candles`. -/
structure HistoryLoad where
  symbol : String
  interval : String
  startDate : Datetime
  endDate : Datetime
  batchSize : ℤ := 1000
  deriving DecidableEq

/-- A call on its way: the tables, its requests, the candles that it stored, and `total_loaded`. -/
structure Collection where
  store : RawStore
  requests : List CandleRequest := []
  stored : List ExchangeCandle := []
  totalLoaded : ℕ := 0

namespace HistoryLoad

variable (call : HistoryLoad)

def pageSize : ℤ := min call.batchSize 1000

/-- `batch_end`. -/
def batchEnd (duration : ℤ) (currentStart : Datetime) : Datetime :=
  min call.endDate (currentStart + duration * (call.pageSize - 1))

/-- The request of the page that starts there. -/
def request (duration : ℤ) (currentStart : Datetime) : CandleRequest :=
  { symbol := call.symbol, interval := call.interval, startTime := currentStart
    endTime := call.batchEnd duration currentStart, limit := call.pageSize }

/-- The candles of an answer that are stored: those before the end of the range, in order. -/
def accept (duration : ℤ) (currentStart : Datetime) (answer : List ExchangeCandle) :
    Except LoadError (List ExchangeCandle) := do
  let candles := answer.filter fun candle => decide (candle.openTime < call.endDate)
  if candles.isEmpty then
    throw (.emptyBatch currentStart (call.batchEnd duration currentStart))
  let candles := candles.insertionSort fun a b => a.openTime ≤ b.openTime
  validateBatch candles duration currentStart
  return candles

/-- The candles of the `n`th page, or what it raises. -/
def fetch (environment : LoadEnvironment) (duration : ℤ) (n : ℕ) (currentStart : Datetime) :
    Except LoadError (List ExchangeCandle) := do
  let answer ← (environment.getCandles n (call.request duration currentStart)).mapError .exchange
  let candles ← call.accept duration currentStart answer
  match environment.failure n with
  | some message => throw (.database message)
  | none => return candles

/-- `max_open_time`. -/
def maxOpenTime (currentStart : Datetime) (candles : List ExchangeCandle) : Datetime :=
  (candles.map (·.openTime)).max?.getD currentStart

/-- What a page that is stored leaves. -/
def save (currentStart : Datetime) (candles : List ExchangeCandle) (state : Collection) : Collection :=
  { state with
    store := state.store.save call.symbol call.interval currentStart (maxOpenTime currentStart candles)
      candles
    stored := state.stored ++ candles
    totalLoaded := state.totalLoaded + (storeCandles state.store.candles candles).2 }

/-- The loop, at most `fuel` times around its test: how it ends, if it does. -/
def loadFrom (environment : LoadEnvironment) (duration : ℤ) :
    ℕ → Datetime → Collection → Option (Except LoadError ℕ × Collection)
  | 0, _, _ => none
  | fuel + 1, currentStart, state =>
    if currentStart < call.endDate then
      let asked := { state with requests := state.requests ++ [call.request duration currentStart] }
      match call.fetch environment duration state.requests.length currentStart with
      | .error error => some (.error error, asked)
      | .ok candles =>
        loadFrom environment duration fuel (maxOpenTime currentStart candles + duration)
          (call.save currentStart candles asked)
    else some (.ok state.totalLoaded, state)

/-- `load_historical_candles`. -/
def load (environment : LoadEnvironment) (fuel : ℕ) (store : RawStore) :
    Option (Except LoadError ℕ × Collection) :=
  if call.batchSize ≤ 0 then some (.error .batchSize, { store })
  else
    match intervalDuration call.interval with
    | .error error => some (.error error, { store })
    | .ok duration =>
      call.loadFrom environment duration fuel (alignToInterval call.startDate duration) { store }

end HistoryLoad

end CryptoTrading
