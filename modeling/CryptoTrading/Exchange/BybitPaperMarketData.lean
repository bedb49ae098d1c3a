import CryptoTrading.Kit.Watermark
import CryptoTrading.Models
import Mathlib.Data.List.Sort
import Mathlib.Data.Prod.Lex
import Mathlib.Data.String.Basic

/-! The stream of closed candles: its polls of the stored candles, the boundaries up to which each
symbol has been emitted, and the sequence numbers of the events. -/

namespace CryptoTrading

open Kit

/-- What `_stats` reads about a symbol, as far as it decides readiness. -/
structure SymbolStats where
  candleCount : ℕ
  lastCandle : Datetime
  lastClose : Datetime
  duplicateCount : ℕ
  gapCount : ℕ

structure BybitPaperMarketData where
  symbols : List String
  warmupCandles : ℕ
  staleGrace : ℤ
  lastEmitted : Dict String Datetime := .empty

/-- What a poll reads: the hour boundary of its clock, the statistics after the ingestion, and the
valid closed candles that its query sees.  `none` is a part that raises. -/
structure Poll where
  boundary : Datetime
  stats : Option (Dict String SymbolStats)
  visible : Option (List Candle)

namespace BybitPaperMarketData

/-- `restore_boundary`. -/
def restoreBoundary (source : BybitPaperMarketData) (sequence : ℤ) (timestamp : Option Datetime) :
    BybitPaperMarketData :=
  match timestamp with
  | none => source
  | some timestamp =>
    if sequence ≤ 0 then source
    else
      { source with
        lastEmitted := source.symbols.zipIdx.foldl (fun lastEmitted (symbol, index) =>
          lastEmitted.set symbol
            (if seconds timestamp * 10 + index ≤ sequence then timestamp else timestamp - hour))
          source.lastEmitted }

/-- `ready`, as `bootstrap` computes it. -/
def isReady (source : BybitPaperMarketData) (boundary : Datetime) (stats : Dict String SymbolStats) :
    Bool :=
  source.symbols.all fun symbol => (stats.get? symbol).any fun row =>
    decide (source.warmupCandles ≤ row.candleCount) && decide (row.gapCount = 0) &&
      decide (row.duplicateCount = 0) && decide (boundary ≤ row.lastClose + source.staleGrace)

/-- The boundaries after `bootstrap`: where there are none, history is warmup and no backlog. -/
def bootstrap (source : BybitPaperMarketData) (stats : Dict String SymbolStats) :
    BybitPaperMarketData :=
  if source.lastEmitted.entries = [] then
    { source with lastEmitted := stats.mapValues fun _ row => row.lastCandle }
  else source

/-- The order of the rows of `_new_candles`. -/
def rowKey (candle : Candle) : ℤ ×ₗ String := toLex (candle.openTime, candle.symbol)

/-- `_new_candles`: the rows of the configured symbols beyond the earliest boundary, by open time
and then symbol. -/
def newCandles (source : BybitPaperMarketData) (visible : List Candle) : List Candle :=
  (visible.filter fun candle => decide (candle.symbol ∈ source.symbols) &&
    source.lastEmitted.values.min?.all fun bound => decide (bound < candle.openTime)).insertionSort
      fun a b => rowKey a ≤ rowKey b

/-- The sequence of a candle: ten times the second at which it opens, and the place of its symbol in
the configuration. -/
def sequenceOf (symbols : List String) (candle : Candle) : ℤ :=
  seconds candle.openTime * 10 + symbols.idxOf candle.symbol

/-- The event of a candle. -/
def eventOf (symbols : List String) (candle : Candle) : MarketEvent :=
  { candle, sequence := sequenceOf symbols candle, source := "bybit-rest-dds" }

/-- The events of a poll that is ready, and the boundaries after them. -/
def emit (source : BybitPaperMarketData) (visible : List Candle) :
    List MarketEvent × BybitPaperMarketData :=
  let admitted := letThrough Candle.symbol Candle.openTime source.lastEmitted (source.newCandles visible)
  (admitted.1.map (eventOf source.symbols), { source with lastEmitted := admitted.2 })

/-- One turn of the loop of `stream_async`. -/
def poll (source : BybitPaperMarketData) (poll : Poll) : List MarketEvent × BybitPaperMarketData :=
  match poll.stats with
  | none => ([], source)
  | some stats =>
    let started := source.bootstrap stats
    if source.isReady poll.boundary stats then
      match poll.visible with
      | none => ([], started)
      | some visible => started.emit visible
    else ([], started)

/-- `stream_async` over its polls. -/
def stream (source : BybitPaperMarketData) : List Poll → List MarketEvent × BybitPaperMarketData
  | [] => ([], source)
  | first :: rest =>
    let later := (source.poll first).2.stream rest
    ((source.poll first).1 ++ later.1, later.2)

end BybitPaperMarketData

end CryptoTrading
