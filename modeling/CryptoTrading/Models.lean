import CryptoTrading.Kit.Dict
import Mathlib.Algebra.Order.Ring.Rat

/-! The records that the modules exchange: candles, market events, and the durable paper-trading
state.  Decimals are exact rationals, and moments are microseconds since the Unix epoch, in UTC. -/

namespace CryptoTrading

/-- `decimal.Decimal`, without rounding. -/
abbrev Decimal := ℚ

/-- An aware `datetime`, as microseconds since the Unix epoch. -/
abbrev Datetime := ℤ

/-- `timedelta(hours=1)`. -/
def hour : ℤ := 3600000000

/-- One day, in microseconds. -/
def day : ℤ := 24 * hour

/-- `int(moment.timestamp())`: whole seconds since the epoch, rounded toward zero. -/
def seconds (moment : Datetime) : ℤ := moment.tdiv 1000000

/-- The identity of an order or a fill: a caller's client order id, or the `n`th `uuid4` drawn.
Generated identities never repeat and are never a client's. -/
inductive Identifier
  | client (id : String)
  | uuid (n : ℕ)
  deriving DecidableEq, Repr

structure Candle where
  symbol : String
  openTime : Datetime
  closeTime : Datetime
  open_ : Decimal
  high : Decimal
  low : Decimal
  close : Decimal
  volume : Decimal
  deriving DecidableEq

/-- The `ValueError`s of `Candle.validate`. -/
inductive CandleError
  /-- "Candle close_time must be after open_time" -/
  | closeTime
  /-- "Invalid candle high" -/
  | high
  /-- "Invalid candle low" -/
  | low
  deriving DecidableEq, Repr

def Candle.validate (candle : Candle) : Except CandleError Unit :=
  if candle.closeTime ≤ candle.openTime then .error .closeTime
  else if candle.high < max candle.open_ candle.close then .error .high
  else if candle.low > min candle.open_ candle.close then .error .low
  else .ok ()

structure MarketEvent where
  candle : Candle
  sequence : ℤ
  source : String := "paper"
  deriving DecidableEq

structure PaperFillState where
  fillId : Identifier
  orderId : Identifier
  symbol : String
  quantity : Decimal
  price : Decimal
  executedAt : Datetime
  runId : Option String := none
  signalId : Option String := none
  deriving DecidableEq

structure PaperOrderState where
  orderId : Identifier
  symbol : String
  side : String
  quantity : Decimal
  status : String
  createdAt : Datetime
  clientOrderId : Option String := none
  runId : Option String := none
  signalId : Option String := none
  deriving DecidableEq

structure PaperPositionState where
  symbol : String
  quantity : Decimal
  averagePrice : Decimal
  deriving DecidableEq

structure PaperRuntimeState where
  lastProcessedTimestamp : Option Datetime := none
  lastMarketSequence : ℤ := 0
  cashBalance : Decimal := 0
  deriving DecidableEq

end CryptoTrading
