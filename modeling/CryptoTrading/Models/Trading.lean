import CryptoTrading.Exchange.PaperExecutionEngine
import CryptoTrading.Risk.RiskEngine

/-! The records of the spot trading pipeline: signals, orders, risk decisions, fills and positions. -/

namespace CryptoTrading

inductive SignalAction
  | buy
  | sell
  | openLong
  | close
  deriving DecidableEq, Repr

/-- `SignalAction(value)`, or `none` where it raises `ValueError`. -/
def SignalAction.ofValue? (value : String) : Option SignalAction :=
  if value = "buy" then some .buy
  else if value = "sell" then some .sell
  else if value = "open_long" then some .openLong
  else if value = "close" then some .close
  else none

/-- The lower-case text of a side. -/
def OrderSide.text : OrderSide → String
  | .buy => "buy"
  | .sell => "sell"

theorem OrderSide.text_toLower (side : OrderSide) : side.text.toLower = side.text := by
  cases side <;> decide +kernel

/-- The entries of `Signal.metadata` that a strategy reads when its signal is filled. -/
structure SignalMetadata where
  dcaLevel : Option ℤ := none
  breakoutLevel : Option Decimal := none
  deriving DecidableEq

/-- A strategy's intent.  `action` is a text, which need not be the value of a `SignalAction`. -/
structure Signal where
  action : String
  symbol : String
  price : Decimal
  quantity : Decimal
  timestamp : Datetime
  reason : String := ""
  stopLoss : Option Decimal := none
  takeProfit : Option Decimal := none
  strategy : String := ""
  parametersVersion : String := ""
  regime : Option String := none
  metadata : SignalMetadata := {}
  signalId : Identifier
  runId : String := ""
  deriving DecidableEq

structure Order where
  orderId : String
  signal : Signal
  side : OrderSide
  quantity : Decimal
  requestedPrice : Decimal
  createdAt : Datetime
  runId : String := ""
  signalId : Identifier
  deriving DecidableEq

def Order.symbol (order : Order) : String := order.signal.symbol

/-- `event.value`. -/
def RiskEvent.value : RiskEvent → String
  | .maxRiskPerTrade => "MAX_RISK_PER_TRADE"
  | .maxPositionSize => "MAX_POSITION_SIZE"
  | .maxAssetExposure => "MAX_ASSET_EXPOSURE"
  | .maxCapitalUtilization => "MAX_CAPITAL_UTILIZATION"
  | .insufficientBalance => "INSUFFICIENT_BALANCE"
  | .dailyLossLimit => "DAILY_LOSS_LIMIT"
  | .weeklyLossLimit => "WEEKLY_LOSS_LIMIT"
  | .maxDrawdown => "MAX_DRAWDOWN"
  | .emergencyStop => "EMERGENCY_STOP"
  | .staleData => "STALE_DATA"
  | .apiUnavailable => "API_UNAVAILABLE"
  | .databaseUnavailable => "DATABASE_UNAVAILABLE"
  | .reconciliationFailed => "RECONCILIATION_FAILED"
  | .unknownOrderStatus => "UNKNOWN_ORDER_STATUS"
  | .invalidTrade => "INVALID_TRADE"

/-- The texts of `RiskDecision.reasons`. -/
inductive DecisionReason
  /-- "No open spot position to close" -/
  | noPosition
  | risk (reason : RiskReason)
  deriving DecidableEq

structure RiskDecision where
  orderId : String
  approved : Bool
  riskLevel : RiskLevel
  codes : List String
  reasons : List DecisionReason
  requestedQuantity : Decimal
  approvedQuantity : Option Decimal := none
  runId : String := ""
  signalId : Identifier
  deriving DecidableEq

structure Fill where
  fillId : String
  orderId : String
  symbol : String
  side : OrderSide
  quantity : Decimal
  price : Decimal
  commission : Decimal
  timestamp : Datetime
  runId : String := ""
  signalId : Identifier
  deriving DecidableEq

/-- `value or other`: a decimal that is zero counts as missing. -/
def truthyOr (value : Option Decimal) (other : Decimal) : Decimal :=
  match value with
  | none => other
  | some own => if own = 0 then other else own

/-- A long-only spot position. -/
structure Position where
  symbol : String
  side : String
  entryPrice : Decimal
  quantity : Decimal
  entryTime : Datetime
  stopLoss : Option Decimal := none
  takeProfit : Option Decimal := none
  unrealizedPnl : Decimal := 0
  currentPrice : Option Decimal := none
  entryCommission : Decimal := 0
  highWaterMark : Option Decimal := none
  holdingPeriods : ℕ := 0
  deriving DecidableEq

namespace Position

/-- `position_value`. -/
def positionValue (position : Position) : Decimal :=
  truthyOr position.currentPrice position.entryPrice * position.quantity

/-- `update_market`. -/
def updateMarket (position : Position) (currentPrice : Decimal)
    (highPrice : Option Decimal := none) : Position :=
  let observedHigh := truthyOr highPrice currentPrice
  { position with
    currentPrice := some currentPrice
    unrealizedPnl := (currentPrice - position.entryPrice) * position.quantity
    highWaterMark := some (max (truthyOr position.highWaterMark observedHigh) observedHigh)
    holdingPeriods := position.holdingPeriods + 1 }

end Position

end CryptoTrading
