import CryptoTrading.Kit.AverageCost
import CryptoTrading.Reporting.PaperPnl

/-! Two reports of the PnL that paper fills realize: the PnL tracker's, from a cost basis for each
symbol, and the reporting marts', from an average price for each symbol. -/

namespace CryptoTrading

open Kit

/-! ### The PnL tracker -/

/-- An entry of `position_tracker`. -/
structure TrackedPosition where
  quantity : Decimal := 0
  avgCost : Decimal := 0
  costBasis : Decimal := 0
  deriving DecidableEq

/-- What `calculate_realized_pnl` raises. -/
inductive RealizedPnlError
  /-- `ValueError`: "Order not found for fill {fill_id}" -/
  | orderNotFound (fillId : Identifier)
  /-- `ValueError`: "Unsupported order side: {side}" -/
  | unsupportedSide (side : String)
  /-- `ValueError`: "Sell quantity {quantity} exceeds tracked position {tracked} for {symbol}" -/
  | sellExceedsTracked (quantity tracked : Decimal) (symbol : String)
  deriving DecidableEq

/-- The variables of the loop of `calculate_realized_pnl`. -/
structure RealizedLedger where
  tracker : Dict String TrackedPosition := .empty
  realizedPnl : Decimal := 0
  tradePnl : List Decimal := []
  deriving DecidableEq

namespace RealizedLedger

def tracked (ledger : RealizedLedger) (symbol : String) : TrackedPosition :=
  (ledger.tracker.get? symbol).getD {}

def bought (ledger : RealizedLedger) (fill : PaperFillState) : RealizedLedger :=
  let tracker := ledger.tracked fill.symbol
  let newQty := tracker.quantity + fill.quantity
  let newCostBasis := tracker.costBasis + fill.quantity * fill.price
  let avgCost := if newQty > 0 then newCostBasis / newQty else tracker.avgCost
  { ledger with tracker := ledger.tracker.set fill.symbol ⟨newQty, avgCost, newCostBasis⟩ }

def sold (ledger : RealizedLedger) (fill : PaperFillState) : RealizedLedger :=
  let tracker := ledger.tracked fill.symbol
  let newQty := tracker.quantity - fill.quantity
  let tradePnl := fill.quantity * fill.price - fill.quantity * tracker.avgCost
  let costBasis := if newQty > 0 then newQty * tracker.avgCost else 0
  { tracker := ledger.tracker.set fill.symbol ⟨newQty, tracker.avgCost, costBasis⟩
    realizedPnl := ledger.realizedPnl + tradePnl
    tradePnl := ledger.tradePnl ++ [tradePnl] }

/-- A turn of the loop of `calculate_realized_pnl`. -/
def take (order : Identifier → Option PaperOrderState) (ledger : RealizedLedger)
    (fill : PaperFillState) : Except RealizedPnlError RealizedLedger :=
  match order fill.orderId with
  | none => .error (.orderNotFound fill.fillId)
  | some order =>
    if order.side.toUpper = "BUY" then .ok (ledger.bought fill)
    else if order.side.toUpper = "SELL" then
      if fill.quantity > (ledger.tracked fill.symbol).quantity then
        .error (.sellExceedsTracked fill.quantity (ledger.tracked fill.symbol).quantity fill.symbol)
      else .ok (ledger.sold fill)
    else .error (.unsupportedSide order.side)

end RealizedLedger

/-- `calculate_realized_pnl`: it returns `realizedPnl` and keeps `tradePnl`. -/
def PaperPnLTracker.calculateRealizedPnl (fills : List PaperFillState)
    (orders : List PaperOrderState) : Except RealizedPnlError RealizedLedger :=
  fills.foldlM (RealizedLedger.take (Dict.ofItems PaperOrderState.orderId id orders).get?) {}

/-! ### The reporting marts -/

/-- A trade event, as the marts read it. -/
structure TradeEvent where
  timestamp : Datetime
  symbol : String
  side : String
  quantity : Decimal
  price : Decimal
  deriving DecidableEq

/-- What `_realized_trade_pnl` raises. -/
inductive TradePnlError
  /-- `ValueError`: "Sell quantity exceeds collected position for {symbol}" -/
  | sellExceedsCollected (symbol : String)
  /-- `ValueError`: "Unsupported trade side: {side}" -/
  | unsupportedSide (side : String)
  /-- The division by a quantity of zero. -/
  | divisionByZero
  deriving DecidableEq

/-- The variables of the loop of `_realized_trade_pnl`. -/
structure CollectedLedger where
  positions : Dict String (Holding Decimal) := .empty
  realized : List (Datetime × Decimal) := []

namespace CollectedLedger

/-- What is held of a symbol, and its average. -/
def held (ledger : CollectedLedger) (symbol : String) : Holding Decimal :=
  (ledger.positions.get? symbol).getD ⟨0, 0⟩

def bought (ledger : CollectedLedger) (trade : TradeEvent) : CollectedLedger :=
  let ⟨held, average⟩ := ledger.held trade.symbol
  let newHeld := held + trade.quantity
  let newAverage := (held * average + trade.quantity * trade.price) / newHeld
  { ledger with positions := ledger.positions.set trade.symbol ⟨newHeld, newAverage⟩ }

def sold (ledger : CollectedLedger) (trade : TradeEvent) : CollectedLedger :=
  let ⟨held, average⟩ := ledger.held trade.symbol
  let newAverage := if held > trade.quantity then average else 0
  { positions := ledger.positions.set trade.symbol ⟨held - trade.quantity, newAverage⟩
    realized := ledger.realized ++ [(trade.timestamp, trade.quantity * (trade.price - average))] }

/-- A turn of the loop of `_realized_trade_pnl`. -/
def take (ledger : CollectedLedger) (trade : TradeEvent) : Except TradePnlError CollectedLedger :=
  if trade.side.toUpper = "BUY" then
    if (ledger.held trade.symbol).quantity + trade.quantity = 0 then .error .divisionByZero
    else .ok (ledger.bought trade)
  else if trade.side.toUpper = "SELL" then
    if trade.quantity > (ledger.held trade.symbol).quantity then
      .error (.sellExceedsCollected trade.symbol)
    else .ok (ledger.sold trade)
  else .error (.unsupportedSide trade.side)

end CollectedLedger

/-- `_realized_trade_pnl`: it returns `realized`. -/
def MartETL.realizedTradePnl (trades : List TradeEvent) : Except TradePnlError CollectedLedger :=
  trades.foldlM CollectedLedger.take {}

end CryptoTrading
