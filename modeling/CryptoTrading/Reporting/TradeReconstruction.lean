import CryptoTrading.Backtest.BacktestEngine

/-! The two reports that reconstruct the trades of a backtest from its fills: the attribution report
from the audit rows, and the entry-funnel report from the result. -/

namespace CryptoTrading

open Kit

/-- `text or "UNKNOWN"`: an empty text counts as missing. -/
def orUnknown (text : Option String) : String :=
  match text with
  | none => "UNKNOWN"
  | some text => if text = "" then "UNKNOWN" else text

/-! ### `backtest_attribution.py` -/

def quantityReconciliationTolerance : Decimal := 1 / 10 ^ 17

/-- The entries of an audit row's signal that the report reads. -/
structure RowSignal where
  regime : Option String
  reason : Option String

/-- A fill joined to its order. -/
structure AuditRow where
  symbol : String
  side : String
  quantity : Decimal
  price : Decimal
  commission : Decimal
  fillTime : Datetime
  signal : Option RowSignal

structure ClosedTrade where
  symbol : String
  entryTime : Datetime
  exitTime : Datetime
  entryRegime : String
  exitReason : String
  quantity : Decimal
  entryPrice : Decimal
  exitPrice : Decimal
  entryCommission : Decimal
  exitCommission : Decimal
  pnl : Decimal

/-- `_OpenPosition`. -/
structure OpenPosition where
  quantity : Decimal
  entryPrice : Decimal
  entryCommission : Decimal
  entryTime : Datetime
  entryRegime : String

/-- The `ValueError`s of `reconstruct_closed_trades`. -/
inductive AttributionError
  /-- "Invalid non-positive position quantity after buy" -/
  | nonPositiveQuantity
  /-- "Unsupported fill side: {side}" -/
  | unsupportedSide (side : String)
  /-- "Sell fill without an open spot position" -/
  | sellWithoutPosition
  /-- "Partial/oversized sell is not supported by current backtest attribution: sell={sell}
  position={position} delta={delta}" -/
  | partialSell (sell position delta : Decimal)
  /-- "Audit contains an open position without a closing fill" -/
  | openAtEnd

namespace AuditRow

variable (row : AuditRow)

def regime : String := orUnknown (row.signal.bind RowSignal.regime)

def reason : String := orUnknown (row.signal.bind RowSignal.reason)

/-- The position of a first buy. -/
def position : OpenPosition :=
  { quantity := row.quantity, entryPrice := row.price, entryCommission := row.commission
    entryTime := row.fillTime, entryRegime := row.regime }

/-- The position after another buy. -/
def addTo (position : OpenPosition) : OpenPosition :=
  { position with
    entryPrice := (position.entryPrice * position.quantity + row.price * row.quantity) /
      (position.quantity + row.quantity)
    quantity := position.quantity + row.quantity
    entryCommission := position.entryCommission + row.commission }

/-- The trade that a sell closes. -/
def close (position : OpenPosition) : ClosedTrade :=
  { symbol := row.symbol, entryTime := position.entryTime, exitTime := row.fillTime
    entryRegime := position.entryRegime, exitReason := row.reason, quantity := position.quantity
    entryPrice := position.entryPrice, exitPrice := row.price
    entryCommission := position.entryCommission, exitCommission := row.commission
    pnl := (row.price - position.entryPrice) * position.quantity - position.entryCommission -
      row.commission }

end AuditRow

/-- The variables of the loop of `reconstruct_closed_trades`. -/
structure Attribution where
  position : Option OpenPosition := none
  trades : List ClosedTrade := []

/-- A turn of the loop of `reconstruct_closed_trades`. -/
def Attribution.row (state : Attribution) (row : AuditRow) : Except AttributionError Attribution :=
  let side := row.side.toLower
  if side = "buy" then
    match state.position with
    | none => .ok { state with position := some row.position }
    | some position =>
      if position.quantity + row.quantity ≤ 0 then .error .nonPositiveQuantity
      else .ok { state with position := some (row.addTo position) }
  else if side ≠ "sell" then .error (.unsupportedSide side)
  else
    match state.position with
    | none => .error .sellWithoutPosition
    | some position =>
      let delta := |row.quantity - position.quantity|
      if delta > quantityReconciliationTolerance then
        .error (.partialSell row.quantity position.quantity delta)
      else .ok ⟨none, state.trades ++ [row.close position]⟩

/-- `reconstruct_closed_trades`. -/
def reconstructClosedTrades (rows : List AuditRow) : Except AttributionError (List ClosedTrade) := do
  let state ← rows.foldlM Attribution.row {}
  if state.position.isSome then .error .openAtEnd else .ok state.trades

/-- The row of a fill and its order. -/
def auditRow (fill : Fill) (order : Order) : AuditRow :=
  { symbol := fill.symbol, side := fill.side.text, quantity := fill.quantity, price := fill.price
    commission := fill.commission, fillTime := fill.timestamp
    signal := some ⟨order.signal.regime, some order.signal.reason⟩ }

/-- The fills of a run in their order, each joined to the order that it names. -/
def auditRows (result : BacktestResult) : List AuditRow :=
  result.fills.filterMap fun fill =>
    (result.orders.find? fun order => order.orderId = fill.orderId).map (auditRow fill)

/-! ### `v2_entry_funnel.py` -/

def pnlTolerance : Decimal := 1 / 10 ^ 12

def qtyTolerance : Decimal := 1 / 10 ^ 17

structure ReconstructedTrade where
  entrySignalTime : Datetime
  entryFillTime : Datetime
  exitTime : Datetime
  pnl : Decimal
  exitReason : String

/-- What `_reconstruct_trades` raises. -/
inductive FunnelError
  /-- "Fill has no matching signal: {order_id}" -/
  | noSignal (orderId : String)
  /-- "Unsupported fill side: {side}" -/
  | unsupportedSide (side : String)
  /-- "Sell fill without open position" -/
  | sellWithoutPosition
  /-- "Unexpected partial sell: sell={sell} position={position}" -/
  | partialSell (sell position : Decimal)
  /-- "Backtest ended with unreconciled open position" -/
  | openAtEnd
  /-- "Trade reconciliation failed: reconstructed={reconstructed} expected={expected}" -/
  | tradeCount (reconstructed expected : ℕ)
  /-- "PnL reconciliation failed: reconstructed={reconstructed} expected={expected}" -/
  | pnl (reconstructed expected : Decimal)
  /-- `DivisionByZero` -/
  | divisionByZero

/-- The variables of the loop of `_reconstruct_trades`. -/
structure Funnel where
  quantity : Decimal := 0
  weightedEntry : Decimal := 0
  entryCommission : Decimal := 0
  entrySignalTime : Option Datetime := none
  entryFillTime : Option Datetime := none
  records : List ReconstructedTrade := []

namespace Funnel

/-- A buy of a loop turn, of an order with this signal. -/
def buy (state : Funnel) (signal : Signal) (fill : Fill) : Except FunnelError Funnel :=
  if state.quantity = 0 then
    .ok { state with
      quantity := fill.quantity, weightedEntry := fill.price, entryCommission := fill.commission
      entrySignalTime := some signal.timestamp, entryFillTime := some fill.timestamp }
  else
    let totalQty := state.quantity + fill.quantity
    if totalQty = 0 then .error .divisionByZero
    else .ok { state with
      quantity := totalQty
      weightedEntry := (state.weightedEntry * state.quantity + fill.price * fill.quantity) / totalQty
      entryCommission := state.entryCommission + fill.commission }

/-- A sell of a loop turn. -/
def sell (state : Funnel) (signal : Signal) (fill : Fill) : Except FunnelError Funnel :=
  if state.quantity ≤ 0 then .error .sellWithoutPosition
  else
    match state.entrySignalTime, state.entryFillTime with
    | some entrySignalTime, some entryFillTime =>
      if |fill.quantity - state.quantity| > qtyTolerance then
        .error (.partialSell fill.quantity state.quantity)
      else
        let pnl := (fill.price - state.weightedEntry) * state.quantity - state.entryCommission -
          fill.commission
        .ok { records := state.records ++
          [⟨entrySignalTime, entryFillTime, fill.timestamp, pnl, orUnknown (some signal.reason)⟩] }
    | _, _ => .error .sellWithoutPosition

/-- A turn of the loop of `_reconstruct_trades`. -/
def fill (signalByOrder : Dict String Signal) (state : Funnel) (fill : Fill) :
    Except FunnelError Funnel :=
  match signalByOrder.get? fill.orderId with
  | none => .error (.noSignal fill.orderId)
  | some signal =>
    let side := fill.side.text.toLower
    if side = "buy" then state.buy signal fill
    else if side ≠ "sell" then .error (.unsupportedSide side)
    else state.sell signal fill

end Funnel

/-- `_reconstruct_trades`. -/
def reconstructTrades (backtest : BacktestResult) :
    Except FunnelError (List ReconstructedTrade) := do
  let state ← backtest.fills.foldlM
    (Funnel.fill (.ofItems Order.orderId Order.signal backtest.orders)) {}
  let pnl := (state.records.map ReconstructedTrade.pnl).sum
  if state.quantity ≠ 0 then .error .openAtEnd
  else if state.records.length ≠ backtest.totalTrades then
    .error (.tradeCount state.records.length backtest.totalTrades)
  else if |pnl - backtest.totalPnl| > pnlTolerance then .error (.pnl pnl backtest.totalPnl)
  else .ok state.records

end CryptoTrading
