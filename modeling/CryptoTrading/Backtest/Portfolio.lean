import CryptoTrading.Models.Trading

/-! The virtual portfolio of a backtest: its positions, its cash, and the history of its trades. -/

namespace CryptoTrading

open Kit

/-- An intrabar exit detected from the prices of a candle. -/
structure ExitLevelEvent where
  symbol : String
  referencePrice : Decimal
  reason : String
  deriving DecidableEq

/-- An entry of `trade_history`. -/
inductive TradeEntry
  | opened (symbol side : String) (price quantity : Decimal) (timestamp : Datetime)
      (commission : Decimal)
  | closed (symbol side : String) (entryPrice exitPrice quantity pnl commission : Decimal)
      (entryTime exitTime : Datetime)
  deriving DecidableEq

/-- `Decimal(str(trade.get("pnl", "0")))`. -/
def TradeEntry.pnl : TradeEntry → Decimal
  | .opened .. => 0
  | .closed _ _ _ _ _ pnl _ _ _ => pnl

/-- `trade["type"] == "close"`. -/
def TradeEntry.isClose : TradeEntry → Bool
  | .opened .. => false
  | .closed .. => true

structure Portfolio where
  initialBalance : Decimal
  balance : Decimal
  positions : Dict String Position := .empty
  closedPositions : List Position := []
  tradeHistory : List TradeEntry := []
  equityHistory : List (Datetime × Decimal) := []
  maxDrawdown : Decimal := 0
  deriving DecidableEq

/-- The prices of a candle, as `check_intrabar_exits` takes them. -/
structure PriceRange where
  open_ : Decimal
  high : Decimal
  low : Decimal
  deriving DecidableEq

namespace Portfolio

def new (initialBalance : Decimal) : Portfolio := { initialBalance, balance := initialBalance }

def totalEquity (portfolio : Portfolio) : Decimal :=
  portfolio.balance + (portfolio.positions.values.map Position.positionValue).sum

def unrealizedPnl (portfolio : Portfolio) : Decimal :=
  (portfolio.positions.values.map Position.unrealizedPnl).sum

def realizedPnl (portfolio : Portfolio) : Decimal :=
  (portfolio.tradeHistory.map TradeEntry.pnl).sum

/-- The arguments of a call of `open_position`. -/
structure Opening where
  symbol : String
  side : String
  price : Decimal
  quantity : Decimal
  timestamp : Datetime
  stopLoss : Option Decimal := none
  takeProfit : Option Decimal := none
  commission : Decimal := 0

def Opening.cost (opening : Opening) : Decimal :=
  opening.price * opening.quantity + opening.commission

/-- The position of a first purchase. -/
def Opening.position (opening : Opening) : Position :=
  { symbol := opening.symbol, side := opening.side, entryPrice := opening.price
    quantity := opening.quantity, entryTime := opening.timestamp, stopLoss := opening.stopLoss
    takeProfit := opening.takeProfit, currentPrice := some opening.price
    entryCommission := opening.commission, highWaterMark := some opening.price }

/-- A position after a repeated purchase. -/
def Opening.addTo (opening : Opening) (position : Position) : Position :=
  let totalQuantity := position.quantity + opening.quantity
  { position with
    entryPrice := (position.entryPrice * position.quantity + opening.price * opening.quantity) /
      totalQuantity
    quantity := totalQuantity
    entryCommission := position.entryCommission + opening.commission
    currentPrice := some opening.price
    stopLoss := opening.stopLoss.or position.stopLoss
    takeProfit := opening.takeProfit.or position.takeProfit }.updateMarket opening.price
      (some opening.price)

def Opening.entry (opening : Opening) : TradeEntry :=
  .opened opening.symbol opening.side opening.price opening.quantity opening.timestamp
    opening.commission

/-- The portfolio after a purchase that it accepts. -/
def purchased (portfolio : Portfolio) (opening : Opening) : Portfolio :=
  { portfolio with
    balance := portfolio.balance - opening.cost
    positions := portfolio.positions.set opening.symbol
      (match portfolio.positions.get? opening.symbol with
        | none => opening.position
        | some position => opening.addTo position)
    tradeHistory := portfolio.tradeHistory ++ [opening.entry] }

/-- `open_position`. -/
def openPosition (portfolio : Portfolio) (opening : Opening) : Bool × Portfolio :=
  if opening.side ≠ "long" ∨ opening.quantity ≤ 0 then (false, portfolio)
  else if opening.cost > portfolio.balance then (false, portfolio)
  else (true, portfolio.purchased opening)

/-- What the sale of a whole position realizes. -/
def closingPnl (position : Position) (price commission : Decimal) : Decimal :=
  (price - position.entryPrice) * position.quantity - position.entryCommission - commission

def closingEntry (symbol : String) (position : Position) (price commission : Decimal)
    (timestamp : Datetime) : TradeEntry :=
  .closed symbol position.side position.entryPrice price position.quantity
    (closingPnl position price commission) commission position.entryTime timestamp

/-- The portfolio after the sale of a whole position. -/
def sold (portfolio : Portfolio) (symbol : String) (position : Position)
    (price commission : Decimal) (timestamp : Datetime) : Portfolio :=
  { portfolio with
    positions := portfolio.positions.erase symbol
    balance := portfolio.balance + (price * position.quantity - commission)
    tradeHistory := portfolio.tradeHistory ++
      [closingEntry symbol position price commission timestamp]
    closedPositions := portfolio.closedPositions ++
      [{ position with unrealizedPnl := closingPnl position price commission }] }

/-- `close_position`: what it realizes, and the portfolio after it. -/
def closePosition (portfolio : Portfolio) (symbol : String) (price : Decimal)
    (timestamp : Datetime) (commission : Decimal := 0) : Option Decimal × Portfolio :=
  match portfolio.positions.get? symbol with
  | none => (none, portfolio)
  | some position =>
    (some (closingPnl position price commission),
      portfolio.sold symbol position price commission timestamp)

/-- The positions marked at the prices that are given. -/
def marked (positions : Dict String Position) (prices highs : Dict String Decimal) :
    Dict String Position :=
  positions.mapValues fun symbol position =>
    match prices.get? symbol with
    | none => position
    | some price => position.updateMarket price (highs.get? symbol)

/-- `update_positions`. -/
def updatePositions (portfolio : Portfolio) (prices : Dict String Decimal) (timestamp : Datetime)
    (highs : Dict String Decimal := .empty) : Portfolio :=
  let updated := { portfolio with positions := marked portfolio.positions prices highs }
  { updated with equityHistory := updated.equityHistory ++ [(timestamp, updated.totalEquity)] }

/-- The exit of a position at the prices of a candle: the stop wins where both levels are touched. -/
def exitEvent (symbol : String) (position : Position) (candle : PriceRange) :
    Option ExitLevelEvent :=
  match position.stopLoss.filter fun stop => decide (candle.low ≤ stop) with
  | some stop =>
    if candle.open_ ≤ stop then some ⟨symbol, candle.open_, "Stop-loss hit on gap"⟩
    else some ⟨symbol, stop, "Stop-loss hit"⟩
  | none =>
    (position.takeProfit.filter fun take => decide (candle.high ≥ take)).map fun take =>
      ⟨symbol, take, "Take-profit hit"⟩

/-- `check_intrabar_exits`. -/
def checkIntrabarExits (portfolio : Portfolio) (candles : Dict String PriceRange) :
    List ExitLevelEvent :=
  portfolio.positions.entries.filterMap fun entry =>
    match candles.get? entry.1 with
    | none => none
    | some candle => if entry.2.side ≠ "long" then none else exitEvent entry.1 entry.2 candle

/-- `get_position`. -/
def getPosition (portfolio : Portfolio) (symbol : String) : Option Position :=
  portfolio.positions.get? symbol

@[simp] theorem realizedPnl_purchased (portfolio : Portfolio) (opening : Opening) :
    (portfolio.purchased opening).realizedPnl = portfolio.realizedPnl := by
  simp [purchased, realizedPnl, Opening.entry, TradeEntry.pnl]

@[simp] theorem realizedPnl_sold (portfolio : Portfolio) (symbol : String) (position : Position)
    (price commission : Decimal) (timestamp : Datetime) :
    (portfolio.sold symbol position price commission timestamp).realizedPnl =
      portfolio.realizedPnl + closingPnl position price commission := by
  simp [sold, realizedPnl, closingEntry, TradeEntry.pnl]

@[simp] theorem realizedPnl_updatePositions (portfolio : Portfolio) (prices : Dict String Decimal)
    (timestamp : Datetime) (highs : Dict String Decimal) :
    (portfolio.updatePositions prices timestamp highs).realizedPnl = portfolio.realizedPnl := rfl

theorem get?_marked (positions : Dict String Position) (prices highs : Dict String Decimal)
    (symbol : String) : (marked positions prices highs).get? symbol =
      (positions.get? symbol).map fun position =>
        match prices.get? symbol with
        | none => position
        | some price => position.updateMarket price (highs.get? symbol) :=
  Dict.get?_mapValues _ _ _

/-! ### What the operations can do -/

/-- A call of `open_position` that is accepted. -/
structure Affords (portfolio : Portfolio) (opening : Opening) : Prop where
  side : opening.side = "long"
  quantity_pos : 0 < opening.quantity
  cost : opening.cost ≤ portfolio.balance

theorem openPosition_of_affords {portfolio : Portfolio} {opening : Opening}
    (h : portfolio.Affords opening) :
    portfolio.openPosition opening = (true, portfolio.purchased opening) := by
  rw [openPosition, if_neg, if_neg (not_lt.mpr h.cost)]
  rintro (hside | hquantity)
  · exact hside h.side
  · exact absurd h.quantity_pos (not_lt.mpr hquantity)

theorem openPosition_of_not_affords {portfolio : Portfolio} {opening : Opening}
    (h : ¬portfolio.Affords opening) : portfolio.openPosition opening = (false, portfolio) := by
  unfold openPosition
  split
  · rfl
  · rename_i hrequest
    push Not at hrequest
    exact if_pos (not_le.mp fun hcost => h ⟨hrequest.1, hrequest.2, hcost⟩)

end Portfolio

end CryptoTrading
