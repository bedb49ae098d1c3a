import CryptoTrading.Models
import Mathlib.Algebra.Order.Ring.Rat

/-! The paper execution engine: it accepts market events, fills orders at the market price, and
restores its state from the loads of a repository.  Its background writes are in
`Exchange.PendingWrites`; `execute` returns the records that it hands to them. -/

namespace CryptoTrading

open Kit

inductive OrderSide
  | buy
  | sell
  deriving DecidableEq, Repr

/-- The string value of a side. -/
def OrderSide.value : OrderSide → String
  | .buy => "BUY"
  | .sell => "SELL"

/-- `OrderSide(value)`, or `none` where it raises `ValueError`. -/
def OrderSide.ofValue? (value : String) : Option OrderSide :=
  if value = "BUY" then some .buy else if value = "SELL" then some .sell else none

@[simp] theorem OrderSide.ofValue?_value (side : OrderSide) :
    OrderSide.ofValue? side.value = some side := by
  cases side <;> decide

inductive ExecutionStatus
  | filled
  deriving DecidableEq, Repr

def ExecutionStatus.value : ExecutionStatus → String
  | .filled => "FILLED"

structure ExecutionRequest where
  symbol : String
  side : OrderSide
  quantity : Decimal
  deriving DecidableEq

structure ExecutionResult where
  status : ExecutionStatus
  symbol : String
  side : OrderSide
  quantity : Decimal
  price : Decimal
  deriving DecidableEq

/-- What `PaperExecutionEngine.execute` raises. -/
inductive ExecutionError
  /-- `RuntimeError`: "Existing order {order_id} has unknown fill state" -/
  | unknownFillState (orderId : Identifier)
  /-- `KeyError`: a client order id that maps to no order -/
  | missingOrder (orderId : Identifier)
  /-- `ValueError`: a restored order whose side is neither "BUY" nor "SELL" -/
  | invalidSide (side : String)
  /-- `RuntimeError`: "No market candle available" -/
  | noMarketCandle
  /-- `ValueError`: "Sell quantity {quantity} exceeds position {held} for {symbol}" -/
  | sellExceedsPosition (quantity held : Decimal) (symbol : String)
  /-- `ValueError`: "quantity must be positive" -/
  | quantityNotPositive
  /-- `ValueError`: "market_price must be positive" -/
  | marketPriceNotPositive
  deriving DecidableEq

structure FillResult where
  quantity : Decimal
  price : Decimal
  executedAt : Datetime

/-- `FillSimulator.execute`: a fill of the whole quantity at the market price. -/
def FillSimulator.execute (quantity marketPrice : Decimal) (now : Datetime) :
    Except ExecutionError FillResult :=
  if quantity ≤ 0 then .error .quantityNotPositive
  else if marketPrice ≤ 0 then .error .marketPriceNotPositive
  else .ok ⟨quantity, marketPrice, now⟩

/-- The engine's state.  `uuids` counts the identities that `uuid4` has returned. -/
structure PaperExecutionEngine where
  lastCandle : Option Candle := none
  lastProcessedTimestamp : Option Datetime := none
  lastSequence : ℤ := 0
  cashBalance : Decimal := 0
  positions : Dict String PaperPositionState := .empty
  orders : Dict Identifier PaperOrderState := .empty
  fills : Dict Identifier PaperFillState := .empty
  clientOrders : Dict String Identifier := .empty
  uuids : ℕ := 0
  deriving DecidableEq

/-- The arguments of a call of `execute`, with the clock reading `now` that it makes. -/
structure ExecuteArguments where
  request : ExecutionRequest
  marketPrice : Option Decimal := none
  clientOrderId : Option String := none
  runId : Option String := none
  signalId : Option String := none
  now : Datetime
  deriving DecidableEq

/-- The order, fill and position that a new execution schedules for persistence. -/
structure Execution where
  order : PaperOrderState
  fill : PaperFillState
  position : PaperPositionState
  deriving DecidableEq

/-- What a call of `execute` that returns leaves: the result, the engine, and the records that it
schedules for persistence, if it executed anything. -/
structure Executed where
  result : ExecutionResult
  engine : PaperExecutionEngine
  scheduled : Option Execution
  deriving DecidableEq

namespace PaperExecutionEngine

/-- The quantity held of a symbol. -/
def heldQuantity (engine : PaperExecutionEngine) (symbol : String) : Decimal :=
  (engine.positions.get? symbol).elim 0 PaperPositionState.quantity

/-- The average price of the position in a symbol. -/
def heldPrice (engine : PaperExecutionEngine) (symbol : String) : Decimal :=
  (engine.positions.get? symbol).elim 0 PaperPositionState.averagePrice

/-- The engine after it accepts an event. -/
def accept (engine : PaperExecutionEngine) (event : MarketEvent) : PaperExecutionEngine :=
  { engine with
    lastSequence := event.sequence
    lastCandle := some event.candle
    lastProcessedTimestamp := some event.candle.openTime }

/-- `on_market_event`: whether the event is accepted, and the engine after it. -/
def onMarketEvent (engine : PaperExecutionEngine) (event : MarketEvent) :
    Except CandleError (Bool × PaperExecutionEngine) :=
  match event.candle.validate with
  | .error e => .error e
  | .ok () =>
    if event.sequence ≤ engine.lastSequence then .ok (false, engine)
    else if engine.lastProcessedTimestamp.any fun last => decide (event.candle.openTime ≤ last) then
      .ok (false, engine)
    else .ok (true, engine.accept event)

/-- The order that a client order id already has. -/
def duplicateOf (engine : PaperExecutionEngine) (clientOrderId : Option String) :
    Option Identifier :=
  clientOrderId.bind engine.clientOrders.get?

/-- The result of the order that a client order id already has. -/
def executeDuplicate (engine : PaperExecutionEngine) (orderId : Identifier) :
    Except ExecutionError ExecutionResult :=
  match engine.orders.get? orderId with
  | none => .error (.missingOrder orderId)
  | some order =>
    match engine.fills.values.find? fun item => decide (item.orderId = orderId) with
    | none => .error (.unknownFillState orderId)
    | some restoredFill =>
      match OrderSide.ofValue? order.side with
      | none => .error (.invalidSide order.side)
      | some side => .ok ⟨.filled, order.symbol, side, restoredFill.quantity, restoredFill.price⟩

/-- `market_price`, or the close of the last candle. -/
def marketPriceOf (engine : PaperExecutionEngine) (marketPrice : Option Decimal) :
    Except ExecutionError Decimal :=
  match marketPrice with
  | some price => .ok price
  | none =>
    match engine.lastCandle with
    | none => .error .noMarketCandle
    | some candle => .ok candle.close

/-- `client_order_id or str(uuid4())`, and the count of identities drawn after it. -/
def orderIdentity (clientOrderId : Option String) (uuids : ℕ) : Identifier × ℕ :=
  match clientOrderId with
  | none => (.uuid uuids, uuids + 1)
  | some id => if id = "" then (.uuid uuids, uuids + 1) else (.client id, uuids)

/-- The position after a fill, from the quantity and average price before it. -/
def positionAfter (request : ExecutionRequest) (fill : FillResult) (oldQty oldPrice : Decimal) :
    PaperPositionState :=
  match request.side with
  | .sell =>
    let newQty := oldQty - fill.quantity
    ⟨request.symbol, newQty, if newQty > 0 then oldPrice else 0⟩
  | .buy =>
    let newQty := oldQty + fill.quantity
    ⟨request.symbol, newQty,
      if oldQty = 0 then fill.price else (oldPrice * oldQty + fill.price * fill.quantity) / newQty⟩

/-- The order, fill and position of a new execution. -/
def executionOf (engine : PaperExecutionEngine) (args : ExecuteArguments) (fill : FillResult) :
    Execution :=
  let orderId := (orderIdentity args.clientOrderId engine.uuids).1
  { order :=
      { orderId, symbol := args.request.symbol, side := args.request.side.value
        quantity := fill.quantity, status := ExecutionStatus.filled.value, createdAt := args.now
        clientOrderId := args.clientOrderId, runId := args.runId, signalId := args.signalId }
    fill :=
      { fillId := .uuid (orderIdentity args.clientOrderId engine.uuids).2, orderId
        symbol := args.request.symbol, quantity := fill.quantity, price := fill.price
        executedAt := args.now, runId := args.runId, signalId := args.signalId }
    position := positionAfter args.request fill (engine.heldQuantity args.request.symbol)
      (engine.heldPrice args.request.symbol) }

/-- The engine after it records a new execution. -/
def record (engine : PaperExecutionEngine) (args : ExecuteArguments) (execution : Execution) :
    PaperExecutionEngine :=
  { engine with
    positions := engine.positions.set args.request.symbol execution.position
    orders := engine.orders.set execution.order.orderId execution.order
    fills := engine.fills.set execution.fill.fillId execution.fill
    clientOrders := match args.clientOrderId with
      | none => engine.clientOrders
      | some id => engine.clientOrders.set id execution.order.orderId
    uuids := (orderIdentity args.clientOrderId engine.uuids).2 + 1 }

/-- `execute`: a retry of a known client order id returns that order's result; any other request is
filled at the market price.  The cash balance plays no part in it. -/
def execute (engine : PaperExecutionEngine) (args : ExecuteArguments) :
    Except ExecutionError Executed :=
  match engine.duplicateOf args.clientOrderId with
  | some orderId => (engine.executeDuplicate orderId).map fun result => ⟨result, engine, none⟩
  | none =>
    match engine.marketPriceOf args.marketPrice with
    | .error e => .error e
    | .ok marketPrice =>
      let oldQty := engine.heldQuantity args.request.symbol
      if args.request.side = .sell ∧ args.request.quantity > oldQty then
        .error (.sellExceedsPosition args.request.quantity oldQty args.request.symbol)
      else
        match FillSimulator.execute args.request.quantity marketPrice args.now with
        | .error e => .error e
        | .ok fill =>
          if args.request.side = .sell ∧ fill.quantity > oldQty then
            .error (.sellExceedsPosition fill.quantity oldQty args.request.symbol)
          else
            let execution := engine.executionOf args fill
            .ok {
              result := ⟨.filled, args.request.symbol, args.request.side, fill.quantity, fill.price⟩
              engine := engine.record args execution
              scheduled := some execution }

/-! ### What a call can do -/

/-- An event that the engine takes: it is beyond the last sequence and the last open time. -/
structure Takes (engine : PaperExecutionEngine) (event : MarketEvent) : Prop where
  valid : event.candle.validate = .ok ()
  sequence : engine.lastSequence < event.sequence
  openTime : ∀ last, engine.lastProcessedTimestamp = some last → last < event.candle.openTime

theorem onMarketEvent_of_takes {engine : PaperExecutionEngine} {event : MarketEvent}
    (h : engine.Takes event) : engine.onMarketEvent event = .ok (true, engine.accept event) := by
  have hseq : ¬event.sequence ≤ engine.lastSequence := not_le.mpr h.sequence
  have htime : ¬(engine.lastProcessedTimestamp.any fun last =>
      decide (event.candle.openTime ≤ last)) = true := by
    rw [Option.any_eq_true]
    rintro ⟨last, hlast, hle⟩
    exact absurd (of_decide_eq_true hle) (not_le.mpr (h.openTime last hlast))
  rw [onMarketEvent, h.valid]
  simp only
  rw [if_neg hseq, if_neg htime]

theorem onMarketEvent_cases {engine engine' : PaperExecutionEngine} {event : MarketEvent}
    {accepted : Bool} (h : engine.onMarketEvent event = .ok (accepted, engine')) :
    (accepted = false ∧ engine' = engine ∧ ¬engine.Takes event) ∨
      (accepted = true ∧ engine' = engine.accept event ∧ engine.Takes event) := by
  unfold onMarketEvent at h
  split at h
  · cases h
  rename_i hvalid
  split at h
  · rename_i hseq
    cases h
    exact Or.inl ⟨rfl, rfl, fun ht => absurd ht.sequence (not_lt.mpr hseq)⟩
  rename_i hseq
  split at h
  · rename_i htime
    cases h
    obtain ⟨last, hlast, hle⟩ := (Option.any_eq_true _ _).mp htime
    exact Or.inl ⟨rfl, rfl, fun ht =>
      absurd (ht.openTime last hlast) (not_lt.mpr (of_decide_eq_true hle))⟩
  · rename_i htime
    cases h
    refine Or.inr ⟨rfl, rfl, hvalid, not_le.mp hseq, fun last hlast => not_le.mp fun hle => ?_⟩
    exact htime ((Option.any_eq_true _ _).mpr ⟨last, hlast, decide_eq_true hle⟩)

/-- A call that fills its request at `price`. -/
structure Fills (engine : PaperExecutionEngine) (args : ExecuteArguments) (price : Decimal) :
    Prop where
  new : engine.duplicateOf args.clientOrderId = none
  marketPrice : engine.marketPriceOf args.marketPrice = .ok price
  quantity_pos : 0 < args.request.quantity
  price_pos : 0 < price
  held : args.request.side = .sell →
    args.request.quantity ≤ engine.heldQuantity args.request.symbol

theorem Fills.lastClose {engine : PaperExecutionEngine} {args : ExecuteArguments} {price : Decimal}
    (h : engine.Fills args price) (hclose : args.marketPrice = none) :
    ∃ candle, engine.lastCandle = some candle ∧ candle.close = price := by
  have hmarket := h.marketPrice
  cases hlast : engine.lastCandle <;> simp [marketPriceOf, hclose, hlast] at hmarket
  exact ⟨_, rfl, hmarket⟩

/-- The records of a call that fills its request at `price`. -/
def executionAt (engine : PaperExecutionEngine) (args : ExecuteArguments) (price : Decimal) :
    Execution :=
  engine.executionOf args ⟨args.request.quantity, price, args.now⟩

/-- The outcome of a call that fills its request at `price`. -/
def filledAt (engine : PaperExecutionEngine) (args : ExecuteArguments) (price : Decimal) :
    Executed where
  result := ⟨.filled, args.request.symbol, args.request.side, args.request.quantity, price⟩
  engine := engine.record args (engine.executionAt args price)
  scheduled := some (engine.executionAt args price)

theorem execute_of_fills {engine : PaperExecutionEngine} {args : ExecuteArguments}
    {price : Decimal} (h : engine.Fills args price) :
    engine.execute args = .ok (engine.filledAt args price) := by
  have hheld : ¬(args.request.side = .sell ∧
      args.request.quantity > engine.heldQuantity args.request.symbol) :=
    fun ⟨hs, hq⟩ => absurd (h.held hs) (not_le.mpr hq)
  have hfill : FillSimulator.execute args.request.quantity price args.now =
      .ok ⟨args.request.quantity, price, args.now⟩ := by
    rw [FillSimulator.execute, if_neg (not_le.mpr h.quantity_pos), if_neg (not_le.mpr h.price_pos)]
  rw [execute, h.new]
  simp only [h.marketPrice, hheld, if_false, hfill]
  rfl

/-- A call that returns either repeats a known client order id and changes nothing, or fills its
request. -/
theorem execute_cases {engine : PaperExecutionEngine} {args : ExecuteArguments} {done : Executed}
    (h : engine.execute args = .ok done) :
    (∃ orderId, engine.duplicateOf args.clientOrderId = some orderId ∧
        engine.executeDuplicate orderId = .ok done.result ∧ done.engine = engine ∧
        done.scheduled = none) ∨
      ∃ price, engine.Fills args price ∧ done = engine.filledAt args price := by
  cases hdup : engine.duplicateOf args.clientOrderId with
  | some orderId =>
    simp only [execute, hdup] at h
    cases hres : engine.executeDuplicate orderId with
    | error e => rw [hres] at h; cases h
    | ok result => rw [hres] at h; cases h; exact Or.inl ⟨orderId, rfl, hres, rfl, rfl⟩
  | none =>
    simp only [execute, hdup] at h
    cases hprice : engine.marketPriceOf args.marketPrice with
    | error e => rw [hprice] at h; cases h
    | ok price =>
      rw [hprice] at h
      simp only [FillSimulator.execute] at h
      split at h
      · cases h
      rename_i hheld
      split at h
      · cases h
      rename_i fill hfill
      split at hfill
      · cases hfill
      rename_i hquantity
      split at hfill
      · cases hfill
      rename_i hpositive
      cases hfill
      rw [if_neg hheld] at h
      cases h
      refine Or.inr ⟨price, ⟨hdup, hprice, not_le.mp hquantity, not_le.mp hpositive, fun hs => ?_⟩,
        rfl⟩
      exact not_lt.mp fun hlt => hheld ⟨hs, hlt⟩

/-! ### The state after a fill -/

section Filled

variable (engine : PaperExecutionEngine) (args : ExecuteArguments) (price : Decimal)

@[simp] theorem filledAt_engine :
    (engine.filledAt args price).engine = engine.record args (engine.executionAt args price) := rfl

@[simp] theorem filledAt_scheduled :
    (engine.filledAt args price).scheduled = some (engine.executionAt args price) := rfl

@[simp] theorem record_cashBalance (execution : Execution) :
    (engine.record args execution).cashBalance = engine.cashBalance := rfl

@[simp] theorem record_lastSequence (execution : Execution) :
    (engine.record args execution).lastSequence = engine.lastSequence := rfl

@[simp] theorem record_lastCandle (execution : Execution) :
    (engine.record args execution).lastCandle = engine.lastCandle := rfl

@[simp] theorem record_lastProcessedTimestamp (execution : Execution) :
    (engine.record args execution).lastProcessedTimestamp = engine.lastProcessedTimestamp := rfl

theorem executionAt_symbol : (engine.executionAt args price).position.symbol =
    args.request.symbol := by
  cases hs : args.request.side <;> simp [executionAt, executionOf, positionAfter, hs]

theorem executionAt_quantity : (engine.executionAt args price).position.quantity =
    match args.request.side with
    | .buy => engine.heldQuantity args.request.symbol + args.request.quantity
    | .sell => engine.heldQuantity args.request.symbol - args.request.quantity := by
  cases hs : args.request.side <;> simp [executionAt, executionOf, positionAfter, hs]

theorem executionAt_fill_orderId : (engine.executionAt args price).fill.orderId =
    (engine.executionAt args price).order.orderId := rfl

end Filled

end PaperExecutionEngine

end CryptoTrading
