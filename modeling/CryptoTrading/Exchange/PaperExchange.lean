import CryptoTrading.Exchange.EngineRecords

/-! The paper exchange: orders that are placed, executed and cancelled, with a repository whose writes may
raise at any of them.  Neither `execute_order` nor `cancel_order` looks at the status of the order, and the
engine has filled an order before the repository is asked to save the fill. -/

namespace CryptoTrading

open Kit

/-- The values of an order's `"status"`. -/
inductive PaperOrderStatus
  | new
  | filled
  | canceled
  deriving DecidableEq, Repr

def PaperOrderStatus.value : PaperOrderStatus → String
  | .new => "NEW"
  | .filled => "FILLED"
  | .canceled => "CANCELED"

/-- The status of an order whose execution has this one. -/
def ExecutionStatus.orderStatus : ExecutionStatus → PaperOrderStatus
  | .filled => .filled

theorem ExecutionStatus.value_orderStatus (status : ExecutionStatus) :
    status.orderStatus.value = status.value := by
  cases status
  rfl

structure PaperOrder where
  orderId : Identifier
  clientOrderId : String
  symbol : String
  side : String
  quantity : Decimal
  price : Option Decimal
  status : PaperOrderStatus
  createdAt : Datetime
  deriving DecidableEq

/-- The record that `execute_order` saves. -/
structure PaperFill where
  fillId : Identifier
  orderId : Identifier
  symbol : String
  side : String
  quantity : Decimal
  price : Decimal
  commission : Decimal
  status : PaperOrderStatus
  executedAt : Datetime
  deriving DecidableEq

/-- The orders and executions of a `PaperState`. -/
structure PaperState where
  orders : Dict Identifier PaperOrder := .empty
  executions : List PaperFill := []
  deriving DecidableEq

structure PaperRepository where
  orders : List PaperOrder := []
  fills : List PaperFill := []
  deriving DecidableEq

namespace PaperRepository

def saveOrder (repository : PaperRepository) (order : PaperOrder) : PaperRepository :=
  { repository with orders := repository.orders ++ [order] }

/-- The first order with the id replaced, or the order appended. -/
def updated (order : PaperOrder) : List PaperOrder → List PaperOrder
  | [] => [order]
  | existing :: rest =>
    if existing.orderId = order.orderId then order :: rest else existing :: updated order rest

def updateOrder (repository : PaperRepository) (order : PaperOrder) : PaperRepository :=
  { repository with orders := updated order repository.orders }

def saveFill (repository : PaperRepository) (fill : PaperFill) : PaperRepository :=
  { repository with fills := repository.fills ++ [fill] }

end PaperRepository

/-- What becomes of a write: it returns, or it raises, with the write made or not. -/
inductive ExchangeWrite
  | returned
  | raised (made : Bool)
  deriving DecidableEq

/-- The repository that a write leaves. -/
def ExchangeWrite.leaves (write : ExchangeWrite) (before after : PaperRepository) :
    PaperRepository :=
  match write with
  | .returned | .raised true => after
  | .raised false => before

inductive ExchangeError
  /-- `KeyError`: no order has the id -/
  | unknownOrder (orderId : Identifier)
  /-- `ValueError` of `OrderSide(order["side"])` -/
  | invalidSide (side : String)
  | execution (error : ExecutionError)
  /-- what the write raises -/
  | repository
  deriving DecidableEq

/-- What a call returns: an order, or the record of an execution. -/
inductive ExchangeAnswer
  | order (order : PaperOrder)
  | fill (fill : PaperFill)
  deriving DecidableEq

structure PaperExchange where
  state : PaperState := {}
  engine : PaperExecutionEngine := {}
  repository : PaperRepository := {}
  deriving DecidableEq

/-- The calls, with the clock readings that they make and what becomes of their writes.  Nothing reads the
type of an order. -/
inductive ExchangeCall
  | placeOrder (symbol side : String) (quantity : Decimal) (clientOrderId : String)
      (price : Option Decimal) (createdAt : Datetime) (saveOrder : ExchangeWrite)
  | executeOrder (orderId : Identifier) (marketPrice : Decimal) (now executedAt : Datetime)
      (saveFill updateOrder : ExchangeWrite)
  | cancelOrder (orderId : Identifier) (updateOrder : ExchangeWrite)
  deriving DecidableEq

/-- The exchange that a call leaves, and what it returns or raises. -/
structure ExchangeOutcome where
  exchange : PaperExchange
  answer : Except ExchangeError ExchangeAnswer

/-- The engine after one more `uuid4`. -/
def PaperExecutionEngine.drawUuid (engine : PaperExecutionEngine) : PaperExecutionEngine :=
  { engine with uuids := engine.uuids + 1 }

namespace PaperExchange

/-- `place_order`. -/
def placeOrder (exchange : PaperExchange) (symbol side : String) (quantity : Decimal)
    (clientOrderId : String) (price : Option Decimal) (createdAt : Datetime)
    (saveOrder : ExchangeWrite) : ExchangeOutcome :=
  let orderId := .uuid exchange.engine.uuids
  let order : PaperOrder :=
    { orderId, clientOrderId, symbol, side, quantity, price, status := .new, createdAt }
  let saved := { exchange with
    engine := exchange.engine.drawUuid
    repository := saveOrder.leaves exchange.repository (exchange.repository.saveOrder order) }
  match saveOrder with
  | .raised _ => ⟨saved, .error .repository⟩
  | .returned =>
    ⟨{ saved with state.orders := exchange.state.orders.set orderId order }, .ok (.order order)⟩

/-- The request that an order becomes. -/
def requestOf (order : PaperOrder) (side : OrderSide) (marketPrice : Decimal) (now : Datetime) :
    ExecuteArguments where
  request := ⟨order.symbol, side, order.quantity⟩
  marketPrice := some marketPrice
  now := now

/-- The writes of `execute_order`, once the engine has executed the order. -/
def recordExecution (exchange : PaperExchange) (orderId : Identifier) (order : PaperOrder)
    (result : ExecutionResult) (executedAt : Datetime) (saveFill updateOrder : ExchangeWrite) :
    ExchangeOutcome :=
  let record : PaperFill :=
    { fillId := .uuid exchange.engine.uuids, orderId, symbol := result.symbol
      side := result.side.value, quantity := result.quantity, price := result.price
      commission := 0, status := result.status.orderStatus, executedAt }
  let updatedOrder := { order with status := result.status.orderStatus, price := some result.price }
  let saved := saveFill.leaves exchange.repository (exchange.repository.saveFill record)
  let drawn := { exchange with engine := exchange.engine.drawUuid }
  match saveFill with
  | .raised _ => ⟨{ drawn with repository := saved }, .error .repository⟩
  | .returned =>
    let updated := { drawn with
      repository := updateOrder.leaves saved (saved.updateOrder updatedOrder) }
    match updateOrder with
    | .raised _ => ⟨updated, .error .repository⟩
    | .returned =>
      ⟨{ updated with state :=
          { orders := exchange.state.orders.set orderId updatedOrder
            executions := exchange.state.executions ++ [record] } }, .ok (.fill record)⟩

/-- `execute_order`. -/
def executeOrder (exchange : PaperExchange) (orderId : Identifier) (marketPrice : Decimal)
    (now executedAt : Datetime) (saveFill updateOrder : ExchangeWrite) : ExchangeOutcome :=
  match exchange.state.orders.get? orderId with
  | none => ⟨exchange, .error (.unknownOrder orderId)⟩
  | some order =>
    match OrderSide.ofValue? order.side with
    | none => ⟨exchange, .error (.invalidSide order.side)⟩
    | some side =>
      match exchange.engine.execute (requestOf order side marketPrice now) with
      | .error error => ⟨exchange, .error (.execution error)⟩
      | .ok done =>
        recordExecution { exchange with engine := done.engine } orderId order done.result executedAt
          saveFill updateOrder

/-- `cancel_order`. -/
def cancelOrder (exchange : PaperExchange) (orderId : Identifier) (updateOrder : ExchangeWrite) :
    ExchangeOutcome :=
  match exchange.state.orders.get? orderId with
  | none => ⟨exchange, .error (.unknownOrder orderId)⟩
  | some existing =>
    let order := { existing with status := .canceled }
    let updated := { exchange with
      repository := updateOrder.leaves exchange.repository (exchange.repository.updateOrder order) }
    match updateOrder with
    | .raised _ => ⟨updated, .error .repository⟩
    | .returned =>
      ⟨{ updated with state.orders := exchange.state.orders.set orderId order }, .ok (.order order)⟩

def perform (exchange : PaperExchange) : ExchangeCall → ExchangeOutcome
  | .placeOrder symbol side quantity clientOrderId price createdAt saveOrder =>
    exchange.placeOrder symbol side quantity clientOrderId price createdAt saveOrder
  | .executeOrder orderId marketPrice now executedAt saveFill updateOrder =>
    exchange.executeOrder orderId marketPrice now executedAt saveFill updateOrder
  | .cancelOrder orderId updateOrder => exchange.cancelOrder orderId updateOrder

/-- The status of an order of the exchange. -/
def statusOf (exchange : PaperExchange) (orderId : Identifier) : Option PaperOrderStatus :=
  (exchange.state.orders.get? orderId).map PaperOrder.status

/-- The engine would fill the order at the price. -/
def Fillable (exchange : PaperExchange) (orderId : Identifier) (marketPrice : Decimal)
    (now : Datetime) : Prop :=
  ∃ order side, exchange.state.orders.get? orderId = some order ∧
    OrderSide.ofValue? order.side = some side ∧
    exchange.engine.Fills (requestOf order side marketPrice now) marketPrice

/-- The engine's records and the statuses of the orders are as they were. -/
structure Unchanged (before after : PaperExchange) : Prop where
  positions : after.engine.positions = before.engine.positions
  orders : after.engine.orders = before.engine.orders
  fills : after.engine.fills = before.engine.fills
  status : ∀ orderId, after.statusOf orderId = before.statusOf orderId

end PaperExchange

/-- A call, with the exchange that it is made on. -/
structure ExchangeTurn where
  before : PaperExchange
  call : ExchangeCall

namespace ExchangeTurn

variable (turn : ExchangeTurn)

def outcome : ExchangeOutcome := turn.before.perform turn.call

def after : PaperExchange := turn.outcome.exchange

/-- The order that the call fills in the engine: it executes the order, and the engine's fills are no
longer what they were. -/
def fills? : Option Identifier :=
  match turn.call with
  | .executeOrder orderId .. =>
    if turn.after.engine.fills = turn.before.engine.fills then none else some orderId
  | _ => none

/-- The order that the call cancels, if it returns. -/
def cancels? : Option Identifier :=
  match turn.call, turn.outcome.answer with
  | .cancelOrder orderId _, .ok _ => some orderId
  | _, _ => none

/-- An `execute_order` that raises. -/
def FailsToExecute : Prop :=
  ∃ orderId marketPrice now executedAt saveFill updateOrder error,
    turn.call = .executeOrder orderId marketPrice now executedAt saveFill updateOrder ∧
      turn.outcome.answer = .error error

end ExchangeTurn

namespace PaperExchange

/-- The turns of a sequence of calls. -/
def turns (exchange : PaperExchange) : List ExchangeCall → List ExchangeTurn
  | [] => []
  | call :: calls => ⟨exchange, call⟩ :: turns (exchange.perform call).exchange calls

/-- The exchange after a sequence of calls. -/
def performAll (exchange : PaperExchange) (calls : List ExchangeCall) : PaperExchange :=
  calls.foldl (fun exchange call => (exchange.perform call).exchange) exchange

theorem turns_append_singleton (exchange : PaperExchange) (calls : List ExchangeCall)
    (call : ExchangeCall) :
    exchange.turns (calls ++ [call]) = exchange.turns calls ++ [⟨exchange.performAll calls, call⟩] := by
  induction calls generalizing exchange with
  | nil => rfl
  | cons first calls ih =>
    rw [List.cons_append, turns, ih, turns, List.cons_append]
    rfl

theorem performAll_append_singleton (exchange : PaperExchange) (calls : List ExchangeCall)
    (call : ExchangeCall) :
    exchange.performAll (calls ++ [call]) = ((exchange.performAll calls).perform call).exchange := by
  rw [performAll, List.foldl_append]
  rfl

end PaperExchange

/-- The lifecycle of the orders over a sequence of turns. -/
structure OrderLifecycle (turns : List ExchangeTurn) : Prop where
  filledOnce : turns.Pairwise fun earlier later =>
    ∀ orderId, earlier.fills? = some orderId → later.fills? ≠ some orderId
  unfilledOnceCanceled : turns.Pairwise fun earlier later =>
    ∀ orderId, earlier.cancels? = some orderId → later.fills? ≠ some orderId
  uncanceledOnceFilled : turns.Pairwise fun earlier later =>
    ∀ orderId, earlier.fills? = some orderId → later.after.statusOf orderId ≠ some .canceled
  atomic : ∀ turn ∈ turns, turn.FailsToExecute → turn.before.Unchanged turn.after

namespace PaperExecutionEngine

theorem WellFormed.drawUuid {engine : PaperExecutionEngine} (h : engine.WellFormed) :
    engine.drawUuid.WellFormed where
  orderIds := h.orderIds
  fillIds := h.fillIds
  symbols := h.symbols
  clients := h.clients
  orderDrawn n hn := (h.orderDrawn n hn).trans (Nat.lt_succ_self _)
  fillDrawn id hid := by
    obtain ⟨n, hn, rfl⟩ := h.fillDrawn id hid
    exact ⟨n, hn.trans (Nat.lt_succ_self _), rfl⟩

end PaperExecutionEngine

namespace PaperExchange

variable {exchange : PaperExchange}

/-- The ids of the orders have been drawn, and the engine's records are well formed. -/
structure WellFormed (exchange : PaperExchange) : Prop where
  engine : exchange.engine.WellFormed
  drawn : ∀ orderId, (exchange.statusOf orderId).isSome →
    ∃ n < exchange.engine.uuids, orderId = .uuid n

/-- What `perform` has to meet for the lifecycle to be kept: an order that the engine would fill is new,
and the writes after it return; no order that is filled is cancelled. -/
def Orderly (exchange : PaperExchange) : ExchangeCall → Prop
  | .placeOrder .. => True
  | .executeOrder orderId marketPrice now _ saveFill updateOrder =>
    exchange.Fillable orderId marketPrice now →
      exchange.statusOf orderId = some .new ∧ saveFill = .returned ∧ updateOrder = .returned
  | .cancelOrder orderId updateOrder =>
    updateOrder = .returned → exchange.statusOf orderId ≠ some .filled

/-! ### What a call can do -/

theorem statusOf_eq {orderId : Identifier} {order : Option PaperOrder}
    (h : exchange.state.orders.get? orderId = order) :
    exchange.statusOf orderId = order.map PaperOrder.status := congrArg (Option.map _) h

theorem statusOf_set (state : PaperState) (engine : PaperExecutionEngine)
    (repository : PaperRepository) (orderId other : Identifier) (order : PaperOrder)
    (executions : List PaperFill) :
    statusOf ⟨⟨state.orders.set orderId order, executions⟩, engine, repository⟩ other =
      if orderId = other then some order.status
      else statusOf ⟨state, engine, repository⟩ other := by
  rw [statusOf, statusOf, Dict.get?_set]
  split <;> rfl

theorem WellFormed.undrawn (h : exchange.WellFormed) :
    exchange.statusOf (.uuid exchange.engine.uuids) = none := by
  cases hstatus : exchange.statusOf (.uuid exchange.engine.uuids) with
  | none => rfl
  | some status =>
    obtain ⟨n, hn, heq⟩ := h.drawn _ (by rw [hstatus]; rfl)
    cases heq
    exact absurd hn (lt_irrefl _)

section Execute

variable {orderId : Identifier} {marketPrice : Decimal} {now : Datetime} (executedAt : Datetime)
  (saveFill updateOrder : ExchangeWrite)

/-- An order that the engine would not fill is not executed, and nothing changes. -/
theorem executeOrder_of_not_fillable (h : ¬ exchange.Fillable orderId marketPrice now) :
    ∃ error, exchange.executeOrder orderId marketPrice now executedAt saveFill updateOrder =
      ⟨exchange, .error error⟩ := by
  unfold executeOrder
  split
  · exact ⟨_, rfl⟩
  rename_i order horder
  split
  · exact ⟨_, rfl⟩
  rename_i side hside
  split
  · exact ⟨_, rfl⟩
  rename_i done hdone
  rcases PaperExecutionEngine.execute_cases hdone with ⟨id, hduplicate, -⟩ | ⟨price, hfills, -⟩
  · cases hduplicate
  · have hprice : marketPrice = price := Except.ok.inj hfills.marketPrice
    exact absurd ⟨order, side, horder, hside, hprice ▸ hfills⟩ h

theorem executeOrder_of_fillable {order : PaperOrder} {side : OrderSide}
    (horder : exchange.state.orders.get? orderId = some order)
    (hside : OrderSide.ofValue? order.side = some side)
    (hfills : exchange.engine.Fills (requestOf order side marketPrice now) marketPrice) :
    exchange.executeOrder orderId marketPrice now executedAt saveFill updateOrder =
      let done := exchange.engine.filledAt (requestOf order side marketPrice now) marketPrice
      recordExecution { exchange with engine := done.engine } orderId order done.result executedAt
        saveFill updateOrder := by
  rw [executeOrder, horder]
  simp only [hside, PaperExecutionEngine.execute_of_fills hfills]

/-- The writes change the status of the order alone, and that when all of them return. -/
theorem recordExecution_cases (exchange : PaperExchange) (orderId : Identifier) (order : PaperOrder)
    (result : ExecutionResult) :
    (recordExecution exchange orderId order result executedAt saveFill updateOrder).exchange.engine =
        exchange.engine.drawUuid ∧
      ((saveFill = .returned ∧ updateOrder = .returned ∧
          (∃ answer, (recordExecution exchange orderId order result executedAt saveFill
            updateOrder).answer = .ok answer) ∧
          ∀ other, (recordExecution exchange orderId order result executedAt saveFill
            updateOrder).exchange.statusOf other =
              if orderId = other then some result.status.orderStatus else exchange.statusOf other) ∨
        (¬(saveFill = .returned ∧ updateOrder = .returned) ∧
          (∃ error, (recordExecution exchange orderId order result executedAt saveFill
            updateOrder).answer = .error error) ∧
          ∀ other, (recordExecution exchange orderId order result executedAt saveFill
            updateOrder).exchange.statusOf other = exchange.statusOf other)) := by
  cases saveFill with
  | raised made => exact ⟨rfl, .inr ⟨by simp, ⟨_, rfl⟩, fun _ => rfl⟩⟩
  | returned =>
    cases updateOrder with
    | raised made => exact ⟨rfl, .inr ⟨by simp, ⟨_, rfl⟩, fun _ => rfl⟩⟩
    | returned =>
      refine ⟨rfl, .inl ⟨rfl, rfl, ⟨_, rfl⟩, fun other => ?_⟩⟩
      exact statusOf_set exchange.state _ _ orderId other _ _

end Execute

theorem WellFormed.next (h : exchange.WellFormed) {after : PaperExchange}
    (hengine : after.engine.WellFormed) (hcount : exchange.engine.uuids ≤ after.engine.uuids)
    (hknown : ∀ orderId, (after.statusOf orderId).isSome → (exchange.statusOf orderId).isSome ∨
      (orderId = .uuid exchange.engine.uuids ∧ exchange.engine.uuids < after.engine.uuids)) :
    after.WellFormed := by
  refine ⟨hengine, fun orderId hsome => ?_⟩
  rcases hknown orderId hsome with hbefore | ⟨rfl, hlt⟩
  · obtain ⟨n, hn, rfl⟩ := h.drawn orderId hbefore
    exact ⟨n, hn.trans_le hcount, rfl⟩
  · exact ⟨_, hlt, rfl⟩

theorem WellFormed.placeOrder (h : exchange.WellFormed) (symbol side : String) (quantity : Decimal)
    (clientOrderId : String) (price : Option Decimal) (createdAt : Datetime)
    (saveOrder : ExchangeWrite) :
    (exchange.placeOrder symbol side quantity clientOrderId price createdAt
      saveOrder).exchange.WellFormed := by
  cases saveOrder with
  | raised made => exact h.next h.engine.drawUuid (Nat.le_succ _) fun _ => Or.inl
  | returned =>
    refine h.next h.engine.drawUuid (Nat.le_succ _) fun orderId hsome => ?_
    have hstatus := statusOf_set exchange.state exchange.engine exchange.repository
      (.uuid exchange.engine.uuids) orderId
      ⟨.uuid exchange.engine.uuids, clientOrderId, symbol, side, quantity, price, .new, createdAt⟩
      exchange.state.executions
    by_cases hid : .uuid exchange.engine.uuids = orderId
    · exact .inr ⟨hid.symm, Nat.lt_succ_self _⟩
    · rw [if_neg hid] at hstatus
      exact .inl (hstatus ▸ hsome)

theorem WellFormed.executeOrder (h : exchange.WellFormed) (orderId : Identifier)
    (marketPrice : Decimal) (now executedAt : Datetime) (saveFill updateOrder : ExchangeWrite) :
    (exchange.executeOrder orderId marketPrice now executedAt saveFill
      updateOrder).exchange.WellFormed := by
  by_cases hfillable : exchange.Fillable orderId marketPrice now
  · obtain ⟨order, side, horder, hside, hfills⟩ := hfillable
    rw [executeOrder_of_fillable executedAt saveFill updateOrder horder hside hfills]
    obtain ⟨hengine, hwrites⟩ := recordExecution_cases executedAt saveFill updateOrder
      { exchange with
        engine := (exchange.engine.filledAt (requestOf order side marketPrice now) marketPrice).engine }
      orderId order (exchange.engine.filledAt (requestOf order side marketPrice now) marketPrice).result
    have hcount : exchange.engine.uuids ≤
        (exchange.engine.filledAt (requestOf order side marketPrice now)
          marketPrice).engine.drawUuid.uuids :=
      Nat.le_add_right exchange.engine.uuids 3
    refine h.next (hengine ▸ h.engine.record.drawUuid) (by rw [hengine]; exact hcount)
      fun other hsome => .inl ?_
    rcases hwrites with ⟨-, -, -, hstatus⟩ | ⟨-, -, hstatus⟩
    · rw [hstatus other] at hsome
      split at hsome
      · rename_i hid
        exact hid ▸ congrArg Option.isSome (statusOf_eq horder)
      · exact hsome
    · rw [hstatus other] at hsome
      exact hsome
  · obtain ⟨error, hout⟩ := executeOrder_of_not_fillable executedAt saveFill updateOrder
      hfillable
    rw [hout]
    exact h

theorem WellFormed.cancelOrder (h : exchange.WellFormed) (orderId : Identifier)
    (updateOrder : ExchangeWrite) :
    (exchange.cancelOrder orderId updateOrder).exchange.WellFormed := by
  cases horder : exchange.state.orders.get? orderId with
  | none => simpa only [PaperExchange.cancelOrder, horder] using h
  | some order =>
    cases updateOrder with
    | raised made =>
      simp only [PaperExchange.cancelOrder, horder]
      exact h.next h.engine le_rfl fun _ => Or.inl
    | returned =>
      simp only [PaperExchange.cancelOrder, horder]
      refine h.next h.engine le_rfl fun other hsome => .inl ?_
      have hstatus := statusOf_set exchange.state exchange.engine exchange.repository orderId other
        { order with status := .canceled } exchange.state.executions
      by_cases hid : orderId = other
      · exact hid ▸ congrArg Option.isSome (statusOf_eq horder)
      · rw [if_neg hid] at hstatus
        exact hstatus ▸ hsome

theorem WellFormed.perform (h : exchange.WellFormed) (call : ExchangeCall) :
    (exchange.perform call).exchange.WellFormed := by
  cases call with
  | placeOrder => exact h.placeOrder ..
  | executeOrder => exact h.executeOrder ..
  | cancelOrder => exact h.cancelOrder ..

theorem WellFormed.performAll (h : exchange.WellFormed) (calls : List ExchangeCall) :
    (exchange.performAll calls).WellFormed := by
  induction calls using List.reverseRecOn with
  | nil => exact h
  | append_singleton calls call ih =>
    rw [performAll_append_singleton]
    exact ih.perform call

end PaperExchange

namespace ExchangeTurn

variable {turn : ExchangeTurn}

/-- The call sets the status of one order. -/
def Sets (turn : ExchangeTurn) (orderId : Identifier) (status : PaperOrderStatus) : Prop :=
  ∀ other, turn.after.statusOf other =
    if orderId = other then some status else turn.before.statusOf other

/-- What a call does to the lifecycle of the orders, and whether it is orderly. -/
inductive Effect (turn : ExchangeTurn) : Prop
  | idle (fills : turn.fills? = none) (cancels : turn.cancels? = none)
      (unchanged : turn.before.Unchanged turn.after) (orderly : turn.before.Orderly turn.call)
  | placed (orderId : Identifier) (fills : turn.fills? = none) (cancels : turn.cancels? = none)
      (unknown : turn.before.statusOf orderId = none) (sets : turn.Sets orderId .new)
      (succeeds : ¬ turn.FailsToExecute) (orderly : turn.before.Orderly turn.call)
  | executed (orderId : Identifier) (status : PaperOrderStatus) (fills : turn.fills? = some orderId)
      (cancels : turn.cancels? = none) (known : turn.before.statusOf orderId = some status)
      (sets : turn.Sets orderId .filled) (succeeds : ¬ turn.FailsToExecute)
      (orderly : turn.before.Orderly turn.call ↔ status = .new)
  | halfExecuted (orderId : Identifier) (fills : turn.fills? = some orderId)
      (fails : turn.FailsToExecute) (disorderly : ¬ turn.before.Orderly turn.call)
  | canceled (orderId : Identifier) (status : PaperOrderStatus) (fills : turn.fills? = none)
      (cancels : turn.cancels? = some orderId) (known : turn.before.statusOf orderId = some status)
      (sets : turn.Sets orderId .canceled) (succeeds : ¬ turn.FailsToExecute)
      (orderly : turn.before.Orderly turn.call ↔ status ≠ .filled)

theorem effect_placeOrder {exchange : PaperExchange} (h : exchange.WellFormed) (symbol side : String)
    (quantity : Decimal) (clientOrderId : String) (price : Option Decimal) (createdAt : Datetime)
    (saveOrder : ExchangeWrite) :
    Effect ⟨exchange, .placeOrder symbol side quantity clientOrderId price createdAt saveOrder⟩ := by
  cases saveOrder with
  | raised made => exact .idle rfl rfl ⟨rfl, rfl, rfl, fun _ => rfl⟩ trivial
  | returned =>
    refine .placed (.uuid exchange.engine.uuids) rfl rfl h.undrawn (fun other => ?_) ?_ trivial
    · exact PaperExchange.statusOf_set exchange.state _ _ _ other _ _
    · rintro ⟨_, _, _, _, _, _, _, hcall, -⟩
      cases hcall

section Calls

variable {exchange : PaperExchange} {orderId : Identifier} {marketPrice : Decimal}
  {now executedAt : Datetime} {saveFill updateOrder : ExchangeWrite}

theorem fills?_executeOrder_eq_none
    (h : (exchange.executeOrder orderId marketPrice now executedAt saveFill
      updateOrder).exchange.engine.fills = exchange.engine.fills) :
    fills? ⟨exchange, .executeOrder orderId marketPrice now executedAt saveFill updateOrder⟩ = none :=
  if_pos h

theorem fills?_executeOrder_eq_some
    (h : (exchange.executeOrder orderId marketPrice now executedAt saveFill
      updateOrder).exchange.engine.fills ≠ exchange.engine.fills) :
    fills? ⟨exchange, .executeOrder orderId marketPrice now executedAt saveFill updateOrder⟩ =
      some orderId :=
  if_neg h

/-- A fill of the engine is one that its fills did not have. -/
theorem filledAt_fills_ne (h : exchange.engine.WellFormed) (args : ExecuteArguments)
    (price : Decimal) :
    (exchange.engine.filledAt args price).engine.drawUuid.fills ≠ exchange.engine.fills := by
  intro heq
  have hget := congrArg
    (fun fills => fills.get? (exchange.engine.executionAt args price).fill.fillId) heq
  have hset : (exchange.engine.filledAt args price).engine.drawUuid.fills.get?
      (exchange.engine.executionAt args price).fill.fillId =
        some (exchange.engine.executionAt args price).fill := Dict.get?_set_self _ _ _
  simp only [hset, h.fill_new args price] at hget
  cases hget

theorem effect_executeOrder (h : exchange.WellFormed) :
    Effect ⟨exchange, .executeOrder orderId marketPrice now executedAt saveFill updateOrder⟩ := by
  by_cases hfillable : exchange.Fillable orderId marketPrice now
  · have hfillable' := hfillable
    obtain ⟨order, side, horder, hside, hfills⟩ := hfillable'
    have hout := PaperExchange.executeOrder_of_fillable executedAt saveFill updateOrder horder
      hside hfills
    have hknown : exchange.statusOf orderId = some order.status := PaperExchange.statusOf_eq horder
    obtain ⟨hengine, hwrites⟩ := PaperExchange.recordExecution_cases executedAt saveFill
      updateOrder { exchange with engine := (exchange.engine.filledAt
          (PaperExchange.requestOf order side marketPrice now) marketPrice).engine } orderId order
      (exchange.engine.filledAt (PaperExchange.requestOf order side marketPrice now)
        marketPrice).result
    simp only at hout
    rw [← hout] at hengine hwrites
    have hfill : fills? ⟨exchange, .executeOrder orderId marketPrice now executedAt saveFill
        updateOrder⟩ = some orderId := by
      refine fills?_executeOrder_eq_some ?_
      rw [hengine]
      exact filledAt_fills_ne h.engine _ _
    rcases hwrites with ⟨rfl, rfl, ⟨answer, hanswer⟩, hstatus⟩ | ⟨hraised, ⟨error, herror⟩, -⟩
    · refine .executed orderId order.status hfill rfl hknown hstatus ?_ ?_
      · rintro ⟨_, _, _, _, _, _, _, -, herror⟩
        cases hanswer.symm.trans herror
      · constructor
        · intro horderly
          exact Option.some.inj (hknown.symm.trans (horderly hfillable).1)
        · intro hnew _
          exact ⟨hknown.trans (congrArg some hnew), rfl, rfl⟩
    · refine .halfExecuted orderId hfill ⟨_, _, _, _, _, _, error, rfl, herror⟩ fun horderly => ?_
      exact hraised (horderly hfillable).2
  · obtain ⟨error, hout⟩ := PaperExchange.executeOrder_of_not_fillable executedAt saveFill updateOrder
      hfillable
    have hafter : (exchange.executeOrder orderId marketPrice now executedAt saveFill
        updateOrder).exchange = exchange := congrArg ExchangeOutcome.exchange hout
    refine .idle (fills?_executeOrder_eq_none (by rw [hafter])) rfl ?_ fun h => absurd h hfillable
    change exchange.Unchanged (exchange.executeOrder orderId marketPrice now executedAt saveFill
      updateOrder).exchange
    rw [hafter]
    exact ⟨rfl, rfl, rfl, fun _ => rfl⟩

theorem effect_cancelOrder : Effect ⟨exchange, .cancelOrder orderId updateOrder⟩ := by
  cases horder : exchange.state.orders.get? orderId with
  | none =>
    have hout : exchange.cancelOrder orderId updateOrder =
        ⟨exchange, .error (.unknownOrder orderId)⟩ := by
      rw [PaperExchange.cancelOrder, horder]
    have hstatus : exchange.statusOf orderId = none := PaperExchange.statusOf_eq horder
    refine .idle rfl ?_ ?_ fun _ => by simp [hstatus]
    · simp only [cancels?, outcome, PaperExchange.perform, hout]
    · show exchange.Unchanged (exchange.cancelOrder orderId updateOrder).exchange
      rw [hout]
      exact ⟨rfl, rfl, rfl, fun _ => rfl⟩
  | some order =>
    have hknown : exchange.statusOf orderId = some order.status := PaperExchange.statusOf_eq horder
    cases updateOrder with
    | raised made =>
      have hout : (exchange.cancelOrder orderId (.raised made)).answer = .error .repository ∧
          (exchange.cancelOrder orderId (.raised made)).exchange.engine = exchange.engine ∧
          (exchange.cancelOrder orderId (.raised made)).exchange.state = exchange.state := by
        simp only [PaperExchange.cancelOrder, horder, and_self]
      obtain ⟨hanswer, hengine, hstate⟩ := hout
      refine .idle rfl ?_ ?_ fun hreturned => by cases hreturned
      · simp only [cancels?, outcome, PaperExchange.perform, hanswer]
      · show exchange.Unchanged (exchange.cancelOrder orderId (.raised made)).exchange
        exact ⟨by rw [hengine], by rw [hengine], by rw [hengine], fun other => by
          rw [PaperExchange.statusOf, hstate]; rfl⟩
    | returned =>
      have hout : exchange.cancelOrder orderId .returned =
          ⟨⟨⟨exchange.state.orders.set orderId { order with status := .canceled },
            exchange.state.executions⟩, exchange.engine,
            exchange.repository.updateOrder { order with status := .canceled }⟩,
            .ok (.order { order with status := .canceled })⟩ := by
        simp only [PaperExchange.cancelOrder, horder]
        rfl
      refine .canceled orderId order.status rfl ?_ hknown (fun other => ?_) ?_ ?_
      · simp only [cancels?, outcome, PaperExchange.perform, hout]
      · show (exchange.cancelOrder orderId .returned).exchange.statusOf other = _
        rw [hout]
        exact PaperExchange.statusOf_set exchange.state _ _ orderId other _ _
      · rintro ⟨_, _, _, _, _, _, _, hcall, -⟩
        cases hcall
      · show (ExchangeWrite.returned = .returned → exchange.statusOf orderId ≠ some .filled) ↔ _
        rw [hknown]
        simp

end Calls

theorem effect (h : turn.before.WellFormed) : Effect turn := by
  obtain ⟨exchange, call⟩ := turn
  cases call with
  | placeOrder => exact effect_placeOrder h ..
  | executeOrder => exact effect_executeOrder h
  | cancelOrder => exact effect_cancelOrder

end ExchangeTurn

/-! ### Runs -/

namespace PaperExchange

/-- A well-formed exchange on which no order has been executed or cancelled. -/
structure Opened (exchange : PaperExchange) : Prop where
  wellFormed : exchange.WellFormed
  new : ∀ orderId status, exchange.statusOf orderId = some status → status = .new

/-- The orders that the turns filled are filled, and those that they cancelled are cancelled. -/
structure Faithful (turns : List ExchangeTurn) (exchange : PaperExchange) : Prop where
  filled : ∀ orderId, exchange.statusOf orderId = some .filled ↔
    ∃ turn ∈ turns, turn.fills? = some orderId
  canceled : ∀ orderId, exchange.statusOf orderId = some .canceled ↔
    ∃ turn ∈ turns, turn.cancels? = some orderId

theorem Opened.faithful {exchange : PaperExchange} (h : exchange.Opened) : Faithful [] exchange := by
  constructor <;> intro orderId <;> simp only [List.not_mem_nil, false_and, exists_false, iff_false] <;>
    exact fun hstatus => nomatch h.new orderId _ hstatus

end PaperExchange

/-- A turn that goes on with the lifecycle that the turns before it have begun. -/
structure ExchangeTurn.Continues (turns : List ExchangeTurn) (turn : ExchangeTurn) : Prop where
  filledOnce : ∀ earlier ∈ turns, ∀ orderId, earlier.fills? = some orderId →
    turn.fills? ≠ some orderId
  unfilledOnceCanceled : ∀ earlier ∈ turns, ∀ orderId, earlier.cancels? = some orderId →
    turn.fills? ≠ some orderId
  uncanceledOnceFilled : ∀ earlier ∈ turns, ∀ orderId, earlier.fills? = some orderId →
    turn.after.statusOf orderId ≠ some .canceled
  atomic : turn.FailsToExecute → turn.before.Unchanged turn.after

theorem orderLifecycle_nil : OrderLifecycle [] :=
  ⟨.nil, .nil, .nil, by simp⟩

theorem orderLifecycle_append_singleton (turns : List ExchangeTurn) (turn : ExchangeTurn) :
    OrderLifecycle (turns ++ [turn]) ↔ OrderLifecycle turns ∧ turn.Continues turns := by
  constructor
  · rintro ⟨honce, hcanceled, hfilled, hatomic⟩
    rw [List.pairwise_append] at honce hcanceled hfilled
    refine ⟨⟨honce.1, hcanceled.1, hfilled.1, fun t ht => hatomic t (List.mem_append_left _ ht)⟩, ?_⟩
    exact ⟨fun e he => honce.2.2 e he turn (List.mem_singleton_self _),
      fun e he => hcanceled.2.2 e he turn (List.mem_singleton_self _),
      fun e he => hfilled.2.2 e he turn (List.mem_singleton_self _),
      hatomic turn (by simp)⟩
  · rintro ⟨⟨honce, hcanceled, hfilled, hatomic⟩, hnext⟩
    refine ⟨List.pairwise_append.mpr ⟨honce, List.pairwise_singleton _ _, fun e he t ht => ?_⟩,
      List.pairwise_append.mpr ⟨hcanceled, List.pairwise_singleton _ _, fun e he t ht => ?_⟩,
      List.pairwise_append.mpr ⟨hfilled, List.pairwise_singleton _ _, fun e he t ht => ?_⟩,
      fun t ht => ?_⟩
    · cases List.mem_singleton.mp ht
      exact hnext.filledOnce e he
    · cases List.mem_singleton.mp ht
      exact hnext.unfilledOnceCanceled e he
    · cases List.mem_singleton.mp ht
      exact hnext.uncanceledOnceFilled e he
    · rcases List.mem_append.mp ht with ht | ht
      · exact hatomic t ht
      · cases List.mem_singleton.mp ht
        exact hnext.atomic

section Steps

variable {turns : List ExchangeTurn} {turn : ExchangeTurn}

theorem ExchangeTurn.fills_ne_of_fills? {orderId : Identifier} (h : turn.fills? = some orderId) :
    turn.after.engine.fills ≠ turn.before.engine.fills := by
  unfold ExchangeTurn.fills? at h
  split at h
  · split at h
    · cases h
    · assumption
  · cases h

namespace PaperExchange.Faithful

variable (h : PaperExchange.Faithful turns turn.before)
include h

/-- A call that fills no order goes on with the lifecycle when it cancels no order that is filled and,
where it fails to execute, changes nothing. -/
theorem continues_of_idle (hfills : turn.fills? = none)
    (hkept : ∀ orderId, turn.before.statusOf orderId = some .filled →
      turn.after.statusOf orderId ≠ some .canceled)
    (hatomic : turn.FailsToExecute → turn.before.Unchanged turn.after) : turn.Continues turns where
  filledOnce _ _ _ _ := by simp [hfills]
  unfilledOnceCanceled _ _ _ _ := by simp [hfills]
  uncanceledOnceFilled earlier hmem orderId hfilled :=
    hkept orderId ((h.filled orderId).mpr ⟨earlier, hmem, hfilled⟩)
  atomic := hatomic

theorem executed_continues_iff {orderId : Identifier} {status : PaperOrderStatus}
    (hfills : turn.fills? = some orderId) (hknown : turn.before.statusOf orderId = some status)
    (hsets : turn.Sets orderId .filled) (hsucceeds : ¬ turn.FailsToExecute) :
    turn.Continues turns ↔ status = .new := by
  constructor
  · intro hnext
    cases status with
    | new => rfl
    | filled =>
      obtain ⟨earlier, hmem, hfilled⟩ := (h.filled orderId).mp hknown
      exact absurd hfills (hnext.filledOnce earlier hmem orderId hfilled)
    | canceled =>
      obtain ⟨earlier, hmem, hcanceled⟩ := (h.canceled orderId).mp hknown
      exact absurd hfills (hnext.unfilledOnceCanceled earlier hmem orderId hcanceled)
  · rintro rfl
    refine ⟨fun earlier hmem other hfilled heq => ?_, fun earlier hmem other hcanceled heq => ?_,
      fun earlier hmem other hfilled => ?_, fun hfails => absurd hfails hsucceeds⟩
    · cases hfills.symm.trans heq
      cases hknown.symm.trans ((h.filled orderId).mpr ⟨earlier, hmem, hfilled⟩)
    · cases hfills.symm.trans heq
      cases hknown.symm.trans ((h.canceled orderId).mpr ⟨earlier, hmem, hcanceled⟩)
    · rw [hsets other]
      split
      · simp
      · rw [(h.filled other).mpr ⟨earlier, hmem, hfilled⟩]
        simp

theorem canceled_continues_iff {orderId : Identifier} {status : PaperOrderStatus}
    (hfills : turn.fills? = none) (hknown : turn.before.statusOf orderId = some status)
    (hsets : turn.Sets orderId .canceled) (hsucceeds : ¬ turn.FailsToExecute) :
    turn.Continues turns ↔ status ≠ .filled := by
  constructor
  · rintro hnext rfl
    obtain ⟨earlier, hmem, hfilled⟩ := (h.filled orderId).mp hknown
    exact hnext.uncanceledOnceFilled earlier hmem orderId hfilled ((hsets orderId).trans (if_pos rfl))
  · intro hstatus
    refine h.continues_of_idle hfills (fun other hfilled => ?_) fun hfails => absurd hfails hsucceeds
    rw [hsets other]
    split
    · rename_i hid
      cases hid
      exact absurd (Option.some.inj (hknown.symm.trans hfilled)) hstatus
    · rw [hfilled]
      simp

end PaperExchange.Faithful

theorem continues_iff (heffect : turn.Effect) (h : PaperExchange.Faithful turns turn.before) :
    turn.Continues turns ↔ turn.before.Orderly turn.call := by
  cases heffect with
  | idle hfills _ hunchanged horderly =>
    refine iff_of_true (h.continues_of_idle hfills (fun other hfilled => ?_) fun _ => hunchanged)
      horderly
    rw [hunchanged.status other, hfilled]
    simp
  | placed orderId hfills _ _ hsets hsucceeds horderly =>
    refine iff_of_true (h.continues_of_idle hfills (fun other hfilled => ?_) fun hfails =>
      absurd hfails hsucceeds) horderly
    rw [hsets other]
    split
    · simp
    · rw [hfilled]
      simp
  | executed orderId status hfills _ hknown hsets hsucceeds horderly =>
    rw [horderly]
    exact h.executed_continues_iff hfills hknown hsets hsucceeds
  | halfExecuted orderId hfills hfails hdisorderly =>
    refine iff_of_false (fun hnext => ?_) hdisorderly
    exact ExchangeTurn.fills_ne_of_fills? hfills (hnext.atomic hfails).fills
  | canceled orderId status hfills _ hknown hsets hsucceeds horderly =>
    rw [horderly]
    exact h.canceled_continues_iff hfills hknown hsets hsucceeds

/-- What a turn does to the statuses, beside what it fills and cancels. -/
theorem faithful_of_status (h : PaperExchange.Faithful turns turn.before)
    (hfilled : ∀ orderId, turn.after.statusOf orderId = some .filled ↔
      turn.before.statusOf orderId = some .filled ∨ turn.fills? = some orderId)
    (hcanceled : ∀ orderId, turn.after.statusOf orderId = some .canceled ↔
      turn.before.statusOf orderId = some .canceled ∨ turn.cancels? = some orderId) :
    PaperExchange.Faithful (turns ++ [turn]) turn.after := by
  constructor
  · intro orderId
    rw [hfilled, h.filled]
    simp only [List.mem_append, List.mem_singleton, or_and_right, exists_or, exists_eq_left]
  · intro orderId
    rw [hcanceled, h.canceled]
    simp only [List.mem_append, List.mem_singleton, or_and_right, exists_or, exists_eq_left]

theorem faithful_append (heffect : turn.Effect) (h : PaperExchange.Faithful turns turn.before)
    (horderly : turn.before.Orderly turn.call) :
    PaperExchange.Faithful (turns ++ [turn]) turn.after := by
  cases heffect with
  | idle hfills hcancels hunchanged _ =>
    exact faithful_of_status h (fun other => by simp [hunchanged.status, hfills])
      fun other => by simp [hunchanged.status, hcancels]
  | placed orderId hfills hcancels hunknown hsets _ _ =>
    refine faithful_of_status h (fun other => ?_) fun other => ?_ <;> rw [hsets other] <;> split
    · rename_i hid
      simp [← hid, hunknown, hfills]
    · simp [hfills]
    · rename_i hid
      simp [← hid, hunknown, hcancels]
    · simp [hcancels]
  | executed orderId status hfills hcancels hknown hsets _ hnew =>
    cases hnew.mp horderly
    refine faithful_of_status h (fun other => ?_) fun other => ?_ <;> rw [hsets other] <;> split
    · rename_i hid
      simp [← hid, hfills]
    · rename_i hid
      simp [hfills, hid]
    · rename_i hid
      simp [← hid, hknown, hcancels]
    · simp [hcancels]
  | halfExecuted _ _ _ hdisorderly => exact absurd horderly hdisorderly
  | canceled orderId status hfills hcancels hknown hsets _ hunfilled =>
    have hstatus := hunfilled.mp horderly
    refine faithful_of_status h (fun other => ?_) fun other => ?_ <;> rw [hsets other] <;> split
    · rename_i hid
      simp [← hid, hknown, hfills, hstatus]
    · simp [hfills]
    · rename_i hid
      simp [← hid, hcancels]
    · rename_i hid
      simp [hcancels, hid]

end Steps

/-- The lifecycle is kept over a sequence of calls exactly when each of them is orderly. -/
theorem orderLifecycle_iff {exchange : PaperExchange} (h : exchange.Opened)
    (calls : List ExchangeCall) :
    OrderLifecycle (exchange.turns calls) ↔
      ∀ turn ∈ exchange.turns calls, turn.before.Orderly turn.call := by
  suffices hrun : (OrderLifecycle (exchange.turns calls) ↔
        ∀ turn ∈ exchange.turns calls, turn.before.Orderly turn.call) ∧
      ((∀ turn ∈ exchange.turns calls, turn.before.Orderly turn.call) →
        PaperExchange.Faithful (exchange.turns calls) (exchange.performAll calls)) from hrun.1
  induction calls using List.reverseRecOn with
  | nil => exact ⟨iff_of_true orderLifecycle_nil (by simp [PaperExchange.turns]), fun _ => h.faithful⟩
  | append_singleton calls call ih =>
    have heffect : ExchangeTurn.Effect ⟨exchange.performAll calls, call⟩ :=
      ExchangeTurn.effect (h.wellFormed.performAll calls)
    rw [PaperExchange.turns_append_singleton, orderLifecycle_append_singleton,
      PaperExchange.performAll_append_singleton, ih.1, List.forall_mem_append,
      List.forall_mem_singleton]
    refine ⟨and_congr_right fun hbefore => continues_iff heffect (ih.2 hbefore), ?_⟩
    rintro ⟨hbefore, hlast⟩
    exact faithful_append heffect (ih.2 hbefore) hlast

theorem PaperExchange.opened_new : PaperExchange.Opened {} where
  wellFormed :=
    { engine := PaperExecutionEngine.wellFormed_empty rfl rfl rfl
      drawn := fun _ h => nomatch h }
  new := fun _ _ h => nomatch h

/-- An order that is placed, executed, and executed once more. -/
def executedTwice : List ExchangeCall :=
  [.placeOrder "BTCUSDT" "BUY" (1 / 10) "paper-test-001" (some 60000) 0 .returned,
    .executeOrder (.uuid 0) 60000 0 0 .returned .returned,
    .executeOrder (.uuid 0) 60000 0 0 .returned .returned]

theorem orderLifecycle_executedOnce :
    OrderLifecycle (PaperExchange.turns {} (executedTwice.take 2)) ↔
      ∀ turn ∈ PaperExchange.turns {} (executedTwice.take 2), turn.before.Orderly turn.call :=
  orderLifecycle_iff PaperExchange.opened_new (executedTwice.take 2)

/-- The order is filled twice in the engine. -/
theorem executed_twice_filled_twice : ¬ OrderLifecycle (PaperExchange.turns {} executedTwice) := by
  intro h
  have hlast := (List.pairwise_cons.mp (List.pairwise_cons.mp h.filledOnce).2).1 _
    (List.mem_singleton_self _) (.uuid 0) (by decide +kernel)
  exact hlast (by decide +kernel)

end CryptoTrading
