import CryptoTrading.Exchange.PaperExecutionEngine

/-! The durable paper-trading state, the statements that save it, and what the engine restores from
it. -/

namespace CryptoTrading

open Kit

/-- The rows of the runtime state, the orders, the fills and the positions. -/
structure PaperStateRepository where
  runtimeState : Option PaperRuntimeState := none
  orders : Dict Identifier PaperOrderState := .empty
  fills : Dict Identifier PaperFillState := .empty
  positions : Dict String PaperPositionState := .empty
  deriving DecidableEq

namespace PaperStateRepository

variable (repository : PaperStateRepository)

/-- `save_state`. -/
def saveState (state : PaperRuntimeState) : PaperStateRepository :=
  { repository with runtimeState := some state }

/-- `save_order`: an order that is there keeps its row, but for the status. -/
def saveOrder (order : PaperOrderState) : PaperStateRepository :=
  { repository with
    orders := repository.orders.set order.orderId
      ((repository.orders.get? order.orderId).elim order fun row =>
        { row with status := order.status }) }

/-- `save_fill`: a fill that is there keeps its row. -/
def saveFill (fill : PaperFillState) : PaperStateRepository :=
  { repository with
    fills := repository.fills.set fill.fillId ((repository.fills.get? fill.fillId).getD fill) }

/-- `save_position`. -/
def savePosition (position : PaperPositionState) : PaperStateRepository :=
  { repository with positions := repository.positions.set position.symbol position }

end PaperStateRepository

/-- The loads of the repository in the course of a start, in order. -/
inductive LoadCall
  | preflightState
  | runtimeState
  | engineState
  | positions
  | orders
  | fills
  deriving DecidableEq, Repr

inductive RestoreError
  /-- what a load raised -/
  | load (call : LoadCall)
  /-- `RuntimeError`: "Paper state restore is incomplete: fills reference missing orders ..." -/
  | missingOrders (orderIds : List Identifier)
  deriving DecidableEq

namespace PaperExecutionEngine

/-- The row that `_save_state` writes. -/
def savedState (engine : PaperExecutionEngine) : PaperRuntimeState :=
  ⟨engine.lastProcessedTimestamp, engine.lastSequence, engine.cashBalance⟩

/-- The engine with its sequence, timestamp and cash from a row. -/
def withState (engine : PaperExecutionEngine) (state : PaperRuntimeState) : PaperExecutionEngine :=
  { engine with
    lastSequence := state.lastMarketSequence
    lastProcessedTimestamp := state.lastProcessedTimestamp
    cashBalance := state.cashBalance }

/-- The engine with its orders, fills and client order ids from rows. -/
def withOrders (engine : PaperExecutionEngine) (orders : List PaperOrderState)
    (fills : List PaperFillState) : PaperExecutionEngine :=
  { engine with
    orders := Dict.ofItems PaperOrderState.orderId id orders
    fills := Dict.ofItems PaperFillState.fillId id fills
    clientOrders := Dict.ofItems Prod.fst Prod.snd
      (orders.filterMap fun order => order.clientOrderId.map fun id => (id, order.orderId)) }

/-- `restore_state`, where `raises` says which loads raise: the engine that it leaves, and what it
raised. -/
def restoreState (engine : PaperExecutionEngine) (repository : PaperStateRepository)
    (raises : LoadCall → Bool) : PaperExecutionEngine × Option RestoreError :=
  if raises .engineState then (engine, some (.load .engineState))
  else
    let engine := repository.runtimeState.elim engine engine.withState
    if raises .positions then (engine, some (.load .positions))
    else
      let engine := { engine with
        positions := Dict.ofItems PaperPositionState.symbol id repository.positions.values }
      if raises .orders then (engine, some (.load .orders))
      else if raises .fills then (engine, some (.load .fills))
      else
        let engine := engine.withOrders repository.orders.values repository.fills.values
        let unknownOrders := (repository.fills.values.map PaperFillState.orderId).filter
          fun orderId => decide (orderId ∉ engine.orders.keys)
        (engine, if unknownOrders = [] then none else some (.missingOrders unknownOrders.dedup))

/-- Past its first load a restore leaves the stored sequence, timestamp and cash in the engine,
whether it raises or not. -/
theorem restoreState_savedState (engine : PaperExecutionEngine) {repository : PaperStateRepository}
    {raises : LoadCall → Bool} {state : PaperRuntimeState}
    (hload : raises .engineState = false) (hstored : repository.runtimeState = some state) :
    (engine.restoreState repository raises).1.savedState = state := by
  simp only [restoreState, hload, hstored, Option.elim_some, Bool.false_eq_true, if_false]
  repeat' split
  all_goals rfl

theorem restoreState_of_raises (engine : PaperExecutionEngine) (repository : PaperStateRepository)
    {raises : LoadCall → Bool} (hload : raises .engineState = true) :
    engine.restoreState repository raises = (engine, some (.load .engineState)) := by
  simp [restoreState, hload]

end PaperExecutionEngine

end CryptoTrading
