import CryptoTrading.Exchange.PaperStateRepository
import Mathlib.Algebra.Order.Group.Abs
import Mathlib.Tactic.NormNum

/-! The comparison of the runtime's state with the rows of the database, and when it finds something
fatal. -/

namespace CryptoTrading

open Kit

/-! ### Rows as they are loaded -/

/-- A row of `load_orders`: an object of its class, or a `dict` with the keys that it has. -/
inductive OrderRow
  | state (order : PaperOrderState)
  | dict (orderId : Option Identifier) (status : Option String)

/-- A row of `load_fills`. -/
inductive FillRow
  | state (fill : PaperFillState)
  | dict (fillId : Option Identifier)

/-- A row of `load_positions`. -/
inductive PositionRow
  | state (position : PaperPositionState)
  | dict (symbol : Option String) (quantity : Option Decimal)

inductive ReconcileError
  /-- `AttributeError`: "'PaperOrderState' object has no attribute 'get'" -/
  | orderHasNoGet
  /-- `AttributeError`: "'PaperFillState' object has no attribute 'get'" -/
  | fillHasNoGet
  deriving DecidableEq

/-- `o.get("order_id", ...)`. -/
def OrderRow.key : OrderRow → Except ReconcileError Identifier
  | state _ => .error .orderHasNoGet
  | dict orderId _ => .ok (orderId.getD (.client ""))

/-- The status that is shown of a row without an order. -/
def OrderRow.status : OrderRow → Option String
  | state _ => some "unknown"
  | dict _ status => status

/-- `f.get("fill_id", ...)`. -/
def FillRow.key : FillRow → Except ReconcileError Identifier
  | state _ => .error .fillHasNoGet
  | dict fillId => .ok (fillId.getD (.client ""))

namespace PositionRow

def symbol : PositionRow → String
  | state position => position.symbol
  | dict symbol _ => symbol.getD ""

/-- `_extract_quantity`. -/
def extractQuantity : PositionRow → Option Decimal
  | state position => some position.quantity
  | dict _ quantity => quantity

end PositionRow

/-- What the loads of a `DatabaseReader` return. -/
structure DatabaseRows where
  orders : List OrderRow
  fills : List FillRow
  positions : List PositionRow
  state : Option PaperRuntimeState

/-! ### Discrepancies -/

inductive DiscrepancySeverity
  | recoverable
  | fatal
  deriving DecidableEq, Repr

/-- The discrepancies, with the values that they show. -/
inductive Discrepancy
  /-- "Order {oid} exists in runtime but not in database" -/
  | orderMissingInDb (orderId : Identifier) (status : String)
  /-- "Order {oid} exists in database but not in runtime" -/
  | orderMissingInRuntime (orderId : Identifier) (status : Option String)
  /-- "Fill {fid} exists in runtime but not in database" -/
  | fillMissingInDb (fillId : Identifier)
  /-- "Fill {fid} exists in database but not in runtime" -/
  | fillMissingInRuntime (fillId : Identifier)
  /-- "Position {sym} exists in runtime but not in database" -/
  | positionMissingInDb (symbol : String) (quantity : Decimal)
  /-- "Position {sym} exists in database but not in runtime" -/
  | positionMissingInRuntime (symbol : String) (quantity : Decimal)
  /-- "Position {sym} quantity mismatch" -/
  | positionQuantityMismatch (symbol : String) (runtime db : Decimal)
  /-- "Balance mismatch: runtime={runtime} db={db}" -/
  | balanceMismatch (runtime db : Decimal)
  deriving DecidableEq

/-- An order or a fill that is not in the database yet may be a pending write. -/
def Discrepancy.severity : Discrepancy → DiscrepancySeverity
  | orderMissingInDb .. => .recoverable
  | fillMissingInDb .. => .recoverable
  | _ => .fatal

structure ReconciliationResult where
  checkedAt : Datetime
  discrepancies : List Discrepancy := []
  ordersRuntime : ℕ := 0
  ordersDb : ℕ := 0
  fillsRuntime : ℕ := 0
  fillsDb : ℕ := 0
  balanceRuntime : Decimal := 0
  balanceDb : Decimal := 0
  positionSymbolsRuntime : ℕ := 0
  positionSymbolsDb : ℕ := 0
  success : Bool := true
  deriving DecidableEq

def ReconciliationResult.hasFatal (result : ReconciliationResult) : Bool :=
  result.discrepancies.any fun d => decide (d.severity = .fatal)

/-- The tolerances, which are not negative. -/
structure PaperReconciler where
  balanceTolerance : Decimal := 1 / 100
  positionTolerance : Decimal := 1 / 100000000
  balanceTolerance_nonneg : 0 ≤ balanceTolerance := by norm_num
  positionTolerance_nonneg : 0 ≤ positionTolerance := by norm_num

namespace PaperReconciler

variable (reconciler : PaperReconciler)

/-- The rows under their keys, where all of them have one. -/
def keyed {α : Type} (key : α → Except ReconcileError Identifier) (rows : List α) :
    Except ReconcileError (Dict Identifier α) :=
  (rows.mapM fun row => (key row).map fun id => (id, row)).map (Dict.ofItems Prod.fst Prod.snd)

def orderDiscrepancies (runtime : Dict Identifier PaperOrderState) (db : Dict Identifier OrderRow) :
    List Discrepancy :=
  ((runtime.entries.filter fun entry => decide (entry.1 ∉ db.keys)).map fun entry =>
    .orderMissingInDb entry.1 entry.2.status) ++
  (db.entries.filter fun entry => decide (entry.1 ∉ runtime.keys)).map fun entry =>
    .orderMissingInRuntime entry.1 entry.2.status

def fillDiscrepancies (runtime : Dict Identifier PaperFillState) (db : Dict Identifier FillRow) :
    List Discrepancy :=
  ((runtime.keys.filter fun id => decide (id ∉ db.keys)).map .fillMissingInDb) ++
  (db.keys.filter fun id => decide (id ∉ runtime.keys)).map .fillMissingInRuntime

/-- A quantity that is there and above the tolerance. -/
def aboveTolerance (quantity : Option Decimal) : Option Decimal :=
  quantity.filter fun quantity => decide (quantity > reconciler.positionTolerance)

def positionDiscrepancies (runtime : Dict String PaperPositionState) (db : Dict String PositionRow) :
    List Discrepancy :=
  ((runtime.entries.filter fun entry => decide (entry.1 ∉ db.keys)).filterMap fun entry =>
    (reconciler.aboveTolerance (some entry.2.quantity)).map (.positionMissingInDb entry.1)) ++
  ((db.entries.filter fun entry => decide (entry.1 ∉ runtime.keys)).filterMap fun entry =>
    (reconciler.aboveTolerance entry.2.extractQuantity).map (.positionMissingInRuntime entry.1)) ++
  runtime.entries.filterMap fun entry =>
    (db.get? entry.1).bind fun row =>
      let quantity := row.extractQuantity.getD 0
      if |entry.2.quantity - quantity| > reconciler.positionTolerance then
        some (.positionQuantityMismatch entry.1 entry.2.quantity quantity)
      else none

def balanceDiscrepancies (runtime db : Decimal) : List Discrepancy :=
  if |runtime - db| > reconciler.balanceTolerance then [.balanceMismatch runtime db] else []

/-- The result of a comparison of rows that all have a key. -/
def compare (runtime : PaperExecutionEngine) (orders : Dict Identifier OrderRow)
    (fills : Dict Identifier FillRow) (positions : Dict String PositionRow) (balance : Decimal)
    (now : Datetime) : ReconciliationResult :=
  { checkedAt := now
    discrepancies := orderDiscrepancies runtime.orders orders ++
      fillDiscrepancies runtime.fills fills ++
      reconciler.positionDiscrepancies runtime.positions positions ++
      reconciler.balanceDiscrepancies runtime.cashBalance balance
    ordersRuntime := runtime.orders.entries.length
    ordersDb := orders.entries.length
    fillsRuntime := runtime.fills.entries.length
    fillsDb := fills.entries.length
    balanceRuntime := runtime.cashBalance
    balanceDb := balance
    positionSymbolsRuntime := runtime.positions.entries.length
    positionSymbolsDb := positions.entries.length }

/-- `reconcile`, with a state reader and a database reader that are there or not. -/
def reconcile (stateReader : Option PaperExecutionEngine) (dbReader : Option DatabaseRows)
    (now : Datetime) : Except ReconcileError ReconciliationResult :=
  match stateReader, dbReader with
  | some runtime, some rows => do
    let orders ← keyed OrderRow.key rows.orders
    let fills ← keyed FillRow.key rows.fills
    let positions := Dict.ofItems PositionRow.symbol id rows.positions
    let balance := rows.state.elim 0 PaperRuntimeState.cashBalance
    return reconciler.compare runtime orders fills positions balance now
  | _, _ => .ok { checkedAt := now, success := false }

/-! ### When a comparison is fatal -/

section Fatal

variable {reconciler} {runtime : PaperExecutionEngine} {orders : Dict Identifier OrderRow}
  {fills : Dict Identifier FillRow} {positions : Dict String PositionRow} {balance : Decimal}
  {now : Datetime}

/-- A fatal discrepancy is among these. -/
def AnyFatal (discrepancies : List Discrepancy) : Prop := ∃ d ∈ discrepancies, d.severity = .fatal

theorem anyFatal_append (first rest : List Discrepancy) :
    AnyFatal (first ++ rest) ↔ AnyFatal first ∨ AnyFatal rest := by
  simp [AnyFatal, or_and_right, exists_or]

theorem anyFatal_orders {runtime : Dict Identifier PaperOrderState} {db : Dict Identifier OrderRow} :
    AnyFatal (orderDiscrepancies runtime db) ↔ ∃ id ∈ db.keys, id ∉ runtime.keys := by
  have hkeys : ∀ id, id ∈ db.keys ↔ ∃ row, (id, row) ∈ db.entries := by simp [Dict.keys]
  simp [AnyFatal, orderDiscrepancies, Discrepancy.severity, or_and_right, exists_or, hkeys]

theorem anyFatal_fills {runtime : Dict Identifier PaperFillState} {db : Dict Identifier FillRow} :
    AnyFatal (fillDiscrepancies runtime db) ↔ ∃ id ∈ db.keys, id ∉ runtime.keys := by
  simp [AnyFatal, fillDiscrepancies, Discrepancy.severity, or_and_right, exists_or]

theorem anyFatal_balance {runtime db : Decimal} :
    AnyFatal (reconciler.balanceDiscrepancies runtime db) ↔
      |runtime - db| > reconciler.balanceTolerance := by
  unfold balanceDiscrepancies
  split <;> simp_all [AnyFatal, Discrepancy.severity]

/-- What a symbol has in the runtime and in the database differs by more than the tolerance. -/
def Disagrees (reconciler : PaperReconciler) :
    Option PaperPositionState → Option PositionRow → Prop
  | some position, none => reconciler.positionTolerance < position.quantity
  | none, some row => ∃ quantity, row.extractQuantity = some quantity ∧
      reconciler.positionTolerance < quantity
  | some position, some row => reconciler.positionTolerance <
      |position.quantity - row.extractQuantity.getD 0|
  | none, none => False

theorem aboveTolerance_eq_some {quantity : Option Decimal} {above : Decimal} :
    reconciler.aboveTolerance quantity = some above ↔
      quantity = some above ∧ reconciler.positionTolerance < above := by
  simp [aboveTolerance, Option.filter_eq_some_iff]

theorem anyFatal_positions {runtime : Dict String PaperPositionState} {db : Dict String PositionRow} :
    AnyFatal (reconciler.positionDiscrepancies runtime db) ↔
      ∃ symbol, reconciler.Disagrees (runtime.get? symbol) (db.get? symbol) := by
  unfold positionDiscrepancies
  rw [anyFatal_append, anyFatal_append]
  constructor
  · rintro ((⟨d, hd, -⟩ | ⟨d, hd, -⟩) | ⟨d, hd, -⟩)
    · obtain ⟨⟨symbol, position⟩, hentry, habove⟩ := List.mem_filterMap.mp hd
      obtain ⟨hmem, hmissing⟩ := List.mem_filter.mp hentry
      obtain ⟨above, habove, -⟩ := Option.map_eq_some_iff.mp habove
      obtain ⟨hquantity, habove⟩ := aboveTolerance_eq_some.mp habove
      refine ⟨symbol, ?_⟩
      rw [Dict.get?_eq_some_iff.mpr hmem, Dict.get?_eq_none_iff.mpr (of_decide_eq_true hmissing)]
      cases hquantity
      exact habove
    · obtain ⟨⟨symbol, row⟩, hentry, habove⟩ := List.mem_filterMap.mp hd
      obtain ⟨hmem, hmissing⟩ := List.mem_filter.mp hentry
      obtain ⟨above, habove, -⟩ := Option.map_eq_some_iff.mp habove
      refine ⟨symbol, ?_⟩
      rw [Dict.get?_eq_some_iff.mpr hmem, Dict.get?_eq_none_iff.mpr (of_decide_eq_true hmissing)]
      exact ⟨above, aboveTolerance_eq_some.mp habove⟩
    · obtain ⟨⟨symbol, position⟩, hmem, hrow⟩ := List.mem_filterMap.mp hd
      obtain ⟨row, hrow, hdiffers⟩ := Option.bind_eq_some_iff.mp hrow
      refine ⟨symbol, ?_⟩
      rw [Dict.get?_eq_some_iff.mpr hmem, hrow]
      dsimp only at hdiffers
      split at hdiffers
      · assumption
      · cases hdiffers
  · rintro ⟨symbol, hdisagrees⟩
    cases hruntime : runtime.get? symbol with
    | some position =>
      have hentry := Dict.get?_eq_some_iff.mp hruntime
      cases hdb : db.get? symbol with
      | none =>
        rw [hruntime, hdb] at hdisagrees
        refine .inl (.inl ⟨.positionMissingInDb symbol position.quantity, ?_, rfl⟩)
        refine List.mem_filterMap.mpr ⟨(symbol, position), List.mem_filter.mpr ⟨hentry, ?_⟩, ?_⟩
        · exact decide_eq_true (Dict.get?_eq_none_iff.mp hdb)
        · exact Option.map_eq_some_iff.mpr ⟨_, aboveTolerance_eq_some.mpr ⟨rfl, hdisagrees⟩, rfl⟩
      | some row =>
        rw [hruntime, hdb] at hdisagrees
        refine .inr ⟨.positionQuantityMismatch symbol position.quantity
          (row.extractQuantity.getD 0), List.mem_filterMap.mpr ⟨(symbol, position), hentry, ?_⟩, rfl⟩
        exact Option.bind_eq_some_iff.mpr ⟨row, hdb, if_pos hdisagrees⟩
    | none =>
      cases hdb : db.get? symbol with
      | none =>
        rw [hruntime, hdb] at hdisagrees
        exact hdisagrees.elim
      | some row =>
        rw [hruntime, hdb] at hdisagrees
        obtain ⟨quantity, hquantity, habove⟩ := hdisagrees
        refine .inl (.inr ⟨.positionMissingInRuntime symbol quantity, ?_, rfl⟩)
        refine List.mem_filterMap.mpr ⟨(symbol, row),
          List.mem_filter.mpr ⟨Dict.get?_eq_some_iff.mp hdb, ?_⟩, ?_⟩
        · exact decide_eq_true (Dict.get?_eq_none_iff.mp hruntime)
        · exact Option.map_eq_some_iff.mpr
            ⟨_, aboveTolerance_eq_some.mpr ⟨hquantity, habove⟩, rfl⟩

/-- A comparison is fatal exactly when an order or a fill of the database is not in the runtime, a
position disagrees, or the balance does. -/
theorem hasFatal_compare :
    (reconciler.compare runtime orders fills positions balance now).hasFatal = true ↔
      (∃ id ∈ orders.keys, id ∉ runtime.orders.keys) ∨ (∃ id ∈ fills.keys, id ∉ runtime.fills.keys) ∨
      (∃ symbol, reconciler.Disagrees (runtime.positions.get? symbol) (positions.get? symbol)) ∨
      |runtime.cashBalance - balance| > reconciler.balanceTolerance := by
  have hfatal : (reconciler.compare runtime orders fills positions balance now).hasFatal = true ↔
      AnyFatal (reconciler.compare runtime orders fills positions balance now).discrepancies := by
    simp [ReconciliationResult.hasFatal, AnyFatal]
  rw [hfatal]
  unfold compare
  dsimp only
  rw [anyFatal_append, anyFatal_append, anyFatal_append, anyFatal_orders, anyFatal_fills,
    anyFatal_positions, anyFatal_balance, or_assoc, or_assoc]

end Fatal

end PaperReconciler

end CryptoTrading
