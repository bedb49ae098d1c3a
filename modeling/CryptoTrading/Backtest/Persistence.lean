import CryptoTrading.Kit.NumberedTable
import CryptoTrading.Models
import Mathlib.Logic.Function.Basic

/-! The persistence of backtest audits: a run has the id of its reproducibility inputs, and its header,
signals, risk decisions, orders and fills are inserted in one transaction. -/

namespace CryptoTrading

open Kit

/-! ### Payloads

`J` is what a JSON object has besides the keys that are read. -/

/-- A moment as the payload has it, and as `_as_utc_datetime` normalizes it. -/
structure AuditMoment where
  given : String
  utc : Datetime
  deriving DecidableEq

structure AuditMetadata where
  createdAt : AuditMoment
  gitCommit : Option String
  exchange : String
  symbol : String
  interval : String
  start : AuditMoment
  end_ : AuditMoment
  candleCount : ℤ
  randomSeed : ℤ
  datasetFingerprint : Option String
  indicatorModelVersion : Option String
  regimeModelVersion : Option String
  executionModelVersion : Option String
  deriving DecidableEq

structure AuditParameters (J : Type) where
  parametersVersion : String
  rest : J
  deriving DecidableEq

structure AuditStrategy (J : Type) where
  name : String
  parameters : AuditParameters J
  deriving DecidableEq

/-- `payload["backtest"]`. -/
structure AuditResults where
  initialBalance : Decimal
  finalEquity : Decimal
  totalPnl : Decimal
  totalTrades : ℤ
  winningTrades : ℤ
  losingTrades : ℤ
  winRate : Decimal
  profitFactor : Decimal
  averageTrade : Decimal
  averageWin : Decimal
  averageLoss : Decimal
  maxDrawdown : Decimal
  maxConsecutiveLosses : ℤ
  deriving DecidableEq

structure SignalItem (J : Type) where
  action : String
  symbol : String
  timestamp : AuditMoment
  strategy : Option String := none
  parametersVersion : Option String := none
  regime : Option String := none
  reason : Option String := none
  rest : J
  deriving DecidableEq

structure RiskItem (J : Type) where
  orderId : String
  approved : Bool
  riskLevel : String
  rest : J
  deriving DecidableEq

structure OrderItem (J : Type) where
  orderId : String
  signalSymbol : String
  side : String
  createdAt : AuditMoment
  rest : J
  deriving DecidableEq

structure FillItem (J : Type) where
  fillId : String
  orderId : String
  symbol : String
  side : String
  quantity : Decimal
  price : Decimal
  commission : Decimal
  timestamp : AuditMoment
  rest : J
  deriving DecidableEq

structure AuditPayload (J : Type) where
  metadata : AuditMetadata
  strategy : AuditStrategy J
  configuration : J
  backtest : AuditResults
  signals : List (SignalItem J) := []
  riskDecisions : List (RiskItem J) := []
  orders : List (OrderItem J) := []
  fills : List (FillItem J) := []
  deriving DecidableEq

/-- What the fingerprint is built from. -/
structure ReproducibilityInputs (J : Type) where
  gitCommit : Option String
  exchange : String
  symbol : String
  interval : String
  start : String
  end_ : String
  candleCount : ℤ
  randomSeed : ℤ
  datasetFingerprint : String
  indicatorModelVersion : String
  regimeModelVersion : String
  executionModelVersion : String
  strategy : AuditStrategy J
  configuration : J
  deriving DecidableEq

/-- The SHA-256 of the JSON text of the inputs, and the `uuid5` of a fingerprint, without collisions. -/
structure RunIdentity (J F R : Type) where
  fingerprint : ReproducibilityInputs J → F
  runId : F → R
  fingerprint_injective : Function.Injective fingerprint
  runId_injective : Function.Injective runId

/-! ### Rows

The column `payload` has the JSON text of the item. -/

structure BacktestSignal (J : Type) where
  action : String
  symbol : String
  signalTime : Datetime
  strategyName : String
  parametersVersion : String
  regime : Option String
  reason : String
  payload : SignalItem J
  deriving DecidableEq

structure BacktestRiskDecision (J : Type) where
  orderId : String
  approved : Bool
  riskLevel : String
  payload : RiskItem J
  deriving DecidableEq

structure BacktestOrder (J : Type) where
  orderId : String
  symbol : String
  side : String
  createdAt : Datetime
  payload : OrderItem J
  checks : side = "buy" ∨ side = "sell"
  deriving DecidableEq

structure BacktestFill (J : Type) where
  fillId : String
  orderId : String
  symbol : String
  side : String
  quantity : Decimal
  price : Decimal
  commission : Decimal
  fillTime : Datetime
  payload : FillItem J
  checks : (side = "buy" ∨ side = "sell") ∧ 0 < quantity ∧ 0 < price ∧ 0 ≤ commission
  deriving DecidableEq

/-- The columns of `mart.backtest_run` that come from the payload: those of the results are together. -/
structure RunColumns (J F : Type) where
  runFingerprint : F
  createdAt : Datetime
  gitCommit : Option String
  exchangeName : String
  symbol : String
  intervalCode : String
  periodStart : Datetime
  periodEnd : Datetime
  candleCount : ℤ
  randomSeed : ℤ
  strategyName : String
  parametersVersion : String
  strategyParameters : AuditParameters J
  backtestConfig : J
  datasetFingerprint : String
  indicatorModelVersion : String
  regimeModelVersion : String
  executionModelVersion : String
  results : AuditResults
  checks : 0 < candleCount ∧ 0 < results.initialBalance ∧ 0 ≤ results.totalTrades ∧
    0 ≤ results.winningTrades ∧ 0 ≤ results.losingTrades ∧ 0 ≤ results.maxConsecutiveLosses ∧
    periodStart < periodEnd ∧ results.winningTrades + results.losingTrades = results.totalTrades
  deriving DecidableEq

/-- A row of `mart.backtest_run`. -/
structure RunRow (J F : Type) where
  columns : RunColumns J F
  auditFile : Option String
  deriving DecidableEq

/-- The tables of the audit. -/
inductive AuditTable
  /-- `mart.backtest_signal` -/
  | signal
  /-- `mart.backtest_risk_decision` -/
  | riskDecision
  /-- `mart.backtest_order` -/
  | order
  /-- `mart.backtest_fill` -/
  | fill
  deriving DecidableEq

def BacktestRow (J : Type) : AuditTable → Type
  | .signal => BacktestSignal J
  | .riskDecision => BacktestRiskDecision J
  | .order => BacktestOrder J
  | .fill => BacktestFill J

/-- The column that is `UNIQUE` together with `run_id`. -/
def BacktestRow.name {J : Type} : (table : AuditTable) → BacktestRow J table → Option String
  | .signal, _ => none
  | .riskDecision, row => some (BacktestRiskDecision.orderId row)
  | .order, row => some (BacktestOrder.orderId row)
  | .fill, row => some (BacktestFill.fillId row)

/-- What is raised: a `ValueError` for a key of the metadata, or an `IntegrityError` for a table,
`mart.backtest_run` when it is none of the audit. -/
inductive AuditError
  | metadataRequires (key : String)
  | integrity (table : Option AuditTable)
  deriving DecidableEq

section Rows

variable {J F : Type}

def SignalItem.row (item : SignalItem J) : BacktestSignal J where
  action := item.action
  symbol := item.symbol
  signalTime := item.timestamp.utc
  strategyName := item.strategy.getD ""
  parametersVersion := item.parametersVersion.getD ""
  regime := item.regime
  reason := item.reason.getD ""
  payload := item

def RiskItem.row (item : RiskItem J) : BacktestRiskDecision J where
  orderId := item.orderId
  approved := item.approved
  riskLevel := item.riskLevel
  payload := item

/-- The row of an order, where it passes the check of the table. -/
def OrderItem.row? (item : OrderItem J) : Option (BacktestOrder J) :=
  if h : item.side = "buy" ∨ item.side = "sell" then
    some { orderId := item.orderId, symbol := item.signalSymbol, side := item.side
           createdAt := item.createdAt.utc, payload := item, checks := h }
  else none

/-- The row of a fill, where it passes the checks of the table. -/
def FillItem.row? (item : FillItem J) : Option (BacktestFill J) :=
  if h : (item.side = "buy" ∨ item.side = "sell") ∧ 0 < item.quantity ∧ 0 < item.price ∧
      0 ≤ item.commission then
    some { fillId := item.fillId, orderId := item.orderId, symbol := item.symbol, side := item.side
           quantity := item.quantity, price := item.price, commission := item.commission
           fillTime := item.timestamp.utc, payload := item, checks := h }
  else none

namespace AuditPayload

variable (payload : AuditPayload J)

/-- The rows of a table, where they all pass its checks. -/
def rows? : (table : AuditTable) → Option (List (BacktestRow J table))
  | .signal => some (payload.signals.map SignalItem.row)
  | .riskDecision => some (payload.riskDecisions.map RiskItem.row)
  | .order => payload.orders.mapM OrderItem.row?
  | .fill => payload.fills.mapM FillItem.row?

/-- `_required_metadata(metadata, key)`. -/
def required (value : Option String) (key : String) : Except AuditError String :=
  match value with
  | none => .error (.metadataRequires key)
  | some text => if text = "" then .error (.metadataRequires key) else .ok text

/-- The `reproducibility_inputs` of `build_run_fingerprint`. -/
def inputs : Except AuditError (ReproducibilityInputs J) := do
  let metadata := payload.metadata
  let datasetFingerprint ← required metadata.datasetFingerprint "dataset_fingerprint"
  let indicatorModelVersion ← required metadata.indicatorModelVersion "indicator_model_version"
  let regimeModelVersion ← required metadata.regimeModelVersion "regime_model_version"
  let executionModelVersion ← required metadata.executionModelVersion "execution_model_version"
  return {
    gitCommit := metadata.gitCommit, exchange := metadata.exchange, symbol := metadata.symbol
    interval := metadata.interval, start := metadata.start.given, end_ := metadata.end_.given
    candleCount := metadata.candleCount, randomSeed := metadata.randomSeed
    datasetFingerprint, indicatorModelVersion, regimeModelVersion, executionModelVersion
    strategy := payload.strategy, configuration := payload.configuration }

/-- `run_values`, where they pass the checks of the table. -/
def columns? (fingerprint : F) (inputs : ReproducibilityInputs J) : Option (RunColumns J F) :=
  let metadata := payload.metadata
  let results := payload.backtest
  if h : 0 < metadata.candleCount ∧ 0 < results.initialBalance ∧ 0 ≤ results.totalTrades ∧
      0 ≤ results.winningTrades ∧ 0 ≤ results.losingTrades ∧ 0 ≤ results.maxConsecutiveLosses ∧
      metadata.start.utc < metadata.end_.utc ∧
      results.winningTrades + results.losingTrades = results.totalTrades then
    some {
      runFingerprint := fingerprint, createdAt := metadata.createdAt.utc
      gitCommit := metadata.gitCommit, exchangeName := metadata.exchange, symbol := metadata.symbol
      intervalCode := metadata.interval, periodStart := metadata.start.utc
      periodEnd := metadata.end_.utc, candleCount := metadata.candleCount
      randomSeed := metadata.randomSeed, strategyName := payload.strategy.name
      parametersVersion := payload.strategy.parameters.parametersVersion
      strategyParameters := payload.strategy.parameters, backtestConfig := payload.configuration
      datasetFingerprint := inputs.datasetFingerprint
      indicatorModelVersion := inputs.indicatorModelVersion
      regimeModelVersion := inputs.regimeModelVersion
      executionModelVersion := inputs.executionModelVersion
      results, checks := h }
  else none

end AuditPayload

end Rows

/-! ### The database -/

/-- The tables of `mart`. -/
structure AuditDatabase (J F R : Type) [DecidableEq R] where
  runs : Dict R (RunRow J F) := .empty
  tables : ∀ table : AuditTable, NumberedTable R (BacktestRow.name (J := J) table) := fun _ => .empty

namespace AuditDatabase

variable {J F R : Type} [DecidableEq F] [DecidableEq R] (db : AuditDatabase J F R)

/-- `run_statement`.  A run that has the fingerprint keeps its columns, and its file unless there is a
new one. -/
def insertRun (runId : R) (columns : RunColumns J F) (auditFile : Option String) :
    Except AuditError (AuditDatabase J F R) :=
  match db.runs.entries.find? fun entry =>
      decide (entry.2.columns.runFingerprint = columns.runFingerprint) with
  | some (key, row) =>
    .ok { db with runs := db.runs.set key { row with auditFile := auditFile.or row.auditFile } }
  | none =>
    match db.runs.get? runId with
    | some _ => .error (.integrity none)
    | none => .ok { db with runs := db.runs.set runId ⟨columns, auditFile⟩ }

/-- `signal_statement`, `risk_statement`, `order_statement` or `fill_statement`, for all rows. -/
def insertRows (runId : R) (payload : AuditPayload J) (table : AuditTable) :
    Except AuditError (AuditDatabase J F R) :=
  match (payload.rows? table).bind ((db.tables table).insertFrom runId 1) with
  | none => .error (.integrity (some table))
  | some next => .ok { db with tables := Function.update db.tables table next }

/-- `persist_backtest_audit`: what it raises leaves the database as it was. -/
def persistBacktestAudit (identity : RunIdentity J F R) (payload : AuditPayload J)
    (auditFile : Option String) : Except AuditError (R × AuditDatabase J F R) := do
  let inputs ← payload.inputs
  let fingerprint := identity.fingerprint inputs
  let runId := identity.runId fingerprint
  match payload.columns? fingerprint inputs with
  | none => throw (.integrity none)
  | some columns =>
    let db ← db.insertRun runId columns auditFile
    let db ← db.insertRows runId payload .signal
    let db ← db.insertRows runId payload .riskDecision
    let db ← db.insertRows runId payload .order
    let db ← db.insertRows runId payload .fill
    return (runId, db)

/-- The orders that a fill of a run is joined with in `build_backtest_attribution`. -/
def joinedOrders (runId : R) (fill : BacktestFill J) : List (BacktestOrder J) :=
  (db.tables .order).named runId fill.orderId

end AuditDatabase

/-- The database after some calls, and the payloads that were persisted. -/
structure AuditHistory (J F R : Type) [DecidableEq R] where
  db : AuditDatabase J F R := {}
  persisted : List (AuditPayload J) := []

/-- One call.  What is not committed is rolled back. -/
def AuditHistory.persist {J F R : Type} [DecidableEq F] [DecidableEq R] (identity : RunIdentity J F R)
    (history : AuditHistory J F R) (call : AuditPayload J × Option String) : AuditHistory J F R :=
  match history.db.persistBacktestAudit identity call.1 call.2 with
  | .ok (_, db) => ⟨db, history.persisted ++ [call.1]⟩
  | .error _ => history

/-- The calls one after another, from an empty database. -/
def auditHistory {J F R : Type} [DecidableEq F] [DecidableEq R] (identity : RunIdentity J F R)
    (calls : List (AuditPayload J × Option String)) : AuditHistory J F R :=
  calls.foldl (AuditHistory.persist identity) {}

end CryptoTrading
