import CryptoTrading.Models
import Mathlib.Algebra.Order.Ring.Rat
import Mathlib.Algebra.Order.Group.Abs
import Mathlib.Data.List.Dedup
import Mathlib.Data.String.Basic
import Mathlib.Tactic.Linarith

/-! The risk engine: its state, the operations on it, and the gates of `check_trade`.  A trade that
does not increase the exposure in its symbol passes every gate but the validity of its values. -/

namespace CryptoTrading

open Kit

inductive RiskLevel
  | low
  | medium
  | high
  | critical
  deriving DecidableEq, Repr

/-- `list(RiskLevel).index(level)`. -/
def RiskLevel.index : RiskLevel → ℕ
  | .low => 0
  | .medium => 1
  | .high => 2
  | .critical => 3

inductive RiskEvent
  | maxRiskPerTrade
  | maxPositionSize
  | maxAssetExposure
  | maxCapitalUtilization
  | insufficientBalance
  | dailyLossLimit
  | weeklyLossLimit
  | maxDrawdown
  | emergencyStop
  | staleData
  | apiUnavailable
  | databaseUnavailable
  | reconciliationFailed
  | unknownOrderStatus
  | invalidTrade
  deriving DecidableEq, Repr

/-- The texts of `RiskCheckResult.reasons`, with the values that they show. -/
inductive RiskReason
  /-- "Trade side and monetary values must be valid" -/
  | invalidTrade
  /-- "Emergency stop is active" -/
  | emergencyStop
  /-- "PostgreSQL is unavailable" -/
  | databaseUnavailable
  /-- "Exchange API is unavailable" -/
  | apiUnavailable
  /-- "Latest reconciliation did not succeed" -/
  | reconciliationFailed
  /-- "Unknown order status: {statuses, joined by a comma}" -/
  | unknownOrderStatus (statuses : List String)
  /-- "Data is stale: {age:.1f} minutes old" -/
  | staleData (age : Decimal)
  /-- "Position size {pct:.2%} exceeds limit {limit:.2%}" -/
  | positionSize (pct limit : Decimal)
  /-- "Available balance {balance} is below required {required}" -/
  | insufficientBalance (balance required : Decimal)
  /-- "Trade risk {pct:.2%} exceeds limit {limit:.2%}" -/
  | tradeRisk (pct limit : Decimal)
  /-- "Asset exposure {pct:.2%} exceeds limit {limit:.2%}" -/
  | assetExposure (pct limit : Decimal)
  /-- "Capital utilization {pct:.2%} exceeds limit {limit:.2%}" -/
  | capitalUtilization (pct limit : Decimal)
  /-- "Daily loss limit exceeded" -/
  | dailyLoss
  /-- "Weekly loss limit exceeded" -/
  | weeklyLoss
  /-- "Maximum drawdown exceeded" -/
  | drawdown
  /-- "Too many open positions: {count}" -/
  | tooManyPositions (count : ℕ)
  /-- "Adjusted quantity to {quantity}" -/
  | adjusted (quantity : Decimal)
  deriving DecidableEq

structure RiskConfig where
  maxRiskPerTrade : Decimal := 5 / 1000
  maxPositionSize : Decimal := 10 / 100
  maxAssetExposure : Decimal := 25 / 100
  maxCapitalUtilization : Decimal := 60 / 100
  dailyLossLimit : Decimal := 2 / 100
  weeklyLossLimit : Decimal := 5 / 100
  maxDrawdown : Decimal := 10 / 100
  maxOpenPositions : ℕ := 5
  staleDataThresholdMinutes : ℕ := 5
  deriving DecidableEq

structure RiskCheckResult where
  approved : Bool
  riskLevel : RiskLevel
  reasons : List RiskReason
  events : List RiskEvent
  adjustedQuantity : Option Decimal := none
  deriving DecidableEq

def knownOrderStatuses : List String :=
  ["new", "created", "open", "partially_filled", "filled", "cancelled", "canceled", "rejected"]

/-- An entry of `current_positions`. -/
structure RiskPosition where
  symbol : Option String := none
  value : Decimal := 0
  side : String := "buy"
  deriving DecidableEq

/-- `_position_signed_value`. -/
def RiskPosition.signedValue (position : RiskPosition) : Decimal :=
  if position.side.toLower ∈ ["sell", "short"] then -|position.value| else |position.value|

theorem RiskPosition.abs_signedValue (position : RiskPosition) :
    |position.signedValue| = |position.value| := by
  rw [RiskPosition.signedValue]
  split
  · rw [abs_neg, abs_abs]
  · exact abs_abs _

structure RiskEngine where
  config : RiskConfig := {}
  dailyPnl : Decimal := 0
  weeklyPnl : Decimal := 0
  peakEquity : Decimal := 0
  currentEquity : Decimal := 0
  isEmergencyStop : Bool := false
  emergencyStopReason : String := ""
  lastDataTime : Option Datetime := none
  consecutiveErrors : ℕ := 0
  databaseAvailable : Bool := true
  apiAvailable : Bool := true
  reconciliationOk : Bool := true
  deriving DecidableEq

/-- The arguments of `check_trade`, with the clock reading `now` that it makes. -/
structure TradeArguments where
  symbol : String
  side : String
  quantity : Decimal
  price : Decimal
  currentBalance : Decimal
  currentPositions : Dict String RiskPosition
  totalCapital : Decimal
  stopLossPrice : Option Decimal := none
  databaseAvailable : Option Bool := none
  apiAvailable : Option Bool := none
  reconciliationOk : Option Bool := none
  orderStatuses : List String := []
  now : Datetime

/-- A call of `reject`. -/
structure Rejection where
  reason : RiskReason
  event : RiskEvent
  level : RiskLevel := .high

namespace TradeArguments

variable (args : TradeArguments)

/-- The side and the monetary values are valid. -/
def valid : Bool :=
  decide (args.side.toLower ∈ ["buy", "sell"]) && decide (0 < args.quantity) &&
    decide (0 < args.price) && decide (0 < args.totalCapital)

/-- The signed value of the positions in the symbol. -/
def before : Decimal :=
  ((args.currentPositions.values.filter fun p => decide (p.symbol = some args.symbol)).map
    RiskPosition.signedValue).sum

def orderValue : Decimal := args.quantity * args.price

def after : Decimal :=
  args.before + if args.side.toLower = "buy" then args.orderValue else -args.orderValue

def exposureIncrease : Decimal := max (|args.after| - |args.before|) 0

/-- The trade does not increase the exposure in its symbol. -/
def reducing : Bool := decide (args.exposureIncrease = 0)

def unknownStatuses : List String :=
  ((args.orderStatuses.filter fun status =>
    decide (status.toLower ∉ knownOrderStatuses)).dedup).mergeSort

def otherExposure : Decimal :=
  ((args.currentPositions.values.filter fun p => decide (p.symbol ≠ some args.symbol)).map
    fun p => |p.signedValue|).sum

theorem reducing_sale_iff {args : TradeArguments} (hside : args.side.toLower ≠ "buy")
    (hheld : 0 ≤ args.before) (hworth : 0 < args.orderValue) :
    args.reducing = true ↔ args.orderValue ≤ 2 * args.before := by
  rw [reducing, decide_eq_true_eq, exposureIncrease, max_eq_right_iff, after, if_neg hside,
    sub_nonpos, abs_of_nonneg hheld, abs_le]
  constructor
  · rintro ⟨hlow, -⟩
    linarith
  · intro h
    constructor <;> linarith

end TradeArguments

namespace RiskEngine

/-- The minutes since the last data, when there is any. -/
def dataAge (engine : RiskEngine) (now : Datetime) : Option Decimal :=
  engine.lastDataTime.map fun timestamp => ((now - timestamp : ℤ) : Decimal) / 60000000

/-- The gates of `check_trade` for a trade that increases exposure, in the order of the source. -/
def gates (engine : RiskEngine) (args : TradeArguments) : List (Bool × Rejection) :=
  let config := engine.config
  let share := |args.after| / args.totalCapital
  let risk := args.stopLossPrice.map fun stop =>
    args.exposureIncrease / args.price * |args.price - stop| / args.totalCapital
  let utilization := (args.otherExposure + |args.after|) / args.totalCapital
  let count := args.currentPositions.entries.length
  let symbols := args.currentPositions.values.map RiskPosition.symbol
  [ (engine.isEmergencyStop, ⟨.emergencyStop, .emergencyStop, .critical⟩),
    (!args.databaseAvailable.getD engine.databaseAvailable,
      ⟨.databaseUnavailable, .databaseUnavailable, .critical⟩),
    (!args.apiAvailable.getD engine.apiAvailable,
      ⟨.apiUnavailable, .apiUnavailable, .critical⟩),
    (!args.reconciliationOk.getD engine.reconciliationOk,
      ⟨.reconciliationFailed, .reconciliationFailed, .critical⟩),
    (!args.unknownStatuses.isEmpty,
      ⟨.unknownOrderStatus args.unknownStatuses, .unknownOrderStatus, .critical⟩),
    ((engine.dataAge args.now).any fun age =>
        decide (age > (config.staleDataThresholdMinutes : Decimal)),
      ⟨.staleData ((engine.dataAge args.now).getD 0), .staleData, .high⟩),
    (decide (share > config.maxPositionSize),
      ⟨.positionSize share config.maxPositionSize, .maxPositionSize, .high⟩),
    (decide (args.exposureIncrease > args.currentBalance),
      ⟨.insufficientBalance args.currentBalance args.exposureIncrease, .insufficientBalance,
        .high⟩),
    (risk.any fun pct => decide (pct > config.maxRiskPerTrade),
      ⟨.tradeRisk (risk.getD 0) config.maxRiskPerTrade, .maxRiskPerTrade, .high⟩),
    (decide (share > config.maxAssetExposure),
      ⟨.assetExposure share config.maxAssetExposure, .maxAssetExposure, .high⟩),
    (decide (utilization > config.maxCapitalUtilization),
      ⟨.capitalUtilization utilization config.maxCapitalUtilization, .maxCapitalUtilization,
        .high⟩),
    (decide (engine.dailyPnl < 0 ∧ |engine.dailyPnl| / args.totalCapital > config.dailyLossLimit),
      ⟨.dailyLoss, .dailyLossLimit, .critical⟩),
    (decide (engine.weeklyPnl < 0 ∧
        |engine.weeklyPnl| / args.totalCapital > config.weeklyLossLimit),
      ⟨.weeklyLoss, .weeklyLossLimit, .critical⟩),
    (decide (engine.peakEquity > 0 ∧
        (engine.peakEquity - engine.currentEquity) / engine.peakEquity > config.maxDrawdown),
      ⟨.drawdown, .maxDrawdown, .critical⟩),
    (decide (some args.symbol ∉ symbols ∧ count ≥ config.maxOpenPositions),
      ⟨.tooManyPositions count, .maxPositionSize, .medium⟩) ]

/-- The calls of `reject` that a trade with valid values makes. -/
def rejections (engine : RiskEngine) (args : TradeArguments) : List Rejection :=
  if args.reducing then [] else ((engine.gates args).filter Prod.fst).map Prod.snd

/-- The highest level among the rejections. -/
def levelOf (rejections : List Rejection) : RiskLevel :=
  rejections.foldl (fun level r => if r.level.index > level.index then r.level else level) .low

/-- The quantity that the position limit still admits, when a position-size gate has rejected. -/
def adjustedQuantity (engine : RiskEngine) (args : TradeArguments) (events : List RiskEvent) :
    Option Decimal :=
  let available := max (args.totalCapital * engine.config.maxPositionSize - |args.before|) 0
  if .maxPositionSize ∈ events ∧ available > 0 then some (available / args.price) else none

/-- `check_trade`, less its writes to the event log. -/
def checkTrade (engine : RiskEngine) (args : TradeArguments) : RiskCheckResult :=
  if args.valid then
    let rejections := engine.rejections args
    let events := rejections.map Rejection.event
    let adjusted := engine.adjustedQuantity args events
    let reasons := rejections.map Rejection.reason ++ (adjusted.map RiskReason.adjusted).toList
    ⟨reasons.isEmpty, levelOf rejections, reasons, events, adjusted⟩
  else ⟨false, .critical, [.invalidTrade], [.invalidTrade], none⟩

/-- A trade is approved when its values are valid and no gate rejects it. -/
theorem checkTrade_approved_iff (engine : RiskEngine) (args : TradeArguments) :
    (engine.checkTrade args).approved = true ↔
      args.valid = true ∧ engine.rejections args = [] := by
  unfold checkTrade
  split
  · rename_i hvalid
    simp only [hvalid, true_and, List.isEmpty_iff, List.append_eq_nil_iff, List.map_eq_nil_iff]
    refine ⟨And.left, fun h => ⟨h, ?_⟩⟩
    simp [h, adjustedQuantity]
  · rename_i hvalid
    simp [hvalid]

/-- An adjusted quantity is the rest of the position limit at the price of a trade that a position-size
gate rejects. -/
theorem adjustedQuantity_eq_some_iff {engine : RiskEngine} {args : TradeArguments}
    {quantity : Decimal} : (engine.checkTrade args).adjustedQuantity = some quantity ↔
      args.valid = true ∧ .maxPositionSize ∈ (engine.rejections args).map Rejection.event ∧
        0 < max (args.totalCapital * engine.config.maxPositionSize - |args.before|) 0 ∧
        max (args.totalCapital * engine.config.maxPositionSize - |args.before|) 0 / args.price =
          quantity := by
  unfold checkTrade
  split
  · rename_i hvalid
    simp only [adjustedQuantity, Option.ite_none_right_eq_some, Option.some.injEq, hvalid, true_and,
      gt_iff_lt, and_assoc]
  · rename_i hvalid
    simp [hvalid]

theorem rejections_of_reducing {args : TradeArguments} (engine : RiskEngine)
    (h : args.reducing = true) : engine.rejections args = [] := by
  simp [rejections, h]

theorem rejections_eq_nil_iff {engine : RiskEngine} {args : TradeArguments} :
    engine.rejections args = [] ↔
      args.reducing = true ∨ ∀ gate ∈ engine.gates args, gate.1 = false := by
  cases hreducing : args.reducing with
  | true => simp [rejections, hreducing]
  | false => simp [rejections, hreducing]

theorem rejections_of_emergencyStop {engine : RiskEngine} {args : TradeArguments}
    (hstop : engine.isEmergencyStop = true) :
    engine.rejections args = [] ↔ args.reducing = true := by
  refine ⟨fun h => ?_, rejections_of_reducing engine⟩
  by_contra hincrease
  simp [rejections, hincrease, gates, hstop] at h

/-- An operational gate of `check_trade` is closed. -/
def Suspended (engine : RiskEngine) : Prop :=
  engine.isEmergencyStop = true ∨ engine.databaseAvailable = false ∨ engine.apiAvailable = false ∨
    engine.reconciliationOk = false

/-- A loss gate of `check_trade` is closed on the figures that the engine has. -/
def AtLimit (engine : RiskEngine) (totalCapital : Decimal) : Prop :=
  (engine.dailyPnl < 0 ∧ |engine.dailyPnl| / totalCapital > engine.config.dailyLossLimit) ∨
  (engine.weeklyPnl < 0 ∧ |engine.weeklyPnl| / totalCapital > engine.config.weeklyLossLimit) ∨
  (engine.peakEquity > 0 ∧
    (engine.peakEquity - engine.currentEquity) / engine.peakEquity > engine.config.maxDrawdown)

/-! ### Operations -/

/-- What the engine keeps in its store, and what an entry that is missing counts as. -/
structure StoredState where
  dailyPnl : Decimal := 0
  weeklyPnl : Decimal := 0
  peakEquity : Decimal := 0
  currentEquity : Decimal := 0
  isEmergencyStop : Bool := false
  emergencyStopReason : String := ""
  consecutiveErrors : ℕ := 0

/-- `__init__`, with `_restore_state`, where `stored` is what the store holds. -/
def new (config : RiskConfig) (stored : Option StoredState) : RiskEngine :=
  let state := stored.getD {}
  { config, dailyPnl := state.dailyPnl, weeklyPnl := state.weeklyPnl
    peakEquity := state.peakEquity, currentEquity := state.currentEquity
    isEmergencyStop := state.isEmergencyStop, emergencyStopReason := state.emergencyStopReason
    consecutiveErrors := state.consecutiveErrors }

inductive Operation
  | updateSystemHealth (databaseAvailable apiAvailable : Bool)
  | updateReconciliation (successful : Bool)
  | updatePnl (dailyPnl weeklyPnl : Decimal)
  | updateEquity (equity : Decimal)
  | setEmergencyStop (active : Bool) (reason : String)
  | updateDataTime (timestamp : Datetime)
  | recordError
  | resetErrors
  | resetDaily
  | resetWeekly
  deriving DecidableEq

/-- `set_emergency_stop`. -/
def setEmergencyStop (engine : RiskEngine) (active : Bool) (reason : String) : RiskEngine :=
  { engine with isEmergencyStop := active, emergencyStopReason := if active then reason else "" }

/-- `record_error`: the fifth error in a row activates the emergency stop. -/
def recordError (engine : RiskEngine) : RiskEngine :=
  let counted := { engine with consecutiveErrors := engine.consecutiveErrors + 1 }
  if counted.consecutiveErrors ≥ 5 then
    counted.setEmergencyStop true "Too many consecutive errors"
  else counted

/-- The state that an operation leaves. -/
def apply (engine : RiskEngine) : Operation → RiskEngine
  | .updateSystemHealth databaseAvailable apiAvailable =>
    { engine with databaseAvailable, apiAvailable }
  | .updateReconciliation successful => { engine with reconciliationOk := successful }
  | .updatePnl dailyPnl weeklyPnl => { engine with dailyPnl, weeklyPnl }
  | .updateEquity equity =>
    { engine with currentEquity := equity, peakEquity := max engine.peakEquity equity }
  | .setEmergencyStop active reason => engine.setEmergencyStop active reason
  | .updateDataTime timestamp => { engine with lastDataTime := some timestamp }
  | .recordError => engine.recordError
  | .resetErrors => { engine with consecutiveErrors := 0 }
  | .resetDaily => { engine with dailyPnl := 0 }
  | .resetWeekly => { engine with weeklyPnl := 0 }

/-- The state after a sequence of operations. -/
def applyAll (engine : RiskEngine) (operations : List Operation) : RiskEngine :=
  operations.foldl apply engine

end RiskEngine

end CryptoTrading
