import CryptoTrading.Risk.RiskEngine

/-! The risk engine with its state store, across a restart.  The mutators write the figures and the
emergency stop of the account; what the engine knows of the database, of the exchange API, of the
reconciliation and of the age of its data is written nowhere, and a new engine takes all of it to be
fine. -/

namespace CryptoTrading

/-- An event of an account gate or of an operational gate. -/
def RiskEvent.guards : RiskEvent → Bool
  | .emergencyStop | .dailyLossLimit | .weeklyLossLimit | .maxDrawdown | .reconciliationFailed
  | .databaseUnavailable | .apiUnavailable | .staleData => true
  | _ => false

namespace RiskEngine

/-- `_state`. -/
def state (engine : RiskEngine) : StoredState where
  dailyPnl := engine.dailyPnl
  weeklyPnl := engine.weeklyPnl
  peakEquity := engine.peakEquity
  currentEquity := engine.currentEquity
  isEmergencyStop := engine.isEmergencyStop
  emergencyStopReason := engine.emergencyStopReason
  consecutiveErrors := engine.consecutiveErrors

/-! ### The gates by what they read -/

/-- A gate on the account is closed: these read what the engine keeps in its store. -/
def AccountClosed (engine : RiskEngine) (args : TradeArguments) : Prop :=
  engine.isEmergencyStop = true ∨ engine.AtLimit args.totalCapital

/-- The data of the engine are older than the threshold. -/
def Stale (engine : RiskEngine) (args : TradeArguments) : Prop :=
  ∃ age, engine.dataAge args.now = some age ∧ (engine.config.staleDataThresholdMinutes : ℚ) < age

/-- An operational gate is closed by what the engine itself knows: the order brings no value of its own
for it. -/
def Uncertain (engine : RiskEngine) (args : TradeArguments) : Prop :=
  (args.databaseAvailable = none ∧ engine.databaseAvailable = false) ∨
  (args.apiAvailable = none ∧ engine.apiAvailable = false) ∨
  (args.reconciliationOk = none ∧ engine.reconciliationOk = false) ∨ engine.Stale args

end RiskEngine

namespace TradeArguments

/-- An operational gate is closed by a value that the order brings. -/
def BringsFailure (args : TradeArguments) : Prop :=
  args.databaseAvailable = some false ∨ args.apiAvailable = some false ∨
    args.reconciliationOk = some false

/-- The order is too large, too risky, or has a status that is unknown. -/
def ExceedsLimits (args : TradeArguments) (config : RiskConfig) : Prop :=
  args.unknownStatuses ≠ [] ∨
  config.maxPositionSize < |args.after| / args.totalCapital ∨
  args.currentBalance < args.exposureIncrease ∨
  (∃ stop, args.stopLossPrice = some stop ∧ config.maxRiskPerTrade <
    args.exposureIncrease / args.price * |args.price - stop| / args.totalCapital) ∨
  config.maxAssetExposure < |args.after| / args.totalCapital ∨
  config.maxCapitalUtilization < (args.otherExposure + |args.after|) / args.totalCapital

/-- The order is in a new symbol, and there are as many positions as are admitted. -/
def TooManyOpen (args : TradeArguments) (config : RiskConfig) : Prop :=
  some args.symbol ∉ args.currentPositions.values.map RiskPosition.symbol ∧
    config.maxOpenPositions ≤ args.currentPositions.entries.length

/-- A gate on the order itself is closed. -/
def Refused (args : TradeArguments) (config : RiskConfig) : Prop :=
  args.ExceedsLimits config ∨ args.TooManyOpen config

end TradeArguments

namespace RiskEngine

variable {engine : RiskEngine} {args : TradeArguments}

theorem not_getD_iff {brought : Option Bool} {known : Bool} :
    (!brought.getD known) = true ↔ brought = some false ∨ brought = none ∧ known = false := by
  cases brought <;> simp

theorem stale_iff :
    ((engine.dataAge args.now).any fun age =>
      decide (age > (engine.config.staleDataThresholdMinutes : Decimal))) = true ↔
      engine.Stale args := by
  rw [Option.any_eq_true, Stale]
  simp only [decide_eq_true_eq, gt_iff_lt]

theorem exists_guards_iff :
    (∃ gate ∈ engine.gates args, gate.1 = true ∧ gate.2.event.guards = true) ↔
      engine.AccountClosed args ∨ args.BringsFailure ∨ engine.Uncertain args := by
  simp only [gates, List.exists_mem_cons_iff, List.not_mem_nil, false_and, exists_false, or_false,
    RiskEvent.guards, and_true, and_false, Bool.false_eq_true, false_or, not_getD_iff, stale_iff,
    decide_eq_true_eq, AccountClosed, AtLimit, TradeArguments.BringsFailure, Uncertain]
  exact iff_of_eq (by ac_rfl)

theorem risk_iff :
    ((args.stopLossPrice.map fun stop =>
        args.exposureIncrease / args.price * |args.price - stop| / args.totalCapital).any
      fun pct => decide (pct > engine.config.maxRiskPerTrade)) = true ↔
      ∃ stop, args.stopLossPrice = some stop ∧ engine.config.maxRiskPerTrade <
        args.exposureIncrease / args.price * |args.price - stop| / args.totalCapital := by
  cases args.stopLossPrice <;> simp

/-- A gate is closed: one that guards, or one on the order itself. -/
theorem exists_closed_iff :
    (∃ gate ∈ engine.gates args, gate.1 = true) ↔
      (engine.AccountClosed args ∨ args.BringsFailure ∨ engine.Uncertain args) ∨
        args.Refused engine.config := by
  have hunknown : (!args.unknownStatuses.isEmpty) = true ↔ args.unknownStatuses ≠ [] := by
    rw [Bool.not_eq_true', List.isEmpty_eq_false_iff]
  simp only [gates, List.exists_mem_cons_iff, List.not_mem_nil, false_and, exists_false, or_false,
    not_getD_iff, stale_iff, risk_iff, hunknown, decide_eq_true_eq, gt_iff_lt, ge_iff_le,
    AccountClosed, AtLimit, TradeArguments.BringsFailure, Uncertain, TradeArguments.Refused,
    TradeArguments.ExceedsLimits, TradeArguments.TooManyOpen]
  exact iff_of_eq (by ac_rfl)

/-- A trade is rejected on a guarding gate when its values are valid and it increases the exposure. -/
theorem guards_iff :
    (∃ event ∈ (engine.checkTrade args).events, event.guards = true) ↔
      args.valid = true ∧ args.reducing = false ∧
        (engine.AccountClosed args ∨ args.BringsFailure ∨ engine.Uncertain args) := by
  rw [← exists_guards_iff]
  unfold checkTrade
  cases hvalid : args.valid with
  | false => simp [RiskEvent.guards]
  | true =>
    cases hreducing : args.reducing with
    | true => simp [rejections, hreducing]
    | false => simp [rejections, hreducing]

/-- A trade is rejected when its values are not valid, or it increases the exposure through a gate that
is closed. -/
theorem not_approved_iff :
    (engine.checkTrade args).approved = false ↔
      args.valid = false ∨ args.reducing = false ∧
        ((engine.AccountClosed args ∨ args.BringsFailure ∨ engine.Uncertain args) ∨
          args.Refused engine.config) := by
  rw [← exists_closed_iff, ← Bool.not_eq_true, checkTrade_approved_iff, rejections_eq_nil_iff]
  simp only [not_and_or, not_or, Bool.not_eq_true, not_forall, Bool.not_eq_false, exists_prop]

end RiskEngine

/-- A risk engine, and what its store holds. -/
structure DurableRiskEngine where
  engine : RiskEngine
  stored : Option RiskEngine.StoredState

namespace DurableRiskEngine

/-- `__init__`. -/
def start (config : RiskConfig) (stored : Option RiskEngine.StoredState) : DurableRiskEngine :=
  ⟨.new config stored, stored⟩

/-- `_save_state`. -/
def saveState (durable : DurableRiskEngine) : DurableRiskEngine :=
  { durable with stored := some durable.engine.state }

/-- An operation, with its call of `_save_state`; `record_error` ends with one on either branch. -/
def apply (durable : DurableRiskEngine) (operation : RiskEngine.Operation) : DurableRiskEngine :=
  let applied := { durable with engine := durable.engine.apply operation }
  match operation with
  | .updateSystemHealth .. | .updateReconciliation _ | .updateDataTime _ => applied
  | .updatePnl .. | .updateEquity _ | .setEmergencyStop .. | .recordError | .resetErrors
  | .resetDaily | .resetWeekly => applied.saveState

def applyAll (durable : DurableRiskEngine) (operations : List RiskEngine.Operation) :
    DurableRiskEngine :=
  operations.foldl apply durable

/-- What a restart restores is what the engine has. -/
structure Durable (config : RiskConfig) (durable : DurableRiskEngine) : Prop where
  config : durable.engine.config = config
  state : durable.stored.getD {} = durable.engine.state

theorem Durable.start (config : RiskConfig) (stored : Option RiskEngine.StoredState) :
    Durable config (.start config stored) :=
  ⟨rfl, rfl⟩

theorem Durable.apply {config : RiskConfig} {durable : DurableRiskEngine}
    (h : Durable config durable) (operation : RiskEngine.Operation) :
    Durable config (durable.apply operation) := by
  obtain ⟨hconfig, hstate⟩ := h
  cases operation with
  | updateSystemHealth databaseAvailable apiAvailable => exact ⟨hconfig, hstate⟩
  | updateReconciliation successful => exact ⟨hconfig, hstate⟩
  | updateDataTime timestamp => exact ⟨hconfig, hstate⟩
  | recordError =>
    refine ⟨?_, rfl⟩
    show durable.engine.recordError.config = config
    unfold RiskEngine.recordError
    dsimp only
    split <;> exact hconfig
  | _ => exact ⟨hconfig, rfl⟩

theorem Durable.applyAll {config : RiskConfig} {durable : DurableRiskEngine}
    (h : Durable config durable) (operations : List RiskEngine.Operation) :
    Durable config (durable.applyAll operations) := by
  induction operations generalizing durable with
  | nil => exact h
  | cons operation operations ih => exact ih (h.apply operation)

variable {config : RiskConfig} {durable : DurableRiskEngine} {args : TradeArguments}

theorem Durable.accountClosed_new (h : Durable config durable) :
    (RiskEngine.new config durable.stored).AccountClosed args ↔ durable.engine.AccountClosed args := by
  obtain ⟨rfl, hstate⟩ := h
  unfold RiskEngine.new
  rw [hstate]
  exact Iff.rfl

theorem not_uncertain_new (stored : Option RiskEngine.StoredState) :
    ¬(RiskEngine.new config stored).Uncertain args := by
  rintro (⟨-, hknown⟩ | ⟨-, hknown⟩ | ⟨-, hknown⟩ | ⟨age, hage, -⟩)
  · cases hknown
  · cases hknown
  · cases hknown
  · cases hage

/-- After any operations a new engine rejects whatever the running one rejects on a guarding gate, unless
what the running one knows of its operation is all that is closed. -/
theorem restart_fails_closed_iff (config : RiskConfig) (stored : Option RiskEngine.StoredState)
    (operations : List RiskEngine.Operation) (args : TradeArguments) :
    ((∃ event ∈ (((start config stored).applyAll operations).engine.checkTrade args).events,
        event.guards = true) →
      ((RiskEngine.new config ((start config stored).applyAll operations).stored).checkTrade
        args).approved = false) ↔
      (args.valid = true → args.reducing = false →
        ((start config stored).applyAll operations).engine.Uncertain args →
        ((start config stored).applyAll operations).engine.AccountClosed args ∨
          args.BringsFailure ∨ args.Refused config) := by
  have hdurable := (Durable.start config stored).applyAll operations
  rw [RiskEngine.guards_iff, RiskEngine.not_approved_iff, hdurable.accountClosed_new]
  have hcertain : ¬(RiskEngine.new config ((start config stored).applyAll operations).stored).Uncertain
    args := not_uncertain_new _
  have hconfig : (RiskEngine.new config ((start config stored).applyAll operations).stored).config =
    config := rfl
  rw [hconfig]
  cases args.valid <;> cases args.reducing <;> simp only [Bool.false_eq_true] <;> tauto

/-- An order to buy one unit at one, of a capital of a thousand. -/
def smallOrder : TradeArguments where
  symbol := "BTCUSDT"
  side := "buy"
  quantity := 1
  price := 1
  currentBalance := 1000
  currentPositions := .empty
  totalCapital := 1000
  now := 0

/-- The reconciliation has failed; the engine that is restarted approves. -/
theorem restart_forgets_reconciliation :
    (∃ event ∈ (((start {} none).applyAll [.updateReconciliation false]).engine.checkTrade
        smallOrder).events, event.guards = true) ∧
      ((RiskEngine.new {} ((start {} none).applyAll [.updateReconciliation false]).stored).checkTrade
        smallOrder).approved = true := by
  constructor
  · exact ⟨.reconciliationFailed, by decide +kernel, rfl⟩
  · decide +kernel

end DurableRiskEngine

end CryptoTrading
