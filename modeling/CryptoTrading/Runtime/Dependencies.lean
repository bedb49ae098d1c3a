import CryptoTrading.Execution.PaperTradingRuntime
import CryptoTrading.Risk.RiskEngine

/-! The adapter from the runtime's requests to the risk engine, when it lets an order that sells what
is held through, when it refuses one that buys, and the runtime that is composed with it. -/

namespace CryptoTrading.RiskEngineAdapter

open Kit

/-- The price that a request is checked at: the close of the last candle, or zero. -/
def price (execution : PaperExecutionEngine) : Decimal :=
  execution.lastCandle.elim 0 Candle.close

/-- The positions of the paper engine at their cost, as the risk engine takes them. -/
def currentPositions (execution : PaperExecutionEngine) : Dict String RiskPosition :=
  execution.positions.mapValues fun symbol position =>
    { symbol := some symbol, value := position.quantity * position.averagePrice, side := "buy" }

/-- The arguments of the call of `check_trade`. -/
def tradeArguments (totalCapital : Decimal) (request : ExecutionRequest)
    (execution : PaperExecutionEngine) (now : Datetime) : TradeArguments :=
  { symbol := request.symbol, side := request.side.value, quantity := request.quantity
    price := price execution, currentBalance := execution.cashBalance
    currentPositions := currentPositions execution, totalCapital, now }

/-- `validate_request`. -/
def validateRequest (engine : RiskEngine) (totalCapital : Decimal) (request : ExecutionRequest)
    (execution : PaperExecutionEngine) (now : Datetime) : Bool :=
  (engine.checkTrade (tradeArguments totalCapital request execution now)).approved

/-! ### Orders that sell what is held -/

variable {totalCapital : Decimal} {request : ExecutionRequest} {execution : PaperExecutionEngine}
  {now : Datetime}

theorem value_toLower (side : OrderSide) :
    side.value.toLower = match side with | .buy => "buy" | .sell => "sell" := by
  cases side <;> decide +kernel

/-- The cost of the position in the symbol is its value before the trade. -/
theorem tradeArguments_before (totalCapital : Decimal) (request : ExecutionRequest)
    (execution : PaperExecutionEngine) (now : Datetime) :
    (tradeArguments totalCapital request execution now).before =
    |execution.heldQuantity request.symbol * execution.heldPrice request.symbol| := by
  have hbuy : ("buy" : String).toLower ∉ ["sell", "short"] := by decide +kernel
  have hvalues : (currentPositions execution).values.filter
      (fun p => decide (p.symbol = some request.symbol)) =
      (execution.positions.entries.filter fun entry => decide (entry.1 = request.symbol)).map
        fun entry => { symbol := some entry.1, value := entry.2.quantity * entry.2.averagePrice } := by
    simp [currentPositions, Dict.values, Dict.mapValues, List.filter_map, Function.comp_def]
  show (((currentPositions execution).values.filter fun p =>
    decide (p.symbol = some request.symbol)).map RiskPosition.signedValue).sum = _
  rw [hvalues, Dict.filter_entries_key]
  cases h : execution.positions.get? request.symbol <;>
    simp [PaperExecutionEngine.heldQuantity, PaperExecutionEngine.heldPrice, h,
      RiskPosition.signedValue, hbuy]

/-- A sale reduces the exposure when it is worth at most twice the cost of the position. -/
theorem reducing_sell_iff (hsell : request.side = .sell) (hprice : 0 < price execution)
    (hquantity : 0 < request.quantity) :
    (tradeArguments totalCapital request execution now).reducing = true ↔
      request.quantity * price execution ≤
        2 * |execution.heldQuantity request.symbol * execution.heldPrice request.symbol| := by
  have hside : (tradeArguments totalCapital request execution now).side.toLower ≠ "buy" := by
    simp only [tradeArguments, hsell]
    decide +kernel
  have hheld := tradeArguments_before totalCapital request execution now
  rw [← hheld]
  exact TradeArguments.reducing_sale_iff hside (hheld ▸ abs_nonneg _) (mul_pos hquantity hprice)

theorem valid_sell (hsell : request.side = .sell) (hcapital : 0 < totalCapital)
    (hprice : 0 < price execution) (hquantity : 0 < request.quantity) :
    (tradeArguments totalCapital request execution now).valid = true := by
  simp [TradeArguments.valid, tradeArguments, hsell, hcapital, hprice, hquantity, value_toLower]

/-- A sale is approved in every state that the operations of a risk engine lead to exactly when it
is worth at most twice the cost of the position. -/
theorem sell_never_trapped_iff (engine : RiskEngine) (totalCapital : Decimal)
    (request : ExecutionRequest) (execution : PaperExecutionEngine) (hcapital : 0 < totalCapital)
    (hsell : request.side = .sell) (hprice : 0 < price execution)
    (hquantity : 0 < request.quantity) :
    (∀ operations now, validateRequest (engine.applyAll operations) totalCapital request execution
        now = true) ↔
      request.quantity * price execution ≤
        2 * |execution.heldQuantity request.symbol * execution.heldPrice request.symbol| := by
  simp only [validateRequest, RiskEngine.checkTrade_approved_iff,
    valid_sell hsell hcapital hprice hquantity, true_and]
  constructor
  · intro h
    have hstop := h [.setEmergencyStop true ""] 0
    rw [RiskEngine.rejections_of_emergencyStop rfl] at hstop
    exact (reducing_sell_iff hsell hprice hquantity).mp hstop
  · intro hcost operations now
    exact RiskEngine.rejections_of_reducing _ ((reducing_sell_iff hsell hprice hquantity).mpr hcost)

/-- One unit bought at 100, and a last close of 250. -/
def rallied : PaperExecutionEngine where
  lastCandle := some ⟨"BTCUSDT", 0, hour, 250, 250, 250, 250, 1⟩
  positions := Dict.empty.set "BTCUSDT" ⟨"BTCUSDT", 1, 100⟩

/-- After the rally an emergency stop blocks the exit. -/
theorem exit_trapped : ¬∀ (engine : RiskEngine) (totalCapital : Decimal)
    (request : ExecutionRequest) (execution : PaperExecutionEngine) (now : Datetime),
    0 < totalCapital → request.side = .sell → 0 < price execution → 0 < request.quantity →
    request.quantity ≤ execution.heldQuantity request.symbol →
    validateRequest (engine.applyAll [.setEmergencyStop true ""]) totalCapital request execution
      now = true := by
  intro h
  have hexit := h {} 1000 ⟨"BTCUSDT", .sell, 1⟩ rallied 0 (by decide +kernel) rfl
    (by decide +kernel) (by decide +kernel) (by decide +kernel)
  revert hexit
  decide +kernel

/-- `sell_never_trapped_iff` for the exit from `rallied`. -/
theorem rallied_exit_trapped : ¬∀ operations now, validateRequest (RiskEngine.applyAll {} operations)
    1000 ⟨"BTCUSDT", .sell, 1⟩ rallied now = true := by
  rw [sell_never_trapped_iff {} 1000 ⟨"BTCUSDT", .sell, 1⟩ rallied (by decide +kernel) rfl
    (by decide +kernel) (by decide +kernel)]
  decide +kernel

/-! ### Orders that buy -/

/-- The values of the request are not valid. -/
def Invalid (totalCapital : Decimal) (request : ExecutionRequest)
    (execution : PaperExecutionEngine) : Prop :=
  request.quantity ≤ 0 ∨ price execution ≤ 0 ∨ totalCapital ≤ 0

/-- The cost of the position in the symbol with the worth of a purchase. -/
def exposureAfter (request : ExecutionRequest) (execution : PaperExecutionEngine) : Decimal :=
  |execution.heldQuantity request.symbol * execution.heldPrice request.symbol| +
    request.quantity * price execution

/-- A purchase is too large for the position, the balance, the capital or the number of positions. -/
def Oversized (config : RiskConfig) (totalCapital : Decimal) (request : ExecutionRequest)
    (execution : PaperExecutionEngine) : Prop :=
  exposureAfter request execution / totalCapital > config.maxPositionSize ∨
  request.quantity * price execution > execution.cashBalance ∨
  exposureAfter request execution / totalCapital > config.maxAssetExposure ∨
  (((execution.positions.erase request.symbol).values.map fun position =>
      |position.quantity * position.averagePrice|).sum + exposureAfter request execution) /
    totalCapital > config.maxCapitalUtilization ∨
  (execution.positions.get? request.symbol = none ∧
    execution.positions.entries.length ≥ config.maxOpenPositions)

theorem currentPositions_values (execution : PaperExecutionEngine) :
    (currentPositions execution).values = execution.positions.entries.map fun entry =>
      { symbol := some entry.1, value := entry.2.quantity * entry.2.averagePrice } := by
  simp [currentPositions, Dict.values, Dict.mapValues, Function.comp_def]

theorem tradeArguments_otherExposure (totalCapital : Decimal) (request : ExecutionRequest)
    (execution : PaperExecutionEngine) (now : Datetime) :
    (tradeArguments totalCapital request execution now).otherExposure =
      ((execution.positions.erase request.symbol).values.map fun position =>
        |position.quantity * position.averagePrice|).sum := by
  show (((currentPositions execution).values.filter fun p =>
    decide (p.symbol ≠ some request.symbol)).map fun p => |p.signedValue|).sum = _
  simp [currentPositions, Dict.values, Dict.mapValues, Dict.erase, List.filter_map,
    Function.comp_def, RiskPosition.abs_signedValue]

section Buy

variable {engine : RiskEngine} (hbuy : request.side = .buy)

include hbuy

theorem buy_toLower : (tradeArguments totalCapital request execution now).side.toLower = "buy" := by
  simp [tradeArguments, hbuy, value_toLower]

theorem valid_buy_iff : (tradeArguments totalCapital request execution now).valid = true ↔
    ¬Invalid totalCapital request execution := by
  simp [TradeArguments.valid, tradeArguments, hbuy, value_toLower, Invalid, and_assoc]

theorem buy_after : (tradeArguments totalCapital request execution now).after =
    exposureAfter request execution := by
  rw [TradeArguments.after, tradeArguments_before, if_pos (buy_toLower hbuy)]
  rfl

theorem buy_exposureIncrease (hworth : 0 < request.quantity * price execution) :
    (tradeArguments totalCapital request execution now).exposureIncrease =
      request.quantity * price execution := by
  have hcost := abs_nonneg (execution.heldQuantity request.symbol * execution.heldPrice request.symbol)
  rw [TradeArguments.exposureIncrease, buy_after hbuy, tradeArguments_before, abs_abs, exposureAfter,
    abs_of_nonneg (add_nonneg hcost hworth.le), add_sub_cancel_left, max_eq_left hworth.le]

/-- The gates of a purchase are those of the engine, of its figures and of the size. -/
theorem gates_buy_iff (hworth : 0 < request.quantity * price execution)
    (hdata : engine.lastDataTime = none) :
    (∀ gate ∈ engine.gates (tradeArguments totalCapital request execution now), gate.1 = false) ↔
      ¬(engine.Suspended ∨ engine.AtLimit totalCapital ∨
        Oversized engine.config totalCapital request execution) := by
  have hafter : (tradeArguments totalCapital request execution now).after =
      exposureAfter request execution := buy_after hbuy
  have hincrease : (tradeArguments totalCapital request execution now).exposureIncrease =
      request.quantity * price execution := buy_exposureIncrease hbuy hworth
  have hexposure : |exposureAfter request execution| = exposureAfter request execution :=
    abs_of_nonneg (add_nonneg (abs_nonneg _) hworth.le)
  have hother := tradeArguments_otherExposure totalCapital request execution now
  have hcount : (tradeArguments totalCapital request execution now).currentPositions.entries.length =
      execution.positions.entries.length := by
    simp [tradeArguments, currentPositions, Dict.mapValues]
  have hunknown : (tradeArguments totalCapital request execution now).unknownStatuses = [] := by
    simp [TradeArguments.unknownStatuses, tradeArguments]
  have hsymbol : some request.symbol ∉
      (tradeArguments totalCapital request execution now).currentPositions.values.map
        RiskPosition.symbol ↔ execution.positions.get? request.symbol = none := by
    rw [Dict.get?_eq_none_iff]
    show some request.symbol ∉ (currentPositions execution).values.map RiskPosition.symbol ↔ _
    rw [currentPositions_values, List.map_map]
    simp [Dict.keys]
  simp only [RiskEngine.gates, RiskEngine.dataAge, hdata, hafter, hexposure, hincrease, hother, hcount,
    hunknown, List.forall_mem_cons, Option.map_none, Option.any_none, decide_eq_false_iff_not]
  simp only [tradeArguments] at hsymbol ⊢
  simp only [hsymbol, RiskEngine.Suspended, RiskEngine.AtLimit, Oversized, Option.getD_none,
    Option.map_none, Option.any_none, Bool.not_eq_false', not_or, Bool.not_eq_true,
    Bool.not_eq_false, List.isEmpty_nil, true_and, List.not_mem_nil, false_imp_iff, implies_true,
    and_true]
  constructor
  · rintro ⟨hstop, hdatabase, hapi, hreconciled, hsize, hbalance, hasset, hutilization, hdaily,
      hweekly, hdrawdown, hpositions⟩
    exact ⟨⟨hstop, hdatabase, hapi, hreconciled⟩, ⟨hdaily, hweekly, hdrawdown⟩, hsize, hbalance,
      hasset, hutilization, hpositions⟩
  · rintro ⟨⟨hstop, hdatabase, hapi, hreconciled⟩, ⟨hdaily, hweekly, hdrawdown⟩, hsize, hbalance,
      hasset, hutilization, hpositions⟩
    exact ⟨hstop, hdatabase, hapi, hreconciled, hsize, hbalance, hasset, hutilization, hdaily,
      hweekly, hdrawdown, hpositions⟩

/-- A purchase is refused exactly where its values are not valid, new exposure is suspended, the
engine's figures are at a limit, or it is too large. -/
theorem validateRequest_buy_iff (hdata : engine.lastDataTime = none) :
    validateRequest engine totalCapital request execution now = false ↔
      Invalid totalCapital request execution ∨ engine.Suspended ∨ engine.AtLimit totalCapital ∨
        Oversized engine.config totalCapital request execution := by
  rw [← Bool.not_eq_true, validateRequest, RiskEngine.checkTrade_approved_iff,
    RiskEngine.rejections_eq_nil_iff, valid_buy_iff hbuy]
  by_cases hinvalid : Invalid totalCapital request execution
  · exact iff_of_true (fun h => h.1 hinvalid) (.inl hinvalid)
  · have hpos := hinvalid
    simp only [Invalid, not_or, not_le] at hpos
    have hworth : 0 < request.quantity * price execution := mul_pos hpos.1 hpos.2.1
    have hincreases : (tradeArguments totalCapital request execution now).reducing = false := by
      simp [TradeArguments.reducing, buy_exposureIncrease hbuy hworth, hworth.ne']
    simp only [hincreases, gates_buy_iff hbuy hworth hdata, Bool.false_eq_true, false_or,
      not_and_or, not_not]

end Buy

end CryptoTrading.RiskEngineAdapter

/-! ### The composition -/

namespace CryptoTrading

/-- What the rest of the application tells the risk engine: the outcome of a database check of
`HealthCoordinator.check_now`, or of the reconciliation in `PaperApplication.start`. -/
inductive HealthUpdate
  | systemHealth (databaseAvailable : Bool)
  | reconciliation (successful : Bool)

def HealthUpdate.operation : HealthUpdate → RiskEngine.Operation
  | .systemHealth databaseAvailable => .updateSystemHealth databaseAvailable true
  | .reconciliation successful => .updateReconciliation successful

/-- What `build_paper_dependencies` composes a runtime from.  `runtime` is the rest of the runtime,
its strategy included; `updates` are those before the requests of the event with a sequence are checked,
and `now` is the clock then. -/
structure PaperDependencies (σ : Type) where
  runtime : RuntimeSettings σ
  riskConfig : RiskConfig := {}
  riskState : Option RiskEngine.StoredState := none
  initialCapital : Decimal
  updates : ℤ → List HealthUpdate := fun _ => []
  now : ℤ → Datetime := fun _ => 0

namespace PaperDependencies

variable {σ : Type} (dependencies : PaperDependencies σ)

/-- The risk engine as it is constructed. -/
def startingRisk : RiskEngine := .new dependencies.riskConfig dependencies.riskState

/-- The risk engine while the requests of the event with a sequence are checked. -/
def riskEngine (sequence : ℤ) : RiskEngine :=
  dependencies.startingRisk.applyAll ((dependencies.updates sequence).map HealthUpdate.operation)

/-- `RiskEngineAdapter(risk_engine, capital)`. -/
def riskManager (request : ExecutionRequest) (execution : PaperExecutionEngine) : Option Bool :=
  some (RiskEngineAdapter.validateRequest (dependencies.riskEngine execution.lastSequence)
    dependencies.initialCapital request execution (dependencies.now execution.lastSequence))

def settings : RuntimeSettings σ :=
  { dependencies.runtime with riskManager := some dependencies.riskManager }

/-- `execution`, before a restore: the capital is its cash. -/
def execution : PaperExecutionEngine := { cashBalance := dependencies.initialCapital }

/-- The updates leave the figures of the risk engine, its settings and its emergency stop alone. -/
theorem riskEngine_frame (sequence : ℤ) : ∃ database api reconciliation,
    dependencies.riskEngine sequence = { dependencies.startingRisk with
      databaseAvailable := database, apiAvailable := api, reconciliationOk := reconciliation } := by
  rw [riskEngine]
  generalize dependencies.startingRisk = start
  induction dependencies.updates sequence generalizing start with
  | nil => exact ⟨_, _, _, rfl⟩
  | cons update rest ih =>
    obtain ⟨database, api, reconciliation, h⟩ := ih (start.apply update.operation)
    rw [List.map_cons, RiskEngine.applyAll, List.foldl_cons]
    cases update with
    | systemHealth available => exact ⟨database, api, reconciliation, h⟩
    | reconciliation successful => exact ⟨database, api, reconciliation, h⟩

end PaperDependencies

end CryptoTrading
