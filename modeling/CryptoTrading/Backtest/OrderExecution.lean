import CryptoTrading.Backtest.ExecutionCosts
import CryptoTrading.Backtest.Portfolio

/-! The state of the backtest engine and the execution of its orders: an order is priced with
slippage, weighed by the risk engine, weighed once more at the quantity that the position limit still
admits, and settled with the portfolio. -/

namespace CryptoTrading

open Kit

inductive EndPositionPolicy
  | liquidate
  | markToMarket
  deriving DecidableEq, Repr

/-- The random seed is the stream of draws of the slippage model. -/
structure BacktestConfig where
  initialBalance : Decimal := 5000
  commissionConfig : CommissionConfig := {}
  slippageConfig : SlippageConfig := {}
  endPositionPolicy : EndPositionPolicy := .liquidate
  deriving DecidableEq

/-- What a run raises. -/
inductive BacktestError
  /-- `ValueError`: a text that is no `SignalAction` -/
  | invalidAction (action : String)
  /-- `KeyError` or `TypeError`: a signal that cannot be normalized -/
  | malformedSignal
  /-- `DivisionByZero` -/
  | divisionByZero
  /-- What the strategy or the indicator provider raises. -/
  | strategy (error : String)
  deriving DecidableEq

/-- The engine's state.  `checks` counts the risk checks, of which each reads the clock, and `uuids`
the identities drawn for signals. -/
structure BacktestEngine where
  config : BacktestConfig := {}
  portfolio : Portfolio
  slippageModel : SlippageModel
  riskEngine : RiskEngine := {}
  signals : List Signal := []
  riskDecisions : List RiskDecision := []
  orders : List Order := []
  fills : List Fill := []
  sequence : ℕ := 0
  checks : ℕ := 0
  uuids : ℕ := 0

/-- `BacktestEngine(config, risk_engine)`, with the draws of its random generator. -/
def BacktestEngine.new (config : BacktestConfig) (riskEngine : RiskEngine) (draws : ℕ → Decimal) :
    BacktestEngine :=
  { config, riskEngine, portfolio := .new config.initialBalance
    slippageModel := { config := config.slippageConfig, draws } }

/-- `f"{n:08d}"`. -/
def paddedDigits (n : ℕ) : List Char :=
  List.replicate (8 - (Nat.toDigits 10 n).length) '0' ++ Nat.toDigits 10 n

/-- `f"bt-{kind}-{sequence:08d}"`. -/
def backtestId (kind : String) (sequence : ℕ) : String :=
  "bt-" ++ kind ++ "-" ++ String.ofList (paddedDigits sequence)

/-- Why the engine creates an order. -/
inductive OrderOrigin
  /-- A strategy's signal, executed at the open of the candle at `index`. -/
  | pending (index : ℕ)
  /-- A level touched within the candle at `index`. -/
  | level (index : ℕ)
  /-- The liquidation at the end of the run. -/
  | liquidation
  deriving DecidableEq

/-- The arguments of a call of `_create_and_execute_order`, and where it comes from. -/
structure OrderCall where
  origin : OrderOrigin
  signal : Signal
  requestedPrice : Decimal
  timestamp : Datetime
  averageVolume : Option Decimal := none
  deriving DecidableEq

/-- "buy" for the actions that open a position, and "sell" for the others. -/
def SignalAction.side : SignalAction → OrderSide
  | .buy => .buy
  | .openLong => .buy
  | .sell => .sell
  | .close => .sell

/-- A quantity of an order, the price that it would execute at, and what the risk engine says. -/
structure Quote where
  quantity : Decimal
  executionPrice : Decimal
  result : RiskCheckResult
  deriving DecidableEq

/-- The quantity that a rejected quote may be repeated at. -/
def Quote.retry (quote : Quote) : Option Decimal :=
  if quote.result.approved then none else quote.result.adjustedQuantity

namespace BacktestEngine

/-- `_next_id`. -/
def nextId (engine : BacktestEngine) (kind : String) : String × BacktestEngine :=
  (backtestId kind (engine.sequence + 1), { engine with sequence := engine.sequence + 1 })

/-- The arguments of the risk check of an order. -/
def riskArguments (engine : BacktestEngine) (order : Order) (executionPrice : Decimal)
    (now : Datetime) : TradeArguments :=
  { symbol := order.symbol, side := order.side.text, quantity := order.quantity
    price := executionPrice, currentBalance := engine.portfolio.balance
    currentPositions := engine.portfolio.positions.mapValues fun _ position =>
      { symbol := some position.symbol, value := position.positionValue, side := position.side }
    totalCapital := engine.portfolio.totalEquity, stopLossPrice := order.signal.stopLoss, now }

/-- `_check_risk`. -/
def checkRisk (engine : BacktestEngine) (order : Order) (executionPrice : Decimal)
    (now : Datetime) : RiskCheckResult :=
  engine.riskEngine.checkTrade (engine.riskArguments order executionPrice now)

/-- The slippage and the risk check of an order. -/
def quote (engine : BacktestEngine) (clock : ℕ → Datetime) (order : Order)
    (averageVolume : Option Decimal) : Except BacktestError (Quote × BacktestEngine) :=
  match engine.slippageModel.calculateSlippage order.requestedPrice order.quantity averageVolume
    (decide (order.side = .buy)) with
  | none => .error .divisionByZero
  | some executionPrice =>
    .ok (⟨order.quantity, executionPrice,
        engine.checkRisk order executionPrice (clock engine.checks)⟩,
      { engine with slippageModel := engine.slippageModel.next, checks := engine.checks + 1 })

/-- The quote that decides on an order: the first, or the one at the adjusted quantity. -/
def assess (engine : BacktestEngine) (clock : ℕ → Datetime) (order : Order)
    (averageVolume : Option Decimal) : Except BacktestError (Quote × BacktestEngine) :=
  match engine.quote clock order averageVolume with
  | .error e => .error e
  | .ok (first, quoted) =>
    match first.retry with
    | none => .ok (first, quoted)
    | some quantity => quoted.quote clock { order with quantity } averageVolume

/-- `_risk_decision`. -/
def riskDecision (order : Order) (quote : Quote) : RiskDecision :=
  { orderId := order.orderId, approved := quote.result.approved
    riskLevel := quote.result.riskLevel, codes := quote.result.events.map RiskEvent.value
    reasons := quote.result.reasons.map .risk, requestedQuantity := order.quantity
    approvedQuantity := if quote.result.approved then some quote.quantity else none
    runId := order.runId, signalId := order.signalId }

/-- The engine after a decision. -/
def decided (engine : BacktestEngine) (decision : RiskDecision) : BacktestEngine :=
  { engine with riskDecisions := engine.riskDecisions ++ [decision] }

def commission (engine : BacktestEngine) (quote : Quote) : Decimal :=
  engine.config.commissionConfig.calculateCommission quote.quantity quote.executionPrice

/-- The arguments of the call of `open_position`. -/
def opening (engine : BacktestEngine) (order : Order) (quote : Quote) : Portfolio.Opening :=
  { symbol := order.symbol, side := "long", price := quote.executionPrice
    quantity := quote.quantity, timestamp := order.createdAt, stopLoss := order.signal.stopLoss
    takeProfit := order.signal.takeProfit, commission := engine.commission quote }

/-- The fill of an order. -/
def fillOf (engine : BacktestEngine) (order : Order) (quote : Quote) : Fill :=
  { fillId := (engine.nextId "fill").1, orderId := order.orderId, symbol := order.symbol
    side := order.side, quantity := quote.quantity, price := quote.executionPrice
    commission := engine.commission quote, timestamp := order.createdAt, runId := order.runId
    signalId := order.signalId }

/-- The engine after a fill that leaves `portfolio`. -/
def filled (engine : BacktestEngine) (order : Order) (quote : Quote) (portfolio : Portfolio) :
    BacktestEngine :=
  { (engine.nextId "fill").2 with
    portfolio, fills := engine.fills ++ [engine.fillOf order quote] }

/-- The part of `_execute_order` after the risk check. -/
def settle (engine : BacktestEngine) (order : Order) (quote : Quote) :
    Option Fill × BacktestEngine :=
  let engine := engine.decided (riskDecision order quote)
  if quote.result.approved then
    match order.side with
    | .buy =>
      match engine.portfolio.openPosition (engine.opening order quote) with
      | (false, _) => (none, engine)
      | (true, portfolio) =>
        (some (engine.fillOf order quote), engine.filled order quote portfolio)
    | .sell =>
      match engine.portfolio.closePosition order.symbol quote.executionPrice order.createdAt
        (engine.commission quote) with
      | (none, _) => (none, engine)
      | (some _, portfolio) =>
        (some (engine.fillOf order quote), engine.filled order quote portfolio)
  else (none, engine)

/-- `_execute_order`. -/
def executeOrder (engine : BacktestEngine) (clock : ℕ → Datetime) (order : Order)
    (averageVolume : Option Decimal) : Except BacktestError (Option Fill × BacktestEngine) :=
  match engine.assess clock order averageVolume with
  | .error e => .error e
  | .ok (quote, assessed) => .ok (assessed.settle order quote)

/-- The decision on a sale of what is not held. -/
def noPositionDecision (call : OrderCall) : RiskDecision :=
  { orderId := "", approved := false, riskLevel := .high, codes := ["NO_POSITION"]
    reasons := [.noPosition], requestedQuantity := call.signal.quantity
    runId := call.signal.runId, signalId := call.signal.signalId }

/-- The quantity of an order: a sale is of the whole position, and there is none without one. -/
def orderQuantity (engine : BacktestEngine) (call : OrderCall) : OrderSide → Option Decimal
  | .buy => some call.signal.quantity
  | .sell => (engine.portfolio.getPosition call.signal.symbol).map Position.quantity

def orderOf (engine : BacktestEngine) (call : OrderCall) (side : OrderSide) (quantity : Decimal) :
    Order :=
  { orderId := (engine.nextId "order").1, signal := call.signal, side, quantity
    requestedPrice := call.requestedPrice, createdAt := call.timestamp
    runId := call.signal.runId, signalId := call.signal.signalId }

/-- The engine after it has created an order. -/
def ordered (engine : BacktestEngine) (order : Order) : BacktestEngine :=
  { (engine.nextId "order").2 with orders := engine.orders ++ [order] }

/-- `_create_and_execute_order`. -/
def createAndExecuteOrder (engine : BacktestEngine) (clock : ℕ → Datetime) (call : OrderCall) :
    Except BacktestError (Option Fill × BacktestEngine) :=
  match SignalAction.ofValue? call.signal.action with
  | none => .error (.invalidAction call.signal.action)
  | some action =>
    match engine.orderQuantity call action.side with
    | none => .ok (none, engine.decided (noPositionDecision call))
    | some quantity =>
      let order := engine.orderOf call action.side quantity
      (engine.ordered order).executeOrder clock order call.averageVolume

/-! ### What an order can do -/

section Outcomes

variable {engine assessed after : BacktestEngine} {clock : ℕ → Datetime} {order : Order}
  {averageVolume : Option Decimal} {quote : Quote} {call : OrderCall} {fill : Option Fill}

/-- A quote moves the stream of draws and the clock. -/
theorem quote_cases (h : engine.quote clock order averageVolume = .ok (quote, after)) :
    engine.slippageModel.calculateSlippage order.requestedPrice order.quantity averageVolume
        (decide (order.side = .buy)) = some quote.executionPrice ∧
      quote.quantity = order.quantity ∧
      quote.result = engine.checkRisk order quote.executionPrice (clock engine.checks) ∧
      after = { engine with
        slippageModel := engine.slippageModel.next, checks := engine.checks + 1 } := by
  unfold BacktestEngine.quote at h
  split at h
  · cases h
  · rename_i executionPrice hprice
    cases h
    exact ⟨hprice, rfl, rfl, rfl⟩

/-- The quote that decides is the first, or the one at the adjusted quantity. -/
theorem assess_cases (h : engine.assess clock order averageVolume = .ok (quote, after)) :
    (engine.quote clock order averageVolume = .ok (quote, after) ∧ quote.retry = none) ∨
      ∃ first quoted quantity, engine.quote clock order averageVolume = .ok (first, quoted) ∧
        first.retry = some quantity ∧
        quoted.quote clock { order with quantity } averageVolume = .ok (quote, after) := by
  unfold assess at h
  split at h
  · cases h
  · rename_i first quoted hfirst
    split at h
    · rename_i hretry
      cases h
      exact Or.inl ⟨hfirst, hretry⟩
    · rename_i quantity hretry
      exact Or.inr ⟨first, quoted, quantity, hfirst, hretry, h⟩

theorem assess_frame (h : engine.assess clock order averageVolume = .ok (quote, after)) :
    after = { engine with slippageModel := after.slippageModel, checks := after.checks } := by
  rcases assess_cases h with ⟨hquote, -⟩ | ⟨first, quoted, quantity, hfirst, -, hquote⟩
  · obtain ⟨-, -, -, rfl⟩ := quote_cases hquote
    rfl
  · obtain ⟨-, -, -, rfl⟩ := quote_cases hfirst
    obtain ⟨-, -, -, rfl⟩ := quote_cases hquote
    rfl

/-- An order that a call creates, the quote that decides on it, and the engine that settles it. -/
structure Assessed (engine : BacktestEngine) (clock : ℕ → Datetime) (call : OrderCall)
    (order : Order) (quote : Quote) (assessed : BacktestEngine) : Prop where
  action : (SignalAction.ofValue? call.signal.action).map SignalAction.side = some order.side
  quantity : engine.orderQuantity call order.side = some order.quantity
  created : order = engine.orderOf call order.side order.quantity
  assess : (engine.ordered order).assess clock order call.averageVolume = .ok (quote, assessed)

/-- What a call of `_create_and_execute_order` that returns has done. -/
inductive Outcome (engine : BacktestEngine) (clock : ℕ → Datetime) (call : OrderCall) :
    Option Fill → BacktestEngine → Prop
  | noPosition
      (action : (SignalAction.ofValue? call.signal.action).map SignalAction.side = some .sell)
      (flat : engine.portfolio.getPosition call.signal.symbol = none) :
      Outcome engine clock call none (engine.decided (noPositionDecision call))
  | rejected {order : Order} {quote : Quote} {assessed : BacktestEngine}
      (h : Assessed engine clock call order quote assessed)
      (rejected : quote.result.approved = false) :
      Outcome engine clock call none (assessed.decided (riskDecision order quote))
  | refused {order : Order} {quote : Quote} {assessed : BacktestEngine}
      (h : Assessed engine clock call order quote assessed)
      (approved : quote.result.approved = true) (side : order.side = .buy)
      (refused : ¬engine.portfolio.Affords (engine.opening order quote)) :
      Outcome engine clock call none (assessed.decided (riskDecision order quote))
  | bought {order : Order} {quote : Quote} {assessed : BacktestEngine}
      (h : Assessed engine clock call order quote assessed)
      (approved : quote.result.approved = true) (side : order.side = .buy)
      (affords : engine.portfolio.Affords (engine.opening order quote)) :
      Outcome engine clock call (some (assessed.fillOf order quote))
        ((assessed.decided (riskDecision order quote)).filled order quote
          (engine.portfolio.purchased (engine.opening order quote)))
  | sold {order : Order} {quote : Quote} {assessed : BacktestEngine} {position : Position}
      (h : Assessed engine clock call order quote assessed)
      (approved : quote.result.approved = true) (side : order.side = .sell)
      (held : engine.portfolio.getPosition call.signal.symbol = some position) :
      Outcome engine clock call (some (assessed.fillOf order quote))
        ((assessed.decided (riskDecision order quote)).filled order quote
          (engine.portfolio.sold call.signal.symbol position quote.executionPrice
            (engine.commission quote) call.timestamp))

theorem Assessed.frame (h : Assessed engine clock call order quote assessed) :
    assessed = { engine with
      orders := engine.orders ++ [order], sequence := engine.sequence + 1
      slippageModel := assessed.slippageModel, checks := assessed.checks } :=
  assess_frame h.assess

/-- A call creates one order at most, and one quote decides on it. -/
theorem Assessed.unique {other : Order} {quote' : Quote} {assessed' : BacktestEngine}
    (h : Assessed engine clock call order quote assessed)
    (h' : Assessed engine clock call other quote' assessed') :
    other = order ∧ quote' = quote ∧ assessed' = assessed := by
  have hside : other.side = order.side := Option.some.inj (h'.action.symm.trans h.action)
  have hquantity : other.quantity = order.quantity := by
    have hother := h'.quantity
    rw [hside, h.quantity] at hother
    exact (Option.some.inj hother).symm
  have horder : other = order := by rw [h'.created, h.created, hside, hquantity]
  subst horder
  have hassess := h'.assess
  rw [h.assess] at hassess
  cases hassess
  exact ⟨rfl, rfl, rfl⟩

theorem quote_pos (h : engine.quote clock order averageVolume = .ok (quote, after))
    (happroved : quote.result.approved = true) :
    0 < quote.quantity ∧ 0 < quote.executionPrice ∧ 0 < engine.portfolio.totalEquity := by
  obtain ⟨-, hquantity, hresult, -⟩ := quote_cases h
  rw [hresult, checkRisk, RiskEngine.checkTrade_approved_iff] at happroved
  have hvalid := happroved.1
  simp only [TradeArguments.valid, Bool.and_eq_true, decide_eq_true_eq] at hvalid
  exact ⟨hquantity.symm ▸ hvalid.1.1.2, hvalid.1.2, hvalid.2⟩

theorem assess_pos (h : engine.assess clock order averageVolume = .ok (quote, after))
    (happroved : quote.result.approved = true) :
    0 < quote.quantity ∧ 0 < quote.executionPrice ∧ 0 < engine.portfolio.totalEquity := by
  rcases assess_cases h with ⟨hquote, -⟩ | ⟨first, quoted, quantity, hfirst, -, hquote⟩
  · exact quote_pos hquote happroved
  · obtain ⟨-, -, -, rfl⟩ := quote_cases hfirst
    have hpos := quote_pos hquote happroved
    exact hpos

section Frame

variable (h : Assessed engine clock call order quote assessed)
include h

theorem Assessed.config : assessed.config = engine.config := by rw [h.frame]

theorem Assessed.orders : assessed.orders = engine.orders ++ [order] := by rw [h.frame]

theorem Assessed.riskDecisions : assessed.riskDecisions = engine.riskDecisions := by rw [h.frame]

theorem Assessed.fills : assessed.fills = engine.fills := by rw [h.frame]

theorem Assessed.sequence : assessed.sequence = engine.sequence + 1 := by rw [h.frame]

theorem Assessed.portfolio : assessed.portfolio = engine.portfolio := by rw [h.frame]

theorem Assessed.riskEngine : assessed.riskEngine = engine.riskEngine := by rw [h.frame]

theorem Assessed.commission : assessed.commission quote = engine.commission quote := by
  rw [h.frame]
  rfl

theorem Assessed.orderId : order.orderId = backtestId "order" (engine.sequence + 1) := by
  rw [h.created]
  rfl

theorem Assessed.symbol : order.symbol = call.signal.symbol := by
  rw [h.created]
  rfl

theorem Assessed.createdAt : order.createdAt = call.timestamp := by
  rw [h.created]
  rfl

theorem Assessed.signal : order.signal = call.signal := by
  rw [h.created]
  rfl

theorem Assessed.requestedPrice : order.requestedPrice = call.requestedPrice := by
  rw [h.created]
  rfl

end Frame

theorem Assessed.outcome (h : Assessed engine clock call order quote assessed) :
    Outcome engine clock call (assessed.settle order quote).1 (assessed.settle order quote).2 := by
  have hopening : (assessed.decided (riskDecision order quote)).opening order quote =
      engine.opening order quote := by
    rw [h.frame]
    rfl
  have hcommission : (assessed.decided (riskDecision order quote)).commission quote =
      engine.commission quote := h.commission
  have hdecided : (assessed.decided (riskDecision order quote)).portfolio = engine.portfolio :=
    h.portfolio
  unfold settle
  simp only [hopening, hcommission, hdecided]
  split
  · rename_i happroved
    cases hside : order.side with
    | buy =>
      by_cases haffords : engine.portfolio.Affords (engine.opening order quote)
      · simp only [Portfolio.openPosition_of_affords haffords]
        exact .bought h happroved hside haffords
      · simp only [Portfolio.openPosition_of_not_affords haffords]
        exact .refused h happroved hside haffords
    | sell =>
      have hquantity := h.quantity
      simp only [hside, orderQuantity, Option.map_eq_some_iff] at hquantity
      obtain ⟨position, hposition, -⟩ := hquantity
      simp only [Portfolio.closePosition, h.symbol, h.createdAt]
      rw [Portfolio.getPosition] at hposition
      simp only [hposition]
      exact .sold h happroved hside hposition
  · rename_i hrejected
    exact .rejected h (Bool.not_eq_true _ ▸ hrejected)

/-- A call that returns has one of these outcomes. -/
theorem createAndExecuteOrder_outcome
    (h : engine.createAndExecuteOrder clock call = .ok (fill, after)) :
    Outcome engine clock call fill after := by
  unfold createAndExecuteOrder at h
  split at h
  · cases h
  rename_i action haction
  have hside : (SignalAction.ofValue? call.signal.action).map SignalAction.side =
      some action.side := by rw [haction]; rfl
  split at h
  · rename_i hquantity
    cases h
    cases hsell : action.side with
    | buy => simp [hsell, orderQuantity] at hquantity
    | sell =>
      rw [hsell] at hside hquantity
      exact .noPosition hside (Option.map_eq_none_iff.mp hquantity)
  · rename_i quantity hquantity
    simp only [executeOrder] at h
    split at h
    · cases h
    · rename_i quote assessed hassess
      have hassessed : Assessed engine clock call (engine.orderOf call action.side quantity) quote
          assessed := ⟨hside, hquantity, rfl, hassess⟩
      have houtcome := hassessed.outcome
      rwa [Except.ok.inj h] at houtcome

end Outcomes

end BacktestEngine

end CryptoTrading
