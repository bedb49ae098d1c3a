import CryptoTrading.Backtest.BacktestEngine

/-! What the engine does with a signal does not depend on the strategy that it names, or on its
identities.  An engine without these goes through the same events to an engine without them. -/

namespace CryptoTrading

/-- The signal without its strategy and its identities. -/
def Signal.anonymous (signal : Signal) : Signal :=
  { signal with strategy := "", parametersVersion := "", signalId := .uuid 0, runId := "" }

def Order.anonymous (order : Order) : Order :=
  { order with signal := order.signal.anonymous, runId := "", signalId := .uuid 0 }

def RiskDecision.anonymous (decision : RiskDecision) : RiskDecision :=
  { decision with runId := "", signalId := .uuid 0 }

def Fill.anonymous (fill : Fill) : Fill := { fill with runId := "", signalId := .uuid 0 }

def OrderCall.anonymous (call : OrderCall) : OrderCall :=
  { call with signal := call.signal.anonymous }

def EngineEvent.anonymous : EngineEvent → EngineEvent
  | .signal index emitted => .signal index emitted.anonymous
  | .order call => .order call.anonymous
  | .mark symbol close high timestamp => .mark symbol close high timestamp
  | .drawdown share => .drawdown share

namespace BacktestEngine

def anonymous (engine : BacktestEngine) : BacktestEngine :=
  { engine with
    signals := engine.signals.map Signal.anonymous
    riskDecisions := engine.riskDecisions.map RiskDecision.anonymous
    orders := engine.orders.map Order.anonymous
    fills := engine.fills.map Fill.anonymous }

variable (engine : BacktestEngine) (clock : ℕ → Datetime)

theorem ordered_anonymous (order : Order) :
    engine.anonymous.ordered order.anonymous = (engine.ordered order).anonymous := by
  simp [ordered, anonymous, nextId]

theorem decided_anonymous (decision : RiskDecision) :
    engine.anonymous.decided decision.anonymous = (engine.decided decision).anonymous := by
  simp [decided, anonymous]

theorem filled_anonymous (order : Order) (quote : Quote) (portfolio : Portfolio) :
    engine.anonymous.filled order.anonymous quote portfolio =
      (engine.filled order quote portfolio).anonymous := by
  simp only [filled, anonymous, nextId, List.map_append, List.map_cons, List.map_nil]
  rfl

theorem signaled_anonymous (signal : Signal) :
    engine.anonymous.signaled signal.anonymous = (engine.signaled signal).anonymous := by
  simp [signaled, anonymous]

theorem quote_anonymous (order : Order) (averageVolume : Option Decimal) :
    engine.anonymous.quote clock order.anonymous averageVolume =
      (engine.quote clock order averageVolume).map fun quoted => (quoted.1, quoted.2.anonymous) := by
  simp only [BacktestEngine.quote]
  rw [show engine.anonymous.slippageModel = engine.slippageModel from rfl,
    show order.anonymous.requestedPrice = order.requestedPrice from rfl,
    show order.anonymous.quantity = order.quantity from rfl,
    show order.anonymous.side = order.side from rfl]
  cases engine.slippageModel.calculateSlippage order.requestedPrice order.quantity averageVolume
    (decide (order.side = .buy)) <;> rfl

theorem assess_anonymous (order : Order) (averageVolume : Option Decimal) :
    engine.anonymous.assess clock order.anonymous averageVolume =
      (engine.assess clock order averageVolume).map fun quoted =>
        (quoted.1, quoted.2.anonymous) := by
  simp only [assess, quote_anonymous]
  cases engine.quote clock order averageVolume with
  | error error => rfl
  | ok quoted =>
    obtain ⟨first, quoted⟩ := quoted
    simp only [Except.map]
    cases first.retry with
    | none => rfl
    | some quantity => exact quoted.quote_anonymous clock { order with quantity } averageVolume

theorem settle_anonymous (order : Order) (quote : Quote) :
    engine.anonymous.settle order.anonymous quote =
      ((engine.settle order quote).1.map Fill.anonymous, (engine.settle order quote).2.anonymous) := by
  have hdecided : engine.anonymous.decided (riskDecision order.anonymous quote) =
      (engine.decided (riskDecision order quote)).anonymous :=
    engine.decided_anonymous (riskDecision order quote)
  simp only [settle, hdecided]
  cases quote.result.approved with
  | false => rfl
  | true =>
    rw [if_pos rfl, if_pos rfl, show order.anonymous.side = order.side from rfl]
    cases order.side with
    | buy =>
      have hopened : (engine.decided (riskDecision order quote)).anonymous.portfolio.openPosition
          ((engine.decided (riskDecision order quote)).anonymous.opening order.anonymous quote) =
        (engine.decided (riskDecision order quote)).portfolio.openPosition
          ((engine.decided (riskDecision order quote)).opening order quote) := rfl
      simp only [hopened]
      obtain ⟨accepted, portfolio⟩ := (engine.decided (riskDecision order quote)).portfolio.openPosition
        ((engine.decided (riskDecision order quote)).opening order quote)
      cases accepted with
      | false => rfl
      | true => exact Prod.ext rfl (filled_anonymous _ order quote portfolio)
    | sell =>
      have hclosed : (engine.decided (riskDecision order quote)).anonymous.portfolio.closePosition
          order.anonymous.symbol quote.executionPrice order.anonymous.createdAt
          ((engine.decided (riskDecision order quote)).anonymous.commission quote) =
        (engine.decided (riskDecision order quote)).portfolio.closePosition order.symbol
          quote.executionPrice order.createdAt
          ((engine.decided (riskDecision order quote)).commission quote) := rfl
      simp only [hclosed]
      obtain ⟨realized, portfolio⟩ :=
        (engine.decided (riskDecision order quote)).portfolio.closePosition order.symbol
          quote.executionPrice order.createdAt
          ((engine.decided (riskDecision order quote)).commission quote)
      cases realized with
      | none => rfl
      | some realized => exact Prod.ext rfl (filled_anonymous _ order quote portfolio)

theorem createAndExecuteOrder_anonymous (call : OrderCall) :
    engine.anonymous.createAndExecuteOrder clock call.anonymous =
      (engine.createAndExecuteOrder clock call).map fun outcome =>
        (outcome.1.map Fill.anonymous, outcome.2.anonymous) := by
  simp only [createAndExecuteOrder]
  rw [show call.anonymous.signal.action = call.signal.action from rfl]
  cases SignalAction.ofValue? call.signal.action with
  | none => rfl
  | some action =>
    dsimp only
    rw [show engine.anonymous.orderQuantity call.anonymous action.side =
      engine.orderQuantity call action.side by cases action.side <;> rfl]
    cases engine.orderQuantity call action.side with
    | none =>
      exact congrArg (fun decided => Except.ok (none, decided))
        (engine.decided_anonymous (noPositionDecision call))
    | some quantity =>
      dsimp only
      rw [show engine.anonymous.orderOf call.anonymous action.side quantity =
          (engine.orderOf call action.side quantity).anonymous from rfl,
        ordered_anonymous, show call.anonymous.averageVolume = call.averageVolume from rfl]
      simp only [executeOrder, assess_anonymous]
      cases (engine.ordered (engine.orderOf call action.side quantity)).assess clock
        (engine.orderOf call action.side quantity) call.averageVolume with
      | error error => rfl
      | ok assessed => exact congrArg Except.ok (settle_anonymous assessed.2 _ assessed.1)

theorem apply_anonymous (event : EngineEvent) :
    engine.anonymous.apply clock event.anonymous =
      (engine.apply clock event).map fun outcome =>
        (outcome.1.map Fill.anonymous, outcome.2.anonymous) := by
  cases event with
  | signal index signal =>
    exact congrArg (fun signaled => Except.ok (none, signaled)) (engine.signaled_anonymous signal)
  | order call => exact engine.createAndExecuteOrder_anonymous clock call
  | mark symbol close high timestamp => rfl
  | drawdown drawdown => rfl

end BacktestEngine

end CryptoTrading
