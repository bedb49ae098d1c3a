import CryptoTrading.Backtest.PositionLimit
import CryptoTrading.Kit.AverageCost
import CryptoTrading.Strategies.TrendDca

/-! What a whole position loses at its stop-loss: the risk check weighs one order, by the stop of its own
signal, and a safety order has none. -/

namespace CryptoTrading

open Kit

/-- What a position loses at a price, before costs. -/
def Position.lossAt (position : Position) (price : Decimal) : Decimal :=
  position.quantity * max 0 (position.entryPrice - price)

/-- What a position loses after a purchase is what it lost, and what the purchase loses. -/
theorem Portfolio.Opening.lossAt_addTo_le_iff {position : Position} {opening : Portfolio.Opening}
    {price limit : Decimal} (hheld : 0 < position.quantity) (hmore : 0 < opening.quantity)
    (hlimit : 0 ≤ limit) : (opening.addTo position).lossAt price ≤ limit ↔
      position.quantity * (position.entryPrice - price) + opening.quantity * (opening.price - price) ≤
        limit := by
  have htotal : 0 < position.quantity + opening.quantity := add_pos hheld hmore
  have hcost := Holding.cost_buy ⟨position.quantity, position.entryPrice⟩ opening.price htotal.ne'
  simp only [Holding.cost, Holding.buy] at hcost
  have hloss : (opening.addTo position).lossAt price = max 0 (position.quantity *
      (position.entryPrice - price) + opening.quantity * (opening.price - price)) := by
    show (position.quantity + opening.quantity) * max 0 ((position.entryPrice * position.quantity +
      opening.price * opening.quantity) / (position.quantity + opening.quantity) - price) = _
    rw [mul_max_of_nonneg _ _ htotal.le, mul_zero, mul_sub, hcost]
    congr 1
    ring
  rw [hloss, max_le_iff, and_iff_right hlimit]

namespace BacktestEngine

/-- The loss of the position of a fill at its stop-loss is within the risk limit of the equity that the
risk check of the fill has used. -/
def CoveredAtStop (before after : BacktestEngine) (fill : Fill) : Prop :=
  ∀ position ∈ after.portfolio.getPosition fill.symbol, ∀ stop ∈ position.stopLoss,
    position.lossAt stop ≤
      before.riskEngine.config.maxRiskPerTrade * before.portfolio.totalEquity

/-- A purchase that adds to a position loses more at its stop-loss than what the risk limit leaves beside
the position. -/
def Overcommits (engine : BacktestEngine) (clock : ℕ → Datetime) (call : OrderCall) : Prop :=
  ∃ position ∈ engine.portfolio.getPosition call.signal.symbol,
    ∃ stop ∈ call.signal.stopLoss.or position.stopLoss,
      let (quantity, price) := engine.purchase clock call
      engine.riskEngine.config.maxRiskPerTrade * engine.portfolio.totalEquity -
          position.quantity * (position.entryPrice - stop) <
        quantity * (price - stop)

section Stop

variable {engine assessed after : BacktestEngine} {clock : ℕ → Datetime} {order : Order}
  {quote : Quote} {call : OrderCall} {fill : Fill}

/-- An approved purchase loses no more than the risk limit at the stop of its signal. -/
theorem Weighed.risk {args : TradeArguments} (h : engine.Weighed order quote args) {stop : Decimal}
    (hstop : order.signal.stopLoss = some stop) :
    quote.quantity * |quote.executionPrice - stop| ≤
      engine.riskEngine.config.maxRiskPerTrade * engine.portfolio.totalEquity := by
  obtain ⟨-, hprice, hequity⟩ := h.positive
  have hrisk := h.passed ((args.stopLossPrice.map fun stop =>
    args.exposureIncrease / args.price * |args.price - stop| / args.totalCapital).any fun pct =>
      decide (pct > engine.riskEngine.config.maxRiskPerTrade), _) (List.mem_of_getElem? (i := 8) rfl)
  rw [h.stop, hstop, Option.map_some, Option.any_some, decide_eq_false_iff_not, gt_iff_lt, not_lt,
    h.capital, div_le_iff₀ hequity, h.increase, h.price, mul_div_cancel_right₀ _ hprice.ne'] at hrisk
  exact hrisk

/-- A position is covered at its stop exactly when a purchase leaves room for what it loses there. -/
theorem coveredAtStop_iff (hlong : engine.portfolio.LongOnly)
    (hlimit : 0 ≤ engine.riskEngine.config.maxRiskPerTrade)
    (h : engine.createAndExecuteOrder clock call = .ok (some fill, after))
    (hside : fill.side = .buy) : CoveredAtStop engine after fill ↔ ¬engine.Overcommits clock call := by
  obtain ⟨order, quote, assessed, hassessed, happroved, hbuy, rfl, rfl⟩ := bought_of_fill h hside
  obtain ⟨args, hweighed⟩ := hassessed.weighed hlong hbuy happroved
  have hpurchase := hassessed.purchase hlong hbuy happroved
  have hsignal : order.signal = call.signal := hassessed.signal
  have hsymbol : order.symbol = call.signal.symbol := hassessed.symbol
  obtain ⟨hquantity, -, hequity⟩ := hweighed.positive
  have hroom : 0 ≤ engine.riskEngine.config.maxRiskPerTrade * engine.portfolio.totalEquity :=
    mul_nonneg hlimit hequity.le
  have hheld := engine.portfolio.getPosition_purchased (engine.opening order quote)
  have hown : (engine.opening order quote).symbol = order.symbol := rfl
  rw [hown] at hheld
  have hcovered : CoveredAtStop engine ((assessed.decided (riskDecision order quote)).filled
      order quote (engine.portfolio.purchased (engine.opening order quote)))
        (assessed.fillOf order quote) ↔
      ∀ position ∈ (engine.portfolio.purchased (engine.opening order quote)).getPosition
        order.symbol, ∀ stop ∈ position.stopLoss, position.lossAt stop ≤
          engine.riskEngine.config.maxRiskPerTrade * engine.portfolio.totalEquity := Iff.rfl
  rw [hcovered, hheld, Overcommits, hpurchase, ← hsymbol]
  simp only [Option.mem_some_iff, forall_eq']
  cases hposition : engine.portfolio.getPosition order.symbol with
  | none =>
    -- The order is the position, and its signal has the stop that the check has weighed.
    refine iff_of_true (fun stop hstop => ?_) ?_
    · have hrisk := hweighed.risk hstop
      refine le_trans (mul_le_mul_of_nonneg_left ?_ hquantity.le) hrisk
      exact max_le (abs_nonneg _) (le_abs_self _)
    · rintro ⟨position, hnone, -⟩
      cases hnone
  | some held =>
    have hpositive := (hlong order.symbol held hposition).2.2
    simp only [Option.mem_some_iff, exists_eq_left', not_exists, not_and, not_lt, Option.elim_some]
    rw [← hsignal]
    show (∀ stop ∈ order.signal.stopLoss.or held.stopLoss, _) ↔ _
    refine forall₂_congr fun stop _ => ?_
    have hmore : 0 < (engine.opening order quote).quantity := hquantity
    rw [Portfolio.Opening.lossAt_addTo_le_iff hpositive hmore hroom, le_sub_iff_add_le']
    rfl

end Stop

end BacktestEngine

/-- A candle of a rising market at one price. -/
def trendUpCandle (openTime : Datetime) (price : Decimal) : BacktestCandle StrategyIndicators :=
  { symbol := "BTCUSDT", openTime, close := price, open_ := some price, high := some price
    low := some price, volume := some 1000
    indicators := { ema50 := some 91, ema200 := some 90, rsi := some 40, regime := some trendUp } }

def ladderIdentity : StrategyIdentity :=
  { name := "TrendDCA", newSignalId := fun timestamp => .uuid timestamp.toNat }

/-- A base order at 100, and a safety order at 96. -/
def ladderRun : BacktestRun TrendDCAState StrategyIndicators :=
  { candles := [trendUpCandle 0 100, trendUpCandle hour 100, trendUpCandle (2 * hour) 96,
      trendUpCandle (3 * hour) 96]
    strategy := .base (trendDCAStrategy ladderIdentity).base, initialState := {}
    clock := fun _ => 0, runId := "" }

def ladderEngine : BacktestEngine := .new {} {} fun _ => 0

/-- The safety order, without a stop of its own. -/
def ladderOrder : OrderCall :=
  { origin := .pending 3
    signal := { action := "open_long", symbol := "BTCUSDT", price := 96
                quantity := 79916999 / 76800000, timestamp := 2 * hour, reason := "DCA safety order 1"
                strategy := "TrendDCA", parametersVersion := "trend_dca_v1", regime := some trendUp
                metadata := { dcaLevel := some 1 }, signalId := .uuid (2 * hour).toNat }
    requestedPrice := 96, timestamp := 3 * hour, averageVolume := some 1000 }

instance (before after : BacktestEngine) (fill : Fill) :
    Decidable (BacktestEngine.CoveredAtStop before after fill) :=
  inferInstanceAs (Decidable (∀ position ∈ _, ∀ stop ∈ _, _))

/-- The base order may lose 0.375% of the equity at the stop, and with the safety order it is 0.6%. -/
theorem ladder_above_limit : ∃ before fill next,
    Run.Makes (EngineStep ladderRun.clock) ladderEngine (ladderRun.result ladderEngine).trace before
        (.order ladderOrder) next ∧
      before.createAndExecuteOrder ladderRun.clock ladderOrder = .ok (some fill, next) ∧
      fill.side = .buy ∧ ¬BacktestEngine.CoveredAtStop before next fill := by
  have htrace : (ladderRun.result ladderEngine).trace =
      (ladderRun.result ladderEngine).trace.take 9 ++ .order ladderOrder ::
        (ladderRun.result ladderEngine).trace.drop 10 := by decide +kernel
  have hfound : ∃ before fill next, Run.Makes (EngineStep ladderRun.clock) ladderEngine
      ((ladderRun.result ladderEngine).trace.take 9 ++ .order ladderOrder ::
        (ladderRun.result ladderEngine).trace.drop 10) before (.order ladderOrder) next ∧
      before.createAndExecuteOrder ladderRun.clock ladderOrder = .ok (some fill, next) ∧
      (decide (fill.side = .buy) && decide (¬BacktestEngine.CoveredAtStop before next fill)) = true :=
    makes_fill_of_replay _ (fun before fill next => decide (fill.side = .buy) &&
      decide (¬BacktestEngine.CoveredAtStop before next fill)) (by decide +kernel)
  obtain ⟨before, fill, next, hmakes, hfilled, hfine⟩ := hfound
  rw [← htrace] at hmakes
  rw [Bool.and_eq_true, decide_eq_true_eq, decide_eq_true_eq] at hfine
  exact ⟨before, fill, next, hmakes, hfilled, hfine⟩

end CryptoTrading
