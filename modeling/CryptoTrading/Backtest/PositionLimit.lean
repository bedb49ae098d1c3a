import CryptoTrading.Backtest.ExitOrders
import CryptoTrading.Backtest.PortfolioConservation

/-! The position limit at the price of a purchase: the risk check weighs what is held at its mark, and
the purchase leaves it at the price that it executes at. -/

namespace CryptoTrading

open Kit

namespace Portfolio

/-- The quantity of a symbol that is held. -/
def quantityOf (portfolio : Portfolio) (symbol : String) : Decimal :=
  (portfolio.getPosition symbol).elim 0 Position.quantity

/-- The value of what is held of a symbol, at its mark. -/
def valueOf (portfolio : Portfolio) (symbol : String) : Decimal :=
  (portfolio.getPosition symbol).elim 0 Position.positionValue

/-- The equity, with what is held of a symbol revalued at a price. -/
def equityAt (portfolio : Portfolio) (symbol : String) (price : Decimal) : Decimal :=
  portfolio.totalEquity - portfolio.valueOf symbol + portfolio.quantityOf symbol * price

theorem getPosition_purchased (portfolio : Portfolio) (opening : Opening) :
    (portfolio.purchased opening).getPosition opening.symbol =
      some ((portfolio.getPosition opening.symbol).elim opening.position opening.addTo) := by
  simp only [getPosition, purchased, Dict.get?_set_self]
  cases portfolio.positions.get? opening.symbol <;> rfl

theorem quantityOf_purchased (portfolio : Portfolio) (opening : Opening) :
    (portfolio.purchased opening).quantityOf opening.symbol =
      portfolio.quantityOf opening.symbol + opening.quantity := by
  rw [quantityOf, getPosition_purchased, Option.elim_some, quantityOf]
  cases portfolio.getPosition opening.symbol with
  | none => exact (zero_add _).symm
  | some position => rfl

/-- At the price of a purchase the equity changes by the commission. -/
theorem equityAt_purchased (portfolio : Portfolio) (opening : Opening) :
    (portfolio.purchased opening).equityAt opening.symbol opening.price + opening.commission =
      portfolio.equityAt opening.symbol opening.price := by
  have hheld : (portfolio.purchased opening).totalEquity -
      (portfolio.purchased opening).valueOf opening.symbol =
        portfolio.totalEquity - opening.cost - portfolio.valueOf opening.symbol := by
    simp only [totalEquity, valueOf, getPosition, purchased, sum_values_set, Dict.get?_set_self,
      Option.elim_some]
    ring
  rw [equityAt, hheld, quantityOf_purchased, equityAt, Opening.cost]
  ring

end Portfolio

namespace BacktestEngine

/-- What is held of the symbol of a fill, at the price of the fill, is within the limit. -/
def WithinLimit (engine : BacktestEngine) (fill : Fill) : Prop :=
  engine.portfolio.quantityOf fill.symbol * fill.price ≤
    engine.riskEngine.config.maxPositionSize *
      (engine.portfolio.equityAt fill.symbol fill.price + fill.commission)

instance (engine : BacktestEngine) (fill : Fill) : Decidable (engine.WithinLimit fill) :=
  inferInstanceAs (Decidable (_ ≤ _))

/-- The requested price, plus the slippage of the quantity. -/
def buyPrice (model : SlippageModel) (call : OrderCall) (quantity : Decimal) : Decimal :=
  call.requestedPrice * (1 + model.slippage quantity call.averageVolume)

/-- The quantity that fills the position limit at a price, with what is held at its mark. -/
def admitted (engine : BacktestEngine) (symbol : String) (price : Decimal) : Decimal :=
  max (engine.portfolio.totalEquity * engine.riskEngine.config.maxPositionSize -
    |engine.portfolio.valueOf symbol|) 0 / price

/-- The quantity and the price of a purchase: those of its signal, or, where the risk check rejects
these, the quantity that the limit admits at that price, and the price of this quantity. -/
def purchase (engine : BacktestEngine) (clock : ℕ → Datetime) (call : OrderCall) :
    Decimal × Decimal :=
  let price := buyPrice engine.slippageModel call call.signal.quantity
  if (engine.checkRisk (engine.orderOf call .buy call.signal.quantity) price
      (clock engine.checks)).approved then (call.signal.quantity, price)
  else
    let quantity := engine.admitted call.signal.symbol price
    (quantity, buyPrice engine.slippageModel.next call quantity)

/-- What is held is marked below the price of a purchase, and all but the limit's share of the
difference is more than what the purchase leaves of the limit, at the mark. -/
def Outgrows (engine : BacktestEngine) (clock : ℕ → Datetime) (call : OrderCall) : Prop :=
  let (quantity, price) := engine.purchase clock call
  let limit := engine.riskEngine.config.maxPositionSize
  let value := engine.portfolio.valueOf call.signal.symbol
  let rise := engine.portfolio.quantityOf call.signal.symbol * price - value
  0 < rise ∧
    limit * engine.portfolio.totalEquity - (value + quantity * price) < (1 - limit) * rise

/-- The gates of the risk check pass a purchase with these arguments. -/
structure Weighed (engine : BacktestEngine) (order : Order) (quote : Quote) (args : TradeArguments) :
    Prop where
  price : args.price = quote.executionPrice
  capital : args.totalCapital = engine.portfolio.totalEquity
  stop : args.stopLossPrice = order.signal.stopLoss
  increase : args.exposureIncrease = quote.quantity * quote.executionPrice
  exposure : |args.after| =
    |engine.portfolio.valueOf order.symbol| + quote.quantity * quote.executionPrice
  positive : 0 < quote.quantity ∧ 0 < quote.executionPrice ∧ 0 < engine.portfolio.totalEquity
  passed : ∀ gate ∈ engine.riskEngine.gates args, gate.1 = false

section Limit

variable {engine assessed after : BacktestEngine} {clock : ℕ → Datetime} {order : Order}
  {quote : Quote} {call : OrderCall} {fill : Option Fill}

/-- The exposure before a purchase is the value of what is held. -/
theorem before_eq_valueOf (h : engine.portfolio.LongOnly) (order : Order) (price : Decimal)
    (now : Datetime) : (engine.riskArguments order price now).before =
      |engine.portfolio.valueOf order.symbol| := by
  cases hheld : engine.portfolio.getPosition order.symbol with
  | some position =>
    rw [riskArguments_before order h price now hheld, Portfolio.valueOf, hheld, Option.elim_some]
  | none =>
    have hnone : (engine.riskArguments order price now).currentPositions.values.filter
        (fun p => decide (p.symbol = some order.symbol)) = [] := by
      refine List.filter_eq_nil_iff.mpr fun entry hentry => ?_
      obtain ⟨symbol, hentry⟩ := Dict.mem_values_iff.mp hentry
      simp only [riskArguments, Dict.get?_mapValues, Option.map_eq_some_iff] at hentry
      obtain ⟨position, hposition, rfl⟩ := hentry
      rw [decide_eq_true_eq, (h symbol position hposition).1, Option.some.injEq]
      rintro rfl
      exact absurd (hheld.symm.trans hposition) (Option.some_ne_none _).symm
    show (((engine.riskArguments order price now).currentPositions.values.filter fun p =>
      decide (p.symbol = some order.symbol)).map RiskPosition.signedValue).sum = _
    rw [hnone, Portfolio.valueOf, hheld]
    exact abs_zero.symm

/-- The gates pass an approved purchase. -/
theorem quote_weighed {averageVolume : Option Decimal}
    (h : engine.quote clock order averageVolume = .ok (quote, after))
    (hlong : engine.portfolio.LongOnly) (hside : order.side = .buy)
    (happroved : quote.result.approved = true) :
    engine.Weighed order quote
      (engine.riskArguments order quote.executionPrice (clock engine.checks)) := by
  have hpositive := quote_pos h happroved
  obtain ⟨-, hordered, hresult, -⟩ := quote_cases h
  rw [hresult, checkRisk, RiskEngine.checkTrade_approved_iff, RiskEngine.rejections_eq_nil_iff]
    at happroved
  have hbefore := before_eq_valueOf hlong order quote.executionPrice (clock engine.checks)
  generalize hargs : engine.riskArguments order quote.executionPrice (clock engine.checks) = args
    at happroved hbefore
  have hbuy : args.side.toLower = "buy" := by
    rw [← hargs, riskArguments, hside]
    exact OrderSide.text_toLower .buy
  have hworth : args.orderValue = quote.quantity * quote.executionPrice := by
    rw [← hargs, hordered]
    rfl
  have hafter : args.after =
      |engine.portfolio.valueOf order.symbol| + quote.quantity * quote.executionPrice := by
    rw [TradeArguments.after, if_pos hbuy, hbefore, hworth]
  have hmore : 0 < quote.quantity * quote.executionPrice := mul_pos hpositive.1 hpositive.2.1
  have hexposure : |args.after| =
      |engine.portfolio.valueOf order.symbol| + quote.quantity * quote.executionPrice := by
    rw [hafter, abs_of_nonneg (add_nonneg (abs_nonneg _) hmore.le)]
  have hincrease : args.exposureIncrease = quote.quantity * quote.executionPrice := by
    rw [TradeArguments.exposureIncrease, hexposure, hbefore, abs_abs, add_sub_cancel_left,
      max_eq_left hmore.le]
  have hgrows : args.reducing ≠ true := by
    rw [TradeArguments.reducing, ne_eq, decide_eq_true_eq, hincrease]
    exact hmore.ne'
  subst hargs
  exact ⟨rfl, rfl, rfl, hincrease, hexposure, hpositive, happroved.2.resolve_left hgrows⟩

/-- The gates pass the purchase that the quote decides on. -/
theorem Assessed.weighed (hlong : engine.portfolio.LongOnly)
    (h : Assessed engine clock call order quote assessed) (hside : order.side = .buy)
    (happroved : quote.result.approved = true) : ∃ args, engine.Weighed order quote args := by
  have hordered : (engine.ordered order).portfolio.LongOnly := hlong
  rcases assess_cases h.assess with ⟨hquote, -⟩ | ⟨first, quoted, quantity, hfirst, -, hquote⟩
  · obtain ⟨hprice, hcapital, hstop, hincrease, hexposure, hpositive, hpassed⟩ :=
      quote_weighed hquote hordered hside happroved
    exact ⟨_, hprice, hcapital, hstop, hincrease, hexposure, hpositive, hpassed⟩
  · obtain ⟨-, -, -, hquoted⟩ := quote_cases hfirst
    have hportfolio : quoted.portfolio = engine.portfolio := by rw [hquoted]; rfl
    have hriskEngine : quoted.riskEngine = engine.riskEngine := by rw [hquoted]; rfl
    obtain ⟨hprice, hcapital, hstop, hincrease, hexposure, hpositive, hpassed⟩ :=
      quote_weighed hquote (hportfolio ▸ hlong) hside happroved
    rw [hportfolio] at hcapital hexposure hpositive
    rw [hriskEngine] at hpassed
    exact ⟨_, hprice, hcapital, hstop, hincrease, hexposure, hpositive, hpassed⟩

/-- An approved purchase is within the limit with what is held at its mark. -/
theorem assessed_within_mark (hlong : engine.portfolio.LongOnly)
    (h : Assessed engine clock call order quote assessed) (hside : order.side = .buy)
    (happroved : quote.result.approved = true) :
    |engine.portfolio.valueOf call.signal.symbol| + quote.quantity * quote.executionPrice ≤
      engine.riskEngine.config.maxPositionSize * engine.portfolio.totalEquity := by
  obtain ⟨args, hweighed⟩ := h.weighed hlong hside happroved
  have hshare := hweighed.passed
    (decide (|args.after| / args.totalCapital > engine.riskEngine.config.maxPositionSize), _)
    (List.mem_of_getElem? (i := 6) rfl)
  rw [decide_eq_false_iff_not, gt_iff_lt, not_lt, hweighed.capital,
    div_le_iff₀ hweighed.positive.2.2, hweighed.exposure] at hshare
  rw [← h.symbol]
  exact hshare

theorem quote_buyPrice (h : engine.quote clock order call.averageVolume = .ok (quote, after))
    (hside : order.side = .buy) (hrequested : order.requestedPrice = call.requestedPrice) :
    quote.executionPrice = buyPrice engine.slippageModel call order.quantity := by
  obtain ⟨hslippage, -, -, -⟩ := quote_cases h
  rw [hside, SlippageModel.calculateSlippage] at hslippage
  split at hslippage
  · cases hslippage
  · rw [if_pos (decide_eq_true rfl), hrequested] at hslippage
    exact (Option.some.inj hslippage).symm

/-- An approved purchase is of this quantity at this price. -/
theorem Assessed.purchase (hlong : engine.portfolio.LongOnly)
    (h : Assessed engine clock call order quote assessed) (hside : order.side = .buy)
    (happroved : quote.result.approved = true) :
    engine.purchase clock call = (quote.quantity, quote.executionPrice) := by
  have hquantity := h.quantity
  rw [hside, orderQuantity, Option.some.injEq] at hquantity
  have horder : order = engine.orderOf call .buy call.signal.quantity := by
    rw [h.created, hside, hquantity]
  have hchecked : ∀ {quoted : BacktestEngine} {first : Quote},
      (engine.ordered order).quote clock order call.averageVolume = .ok (first, quoted) →
      engine.checkRisk (engine.orderOf call .buy call.signal.quantity) first.executionPrice
          (clock engine.checks) = first.result ∧
        buyPrice engine.slippageModel call call.signal.quantity = first.executionPrice := by
    intro quoted first hquote
    have hprice := quote_buyPrice hquote hside h.requestedPrice
    have hprice : first.executionPrice = buyPrice engine.slippageModel call order.quantity := hprice
    obtain ⟨-, -, hresult, -⟩ := quote_cases hquote
    rw [hquantity, hprice]
    refine ⟨?_, rfl⟩
    rw [← hprice, hresult, ← hquantity, ← horder]
    rfl
  rw [BacktestEngine.purchase]
  rcases assess_cases h.assess with ⟨hquote, -⟩ | ⟨first, quoted, quantity, hfirst, hretry, hquote⟩
  · obtain ⟨-, hsame, -, -⟩ := quote_cases hquote
    obtain ⟨hresult, hprice⟩ := hchecked hquote
    simp only [hprice, hresult, happroved, if_true, hsame.trans hquantity.symm]
  · obtain ⟨hresult, hprice⟩ := hchecked hfirst
    have hrejected : first.result.approved = false := by
      cases hverdict : first.result.approved with
      | false => rfl
      | true => rw [Quote.retry, if_pos hverdict] at hretry; cases hretry
    have hadmitted : quantity = engine.admitted call.signal.symbol first.executionPrice := by
      rw [Quote.retry, hrejected, if_neg Bool.false_ne_true, ← hresult, checkRisk,
        RiskEngine.adjustedQuantity_eq_some_iff, before_eq_valueOf hlong, abs_abs] at hretry
      exact hretry.2.2.2.symm
    obtain ⟨-, -, -, hquoted⟩ := quote_cases hfirst
    have hmodel : quoted.slippageModel = engine.slippageModel.next := by rw [hquoted]; rfl
    have hagain := quote_buyPrice hquote hside h.requestedPrice
    obtain ⟨-, hsame, -, -⟩ := quote_cases hquote
    have hsame : quote.quantity = quantity := hsame
    simp only [hresult, hrejected, Bool.false_eq_true, if_false, hprice, ← hadmitted, hsame, hagain,
      hmodel]

/-- A fill that is a purchase is of an approved quote. -/
theorem bought_of_fill {fill : Fill}
    (h : engine.createAndExecuteOrder clock call = .ok (some fill, after))
    (hside : fill.side = .buy) : ∃ order quote assessed,
      Assessed engine clock call order quote assessed ∧ quote.result.approved = true ∧
        order.side = .buy ∧ fill = assessed.fillOf order quote ∧
        after = (assessed.decided (riskDecision order quote)).filled order quote
          (engine.portfolio.purchased (engine.opening order quote)) := by
  generalize hfill : some fill = outcome at h
  cases createAndExecuteOrder_outcome h with
  | noPosition _ _ => cases hfill
  | rejected _ _ => cases hfill
  | refused _ _ _ _ => cases hfill
  | sold _ _ hsell _ =>
    cases hfill
    exact absurd (hside.symm.trans hsell) OrderSide.noConfusion
  | bought hassessed happroved hbuy _ =>
    cases hfill
    exact ⟨_, _, _, hassessed, happroved, hbuy, rfl, rfl⟩

/-- What is held fits the limit at a price, as it fits at its mark, unless it rises by more than what is
left. -/
theorem fits_at_price_iff {value held quantity price limit equity : Decimal} (hlimit : limit ≤ 1)
    (hmark : value + quantity * price ≤ limit * equity) :
    (held + quantity) * price ≤ limit * (equity - value + held * price) ↔
      ¬(0 < held * price - value ∧
        limit * equity - (value + quantity * price) < (1 - limit) * (held * price - value)) := by
  constructor
  · rintro hfits ⟨-, hless⟩
    linarith
  · intro hroom
    rw [not_and_or, not_lt, not_lt] at hroom
    rcases hroom with hfalls | hroom
    · have hshare : 0 ≤ (1 - limit) * (value - held * price) :=
        mul_nonneg (sub_nonneg.mpr hlimit) (by linarith)
      linarith
    · linarith

/-- A purchase is within the limit at its own price exactly when what is held does not outgrow it. -/
theorem withinLimit_iff {fill : Fill} (hlong : engine.portfolio.LongOnly)
    (hlimit : engine.riskEngine.config.maxPositionSize ≤ 1)
    (h : engine.createAndExecuteOrder clock call = .ok (some fill, after))
    (hside : fill.side = .buy) : after.WithinLimit fill ↔ ¬engine.Outgrows clock call := by
  obtain ⟨order, quote, assessed, hassessed, happroved, hbuy, rfl, rfl⟩ := bought_of_fill h hside
  have hpurchase := hassessed.purchase hlong hbuy happroved
  have hmark := assessed_within_mark hlong hassessed hbuy happroved
  have hquantity := engine.portfolio.quantityOf_purchased (engine.opening order quote)
  have hequity := engine.portfolio.equityAt_purchased (engine.opening order quote)
  have hriskEngine := hassessed.riskEngine
  have hsymbol : order.symbol = call.signal.symbol := hassessed.symbol
  -- After the purchase the quantities add up, and the equity is revalued at the price.
  have hwithin : BacktestEngine.WithinLimit ((assessed.decided (riskDecision order quote)).filled
      order quote (engine.portfolio.purchased (engine.opening order quote)))
        (assessed.fillOf order quote) ↔
      (engine.portfolio.quantityOf order.symbol + quote.quantity) * quote.executionPrice ≤
        engine.riskEngine.config.maxPositionSize *
          engine.portfolio.equityAt order.symbol quote.executionPrice := by
    have hcommission : (assessed.fillOf order quote).commission =
        (engine.opening order quote).commission := hassessed.commission
    have hown : (engine.opening order quote).symbol = order.symbol := rfl
    have hprice : (engine.opening order quote).price = quote.executionPrice := rfl
    rw [hown, hprice] at hequity
    rw [hown] at hquantity
    show (engine.portfolio.purchased (engine.opening order quote)).quantityOf order.symbol *
      quote.executionPrice ≤ assessed.riskEngine.config.maxPositionSize *
        ((engine.portfolio.purchased (engine.opening order quote)).equityAt order.symbol
          quote.executionPrice + (assessed.fillOf order quote).commission) ↔ _
    rw [hcommission, hequity, hquantity, hriskEngine]
    rfl
  rw [hwithin, Outgrows, hpurchase, Portfolio.equityAt, hsymbol]
  apply fits_at_price_iff hlimit
  have hvalue := le_abs_self (engine.portfolio.valueOf call.signal.symbol)
  linarith

end Limit

end BacktestEngine

theorem EngineStep.riskConfig {clock : ℕ → Datetime} {engine after : BacktestEngine}
    {event : EngineEvent} (h : EngineStep clock engine event after) :
    after.riskEngine.config = engine.riskEngine.config := by
  obtain ⟨fill, happly⟩ := h
  cases event with
  | signal index signal => cases happly; rfl
  | mark symbol close high timestamp => cases happly; rfl
  | drawdown drawdown => cases happly; rfl
  | order call =>
    cases BacktestEngine.createAndExecuteOrder_outcome happly with
    | noPosition _ _ => rfl
    | rejected hassessed _ => exact congrArg RiskEngine.config hassessed.riskEngine
    | refused hassessed _ _ _ => exact congrArg RiskEngine.config hassessed.riskEngine
    | bought hassessed _ _ _ => exact congrArg RiskEngine.config hassessed.riskEngine
    | sold hassessed _ _ _ => exact congrArg RiskEngine.config hassessed.riskEngine

theorem BacktestEngine.longOnly_of_run {clock : ℕ → Datetime} {config : BacktestConfig}
    {riskEngine : RiskEngine} {draws : ℕ → Decimal} {limits : RiskConfig}
    (hlimits : riskEngine.config = limits) {passed : List EngineEvent} {before : BacktestEngine}
    (h : Run (EngineStep clock) (.new config riskEngine draws) passed before) :
    before.portfolio.LongOnly ∧ before.riskEngine.config = limits :=
  h.invariant (P := fun _ engine => engine.portfolio.LongOnly ∧ engine.riskEngine.config = limits)
    ⟨.new _, hlimits⟩ fun _ _ _ _ hkept hstep =>
      ⟨hstep.longOnly hkept.1, hstep.riskConfig.trans hkept.2⟩

/-- Purchases of 2.5 and of 2.4 units, of which the second opens at twice the price of the first. -/
def gapUp : BacktestRun Unit Unit :=
  { candles := [flatCandle "BTCUSDT" 0 100, flatCandle "BTCUSDT" hour 100,
      flatCandle "BTCUSDT" (2 * hour) 200]
    strategy := .legacy fun _ candle _ => .ok ((), if candle.openTime < 2 * hour then
      some [.mapping (some "buy") none none (some (if candle.openTime = 0 then 5 / 2 else 12 / 5))
        none none none none none none] else none)
    initialState := (), clock := fun _ => 0, runId := "" }

def gapUpEngine : BacktestEngine := .new {} {} fun _ => 0

/-- The second of its orders. -/
def gapUpOrder : OrderCall :=
  { origin := .pending 2
    signal := { action := "buy", symbol := "BTCUSDT", price := 100, quantity := 12 / 5
                timestamp := hour, signalId := .uuid 1 }
    requestedPrice := 200, timestamp := 2 * hour, averageVolume := some 1000 }

/-- The second purchase is cut to the limit with the first at 100, and leaves both at 200. -/
theorem gapUp_above_limit : ∃ result before fill next,
    (gapUp.result gapUpEngine).value? = some result ∧
      Run.Makes (EngineStep gapUp.clock) gapUpEngine (gapUp.result gapUpEngine).trace before
        (.order gapUpOrder) next ∧
      before.createAndExecuteOrder gapUp.clock gapUpOrder = .ok (some fill, next) ∧
      fill.side = .buy ∧ ¬next.WithinLimit fill := by
  obtain ⟨result, hresult⟩ := Option.isSome_iff_exists.mp
    (show (gapUp.result gapUpEngine).value?.isSome = true by decide +kernel)
  have htrace : (gapUp.result gapUpEngine).trace =
      (gapUp.result gapUpEngine).trace.take 7 ++ .order gapUpOrder ::
        (gapUp.result gapUpEngine).trace.drop 8 := by decide +kernel
  have hfound : ∃ before fill next, Run.Makes (EngineStep gapUp.clock) gapUpEngine
      ((gapUp.result gapUpEngine).trace.take 7 ++ .order gapUpOrder ::
        (gapUp.result gapUpEngine).trace.drop 8) before (.order gapUpOrder) next ∧
      before.createAndExecuteOrder gapUp.clock gapUpOrder = .ok (some fill, next) ∧
      (decide (fill.side = .buy) && decide (¬next.WithinLimit fill)) = true :=
    makes_fill_of_replay _ (fun _ fill next => decide (fill.side = .buy) &&
      decide (¬next.WithinLimit fill)) (by decide +kernel)
  obtain ⟨before, fill, next, hmakes, hfilled, hfine⟩ := hfound
  rw [← htrace] at hmakes
  rw [Bool.and_eq_true, decide_eq_true_eq, decide_eq_true_eq] at hfine
  exact ⟨result, before, fill, next, hresult, hmakes, hfilled, hfine⟩

end CryptoTrading
