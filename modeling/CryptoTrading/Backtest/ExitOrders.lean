import CryptoTrading.Backtest.EngineEvents
import Mathlib.Algebra.Order.Field.Basic
import Mathlib.Tactic.Ring

/-! The exits of a backtest: when the sale of a position executes at once and whole, and when the
liquidation at the end of a run leaves nothing open. -/

namespace CryptoTrading

open Kit

namespace BacktestEngine

/-- The call sells the position. -/
structure Sells (engine : BacktestEngine) (call : OrderCall) (position : Position) : Prop where
  action : (SignalAction.ofValue? call.signal.action).map SignalAction.side = some .sell
  held : engine.portfolio.getPosition call.signal.symbol = some position

/-- The order of the sale of a position. -/
def exitOrder (engine : BacktestEngine) (call : OrderCall) (position : Position) : Order :=
  engine.orderOf call .sell position.quantity

/-- The requested price, less the slippage of the whole position. -/
def exitPrice (engine : BacktestEngine) (call : OrderCall) (position : Position) : Decimal :=
  call.requestedPrice *
    (1 - engine.slippageModel.slippage position.quantity call.averageVolume)

/-- The arguments of the risk check of the sale of a whole position. -/
def exitArguments (engine : BacktestEngine) (clock : ℕ → Datetime) (call : OrderCall)
    (position : Position) : TradeArguments :=
  engine.riskArguments (engine.exitOrder call position) (engine.exitPrice call position)
    (clock engine.checks)

/-- The sale executes whole: its order is approved, and filled at a positive price with the whole
quantity that leaves the portfolio, at the commission on that quantity. -/
def ExitsWhole (engine : BacktestEngine) (call : OrderCall) (position : Position)
    (after : BacktestEngine) : Prop :=
  ∃ order decision fill, after.orders = engine.orders ++ [order] ∧
    after.riskDecisions = engine.riskDecisions ++ [decision] ∧
    after.fills = engine.fills ++ [fill] ∧
    decision.orderId = order.orderId ∧ decision.approved = true ∧ fill.orderId = order.orderId ∧
    0 < fill.price ∧ fill.quantity = position.quantity ∧
    fill.commission =
      engine.config.commissionConfig.calculateCommission position.quantity fill.price ∧
    after.portfolio.positions = engine.portfolio.positions.erase call.signal.symbol

/-- The slippage leaves a positive price, the equity is positive, and the position is worth at most
twice its value at its mark, or else the gates for an increase of the exposure let it pass. -/
structure ExitFits (engine : BacktestEngine) (clock : ℕ → Datetime) (call : OrderCall)
    (position : Position) : Prop where
  price_pos : 0 < engine.exitPrice call position
  equity_pos : 0 < engine.portfolio.totalEquity
  exposure : position.quantity * engine.exitPrice call position ≤ 2 * |position.positionValue| ∨
    ∀ gate ∈ engine.riskEngine.gates (engine.exitArguments clock call position), gate.1 = false

section Exit

variable {engine assessed after : BacktestEngine} {clock : ℕ → Datetime} {order : Order}
  {quote : Quote} {call : OrderCall} {position : Position}

/-- The value of the position is the exposure before the order. -/
theorem riskArguments_before (order : Order) (h : engine.portfolio.LongOnly) (price : Decimal) (now : Datetime)
    (hheld : engine.portfolio.getPosition order.symbol = some position) :
    (engine.riskArguments order price now).before = |position.positionValue| := by
  have hlong : ("long" : String).toLower ∉ ["sell", "short"] := by decide +kernel
  have hfilter : (engine.riskArguments order price now).currentPositions.values.filter
      (fun p => decide (p.symbol = some order.symbol)) =
      (engine.portfolio.positions.entries.filter fun entry =>
        decide (entry.1 = order.symbol)).map fun entry =>
          { symbol := some entry.2.symbol, value := entry.2.positionValue, side := entry.2.side } := by
    simp only [riskArguments, Dict.values, Dict.mapValues, List.map_map, List.filter_map]
    refine congrArg (List.map _) (List.filter_congr fun entry hmem => ?_)
    have hown := (h entry.1 entry.2 (Dict.get?_eq_some_iff.mpr hmem)).1
    simp [hown]
  rw [Portfolio.getPosition] at hheld
  show (((engine.riskArguments order price now).currentPositions.values.filter fun p =>
    decide (p.symbol = some order.symbol)).map RiskPosition.signedValue).sum = _
  rw [hfilter, Dict.filter_entries_key, hheld]
  simp [RiskPosition.signedValue, (h _ _ hheld).2.1, hlong]

theorem riskArguments_symbol_mem (order : Order)
    (h : engine.portfolio.LongOnly) (price : Decimal) (now : Datetime)
    (hheld : engine.portfolio.getPosition order.symbol = some position) :
    some order.symbol ∈
      (engine.riskArguments order price now).currentPositions.values.map RiskPosition.symbol := by
  rw [Portfolio.getPosition] at hheld
  have hmem := Dict.get?_eq_some_iff.mp hheld
  simp only [riskArguments, Dict.values, Dict.mapValues, List.map_map, List.mem_map]
  exact ⟨_, hmem, congrArg some (h _ _ hheld).1⟩

end Exit

end BacktestEngine

/-- A position-size gate rejects a sale of what is held only for its share of the capital. -/
theorem RiskEngine.share_gt_of_maxPositionSize {engine : RiskEngine} {args : TradeArguments}
    (hheld : some args.symbol ∈ args.currentPositions.values.map RiskPosition.symbol)
    (h : RiskEvent.maxPositionSize ∈ (engine.rejections args).map Rejection.event) :
    args.reducing = false ∧ |args.after| / args.totalCapital > engine.config.maxPositionSize := by
  cases hreducing : args.reducing with
  | true => simp [rejections, hreducing] at h
  | false =>
    refine ⟨rfl, ?_⟩
    simp only [rejections, hreducing, Bool.false_eq_true, if_false, gates, List.mem_map,
      List.mem_filter, List.mem_cons, List.not_mem_nil, or_false] at h
    obtain ⟨rejection, ⟨gate, ⟨hgate, hrejects⟩, rfl⟩, hevent⟩ := h
    rcases hgate with rfl | rfl | rfl | rfl | rfl | rfl | rfl | rfl | rfl | rfl | rfl | rfl | rfl |
      rfl | rfl <;> cases hevent
    · exact of_decide_eq_true hrejects
    · exact absurd (List.mem_map.mp hheld) (of_decide_eq_true hrejects).1

/-- The adjusted quantity of a sale is less than the sale's. -/
theorem RiskEngine.adjustedQuantity_lt {engine : RiskEngine} {args : TradeArguments}
    {quantity : Decimal} (hvalid : args.valid = true) (hside : args.side.toLower ≠ "buy")
    (hbefore : 0 ≤ args.before)
    (hheld : some args.symbol ∈ args.currentPositions.values.map RiskPosition.symbol)
    (h : (engine.checkTrade args).adjustedQuantity = some quantity) : quantity < args.quantity := by
  simp only [TradeArguments.valid, Bool.and_eq_true, decide_eq_true_eq] at hvalid
  have hprice := hvalid.1.2
  have hworth : 0 < args.orderValue := mul_pos hvalid.1.1.2 hprice
  simp only [checkTrade, TradeArguments.valid, Bool.and_eq_true, decide_eq_true_eq, hvalid,
    and_self, if_true, adjustedQuantity, Option.ite_none_right_eq_some] at h
  obtain ⟨⟨hevent, havailable⟩, hquantity⟩ := h
  obtain ⟨hincrease, hshare⟩ := share_gt_of_maxPositionSize hheld hevent
  have hmore : 2 * args.before < args.orderValue := by
    rw [← not_le, ← TradeArguments.reducing_sale_iff hside hbefore hworth, hincrease]
    exact Bool.false_ne_true
  have hafter : |args.after| = args.orderValue - args.before := by
    rw [TradeArguments.after, if_neg hside, abs_of_neg (by linarith)]
    ring
  rw [hafter, gt_iff_lt, lt_div_iff₀ hvalid.2] at hshare
  rw [abs_of_nonneg hbefore] at havailable hquantity
  have hleft : max (args.totalCapital * engine.config.maxPositionSize - args.before) 0 <
      args.orderValue := max_lt (by linarith) hworth
  rw [← Option.some.inj hquantity, div_lt_iff₀ hprice]
  exact hleft

namespace BacktestEngine

section Exit

variable {engine assessed after : BacktestEngine} {clock : ℕ → Datetime} {order : Order}
  {quote : Quote} {call : OrderCall} {position : Position}

theorem Sells.order_eq (hsells : engine.Sells call position)
    (h : Assessed engine clock call order quote assessed) :
    order.side = .sell ∧ order = engine.exitOrder call position := by
  have hside : order.side = .sell := Option.some.inj (h.action.symm.trans hsells.action)
  have hquantity := h.quantity
  rw [hside, orderQuantity, hsells.held] at hquantity
  refine ⟨hside, ?_⟩
  rw [h.created, hside, ← Option.some.inj hquantity]
  rfl

/-- The first quote of a sale is approved exactly when the exit fits. -/
theorem quote_approved_iff (hlong : engine.portfolio.LongOnly) (hsells : engine.Sells call position)
    {quoted : BacktestEngine}
    (h : (engine.ordered (engine.exitOrder call position)).quote clock
      (engine.exitOrder call position) call.averageVolume = .ok (quote, quoted)) :
    quote.result.approved = true ↔ engine.ExitFits clock call position := by
  obtain ⟨hslippage, -, hresult, -⟩ := quote_cases h
  have hprice : quote.executionPrice = engine.exitPrice call position := by
    simp only [SlippageModel.calculateSlippage] at hslippage
    split at hslippage
    · cases hslippage
    · exact (Option.some.inj hslippage).symm
  have hbefore := riskArguments_before (engine.exitOrder call position) hlong
    (engine.exitPrice call position) (clock engine.checks) hsells.held
  have hquantity : 0 < position.quantity := (hlong _ _ hsells.held).2.2
  have hside : (engine.exitArguments clock call position).side.toLower = "sell" :=
    OrderSide.text_toLower .sell
  have hresult : quote.result =
      engine.riskEngine.checkTrade (engine.exitArguments clock call position) := by
    rw [hresult, hprice]
    rfl
  rw [hresult, RiskEngine.checkTrade_approved_iff, RiskEngine.rejections_eq_nil_iff]
  have hvalid : (engine.exitArguments clock call position).valid = true ↔
      0 < engine.exitPrice call position ∧ 0 < engine.portfolio.totalEquity := by
    simp only [TradeArguments.valid, hside, Bool.and_eq_true, decide_eq_true_eq]
    exact ⟨fun h => ⟨h.1.2, h.2⟩, fun h => ⟨⟨⟨by decide, hquantity⟩, h.1⟩, h.2⟩⟩
  have hreducing : 0 < engine.exitPrice call position →
      ((engine.exitArguments clock call position).reducing = true ↔
        position.quantity * engine.exitPrice call position ≤ 2 * |position.positionValue|) := by
    intro hpos
    rw [← hbefore]
    refine TradeArguments.reducing_sale_iff (by rw [hside]; decide) ?_ (mul_pos hquantity hpos)
    exact le_of_le_of_eq (abs_nonneg _) hbefore.symm
  rw [hvalid]
  constructor
  · rintro ⟨⟨hpos, hequity⟩, hexposure⟩
    exact ⟨hpos, hequity, hexposure.imp_left (hreducing hpos).mp⟩
  · rintro ⟨hpos, hequity, hexposure⟩
    exact ⟨⟨hpos, hequity⟩, hexposure.imp_left (hreducing hpos).mpr⟩

/-- A quote that is repeated is repeated at a smaller quantity. -/
theorem retry_lt (hlong : engine.portfolio.LongOnly) (hsells : engine.Sells call position)
    {quoted : BacktestEngine}
    (h : (engine.ordered (engine.exitOrder call position)).quote clock
      (engine.exitOrder call position) call.averageVolume = .ok (quote, quoted))
    {quantity : Decimal} (hretry : quote.retry = some quantity) : quantity < position.quantity := by
  obtain ⟨-, -, hresult, -⟩ := quote_cases h
  unfold Quote.retry at hretry
  split at hretry
  · cases hretry
  rw [hresult] at hretry
  have hbefore := riskArguments_before (engine.exitOrder call position) hlong
    quote.executionPrice (clock engine.checks) hsells.held
  have hmem := riskArguments_symbol_mem (engine.exitOrder call position) hlong
    quote.executionPrice (clock engine.checks) hsells.held
  have hside : (engine.riskArguments (engine.exitOrder call position) quote.executionPrice
      (clock engine.checks)).side.toLower = "sell" := OrderSide.text_toLower .sell
  cases hvalid : (engine.riskArguments (engine.exitOrder call position) quote.executionPrice
      (clock engine.checks)).valid with
  | false =>
    have hnone : (engine.riskEngine.checkTrade (engine.riskArguments (engine.exitOrder call position)
        quote.executionPrice (clock engine.checks))).adjustedQuantity = none := by
      simp [RiskEngine.checkTrade, hvalid]
    exact absurd (hnone.symm.trans hretry) nofun
  | true =>
    exact RiskEngine.adjustedQuantity_lt hvalid (by rw [hside]; decide)
      (le_of_le_of_eq (abs_nonneg _) hbefore.symm) hmem hretry

/-- The quote that decides on a sale is for the whole position and approved exactly when the exit
fits. -/
theorem assessed_whole_iff (hlong : engine.portfolio.LongOnly) (hsells : engine.Sells call position)
    (h : Assessed engine clock call order quote assessed) :
    (quote.result.approved = true ∧ quote.quantity = position.quantity) ↔
      engine.ExitFits clock call position := by
  have hassess := h.assess
  rw [(hsells.order_eq h).2] at hassess
  rcases assess_cases hassess with ⟨hquote, -⟩ | ⟨first, quoted, quantity, hfirst, hretry, hquote⟩
  · obtain ⟨-, hquantity, -, -⟩ := quote_cases hquote
    rw [and_iff_left (b := quote.quantity = position.quantity) hquantity]
    exact quote_approved_iff hlong hsells hquote
  · have hless := retry_lt hlong hsells hfirst hretry
    obtain ⟨-, hquantity, -, -⟩ := quote_cases hquote
    have hrejected : ¬first.result.approved = true := by
      intro happroved
      rw [Quote.retry, if_pos happroved] at hretry
      cases hretry
    rw [quote_approved_iff hlong hsells hfirst] at hrejected
    refine iff_of_false (fun hwhole => ?_) hrejected
    exact absurd (hquantity.symm.trans hwhole.2) hless.ne

/-- An exit executes whole exactly when it fits. -/
theorem exitsWhole_iff (hlong : engine.portfolio.LongOnly) (hsells : engine.Sells call position)
    (hstep : EngineStep clock engine (.order call) after) :
    engine.ExitsWhole call position after ↔ engine.ExitFits clock call position := by
  obtain ⟨fill, happly⟩ := hstep
  have hnotFilled : ∀ {decided : BacktestEngine} {fill : Fill}, decided.fills = engine.fills →
      decided.fills ≠ engine.fills ++ [fill] := by
    intro decided fill hsame hmore
    have hlength := congrArg List.length (hsame.symm.trans hmore)
    simp at hlength
  cases createAndExecuteOrder_outcome happly with
  | noPosition _ hflat =>
    rw [hsells.held] at hflat
    cases hflat
  | @rejected order quote assessed h hrejected =>
    rw [← assessed_whole_iff hlong hsells h, hrejected]
    refine iff_of_false ?_ (fun hwhole => Bool.noConfusion hwhole.1)
    rintro ⟨_, _, fill, -, -, hfills, -⟩
    exact hnotFilled h.fills hfills
  | @refused order quote assessed h happroved hside _ =>
    rw [(hsells.order_eq h).1] at hside
    cases hside
  | @bought order quote assessed h happroved hside _ =>
    rw [(hsells.order_eq h).1] at hside
    cases hside
  | @sold order quote assessed held h happroved hside hheld =>
    have hposition : held = position := Option.some.inj (hheld.symm.trans hsells.held)
    rw [← assessed_whole_iff hlong hsells h]
    constructor
    · rintro ⟨_, _, fill, -, -, hfills, -, -, -, -, hquantity, -⟩
      have hown : fill = assessed.fillOf order quote := by
        have hsame : assessed.fills ++ [assessed.fillOf order quote] = engine.fills ++ [fill] :=
          hfills
        rw [h.fills] at hsame
        exact (List.singleton_inj.mp (List.append_cancel_left hsame)).symm
      rw [hown] at hquantity
      exact ⟨happroved, hquantity⟩
    · rintro ⟨-, hquantity⟩
      refine ⟨order, riskDecision order quote, assessed.fillOf order quote, h.orders,
        congrArg (· ++ [riskDecision order quote]) h.riskDecisions,
        congrArg (· ++ [assessed.fillOf order quote]) h.fills, rfl, happroved, rfl,
        (assess_pos h.assess happroved).2.1, hquantity, ?_, rfl⟩
      rw [← hquantity]
      exact h.commission

end Exit

end BacktestEngine

/-! ### The liquidation -/

namespace BacktestRun

open Traced

variable {σ ι : Type} {run : BacktestRun σ ι} {engine after : BacktestEngine}
  {trace : List EngineEvent}

/-- Every sale of a position in these events fits. -/
def ExitsFit (clock : ℕ → Datetime) (engine : BacktestEngine) (trace : List EngineEvent) : Prop :=
  ∀ before call next position, Run.Makes (EngineStep clock) engine trace before (.order call) next →
    before.Sells call position → before.ExitFits clock call position

/-- The liquidation of a position that fits closes it. -/
theorem liquidatePosition_keys {last : BacktestCandle ι} {entry : String × Position}
    (hlong : engine.portfolio.LongOnly)
    (h : (run.liquidatePosition last engine entry).Returns after trace)
    (hfits : ExitsFit run.clock engine trace) :
    after.portfolio.positions.keys =
      engine.portfolio.positions.keys.filter fun symbol => decide (symbol ≠ entry.1) := by
  obtain ⟨⟨fill, closed⟩, own, rest, hown, hrest, rfl⟩ := returns_bind_iff.mp h
  obtain ⟨rfl, rfl⟩ := returns_pure_iff.mp hrest
  obtain ⟨horder, rfl⟩ := returns_processSignal_iff.mp hown
  generalize hsignal : run.closeSignal engine entry.1 last.close entry.2.quantity last.openTime
    "End of backtest" = signal at horder hfits
  have hsymbol : signal.symbol = entry.1 := by rw [← hsignal]; rfl
  have haction : (SignalAction.ofValue? signal.action).map SignalAction.side = some .sell := by
    rw [← hsignal]
    show (SignalAction.ofValue? "close").map SignalAction.side = some .sell
    decide
  have hsignaled : EngineStep run.clock engine (.signal run.candles.length signal)
      (engine.signaled signal) := ⟨none, rfl⟩
  cases hheld : engine.portfolio.getPosition entry.1 with
  | none =>
    have hnot : entry.1 ∉ engine.portfolio.positions.keys := Dict.get?_eq_none_iff.mp hheld
    have hsame : after.portfolio = engine.portfolio := by
      cases BacktestEngine.createAndExecuteOrder_outcome horder with
      | noPosition _ _ => rfl
      | rejected hassessed _ => exact hassessed.portfolio
      | refused hassessed _ _ _ => exact hassessed.portfolio
      | bought hassessed _ hside _ =>
        rw [Option.some.inj (hassessed.action.symm.trans haction)] at hside
        cases hside
      | sold hassessed _ _ hposition =>
        have hnone : engine.portfolio.getPosition signal.symbol = none := by rw [hsymbol, hheld]
        rw [show (engine.signaled signal).portfolio = engine.portfolio from rfl, hnone] at hposition
        cases hposition
    rw [hsame, List.filter_eq_self.mpr]
    intro symbol hmem
    exact decide_eq_true fun he => hnot (he ▸ hmem)
  | some position =>
    have hsells : (engine.signaled signal).Sells
        ⟨.liquidation, signal, signal.price, last.openTime,
          averageCompletedVolume run.candles entry.1⟩ position := by
      refine ⟨haction, ?_⟩
      rw [← hheld, ← hsymbol]
      rfl
    have hstep : EngineStep run.clock (engine.signaled signal) _ after := ⟨fill, horder⟩
    have hown := hfits _ _ _ position ⟨[_], [], rfl, .single hsignaled, hstep⟩ hsells
    have hsignaledLong : (engine.signaled signal).portfolio.LongOnly := hlong
    have hwhole := (BacktestEngine.exitsWhole_iff hsignaledLong hsells hstep).mpr hown
    obtain ⟨_, _, _, -, -, -, -, -, -, -, -, -, hpositions⟩ := hwhole
    rw [hpositions, Dict.keys_erase, hsymbol]
    rfl

/-- A liquidation whose sales all fit leaves nothing open. -/
theorem liquidate_flat (hlong : engine.portfolio.LongOnly)
    (h : (run.liquidate engine).Returns after trace) (hcandles : run.candles ≠ [])
    (hpolicy : engine.config.endPositionPolicy = .liquidate)
    (hfits : ExitsFit run.clock engine trace) : after.portfolio.positions = .empty := by
  obtain ⟨last, hlast⟩ : ∃ last, run.candles.getLast? = some last :=
    ⟨_, List.getLast?_eq_some_getLast hcandles⟩
  rw [liquidate, hlast, hpolicy] at h
  simp only at h
  clear hpolicy
  have hkeys : engine.portfolio.positions.keys ⊆
      engine.portfolio.positions.entries.map Prod.fst := List.Subset.refl _
  generalize engine.portfolio.positions.entries = entries at h hkeys
  refine Dict.eq_empty_of_keys (List.subset_nil.mp ?_)
  -- The keys that are left are those of the entries still to come.
  induction entries generalizing engine trace with
  | nil =>
    obtain ⟨rfl, -⟩ := returns_foldlM_nil_iff.mp h
    exact hkeys
  | cons entry rest ih =>
    obtain ⟨middle, own, later, hown, hlater, rfl⟩ := returns_foldlM_cons_iff.mp h
    have hrun : Run (EngineStep run.clock) engine own middle :=
      leads_of_follows (run.follows_liquidatePosition last engine entry) hown
    have hkeysMiddle := liquidatePosition_keys hlong hown fun before call next position hmakes =>
      hfits before call next position (hmakes.append_right later)
    refine ih ?_ ?_ hlater ?_
    · exact hrun.invariant (P := fun _ engine => engine.portfolio.LongOnly) hlong
        fun _ _ _ _ hlong hstep => hstep.longOnly hlong
    · exact fun before call next position hmakes =>
        hfits before call next position (hmakes.append_left hrun)
    · rw [hkeysMiddle]
      intro symbol hmem
      obtain ⟨hmem, hne⟩ := List.mem_filter.mp hmem
      have hother := hkeys hmem
      rw [List.map_cons, List.mem_cons] at hother
      exact hother.resolve_left (of_decide_eq_true hne)

end BacktestRun

/-- In a run all sales of positions execute whole, and a liquidation leaves nothing open, exactly when
all of them fit. -/
theorem exits_whole_iff {σ ι : Type} (run : BacktestRun σ ι) (config : BacktestConfig)
    (riskEngine : RiskEngine) (draws : ℕ → Decimal) (result : BacktestResult)
    (trace : List EngineEvent)
    (h : (run.result (.new config riskEngine draws)).Returns result trace) :
    ((∀ before call next position, Run.Makes (EngineStep run.clock) (.new config riskEngine draws)
          trace before (.order call) next → before.Sells call position →
            before.ExitsWhole call position next) ∧
        (config.endPositionPolicy = .liquidate → result.portfolio.positions = .empty)) ↔
      BacktestRun.ExitsFit run.clock (.new config riskEngine draws) trace := by
  obtain ⟨engine, events, rest, hexecute, hpure, rfl⟩ := Traced.returns_bind_iff.mp h
  obtain ⟨rfl, rfl⟩ := Traced.returns_pure_iff.mp hpure
  rw [List.append_nil]
  have hnew : (BacktestEngine.new config riskEngine draws).portfolio.LongOnly := .new _
  have hkeeps : ∀ {passed s t}, Run (EngineStep run.clock) s passed t → s.portfolio.LongOnly →
      t.portfolio.LongOnly := fun hrun hlong =>
    hrun.invariant (P := fun _ engine => engine.portfolio.LongOnly) hlong
      fun _ _ _ _ hlong hstep => hstep.longOnly hlong
  constructor
  · rintro ⟨hwhole, -⟩ before call next position hmakes hsells
    obtain ⟨passed, later, hsplit, hbefore, hstep⟩ := hmakes
    rw [← BacktestEngine.exitsWhole_iff (hkeeps hbefore hnew) hsells hstep]
    exact hwhole before call next position ⟨passed, later, hsplit, hbefore, hstep⟩ hsells
  · intro hfits
    refine ⟨fun before call next position hmakes hsells => ?_, fun hpolicy => ?_⟩
    · obtain ⟨passed, later, hsplit, hbefore, hstep⟩ := hmakes
      rw [BacktestEngine.exitsWhole_iff (hkeeps hbefore hnew) hsells hstep]
      exact hfits before call next position ⟨passed, later, hsplit, hbefore, hstep⟩ hsells
    · obtain ⟨state, turns, liquidation, hturns, hliquidate, rfl⟩ :=
        Traced.returns_bind_iff.mp hexecute
      have hrun := BacktestRun.leads_of_follows (run.follows_turns _ _) hturns
      by_cases hcandles : run.candles = []
      · -- Without candles the engine is still the new one.
        rw [BacktestRun.turns, hcandles] at hturns
        obtain ⟨rfl, -⟩ := Traced.returns_foldlM_nil_iff.mp hturns
        rw [BacktestRun.liquidate, hcandles] at hliquidate
        obtain ⟨rfl, -⟩ := Traced.returns_pure_iff.mp hliquidate
        rfl
      · refine BacktestRun.liquidate_flat (hkeeps hrun hnew) hliquidate hcandles ?_ ?_
        · have hconfig : state.engine.config = config :=
            hrun.invariant (P := fun _ engine => engine.config = config) rfl
              fun _ _ _ _ hconfig hstep => hstep.config.trans hconfig
          rw [hconfig, hpolicy]
        · exact fun before call next position hmakes =>
            hfits before call next position (hmakes.append_left hrun)

/-- A purchase of four units where no volume is known, and a last candle with a volume of one. -/
def thin : BacktestRun Unit Unit :=
  { candles := [flatCandle "BTCUSDT" 0 100 (some 0), flatCandle "BTCUSDT" hour 100 (some 1)]
    strategy := buyOnce 4, initialState := (), clock := fun _ => 0, runId := "" }

def thinEngine : BacktestEngine := .new {} {} fun _ => 0

theorem thin_open : ∃ result, (thin.result thinEngine).value? = some result ∧
    result.portfolio.positions ≠ .empty := by
  have hopen : (thin.result thinEngine).value?.any (fun result =>
      decide (result.portfolio.positions ≠ .empty)) = true := by
    decide +kernel
  obtain ⟨result, hresult, hany⟩ := (Option.any_eq_true _ _).mp hopen
  exact ⟨result, hresult, of_decide_eq_true hany⟩

/-- Positive prices and volumes that are not negative do not make a liquidation close everything. -/
theorem liquidation_fails : ¬∀ (run : BacktestRun Unit Unit) (draws : ℕ → Decimal)
    (result : BacktestResult) (trace : List EngineEvent),
    (∀ candle ∈ run.candles, candle.symbol = "BTCUSDT" ∧ 0 < candle.lowPrice ∧
      candle.lowPrice ≤ min candle.openPrice candle.close ∧
      max candle.openPrice candle.close ≤ candle.highPrice ∧
      candle.volume.all (fun volume => decide (0 ≤ volume)) = true) →
    (∀ n, 0 ≤ draws n ∧ draws n ≤ 1 / 1000) → (run.result (.new {} {} draws)).Returns result trace →
      result.portfolio.positions = .empty := by
  intro h
  obtain ⟨result, hresult, hopen⟩ := thin_open
  have hdraws : (0 : Decimal) ≤ 0 ∧ (0 : Decimal) ≤ 1 / 1000 := by decide +kernel
  exact hopen (h thin (fun _ => 0) result _ (by decide +kernel) (fun _ => hdraws)
    (Traced.returns_of_value? hresult))

/-- `exits_whole_iff` for that run. -/
theorem thin_exits_unfit : ¬BacktestRun.ExitsFit thin.clock thinEngine
    (thin.result thinEngine).trace := by
  intro h
  obtain ⟨result, hresult, hopen⟩ := thin_open
  exact hopen (((exits_whole_iff thin _ {} _ result _ (Traced.returns_of_value? hresult)).mpr h).2 rfl)

end CryptoTrading
