import CryptoTrading.Backtest.EngineEvents
import CryptoTrading.Backtest.PortfolioConservation
import CryptoTrading.Kit.Drawdown

/-! The drawdown that a backtest reports.  It is taken once in every turn of the loop, from the equity that
the candle records; the liquidation after the last candle sells at other prices and pays commission, and no
drawdown is taken of the equity that it leaves. -/

namespace CryptoTrading

open Kit

namespace BacktestEngine

variable {engine middle after : BacktestEngine} {clock : ℕ → Datetime} {call : OrderCall}
  {fill : Option Fill}

/-- The equity that the engine has recorded, from the initial balance on. -/
def recordedEquity (engine : BacktestEngine) : List Decimal :=
  engine.config.initialBalance :: engine.portfolio.equityHistory.map Prod.snd

/-- What an order leaves as it is. -/
structure SameCurve (engine after : BacktestEngine) : Prop where
  config : after.config = engine.config
  equityHistory : after.portfolio.equityHistory = engine.portfolio.equityHistory
  maxDrawdown : after.portfolio.maxDrawdown = engine.portfolio.maxDrawdown

namespace SameCurve

theorem refl (engine : BacktestEngine) : engine.SameCurve engine := ⟨rfl, rfl, rfl⟩

theorem trans (h : engine.SameCurve middle) (h' : middle.SameCurve after) :
    engine.SameCurve after :=
  ⟨h'.config.trans h.config, h'.equityHistory.trans h.equityHistory,
    h'.maxDrawdown.trans h.maxDrawdown⟩

theorem recordedEquity (h : engine.SameCurve after) :
    after.recordedEquity = engine.recordedEquity := by
  rw [BacktestEngine.recordedEquity, BacktestEngine.recordedEquity, h.config, h.equityHistory]

end SameCurve

theorem Outcome.sameCurve (h : Outcome engine clock call fill after) : engine.SameCurve after := by
  cases h with
  | noPosition _ _ => exact ⟨rfl, rfl, rfl⟩
  | rejected hassessed _ =>
    exact ⟨hassessed.config, congrArg Portfolio.equityHistory hassessed.portfolio,
      congrArg Portfolio.maxDrawdown hassessed.portfolio⟩
  | refused hassessed _ _ _ =>
    exact ⟨hassessed.config, congrArg Portfolio.equityHistory hassessed.portfolio,
      congrArg Portfolio.maxDrawdown hassessed.portfolio⟩
  | bought hassessed _ _ _ => exact ⟨hassessed.config, rfl, rfl⟩
  | sold hassessed _ _ _ => exact ⟨hassessed.config, rfl, rfl⟩

/-! ### The cost of a sale -/

/-- What the equity loses by the sale that a call makes: the value at the mark, less the proceeds at the
quoted price; nothing, where nothing is held or the risk check rejects the sale. -/
def saleCost (engine : BacktestEngine) (clock : ℕ → Datetime) (call : OrderCall) : Decimal :=
  match engine.portfolio.getPosition call.signal.symbol with
  | none => 0
  | some position =>
    let order := engine.orderOf call .sell position.quantity
    match (engine.ordered order).assess clock order call.averageVolume with
    | .error _ => 0
    | .ok (quote, _) =>
      if quote.result.approved then
        position.positionValue -
          (quote.executionPrice * position.quantity - engine.commission quote)
      else 0

end BacktestEngine

theorem Portfolio.totalEquity_sold (portfolio : Portfolio) {symbol : String} {position : Position}
    (hheld : portfolio.getPosition symbol = some position) (price commission : Decimal)
    (timestamp : Datetime) :
    (portfolio.sold symbol position price commission timestamp).totalEquity =
      portfolio.totalEquity - (position.positionValue - (price * position.quantity - commission)) := by
  have hsum := sum_values_erase Position.positionValue portfolio.positions symbol
  rw [show portfolio.positions.get? symbol = some position from hheld, Option.elim_some] at hsum
  rw [totalEquity, totalEquity]
  show portfolio.balance + (price * position.quantity - commission) +
    ((portfolio.positions.erase symbol).values.map Position.positionValue).sum = _
  rw [hsum]
  ring

namespace BacktestEngine

variable {engine after : BacktestEngine} {clock : ℕ → Datetime} {call : OrderCall}
  {fill : Option Fill}

/-- The cost of a sale whose order has been assessed. -/
theorem Assessed.saleCost_eq {order : Order} {quote : Quote} {assessed : BacktestEngine}
    (h : Assessed engine clock call order quote assessed)
    (hsell : (SignalAction.ofValue? call.signal.action).map SignalAction.side = some .sell) :
    ∃ position, engine.portfolio.getPosition call.signal.symbol = some position ∧
      engine.saleCost clock call =
        if quote.result.approved then
          position.positionValue -
            (quote.executionPrice * position.quantity - engine.commission quote)
        else 0 := by
  have hside : order.side = .sell := Option.some.inj (h.action.symm.trans hsell)
  have hquantity := h.quantity
  rw [hside] at hquantity
  obtain ⟨position, hheld, hposition⟩ := Option.map_eq_some_iff.mp hquantity
  have hassess := h.assess
  rw [h.created, hside, ← hposition] at hassess
  refine ⟨position, hheld, ?_⟩
  rw [saleCost, hheld]
  simp only [hassess]

/-- A sale takes its cost from the equity. -/
theorem totalEquity_of_sale (haction : call.signal.action = "close")
    (h : engine.createAndExecuteOrder clock call = .ok (fill, after)) :
    after.portfolio.totalEquity = engine.portfolio.totalEquity - engine.saleCost clock call := by
  have hsell : (SignalAction.ofValue? call.signal.action).map SignalAction.side = some .sell := by
    rw [haction]
    decide
  cases createAndExecuteOrder_outcome h with
  | noPosition _ hflat =>
    rw [saleCost, hflat, sub_zero]
    rfl
  | rejected hassessed hrejected =>
    obtain ⟨position, -, hcost⟩ := hassessed.saleCost_eq hsell
    rw [hcost, hrejected, if_neg Bool.false_ne_true, sub_zero]
    exact congrArg Portfolio.totalEquity hassessed.portfolio
  | refused hassessed _ hside _ =>
    cases hside.symm.trans (Option.some.inj (hassessed.action.symm.trans hsell))
  | bought hassessed _ hside _ =>
    cases hside.symm.trans (Option.some.inj (hassessed.action.symm.trans hsell))
  | sold hassessed happroved _ hheld =>
    obtain ⟨position, hheld', hcost⟩ := hassessed.saleCost_eq hsell
    cases hheld.symm.trans hheld'
    rw [hcost, if_pos happroved]
    exact Portfolio.totalEquity_sold engine.portfolio hheld _ _ _

end BacktestEngine

namespace BacktestRun

open Traced

variable {σ ι : Type} (run : BacktestRun σ ι)

/-! ### The loop -/

section Loop

variable {run} {engine : BacktestEngine} {index : ℕ} {candle : BacktestCandle ι}
  {state : BacktestState σ}

theorem ensures_apply (event : EngineEvent) :
    Ensures (fun _ => True) (fun outcome => engine.apply run.clock event = .ok outcome)
      (engine.perform run.clock event) := by
  unfold BacktestEngine.perform
  cases happly : engine.apply run.clock event with
  | error error => trivial
  | ok outcome => exact rfl

theorem sameCurve_executePending :
    Ensures (fun _ => True)
      (fun opened => state.engine.SameCurve opened.engine ∧ opened.peakEquity = state.peakEquity)
      (run.executePending index candle state) := by
  refine ensures_foldlM ⟨.refl _, rfl⟩ ?_
  rintro opened signal - ⟨hcurve, hpeak⟩
  refine (ensures_apply _).bind fun outcome houtcome => ?_
  refine ensures_lift_bind (fun _ _ => trivial) fun strategyState _ => ensures_pure ⟨?_, hpeak⟩
  exact hcurve.trans (BacktestEngine.createAndExecuteOrder_outcome houtcome).sameCurve

theorem sameCurve_processSignal (origin : OrderOrigin) (signal : Signal) (timestamp : Datetime)
    (averageVolume : Option Decimal) :
    Ensures (fun _ => True) (fun outcome => engine.SameCurve outcome.2)
      (run.processSignal engine index origin signal timestamp averageVolume) := by
  refine (ensures_apply _).bind fun recorded hrecorded => ?_
  cases hrecorded
  refine (ensures_apply _).mono (fun _ _ => trivial) fun outcome houtcome => ?_
  have hsignaled : engine.SameCurve (engine.signaled signal) := ⟨rfl, rfl, rfl⟩
  exact hsignaled.trans (BacktestEngine.createAndExecuteOrder_outcome houtcome).sameCurve

theorem sameCurve_executeLevels :
    Ensures (fun _ => True) (fun closed => engine.SameCurve closed.2)
      (run.executeLevels index candle engine) := by
  refine ensures_foldlM (.refl _) ?_
  rintro closedByLevel event - hcurve
  unfold executeLevel
  split
  · exact ensures_pure hcurve
  · refine (sameCurve_processSignal _ _ _ _).bind fun outcome houtcome => ensures_pure ?_
    exact hcurve.trans houtcome

/-- The signals that are queued leave the portfolio as it is. -/
theorem samePortfolio_queueSignals (closedByLevel : Bool) :
    Ensures (fun _ => True) (fun queued => queued.engine.config = state.engine.config ∧
        queued.engine.portfolio = state.engine.portfolio ∧ queued.peakEquity = state.peakEquity)
      (run.queueSignals index candle closedByLevel state) := by
  refine ensures_lift_bind (fun _ _ => trivial) fun _ _ => ensures_lift_bind (fun _ _ => trivial)
    fun called _ => ensures_foldlM ⟨rfl, rfl, rfl⟩ ?_
  rintro queued raw - ⟨hconfig, hportfolio, hpeak⟩
  refine ensures_lift_bind (fun _ _ => trivial) fun signal _ => (ensures_apply _).bind
    fun recorded hrecorded => ensures_pure ?_
  cases hrecorded
  exact ⟨hconfig, hportfolio, hpeak⟩

/-- The peak and the drawdown are those of the equity recorded so far. -/
structure Tracks (state : BacktestState σ) (initialBalance : Decimal) : Prop where
  config : state.engine.config.initialBalance = initialBalance
  peak : state.peakEquity = Kit.peak state.engine.recordedEquity
  drawdown : IsMaxDrawdown state.engine.recordedEquity state.engine.portfolio.maxDrawdown

theorem tracks_start (run : BacktestRun σ ι) (config : BacktestConfig) (riskEngine : RiskEngine)
    (draws : ℕ → Decimal) :
    Tracks (run.start (.new config riskEngine draws)) config.initialBalance where
  config := rfl
  peak := (peak_singleton config.initialBalance).symm
  drawdown := isMaxDrawdown_singleton config.initialBalance

theorem tracks_trackDrawdown (recorded : List Decimal) {initialBalance : Decimal}
    (hconfig : state.engine.config.initialBalance = initialBalance) (hrecorded : recorded ≠ [])
    (hequity : state.engine.recordedEquity = recorded ++ [state.engine.portfolio.totalEquity])
    (hpeak : state.peakEquity = peak recorded)
    (hdrawdown : IsMaxDrawdown recorded state.engine.portfolio.maxDrawdown) :
    Ensures (fun _ => True) (fun after => Tracks after initialBalance) (run.trackDrawdown state) := by
  have hgreater : max state.peakEquity state.engine.portfolio.totalEquity =
      peak (recorded ++ [state.engine.portfolio.totalEquity]) := by
    rw [peak_append_singleton hrecorded, hpeak]
  unfold trackDrawdown
  simp only [hgreater]
  split
  · trivial
  · refine (ensures_apply _).bind fun outcome houtcome => ensures_pure ?_
    cases houtcome
    refine ⟨hconfig, congrArg peak hequity.symm, ?_⟩
    show IsMaxDrawdown state.engine.recordedEquity _
    rw [hequity]
    exact hdrawdown.append_singleton _

theorem tracks_turn {initialBalance : Decimal} (h : Tracks state initialBalance)
    (item : BacktestCandle ι × ℕ) :
    Ensures (fun _ => True) (fun after => Tracks after initialBalance) (run.turn state item) := by
  refine sameCurve_executePending.bind fun opened hopened => ?_
  refine sameCurve_executeLevels.bind fun levels hlevels => ?_
  refine (ensures_apply _).bind fun marked hmarked => ?_
  cases hmarked
  refine (samePortfolio_queueSignals _).bind fun queued hqueued => ?_
  obtain ⟨hconfig, hportfolio, hpeak⟩ := hqueued
  have hcurve : state.engine.SameCurve levels.2 := hopened.1.trans hlevels
  refine tracks_trackDrawdown state.engine.recordedEquity
    ((congrArg BacktestConfig.initialBalance (hconfig.trans hcurve.config)).trans h.config)
    (List.cons_ne_nil _ _) ?_ ((hpeak.trans hopened.2).trans h.peak) ?_
  · rw [BacktestEngine.recordedEquity, hconfig, hportfolio, ← hcurve.recordedEquity]
    show levels.2.config.initialBalance :: (levels.2.portfolio.equityHistory ++ [_]).map Prod.snd = _
    rw [List.map_append]
    rfl
  · rw [hportfolio]
    exact hcurve.maxDrawdown ▸ h.drawdown

theorem tracks_turns {initialBalance : Decimal} (h : Tracks state initialBalance) (count : ℕ) :
    Ensures (fun _ => True) (fun after => Tracks after initialBalance) (run.turns count state) :=
  ensures_foldlM h fun _ item _ htracks => tracks_turn htracks item

end Loop

/-! ### The liquidation -/

/-- The call that sells a position at the end of the run, once its signal is recorded. -/
def liquidationCall (last : BacktestCandle ι) (engine : BacktestEngine) (entry : String × Position) :
    OrderCall :=
  let signal := run.closeSignal engine entry.1 last.close entry.2.quantity last.openTime
    "End of backtest"
  ⟨.liquidation, signal, signal.price, last.openTime, averageCompletedVolume run.candles entry.1⟩

/-- What the sales of the positions cost, one after the other. -/
def salesCost (last : BacktestCandle ι) : List (String × Position) → BacktestEngine → Decimal
  | [], _ => 0
  | entry :: rest, engine =>
    let call := run.liquidationCall last engine entry
    (engine.signaled call.signal).saleCost run.clock call +
      match (run.liquidatePosition last engine entry).value? with
      | none => 0
      | some after => salesCost last rest after

/-- What the liquidation after the last candle costs. -/
def liquidationCost (engine : BacktestEngine) : Decimal :=
  match run.candles.getLast?, engine.config.endPositionPolicy with
  | some last, .liquidate => run.salesCost last engine.portfolio.positions.entries engine
  | _, _ => 0

/-- The cost of the liquidation is within what the equity may lose down to the deepest drawdown so far. -/
def LiquidatesWithin (state : BacktestState σ) : Prop :=
  run.liquidationCost state.engine ≤ state.engine.portfolio.totalEquity -
    (1 - state.engine.portfolio.maxDrawdown) * state.peakEquity

section Liquidation

variable {run} {last : BacktestCandle ι} {engine after : BacktestEngine}

theorem ensures_liquidatePosition (entry : String × Position) :
    Ensures (fun _ => True) (fun after => engine.SameCurve after ∧
        after.portfolio.totalEquity = engine.portfolio.totalEquity -
          (engine.signaled (run.liquidationCall last engine entry).signal).saleCost run.clock
            (run.liquidationCall last engine entry))
      (run.liquidatePosition last engine entry) := by
  unfold liquidatePosition processSignal
  simp only [bind_assoc]
  refine (ensures_apply _).bind fun recorded hrecorded => ?_
  cases hrecorded
  refine (ensures_apply _).bind fun outcome houtcome => ensures_pure ?_
  have hsale : (engine.signaled (run.liquidationCall last engine entry).signal).createAndExecuteOrder
      run.clock (run.liquidationCall last engine entry) = .ok outcome := houtcome
  have hsignaled : engine.SameCurve
      (engine.signaled (run.liquidationCall last engine entry).signal) := ⟨rfl, rfl, rfl⟩
  exact ⟨hsignaled.trans (BacktestEngine.createAndExecuteOrder_outcome hsale).sameCurve,
    BacktestEngine.totalEquity_of_sale rfl hsale⟩

theorem sales_cost {entries : List (String × Position)}
    (h : (entries.foldlM (run.liquidatePosition last) engine).value? = some after) :
    engine.SameCurve after ∧ after.portfolio.totalEquity =
      engine.portfolio.totalEquity - run.salesCost last entries engine := by
  induction entries generalizing engine with
  | nil =>
    cases h
    exact ⟨.refl _, (sub_zero _).symm⟩
  | cons entry rest ih =>
    rw [List.foldlM_cons, value?_bind, Option.bind_eq_some_iff] at h
    obtain ⟨middle, hfirst, hrest⟩ := h
    obtain ⟨hcurve, hequity⟩ := (ensures_liquidatePosition entry).value hfirst
    obtain ⟨hcurve', hequity'⟩ := ih hrest
    refine ⟨hcurve.trans hcurve', ?_⟩
    rw [hequity', hequity, salesCost, hfirst]
    simp only
    ring

theorem liquidate_cost (h : (run.liquidate engine).value? = some after) :
    engine.SameCurve after ∧ after.portfolio.totalEquity =
      engine.portfolio.totalEquity - run.liquidationCost engine := by
  cases hlast : run.candles.getLast? with
  | none =>
    simp only [liquidate, liquidationCost, hlast] at h ⊢
    cases h
    exact ⟨.refl _, (sub_zero _).symm⟩
  | some last =>
    cases hpolicy : engine.config.endPositionPolicy with
    | liquidate =>
      simp only [liquidate, liquidationCost, hlast, hpolicy] at h ⊢
      exact sales_cost h
    | markToMarket =>
      simp only [liquidate, liquidationCost, hlast, hpolicy] at h ⊢
      cases h
      exact ⟨.refl _, (sub_zero _).symm⟩

end Liquidation

end BacktestRun

/-- The points of the equity path of a run: the initial balance, what each candle records, and what is
left at the end. -/
def BacktestResult.equityPath (result : BacktestResult) (config : BacktestConfig) : List Decimal :=
  config.initialBalance :: result.portfolio.equityHistory.map Prod.snd ++
    [result.portfolio.totalEquity]

/-- The reported drawdown is the greatest of the equity path, and a share unless the equity is negative. -/
structure BacktestResult.TrueDrawdown (result : BacktestResult) (config : BacktestConfig) : Prop where
  greatest : IsMaxDrawdown (result.equityPath config) result.maxDrawdown
  bounds : (∀ equity ∈ result.equityPath config, 0 ≤ equity) →
    0 ≤ result.maxDrawdown ∧ result.maxDrawdown ≤ 1

section Result

variable {σ ι : Type} {run : BacktestRun σ ι} {config : BacktestConfig} {state : BacktestState σ}
  {after : BacktestEngine}

theorem equityPath_calculateResults
    (hconfig : state.engine.config.initialBalance = config.initialBalance)
    (hcurve : state.engine.SameCurve after) :
    after.calculateResults.equityPath config =
      state.engine.recordedEquity ++ [after.portfolio.totalEquity] := by
  rw [← hcurve.recordedEquity, BacktestEngine.recordedEquity, hcurve.config, hconfig]
  rfl

/-- The reported drawdown is the true one exactly when the drawdown at the end is no deeper. -/
theorem trueDrawdown_iff (hbalance : 0 < config.initialBalance)
    (htracks : BacktestRun.Tracks state config.initialBalance) (hcurve : state.engine.SameCurve after)
    (hcost : after.portfolio.totalEquity =
      state.engine.portfolio.totalEquity - run.liquidationCost state.engine) :
    after.calculateResults.TrueDrawdown config ↔ run.LiquidatesWithin state := by
  have hdrawdown : after.calculateResults.maxDrawdown = state.engine.portfolio.maxDrawdown :=
    hcurve.maxDrawdown
  have hpath := equityPath_calculateResults htracks.config hcurve
  have hpeak : 0 < peak state.engine.recordedEquity :=
    hbalance.trans_le (htracks.config ▸ le_peak_cons _ _)
  have hgreatest : IsMaxDrawdown (after.calculateResults.equityPath config)
      after.calculateResults.maxDrawdown ↔ run.LiquidatesWithin state := by
    rw [hpath, hdrawdown, htracks.drawdown.append_singleton_iff,
      drawdown_le_iff hpeak (List.cons_ne_nil _ _) htracks.drawdown.nonneg,
      BacktestRun.LiquidatesWithin, htracks.peak, hcost, le_sub_comm]
  refine ⟨fun h => hgreatest.mp h.greatest, fun h => ⟨hgreatest.mpr h, fun hnonneg => ?_⟩⟩
  have hbounded := hgreatest.mpr h
  exact ⟨hbounded.nonneg, hbounded.le_one hbalance hnonneg⟩

end Result

/-- A purchase of one unit at 100, which is sold at the end at the same close. -/
def boughtAndHeld : BacktestRun Unit Unit :=
  { candles := [flatCandle "BTCUSDT" 0 100, flatCandle "BTCUSDT" hour 100], strategy := buyOnce 1
    initialState := (), clock := fun _ => 0, runId := "" }

end CryptoTrading
