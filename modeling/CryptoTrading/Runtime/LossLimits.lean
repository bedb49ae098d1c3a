import CryptoTrading.Execution.RiskChecks
import CryptoTrading.Kit.Run
import CryptoTrading.Reporting.PaperPnl
import CryptoTrading.Runtime.Dependencies

/-! The loss limits in the composed paper runtime, against the equity that the fills and the last
close imply.  The risk engine's figures stay those of its store throughout a run, so that a purchase
beyond a limit is refused only where another gate, or a figure of the store, refuses it. -/

namespace CryptoTrading

open Kit

/-- The UTC day of a moment, counted from the epoch. -/
def utcDay (moment : Datetime) : ℤ := moment / day

/-- An engine with the pnl that its fills have realized, and the equity at each candle that it
accepted, by open time. -/
structure Watch where
  engine : PaperExecutionEngine
  realized : Decimal := 0
  curve : List (Datetime × Decimal) := []

namespace Watch

/-- The capital with the realized and the unrealized pnl, at the last close. -/
def equity (capital : Decimal) (watch : Watch) : Decimal :=
  capital + watch.realized +
    PaperPnLTracker.calculateUnrealizedPnl watch.engine.positions watch.engine.getPrice

/-- What a fill realizes: a sale sells above or below the average price of the position. -/
def realizes (engine : PaperExecutionEngine) (request : ExecutionRequest) (fill : PaperFillState) :
    Decimal :=
  match request.side with
  | .buy => 0
  | .sell => (fill.price - engine.heldPrice request.symbol) * fill.quantity

/-- The watch after an action of the runtime. -/
def advance (capital : Decimal) (watch : Watch) : Action → Watch
  | .call (.marketEvent event) =>
    match watch.engine.onMarketEvent event with
    | .ok (true, engine) =>
      let accepted := { watch with engine }
      { accepted with curve := watch.curve ++ [(event.candle.openTime, accepted.equity capital)] }
    | _ => watch
  | .call (.execute args) =>
    match watch.engine.execute args with
    | .error _ => watch
    | .ok done =>
      { watch with
        engine := done.engine
        realized := watch.realized + done.scheduled.elim 0 fun execution =>
          realizes watch.engine args.request execution.fill }
  | _ => watch

/-- The highest equity so far: that of a candle, or the capital. -/
def peak (capital : Decimal) (watch : Watch) : Decimal :=
  (watch.curve.map Prod.snd).foldl max capital

/-- The equity at the last candle before the UTC day of the current one, or the capital. -/
def dayStart (capital : Decimal) (watch : Watch) : Decimal :=
  ((watch.curve.filter fun point => watch.engine.lastProcessedTimestamp.any fun openTime =>
    decide (utcDay point.1 < utcDay openTime)).getLast?.map Prod.snd).getD capital

/-- The equity is below its peak by more than the drawdown limit, or the day has lost more than the
daily limit. -/
def BeyondLimits (config : RiskConfig) (capital : Decimal) (watch : Watch) : Prop :=
  config.maxDrawdown * watch.peak capital < watch.peak capital - watch.equity capital ∨
    config.dailyLossLimit * capital < watch.dayStart capital - watch.equity capital

/-- An action of a runtime, as it moves the watch. -/
def Step (capital : Decimal) (before : Watch) (action : Action) (after : Watch) : Prop :=
  after = before.advance capital action

variable {capital : Decimal} {watch before : Watch}

theorem run_foldl (capital : Decimal) (watch : Watch) (actions : List Action) :
    Run (Step capital) watch actions (actions.foldl (advance capital) watch) := by
  induction actions generalizing watch with
  | nil => exact .nil watch
  | cons action rest ih => exact .cons rfl (ih _)

theorem advance_engine (capital : Decimal) (watch : Watch) (action : Action) :
    (watch.advance capital action).engine = watch.engine.attemptAll (engineCalls [action]) := by
  cases action with
  | call call =>
    cases call with
    | marketEvent event =>
      cases hevent : watch.engine.onMarketEvent event with
      | error error => simp [advance, hevent, PaperExecutionEngine.attempt_marketEvent_error hevent]
      | ok outcome =>
        obtain ⟨accepted, engine⟩ := outcome
        simp only [engineCalls_call, engineCalls_nil, PaperExecutionEngine.attemptAll_cons,
          PaperExecutionEngine.attempt_marketEvent_ok hevent, PaperExecutionEngine.attemptAll_nil]
        rcases PaperExecutionEngine.onMarketEvent_cases hevent with ⟨rfl, rfl, -⟩ | ⟨rfl, -, -⟩
        · simp [advance, hevent]
        · simp [advance, hevent]
    | execute args =>
      cases hdone : watch.engine.execute args with
      | error error => simp [advance, hdone, PaperExecutionEngine.attempt_execute_error hdone]
      | ok done => simp [advance, hdone, PaperExecutionEngine.attempt_execute_ok hdone]
  | _ => rfl

theorem run_engine {passed : List Action} (h : Run (Step capital) watch passed before) :
    before.engine = watch.engine.attemptAll (engineCalls passed) := by
  induction h with
  | nil => rfl
  | @cons start middle last action rest hstep _ ih =>
    rw [ih, hstep, advance_engine, ← PaperExecutionEngine.attemptAll_append, ← engineCalls_append]
    rfl

theorem unrealized_eq (positions : Dict String PaperPositionState) (close : Decimal) :
    PaperPnLTracker.calculateUnrealizedPnl positions (fun _ => some close) =
      (positions.entries.map fun entry =>
        (close - entry.2.averagePrice) * entry.2.quantity).sum := by
  rw [PaperPnLTracker.calculateUnrealizedPnl]
  congr 1
  refine List.map_congr_left fun entry _ => ?_
  by_cases hquantity : entry.2.quantity = 0 <;> simp [hquantity]

/-- A fill realizes what the unrealized pnl of its position loses, at the price of the fill. -/
theorem unrealized_executionAt {engine : PaperExecutionEngine} {args : ExecuteArguments}
    {price : Decimal} (hheld : 0 ≤ engine.heldQuantity args.request.symbol)
    (hfills : engine.Fills args price) :
    (price - (engine.executionAt args price).position.averagePrice) *
        (engine.executionAt args price).position.quantity =
      (price - engine.heldPrice args.request.symbol) * engine.heldQuantity args.request.symbol -
        realizes engine args.request (engine.executionAt args price).fill := by
  simp only [PaperExecutionEngine.executionAt, PaperExecutionEngine.executionOf,
    PaperExecutionEngine.positionAfter, realizes]
  cases hside : args.request.side with
  | buy =>
    simp only
    have hafter : engine.heldQuantity args.request.symbol + args.request.quantity ≠ 0 :=
      (add_pos_of_nonneg_of_pos hheld hfills.quantity_pos).ne'
    split
    · rename_i hempty
      simp [hempty]
    · rw [sub_mul, div_mul_cancel₀ _ hafter]
      ring
  | sell =>
    simp only
    split
    · ring
    · rename_i hall
      have hquantity : engine.heldQuantity args.request.symbol = args.request.quantity :=
        le_antisymm (sub_nonpos.mp (not_lt.mp hall)) (hfills.held hside)
      rw [hquantity]
      ring

/-- A fill at the last close leaves the equity as it is. -/
theorem equity_execute (capital : Decimal) {watch : Watch} {args : ExecuteArguments}
    (hheld : watch.engine.NonnegativePositions) (hclose : args.marketPrice = none) :
    (watch.advance capital (.call (.execute args))).equity capital = watch.equity capital := by
  cases hdone : watch.engine.execute args with
  | error error => simp [advance, hdone]
  | ok done =>
    rcases PaperExecutionEngine.execute_cases hdone with ⟨-, -, -, hsame, hnone⟩ | ⟨price, hfills, rfl⟩
    · simp [advance, hdone, equity, hsame, hnone]
    · obtain ⟨candle, hlast, rfl⟩ := hfills.lastClose hclose
      have hmarks : watch.engine.getPrice = fun _ => some candle.close := by
        funext symbol
        rw [PaperExecutionEngine.getPrice, hlast, Option.map_some]
      have hmarks' : (watch.engine.record args
          (watch.engine.executionAt args candle.close)).getPrice = fun _ => some candle.close :=
        hmarks
      have hold : ((watch.engine.positions.get? args.request.symbol).elim 0 fun old =>
          (candle.close - old.averagePrice) * old.quantity) =
          (candle.close - watch.engine.heldPrice args.request.symbol) *
            watch.engine.heldQuantity args.request.symbol := by
        cases hp : watch.engine.positions.get? args.request.symbol <;>
          simp [PaperExecutionEngine.heldQuantity, PaperExecutionEngine.heldPrice, hp]
      have hsum := Dict.sum_set (fun entry : String × PaperPositionState =>
        (candle.close - entry.2.averagePrice) * entry.2.quantity) watch.engine.positions
        args.request.symbol (watch.engine.executionAt args candle.close).position
      simp only [hold, unrealized_executionAt (hheld.heldQuantity _) hfills] at hsum
      simp only [advance, hdone, equity, PaperExecutionEngine.filledAt_engine,
        PaperExecutionEngine.filledAt_scheduled, hmarks, hmarks', unrealized_eq]
      simp only [PaperExecutionEngine.record, hsum, Option.elim_some]
      ring

end Watch

/-! ### When a purchase is refused -/

namespace PaperDependencies

variable {σ : Type} (dependencies : PaperDependencies σ)

/-- What a purchase is refused for: its values, an operational gate, a loss gate on the figures of the
store, or its size. -/
def Refuses (request : ExecutionRequest) (execution : PaperExecutionEngine) : Prop :=
  RiskEngineAdapter.Invalid dependencies.initialCapital request execution ∨
    (dependencies.riskEngine execution.lastSequence).Suspended ∨
    dependencies.startingRisk.AtLimit dependencies.initialCapital ∨
    RiskEngineAdapter.Oversized dependencies.riskConfig dependencies.initialCapital request execution

/-- Whatever is checked in the course of a run, the loss gates are those of the figures that the risk
engine is constructed with. -/
theorem riskManager_buy_iff {request : ExecutionRequest} (hbuy : request.side = .buy)
    (execution : PaperExecutionEngine) :
    dependencies.riskManager request execution = some false ↔
      dependencies.Refuses request execution := by
  obtain ⟨database, api, reconciliation, hframe⟩ :=
    dependencies.riskEngine_frame execution.lastSequence
  have hdata : (dependencies.riskEngine execution.lastSequence).lastDataTime = none := by
    rw [hframe]
    rfl
  rw [riskManager, Option.some_inj, RiskEngineAdapter.validateRequest_buy_iff hbuy hdata, Refuses,
    hframe]
  rfl

/-- A purchase that is not refused is filled, unless it retries an order. -/
theorem fills_of_approved {args : ExecuteArguments} (hbuy : args.request.side = .buy)
    {execution : PaperExecutionEngine}
    (hvalid : ¬RiskEngineAdapter.Invalid dependencies.initialCapital args.request execution)
    (hclose : args.marketPrice = none) (hnew : execution.duplicateOf args.clientOrderId = none) :
    execution.Fills args (RiskEngineAdapter.price execution) := by
  simp only [RiskEngineAdapter.Invalid, not_or, not_le] at hvalid
  obtain ⟨hquantity, hprice, -⟩ := hvalid
  refine ⟨hnew, ?_, hquantity, hprice, fun hsell => by rw [hbuy] at hsell; cases hsell⟩
  cases hlast : execution.lastCandle with
  | none => simp [RiskEngineAdapter.price, hlast] at hprice
  | some candle =>
    simp [PaperExecutionEngine.marketPriceOf, hclose, RiskEngineAdapter.price, hlast]

/-- What follows in a trace begins with a call that retries an order of the engine. -/
def Retries (execution : PaperExecutionEngine) (later : List Action) : Prop :=
  ∃ args rest, later = .call (.execute args) :: rest ∧
    execution.duplicateOf args.clientOrderId ≠ none

/-- In every run of the composed runtime no purchase is filled beyond a loss limit exactly when each
purchase that is checked there is refused for something else than the equity, or is a retry. -/
theorem limits_bind_iff (start : PaperTradingRuntime σ) (realized : Decimal)
    (curve : List (Datetime × Decimal)) (feed : List MarketEvent) :
    (∀ before args after, Run.Makes (Watch.Step dependencies.initialCapital)
        { engine := start.engine, realized, curve } (dependencies.settings.processFeed start feed).actions
        before (.call (.execute args)) after →
      args.request.side = .buy → (∃ price, before.engine.Fills args price) →
      ¬before.BeyondLimits dependencies.riskConfig dependencies.initialCapital) ↔
    ∀ passed request approved later before,
      (dependencies.settings.processFeed start feed).actions =
        passed ++ .riskCheck request approved :: later →
      Run (Watch.Step dependencies.initialCapital) { engine := start.engine, realized, curve } passed
        before →
      request.side = .buy →
      before.BeyondLimits dependencies.riskConfig dependencies.initialCapital →
      dependencies.Refuses request before.engine ∨ Retries before.engine later := by
  have hchecked : Checked dependencies.riskManager start.engine
      (dependencies.settings.processFeed start feed).actions :=
    RuntimeSettings.processFeed_checked rfl start feed
  constructor
  · intro hbinds passed request approved later before hsplit hrun hbuy hbeyond
    by_contra hneither
    obtain ⟨hpasses, hnew⟩ := not_or.mp hneither
    have hverdict := hchecked.verdict passed hsplit
    rw [← Watch.run_engine hrun] at hverdict
    cases approved with
    | false => exact hpasses ((dependencies.riskManager_buy_iff hbuy _).mp hverdict)
    | true =>
      obtain ⟨args, rest, rfl, rfl, hclose⟩ := hchecked.execution passed hsplit
      have hfills := dependencies.fills_of_approved hbuy (fun h => hpasses (.inl h)) hclose
        (not_not.mp fun hknown => hnew ⟨args, rest, rfl, hknown⟩)
      refine hbinds before args _ ⟨passed ++ [.riskCheck args.request true], rest, ?_, ?_, rfl⟩ hbuy
        ⟨_, hfills⟩ hbeyond
      · simpa using hsplit
      · exact hrun.snoc rfl
  · rintro hrefused before args after ⟨passed, later, hsplit, hrun, -⟩ hbuy ⟨price, hfills⟩ hbeyond
    obtain ⟨earlier, rfl⟩ := hchecked.approval passed hsplit
    obtain ⟨middle, hearlier, hcheck⟩ := hrun.split
    obtain _ | ⟨hsame, hend⟩ := hcheck
    cases hend
    obtain rfl : middle = before := hsame.symm
    have hsplit' : (dependencies.settings.processFeed start feed).actions =
        earlier ++ .riskCheck args.request true :: .call (.execute args) :: later := by
      simpa using hsplit
    have hverdict := hchecked.verdict earlier hsplit'
    rw [← Watch.run_engine hearlier] at hverdict
    rcases hrefused earlier args.request true _ middle hsplit' hearlier hbuy hbeyond with
      hrefuses | ⟨args', rest, hcall, hknown⟩
    · rw [(dependencies.riskManager_buy_iff hbuy _).mpr hrefuses] at hverdict
      cases hverdict
    · cases hcall
      exact hknown hfills.new

/-! ### A rally and a crash -/

/-- Buys 0.9 at 100, and 0.1 at 50. -/
def dipBuyer : Strategy Unit where
  onCandle _ candle _ := some
    (if candle.close = 100 then [⟨candle.symbol, .buy, 9 / 10⟩]
     else if candle.close = 50 then [⟨candle.symbol, .buy, 1 / 10⟩] else [], ())

/-- A capital of 1000, with the limits that `RiskConfig` has by default. -/
def dipBuying : PaperDependencies Unit where
  runtime := { strategy := some dipBuyer, runId := "run", clock := fun event _ => event.candle.closeTime }
  initialCapital := 1000

/-- An hourly candle of one day. -/
def hourly (sequence : ℤ) (close : Decimal) : MarketEvent where
  candle := ⟨"BTCUSDT", sequence * hour, (sequence + 1) * hour, close, close, close, close, 1⟩
  sequence

/-- The close rises fivefold and falls to a half of what it was. -/
def rallyAndCrash : List MarketEvent := [hourly 1 100, hourly 2 500, hourly 3 50]

/-- What `dipBuying` does on the feed. -/
def dipBuyingTrace : List Action :=
  (dipBuying.settings.processFeed ⟨dipBuying.execution, (), 0⟩ rallyAndCrash).actions

/-- The purchase at 50. -/
def lastPurchase : ExecuteArguments :=
  dipBuying.settings.executeArguments (hourly 3 50) 0 ⟨"BTCUSDT", .buy, 1 / 10⟩

/-- The watch before the purchase at 50. -/
def atTheLow : Watch :=
  (dipBuyingTrace.take 11).foldl (Watch.advance 1000) { engine := dipBuying.execution }

theorem dipBuyingTrace_eq : dipBuyingTrace =
    dipBuyingTrace.take 11 ++ .call (.execute lastPurchase) :: [.checkpoint] := by
  decide +kernel

/-- At the low the equity is 955 after a peak of 1360 and a day that began at 1000, and the purchase is
filled. -/
theorem limits_do_not_bind : ¬∀ (dependencies : PaperDependencies Unit) (feed : List MarketEvent),
    (∀ event ∈ feed, event.candle.symbol = "BTCUSDT") → ∀ before args after,
      Run.Makes (Watch.Step dependencies.initialCapital) { engine := dependencies.execution }
        (dependencies.settings.processFeed ⟨dependencies.execution, (), 0⟩ feed).actions
        before (.call (.execute args)) after →
      args.request.side = .buy → (∃ price, before.engine.Fills args price) →
      ¬before.BeyondLimits dependencies.riskConfig dependencies.initialCapital := by
  intro h
  have hmakes : Run.Makes (Watch.Step 1000) { engine := dipBuying.execution } dipBuyingTrace
      atTheLow (.call (.execute lastPurchase))
      (atTheLow.advance 1000 (.call (.execute lastPurchase))) :=
    ⟨_, _, dipBuyingTrace_eq, Watch.run_foldl 1000 _ _, rfl⟩
  have hfills : atTheLow.engine.Fills lastPurchase 50 :=
    ⟨by decide +kernel, by decide +kernel, by decide +kernel, by decide +kernel, nofun⟩
  refine h dipBuying rallyAndCrash (by decide +kernel) _ _ _ hmakes rfl ⟨50, hfills⟩ (.inl ?_)
  decide +kernel

end PaperDependencies

end CryptoTrading
