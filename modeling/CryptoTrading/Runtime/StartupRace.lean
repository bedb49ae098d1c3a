import CryptoTrading.Kit.Run
import CryptoTrading.Runtime.Dependencies

/-! The start of the application against the task of the runtime that it creates.  `start` creates the
task and then awaits the reconciliation, while the risk engine begins with `reconciliation_ok`: what
the runtime executes until the outcome is handed over has not been gated by it. -/

namespace CryptoTrading

open Kit

/-- Where `start` is, once it has created the task. -/
inductive StartPhase
  | created
  /-- It awaits `reconcile`. -/
  | reconciling
  /-- `update_reconciliation(successful)` has returned. -/
  | handedOver (successful : Bool)
  deriving DecidableEq

/-- Where the task of the runtime is suspended in `_process_candle`.  `index` numbers the request among
those of the event, and `rest` are the requests after it. -/
inductive RuntimeTask
  | awaitsEvent
  | awaitsStrategy (event : MarketEvent)
  | awaitsCheck (event : MarketEvent) (index : ℕ) (request : ExecutionRequest)
      (rest : List ExecutionRequest)
  /-- `validate_request` has returned `True`. -/
  | approved (event : MarketEvent) (index : ℕ) (request : ExecutionRequest)
      (rest : List ExecutionRequest)
  | failed (error : RuntimeError)
  deriving DecidableEq

/-- The loop over the requests, in front of the next. -/
def RuntimeTask.next (event : MarketEvent) (index : ℕ) : List ExecutionRequest → RuntimeTask
  | [] => .awaitsEvent
  | request :: rest => .awaitsCheck event index request rest

/-- What an application is composed of: `runtime` has its strategy, clock and identities. -/
structure StartupSettings (σ : Type) where
  runtime : RuntimeSettings σ
  capital : Decimal
  reconciles : Bool := true

/-- The two tasks, and what they share. -/
structure Startup (σ : Type) where
  phase : StartPhase := .created
  task : RuntimeTask := .awaitsEvent
  riskEngine : RiskEngine
  tradingEnabled : Bool := true
  engine : PaperExecutionEngine
  strategyState : σ

inductive StartupEvent
  /-- `start` calls `update_reconciliation(successful)`. -/
  | handedOver (successful : Bool)
  /-- An order is executed for a request. -/
  | executed (request : ExecutionRequest)
  deriving DecidableEq

/-- What one of the tasks does until it is suspended again.  `systemHealth` is the update of the health
coordinator, and `disable` the end of the session. -/
inductive StartupStep
  | reconcile
  | reconciled (hasFatal : Bool)
  | reconciliationRaises
  | systemHealth (databaseAvailable : Bool)
  | disable
  | event (event : MarketEvent) (sourceReady : Bool)
  | strategyReturns
  | check (now : Datetime)
  | checkRaises
  | execute
  deriving DecidableEq

namespace Startup

variable {σ : Type}

/-- `__init__` of the risk engine, and the state of the runtime when its task is created. -/
def init (config : RiskConfig) (stored : Option RiskEngine.StoredState) (tradingEnabled : Bool)
    (engine : PaperExecutionEngine) (strategyState : σ) : Startup σ :=
  { riskEngine := .new config stored, tradingEnabled, engine, strategyState }

/-- `start` hands the outcome of the reconciliation to the risk engine. -/
def handOver (startup : Startup σ) (successful : Bool) : Startup σ × List StartupEvent :=
  ({ startup with
    phase := .handedOver successful
    riskEngine := startup.riskEngine.apply (.updateReconciliation successful) },
    [.handedOver successful])

/-- `_process_candle`, up to the call of the strategy. -/
def receive (settings : StartupSettings σ) (startup : Startup σ) (event : MarketEvent)
    (sourceReady : Bool) : Startup σ :=
  if event.sequence ≤ startup.engine.lastSequence then startup
  else
    match startup.engine.onMarketEvent event with
    | .error error => { startup with task := .failed (.candle error) }
    | .ok (false, _) => startup
    | .ok (true, engine) =>
      { startup with
        engine
        task := if settings.runtime.strategy.isSome && startup.tradingEnabled && sourceReady then
          .awaitsStrategy event else .awaitsEvent }

/-- The call of the strategy returns, or raises. -/
def answer (settings : StartupSettings σ) (startup : Startup σ) (event : MarketEvent) : Startup σ :=
  match settings.runtime.strategy.bind fun strategy =>
    strategy.onCandle startup.strategyState event.candle startup.engine with
  | none => { startup with task := .failed .strategy }
  | some (requests, strategyState) => { startup with strategyState, task := .next event 0 requests }

/-- `validate_request` of the adapter, on the risk engine as it is. -/
def validates (settings : StartupSettings σ) (startup : Startup σ) (request : ExecutionRequest)
    (now : Datetime) : Bool :=
  RiskEngineAdapter.validateRequest startup.riskEngine settings.capital request startup.engine now

/-- The execution of a request, and the next. -/
def execute (settings : StartupSettings σ) (startup : Startup σ) (event : MarketEvent) (index : ℕ)
    (request : ExecutionRequest) (rest : List ExecutionRequest) : Startup σ × List StartupEvent :=
  match startup.engine.execute (settings.runtime.executeArguments event index request) with
  | .error error => ({ startup with task := .failed (.execution error) }, [])
  | .ok done =>
    ({ startup with engine := done.engine, task := .next event (index + 1) rest },
      if done.scheduled.isSome then [.executed request] else [])

/-- What happens at a step, if the step can happen. -/
def step? (settings : StartupSettings σ) (startup : Startup σ) :
    StartupStep → Option (Startup σ × List StartupEvent)
  | .reconcile =>
    if startup.phase = .created && settings.reconciles then
      some ({ startup with phase := .reconciling }, [])
    else none
  | .reconciled hasFatal =>
    if startup.phase = .reconciling then some (startup.handOver !hasFatal) else none
  | .reconciliationRaises =>
    if startup.phase = .reconciling then some (startup.handOver false) else none
  | .systemHealth databaseAvailable =>
    some ({ startup with
      riskEngine := startup.riskEngine.apply (.updateSystemHealth databaseAvailable true) }, [])
  | .disable => some ({ startup with tradingEnabled := false }, [])
  | .event event sourceReady =>
    match startup.task with
    | .awaitsEvent => some (startup.receive settings event sourceReady, [])
    | _ => none
  | .strategyReturns =>
    match startup.task with
    | .awaitsStrategy event => some (startup.answer settings event, [])
    | _ => none
  | .check now =>
    match startup.task with
    | .awaitsCheck event index request rest =>
      some ({ startup with
        task := if startup.validates settings request now then .approved event index request rest
          else .next event (index + 1) rest }, [])
    | _ => none
  | .checkRaises =>
    match startup.task with
    | .awaitsCheck .. => some ({ startup with task := .failed .risk }, [])
    | _ => none
  | .execute =>
    match startup.task with
    | .approved event index request rest => some (startup.execute settings event index request rest)
    | _ => none

end Startup

/-- The two tasks, and what has been seen of them. -/
structure StartupHistory (σ : Type) where
  startup : Startup σ
  events : List StartupEvent := []

/-- A step of one of the tasks, with what is seen of it. -/
def StartupHistory.Step {σ : Type} (settings : StartupSettings σ) (before : StartupHistory σ)
    (step : StartupStep) (after : StartupHistory σ) : Prop :=
  ∃ events, before.startup.step? settings step = some (after.startup, events) ∧
    after.events = before.events ++ events

/-- Every order that buys comes after a reconciliation that was handed over as successful. -/
def Reconciled (events : List StartupEvent) : Prop :=
  ∀ before request later, events = before ++ .executed request :: later → request.side = .buy →
    .handedOver true ∈ before

/-- A request to buy passes `validate_request` before the outcome is handed over. -/
def Premature {σ : Type} (settings : StartupSettings σ) (before : StartupHistory σ)
    (step : StartupStep) : Prop :=
  ∃ now event index request rest, step = .check now ∧
    before.startup.task = .awaitsCheck event index request rest ∧ request.side = .buy ∧
    (∀ successful, before.startup.phase ≠ .handedOver successful) ∧
    before.startup.validates settings request now = true

theorem Reconciled.append {events new : List StartupEvent} (h : Reconciled events)
    (hnew : ∀ request, .executed request ∈ new → request.side = .buy → .handedOver true ∈ events) :
    Reconciled (events ++ new) := by
  intro before request later hsplit hbuy
  rcases List.append_eq_append_iff.mp hsplit with ⟨more, hbefore, hmore⟩ | ⟨more, hevents, hmore⟩
  · have hexecuted : .executed request ∈ new := by simp [hmore]
    rw [hbefore]
    exact List.mem_append_left _ (hnew request hexecuted hbuy)
  · cases more with
    | nil =>
      have hexecuted : .executed request ∈ new := by
        rw [List.nil_append] at hmore
        simp [← hmore]
      rw [List.append_nil] at hevents
      exact hevents ▸ hnew request hexecuted hbuy
    | cons head more =>
      cases hmore
      exact h before request more hevents hbuy

/-- The gate of the reconciliation refuses every request to buy. -/
theorem RiskEngineAdapter.validateRequest_buy_of_unreconciled {engine : RiskEngine}
    {totalCapital : Decimal} {request : ExecutionRequest} {execution : PaperExecutionEngine}
    {now : Datetime} (hbuy : request.side = .buy) (hgate : engine.reconciliationOk = false) :
    validateRequest engine totalCapital request execution now = false := by
  by_contra happroved
  rw [Bool.not_eq_false, validateRequest, RiskEngine.checkTrade_approved_iff,
    RiskEngine.rejections_eq_nil_iff, valid_buy_iff hbuy] at happroved
  obtain ⟨hvalid, hpasses⟩ := happroved
  simp only [Invalid, not_or, not_le] at hvalid
  have hworth : 0 < request.quantity * price execution := mul_pos hvalid.1 hvalid.2.1
  rcases hpasses with hreducing | hgates
  · rw [TradeArguments.reducing, buy_exposureIncrease hbuy hworth, decide_eq_true_eq] at hreducing
    exact hworth.ne' hreducing
  · have hclosed := hgates (!engine.reconciliationOk,
      ⟨.reconciliationFailed, .reconciliationFailed, .critical⟩) (by
        simp [RiskEngine.gates, tradeArguments])
    rw [hgate] at hclosed
    cases hclosed

/-- Once the outcome is handed over, the gate follows it, and what is approved follows the gate. -/
structure Guarded {σ : Type} (history : StartupHistory σ) : Prop where
  successful : history.startup.phase = .handedOver true → .handedOver true ∈ history.events
  failed : history.startup.phase = .handedOver false →
    history.startup.riskEngine.reconciliationOk = false
  approved : ∀ event index request rest, history.startup.task = .approved event index request rest →
    request.side = .buy → .handedOver true ∈ history.events
  reconciled : Reconciled history.events

namespace Guarded

variable {σ : Type} {settings : StartupSettings σ} {startup after : Startup σ}
  {events : List StartupEvent} {before next : StartupHistory σ} {label : StartupStep}

theorem next_ne_approved {event event' : MarketEvent} {index index' : ℕ} {request : ExecutionRequest}
    {requests rest : List ExecutionRequest} :
    RuntimeTask.next event index requests ≠ .approved event' index' request rest := by
  cases requests <;> nofun

theorem init (config : RiskConfig) (stored : Option RiskEngine.StoredState) (tradingEnabled : Bool)
    (engine : PaperExecutionEngine) (strategyState : σ) :
    Guarded ⟨Startup.init config stored tradingEnabled engine strategyState, []⟩ := by
  refine ⟨fun hphase => ?_, fun hphase => ?_, fun _ _ _ _ htask => ?_, ?_⟩
  · cases hphase
  · cases hphase
  · cases htask
  · intro before request later hsplit
    exact absurd hsplit.symm (by simp)

theorem of_task (h : Guarded ⟨startup, events⟩) {new : List StartupEvent}
    (htask : after.task = startup.task)
    (hsuccessful : after.phase = .handedOver true → .handedOver true ∈ events ++ new)
    (hfailed : after.phase = .handedOver false → after.riskEngine.reconciliationOk = false)
    (hnew : ∀ request, .executed request ∉ new) : Guarded ⟨after, events ++ new⟩ := by
  refine ⟨hsuccessful, hfailed, fun event index request rest hafter hbuy => ?_, ?_⟩
  · have happroved := h.approved event index request rest (htask.symm.trans hafter) hbuy
    exact List.mem_append_left _ happroved
  · exact h.reconciled.append fun request hexecuted => absurd hexecuted (hnew request)

/-- A step of the runtime that leaves `start` and the risk engine as they are. -/
theorem of_start (h : Guarded ⟨startup, events⟩) {new : List StartupEvent}
    (hphase : after.phase = startup.phase) (hrisk : after.riskEngine = startup.riskEngine)
    (happroved : ∀ event index request rest, after.task = .approved event index request rest →
      request.side = .buy → .handedOver true ∈ events)
    (hnew : ∀ request, .executed request ∈ new → request.side = .buy → .handedOver true ∈ events) :
    Guarded ⟨after, events ++ new⟩ := by
  refine ⟨fun hafter => ?_, fun hafter => ?_, fun event index request rest htask hbuy => ?_, ?_⟩
  · exact List.mem_append_left _ (h.successful (hphase.symm.trans hafter))
  · show after.riskEngine.reconciliationOk = false
    rw [hrisk]
    exact h.failed (hphase.symm.trans hafter)
  · exact List.mem_append_left _ (happroved event index request rest htask hbuy)
  · exact h.reconciled.append hnew

theorem handOver (h : Guarded ⟨startup, events⟩) (successful : Bool) :
    Guarded ⟨(startup.handOver successful).1, events ++ (startup.handOver successful).2⟩ := by
  refine h.of_task rfl (fun hafter => ?_) (fun hafter => ?_) fun request hexecuted => ?_
  · cases hafter
    exact List.mem_append_right _ (List.mem_singleton_self _)
  · cases hafter
    rfl
  · cases List.mem_singleton.mp hexecuted

/-- A request to buy is approved after a success alone, unless it is approved prematurely. -/
theorem check (h : Guarded ⟨startup, events⟩) {event : MarketEvent} {index : ℕ}
    {request : ExecutionRequest} {rest : List ExecutionRequest} {now : Datetime}
    (htask : startup.task = .awaitsCheck event index request rest)
    (hfine : ¬Premature settings ⟨startup, events⟩ (.check now)) (hbuy : request.side = .buy)
    (hvalidates : startup.validates settings request now = true) : .handedOver true ∈ events := by
  by_cases hhanded : ∃ successful, startup.phase = .handedOver successful
  · obtain ⟨successful, hphase⟩ := hhanded
    cases successful with
    | true => exact h.successful hphase
    | false =>
      have hrefused : startup.validates settings request now = false :=
        RiskEngineAdapter.validateRequest_buy_of_unreconciled hbuy (h.failed hphase)
      exact absurd (hvalidates.symm.trans hrefused) nofun
  · exact absurd ⟨now, event, index, request, rest, rfl, htask, hbuy,
      not_exists.mp hhanded, hvalidates⟩ hfine

theorem receive (h : Guarded ⟨startup, events⟩) (event : MarketEvent) (sourceReady : Bool)
    (htask : startup.task = .awaitsEvent) :
    Guarded ⟨startup.receive settings event sourceReady, events ++ []⟩ := by
  have hidle : ∀ event' index request rest, startup.task = .approved event' index request rest →
      request.side = .buy → .handedOver true ∈ events :=
    fun _ _ _ _ happroved => by cases htask.symm.trans happroved
  unfold Startup.receive
  split
  · exact h.of_start rfl rfl hidle nofun
  · split
    · exact h.of_start rfl rfl (fun _ _ _ _ happroved => by cases happroved) nofun
    · exact h.of_start rfl rfl hidle nofun
    · refine h.of_start rfl rfl (fun _ _ _ _ happroved => ?_) nofun
      dsimp only at happroved
      split at happroved <;> cases happroved

theorem answer (h : Guarded ⟨startup, events⟩) (event : MarketEvent) :
    Guarded ⟨startup.answer settings event, events ++ []⟩ := by
  unfold Startup.answer
  split
  · exact h.of_start rfl rfl (fun _ _ _ _ happroved => by cases happroved) nofun
  · exact h.of_start rfl rfl (fun _ _ _ _ happroved => absurd happroved next_ne_approved) nofun

theorem execute (h : Guarded ⟨startup, events⟩) {event : MarketEvent} {index : ℕ}
    {request : ExecutionRequest} {rest : List ExecutionRequest}
    (htask : startup.task = .approved event index request rest) :
    Guarded ⟨(startup.execute settings event index request rest).1,
      events ++ (startup.execute settings event index request rest).2⟩ := by
  unfold Startup.execute
  split
  · exact h.of_start rfl rfl (fun _ _ _ _ happroved => by cases happroved) nofun
  · refine h.of_start rfl rfl (fun _ _ _ _ happroved => absurd happroved next_ne_approved) ?_
    intro other hexecuted hbuy
    dsimp only at hexecuted
    split at hexecuted
    · cases List.mem_singleton.mp hexecuted
      exact h.approved event index request rest htask hbuy
    · cases hexecuted

theorem step (h : Guarded before) (hstep : before.Step settings label next)
    (hfine : ¬Premature settings before label) : Guarded next := by
  obtain ⟨startup, events⟩ := before
  obtain ⟨after, all⟩ := next
  obtain ⟨new, hstep, hall⟩ := hstep
  dsimp only at hstep hall
  subst hall
  have hphase := h.failed
  unfold Startup.step? at hstep
  split at hstep
  case h_1 =>
    split at hstep <;> cases hstep
    exact h.of_task rfl nofun nofun nofun
  case h_2 hasFatal =>
    split at hstep <;> cases hstep
    exact h.handOver _
  case h_3 =>
    split at hstep <;> cases hstep
    exact h.handOver _
  case h_4 databaseAvailable =>
    cases hstep
    exact h.of_task rfl (fun hafter => List.mem_append_left _ (h.successful hafter)) hphase nofun
  case h_5 =>
    cases hstep
    exact h.of_task rfl (fun hafter => List.mem_append_left _ (h.successful hafter)) hphase nofun
  case h_6 event sourceReady =>
    split at hstep <;> cases hstep
    rename_i htask
    exact h.receive event sourceReady htask
  case h_7 =>
    split at hstep <;> cases hstep
    exact h.answer _
  case h_8 now =>
    split at hstep <;> cases hstep
    rename_i event index request rest htask
    refine h.of_start rfl rfl (fun _ _ _ _ happroved hbuy => ?_) nofun
    dsimp only at happroved
    split at happroved
    · rename_i hvalidates
      cases happroved
      exact h.check htask hfine hbuy hvalidates
    · exact absurd happroved next_ne_approved
  case h_9 =>
    split at hstep <;> cases hstep
    exact h.of_start rfl rfl (fun _ _ _ _ happroved => by cases happroved) nofun
  case h_10 =>
    split at hstep
    · rename_i event index request rest htask
      have hexecuted : Guarded ⟨(startup.execute settings event index request rest).1,
          events ++ (startup.execute settings event index request rest).2⟩ := h.execute htask
      rw [Option.some.inj hstep] at hexecuted
      exact hexecuted
    · cases hstep

end Guarded

namespace Startup

variable {σ : Type} {settings : StartupSettings σ}

/-- In a run of the two tasks in which no request to buy passes the check before the outcome of the
reconciliation is handed over, no order that buys is executed before a success is. -/
theorem reconciled_first {config : RiskConfig} {stored : Option RiskEngine.StoredState}
    {tradingEnabled : Bool} {engine : PaperExecutionEngine} {strategyState : σ}
    {steps : List StartupStep} {after : StartupHistory σ}
    (hrun : Run (StartupHistory.Step settings)
      ⟨init config stored tradingEnabled engine strategyState, []⟩ steps after)
    (hfine : ∀ before label next, Run.Makes (StartupHistory.Step settings)
      ⟨init config stored tradingEnabled engine strategyState, []⟩ steps before label next →
        ¬Premature settings before label) :
    Reconciled after.events := by
  have hguarded : Guarded after := by
    refine hrun.invariant_makes (.init ..) fun before label next hmakes h => ?_
    have hfine := hfine before label next hmakes
    obtain ⟨-, -, -, -, hstep⟩ := hmakes
    exact h.step hstep hfine
  exact hguarded.reconciled

/-- The history after the steps, where all of them can happen. -/
def after? (settings : StartupSettings σ) (history : StartupHistory σ) :
    List StartupStep → Option (StartupHistory σ)
  | [] => some history
  | step :: steps =>
    match history.startup.step? settings step with
    | none => none
    | some (startup, events) => after? settings ⟨startup, history.events ++ events⟩ steps

theorem run_of_after? {history after : StartupHistory σ} {steps : List StartupStep}
    (h : after? settings history steps = some after) :
    Run (StartupHistory.Step settings) history steps after := by
  induction steps generalizing history with
  | nil =>
    cases h
    exact .nil _
  | cons step steps ih =>
    unfold after? at h
    split at h
    · cases h
    · rename_i startup events hstep
      exact .cons ⟨events, hstep, rfl⟩ (ih h)

theorem after?_of_run {history after : StartupHistory σ} {steps : List StartupStep}
    (h : Run (StartupHistory.Step settings) history steps after) :
    after? settings history steps = some after := by
  induction h with
  | nil => rfl
  | cons hfirst _ ih =>
    obtain ⟨events, hstep, hevents⟩ := hfirst
    unfold after?
    rw [hstep]
    dsimp only
    rw [← hevents]
    exact ih

/-- A strategy that buys on every candle. -/
def buysAlways : StartupSettings Unit where
  capital := 1000
  runtime := {
    strategy := some ⟨fun _ candle _ => some ([⟨candle.symbol, .buy, 1⟩], ())⟩
    runId := "run"
    clock := fun _ _ => 0 }

/-- The first candle of the feed, at 50. -/
def firstCandle : MarketEvent :=
  { candle := ⟨"BTCUSDT", 0, hour, 50, 50, 50, 50, 1⟩, sequence := 1 }

/-- The candle is processed, up to the execution of the order. -/
def candleSteps : List StartupStep := [.event firstCandle true, .strategyReturns, .check 0, .execute]

/-- The candle is processed after the reconciliation. -/
theorem reconciled_first_candle :
    ∃ after : StartupHistory Unit, Run (StartupHistory.Step buysAlways)
        ⟨init {} none true { cashBalance := 1000 } (), []⟩
        (.reconcile :: .reconciled false :: candleSteps) after ∧
      after.events = [.handedOver true, .executed ⟨"BTCUSDT", .buy, 1⟩] ∧ Reconciled after.events := by
  have hruns : (after? buysAlways ⟨init {} none true { cashBalance := 1000 } (), []⟩
      (.reconcile :: .reconciled false :: candleSteps)).map StartupHistory.events =
      some [.handedOver true, .executed ⟨"BTCUSDT", .buy, 1⟩] := by
    decide +kernel
  obtain ⟨after, hafter, hevents⟩ := Option.map_eq_some_iff.mp hruns
  have hrun := run_of_after? hafter
  refine ⟨after, hrun, hevents, reconciled_first hrun ?_⟩
  rintro before label next ⟨passed, later, hsplit, hbefore, -⟩
    ⟨now, event, index, request, rest, rfl, -, -, hphase, -⟩
  have hpassed : passed = .reconcile :: .reconciled false :: candleSteps.take 2 := by
    simp only [candleSteps, List.cons_eq_append_iff] at hsplit
    simp at hsplit
    exact hsplit.1
  have hhanded : (after? buysAlways ⟨init {} none true { cashBalance := 1000 } (), []⟩
      (.reconcile :: .reconciled false :: candleSteps.take 2)).map
        (fun history => history.startup.phase) = some (.handedOver true) := by
    decide +kernel
  rw [← hpassed, after?_of_run hbefore] at hhanded
  exact hphase true (Option.some.inj hhanded)

/-- The candle is processed while the reconciliation is awaited. -/
theorem executed_before_reconciliation :
    ∃ after : StartupHistory Unit, Run (StartupHistory.Step buysAlways)
        ⟨init {} none true { cashBalance := 1000 } (), []⟩ (.reconcile :: candleSteps) after ∧
      after.startup.engine.heldQuantity "BTCUSDT" = 1 ∧ ¬Reconciled after.events := by
  have hruns : (after? buysAlways ⟨init {} none true { cashBalance := 1000 } (), []⟩
      (.reconcile :: candleSteps)).map
        (fun after => (after.events, after.startup.engine.heldQuantity "BTCUSDT")) =
      some ([.executed ⟨"BTCUSDT", .buy, 1⟩], 1) := by
    decide +kernel
  obtain ⟨after, hafter, hfacts⟩ := Option.map_eq_some_iff.mp hruns
  obtain ⟨hevents, hheld⟩ := Prod.mk.inj hfacts
  refine ⟨after, run_of_after? hafter, hheld, fun hreconciled => ?_⟩
  exact absurd (hreconciled [] _ [] hevents rfl) List.not_mem_nil

end Startup

end CryptoTrading
