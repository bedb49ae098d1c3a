import CryptoTrading.Exchange.EngineCalls

/-! The runtime loop: how a market event is processed, and the calls of the engine, the strategy and
the checkpoint that a feed leads to. -/

namespace CryptoTrading

open Kit

/-- A strategy with a state of its own.  `none` is a call that raises. -/
structure Strategy (σ : Type) where
  onCandle : σ → Candle → PaperExecutionEngine → Option (List ExecutionRequest × σ)

/-- What a runtime is built from.  `tradingEnabled` and `sourceReady` are read when an event is
processed, and `clock` when a request is executed. -/
structure RuntimeSettings (σ : Type) where
  strategy : Option (Strategy σ) := none
  /-- `risk_manager.validate_request`; `none` is a call that raises. -/
  riskManager : Option (ExecutionRequest → PaperExecutionEngine → Option Bool) := none
  tradingEnabled : MarketEvent → Bool := fun _ => true
  sourceReady : MarketEvent → Bool := fun _ => true
  sessionId : Option String := none
  runId : String
  checkpointInterval : ℕ := 1
  checkpointInterval_pos : 0 < checkpointInterval := by exact Nat.one_pos
  reconciles : Bool := false
  reconciliationInterval : ℕ := 50
  clock : MarketEvent → ℕ → Datetime

/-- What `_process_candle` does, in order. -/
inductive Action
  | call (call : EngineCall)
  | strategy (candle : Candle)
  | riskCheck (request : ExecutionRequest) (approved : Bool)
  | checkpoint
  | reconcile
  deriving DecidableEq

inductive RuntimeError
  | candle (error : CandleError)
  | strategy
  | risk
  | execution (error : ExecutionError)
  deriving DecidableEq

structure PaperTradingRuntime (σ : Type) where
  engine : PaperExecutionEngine
  strategyState : σ
  candlesProcessed : ℕ := 0
  deriving DecidableEq

/-- What a part of the processing did, the state that it left, and what it raised. -/
structure Outcome (α : Type) where
  actions : List Action
  state : α
  raised : Option RuntimeError := none
  deriving DecidableEq

namespace Outcome

variable {α β : Type}

/-- The outcome of doing `first` before the part that this is the outcome of. -/
def after (first : List Action) (outcome : Outcome α) : Outcome α :=
  { outcome with actions := first ++ outcome.actions }

/-- The outcome of going on with `next`, unless this part raised. -/
def andThen (outcome : Outcome α) (next : α → Outcome α) : Outcome α :=
  if outcome.raised.isSome then outcome else (next outcome.state).after outcome.actions

end Outcome

namespace RuntimeSettings

variable {σ : Type} (settings : RuntimeSettings σ)

/-- `f"{self.session_id or 'paper'}:{sequence}:{request_index}:{request.symbol}:{side}"`. -/
def clientOrderId (sequence : ℤ) (index : ℕ) (request : ExecutionRequest) : String :=
  (match settings.sessionId with
    | none => "paper"
    | some id => if id = "" then "paper" else id) ++
    ":" ++ toString sequence ++ ":" ++ toString index ++ ":" ++ request.symbol ++ ":" ++
    request.side.value

/-- The arguments with which the runtime executes a request of an event. -/
def executeArguments (event : MarketEvent) (index : ℕ) (request : ExecutionRequest) :
    ExecuteArguments :=
  { request, clientOrderId := some (settings.clientOrderId event.sequence index request)
    runId := some settings.runId, now := settings.clock event index }

/-- The risk manager's verdict on a request, `none` where it raises, and the check made. -/
def validate (request : ExecutionRequest) (engine : PaperExecutionEngine) :
    List Action × Option Bool :=
  match settings.riskManager with
  | none => ([], some true)
  | some validateRequest =>
    match validateRequest request engine with
    | none => ([], none)
    | some approved => ([.riskCheck request approved], some approved)

/-- The loop over the requests of an event, from the one with number `index` on. -/
def processRequests (event : MarketEvent) :
    ℕ → List ExecutionRequest → PaperExecutionEngine → Outcome PaperExecutionEngine
  | _, [], engine => { actions := [], state := engine }
  | index, request :: rest, engine =>
    let args := settings.executeArguments event index request
    match settings.validate request engine with
    | (checks, none) => { actions := checks, state := engine, raised := some .risk }
    | (checks, some false) => (processRequests event (index + 1) rest engine).after checks
    | (checks, some true) =>
      match engine.execute args with
      | .error e =>
        { actions := checks ++ [.call (.execute args)], state := engine
          raised := some (.execution e) }
      | .ok done =>
        (processRequests event (index + 1) rest done.engine).after
          (checks ++ [.call (.execute args)])

/-- The strategy's part of the processing of an event. -/
def runStrategy (state : PaperTradingRuntime σ) (event : MarketEvent) :
    Outcome (PaperTradingRuntime σ) :=
  match settings.strategy with
  | none => { actions := [], state }
  | some strategy =>
    if settings.tradingEnabled event && settings.sourceReady event then
      match strategy.onCandle state.strategyState event.candle state.engine with
      | none => { actions := [.strategy event.candle], state, raised := some .strategy }
      | some (requests, strategyState) =>
        let outcome := settings.processRequests event 0 requests state.engine
        { actions := .strategy event.candle :: outcome.actions
          state := { state with engine := outcome.state, strategyState }
          raised := outcome.raised }
    else { actions := [], state }

/-- What follows the strategy: the count of the candle, the checkpoint and the reconciliation. -/
def finishCandle (state : PaperTradingRuntime σ) : Outcome (PaperTradingRuntime σ) :=
  let count := state.candlesProcessed + 1
  { actions :=
      (if count % settings.checkpointInterval = 0 then [.checkpoint] else []) ++
      (if settings.reconciles && decide (0 < settings.reconciliationInterval) &&
          decide (count % settings.reconciliationInterval = 0) then [.reconcile] else [])
    state := { state with candlesProcessed := count } }

/-- `_process_candle`. -/
def processCandle (state : PaperTradingRuntime σ) (event : MarketEvent) :
    Outcome (PaperTradingRuntime σ) :=
  if event.sequence ≤ state.engine.lastSequence then { actions := [], state }
  else
    match state.engine.onMarketEvent event with
    | .error e => { actions := [.call (.marketEvent event)], state, raised := some (.candle e) }
    | .ok (false, _) => { actions := [.call (.marketEvent event)], state }
    | .ok (true, engine) =>
      ((settings.runStrategy { state with engine } event).after [.call (.marketEvent event)]).andThen
        settings.finishCandle

/-- The processing of a feed, up to the first event that raises. -/
def processFeed (state : PaperTradingRuntime σ) : List MarketEvent → Outcome (PaperTradingRuntime σ)
  | [] => { actions := [], state }
  | event :: rest => (settings.processCandle state event).andThen fun next => processFeed next rest

end RuntimeSettings

/-! ### Outcomes in sequence -/

namespace Outcome

variable {α : Type} {outcome : Outcome α} {next : α → Outcome α}

@[simp] theorem after_actions (first : List Action) (outcome : Outcome α) :
    (outcome.after first).actions = first ++ outcome.actions := rfl

@[simp] theorem after_state (first : List Action) (outcome : Outcome α) :
    (outcome.after first).state = outcome.state := rfl

@[simp] theorem after_raised (first : List Action) (outcome : Outcome α) :
    (outcome.after first).raised = outcome.raised := rfl

theorem andThen_of_returned (h : outcome.raised = none) :
    outcome.andThen next = (next outcome.state).after outcome.actions := by
  simp [andThen, h]

theorem andThen_of_raised {error : RuntimeError} (h : outcome.raised = some error) :
    outcome.andThen next = outcome := by
  simp [andThen, h]

end Outcome

/-! ### Traces -/

/-- The calls of the engine in a trace. -/
def engineCalls (actions : List Action) : List EngineCall :=
  actions.filterMap fun
    | .call call => some call
    | _ => none

/-- The candles on which a trace calls the strategy. -/
def strategyCalls (actions : List Action) : List Candle :=
  actions.filterMap fun
    | .strategy candle => some candle
    | _ => none

@[simp] theorem engineCalls_nil : engineCalls [] = [] := rfl

@[simp] theorem engineCalls_call (call : EngineCall) (rest : List Action) :
    engineCalls (.call call :: rest) = call :: engineCalls rest := rfl

@[simp] theorem engineCalls_strategy (candle : Candle) (rest : List Action) :
    engineCalls (.strategy candle :: rest) = engineCalls rest := rfl

@[simp] theorem strategyCalls_nil : strategyCalls [] = [] := rfl

@[simp] theorem strategyCalls_call (call : EngineCall) (rest : List Action) :
    strategyCalls (.call call :: rest) = strategyCalls rest := rfl

@[simp] theorem strategyCalls_strategy (candle : Candle) (rest : List Action) :
    strategyCalls (.strategy candle :: rest) = candle :: strategyCalls rest := rfl

@[simp] theorem engineCalls_append (first rest : List Action) :
    engineCalls (first ++ rest) = engineCalls first ++ engineCalls rest := List.filterMap_append

@[simp] theorem strategyCalls_append (first rest : List Action) :
    strategyCalls (first ++ rest) = strategyCalls first ++ strategyCalls rest :=
  List.filterMap_append

/-- A trace of checks alone. -/
def Checks (actions : List Action) : Prop :=
  ∀ action ∈ actions, ∃ request approved, action = .riskCheck request approved

theorem Checks.engineCalls {actions : List Action} (h : Checks actions) : engineCalls actions = [] :=
  List.filterMap_eq_nil_iff.mpr fun action haction => by
    obtain ⟨request, approved, rfl⟩ := h action haction
    rfl

theorem Checks.strategyCalls {actions : List Action} (h : Checks actions) :
    strategyCalls actions = [] :=
  List.filterMap_eq_nil_iff.mpr fun action haction => by
    obtain ⟨request, approved, rfl⟩ := h action haction
    rfl

/-- Calls of `execute` alone. -/
def Executes (calls : List EngineCall) : Prop := ∀ call ∈ calls, ∃ args, call = .execute args

/-! ### What the parts of the processing keep -/

/-- `after` has the market's part of `before`, and its cash balance. -/
structure SameMarket (before after : PaperExecutionEngine) : Prop where
  lastCandle : after.lastCandle = before.lastCandle
  lastProcessedTimestamp : after.lastProcessedTimestamp = before.lastProcessedTimestamp
  lastSequence : after.lastSequence = before.lastSequence
  cashBalance : after.cashBalance = before.cashBalance

theorem SameMarket.refl (engine : PaperExecutionEngine) : SameMarket engine engine :=
  ⟨rfl, rfl, rfl, rfl⟩

theorem SameMarket.trans {e1 e2 e3 : PaperExecutionEngine} (h1 : SameMarket e1 e2)
    (h2 : SameMarket e2 e3) : SameMarket e1 e3 :=
  ⟨h2.lastCandle.trans h1.lastCandle,
    h2.lastProcessedTimestamp.trans h1.lastProcessedTimestamp,
    h2.lastSequence.trans h1.lastSequence, h2.cashBalance.trans h1.cashBalance⟩

theorem SameMarket.execute {engine : PaperExecutionEngine} {args : ExecuteArguments}
    {done : Executed} (h : engine.execute args = .ok done) : SameMarket engine done.engine := by
  rcases PaperExecutionEngine.execute_cases h with ⟨_, _, _, hsame, _⟩ | ⟨price, _, rfl⟩
  · rw [hsame]
    exact SameMarket.refl engine
  · exact ⟨rfl, rfl, rfl, rfl⟩

namespace RuntimeSettings

variable {σ : Type} (settings : RuntimeSettings σ)

theorem validate_checks (request : ExecutionRequest) (engine : PaperExecutionEngine) :
    Checks (settings.validate request engine).1 := by
  intro action haction
  unfold validate at haction
  split at haction
  · cases haction
  · split at haction
    · cases haction
    · exact ⟨_, _, List.mem_singleton.mp haction⟩

/-- One turn of the loop over the requests: a check that raises, a rejection, an execution that
raises, or one that returns. -/
theorem processRequests_cons (event : MarketEvent) (index : ℕ) (request : ExecutionRequest)
    (rest : List ExecutionRequest) (engine : PaperExecutionEngine) :
    ∃ checks, Checks checks ∧
      let args := settings.executeArguments event index request
      let outcome := settings.processRequests event index (request :: rest) engine
      outcome = { actions := checks, state := engine, raised := some .risk } ∨
      outcome = (settings.processRequests event (index + 1) rest engine).after checks ∨
      (∃ e, engine.execute args = .error e ∧
        outcome = { actions := checks ++ [.call (.execute args)], state := engine
                    raised := some (.execution e) }) ∨
      ∃ done, engine.execute args = .ok done ∧
        outcome = (settings.processRequests event (index + 1) rest done.engine).after
          (checks ++ [.call (.execute args)]) := by
  refine ⟨(settings.validate request engine).1, settings.validate_checks request engine, ?_⟩
  simp only [processRequests]
  obtain ⟨checks, verdict⟩ := settings.validate request engine
  match verdict with
  | none => exact Or.inl rfl
  | some false => exact Or.inr (Or.inl rfl)
  | some true =>
    cases hex : engine.execute (settings.executeArguments event index request) with
    | error e => exact Or.inr (Or.inr (Or.inl ⟨e, rfl, rfl⟩))
    | ok done => exact Or.inr (Or.inr (Or.inr ⟨done, rfl, rfl⟩))

theorem processRequests_sameMarket (event : MarketEvent) (index : ℕ)
    (requests : List ExecutionRequest) (engine : PaperExecutionEngine) :
    SameMarket engine (settings.processRequests event index requests engine).state := by
  induction requests generalizing index engine with
  | nil => exact SameMarket.refl engine
  | cons request rest ih =>
    obtain ⟨checks, -, h | h | ⟨_, _, h⟩ | ⟨done, hdone, h⟩⟩ :=
      settings.processRequests_cons event index request rest engine
    · rw [h]; exact SameMarket.refl engine
    · rw [h]; exact ih (index + 1) engine
    · rw [h]; exact SameMarket.refl engine
    · rw [h]; exact (SameMarket.execute hdone).trans (ih (index + 1) done.engine)

theorem processRequests_strategyCalls (event : MarketEvent) (index : ℕ)
    (requests : List ExecutionRequest) (engine : PaperExecutionEngine) :
    strategyCalls (settings.processRequests event index requests engine).actions = [] := by
  induction requests generalizing index engine with
  | nil => rfl
  | cons request rest ih =>
    obtain ⟨checks, hchecks, h | h | ⟨_, _, h⟩ | ⟨done, _, h⟩⟩ :=
      settings.processRequests_cons event index request rest engine
    · rw [h]; exact hchecks.strategyCalls
    · rw [h]; simp [hchecks.strategyCalls, ih]
    · rw [h]; simp [hchecks.strategyCalls]
    · rw [h]; simp [hchecks.strategyCalls, ih]

/-- The loop over the requests does to the engine what its calls do. -/
theorem processRequests_engine (event : MarketEvent) (index : ℕ)
    (requests : List ExecutionRequest) (engine : PaperExecutionEngine) :
    (settings.processRequests event index requests engine).state =
      engine.attemptAll (engineCalls (settings.processRequests event index requests engine).actions) := by
  induction requests generalizing index engine with
  | nil => rfl
  | cons request rest ih =>
    obtain ⟨checks, hchecks, h | h | ⟨_, herror, h⟩ | ⟨done, hdone, h⟩⟩ :=
      settings.processRequests_cons event index request rest engine
    all_goals have hc := hchecks.engineCalls
    · rw [h]; simp [hc]
    · rw [h]; simpa [hc] using ih (index + 1) engine
    · rw [h]; simp [hc, PaperExecutionEngine.attempt_execute_error herror]
    · rw [h]
      simpa [hc, PaperExecutionEngine.attempt_execute_ok hdone] using ih (index + 1) done.engine

/-- The loop over the requests calls nothing of the engine but `execute`. -/
theorem processRequests_executes (event : MarketEvent) (index : ℕ)
    (requests : List ExecutionRequest) (engine : PaperExecutionEngine) :
    Executes (engineCalls (settings.processRequests event index requests engine).actions) := by
  induction requests generalizing index engine with
  | nil => exact fun _ hcall => absurd hcall List.not_mem_nil
  | cons request rest ih =>
    have hone : ∀ args, Executes [.execute args] := fun args call hcall =>
      ⟨args, List.mem_singleton.mp hcall⟩
    have htwo : ∀ {first calls}, Executes first → Executes calls → Executes (first ++ calls) :=
      fun hfirst hcalls call hcall => (List.mem_append.mp hcall).elim (hfirst call) (hcalls call)
    obtain ⟨checks, hchecks, h | h | ⟨_, _, h⟩ | ⟨done, _, h⟩⟩ :=
      settings.processRequests_cons event index request rest engine
    all_goals have hc := hchecks.engineCalls
    · rw [h]; simp [hc, Executes]
    · rw [h]; simpa [hc] using ih (index + 1) engine
    · rw [h]; simpa [hc] using hone _
    · rw [h]; simpa [hc] using htwo (hone _) (ih (index + 1) done.engine)

/-- The runtime with an event accepted by its engine. -/
def accepted (state : PaperTradingRuntime σ) (event : MarketEvent) : PaperTradingRuntime σ :=
  { state with engine := state.engine.accept event }

@[simp] theorem accepted_engine (state : PaperTradingRuntime σ) (event : MarketEvent) :
    (accepted state event).engine = state.engine.accept event := rfl

@[simp] theorem finishCandle_engine (state : PaperTradingRuntime σ) :
    (settings.finishCandle state).state.engine = state.engine := rfl

/-- The strategy's part of the processing of an event that the engine takes is called on its candle
unless there is no strategy, or trading or the source holds it back. -/
def callsStrategy (event : MarketEvent) : Bool :=
  settings.strategy.isSome && settings.tradingEnabled event && settings.sourceReady event

theorem runStrategy_strategyCalls (state : PaperTradingRuntime σ) (event : MarketEvent) :
    strategyCalls (settings.runStrategy state event).actions =
      if settings.callsStrategy event then [event.candle] else [] := by
  unfold runStrategy callsStrategy
  cases settings.strategy with
  | none => rfl
  | some strategy =>
    simp only [Option.isSome_some, Bool.true_and]
    split
    · split
      · rfl
      · simp [processRequests_strategyCalls]
    · rfl

theorem runStrategy_sameMarket (state : PaperTradingRuntime σ) (event : MarketEvent) :
    SameMarket state.engine (settings.runStrategy state event).state.engine := by
  unfold runStrategy
  split
  · exact SameMarket.refl _
  · split
    · split
      · exact SameMarket.refl _
      · exact settings.processRequests_sameMarket event 0 _ state.engine
    · exact SameMarket.refl _

theorem runStrategy_candlesProcessed (state : PaperTradingRuntime σ) (event : MarketEvent) :
    (settings.runStrategy state event).state.candlesProcessed = state.candlesProcessed := by
  unfold runStrategy
  split
  · rfl
  · split
    · split <;> rfl
    · rfl

theorem runStrategy_engine (state : PaperTradingRuntime σ) (event : MarketEvent) :
    (settings.runStrategy state event).state.engine =
      state.engine.attemptAll (engineCalls (settings.runStrategy state event).actions) := by
  unfold runStrategy
  split
  · rfl
  · split
    · split
      · rfl
      · simpa using settings.processRequests_engine event 0 _ state.engine
    · rfl

theorem runStrategy_executes (state : PaperTradingRuntime σ) (event : MarketEvent) :
    Executes (engineCalls (settings.runStrategy state event).actions) := by
  unfold runStrategy
  split
  · simp [Executes]
  · split
    · split
      · simp [Executes]
      · simpa using settings.processRequests_executes event 0 _ state.engine
    · simp [Executes]

theorem finishCandle_actions (state : PaperTradingRuntime σ) :
    engineCalls (settings.finishCandle state).actions = [] ∧
      strategyCalls (settings.finishCandle state).actions = [] := by
  simp only [finishCandle]
  split <;> split <;> exact ⟨rfl, rfl⟩

theorem processCandle_of_takes {state : PaperTradingRuntime σ} {event : MarketEvent}
    (h : state.engine.Takes event) : settings.processCandle state event =
      ((settings.runStrategy (accepted state event) event).after
        [.call (.marketEvent event)]).andThen settings.finishCandle := by
  rw [processCandle, if_neg (not_le.mpr h.sequence),
    PaperExecutionEngine.onMarketEvent_of_takes h]
  rfl

/-- The processing of any other event changes nothing. -/
theorem processCandle_of_not_takes {state : PaperTradingRuntime σ} {event : MarketEvent}
    (h : ¬state.engine.Takes event) :
    (settings.processCandle state event).state = state ∧
      strategyCalls (settings.processCandle state event).actions = [] ∧
      ((settings.processCandle state event).actions = [] ∨
        (settings.processCandle state event).actions = [.call (.marketEvent event)]) := by
  unfold processCandle
  split
  · exact ⟨rfl, rfl, Or.inl rfl⟩
  · split
    · exact ⟨rfl, rfl, Or.inr rfl⟩
    · exact ⟨rfl, rfl, Or.inr rfl⟩
    · rename_i hev
      rcases PaperExecutionEngine.onMarketEvent_cases hev with ⟨hf, _⟩ | ⟨_, _, ht⟩
      · cases hf
      · exact absurd ht h

/-- The processing of an event does to the engine what its calls do. -/
theorem processCandle_engine (state : PaperTradingRuntime σ) (event : MarketEvent) :
    (settings.processCandle state event).state.engine =
      state.engine.attemptAll (engineCalls (settings.processCandle state event).actions) := by
  by_cases ht : state.engine.Takes event
  · have haccept : (state.engine.attempt (.marketEvent event)).1 = state.engine.accept event :=
      PaperExecutionEngine.attempt_marketEvent_ok (PaperExecutionEngine.onMarketEvent_of_takes ht)
    have hpart := settings.runStrategy_engine (accepted state event) event
    rw [settings.processCandle_of_takes ht]
    cases hr : (settings.runStrategy (accepted state event) event).raised with
    | some error =>
      rw [Outcome.andThen_of_raised ((Outcome.after_raised _ _).trans hr)]
      simpa [haccept] using hpart
    | none =>
      rw [Outcome.andThen_of_returned ((Outcome.after_raised _ _).trans hr)]
      simpa [haccept, (settings.finishCandle_actions _).1] using hpart
  · have hsame : state.engine.attempt (.marketEvent event) = (state.engine, none) := by
      rcases state.engine.attempt_cases (.marketEvent event) with h | ⟨_, he, ht', _⟩ | ⟨_, _, he, _⟩
      · exact h
      · cases he; exact absurd ht' ht
      · cases he
    obtain ⟨hstate, -, hactions | hactions⟩ := settings.processCandle_of_not_takes ht
    · rw [hstate, hactions]; rfl
    · rw [hstate, hactions]; simp [hsame]

/-- The processing of a feed does to the engine what its calls do. -/
theorem processFeed_engine (state : PaperTradingRuntime σ) (feed : List MarketEvent) :
    (settings.processFeed state feed).state.engine =
      state.engine.attemptAll (engineCalls (settings.processFeed state feed).actions) := by
  induction feed generalizing state with
  | nil => rfl
  | cons event rest ih =>
    have hone := settings.processCandle_engine state event
    rw [processFeed]
    cases hr : (settings.processCandle state event).raised with
    | some error => rw [Outcome.andThen_of_raised hr]; exact hone
    | none =>
      rw [Outcome.andThen_of_returned hr]
      simpa [← hone] using ih (settings.processCandle state event).state

end RuntimeSettings

/-! ### The simple risk manager -/

/-- `DefaultRiskManager`. -/
structure DefaultRiskManager where
  maxPositionSize : Option Decimal := none
  maxOrderValue : Option Decimal := none

namespace DefaultRiskManager

/-- The price that a request is checked at: the close of the last candle, or zero. -/
def price (engine : PaperExecutionEngine) : Decimal := engine.lastCandle.elim 0 Candle.close

/-- `validate_request`. -/
def validateRequest (manager : DefaultRiskManager) (request : ExecutionRequest)
    (engine : PaperExecutionEngine) : Bool :=
  let currentQty := engine.heldQuantity request.symbol
  let newQty := match request.side with
    | .buy => currentQty + request.quantity
    | .sell => |currentQty - request.quantity|
  !(manager.maxOrderValue.any fun limit => decide (request.quantity * price engine > limit)) &&
    !(manager.maxPositionSize.any fun limit => decide (newQty > limit))

end DefaultRiskManager

end CryptoTrading
