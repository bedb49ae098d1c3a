import CryptoTrading.Execution.PaperTradingRuntime

/-! The order of the risk checks and the executions in what a runtime does: each request that is
executed was approved right before, in the same state of the engine. -/

namespace CryptoTrading

/-- What a runtime with a risk manager does from an engine on: it checks each request, and executes
those that are approved. -/
inductive Checked (riskManager : ExecutionRequest → PaperExecutionEngine → Option Bool) :
    PaperExecutionEngine → List Action → Prop
  | nil (engine : PaperExecutionEngine) : Checked riskManager engine []
  | event {engine : PaperExecutionEngine} {event : MarketEvent} {rest : List Action}
      (h : Checked riskManager (engine.attempt (.marketEvent event)).1 rest) :
      Checked riskManager engine (.call (.marketEvent event) :: rest)
  | refused {engine : PaperExecutionEngine} {request : ExecutionRequest} {rest : List Action}
      (hrefused : riskManager request engine = some false) (h : Checked riskManager engine rest) :
      Checked riskManager engine (.riskCheck request false :: rest)
  | executed {engine : PaperExecutionEngine} {args : ExecuteArguments} {rest : List Action}
      (happroved : riskManager args.request engine = some true) (hclose : args.marketPrice = none)
      (h : Checked riskManager (engine.attempt (.execute args)).1 rest) :
      Checked riskManager engine
        (.riskCheck args.request true :: .call (.execute args) :: rest)
  | strategy {engine : PaperExecutionEngine} {candle : Candle} {rest : List Action}
      (h : Checked riskManager engine rest) : Checked riskManager engine (.strategy candle :: rest)
  | checkpoint {engine : PaperExecutionEngine} {rest : List Action}
      (h : Checked riskManager engine rest) : Checked riskManager engine (.checkpoint :: rest)
  | reconcile {engine : PaperExecutionEngine} {rest : List Action}
      (h : Checked riskManager engine rest) : Checked riskManager engine (.reconcile :: rest)

namespace Checked

variable {riskManager : ExecutionRequest → PaperExecutionEngine → Option Bool}
  {engine : PaperExecutionEngine} {first rest actions : List Action}

theorem append (h : Checked riskManager engine first)
    (h' : Checked riskManager (engine.attemptAll (engineCalls first)) rest) :
    Checked riskManager engine (first ++ rest) := by
  induction h with
  | nil => exact h'
  | event _ ih => exact .event (ih h')
  | refused hrefused _ ih => exact .refused hrefused (ih h')
  | executed happroved hclose _ ih => exact .executed happroved hclose (ih h')
  | strategy _ ih => exact .strategy (ih h')
  | checkpoint _ ih => exact .checkpoint (ih h')
  | reconcile _ ih => exact .reconcile (ih h')

/-- A check in a trace is the risk manager's verdict on the engine as it is there. -/
theorem verdict (h : Checked riskManager engine actions) (passed : List Action) {later : List Action}
    {request : ExecutionRequest} {approved : Bool}
    (hsplit : actions = passed ++ .riskCheck request approved :: later) :
    riskManager request (engine.attemptAll (engineCalls passed)) = some approved := by
  induction h generalizing passed with
  | nil => simp at hsplit
  | executed happroved _ _ ih =>
    match passed with
    | [] => cases hsplit; exact happroved
    | [action] => cases hsplit
    | action :: call :: passed => cases hsplit; exact ih passed rfl
  | refused hrefused _ ih =>
    cases passed with
    | nil => cases hsplit; exact hrefused
    | cons action passed => cases hsplit; exact ih passed rfl
  | event _ ih | strategy _ ih | checkpoint _ ih | reconcile _ ih =>
    cases passed with
    | nil => cases hsplit
    | cons action passed => cases hsplit; exact ih passed rfl

/-- An execution in a trace comes right after the approval of its request. -/
theorem approval (h : Checked riskManager engine actions) (passed : List Action) {later : List Action}
    {args : ExecuteArguments} (hsplit : actions = passed ++ .call (.execute args) :: later) :
    ∃ earlier, passed = earlier ++ [.riskCheck args.request true] := by
  induction h generalizing passed with
  | nil => simp at hsplit
  | executed _ _ _ ih =>
    match passed with
    | [] => cases hsplit
    | [action] => cases hsplit; exact ⟨[], rfl⟩
    | action :: call :: passed =>
      cases hsplit
      obtain ⟨earlier, rfl⟩ := ih passed rfl
      exact ⟨_ :: _ :: earlier, rfl⟩
  | refused _ _ ih | event _ ih | strategy _ ih | checkpoint _ ih | reconcile _ ih =>
    cases passed with
    | nil => cases hsplit
    | cons action passed =>
      cases hsplit
      obtain ⟨earlier, rfl⟩ := ih passed rfl
      exact ⟨_ :: earlier, rfl⟩

/-- An approval in a trace is followed by the execution of its request, at the last close. -/
theorem execution (h : Checked riskManager engine actions) (passed : List Action) {later : List Action}
    {request : ExecutionRequest} (hsplit : actions = passed ++ .riskCheck request true :: later) :
    ∃ args rest, later = .call (.execute args) :: rest ∧ args.request = request ∧
      args.marketPrice = none := by
  induction h generalizing passed with
  | nil => simp at hsplit
  | executed _ hclose _ ih =>
    match passed with
    | [] => cases hsplit; exact ⟨_, _, rfl, rfl, hclose⟩
    | [action] => cases hsplit
    | action :: call :: passed => cases hsplit; exact ih passed rfl
  | refused _ _ ih | event _ ih | strategy _ ih | checkpoint _ ih | reconcile _ ih =>
    cases passed with
    | nil => cases hsplit
    | cons action passed => cases hsplit; exact ih passed rfl

theorem andThen {α : Type} {outcome : Outcome α} {next : α → Outcome α}
    (h : Checked riskManager engine outcome.actions)
    (h' : Checked riskManager (engine.attemptAll (engineCalls outcome.actions))
      (next outcome.state).actions) :
    Checked riskManager engine (outcome.andThen next).actions := by
  rw [Outcome.andThen]
  split
  · exact h
  · exact h.append h'

end Checked

namespace RuntimeSettings

variable {σ : Type} {settings : RuntimeSettings σ}
  {riskManager : ExecutionRequest → PaperExecutionEngine → Option Bool}

theorem processRequests_checked (hrisk : settings.riskManager = some riskManager)
    (event : MarketEvent) (index : ℕ) (requests : List ExecutionRequest)
    (engine : PaperExecutionEngine) :
    Checked riskManager engine (settings.processRequests event index requests engine).actions := by
  induction requests generalizing index engine with
  | nil => exact .nil engine
  | cons request rest ih =>
    cases hverdict : riskManager request engine with
    | none =>
      simp only [processRequests, validate, hrisk, hverdict]
      exact .nil engine
    | some approved =>
      cases approved with
      | false =>
        simp only [processRequests, validate, hrisk, hverdict]
        exact .refused hverdict (ih (index + 1) engine)
      | true =>
        have happroved : riskManager (settings.executeArguments event index request).request engine =
            some true := hverdict
        cases hdone : engine.execute (settings.executeArguments event index request) with
        | error error =>
          simp only [processRequests, validate, hrisk, hverdict, hdone]
          exact .executed happroved rfl (.nil _)
        | ok done =>
          simp only [processRequests, validate, hrisk, hverdict, hdone]
          refine .executed happroved rfl ?_
          rw [PaperExecutionEngine.attempt_execute_ok hdone]
          exact ih (index + 1) done.engine

theorem runStrategy_checked (hrisk : settings.riskManager = some riskManager)
    (state : PaperTradingRuntime σ) (event : MarketEvent) :
    Checked riskManager state.engine (settings.runStrategy state event).actions := by
  unfold runStrategy
  split
  · exact .nil _
  · split
    · split
      · exact .strategy (.nil _)
      · exact .strategy (processRequests_checked hrisk event 0 _ state.engine)
    · exact .nil _

theorem finishCandle_checked (state : PaperTradingRuntime σ) (engine : PaperExecutionEngine) :
    Checked riskManager engine (settings.finishCandle state).actions := by
  simp only [finishCandle]
  split <;> split
  · exact .checkpoint (.reconcile (.nil _))
  · exact .checkpoint (.nil _)
  · exact .reconcile (.nil _)
  · exact .nil _

theorem processCandle_checked (hrisk : settings.riskManager = some riskManager)
    (state : PaperTradingRuntime σ) (event : MarketEvent) :
    Checked riskManager state.engine (settings.processCandle state event).actions := by
  by_cases htakes : state.engine.Takes event
  · rw [settings.processCandle_of_takes htakes]
    refine .andThen (.event ?_) (finishCandle_checked _ _)
    rw [PaperExecutionEngine.attempt_marketEvent_ok
      (PaperExecutionEngine.onMarketEvent_of_takes htakes)]
    exact runStrategy_checked hrisk (accepted state event) event
  · obtain ⟨-, -, hactions | hactions⟩ := settings.processCandle_of_not_takes htakes
    · rw [hactions]; exact .nil _
    · rw [hactions]; exact .event (.nil _)

theorem processFeed_checked (hrisk : settings.riskManager = some riskManager)
    (state : PaperTradingRuntime σ) (feed : List MarketEvent) :
    Checked riskManager state.engine (settings.processFeed state feed).actions := by
  induction feed generalizing state with
  | nil => exact .nil _
  | cons event rest ih =>
    rw [processFeed]
    refine .andThen (processCandle_checked hrisk state event) ?_
    rw [← settings.processCandle_engine]
    exact ih _

end RuntimeSettings

end CryptoTrading
