import CryptoTrading.Exchange.PendingWrites
import CryptoTrading.Execution.PaperTradingRuntime

/-! The runtime's run over a feed as the caller of an engine with background writes. -/

namespace CryptoTrading

open Kit

/-- The engine's calls and the checkpoints in a trace. -/
def mainSteps (actions : List Action) : List MainStep :=
  actions.filterMap fun
    | .call call => some (.call call)
    | .checkpoint => some .checkpoint
    | _ => none

@[simp] theorem mainSteps_append (first rest : List Action) :
    mainSteps (first ++ rest) = mainSteps first ++ mainSteps rest := List.filterMap_append

@[simp] theorem mainSteps_nil : mainSteps [] = [] := rfl

@[simp] theorem mainSteps_call (call : EngineCall) (rest : List Action) :
    mainSteps (.call call :: rest) = .call call :: mainSteps rest := rfl

@[simp] theorem mainSteps_strategy (candle : Candle) (rest : List Action) :
    mainSteps (.strategy candle :: rest) = mainSteps rest := rfl

theorem programCalls_mainSteps (actions : List Action) :
    programCalls (mainSteps actions) = engineCalls actions := by
  rw [programCalls, mainSteps, List.filterMap_filterMap]
  refine List.filterMap_congr fun action _ => ?_
  cases action <;> rfl

theorem Checks.mainSteps {actions : List Action} (h : Checks actions) : mainSteps actions = [] :=
  List.filterMap_eq_nil_iff.mpr fun action haction => by
    obtain ⟨request, approved, rfl⟩ := h action haction
    rfl

/-- A step of the runtime's run: once a checkpoint has raised nothing is left to do but the
checkpoint in the `finally` of `run_async`. -/
inductive RuntimeStep : System → Label → System → Prop
  | goes {s t : System} {label : Label} (hstep : System.Step s label t)
      (hreturns : label ≠ .gatherRaises ∧ label ≠ .saveRaises) : RuntimeStep s label t
  | ends {s t : System} {label : Label} (hstep : System.Step s label t)
      (hraises : label = .gatherRaises ∨ label = .saveRaises) :
      RuntimeStep s label { t with program := t.program.getLast?.toList }

theorem runtimeStep_of_nothingRaises {s t : System} {labels : List Label}
    (h : Run System.Step s labels t) (hnone : System.NothingRaises labels) :
    Run RuntimeStep s labels t :=
  h.imp fun _ label _ hmem hstep => .goes hstep
    ⟨fun he => by simpa [he, Label.raises] using hnone label hmem,
      fun he => by simpa [he, Label.raises] using hnone label hmem⟩

namespace RuntimeSettings

variable {σ : Type} (settings : RuntimeSettings σ)

/-- What `run_async` does to the engine over a feed: the processing of its events, up to the first
that raises, and the final checkpoint. -/
def program (state : PaperTradingRuntime σ) (feed : List MarketEvent) : List MainStep :=
  mainSteps (settings.processFeed state feed).actions ++ [.checkpoint]

theorem processRequests_mainSteps (event : MarketEvent) (index : ℕ)
    (requests : List ExecutionRequest) (engine : PaperExecutionEngine) :
    mainSteps (settings.processRequests event index requests engine).actions =
      (engineCalls (settings.processRequests event index requests engine).actions).map .call := by
  induction requests generalizing index engine with
  | nil => rfl
  | cons request rest ih =>
    obtain ⟨checks, hchecks, h | h | ⟨_, _, h⟩ | ⟨done, _, h⟩⟩ :=
      settings.processRequests_cons event index request rest engine
    all_goals have hc := hchecks.engineCalls
    all_goals have hm := hchecks.mainSteps
    · rw [h]; simp [hc, hm]
    · rw [h]; simp [hc, hm, ih]
    · rw [h]; simp [hc, hm]
    · rw [h]; simp [hc, hm, ih]

/-- The strategy's part of the processing of an event makes no checkpoint. -/
theorem runStrategy_mainSteps (state : PaperTradingRuntime σ) (event : MarketEvent) :
    mainSteps (settings.runStrategy state event).actions =
      (engineCalls (settings.runStrategy state event).actions).map .call := by
  unfold runStrategy
  split
  · rfl
  · split
    · split
      · rfl
      · simpa using settings.processRequests_mainSteps event 0 _ state.engine
    · rfl

theorem finishCandle_mainSteps (state : PaperTradingRuntime σ) :
    mainSteps (settings.finishCandle state).actions =
      if (state.candlesProcessed + 1) % settings.checkpointInterval = 0 then [.checkpoint] else [] := by
  simp only [finishCandle]
  split <;> split <;> rfl

/-- The processing of an event that the engine takes: the event is accepted, requests are executed,
and then, unless something has raised, the candle is counted and a checkpoint is made when it is
due. -/
theorem processCandle_steps {state : PaperTradingRuntime σ} {event : MarketEvent}
    (h : state.engine.Takes event) : ∃ executes, Executes executes ∧
      engineCalls (settings.processCandle state event).actions = .marketEvent event :: executes ∧
      (mainSteps (settings.processCandle state event).actions =
        (EngineCall.marketEvent event :: executes).map .call ++
          if (settings.processCandle state event).raised = none ∧
            (state.candlesProcessed + 1) % settings.checkpointInterval = 0 then [.checkpoint]
          else []) ∧
      ((settings.processCandle state event).raised = none →
        (settings.processCandle state event).state.candlesProcessed = state.candlesProcessed + 1) := by
  refine ⟨_, settings.runStrategy_executes (accepted state event) event, ?_⟩
  have hcount : (settings.runStrategy (accepted state event) event).state.candlesProcessed =
      state.candlesProcessed := settings.runStrategy_candlesProcessed (accepted state event) event
  rw [settings.processCandle_of_takes h]
  cases hr : (settings.runStrategy (accepted state event) event).raised with
  | some error =>
    rw [Outcome.andThen_of_raised ((Outcome.after_raised _ _).trans hr)]
    simp [hr, settings.runStrategy_mainSteps]
  | none =>
    rw [Outcome.andThen_of_returned ((Outcome.after_raised _ _).trans hr)]
    refine ⟨?_, ?_, fun _ => ?_⟩
    · simp [(settings.finishCandle_actions _).1]
    · simp only [Outcome.after_actions, Outcome.after_state, Outcome.after_raised, mainSteps_append,
        mainSteps_call, mainSteps_nil, settings.runStrategy_mainSteps,
        settings.finishCandle_mainSteps, hcount]
      simp [finishCandle]
    · exact congrArg (· + 1) hcount

/-- The processing of any other event schedules no write and makes no checkpoint. -/
theorem processCandle_steps_of_not_takes {state : PaperTradingRuntime σ} {event : MarketEvent}
    (h : ¬state.engine.Takes event) :
    (settings.processCandle state event).state = state ∧
      mainSteps (settings.processCandle state event).actions =
        (engineCalls (settings.processCandle state event).actions).map .call ∧
      state.engine.attemptAll (engineCalls (settings.processCandle state event).actions) =
        state.engine ∧
      state.engine.scheduled (engineCalls (settings.processCandle state event).actions) = [] := by
  have hsame : state.engine.attempt (.marketEvent event) = (state.engine, none) := by
    rcases state.engine.attempt_cases (.marketEvent event) with h' | ⟨_, he, ht, _⟩ | ⟨_, _, he, _⟩
    · exact h'
    · cases he
      exact absurd ht h
    · cases he
  obtain ⟨hstate, -, hactions | hactions⟩ := settings.processCandle_of_not_takes h
  · rw [hactions]
    exact ⟨hstate, rfl, rfl, rfl⟩
  · rw [hactions]
    refine ⟨hstate, rfl, ?_, ?_⟩ <;> simp [PaperExecutionEngine.scheduled, hsame]

end RuntimeSettings

end CryptoTrading
