import CryptoTrading.Exchange.PaperExecutionEngine

/-! Sequences of calls of the engine: what each leaves and what it schedules for persistence. -/

namespace CryptoTrading

open Kit

inductive EngineCall
  | marketEvent (event : MarketEvent)
  | execute (args : ExecuteArguments)
  deriving DecidableEq

inductive CallError
  | candle (error : CandleError)
  | execution (error : ExecutionError)
  deriving DecidableEq

/-- A coroutine that a call schedules: `_save_state` or `_persist_execution`. -/
inductive ScheduledWrite
  | saveState
  | persistExecution (execution : Execution)
  deriving DecidableEq

/-- The execution whose records a write persists. -/
def ScheduledWrite.execution? : ScheduledWrite → Option Execution
  | saveState => none
  | persistExecution execution => some execution

namespace PaperExecutionEngine

/-- A call that returns leaves an engine, and may schedule a write. -/
def call (engine : PaperExecutionEngine) :
    EngineCall → Except CallError (PaperExecutionEngine × Option ScheduledWrite)
  | .marketEvent event =>
    match engine.onMarketEvent event with
    | .error e => .error (.candle e)
    | .ok (accepted, after) => .ok (after, if accepted then some .saveState else none)
  | .execute args =>
    match engine.execute args with
    | .error e => .error (.execution e)
    | .ok done => .ok (done.engine, done.scheduled.map .persistExecution)

/-- The engine after calls that all return. -/
def calls (engine : PaperExecutionEngine) : List EngineCall → Except CallError PaperExecutionEngine
  | [] => .ok engine
  | first :: rest =>
    match engine.call first with
    | .error e => .error e
    | .ok (after, _) => after.calls rest

/-- A call that raises leaves the engine as it was and schedules nothing. -/
def attempt (engine : PaperExecutionEngine) (call : EngineCall) :
    PaperExecutionEngine × Option ScheduledWrite :=
  match engine.call call with
  | .error _ => (engine, none)
  | .ok outcome => outcome

/-- The engine after calls of which some may raise. -/
def attemptAll (engine : PaperExecutionEngine) (calls : List EngineCall) : PaperExecutionEngine :=
  calls.foldl (fun engine call => (engine.attempt call).1) engine

/-- The writes that calls schedule, in order. -/
def scheduled (engine : PaperExecutionEngine) : List EngineCall → List ScheduledWrite
  | [] => []
  | call :: rest => (engine.attempt call).2.toList ++ scheduled (engine.attempt call).1 rest

/-- The executions of calls, in order. -/
def executions (engine : PaperExecutionEngine) (calls : List EngineCall) : List Execution :=
  (engine.scheduled calls).filterMap ScheduledWrite.execution?

@[simp] theorem attemptAll_nil (engine : PaperExecutionEngine) : engine.attemptAll [] = engine := rfl

@[simp] theorem attemptAll_cons (engine : PaperExecutionEngine) (call : EngineCall)
    (rest : List EngineCall) :
    engine.attemptAll (call :: rest) = (engine.attempt call).1.attemptAll rest := rfl

@[simp] theorem attemptAll_append (engine : PaperExecutionEngine) (first rest : List EngineCall) :
    engine.attemptAll (first ++ rest) = (engine.attemptAll first).attemptAll rest :=
  List.foldl_append

theorem scheduled_append (engine : PaperExecutionEngine) (first rest : List EngineCall) :
    engine.scheduled (first ++ rest) =
      engine.scheduled first ++ (engine.attemptAll first).scheduled rest := by
  induction first generalizing engine with
  | nil => rfl
  | cons call first ih => simp [scheduled, ih]

theorem executions_append (engine : PaperExecutionEngine) (first rest : List EngineCall) :
    engine.executions (first ++ rest) =
      engine.executions first ++ (engine.attemptAll first).executions rest := by
  simp [executions, scheduled_append]

theorem attempt_execute_ok {engine : PaperExecutionEngine} {args : ExecuteArguments}
    {done : Executed} (h : engine.execute args = .ok done) :
    engine.attempt (.execute args) = (done.engine, done.scheduled.map .persistExecution) := by
  simp [attempt, call, h]

theorem attempt_execute_error {engine : PaperExecutionEngine} {args : ExecuteArguments}
    {error : ExecutionError} (h : engine.execute args = .error error) :
    engine.attempt (.execute args) = (engine, none) := by
  simp [attempt, call, h]

theorem attempt_marketEvent_ok {engine after : PaperExecutionEngine} {event : MarketEvent}
    {accepted : Bool} (h : engine.onMarketEvent event = .ok (accepted, after)) :
    (engine.attempt (.marketEvent event)).1 = after := by
  simp [attempt, call, h]

theorem attempt_marketEvent_error {engine : PaperExecutionEngine} {event : MarketEvent}
    {error : CandleError} (h : engine.onMarketEvent event = .error error) :
    (engine.attempt (.marketEvent event)).1 = engine := by
  simp [attempt, call, h]

/-- A call that is ignored: an event that the engine does not take, or the retry of an order. -/
def Ignores (engine : PaperExecutionEngine) : EngineCall → Prop
  | .marketEvent event => ¬engine.Takes event
  | .execute args => engine.duplicateOf args.clientOrderId ≠ none

/-- What a call that returns does: nothing, the acceptance of an event, or a fill. -/
theorem call_cases {engine after : PaperExecutionEngine} {call : EngineCall}
    {write : Option ScheduledWrite} (h : engine.call call = .ok (after, write)) :
    (after = engine ∧ write = none ∧ engine.Ignores call) ∨
      (∃ event, call = .marketEvent event ∧ engine.Takes event ∧ after = engine.accept event ∧
        write = some .saveState) ∨
      ∃ args price, call = .execute args ∧ engine.Fills args price ∧
        after = engine.record args (engine.executionAt args price) ∧
        write = some (.persistExecution (engine.executionAt args price)) := by
  cases call with
  | marketEvent event =>
    simp only [PaperExecutionEngine.call] at h
    cases hev : engine.onMarketEvent event with
    | error e => rw [hev] at h; cases h
    | ok outcome =>
      obtain ⟨accepted, next⟩ := outcome
      rw [hev] at h
      cases h
      rcases onMarketEvent_cases hev with ⟨rfl, rfl, hnot⟩ | ⟨rfl, rfl, htakes⟩
      · exact Or.inl ⟨rfl, rfl, hnot⟩
      · exact Or.inr (Or.inl ⟨event, rfl, htakes, rfl, rfl⟩)
  | execute args =>
    simp only [PaperExecutionEngine.call] at h
    cases hex : engine.execute args with
    | error e => rw [hex] at h; cases h
    | ok done =>
      rw [hex] at h
      cases h
      rcases execute_cases hex with ⟨orderId, hdup, -, hengine, hnone⟩ | ⟨price, hfills, rfl⟩
      · exact Or.inl ⟨hengine, by rw [hnone]; rfl, by rw [Ignores, hdup]; exact nofun⟩
      · exact Or.inr (Or.inr ⟨args, price, rfl, hfills, rfl, rfl⟩)

/-- What any call does, one that raises included. -/
theorem attempt_cases (engine : PaperExecutionEngine) (call : EngineCall) :
    engine.attempt call = (engine, none) ∨
      (∃ event, call = .marketEvent event ∧ engine.Takes event ∧
        engine.attempt call = (engine.accept event, some .saveState)) ∨
      ∃ args price, call = .execute args ∧ engine.Fills args price ∧
        engine.attempt call = (engine.record args (engine.executionAt args price),
          some (.persistExecution (engine.executionAt args price))) := by
  unfold attempt
  cases h : engine.call call with
  | error e => exact Or.inl rfl
  | ok outcome =>
    obtain ⟨after, write⟩ := outcome
    rcases call_cases h with ⟨rfl, rfl, -⟩ | ⟨event, rfl, ht, rfl, rfl⟩ |
      ⟨args, price, rfl, hf, rfl, rfl⟩
    · exact Or.inl rfl
    · exact Or.inr (Or.inl ⟨event, rfl, ht, rfl⟩)
    · exact Or.inr (Or.inr ⟨args, price, rfl, hf, rfl⟩)

theorem calls_append (engine : PaperExecutionEngine) (first rest : List EngineCall) :
    engine.calls (first ++ rest) = (engine.calls first).bind fun middle => middle.calls rest := by
  induction first generalizing engine with
  | nil => rfl
  | cons call first ih =>
    simp only [List.cons_append, calls]
    cases engine.call call with
    | error e => rfl
    | ok outcome => exact ih outcome.1

theorem exists_of_calls_append {engine after : PaperExecutionEngine} {first rest : List EngineCall}
    (h : engine.calls (first ++ rest) = .ok after) :
    ∃ middle, engine.calls first = .ok middle ∧ middle.calls rest = .ok after := by
  rw [calls_append] at h
  cases hfirst : engine.calls first with
  | error e => rw [hfirst] at h; cases h
  | ok middle => rw [hfirst] at h; exact ⟨middle, rfl, h⟩

theorem calls_append_of_ok {engine middle : PaperExecutionEngine} {first rest : List EngineCall}
    (h : engine.calls first = .ok middle) : engine.calls (first ++ rest) = middle.calls rest := by
  rw [calls_append, h]
  rfl

/-- A property that every call preserves holds after every sequence of calls. -/
theorem calls_invariant {P : PaperExecutionEngine → Prop}
    (next : ∀ engine call after write, P engine → engine.call call = .ok (after, write) → P after)
    {engine after : PaperExecutionEngine} {list : List EngineCall} (start : P engine)
    (h : engine.calls list = .ok after) : P after := by
  induction list generalizing engine with
  | nil => cases h; exact start
  | cons call rest ih =>
    simp only [calls] at h
    cases hc : engine.call call with
    | error e => rw [hc] at h; cases h
    | ok outcome => rw [hc] at h; exact ih (next _ _ _ outcome.2 start hc) h

end PaperExecutionEngine

end CryptoTrading
