import CryptoTrading.Monitoring.SoakEvidence
import CryptoTrading.Runtime.TradingGate

/-! The soak runner around an application.  It starts it, samples it until the end of the soak, and in any
case stops it and writes its report; the session that it returns tells how the soak has ended. -/

namespace CryptoTrading

open Kit Kit.Fallible

/-- How a task has come to its end. -/
inductive TaskEnd
  | returned
  | cancelled
  | failed (text : String)
  deriving DecidableEq

/-- `completed_runtime_error`, by its text, of a task that may not be done. -/
def completedRuntimeError : Option TaskEnd → Option String
  | none | some .returned => none
  | some .cancelled => some "paper runtime task was cancelled"
  | some (.failed text) => some text

def RuntimeState.name : RuntimeState → String
  | created => "CREATED"
  | preflight => "PREFLIGHT"
  | restoring => "RESTORING"
  | warmup => "WARMUP"
  | running => "RUNNING"
  | stopping => "STOPPING"
  | stopped => "STOPPED"

/-- `str(exc)`, where `text` is that of what a call raises. -/
def ApplicationError.text (text : AppCall → String) : ApplicationError → String
  | startedOnce => "Paper application can only be started once"
  | preflight errors => "Paper runtime preflight failed: " ++ "; ".intercalate errors
  | transition previous target => "Invalid runtime transition: " ++ previous.name ++ " -> " ++ target.name
  | raised call => text call

/-- What the runner meets in one pass of its loop. -/
structure SoakTurn where
  stopRequested : Bool := false
  /-- What the runtime's task has come to, if it is done. -/
  task : Option TaskEnd := none
  candlesProcessed : ℤ
  lastProcessedSequence : ℤ
  /-- What saving the heartbeat raises. -/
  save : Option SoakError := none
  riskEngine : RiskEngine
  /-- The runner is cancelled while it sleeps. -/
  cancelled : Bool := false
  /-- The trading session closes while the runner sleeps. -/
  sessionCloses : Bool := false

/-- A soak, with what it meets. -/
structure Soak where
  composition : Composition
  startedAt : Datetime
  start : StartAnswers
  /-- `last_checkpoint_sequence`, with which the start beats. -/
  startSequence : ℤ := 0
  /-- The passes before the end of the soak. -/
  turns : List SoakTurn
  /-- The calls of the shutdown that raise. -/
  raises : AppCall → Bool := fun _ => false
  text : AppCall → String := fun _ => ""
  /-- The clock, as the calls of `finish` read it one after the other. -/
  clock : ℕ → Datetime
  /-- `candles_processed` after the shutdown. -/
  candlesAfter : ℤ
  /-- What writing the report raises. -/
  write : Option SoakError := none

structure SoakProcess where
  session : SoakSession
  metrics : SoakMetrics := {}
  application : ApplicationProcess := {}
  /-- The sequence of the heartbeat. -/
  sequence : ℤ := 0
  eventSourceExhausted : Bool := false
  /-- How often `finish` has been called. -/
  finishes : ℕ := 0
  reports : List (SoakSession × SoakMetrics) := []

abbrev SoakM := Fallible SoakError SoakProcess

namespace SoakM

def record (f : SoakMetrics → SoakMetrics) : SoakM Unit :=
  modify fun process => { process with metrics := f process.metrics }

def progress (candlesProcessed : ℤ) : SoakM Unit := do
  let process ← get
  let counted ← MonadExcept.ofExcept (process.metrics.recordRuntimeProgress candlesProcessed)
  set { process with metrics := counted.1 }

/-- What the runner does about a task that is done. -/
def checkTask (task : Option TaskEnd) : SoakM Unit := do
  let process ← get
  if process.application.runTask ∧ task.isSome then
    match completedRuntimeError task with
    | some text => throw (.raised ("paper runtime stopped unexpectedly: " ++ text))
    | none =>
      if process.eventSourceExhausted then return
      else
        set { process with
          eventSourceExhausted := true, metrics := process.metrics.increment "event_source_exhausted" }
  else return

/-- `heartbeat.beat`, with the record of its snapshot. -/
def beat (item : SoakTurn) : SoakM Unit := do
  let process ← get
  if item.lastProcessedSequence < process.sequence then throw .sequenceBackwards
  else
    set { process with sequence := item.lastProcessedSequence }
    match item.save with
    | some error => throw error
    | none => record fun metrics => metrics.recordHeartbeat ⟨"RUNNING", item.lastProcessedSequence⟩

/-- `asyncio.sleep`, with what `_stop_at_session_close` does meanwhile. -/
def sleep (item : SoakTurn) : SoakM Unit :=
  if item.cancelled then throw .cancelled
  else if item.sessionCloses then
    modify fun process => { process with
      application := { process.application with
        tradingEnabled := false, runtimeTrading := false, runtimeStopped := true } }
  else return

end SoakM

namespace Soak

open SoakM

variable (soak : Soak)

/-- `session.finish` -/
def conclude (status : SoakStatus) (reason : Option String) : SoakM Unit := do
  let process ← get
  set { process with finishes := process.finishes + 1 }
  within SoakProcess.session (fun session process => { process with session }) id
    (SoakSession.finish status reason (soak.clock process.finishes))

/-- A call of the application. -/
def applied (x : ApplicationM Unit) : SoakM Unit :=
  within SoakProcess.application (fun application process => { process with application })
    (fun error => .raised (error.text soak.text)) x

def beats (item : SoakTurn) : SoakM Unit := if soak.composition.hasHeartbeat then beat item else return

def turn (item : SoakTurn) : SoakM Unit := do
  checkTask item.task
  progress item.candlesProcessed
  soak.beats item
  record fun metrics => metrics.recordPipeline .check
  record fun metrics => metrics.recordRiskStatus (RiskHealthMonitor.check item.riskEngine).toRiskHealthResult
  sleep item

def loop : List SoakTurn → SoakM Unit
  | [] => return
  | item :: rest =>
    if item.stopRequested then soak.conclude .aborted (some "termination signal received")
    else do
      soak.turn item
      loop rest

/-- What the runner does before its `except` clauses. -/
def serve : SoakM Unit := do
  soak.applied (soak.composition.start soak.start)
  modify fun process => { process with
    sequence := soak.startSequence, metrics := process.metrics.recordLifecycle process.application.history }
  soak.loop soak.turns
  let process ← get
  if process.session.status = .running then soak.conclude .completed none else return

/-- The session fails, if it is still running. -/
def fail (reason : String) : SoakM Unit := do
  let process ← get
  if process.session.status = .running then soak.conclude .failed (some reason) else return

/-- `serve` with the `except` clauses. -/
def guarded : SoakM Unit :=
  tryCatch soak.serve fun error =>
    if error = .cancelled then do
      soak.conclude .aborted (some "runner cancelled")
      throw .cancelled
    else do
      soak.fail error.text
      record fun metrics => metrics.increment "failures"

/-- The stop of the application, with the candles of the runtime until then. -/
def stop : SoakM Unit := do
  soak.applied (soak.composition.stop soak.raises)
  progress soak.candlesAfter

/-- `stop` with its `except` clause. -/
def halt : SoakM Unit :=
  tryCatch soak.stop fun error => do
      let process ← get
      let reason := "shutdown failed: " ++ error.text
      if process.session.status = .running then soak.conclude .failed (some reason)
      else if process.session.status = .completed then
        set { process with session := { process.session with status := .failed, failureReason := some reason } }
      else return

/-- The `finally` clause. -/
def shutDown : SoakM Unit := do
  soak.halt
  modify fun process => { process with
    metrics := process.metrics.recordLifecycle
      (process.application.history.drop process.metrics.lifecycle.length) }
  modify fun process => { process with reports := process.reports ++ [(process.session, process.metrics)] }
  match soak.write with
  | some error => throw error
  | none => return

/-- `run_soak`, from the session on. -/
def runSoak : SoakM SoakSession := do
  andFinally soak.guarded soak.shutDown
  return (← get).session

end Soak

end CryptoTrading
