import CryptoTrading.Kit.Dict
import CryptoTrading.Kit.Fallible
import CryptoTrading.Runtime.PaperApplication

/-! The application from its start to the end of its shutdown, where any call that it awaits may raise.
`run` starts it, waits for the runtime's task or a signal, and in any case stops it; what the first call
that raises during the shutdown leaves undone stays undone. -/

namespace CryptoTrading

open Kit Kit.Fallible

/-- What `start` and `stop` call and await outside themselves. -/
inductive AppCall
  | close
  | restoreState
  | bootstrap
  | warmup
  | openSession
  | startPeriodic
  | reconcile
  | updateReconciliation
  /-- `update_reconciliation(False)`, when the reconciliation has raised. -/
  | rejectReconciliation
  | secondsUntilClose
  | beatRunning
  | notify
  | stopPeriodic
  | sessionCloseTask
  | runTask
  | checkpoint
  | pnlCheckpoint
  | closeSession
  | beatStopped
  deriving DecidableEq

inductive ApplicationError
  /-- "Paper application can only be started once" -/
  | startedOnce
  /-- "Paper runtime preflight failed: ..." -/
  | preflight (errors : List String)
  /-- "Invalid runtime transition: ..." -/
  | transition (previous target : RuntimeState)
  | raised (call : AppCall)
  deriving DecidableEq

/-- `_NEXT` -/
def RuntimeState.next : RuntimeState → List RuntimeState
  | created => [preflight, stopping]
  | preflight => [restoring, stopping]
  | restoring => [warmup, stopping]
  | warmup => [running, stopping]
  | running => [stopping]
  | stopping => [stopped]
  | stopped => []

/-- What an application is composed of: the optional parts that `dependencies` has, and what it asks of
the warmup. -/
structure Composition where
  symbols : List String
  warmupCandles : ℕ
  hasBootstrap : Bool := true
  hasSessionManager : Bool := true
  hasHealthCoordinator : Bool := true
  hasReconciler : Bool := true
  hasHeartbeat : Bool := true
  hasNotifier : Bool := true
  hasPnlCheckpoint : Bool := true

/-- What the calls of `start` answer, and which of them raise. -/
structure StartAnswers where
  preflight : StartupPreflight
  loads : LoadCall → Bool := fun _ => false
  raises : AppCall → Bool := fun _ => false
  available : Dict String ℕ
  /-- `session_manager.open()`, by the id of its session. -/
  session : Option String
  marketDataReady : Bool := true
  hasFatal : Bool := false
  closesToday : Bool := true

/-- `PaperApplication`, with the flag of its runtime and what it has called. -/
structure ApplicationProcess where
  state : RuntimeState := .created
  history : List RuntimeState := [.created]
  tradingEnabled : Bool := false
  runtimeTrading : Bool := true
  sessionId : Option String := none
  /-- `_run_task` has been created. -/
  runTask : Bool := false
  sessionCloseTask : Bool := false
  reconciliationOk : Option Bool := none
  /-- `runtime.stop()` has been called. -/
  runtimeStopped : Bool := false
  /-- `dependencies.close()` has returned. -/
  closed : Bool := false
  calls : List AppCall := []
  deriving DecidableEq

namespace ApplicationProcess

def called (process : ApplicationProcess) (calls : List AppCall) : ApplicationProcess :=
  { process with calls := process.calls ++ calls }

def turned (process : ApplicationProcess) (target : RuntimeState) : ApplicationProcess :=
  { process with state := target, history := process.history ++ [target] }

end ApplicationProcess

abbrev ApplicationM := Fallible ApplicationError ApplicationProcess

namespace ApplicationM

/-- `lifecycle.transition` -/
def transition (target : RuntimeState) : ApplicationM Unit := do
  let process ← get
  if target ∈ process.state.next then set (process.turned target)
  else throw (.transition process.state target)

/-- A call that may raise. -/
def attempt (raises : AppCall → Bool) (call : AppCall) : ApplicationM Unit := do
  modify (ApplicationProcess.called · [call])
  if raises call then throw (.raised call)

/-- What is done for a part that `dependencies` may lack. -/
def optionally (present : Bool) (x : ApplicationM Unit) : ApplicationM Unit :=
  if present then x else pure ()

/-- `await self.dependencies.close()` -/
def close (raises : AppCall → Bool) : ApplicationM Unit := do
  attempt raises .close
  modify fun process => { process with closed := true }

end ApplicationM

namespace Composition

variable (composition : Composition) (answers : StartAnswers)

open ApplicationM

/-- The symbols without enough candles, with those that are there. -/
def insufficient (available : Dict String ℕ) : Dict String ℕ :=
  (composition.symbols.filter fun symbol => decide (symbol ∉ available.keys)).foldl
    (fun counts symbol => counts.set symbol 0)
    (available.filter fun _ count => decide (count < composition.warmupCandles))

/-- The end of a start whose checks have failed. -/
def failPreflight (errors : List String) : ApplicationM Unit := do
  transition .stopping
  modify fun process => { process with tradingEnabled := false }
  close answers.raises
  transition .stopped
  throw (.preflight errors)

/-- Whether the bootstrap of the market data has worked. -/
def bootstrapped : ApplicationM Bool :=
  if composition.hasBootstrap then
    tryCatch (do attempt answers.raises .bootstrap; return true) fun _ => return false
  else return true

/-- `session_manager.open()` -/
def openedSession : ApplicationM (Option String) :=
  if composition.hasSessionManager then do
    attempt answers.raises .openSession
    return answers.session
  else return none

/-- From the restore of the state to the creation of the runtime's task. -/
def launch : ApplicationM Unit := do
  transition .restoring
  attempt answers.raises .restoreState
  transition .warmup
  let bootstrapOk ← composition.bootstrapped answers
  attempt answers.raises .warmup
  let session ← composition.openedSession answers
  let insideWindow := !composition.hasSessionManager || session.isSome
  let enabled := bootstrapOk && answers.marketDataReady &&
    (composition.insufficient answers.available).keys.isEmpty && insideWindow
  modify fun process =>
    { process with tradingEnabled := enabled, runtimeTrading := enabled, sessionId := session }
  transition .running
  modify fun process => { process with runTask := true }

/-- The initial reconciliation. -/
def reconciled : ApplicationM Unit :=
  tryCatch (do
    attempt answers.raises .reconcile
    attempt answers.raises .updateReconciliation
    modify fun process => { process with reconciliationOk := some !answers.hasFatal })
    fun _ => do
      attempt answers.raises .rejectReconciliation
      modify fun process => { process with reconciliationOk := some false }

/-- The delay until the close of the session, and the task that waits for it. -/
def scheduleClose : ApplicationM Unit := do
  attempt answers.raises .secondsUntilClose
  optionally answers.closesToday (modify fun process => { process with sessionCloseTask := true })

/-- The rest of `start`. -/
def announce : ApplicationM Unit := do
  optionally composition.hasHealthCoordinator (attempt answers.raises .startPeriodic)
  optionally composition.hasReconciler (reconciled answers)
  optionally composition.hasSessionManager (scheduleClose answers)
  optionally composition.hasHeartbeat (attempt answers.raises .beatRunning)
  optionally composition.hasNotifier (attempt answers.raises .notify)

def start : ApplicationM Unit := do
  let process ← get
  if process.state = .created then
    transition .preflight
    let errors := (answers.preflight.run answers.loads).2
    if errors = [] then
      composition.launch answers
      composition.announce answers
    else failPreflight answers errors
  else throw .startedOnce

/-- `stop`, whose lock lets one at a time in. -/
def stop (raises : AppCall → Bool) : ApplicationM Unit := do
  let process ← get
  if process.state = .stopped then return
  else
    optionally (process.state ≠ .stopping) (transition .stopping)
    modify fun process =>
      { process with tradingEnabled := false, runtimeTrading := false, runtimeStopped := true }
    optionally composition.hasHealthCoordinator (attempt raises .stopPeriodic)
    optionally process.sessionCloseTask (attempt raises .sessionCloseTask)
    attempt raises (if process.runTask then .runTask else .checkpoint)
    optionally composition.hasPnlCheckpoint (attempt raises .pnlCheckpoint)
    optionally composition.hasSessionManager (attempt raises .closeSession)
    transition .stopped
    optionally composition.hasHeartbeat (attempt raises .beatStopped)
    close raises

/-- What `run` does before its `finally`.  `taskEnds` says that the runtime's task is among what has
happened when the wait returns, and not a signal alone; a task that raises does so wherever it is awaited. -/
def serve (taskEnds : Bool) (raises : AppCall → Bool) : ApplicationM Unit := do
  composition.start answers
  optionally taskEnds (attempt raises .runTask)

def run (taskEnds : Bool) (raises : AppCall → Bool) : ApplicationM Unit :=
  andFinally (composition.serve answers taskEnds raises) (composition.stop raises)

end Composition

end CryptoTrading
