import CryptoTrading.Kit.Dict
import CryptoTrading.Kit.Fallible
import CryptoTrading.Monitoring.RiskHealth
import CryptoTrading.Runtime.ApplicationRuns

/-! What a soak of the paper runtime is remembered by: the session, which ends once, and the metrics that
the runner has collected until then. -/

namespace CryptoTrading

open Kit Kit.Fallible

inductive SoakStatus
  | running
  | completed
  | failed
  | aborted
  deriving DecidableEq

/-- What a soak raises, or what is called in it. -/
inductive SoakError
  /-- "soak session is already finished" -/
  | alreadyFinished
  /-- "a finished session cannot remain RUNNING" -/
  | remainsRunning
  /-- "a failed session requires a failure reason" -/
  | withoutReason
  /-- "finished_at cannot precede started_at" -/
  | precedesStart
  /-- "candles_processed cannot be negative" -/
  | negativeCandles
  /-- "heartbeat sequence cannot move backwards" -/
  | sequenceBackwards
  /-- An exception with its text, which may be empty. -/
  | raised (text : String)
  /-- `asyncio.CancelledError`, which is no `Exception`. -/
  | cancelled
  deriving DecidableEq

/-- `str(exc)` -/
def SoakError.text : SoakError → String
  | alreadyFinished => "soak session is already finished"
  | remainsRunning => "a finished session cannot remain RUNNING"
  | withoutReason => "a failed session requires a failure reason"
  | precedesStart => "finished_at cannot precede started_at"
  | negativeCandles => "candles_processed cannot be negative"
  | sequenceBackwards => "heartbeat sequence cannot move backwards"
  | raised text => text
  | cancelled => ""

structure SoakSession where
  startedAt : Datetime
  finishedAt : Option Datetime := none
  status : SoakStatus := .running
  failureReason : Option String := none
  deriving DecidableEq

/-- `finish`, whose `finished_at` is there already when it is found to be too early. -/
def SoakSession.finish (status : SoakStatus) (reason : Option String) (moment : Datetime) :
    Fallible SoakError SoakSession Unit := do
  let session ← get
  if session.status ≠ .running then throw .alreadyFinished
  else if status = .running then throw .remainsRunning
  else if status = .failed ∧ reason.getD "" = "" then throw .withoutReason
  else
    set { session with finishedAt := some moment }
    if moment < session.startedAt then throw .precedesStart
    else modify fun session => { session with status, failureReason := reason }

structure RuntimeHealth where
  status : String
  sequence : ℤ
  deriving DecidableEq

structure PipelineHealthResult where
  status : PipelineHealthStatus
  tradingEnabled : Bool
  emergencyStop : Bool
  reason : Option String := none
  deriving DecidableEq

/-- `PipelineHealthMonitor.check`: `missing` are the required indicators without a value. -/
def PipelineHealthResult.check (missing : List String := []) (executionError : Option String := none)
    (pipelineError : Option String := none) : PipelineHealthResult :=
  match executionError, pipelineError with
  | some text, _ => ⟨.failed, false, true, some text⟩
  | none, some text => ⟨.failed, false, true, some text⟩
  | none, none =>
    if missing ≠ [] then ⟨.degraded, false, false, some ("Missing indicators: " ++ ", ".intercalate missing)⟩
    else { status := .ready, tradingEnabled := true, emergencyStop := false }

structure SoakMetrics where
  heartbeats : List RuntimeHealth := []
  lifecycle : List RuntimeState := []
  pipelineHealth : List (PipelineHealthStatus × Option String) := []
  counters : Dict String ℤ := .empty
  violations : List String := []
  runtimeCandlesObserved : ℤ := 0
  deriving DecidableEq

namespace SoakMetrics

variable (metrics : SoakMetrics)

/-- `counters.get(name, 0)` -/
def count (name : String) : ℤ := (metrics.counters.get? name).getD 0

def increment (name : String) (amount : ℤ := 1) : SoakMetrics :=
  { metrics with counters := metrics.counters.set name (metrics.count name + amount) }

/-- `record_runtime_progress`, with the candles that are new. -/
def recordRuntimeProgress (candlesProcessed : ℤ) : Except SoakError (SoakMetrics × ℤ) :=
  if candlesProcessed < 0 then .error .negativeCandles
  else
    let delta := max 0 (candlesProcessed - metrics.runtimeCandlesObserved)
    let counted :=
      if delta ≠ 0 then (metrics.increment "market_events" delta).increment "pipeline_events" delta
      else metrics
    .ok ({ counted with runtimeCandlesObserved := candlesProcessed }, delta)

def recordHeartbeat (snapshot : RuntimeHealth) : SoakMetrics :=
  let backwards := metrics.heartbeats.getLast?.any fun last => decide (snapshot.sequence < last.sequence)
  { metrics with
    heartbeats := metrics.heartbeats ++ [snapshot]
    violations := metrics.violations ++ if backwards then ["heartbeat sequence moved backwards"] else [] }

def recordLifecycle (states : List RuntimeState) : SoakMetrics :=
  { metrics with lifecycle := metrics.lifecycle ++ states }

def recordPipeline (result : PipelineHealthResult) : SoakMetrics :=
  { metrics with
    pipelineHealth := metrics.pipelineHealth ++ [(result.status, result.reason)]
    violations := metrics.violations ++
      if result.emergencyStop then [if result.reason.getD "" = "" then "pipeline failure" else result.reason.getD ""]
      else [] }

/-- `record_risk_status` -/
def recordRiskStatus (risk : RiskHealthResult) : SoakMetrics :=
  if risk.tradingEnabled then metrics else { metrics with violations := metrics.violations ++ risk.reasons }

/-! ### Counting -/

variable {metrics} {counted : SoakMetrics} {candlesProcessed delta : ℤ}

theorem count_increment (name other : String) (amount : ℤ) :
    (metrics.increment name amount).count other = metrics.count other + if name = other then amount else 0 := by
  unfold increment count
  rw [Dict.get?_set]
  split
  · subst_vars
    simp
  · simp

/-- The candles that are new are counted as events of the market and of the pipeline alike. -/
theorem count_recorded (h : metrics.recordRuntimeProgress candlesProcessed = .ok (counted, delta)) :
    0 ≤ candlesProcessed ∧ delta = max 0 (candlesProcessed - metrics.runtimeCandlesObserved) ∧
      counted.runtimeCandlesObserved = candlesProcessed ∧
      counted.count "market_events" = metrics.count "market_events" + delta ∧
      counted.count "pipeline_events" = metrics.count "pipeline_events" + delta := by
  unfold recordRuntimeProgress at h
  split at h
  · cases h
  · rename_i hnonneg
    cases h
    refine ⟨not_lt.mp hnonneg, rfl, rfl, ?_, ?_⟩
    all_goals
      change count (if _ then _ else _) _ = _
      split
      · simp [count_increment]
      · simp_all

theorem recorded_same (h : metrics.recordRuntimeProgress candlesProcessed = .ok (counted, delta)) :
    counted.heartbeats = metrics.heartbeats ∧ counted.lifecycle = metrics.lifecycle ∧
      counted.violations = metrics.violations := by
  unfold recordRuntimeProgress at h
  split at h
  · cases h
  · cases h
    dsimp only
    split <;> exact ⟨rfl, rfl, rfl⟩

end SoakMetrics

end CryptoTrading
