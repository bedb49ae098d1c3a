import CryptoTrading.Kit.Run
import CryptoTrading.Models
import Mathlib.Data.String.Basic

/-! The managed pipeline from a market event to durable state: what is ready for trading, and the ten
stages of an event, each of them a call of a service that is injected.  A call may return or raise,
and while it is awaited anything else may happen that does not need the lock. -/

namespace CryptoTrading

open Kit

/-! ### `pipeline_state.py` -/

inductive PipelineState
  | starting
  | warmup
  | ready
  | running
  | degraded
  | stopped
  deriving DecidableEq, Repr

/-- What is known of each symbol.  The indicators are the upper-case names, and `regimes` the symbols
that have had a regime. -/
structure MarketReadiness where
  requiredCandles : ℕ := 200
  candleCounts : Dict String ℕ := .empty
  indicators : Dict String (List String) := .empty
  regimes : List String := []
  deriving DecidableEq

namespace MarketReadiness

/-- `observe`, of indicators by their names. -/
def observe (readiness : MarketReadiness) (symbol : String) (indicators : List String)
    (regime : Option String) : MarketReadiness :=
  { readiness with
    candleCounts := readiness.candleCounts.set symbol
      ((readiness.candleCounts.get? symbol).getD 0 + 1)
    indicators := readiness.indicators.set symbol (indicators.map String.toUpper)
    regimes := if regime.isSome then readiness.regimes.insert symbol else readiness.regimes }

def isReady (readiness : MarketReadiness) (symbol : String) : Bool :=
  decide ((readiness.candleCounts.get? symbol).getD 0 ≥ readiness.requiredCandles) &&
    (["EMA", "RSI", "ATR"].all fun name =>
      decide (name ∈ (readiness.indicators.get? symbol).getD [])) &&
    decide (symbol ∈ readiness.regimes)

def allReady (readiness : MarketReadiness) (symbols : List String) : Bool :=
  !symbols.isEmpty && symbols.all readiness.isReady

end MarketReadiness

structure PipelineStateTracker where
  state : PipelineState := .starting
  readiness : MarketReadiness := {}
  lastSequences : Dict String ℤ := .empty
  deriving DecidableEq

namespace PipelineStateTracker

def lastSequence (tracker : PipelineStateTracker) (symbol : String) : ℤ :=
  (tracker.lastSequences.get? symbol).getD 0

def markProcessed (tracker : PipelineStateTracker) (symbol : String) (sequence : ℤ) :
    PipelineStateTracker :=
  { tracker with lastSequences := tracker.lastSequences.set symbol sequence }

end PipelineStateTracker

/-! ### `events.py` -/

inductive PipelineStatus
  | processed
  | ignored
  | warmup
  | failed
  deriving DecidableEq, Repr

/-- What fails the processing of an event. -/
inductive PipelineError
  /-- "pipeline dependency for {method} is not configured" -/
  | notConfigured (method : String)
  /-- "open candle is not processable" -/
  | openCandle
  | candle (error : CandleError)
  /-- What a service raises. -/
  | service (text : String)
  deriving DecidableEq

/-- A signal of the strategy, with its identities; `none` is an attribute that it does not have. -/
structure PipelineSignal where
  runId : Option String := none
  signalId : Option String := none
  deriving DecidableEq

/-- `riskDecision` is whether the decision is one of approval. -/
structure PipelineResult where
  status : PipelineStatus
  sequence : ℤ
  tradingReady : Bool
  signal : Option PipelineSignal := none
  riskDecision : Option Bool := none
  execution : Option String := none
  reason : Option PipelineError := none
  stages : List String := []
  runId : String := ""
  signalId : String := ""
  deriving DecidableEq

/-- What a market event is a duplicate by. -/
abbrev EventKey := String × ℤ

def MarketEvent.key (event : MarketEvent) : EventKey := (event.candle.symbol, event.sequence)

/-! ### `market_pipeline.py` -/

/-- The services that are configured; `onMarketEvent` is whether the execution engine has it. -/
structure PipelineServices where
  rawStore : Bool := true
  ddsTransformer : Bool := true
  indicatorService : Bool := true
  regimeService : Bool := true
  strategy : Bool := true
  riskEngine : Bool := true
  executionEngine : Bool := true
  onMarketEvent : Bool := true
  persistence : Bool := true
  riskEventStore : Bool := true
  martRefresh : Bool := false
  deriving DecidableEq

/-- The calls of services in the course of an event.  The last two are made once it has failed. -/
inductive ServiceCall
  | save
  | normalize
  | onMarketEvent
  | calculate
  | detect
  | evaluateStrategy
  | evaluateRisk
  | execute
  | recordRejection
  | persist
  | checkpoint
  | recordFailure (reason : PipelineError)
  | bestEffortCheckpoint (reason : PipelineError)
  deriving DecidableEq

namespace ServiceCall

def method : ServiceCall → String
  | save => "save"
  | normalize => "normalize"
  | onMarketEvent => "on_market_event"
  | calculate => "calculate"
  | detect => "detect"
  | evaluateStrategy => "evaluate"
  | evaluateRisk => "evaluate"
  | execute => "execute"
  | recordRejection => "record"
  | persist => "persist"
  | checkpoint => "checkpoint"
  | recordFailure _ => "record"
  | bestEffortCheckpoint _ => "checkpoint"

/-- The service that is called is there. -/
def providedBy (services : PipelineServices) : ServiceCall → Bool
  | save => services.rawStore
  | normalize => services.ddsTransformer
  | onMarketEvent => services.executionEngine && services.onMarketEvent
  | calculate => services.indicatorService
  | detect => services.regimeService
  | evaluateStrategy => services.strategy
  | evaluateRisk => services.riskEngine
  | execute => services.executionEngine
  | recordRejection => services.riskEventStore
  | persist => services.persistence
  | checkpoint => services.persistence
  | recordFailure _ => services.riskEventStore
  | bestEffortCheckpoint _ => services.persistence

end ServiceCall

/-- What a call returns.  With the end of `save` the clock is read, and with that of `checkpoint`
`mart_refresh` is called where it is due: `martError` is what it raises. -/
inductive Returned
  | nothing
  | saved (now : Datetime)
  | candle (candle : Candle)
  | indicators (names : List String)
  | regime (regime : Option String)
  | signal (signal : Option PipelineSignal)
  | decision (approved : Bool)
  | execution (result : String)
  | checkpointed (martError : Option String)
  deriving DecidableEq

/-- The local variables of `process_market_event`. -/
structure Processing where
  event : MarketEvent
  stages : List String := []
  candle : Option Candle := none
  indicators : List String := []
  regime : Option String := none
  signal : Option PipelineSignal := none
  riskDecision : Option Bool := none
  execution : Option String := none
  deriving DecidableEq

/-- What others see of the pipeline. -/
inductive PipelineEvent
  /-- A service is called in the course of a market event. -/
  | called (call : ServiceCall) (event : MarketEvent)
  | returned (call : ServiceCall) (event : MarketEvent)
  | raised (call : ServiceCall) (event : MarketEvent)
  /-- `process_market_event` returns. -/
  | finished (event : MarketEvent) (result : PipelineResult)
  /-- `stop` returns. -/
  | stopped
  deriving DecidableEq

/-- The call that is awaited by the event that has the lock. -/
structure InFlight where
  call : ServiceCall
  processing : Processing
  deriving DecidableEq

/-- `martPending` is whether the background task of the MART refresh is there and not done. -/
structure MarketPipeline where
  services : PipelineServices := {}
  runId : String
  symbols : List String := []
  tracker : PipelineStateTracker := {}
  martPending : Bool := false
  inFlight : Option InFlight := none
  deriving DecidableEq

/-- What the pipeline does until it awaits the next call, or is done with an event. -/
abbrev Segment := MarketPipeline × List PipelineEvent

namespace MarketPipeline

variable (pipeline : MarketPipeline)

/-- `is_trading_ready(symbol)`. -/
def isTradingReady (symbol : String) : Bool :=
  decide (pipeline.tracker.state = .ready) &&
    (decide (symbol = "") || pipeline.tracker.readiness.isReady symbol)

/-- `restore_checkpoint`. -/
def restoreCheckpoint (lastSequences : Dict String ℤ) : MarketPipeline :=
  let restored := lastSequences.entries.foldl (fun sequences entry =>
    sequences.set entry.1 entry.2) pipeline.tracker.lastSequences
  { pipeline with tracker := { pipeline.tracker with lastSequences := restored } }

/-- A service is called. -/
def await (processing : Processing) (call : ServiceCall) : Segment :=
  ({ pipeline with inFlight := some ⟨call, processing⟩ }, [.called call processing.event])

/-- `process_market_event` returns, and the lock is free. -/
def finish (event : MarketEvent) (result : PipelineResult) : Segment :=
  ({ pipeline with inFlight := none }, [.finished event result])

/-- The end of an event that has failed. -/
def finishFailed (processing : Processing) (reason : PipelineError) : Segment :=
  pipeline.finish processing.event
    { status := .failed, sequence := processing.event.sequence, tradingReady := false
      reason := some reason, stages := processing.stages, runId := pipeline.runId }

/-- `_best_effort_checkpoint`, and what follows. -/
def bestEffortCheckpoint (processing : Processing) (reason : PipelineError) : Segment :=
  if pipeline.services.persistence then pipeline.await processing (.bestEffortCheckpoint reason)
  else pipeline.finishFailed processing reason

def withState (state : PipelineState) : MarketPipeline :=
  { pipeline with tracker := { pipeline.tracker with state } }

/-- The `except` branch: the pipeline is degraded, and a risk event recorded. -/
def fail (processing : Processing) (reason : PipelineError) : Segment :=
  let degraded := pipeline.withState .degraded
  if pipeline.services.riskEventStore then degraded.await processing (.recordFailure reason)
  else degraded.bestEffortCheckpoint processing reason

/-- `_call` within the `try`. -/
def call (processing : Processing) (call : ServiceCall) : Segment :=
  if call.providedBy pipeline.services then pipeline.await processing call
  else pipeline.fail processing (.notConfigured call.method)

/-- `_call_optional(self.execution_engine, "on_market_event", event)`. -/
def callOnMarketEvent (processing : Processing) : Segment :=
  if ServiceCall.onMarketEvent.providedBy pipeline.services then
    pipeline.await processing .onMarketEvent
  else pipeline.call processing .calculate

/-- The readiness after the indicators and the regime of a candle. -/
def observe (processing : Processing) : MarketPipeline :=
  let symbols := pipeline.symbols.insert processing.event.candle.symbol
  let readiness := pipeline.tracker.readiness.observe processing.event.candle.symbol
    processing.indicators processing.regime
  { pipeline with
    symbols
    tracker := { pipeline.tracker with
      readiness, state := if readiness.allReady symbols then .ready else .warmup } }

/-- `replace(signal, run_id=self.run_id)`, of a signal whose `run_id` is empty. -/
def withRunId (signal : PipelineSignal) : PipelineSignal :=
  if signal.runId = some "" then { signal with runId := some pipeline.runId } else signal

/-- The result of an event that is processed. -/
def processedResult (processing : Processing) : PipelineResult :=
  let ready := pipeline.isTradingReady processing.event.candle.symbol
  { status := if ready then .processed else .warmup
    sequence := processing.event.sequence, tradingReady := ready, signal := processing.signal
    riskDecision := processing.riskDecision, execution := processing.execution
    stages := processing.stages, runId := pipeline.runId
    signalId := (processing.signal.bind PipelineSignal.signalId).getD "" }

/-- What follows the checkpoint: the event is marked, and the MART refresh scheduled. -/
def complete (processing : Processing) (martError : Option String) : Segment :=
  let processing := { processing with
    stages := processing.stages ++ ["PERSISTENCE", "CHECKPOINT"] }
  let tracker := pipeline.tracker.markProcessed processing.event.candle.symbol
    processing.event.sequence
  let marked := { pipeline with tracker }
  if pipeline.services.martRefresh && !pipeline.martPending then
    match martError with
    | some text => marked.fail processing (.service text)
    | none => { marked with martPending := true }.finish processing.event
        (marked.processedResult processing)
  else marked.finish processing.event (marked.processedResult processing)

/-- What follows a call that returns, or `none` for a value that is not of the call. -/
def resume (processing : Processing) : ServiceCall → Returned → Option Segment
  | .save, .saved now =>
    let processing := { processing with stages := processing.stages ++ ["RAW"] }
    if processing.event.candle.closeTime > now then pipeline.fail processing .openCandle
    else pipeline.call processing .normalize
  | .normalize, .candle candle =>
    match candle.validate with
    | .error error => pipeline.fail processing (.candle error)
    | .ok () => pipeline.callOnMarketEvent
        { processing with candle := some candle, stages := processing.stages ++ ["DDS"] }
  | .onMarketEvent, .nothing => pipeline.call processing .calculate
  | .calculate, .indicators indicators =>
    pipeline.call { processing with
      indicators, stages := processing.stages ++ ["INDICATORS"] } .detect
  | .detect, .regime regime =>
    let processing := { processing with regime, stages := processing.stages ++ ["REGIME"] }
    let observed := pipeline.observe processing
    if observed.isTradingReady processing.event.candle.symbol then
      observed.call processing .evaluateStrategy
    else observed.call processing .persist
  | .evaluateStrategy, .signal none =>
    pipeline.call { processing with stages := processing.stages ++ ["STRATEGY"] } .persist
  | .evaluateStrategy, .signal (some signal) =>
    pipeline.call { processing with
      signal := some (pipeline.withRunId signal)
      stages := processing.stages ++ ["STRATEGY"] } .evaluateRisk
  | .evaluateRisk, .decision approved =>
    let processing := { processing with
      riskDecision := some approved, stages := processing.stages ++ ["RISK"] }
    if approved then pipeline.call processing .execute
    else if pipeline.services.riskEventStore then pipeline.await processing .recordRejection
    else pipeline.call processing .persist
  | .execute, .execution result =>
    pipeline.call { processing with
      execution := some result, stages := processing.stages ++ ["EXECUTION"] } .persist
  | .recordRejection, .nothing => pipeline.call processing .persist
  | .persist, .nothing => pipeline.call processing .checkpoint
  | .checkpoint, .checkpointed martError => pipeline.complete processing martError
  | .recordFailure reason, .nothing => pipeline.bestEffortCheckpoint processing reason
  | .bestEffortCheckpoint reason, .nothing => pipeline.finishFailed processing reason
  | _, _ => none

/-- What follows a call that raises. -/
def recover (processing : Processing) (text : String) : ServiceCall → Segment
  | .recordRejection => pipeline.call processing .persist
  | .recordFailure reason => pipeline.bestEffortCheckpoint processing reason
  | .bestEffortCheckpoint reason => pipeline.finishFailed processing reason
  | _ => pipeline.fail processing (.service text)

/-- The event is a duplicate. -/
def ignores (event : MarketEvent) : Bool :=
  decide (event.sequence ≤ pipeline.tracker.lastSequence event.candle.symbol)

/-- `process_market_event` has the lock. -/
def processMarketEvent (event : MarketEvent) : Segment :=
  if pipeline.ignores event then
    pipeline.finish event
      { status := .ignored, sequence := event.sequence
        tradingReady := pipeline.isTradingReady event.candle.symbol }
  else pipeline.call { event } .save

end MarketPipeline

/-- What can happen next.  Between its submission and `lock` an event waits for the lock, and `stop` is
the end of a call of `stop`, when the MART task that it has waited for is done. -/
inductive PipelineStep
  | lock (event : MarketEvent)
  | returns (value : Returned)
  | raises (text : String)
  | stop
  | martEnds
  deriving DecidableEq

/-- A pipeline, and what has been seen of it. -/
structure PipelineHistory where
  pipeline : MarketPipeline
  events : List PipelineEvent := []
  deriving DecidableEq

namespace MarketPipeline

/-- What the pipeline does at a step, if the step can happen. -/
def step? (pipeline : MarketPipeline) : PipelineStep → Option Segment
  | .lock event =>
    if pipeline.inFlight.isSome then none else some (pipeline.processMarketEvent event)
  | .returns value =>
    pipeline.inFlight.bind fun awaited =>
      (pipeline.resume awaited.processing awaited.call value).map fun segment =>
        (segment.1, .returned awaited.call awaited.processing.event :: segment.2)
  | .raises text =>
    pipeline.inFlight.map fun awaited =>
      let segment := pipeline.recover awaited.processing text awaited.call
      (segment.1, .raised awaited.call awaited.processing.event :: segment.2)
  | .stop => some (pipeline.withState .stopped, [.stopped])
  | .martEnds => some ({ pipeline with martPending := false }, [])

end MarketPipeline

/-- A step of a pipeline, with what is seen of it. -/
def PipelineHistory.Step (before : PipelineHistory) (step : PipelineStep)
    (after : PipelineHistory) : Prop :=
  ∃ events, before.pipeline.step? step = some (after.pipeline, events) ∧
    after.events = before.events ++ events

end CryptoTrading
