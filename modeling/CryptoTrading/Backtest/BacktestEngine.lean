import CryptoTrading.Backtest.OrderExecution
import CryptoTrading.Kit.Traced

/-! The run of a backtest: every candle first executes the signals of the candle before it at its
open, then the levels touched within it; the positions are marked at its close, and the strategy's
signals are queued for the next candle.  A run leaves a trace of the events that move the engine. -/

namespace CryptoTrading

open Kit

/-- A candle, as the engine is given it.  `ι` is the type of the indicators. -/
structure BacktestCandle (ι : Type) where
  symbol : String
  openTime : Datetime
  close : Decimal
  open_ : Option Decimal := none
  high : Option Decimal := none
  low : Option Decimal := none
  volume : Option Decimal := none
  indicators : ι

namespace BacktestCandle

variable {ι : Type} (candle : BacktestCandle ι)

/-- `candle.get("open", current_price)`. -/
def openPrice : Decimal := candle.open_.getD candle.close

def highPrice : Decimal := candle.high.getD candle.close

def lowPrice : Decimal := candle.low.getD candle.close

/-- The prices that levels are checked against. -/
def range : PriceRange := ⟨candle.openPrice, candle.highPrice, candle.lowPrice⟩

end BacktestCandle

/-- What a strategy may return as a signal. -/
inductive RawSignal
  | signal (signal : Signal)
  /-- A mapping, with the entries that it has. -/
  | mapping (action symbol : Option String) (price quantity : Option Decimal)
      (reason : Option String) (stopLoss takeProfit : Option Decimal)
      (strategy parametersVersion regime : Option String)
  /-- A value that is neither, or a mapping with an entry of the wrong type. -/
  | malformed

/-- The portfolio that `should_enter` is shown. -/
structure EntryState where
  hasPosition : Bool := false
  capital : Decimal
  availableBalance : Decimal

/-- The position that `should_exit` and `should_add_dca` are shown. -/
structure PositionState where
  symbol : String
  side : String
  entryPrice : Decimal
  quantity : Decimal
  unrealizedPnlPct : Decimal
  holdingPeriods : ℕ
  capital : Decimal
  highWaterMark : Option Decimal

/-- What a strategy call leaves: its state, and the signals that it returns, if any. -/
abbrev StrategyCall (σ : Type) := σ × Option (List RawSignal)

/-- A `BaseStrategy` with state `σ`.  Not every one has a `should_add_dca`. -/
structure BaseStrategy (σ ι : Type) where
  shouldEnter : σ → BacktestCandle ι → ι → EntryState → Except BacktestError (StrategyCall σ)
  shouldExit : σ → BacktestCandle ι → ι → PositionState → Except BacktestError (StrategyCall σ)
  shouldAddDca : Option (σ → BacktestCandle ι → ι → PositionState →
    Except BacktestError (StrategyCall σ)) := none
  onFill : σ → Signal → Fill → Except BacktestError σ := fun state _ _ => .ok state

/-- A strategy: a function of the candle, the portfolio and a state, or a `BaseStrategy`. -/
inductive BacktestStrategy (σ ι : Type)
  | legacy (call : σ → BacktestCandle ι → Portfolio → Except BacktestError (StrategyCall σ))
  | base (strategy : BaseStrategy σ ι)

abbrev IndicatorProvider (ι : Type) := BacktestCandle ι → ℕ → Except BacktestError ι

/-- `_average_completed_volume`, over the candles that are completed. -/
def averageCompletedVolume {ι : Type} (completed : List (BacktestCandle ι)) (symbol : String)
    (lookback : ℕ := 20) : Option Decimal :=
  let volumes := ((completed.reverse.filter fun candle => decide (candle.symbol = symbol)).filterMap
    fun candle => candle.volume.filter fun volume => decide (0 < volume)).take lookback
  if volumes.isEmpty then none else some (volumes.sum / volumes.length)

/-- `_normalize_signal`. -/
def normalizeSignal {ι : Type} (raw : RawSignal) (candle : BacktestCandle ι) (timestamp : Datetime)
    (runId : String) (signalId : Identifier) : Except BacktestError Signal :=
  match raw with
  | .signal signal => .ok signal
  | .mapping none _ _ _ _ _ _ _ _ _ => .error .malformedSignal
  | .mapping (some action) symbol price quantity reason stopLoss takeProfit strategy
      parametersVersion regime =>
    .ok {
      action, symbol := symbol.getD candle.symbol, price := price.getD candle.close
      quantity := quantity.getD 0, timestamp, reason := reason.getD "", stopLoss, takeProfit
      strategy := strategy.getD "", parametersVersion := parametersVersion.getD "", regime
      signalId, runId }
  | .malformed => .error .malformedSignal

/-! ### Events -/

/-- What moves the engine in the course of a run. -/
inductive EngineEvent
  /-- `self.signals.append(signal)`, in the turn of the candle at `index` or, past the last candle, in
  the liquidation. -/
  | signal (index : ℕ) (signal : Signal)
  | order (call : OrderCall)
  /-- The positions in a symbol are marked at a close, and the risk engine told of the equity. -/
  | mark (symbol : String) (close high : Decimal) (timestamp : Datetime)
  | drawdown (drawdown : Decimal)
  deriving DecidableEq

/-- What raises, or leaves a trace of events. -/
abbrev Backtest := Traced BacktestError EngineEvent

namespace BacktestEngine

/-- The engine after it records a signal.  The next signal has an identity of its own. -/
def signaled (engine : BacktestEngine) (signal : Signal) : BacktestEngine :=
  { engine with signals := engine.signals ++ [signal], uuids := engine.uuids + 1 }

def marked (engine : BacktestEngine) (symbol : String) (close high : Decimal)
    (timestamp : Datetime) : BacktestEngine :=
  let portfolio := engine.portfolio.updatePositions (Dict.empty.set symbol close) timestamp
    (Dict.empty.set symbol high)
  { engine with
    portfolio, riskEngine := engine.riskEngine.apply (.updateEquity portfolio.totalEquity) }

def drawn (engine : BacktestEngine) (drawdown : Decimal) : BacktestEngine :=
  { engine with portfolio := { engine.portfolio with
    maxDrawdown := max engine.portfolio.maxDrawdown drawdown } }

/-- The fill of an event, if any, and the engine after it. -/
def apply (engine : BacktestEngine) (clock : ℕ → Datetime) :
    EngineEvent → Except BacktestError (Option Fill × BacktestEngine)
  | .signal _ signal => .ok (none, engine.signaled signal)
  | .order call => engine.createAndExecuteOrder clock call
  | .mark symbol close high timestamp => .ok (none, engine.marked symbol close high timestamp)
  | .drawdown drawdown => .ok (none, engine.drawn drawdown)

/-- An event happens, and is left in the trace. -/
def perform (engine : BacktestEngine) (clock : ℕ → Datetime) (event : EngineEvent) :
    Backtest (Option Fill × BacktestEngine) :=
  match engine.apply clock event with
  | .error e => .raised e
  | .ok outcome => .returned outcome [event]

end BacktestEngine

/-! ### The run -/

/-- The variables of the loop of `run`. -/
structure BacktestState (σ : Type) where
  engine : BacktestEngine
  strategyState : σ
  pendingSignals : List Signal := []
  peakEquity : Decimal

/-- The arguments of `run`, with the readings of the clock that the risk checks make and the text of
the run's identity. -/
structure BacktestRun (σ ι : Type) where
  candles : List (BacktestCandle ι)
  strategy : BacktestStrategy σ ι
  initialState : σ
  indicatorProvider : Option (IndicatorProvider ι) := none
  clock : ℕ → Datetime
  runId : String

namespace BacktestRun

variable {σ ι : Type} (run : BacktestRun σ ι)

/-- `on_fill` of a fill, when there is one. -/
def notifyFill (state : BacktestState σ) (signal : Signal) : Option Fill → Except BacktestError σ
  | none => .ok state.strategyState
  | some fill =>
    match run.strategy with
    | .legacy _ => .ok state.strategyState
    | .base strategy => strategy.onFill state.strategyState signal fill

/-- The execution of one pending signal at the open of a candle. -/
def executePendingSignal (index : ℕ) (candle : BacktestCandle ι) (state : BacktestState σ)
    (signal : Signal) : Backtest (BacktestState σ) := do
  let (fill, engine) ← state.engine.perform run.clock (.order {
    origin := .pending index, signal, requestedPrice := candle.openPrice
    timestamp := candle.openTime
    averageVolume := averageCompletedVolume (run.candles.take index) signal.symbol })
  let strategyState ← Traced.lift (run.notifyFill state signal fill)
  return { state with engine, strategyState }

/-- The execution of the signals of the candle before. -/
def executePending (index : ℕ) (candle : BacktestCandle ι) (state : BacktestState σ) :
    Backtest (BacktestState σ) :=
  state.pendingSignals.foldlM (run.executePendingSignal index candle)
    { state with pendingSignals := [] }

/-- A signal of the engine itself to close a position. -/
def closeSignal (engine : BacktestEngine) (symbol : String) (price quantity : Decimal)
    (timestamp : Datetime) (reason : String) : Signal :=
  { action := "close", symbol, price, quantity, timestamp, reason, strategy := "backtest_engine"
    parametersVersion := "backtest_engine_v1", signalId := .uuid engine.uuids, runId := run.runId }

/-- `_process_signal`, for a signal of the engine. -/
def processSignal (engine : BacktestEngine) (index : ℕ) (origin : OrderOrigin) (signal : Signal)
    (timestamp : Datetime) (averageVolume : Option Decimal) :
    Backtest (Option Fill × BacktestEngine) := do
  let (_, engine) ← engine.perform run.clock (.signal index signal)
  engine.perform run.clock (.order {
    origin, signal, requestedPrice := signal.price, timestamp, averageVolume })

/-- The exit at a level that the candle touches, and whether it has closed a position. -/
def executeLevel (index : ℕ) (candle : BacktestCandle ι) (closedByLevel : Bool × BacktestEngine)
    (event : ExitLevelEvent) : Backtest (Bool × BacktestEngine) :=
  match closedByLevel.2.portfolio.getPosition event.symbol with
  | none => pure closedByLevel
  | some position => do
    let signal := run.closeSignal closedByLevel.2 event.symbol event.referencePrice
      position.quantity candle.openTime event.reason
    let (fill, engine) ← run.processSignal closedByLevel.2 index (.level index) signal
      candle.openTime (averageCompletedVolume (run.candles.take index) event.symbol)
    return (fill.isSome || closedByLevel.1, engine)

/-- The exits at the levels that the candle touches. -/
def executeLevels (index : ℕ) (candle : BacktestCandle ι) (engine : BacktestEngine) :
    Backtest (Bool × BacktestEngine) :=
  (engine.portfolio.checkIntrabarExits (Dict.empty.set candle.symbol candle.range)).foldlM
    (run.executeLevel index candle) (false, engine)

def indicators (index : ℕ) (candle : BacktestCandle ι) : Except BacktestError ι :=
  match run.indicatorProvider with
  | none => .ok candle.indicators
  | some provider => provider candle index

/-- The position that the strategy is shown; the pnl is a share of the entry price. -/
def positionState (portfolio : Portfolio) (position : Position) :
    Except BacktestError PositionState :=
  match position.currentPrice with
  | none => .ok ⟨position.symbol, position.side, position.entryPrice, position.quantity, 0,
      position.holdingPeriods, portfolio.totalEquity, position.highWaterMark⟩
  | some price =>
    if position.entryPrice = 0 then .error .divisionByZero
    else .ok ⟨position.symbol, position.side, position.entryPrice, position.quantity,
      (price - position.entryPrice) / position.entryPrice, position.holdingPeriods,
      portfolio.totalEquity, position.highWaterMark⟩

/-- `_strategy_signals`. -/
def strategySignals (candle : BacktestCandle ι) (indicators : ι) (portfolio : Portfolio)
    (state : σ) : Except BacktestError (StrategyCall σ) :=
  match run.strategy with
  | .legacy call => call state candle portfolio
  | .base strategy =>
    match portfolio.getPosition candle.symbol with
    | none => strategy.shouldEnter state candle indicators
        { capital := portfolio.totalEquity, availableBalance := portfolio.balance }
    | some position => do
      let shown ← positionState portfolio position
      let (state, exit) ← strategy.shouldExit state candle indicators shown
      match exit, strategy.shouldAddDca with
      | some signals, _ => .ok (state, some signals)
      | none, none => .ok (state, none)
      | none, some shouldAddDca => shouldAddDca state candle indicators shown

/-- A signal of the strategy is normalized, recorded and queued. -/
def queueSignal (index : ℕ) (candle : BacktestCandle ι) (state : BacktestState σ)
    (raw : RawSignal) : Backtest (BacktestState σ) := do
  let signal ← Traced.lift (normalizeSignal raw candle candle.openTime run.runId
    (.uuid state.engine.uuids))
  let (_, engine) ← state.engine.perform run.clock (.signal index signal)
  return { state with engine, pendingSignals := state.pendingSignals ++ [signal] }

/-- The strategy is asked for signals, unless a level has closed a position in this candle. -/
def queueSignals (index : ℕ) (candle : BacktestCandle ι) (closedByLevel : Bool)
    (state : BacktestState σ) : Backtest (BacktestState σ) := do
  let indicators ← Traced.lift (run.indicators index candle)
  let (strategyState, signals) ← Traced.lift
    (if closedByLevel then .ok (state.strategyState, none)
    else run.strategySignals candle indicators state.engine.portfolio state.strategyState)
  (signals.getD []).foldlM (run.queueSignal index candle) { state with strategyState }

/-- The drawdown is taken from the peak of the equity so far. -/
def trackDrawdown (state : BacktestState σ) : Backtest (BacktestState σ) :=
  let peak := max state.peakEquity state.engine.portfolio.totalEquity
  if peak = 0 then .raised .divisionByZero
  else do
    let (_, engine) ← state.engine.perform run.clock
      (.drawdown ((peak - state.engine.portfolio.totalEquity) / peak))
    return { state with engine, peakEquity := peak }

/-- What follows the execution of the pending signals. -/
def afterOpen (index : ℕ) (candle : BacktestCandle ι) (state : BacktestState σ) :
    Backtest (BacktestState σ) := do
  let (closedByLevel, engine) ← run.executeLevels index candle state.engine
  let (_, engine) ← engine.perform run.clock
    (.mark candle.symbol candle.close candle.highPrice candle.openTime)
  let state ← run.queueSignals index candle closedByLevel { state with engine }
  run.trackDrawdown state

/-- A turn of the loop. -/
def turn (state : BacktestState σ) (item : BacktestCandle ι × ℕ) : Backtest (BacktestState σ) := do
  let state ← run.executePending item.2 item.1 state
  run.afterOpen item.2 item.1 state

/-- The loop over the first `count` candles. -/
def turns (count : ℕ) (state : BacktestState σ) : Backtest (BacktestState σ) :=
  (run.candles.zipIdx.take count).foldlM run.turn state

/-- The liquidation of one position at the close of the last candle. -/
def liquidatePosition (last : BacktestCandle ι) (engine : BacktestEngine)
    (entry : String × Position) : Backtest BacktestEngine := do
  let signal := run.closeSignal engine entry.1 last.close entry.2.quantity last.openTime
    "End of backtest"
  let (_, engine) ← run.processSignal engine run.candles.length .liquidation signal last.openTime
    (averageCompletedVolume run.candles entry.1)
  return engine

/-- The end of the run: the positions still held are sold, unless the policy is to leave them. -/
def liquidate (engine : BacktestEngine) : Backtest BacktestEngine :=
  match run.candles.getLast?, engine.config.endPositionPolicy with
  | some last, .liquidate =>
    engine.portfolio.positions.entries.foldlM (run.liquidatePosition last) engine
  | _, _ => pure engine

/-- The state before the first candle. -/
def start (engine : BacktestEngine) : BacktestState σ :=
  { engine, strategyState := run.initialState, peakEquity := engine.config.initialBalance }

/-- `run`, up to the calculation of the results. -/
def execute (engine : BacktestEngine) : Backtest BacktestEngine := do
  let state ← run.turns run.candles.length (run.start engine)
  run.liquidate state.engine

end BacktestRun

/-! ### Results -/

structure BacktestResult where
  portfolio : Portfolio
  totalTrades : ℕ := 0
  winningTrades : ℕ := 0
  losingTrades : ℕ := 0
  totalPnl : Decimal := 0
  maxDrawdown : Decimal := 0
  winRate : Decimal := 0
  profitFactor : Decimal := 0
  averageTrade : Decimal := 0
  averageWin : Decimal := 0
  averageLoss : Decimal := 0
  maxConsecutiveLosses : ℕ := 0
  signals : List Signal := []
  riskDecisions : List RiskDecision := []
  orders : List Order := []
  fills : List Fill := []
  deriving DecidableEq

/-- The longest run of losses so far, and the current one. -/
def consecutiveLosses (counts : ℕ × ℕ) (pnl : Decimal) : ℕ × ℕ :=
  let current := if pnl ≤ 0 then counts.2 + 1 else 0
  (max counts.1 current, current)

/-- The sum of `values` over their number, and zero for none. -/
def averageOf (values : List Decimal) : Decimal :=
  if values.isEmpty then 0 else values.sum / values.length

/-- `_calculate_results`. -/
def BacktestEngine.calculateResults (engine : BacktestEngine) : BacktestResult :=
  let closeTrades := engine.portfolio.tradeHistory.filter TradeEntry.isClose
  let pnls := closeTrades.map TradeEntry.pnl
  let wins := pnls.filter fun pnl => decide (0 < pnl)
  let losses := pnls.filter fun pnl => decide (pnl ≤ 0)
  let grossLoss := (losses.map fun loss => |loss|).sum
  { portfolio := engine.portfolio
    totalTrades := closeTrades.length
    winningTrades := wins.length
    losingTrades := losses.length
    totalPnl := pnls.sum
    maxDrawdown := engine.portfolio.maxDrawdown
    winRate := if closeTrades.isEmpty then 0 else (wins.length : Decimal) / closeTrades.length
    profitFactor := if grossLoss > 0 then wins.sum / grossLoss else 0
    averageTrade := averageOf pnls
    averageWin := averageOf wins
    averageLoss := averageOf losses
    maxConsecutiveLosses := (pnls.foldl consecutiveLosses (0, 0)).1
    signals := engine.signals
    riskDecisions := engine.riskDecisions
    orders := engine.orders
    fills := engine.fills }

/-- `BacktestEngine.run`. -/
def BacktestRun.result {σ ι : Type} (run : BacktestRun σ ι) (engine : BacktestEngine) :
    Backtest BacktestResult := do
  let engine ← run.execute engine
  return engine.calculateResults

/-! ### Examples of candles and strategies -/

/-- A candle that stays at one price. -/
def flatCandle (symbol : String) (openTime : Datetime) (price : Decimal)
    (volume : Option Decimal := some 1000) : BacktestCandle Unit :=
  { symbol, openTime, close := price, open_ := some price, high := some price, low := some price
    volume, indicators := () }

/-- A strategy that buys after the candle that opens at the epoch. -/
def buyOnce (quantity : Decimal) : BacktestStrategy Unit Unit :=
  .legacy fun state candle _ => .ok (state, if candle.openTime = 0 then
    some [.mapping (some "buy") none none (some quantity) none none none none none none] else none)

end CryptoTrading
