import CryptoTrading.Backtest.Causality
import CryptoTrading.Backtest.OrderPricing
import CryptoTrading.Strategies.TrendDca

/-! What a strategy sees of a backtest.  A session is the strategy with the signal that it waits on and
the positions that it knows of only through its calls.  Every turn of the run is a turn of a session:
the signal is filled or not, a level may close the position behind the strategy's back, and otherwise
the strategy is called. -/

namespace CryptoTrading

open Kit

variable {σ ι : Type}

/-- The calls of a strategy for a position: the exit, and the safety order if there is none. -/
def SignalStrategy.manage (strategy : SignalStrategy σ ι) (state : σ) (candle : BacktestCandle ι)
    (indicators : ι) (position : PositionState) : Except BacktestError (σ × Option Signal) := do
  let (state, exit) ← strategy.shouldExit state candle indicators position
  match exit with
  | some signal => return (state, some signal)
  | none => strategy.shouldAddDca state candle indicators position

/-- `closed` counts the positions that have been closed. -/
structure StrategySession (σ : Type) where
  strategyState : σ
  held : String → Bool := fun _ => false
  closed : ℕ := 0
  pending : Option Signal := none

namespace StrategySession

variable (session : StrategySession σ)

/-- The pending signal is not filled. -/
def unfilled : StrategySession σ := { session with pending := none }

/-- The pending signal is filled, and the strategy notified. -/
def filled (symbol : String) (side : OrderSide) (strategyState : σ) : StrategySession σ where
  strategyState := strategyState
  held := Function.update session.held symbol (decide (side = .buy))
  closed := session.closed + if side = .sell then 1 else 0
  pending := none

/-- A level closes the position. -/
def stopped (symbol : String) : StrategySession σ :=
  { session with held := Function.update session.held symbol false, closed := session.closed + 1 }

/-- The strategy answers a call. -/
def called (answer : σ × Option Signal) : StrategySession σ :=
  { session with strategyState := answer.1, pending := answer.2 }

/-- The open of a candle: what becomes of the session, or what the strategy raises. -/
inductive Opens (strategy : SignalStrategy σ ι) (candle : BacktestCandle ι) (session : StrategySession σ) :
    Except BacktestError (StrategySession σ) → Prop
  | idle (idle : session.pending = none) : Opens strategy candle session (.ok session)
  | unfilled {signal : Signal} (pending : session.pending = some signal) :
      Opens strategy candle session (.ok session.unfilled)
  | filled {signal : Signal} {fill : Fill} (pending : session.pending = some signal)
      (side : (SignalAction.ofValue? signal.action).map SignalAction.side = some fill.side)
      (held : fill.side = .sell → session.held signal.symbol = true) :
      Opens strategy candle session ((strategy.onFill session.strategyState signal fill).map
        (session.filled signal.symbol fill.side))

/-- The levels of a candle in `symbol`: whether one closes the position. -/
inductive Levels (symbol : String) (session : StrategySession σ) : Bool × StrategySession σ → Prop
  | untouched : Levels symbol session (false, session)
  | closed (held : session.held symbol = true) :
      Levels symbol session (true, session.stopped symbol)

/-- The call of the strategy at the close of a candle, and the position that it is shown. -/
inductive Calls (strategy : SignalStrategy σ ι) (candle : BacktestCandle ι) (indicators : ι)
    (session : StrategySession σ) :
    Option PositionState → Except BacktestError (StrategySession σ) → Prop
  | entered {entry : EntryState} (flat : session.held candle.symbol = false)
      (noPosition : entry.hasPosition = false) :
      Calls strategy candle indicators session none
        ((strategy.shouldEnter session.strategyState candle indicators entry).map session.called)
  | managed {position : PositionState} (held : session.held candle.symbol = true) :
      Calls strategy candle indicators session (some position)
        ((strategy.manage session.strategyState candle indicators position).map session.called)

/-- The close of a candle.  The strategy is not called when a level has closed the position. -/
inductive Closes (strategy : SignalStrategy σ ι) (candle : BacktestCandle ι) (indicators : ι)
    (shown : Option PositionState) :
    Bool × StrategySession σ → Except BacktestError (StrategySession σ) → Prop
  | byLevel (session : StrategySession σ) :
      Closes strategy candle indicators shown (true, session) (.ok session)
  | byCall {session : StrategySession σ} {outcome : Except BacktestError (StrategySession σ)}
      (call : Calls strategy candle indicators session shown outcome) :
      Closes strategy candle indicators shown (false, session) outcome

/-- A turn: the open, the levels and the close of a candle. -/
structure Turn (strategy : SignalStrategy σ ι) (candle : BacktestCandle ι) (indicators : ι)
    (shown : Option PositionState) (session opened : StrategySession σ)
    (levelled : Bool × StrategySession σ) (after : StrategySession σ) : Prop where
  opens : Opens strategy candle session (.ok opened)
  idle : opened.pending = none
  levels : Levels candle.symbol opened levelled
  closes : Closes strategy candle indicators shown levelled (.ok after)

/-- What the strategy raises in a turn, or the indicators that it is to be called with. -/
inductive Raises (strategy : SignalStrategy σ ι) (candle : BacktestCandle ι)
    (indicators : Except BacktestError ι) (session : StrategySession σ) (error : BacktestError) : Prop
  | opening (opens : Opens strategy candle session (.error error))
  | provider (raised : indicators = .error error)
  | closing {opened : StrategySession σ} {levelled : Bool × StrategySession σ} {given : ι}
      {shown : Option PositionState} (opens : Opens strategy candle session (.ok opened))
      (idle : opened.pending = none) (levels : Levels candle.symbol opened levelled)
      (provided : indicators = .ok given)
      (closes : Closes strategy candle given shown levelled (.error error))

theorem Levels.pending {symbol : String} {session : StrategySession σ}
    {levelled : Bool × StrategySession σ} (h : Levels symbol session levelled) :
    levelled.2.pending = session.pending := by
  cases h <;> rfl

end StrategySession

/-- The run shows the session to the strategy. -/
structure Shows (state : BacktestState σ) (session : StrategySession σ) : Prop where
  strategyState : state.strategyState = session.strategyState
  held : ∀ symbol, (state.engine.portfolio.getPosition symbol).isSome = session.held symbol
  closed : state.engine.portfolio.closedPositions.length = session.closed
  pending : state.pendingSignals = session.pending.toList

/-! ### The engine -/

namespace BacktestEngine

variable {engine after : BacktestEngine} {clock : ℕ → Datetime} {call : OrderCall}
  {fill : Option Fill} {error : BacktestError}

theorem quote_ne_strategy {order : Order} {averageVolume : Option Decimal}
    (h : engine.quote clock order averageVolume = .error error) (text : String) :
    error ≠ .strategy text := by
  unfold BacktestEngine.quote at h
  split at h
  · cases h
    exact BacktestError.noConfusion
  · cases h

/-- The engine raises no error of the strategy. -/
theorem apply_ne_strategy {event : EngineEvent} (h : engine.apply clock event = .error error)
    (text : String) : error ≠ .strategy text := by
  cases event with
  | signal index signal => cases h
  | mark symbol close high timestamp => cases h
  | drawdown drawdown => cases h
  | order call =>
    simp only [apply, createAndExecuteOrder] at h
    split at h
    · cases h
      exact BacktestError.noConfusion
    split at h
    · cases h
    simp only [executeOrder] at h
    split at h
    · rename_i raised hassess
      cases h
      simp only [assess] at hassess
      split at hassess
      · rename_i e hquote
        cases hassess
        exact quote_ne_strategy hquote text
      · split at hassess
        · cases hassess
        · exact quote_ne_strategy hassess text
    · cases h

/-- What an order does to the positions. -/
inductive Moves (engine : BacktestEngine) (call : OrderCall) : Option Fill → BacktestEngine → Prop
  | unmoved {after : BacktestEngine} (portfolio : after.portfolio = engine.portfolio) :
      Moves engine call none after
  | filled {after : BacktestEngine} {fill : Fill}
      (side : (SignalAction.ofValue? call.signal.action).map SignalAction.side = some fill.side)
      (before : fill.side = .sell →
        (engine.portfolio.getPosition call.signal.symbol).isSome = true)
      (held : ∀ symbol, (after.portfolio.getPosition symbol).isSome =
        Function.update (fun symbol => (engine.portfolio.getPosition symbol).isSome)
          call.signal.symbol (decide (fill.side = .buy)) symbol)
      (closed : after.portfolio.closedPositions.length =
        engine.portfolio.closedPositions.length + if fill.side = .sell then 1 else 0) :
      Moves engine call (some fill) after

theorem Outcome.moves (h : Outcome engine clock call fill after) : Moves engine call fill after := by
  cases h with
  | noPosition _ _ => exact .unmoved rfl
  | rejected h _ => exact .unmoved h.portfolio
  | refused h _ _ _ => exact .unmoved h.portfolio
  | @bought order quote assessed h _ side _ =>
    have hfill : (assessed.fillOf order quote).side = .buy := side
    have hsymbol : (engine.opening order quote).symbol = call.signal.symbol := h.symbol
    refine .filled h.action ?_ (fun symbol => ?_) ?_
    · rw [hfill]
      exact fun hsell => by cases hsell
    · simp only [BacktestEngine.filled, Portfolio.getPosition, Portfolio.purchased, hsymbol,
        Dict.get?_set, Function.update_apply, eq_comm, hfill]
      split <;> simp
    · simp [hfill, filled, Portfolio.purchased]
  | @sold order quote assessed position h _ side held =>
    have hfill : (assessed.fillOf order quote).side = .sell := side
    refine .filled h.action (fun _ => by rw [held]; rfl) (fun symbol => ?_) ?_
    · simp only [BacktestEngine.filled, Portfolio.getPosition, Portfolio.sold, Dict.get?_erase,
        Function.update_apply, eq_comm, hfill]
      split <;> simp
    · simp [hfill, filled, Portfolio.sold]

theorem createAndExecuteOrder_moves (h : engine.createAndExecuteOrder clock call = .ok (fill, after)) :
    Moves engine call fill after :=
  (createAndExecuteOrder_outcome h).moves

/-- The positions are marked at the close of a candle. -/
def markedAt (engine : BacktestEngine) (candle : BacktestCandle ι) : BacktestEngine :=
  engine.marked candle.symbol candle.close candle.highPrice candle.openTime

theorem isSome_getPosition_marked (engine : BacktestEngine) (symbol marked : String)
    (close high : Decimal) (timestamp : Datetime) :
    ((engine.marked marked close high timestamp).portfolio.getPosition symbol).isSome =
      (engine.portfolio.getPosition symbol).isSome := by
  simp [BacktestEngine.marked, Portfolio.getPosition, Portfolio.updatePositions,
    Portfolio.get?_marked]

theorem isSome_getPosition_markedAt (engine : BacktestEngine) (candle : BacktestCandle ι)
    (symbol : String) : ((engine.markedAt candle).portfolio.getPosition symbol).isSome =
      (engine.portfolio.getPosition symbol).isSome :=
  engine.isSome_getPosition_marked symbol candle.symbol candle.close candle.highPrice candle.openTime

end BacktestEngine

/-! ### The run -/

namespace BacktestRun

open Traced

/-- The run up to the levels of candle `count`: whether one has closed the position, and the state in
which the strategy is called unless it has. -/
def throughLevels (run : BacktestRun σ ι) (count : ℕ) (engine : BacktestEngine) :
    Backtest (Bool × BacktestState σ) := do
  let opened ← run.throughOpen count engine
  match run.candles[count]? with
  | none => pure (false, opened)
  | some candle =>
    let (closedByLevel, engine) ← run.executeLevels count candle opened.engine
    return (closedByLevel, { opened with engine })

/-- What follows the levels of a candle. -/
def afterLevels (run : BacktestRun σ ι) (index : ℕ) (candle : BacktestCandle ι)
    (levels : Bool × BacktestState σ) : Backtest (BacktestState σ) := do
  let (_, engine) ← levels.2.engine.perform run.clock
    (.mark candle.symbol candle.close candle.highPrice candle.openTime)
  let state ← run.queueSignals index candle levels.1 { levels.2 with engine }
  run.trackDrawdown state

variable {run : BacktestRun σ ι} {engine : BacktestEngine}

theorem turns_succ_levels {count : ℕ} {candle : BacktestCandle ι}
    (h : run.candles[count]? = some candle) :
    run.turns (count + 1) (run.start engine) =
      run.throughLevels count engine >>= run.afterLevels count candle := by
  simp only [run.turns_succ h, throughLevels, throughOpen, h, bind_assoc]
  refine bind_congr fun state => ?_
  simp only [turn, afterOpen, afterLevels, pure_bind]

section Play

variable {strategy : SignalStrategy σ ι} {index : ℕ} {candle : BacktestCandle ι}
  {state : BacktestState σ} {session : StrategySession σ}

/-- What an engine raises is no error of the strategy. -/
def Engines (error : BacktestError) : Prop := ∀ text, error ≠ .strategy text

theorem engines_or (error : BacktestError) : Engines error ∨ ∃ text, error = .strategy text := by
  cases error with
  | strategy text => exact Or.inr ⟨text, rfl⟩
  | invalidAction action => exact Or.inl fun text => BacktestError.noConfusion
  | malformedSignal => exact Or.inl fun text => BacktestError.noConfusion
  | divisionByZero => exact Or.inl fun text => BacktestError.noConfusion

theorem ensures_perform {clock : ℕ → Datetime} (event : EngineEvent) :
    Ensures Engines (fun outcome => engine.apply clock event = .ok outcome)
      (engine.perform clock event) := by
  unfold BacktestEngine.perform
  cases happly : engine.apply clock event with
  | error error => exact BacktestEngine.apply_ne_strategy happly
  | ok outcome => exact rfl

theorem shows_start (run : BacktestRun σ ι) (config : BacktestConfig) (riskEngine : RiskEngine)
    (draws : ℕ → Decimal) :
    Shows (run.start (.new config riskEngine draws)) { strategyState := run.initialState } where
  strategyState := rfl
  held _ := rfl
  closed := rfl
  pending := rfl

/-- The state that is left by an order, and by the notification of the strategy. -/
theorem Shows.settled (candle : BacktestCandle ι) {order : OrderCall} {fill : Option Fill}
    {after : BacktestEngine}
    {signal : Signal} (hstrategy : run.strategy = .base strategy.base)
    (h : Shows state session) (hpending : session.pending = some signal)
    (hsignal : order.signal = signal)
    (hmoves : BacktestEngine.Moves state.engine order fill after) :
    ∃ outcome, StrategySession.Opens strategy candle session outcome ∧
      (∀ error, run.notifyFill state signal fill = .error error → outcome = .error error) ∧
      ∀ strategyState, run.notifyFill state signal fill = .ok strategyState →
        ∃ opened, outcome = .ok opened ∧ opened.pending = none ∧
          Shows { state with engine := after, strategyState, pendingSignals := [] } opened := by
  subst hsignal
  cases hmoves with
  | unmoved portfolio =>
    refine ⟨.ok session.unfilled, .unfilled hpending, fun _ herror => (nomatch herror), ?_⟩
    intro strategyState hok
    cases hok
    have hclosed : after.portfolio.closedPositions.length = session.closed := portfolio ▸ h.closed
    refine ⟨session.unfilled, rfl, rfl, h.strategyState, fun symbol => ?_, hclosed, rfl⟩
    exact portfolio ▸ h.held symbol
  | @filled _ fill side before held closed =>
    have hnotify : run.notifyFill state order.signal (some fill) =
        strategy.onFill session.strategyState order.signal fill := by
      simp only [notifyFill, hstrategy, h.strategyState]
      rfl
    have hsession : (fun symbol => (state.engine.portfolio.getPosition symbol).isSome) =
        session.held := funext h.held
    rw [hsession] at held
    refine ⟨_, .filled hpending side fun hsell => h.held _ ▸ before hsell, ?_, ?_⟩
    · intro error herror
      rw [← hnotify, herror]
      rfl
    · intro strategyState hok
      rw [← hnotify, hok]
      rw [h.closed] at closed
      exact ⟨session.filled order.signal.symbol fill.side strategyState, rfl, rfl, rfl, held, closed,
        rfl⟩

theorem ensures_executePending (hstrategy : run.strategy = .base strategy.base)
    (h : Shows state session) :
    Ensures (fun error => ∀ text, error = .strategy text →
        StrategySession.Opens strategy candle session (.error error))
      (fun opened => ∃ after, StrategySession.Opens strategy candle session (.ok after) ∧
        Shows opened after ∧ after.pending = none)
      (run.executePending index candle state) := by
  unfold executePending
  rw [h.pending]
  cases hpending : session.pending with
  | none =>
    refine ensures_pure ⟨session, .idle hpending, ?_, hpending⟩
    exact ⟨h.strategyState, h.held, h.closed, by rw [hpending]; rfl⟩
  | some signal =>
    rw [Option.toList_some, List.foldlM_cons]
    refine Ensures.bind ?_ fun opened hopened => ensures_pure hopened
    refine Ensures.bind ((ensures_perform _).mono (fun error herror text htext =>
      absurd htext (herror text)) fun outcome happly => happly) ?_
    rintro ⟨fill, after⟩ happly
    have hmoves := BacktestEngine.createAndExecuteOrder_moves happly
    obtain ⟨outcome, hopens, hraises, hreturns⟩ :=
      Shows.settled candle hstrategy h hpending rfl hmoves
    refine ensures_lift_bind (fun error herror text htext => ?_) fun strategyState hok => ?_
    · rwa [hraises error herror] at hopens
    · obtain ⟨opened, rfl, hnone, hshows⟩ := hreturns strategyState hok
      exact ensures_pure ⟨opened, hopens, hshows, hnone⟩

theorem ensures_processSignal (engine : BacktestEngine) (origin : OrderOrigin) (signal : Signal)
    (timestamp : Datetime) (averageVolume : Option Decimal) :
    Ensures Engines (fun outcome => BacktestEngine.Moves engine
        ⟨origin, signal, signal.price, timestamp, averageVolume⟩ outcome.1 outcome.2)
      (run.processSignal engine index origin signal timestamp averageVolume) := by
  refine Ensures.bind (ensures_perform _) fun recorded hrecorded => ?_
  cases hrecorded
  refine (ensures_perform _).mono (fun _ herror => herror) ?_
  rintro ⟨fill, after⟩ happly
  cases BacktestEngine.createAndExecuteOrder_moves happly with
  | unmoved portfolio => exact .unmoved portfolio
  | filled side before held closed => exact .filled side before held closed

/-- The liquidation opens no position. -/
theorem ensures_liquidate (engine : BacktestEngine) :
    Ensures Engines (fun ended => ∀ symbol, (ended.portfolio.getPosition symbol).isSome = true →
      (engine.portfolio.getPosition symbol).isSome = true) (run.liquidate engine) := by
  unfold liquidate
  split
  · refine ensures_foldlM (fun symbol hheld => hheld) fun liquidated entry _ hliquidated => ?_
    refine Ensures.bind (ensures_processSignal liquidated _ _ _ _) ?_
    rintro ⟨fill, after⟩ hmoves
    refine ensures_pure fun symbol hheld => hliquidated symbol ?_
    cases hmoves with
    | unmoved portfolio => exact portfolio ▸ hheld
    | @filled _ fill side _ held _ =>
      have hside : fill.side = .sell := (Option.some.inj side).symm
      rw [held, hside, Function.update_apply] at hheld
      split at hheld
      · exact absurd hheld (by decide)
      · exact hheld
  · exact ensures_pure fun symbol hheld => hheld

/-- A level closes the position in the candle's symbol, or none is closed. -/
theorem ensures_executeLevels (h : Shows state session) :
    Ensures Engines (fun closed => ∃ after,
        StrategySession.Levels candle.symbol session (closed.1, after) ∧
        Shows { state with engine := closed.2 } after)
      (run.executeLevels index candle state.engine) := by
  have huntouched : ∃ after, StrategySession.Levels candle.symbol session (false, after) ∧
      Shows { state with engine := state.engine } after :=
    ⟨session, .untouched, h⟩
  rw [executeLevels, Portfolio.checkIntrabarExits_single]
  cases hheld : state.engine.portfolio.getPosition candle.symbol with
  | none => exact ensures_pure huntouched
  | some position =>
    rw [Option.elim_some]
    split
    · exact ensures_pure huntouched
    cases hexit : Portfolio.exitEvent candle.symbol position candle.range with
    | none => exact ensures_pure huntouched
    | some event =>
      obtain ⟨hevent, -⟩ := Portfolio.exitEvent_level hexit
      rw [Option.toList_some, List.foldlM_cons]
      refine Ensures.bind ?_ fun closed hclosed => ensures_pure hclosed
      simp only [executeLevel, hevent, hheld]
      refine Ensures.bind (ensures_processSignal state.engine _ _ _ _) ?_
      rintro ⟨fill, after⟩ hmoves
      refine ensures_pure ?_
      cases hmoves with
      | unmoved portfolio =>
        exact ⟨session, .untouched, h.strategyState, fun symbol => portfolio ▸ h.held symbol,
          portfolio ▸ h.closed, h.pending⟩
      | @filled _ fill side before held closed =>
        have hside : fill.side = .sell := (Option.some.inj side).symm
        have hsession : (fun symbol => (state.engine.portfolio.getPosition symbol).isSome) =
            session.held := funext h.held
        rw [hside, h.closed] at closed
        rw [hside, hsession] at held
        exact ⟨session.stopped candle.symbol, .closed (h.held _ ▸ before hside), h.strategyState,
          held, closed, h.pending⟩

/-- The strategy is shown the position in the symbol. -/
def ShowsPosition (portfolio : Portfolio) (symbol : String) (shown : Option PositionState) : Prop :=
  ∀ position, shown = some position →
    ∃ held, portfolio.getPosition symbol = some held ∧ positionState portfolio held = .ok position

/-- What the strategy answers at the close of a candle. -/
def answer (strategy : SignalStrategy σ ι) (candle : BacktestCandle ι) (indicators : ι)
    (portfolio : Portfolio) (state : σ) : Except BacktestError (σ × Option Signal) :=
  match portfolio.getPosition candle.symbol with
  | none => strategy.shouldEnter state candle indicators
      { capital := portfolio.totalEquity, availableBalance := portfolio.balance }
  | some position => do
    let shown ← positionState portfolio position
    strategy.manage state candle indicators shown

theorem strategySignals_eq (hstrategy : run.strategy = .base strategy.base)
    (candle : BacktestCandle ι) (indicators : ι) (portfolio : Portfolio) (state : σ) :
    run.strategySignals candle indicators portfolio state =
      (answer strategy candle indicators portfolio state).map asSignalList := by
  simp only [strategySignals, answer, hstrategy]
  cases portfolio.getPosition candle.symbol with
  | none => rfl
  | some position =>
    dsimp only
    cases positionState portfolio position with
    | error error => rfl
    | ok shown =>
      simp only [SignalStrategy.manage, SignalStrategy.base]
      cases hexit : strategy.shouldExit state candle indicators shown with
      | error error => simp only [bind, Except.bind, Except.map, hexit]
      | ok answered =>
        obtain ⟨after, exit⟩ := answered
        cases exit <;> simp only [bind, Except.bind, Except.map, hexit] <;> rfl

/-- The call that the engine makes is a call of the session, if it is not refused by the engine. -/
theorem answer_calls (strategy : SignalStrategy σ ι) (h : Shows state session)
    (candle : BacktestCandle ι) (indicators : ι) :
    (∃ error, answer strategy candle indicators state.engine.portfolio state.strategyState =
      .error error ∧ Engines error) ∨
    ∃ shown, ShowsPosition state.engine.portfolio candle.symbol shown ∧
      StrategySession.Calls strategy candle indicators session shown
        ((answer strategy candle indicators state.engine.portfolio state.strategyState).map
          session.called) := by
  have hheld := h.held candle.symbol
  simp only [answer, h.strategyState]
  cases hposition : state.engine.portfolio.getPosition candle.symbol with
  | none =>
    rw [hposition] at hheld
    refine Or.inr ⟨none, ?_, .entered hheld.symm rfl⟩
    rintro position ⟨⟩
  | some position =>
    rw [hposition] at hheld
    dsimp only
    cases hshown : positionState state.engine.portfolio position with
    | error error =>
      refine Or.inl ⟨error, rfl, ?_⟩
      unfold positionState at hshown
      repeat' split at hshown
      all_goals cases hshown
      exact fun text => BacktestError.noConfusion
    | ok shown =>
      refine Or.inr ⟨some shown, ?_, .managed hheld.symm⟩
      rintro _ ⟨⟩
      exact ⟨position, hposition, hshown⟩

theorem ensures_queueSignal (hidle : state.pendingSignals = []) (h : Shows state session)
    (signal : Signal) :
    Ensures Engines (fun after => Shows after { session with pending := some signal })
      (run.queueSignal index candle state (.signal signal)) := by
  refine ensures_lift_bind (fun error herror => nomatch herror) fun normalized hok => ?_
  cases hok
  refine Ensures.bind (ensures_perform _) fun recorded hrecorded => ?_
  cases hrecorded
  exact ensures_pure ⟨h.strategyState, h.held, h.closed, by simp [hidle]⟩

theorem ensures_trackDrawdown (h : Shows state session) :
    Ensures Engines (fun after => Shows after session) (run.trackDrawdown state) := by
  unfold trackDrawdown
  dsimp only
  split
  · exact fun text => BacktestError.noConfusion
  · refine Ensures.bind (ensures_perform _) fun recorded hrecorded => ?_
    cases hrecorded
    exact ensures_pure ⟨h.strategyState, h.held, h.closed, h.pending⟩

/-- The close of a candle. -/
theorem ensures_afterLevels (hstrategy : run.strategy = .base strategy.base) (index : ℕ)
    (closedByLevel : Bool) (hidle : session.pending = none) (h : Shows state session) :
    Ensures (fun error => ∀ text, error = .strategy text → run.indicators index candle = .error error ∨
        ∃ indicators shown, run.indicators index candle = .ok indicators ∧
          StrategySession.Closes strategy candle indicators shown (closedByLevel, session)
            (.error error))
      (fun after => ∃ indicators shown called, run.indicators index candle = .ok indicators ∧
        ShowsPosition (state.engine.markedAt candle).portfolio candle.symbol shown ∧
        StrategySession.Closes strategy candle indicators shown (closedByLevel, session)
          (.ok called) ∧ Shows after called)
      (run.afterLevels index candle (closedByLevel, state)) := by
  have hengine : ∀ error : BacktestError, Engines error → ∀ text, error = .strategy text →
      run.indicators index candle = .error error ∨ ∃ indicators shown,
        run.indicators index candle = .ok indicators ∧
          StrategySession.Closes strategy candle indicators shown (closedByLevel, session)
            (.error error) :=
    fun error herror text htext => absurd htext (herror text)
  refine Ensures.bind ((ensures_perform _).mono hengine fun _ h => h) fun marked hmarked => ?_
  obtain rfl : (none, state.engine.markedAt candle) = marked := Except.ok.inj hmarked
  have hshows : Shows { state with engine := state.engine.markedAt candle } session :=
    ⟨h.strategyState, fun symbol =>
      (state.engine.isSome_getPosition_marked symbol _ _ _ _).trans (h.held symbol), h.closed,
      h.pending⟩
  refine Ensures.bind (M := fun after => ∃ indicators shown called,
    run.indicators index candle = .ok indicators ∧
      ShowsPosition (state.engine.markedAt candle).portfolio candle.symbol shown ∧
      StrategySession.Closes strategy candle indicators shown (closedByLevel, session) (.ok called) ∧
      Shows after called) ?_ ?_
  · refine ensures_lift_bind (fun error herror text _ => Or.inl herror) fun indicators hindicators => ?_
    have hpending := hshows.pending.trans (congrArg Option.toList hidle)
    cases closedByLevel with
    | true =>
      exact ensures_pure ⟨indicators, none, session, hindicators,
        fun position hposition => (nomatch hposition), .byLevel session, hshows⟩
    | false =>
      have hcalls := answer_calls strategy hshows candle indicators
      simp only [Bool.false_eq_true, if_false, strategySignals_eq hstrategy]
      cases hanswer : answer strategy candle indicators (state.engine.markedAt candle).portfolio
        state.strategyState with
      | error error =>
        rw [hanswer] at hcalls
        rcases hcalls with ⟨_, ⟨⟩, hraised⟩ | ⟨shown, -, hcall⟩
        · exact hengine error hraised
        · exact fun text htext => Or.inr ⟨indicators, shown, hindicators, .byCall hcall⟩
      | ok answer =>
        rw [hanswer] at hcalls
        rcases hcalls with ⟨_, ⟨⟩, -⟩ | ⟨shown, hshown, hcall⟩
        obtain ⟨strategyState, signal⟩ := answer
        have hclosed : StrategySession.Closes strategy candle indicators shown (false, session)
            (.ok (session.called (strategyState, signal))) := .byCall hcall
        have hanswered : Shows
            { state with engine := state.engine.markedAt candle, strategyState }
            { session with strategyState } :=
          ⟨rfl, hshows.held, hshows.closed, hshows.pending⟩
        refine ensures_lift_bind (fun error herror => nomatch herror) fun called hcalled => ?_
        cases hcalled
        cases signal with
        | none =>
          exact ensures_pure ⟨indicators, shown, _, hindicators, hshown, hclosed, rfl, hshows.held,
            hshows.closed, hpending⟩
        | some signal =>
          change Ensures _ _ ([RawSignal.signal signal].foldlM _ _)
          rw [List.foldlM_cons]
          refine Ensures.bind
            (M := fun queued => Shows queued (session.called (strategyState, some signal)))
            (Ensures.mono ?_ hengine fun _ h => h) fun queued hqueued => ?_
          · refine ensures_queueSignal ?_ hanswered signal
            exact hpending
          exact ensures_pure ⟨indicators, shown, _, hindicators, hshown, hclosed, hqueued⟩
  · rintro queued ⟨indicators, shown, called, hindicators, hshown, hcloses, hqueued⟩
    exact (ensures_trackDrawdown hqueued).mono hengine fun tracked htracked =>
      ⟨indicators, shown, called, hindicators, hshown, hcloses, htracked⟩

/-- A level closes the position in the candle at `index`. -/
def ClosesByLevel (run : BacktestRun σ ι) (engine : BacktestEngine) (index : ℕ) : Prop :=
  ∃ state, (run.throughLevels index engine).value? = some (true, state)

/-- The turn of the run at `index` is a turn of a session. -/
structure ShowsTurn (run : BacktestRun σ ι) (strategy : SignalStrategy σ ι) (engine : BacktestEngine)
    (index : ℕ) (candle : BacktestCandle ι) (indicators : ι) (shown : Option PositionState)
    (session opened : StrategySession σ) (levelled : Bool × StrategySession σ)
    (after : StrategySession σ) : Prop where
  own : run.candles[index]? = some candle
  provided : run.indicators index candle = .ok indicators
  turn : StrategySession.Turn strategy candle indicators shown session opened levelled after
  before : ∃ state, (run.turns index (run.start engine)).value? = some state ∧
    Shows state session
  opened : ∃ state, (run.throughOpen index engine).value? = some state ∧ Shows state opened
  levels : ∃ state, (run.throughLevels index engine).value? = some (levelled.1, state) ∧
    Shows state levelled.2 ∧
    ShowsPosition (state.engine.markedAt candle).portfolio candle.symbol shown
  after : ∃ state, (run.turns (index + 1) (run.start engine)).value? = some state ∧
    Shows state after

theorem ShowsTurn.closesByLevel_iff {indicators : ι} {shown : Option PositionState}
    {opened after : StrategySession σ} {levelled : Bool × StrategySession σ}
    (h : run.ShowsTurn strategy engine index candle indicators shown session opened levelled after) :
    run.ClosesByLevel engine index ↔ levelled.1 = true := by
  obtain ⟨state, hvalue, -⟩ := h.levels
  rw [ClosesByLevel, hvalue]
  constructor
  · rintro ⟨other, hother⟩
    exact congrArg Prod.fst (Option.some.inj hother)
  · exact fun htrue => ⟨state, congrArg some (Prod.ext htrue rfl)⟩

/-- The state in which the strategy is called shows what the open and the levels made of a session. -/
theorem shows_throughLevels (hstrategy : run.strategy = .base strategy.base)
    (hcandle : run.candles[index]? = some candle) {P : StrategySession σ → Prop}
    (hturns : ∀ before, (run.turns index (run.start engine)).value? = some before →
      ∃ session, Shows before session ∧ P session)
    {levels : Bool × BacktestState σ} (h : (run.throughLevels index engine).value? = some levels) :
    ∃ session opened after, P session ∧ StrategySession.Opens strategy candle session (.ok opened) ∧
      StrategySession.Levels candle.symbol opened (levels.1, after) ∧ Shows levels.2 after := by
  simp only [throughLevels, throughOpen, hcandle, value?_bind, Option.bind_eq_some_iff] at h
  obtain ⟨opened, ⟨before, hbefore, hopened⟩, closed, hclosed, hlevels⟩ := h
  obtain ⟨session, hshows, hkept⟩ := hturns before hbefore
  obtain ⟨after, hopens, hafter, -⟩ :=
    (ensures_executePending hstrategy hshows).value hopened
  obtain ⟨last, hlast, hshown⟩ := (ensures_executeLevels hafter).value hclosed
  cases hlevels
  exact ⟨session, after, last, hkept, hopens, hlast, hshown⟩

/-- What the turns of a run keep of a session, and what they raise. -/
structure KeptBySession (run : BacktestRun σ ι) (strategy : SignalStrategy σ ι)
    (engine : BacktestEngine) (fails : BacktestError → Prop) (P : ℕ → StrategySession σ → Prop) : Prop where
  start : P 0 { strategyState := run.initialState }
  turn : ∀ {index candle indicators shown session opened levelled after},
    run.ShowsTurn strategy engine index candle indicators shown session opened levelled after →
      P index session → P (index + 1) after
  raises : ∀ {index candle session error}, run.candles[index]? = some candle → P index session →
    StrategySession.Raises strategy candle (run.indicators index candle) session error → fails error
  engines : ∀ error, Engines error → fails error

/-- What a turn keeps holds after every turn of a run. -/
theorem ensures_turns (hstrategy : run.strategy = .base strategy.base) (config : BacktestConfig)
    (riskEngine : RiskEngine) (draws : ℕ → Decimal) {fails : BacktestError → Prop}
    {P : ℕ → StrategySession σ → Prop}
    (h : run.KeptBySession strategy (.new config riskEngine draws) fails P) {count : ℕ}
    (hcount : count ≤ run.candles.length) :
    Ensures fails (fun state => ∃ session, Shows state session ∧ P count session)
      (run.turns count (run.start (.new config riskEngine draws))) := by
  induction count with
  | zero => exact ensures_pure ⟨_, run.shows_start config riskEngine draws, h.start⟩
  | succ count ih =>
    obtain ⟨candle, hcandle⟩ : ∃ candle, run.candles[count]? = some candle :=
      ⟨_, List.getElem?_eq_getElem hcount⟩
    have hfails : ∀ session, P count session → ∀ error,
        (∀ text, error = .strategy text →
          StrategySession.Raises strategy candle (run.indicators count candle) session error) →
        fails error := by
      intro session hkept error hraises
      rcases engines_or error with hengine | ⟨text, htext⟩
      · exact h.engines error hengine
      · exact h.raises hcandle hkept (hraises text htext)
    rw [run.turns_succ hcandle]
    refine (ih (Nat.le_of_succ_le hcount)).and_value.bind ?_
    rintro before ⟨hbefore, session, hsession, hkept⟩
    refine (((ensures_executePending hstrategy hsession).mono (fun error herror => hfails session
      hkept error fun text htext => .opening (herror text htext)) fun _ h => h).and_value).bind ?_
    rintro openedState ⟨hopenedState, opened, hopens, hopened, hidle⟩
    have hthroughOpen : (run.throughOpen count (.new config riskEngine draws)).value? =
        some openedState := by
      simp only [throughOpen, value?_bind, hbefore, Option.bind_some, hcandle, hopenedState]
    refine (((ensures_executeLevels hopened).mono h.engines fun _ h => h).and_value).bind ?_
    rintro ⟨closedByLevel, engine⟩ ⟨hclosed, mid, hlevels, hmid⟩
    have hthroughLevels : (run.throughLevels count (.new config riskEngine draws)).value? =
        some (closedByLevel, { openedState with engine }) := by
      simp only [throughLevels, value?_bind, hthroughOpen, Option.bind_some, hcandle, hclosed]
      rfl
    have hafterLevels := ((ensures_afterLevels hstrategy count closedByLevel
      (hlevels.pending.trans hidle) hmid).mono (fun error herror => hfails session hkept error
        fun text htext => by
          rcases herror text htext with hprovider | ⟨indicators, shown, hindicators, hcloses⟩
          · exact .provider hprovider
          · exact .closing hopens hidle hlevels hindicators hcloses) fun _ h => h).and_value
    refine hafterLevels.mono (fun _ herror => herror) ?_
    rintro state ⟨hstate, indicators, shown, after, hindicators, hshown, hcloses, hafter⟩
    refine ⟨after, hafter, h.turn ⟨hcandle, hindicators, ⟨hopens, hidle, hlevels, hcloses⟩,
      ⟨before, hbefore, hsession⟩, ⟨openedState, hthroughOpen, hopened⟩,
      ⟨_, hthroughLevels, hmid, hshown⟩, ⟨state, ?_, hafter⟩⟩ hkept⟩
    rw [turns_succ_levels hcandle, value?_bind, hthroughLevels, Option.bind_some, hstate]

end Play

end BacktestRun

end CryptoTrading
