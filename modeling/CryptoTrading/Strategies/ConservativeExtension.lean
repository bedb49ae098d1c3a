import CryptoTrading.Backtest.Anonymity
import CryptoTrading.Strategies.PositionAudit
import CryptoTrading.Strategies.SoundEntries

/-! Breakout Retest v2 extends v1.  Two runs on the same input, one with each, go in lockstep until v2
closes a watch that has timed out: what they trade is the same, the names of the strategies and the
identities aside. -/

namespace CryptoTrading

open Kit Traced

/-- A strategy of the same parameters, with another name, version and identities. -/
def StrategyIdentity.renamed (strategy : StrategyIdentity) (name version : String)
    (newSignalId : Datetime → Identifier) : StrategyIdentity :=
  { name, newSignalId, config := { strategy.config with parametersVersion := version } }

/-- What a strategy fails with itself. -/
def FailsItself (error : BacktestError) : Prop := ∃ text, error = .strategy text

theorem not_failsItself_of_engines {error : BacktestError} (h : BacktestRun.Engines error) :
    ¬FailsItself error :=
  fun ⟨text, htext⟩ => h text htext

/-! ### The answers of the strategies -/

section Answers

variable (strategy : StrategyIdentity) (name version : String) (newSignalId : Datetime → Identifier)
  (candle : BacktestCandle StrategyIndicators) (indicators : StrategyIndicators)

/-- An answer without the strategy and the identity of its signal. -/
def anonymousAnswer {σ : Type} (answer : σ × Option Signal) : σ × Option Signal :=
  (answer.1, answer.2.map Signal.anonymous)

theorem baseOrder_renamed (capital : Decimal) (reason : String) (metadata : SignalMetadata) :
    ((strategy.renamed name version newSignalId).baseOrder candle indicators capital reason
        metadata).map Signal.anonymous =
      (strategy.baseOrder candle indicators capital reason metadata).map Signal.anonymous := by
  unfold StrategyIdentity.baseOrder StrategyIdentity.openSignal
  split <;> rfl

namespace TrendDCAState

variable (state : TrendDCAState) (position : PositionState)

theorem exitAtProfit_renamed :
    anonymousAnswer (state.exitAtProfit (strategy.renamed name version newSignalId) candle indicators
        position) =
      anonymousAnswer (state.exitAtProfit strategy candle indicators position) := by
  unfold exitAtProfit
  rw [show (strategy.renamed name version newSignalId).trail candle state.trailingHighs position =
    strategy.trail candle state.trailingHighs position from rfl]
  obtain ⟨trailingHighs, _ | trailingStop⟩ := strategy.trail candle state.trailingHighs position
  · dsimp only
    rw [show (strategy.renamed name version newSignalId).config.takeProfitPct =
      strategy.config.takeProfitPct from rfl]
    split <;> rfl
  · rfl

theorem shouldExit_renamed :
    anonymousAnswer (state.shouldExit (strategy.renamed name version newSignalId) candle indicators
        position) =
      anonymousAnswer (state.shouldExit strategy candle indicators position) := by
  unfold shouldExit
  rw [show (strategy.renamed name version newSignalId).config.maxHoldingPeriods =
    strategy.config.maxHoldingPeriods from rfl]
  split
  · rfl
  split
  · rfl
  · exact exitAtProfit_renamed strategy name version newSignalId candle indicators state position

end TrendDCAState

namespace BreakoutRetestState

variable (state : BreakoutRetestState)

theorem shouldEnter_renamed (entry : EntryState) :
    (state.shouldEnter (strategy.renamed name version newSignalId) candle indicators entry).map
        anonymousAnswer =
      (state.shouldEnter strategy candle indicators entry).map anonymousAnswer := by
  unfold shouldEnter
  cases (state.symbolState candle.symbol).advance candle indicators entry.hasPosition with
  | error error => rfl
  | ok advanced =>
    obtain ⟨symbolState, _ | breakout⟩ := advanced
    · rfl
    · have hsignal := baseOrder_renamed strategy name version newSignalId candle indicators
        entry.capital "Breakout retest held" { breakoutLevel := some breakout.breakoutLevel }
      cases hfirst : strategy.baseOrder candle indicators entry.capital "Breakout retest held"
          { breakoutLevel := some breakout.breakoutLevel } with
      | error error =>
        rw [hfirst] at hsignal
        have hsecond := map_eq_error_iff.mp hsignal
        simp only [bind, Except.bind, hfirst, hsecond]
      | ok bought =>
        rw [hfirst] at hsignal
        obtain ⟨renamed, hsecond, hsame⟩ := map_eq_ok_iff.mp hsignal
        simp only [bind, Except.bind, hfirst, hsecond, pure, Except.pure, Except.map, anonymousAnswer,
          Option.map_some, hsame]

theorem shouldExit_renamed (position : PositionState) :
    anonymousAnswer (state.shouldExit (strategy.renamed name version newSignalId) candle indicators
        position) =
      anonymousAnswer (state.shouldExit strategy candle indicators position) := by
  have hdca := state.dca.shouldExit_renamed strategy name version newSignalId candle indicators position
  simp only [anonymousAnswer, Prod.mk.injEq] at hdca
  simp only [shouldExit, anonymousAnswer, hdca]

end BreakoutRetestState

end Answers

/-! ### The runs -/

/-- A run of each strategy, on the same input. -/
structure SameInput (strategy : StrategyIdentity)
    (first : BacktestRun BreakoutRetestState StrategyIndicators)
    (second : BacktestRun BreakoutRetestV2State StrategyIndicators) : Prop where
  firstStrategy : first.strategy = .base (breakoutRetestStrategy strategy).base
  secondStrategy : ∃ name version newSignalId, second.strategy =
    .base (breakoutRetestV2Strategy (strategy.renamed name version newSignalId)).base
  firstState : first.initialState = {}
  secondState : second.initialState = {}
  candles : second.candles = first.candles
  indicatorProvider : second.indicatorProvider = first.indicatorProvider
  clock : second.clock = first.clock

/-- The engine without its signals, and without the strategies and the identities. -/
def BacktestEngine.trades (engine : BacktestEngine) : BacktestEngine :=
  { engine.anonymous with signals := [], uuids := 0 }

/-- The states of the runs differ in the names of the strategies and in the watches. -/
structure Lockstep (first : BacktestState BreakoutRetestState)
    (second : BacktestState BreakoutRetestV2State) : Prop where
  engine : second.engine.anonymous = first.engine.anonymous
  strategyState : second.strategyState.retest = first.strategyState
  pendingSignals : second.pendingSignals.map Signal.anonymous =
    first.pendingSignals.map Signal.anonymous
  peakEquity : second.peakEquity = first.peakEquity

/-- v2 has just emitted the close of a watch that has timed out. -/
def TimesOut (state : BacktestState BreakoutRetestV2State) : Prop :=
  ∃ signal ∈ state.pendingSignals, signal.reason = timeoutReason

/-- The states of the runs after a turn that begins in lockstep. -/
structure Turned (first : BacktestState BreakoutRetestState)
    (second : BacktestState BreakoutRetestV2State) : Prop where
  trades : second.engine.trades = first.engine.trades
  peakEquity : second.peakEquity = first.peakEquity
  lockstep : Lockstep first second ∨ TimesOut second

theorem Lockstep.turned {first : BacktestState BreakoutRetestState}
    {second : BacktestState BreakoutRetestV2State} (h : Lockstep first second) :
    Turned first second :=
  ⟨congrArg (fun engine => { engine with signals := [], uuids := 0 }) h.engine, h.peakEquity,
    Or.inl h⟩

/-! What the engines do alike. -/

section Engines

variable {fails : BacktestError → Prop} {first second : BacktestEngine}

/-- The outcomes of an event are the same without names and identities. -/
def SameOutcome (first second : Option Fill × BacktestEngine) : Prop :=
  second.1.map Fill.anonymous = first.1.map Fill.anonymous ∧
    second.2.anonymous = first.2.anonymous

theorem alike_perform (clock : ℕ → Datetime) {event event' : EngineEvent}
    (h : second.anonymous = first.anonymous) (hevent : event'.anonymous = event.anonymous) :
    Alike fails SameOutcome (first.perform clock event) (second.perform clock event') := by
  have hsame : (second.apply clock event').map (fun outcome =>
        (outcome.1.map Fill.anonymous, outcome.2.anonymous)) =
      (first.apply clock event).map fun outcome =>
        (outcome.1.map Fill.anonymous, outcome.2.anonymous) := by
    rw [← BacktestEngine.apply_anonymous, ← BacktestEngine.apply_anonymous, h, hevent]
  unfold BacktestEngine.perform
  cases hfirst : first.apply clock event with
  | error error =>
    rw [hfirst] at hsame
    rw [map_eq_error_iff.mp hsame]
    exact Or.inl rfl
  | ok outcome =>
    rw [hfirst] at hsame
    obtain ⟨outcome', hsecond, houtcome⟩ := map_eq_ok_iff.mp hsame
    rw [hsecond]
    exact ⟨congrArg Prod.fst houtcome, congrArg Prod.snd houtcome⟩

theorem portfolio_of_anonymous (h : second.anonymous = first.anonymous) :
    second.portfolio = first.portfolio := by
  show second.anonymous.portfolio = first.anonymous.portfolio
  rw [h]

theorem config_of_anonymous (h : second.anonymous = first.anonymous) :
    second.config = first.config := by
  show second.anonymous.config = first.anonymous.config
  rw [h]

variable {σ σ' ι : Type} {run : BacktestRun σ ι} {run' : BacktestRun σ' ι}

/-- A signal of the engine itself, on both engines. -/
theorem alike_processSignal (hclock : run'.clock = run.clock) (index : ℕ) (origin : OrderOrigin)
    {signal signal' : Signal} (timestamp : Datetime) (averageVolume : Option Decimal)
    (h : second.anonymous = first.anonymous) (hsignal : signal'.anonymous = signal.anonymous) :
    Alike fails SameOutcome (run.processSignal first index origin signal timestamp averageVolume)
      (run'.processSignal second index origin signal' timestamp averageVolume) := by
  unfold BacktestRun.processSignal
  rw [hclock]
  have hrecorded : (EngineEvent.signal index signal').anonymous =
      (EngineEvent.signal index signal).anonymous := congrArg (EngineEvent.signal index) hsignal
  have hprice : signal'.price = signal.price := by
    show signal'.anonymous.price = signal.anonymous.price
    rw [hsignal]
  refine (alike_perform run.clock h hrecorded).bind fun outcome outcome' houtcome => ?_
  refine alike_perform run.clock houtcome.2 ?_
  simp only [EngineEvent.anonymous, OrderCall.anonymous, hsignal, hprice]

theorem anonymous_closeSignal (run : BacktestRun σ ι) (run' : BacktestRun σ' ι)
    (first second : BacktestEngine) (symbol : String) (price quantity : Decimal) (timestamp : Datetime)
    (reason : String) :
    (run'.closeSignal second symbol price quantity timestamp reason).anonymous =
      (run.closeSignal first symbol price quantity timestamp reason).anonymous := rfl

theorem alike_executeLevels (hclock : run'.clock = run.clock) (hcandles : run'.candles = run.candles)
    (index : ℕ) (candle : BacktestCandle ι) (h : second.anonymous = first.anonymous) :
    Alike fails (fun closed closed' => closed'.1 = closed.1 ∧
        closed'.2.anonymous = closed.2.anonymous)
      (run.executeLevels index candle first) (run'.executeLevels index candle second) := by
  unfold BacktestRun.executeLevels
  rw [portfolio_of_anonymous h]
  refine alike_foldlM (List.forall₂_same.mpr fun event _ => rfl) ⟨rfl, h⟩ ?_
  rintro ⟨closed, engine⟩ ⟨closed', engine'⟩ event _ rfl ⟨hclosed, hengine⟩
  unfold BacktestRun.executeLevel
  dsimp only at hclosed hengine ⊢
  rw [portfolio_of_anonymous hengine, hcandles]
  cases engine.portfolio.getPosition event.symbol with
  | none => exact alike_pure ⟨hclosed, hengine⟩
  | some position =>
    dsimp only
    refine (alike_processSignal hclock index _ _ _ hengine
      (anonymous_closeSignal run run' engine engine' _ _ _ _ _)).bind fun outcome outcome' houtcome => ?_
    refine alike_pure ⟨?_, houtcome.2⟩
    have hfill := congrArg Option.isSome houtcome.1
    rw [Option.isSome_map, Option.isSome_map] at hfill
    rw [hfill, hclosed]

theorem alike_liquidate (hclock : run'.clock = run.clock) (hcandles : run'.candles = run.candles)
    (h : second.anonymous = first.anonymous) :
    Alike fails (fun engine engine' => engine'.anonymous = engine.anonymous)
      (run.liquidate first) (run'.liquidate second) := by
  unfold BacktestRun.liquidate
  rw [hcandles, portfolio_of_anonymous h, config_of_anonymous h]
  split
  · refine alike_foldlM (List.forall₂_same.mpr fun entry _ => rfl) h ?_
    rintro engine engine' entry _ rfl hengine
    unfold BacktestRun.liquidatePosition
    rw [hcandles]
    refine (alike_processSignal hclock _ _ _ _ hengine
      (anonymous_closeSignal run run' engine engine' _ _ _ _ _)).bind fun outcome outcome' houtcome => ?_
    exact alike_pure houtcome.2
  · exact alike_pure h

end Engines

/-! What the strategies answer alike. -/

section Calls

variable {strategy : StrategyIdentity} {name version : String} {newSignalId : Datetime → Identifier}
  {candle : BacktestCandle StrategyIndicators} {indicators : StrategyIndicators}

theorem PositionManagement.startPosition_error {management : PositionManagement} {signal : Signal}
    {fill : Fill} {error : BacktestError} (h : management.startPosition signal fill = .error error) :
    FailsItself error := by
  unfold startPosition at h
  repeat' split at h
  all_goals cases h
  all_goals exact ⟨_, rfl⟩

theorem PositionManagement.manage_error {management : PositionManagement} {position : PositionState}
    {error : BacktestError}
    (h : management.manage strategy candle indicators position = .error error) :
    FailsItself error := by
  unfold manage at h
  split at h
  · cases h
    exact ⟨_, rfl⟩
  split at h
  · cases h
  · unfold manageNormal at h
    have hnormal := map_eq_error_iff.mp h
    repeat' split at hnormal
    all_goals cases hnormal
    all_goals exact ⟨_, rfl⟩
  · unfold manageWatch at h
    rcases bind_eq_error_iff.mp h with hrecovered | ⟨recovered, -, hrest⟩
    · unfold recovered at hrecovered
      repeat' split at hrecovered
      all_goals cases hrecovered
      all_goals exact ⟨_, rfl⟩
    · repeat' split at hrest
      all_goals cases hrest

theorem BreakoutRetestV2State.map_shouldEnter (state : BreakoutRetestV2State)
    (strategy : StrategyIdentity) (candle : BacktestCandle StrategyIndicators)
    (indicators : StrategyIndicators) (entry : EntryState) :
    (state.shouldEnter strategy candle indicators entry).map
        (fun answer => (answer.1.retest, answer.2)) =
      state.retest.shouldEnter strategy candle indicators entry := by
  unfold shouldEnter
  have hsettled : ∀ settled : BreakoutRetestV2State, settled.retest = state.retest →
      (settled.retest.shouldEnter strategy candle indicators entry >>= fun entered =>
        pure ({ settled with retest := entered.1 }, entered.2)).map
          (fun answer => (answer.1.retest, answer.2)) =
        state.retest.shouldEnter strategy candle indicators entry := by
    intro settled hretest
    rw [hretest]
    cases state.retest.shouldEnter strategy candle indicators entry <;> rfl
  exact hsettled _ (by split <;> rfl)

/-- The strategies answer alike: v2 does what v1 does, or it closes a watch that has timed out. -/
def SameAnswer (first : BreakoutRetestState × Option Signal)
    (second : BreakoutRetestV2State × Option Signal) : Prop :=
  anonymousAnswer (second.1.retest, second.2) = anonymousAnswer first ∨
    first.2 = none ∧ ∃ timeout, second.2 = some timeout ∧ timeout.reason = timeoutReason

theorem alike_shouldEnter {first : BreakoutRetestState} {second : BreakoutRetestV2State}
    (h : second.retest = first) (entry : EntryState) :
    Alike (τ := EngineEvent) FailsItself SameAnswer
      (lift (first.shouldEnter strategy candle indicators entry))
      (lift (second.shouldEnter (strategy.renamed name version newSignalId) candle indicators
        entry)) := by
  subst h
  have hsame := (congrArg (Except.map anonymousAnswer) (second.map_shouldEnter
    (strategy.renamed name version newSignalId) candle indicators entry)).trans
      (second.retest.shouldEnter_renamed strategy name version newSignalId candle indicators entry)
  cases hfirst : second.retest.shouldEnter strategy candle indicators entry with
  | error error =>
    rw [hfirst] at hsame
    rw [map_eq_error_iff.mp (map_eq_error_iff.mp hsame)]
    exact Or.inl rfl
  | ok answer =>
    rw [hfirst] at hsame
    obtain ⟨retest, hretest, hanswer⟩ := map_eq_ok_iff.mp hsame
    obtain ⟨answer', hsecond, rfl⟩ := map_eq_ok_iff.mp hretest
    rw [hsecond]
    exact Or.inl hanswer

theorem alike_manage {first : BreakoutRetestState} {second : BreakoutRetestV2State}
    (h : second.retest = first) (position : PositionState) :
    Alike (τ := EngineEvent) FailsItself SameAnswer
      (lift ((breakoutRetestStrategy strategy).manage first candle indicators position))
      (lift ((breakoutRetestV2Strategy (strategy.renamed name version newSignalId)).manage second
        candle indicators position)) := by
  subst h
  have hsame := second.retest.shouldExit_renamed strategy name version newSignalId candle indicators
    position
  simp only [SignalStrategy.manage, breakoutRetestStrategy, breakoutRetestV2Strategy,
    BreakoutRetestV2State.shouldExit]
  generalize second.retest.shouldExit strategy candle indicators position = exited at hsame ⊢
  generalize second.retest.shouldExit (strategy.renamed name version newSignalId) candle indicators
    position = exited' at hsame ⊢
  obtain ⟨state, exit⟩ := exited
  obtain ⟨state', exit'⟩ := exited'
  simp only [anonymousAnswer, Prod.mk.injEq] at hsame
  obtain ⟨rfl, hexit⟩ := hsame
  cases exit with
  | some signal =>
    obtain ⟨signal', rfl, hsignal⟩ := Option.map_eq_some_iff.mp hexit
    exact Or.inl (Prod.ext rfl (congrArg some hsignal))
  | none =>
    obtain rfl := Option.map_eq_none_iff.mp hexit
    cases hmanage : (second.management candle.symbol).manage
        (strategy.renamed name version newSignalId) candle indicators position with
    | error error => exact PositionManagement.manage_error hmanage
    | ok managed =>
      obtain ⟨management, _ | timeout⟩ := managed
      · exact Or.inl rfl
      · obtain ⟨watched, rfl⟩ := PositionManagement.manage_signal hmanage
        exact Or.inr ⟨rfl, _, rfl, rfl⟩

theorem alike_answer {first : BreakoutRetestState} {second : BreakoutRetestV2State}
    (h : second.retest = first) (portfolio : Portfolio) :
    Alike (τ := EngineEvent) FailsItself SameAnswer
      (lift (BacktestRun.answer (breakoutRetestStrategy strategy) candle indicators portfolio first))
      (lift (BacktestRun.answer
        (breakoutRetestV2Strategy (strategy.renamed name version newSignalId)) candle indicators
        portfolio second)) := by
  unfold BacktestRun.answer
  cases portfolio.getPosition candle.symbol with
  | none => exact alike_shouldEnter h _
  | some position =>
    dsimp only
    cases BacktestRun.positionState portfolio position with
    | error error => exact Or.inl rfl
    | ok shown => exact alike_manage h shown

end Calls

/-! A turn. -/

section Turn

variable {strategy : StrategyIdentity} {first : BacktestRun BreakoutRetestState StrategyIndicators}
  {second : BacktestRun BreakoutRetestV2State StrategyIndicators}
  {state : BacktestState BreakoutRetestState} {state' : BacktestState BreakoutRetestV2State}
  {index : ℕ} {candle : BacktestCandle StrategyIndicators}

theorem alike_notifyFill (h : SameInput strategy first second)
    (hstate : state'.strategyState.retest = state.strategyState) {signal signal' : Signal}
    (hsignal : signal'.anonymous = signal.anonymous) {fill fill' : Option Fill}
    (hfill : fill'.map Fill.anonymous = fill.map Fill.anonymous) :
    Alike (τ := EngineEvent) FailsItself (fun notified notified' => notified'.retest = notified)
      (lift (first.notifyFill state signal fill)) (lift (second.notifyFill state' signal' fill')) := by
  obtain ⟨name, version, newSignalId, hsecond⟩ := h.secondStrategy
  cases fill with
  | none =>
    obtain rfl := Option.map_eq_none_iff.mp hfill
    exact hstate
  | some fill =>
    obtain ⟨fill', rfl, hfill⟩ := Option.map_eq_some_iff.mp hfill
    have hretest : state.strategyState.onFill signal = state'.strategyState.retest.onFill signal' := by
      rw [hstate]
      show state.strategyState.onFill signal.anonymous = state.strategyState.onFill signal'.anonymous
      rw [hsignal]
    simp only [BacktestRun.notifyFill, h.firstStrategy, hsecond, SignalStrategy.base,
      breakoutRetestStrategy, breakoutRetestV2Strategy]
    cases hnotified : state'.strategyState.onFill signal' fill' with
    | ok notified =>
      exact (BreakoutRetestV2State.retest_onFill hnotified).trans hretest.symm
    | error error =>
      unfold BreakoutRetestV2State.onFill at hnotified
      dsimp only at hnotified
      split at hnotified
      · exact PositionManagement.startPosition_error (map_eq_error_iff.mp hnotified)
      · cases hnotified

theorem Lockstep.alike_executePending (hlock : Lockstep state state')
    (h : SameInput strategy first second) (index : ℕ) (candle : BacktestCandle StrategyIndicators) :
    Alike FailsItself Lockstep (first.executePending index candle state)
      (second.executePending index candle state') := by
  have hsignals : List.Forall₂ (fun signal signal' => signal'.anonymous = signal.anonymous)
      state.pendingSignals state'.pendingSignals := by
    rw [← List.forall₂_map_left_iff (R := fun signal signal' => Signal.anonymous signal' = signal),
      ← hlock.pendingSignals, List.forall₂_map_left_iff]
    exact List.forall₂_same.mpr fun signal _ => rfl
  refine alike_foldlM hsignals ⟨hlock.engine, hlock.strategyState, rfl, hlock.peakEquity⟩ ?_
  intro state state' signal signal' hsignal hlock
  have hcall : (EngineEvent.order {
        origin := .pending index, signal := signal', requestedPrice := candle.openPrice
        timestamp := candle.openTime
        averageVolume := averageCompletedVolume (second.candles.take index) signal'.symbol }).anonymous =
      (EngineEvent.order {
        origin := .pending index, signal, requestedPrice := candle.openPrice
        timestamp := candle.openTime
        averageVolume := averageCompletedVolume (first.candles.take index) signal.symbol }).anonymous := by
    have hsymbol : signal'.symbol = signal.symbol := by
      show signal'.anonymous.symbol = signal.anonymous.symbol
      rw [hsignal]
    simp only [EngineEvent.anonymous, OrderCall.anonymous, hsignal, hsymbol, h.candles]
  unfold BacktestRun.executePendingSignal
  rw [h.clock]
  refine (alike_perform first.clock hlock.engine hcall).bind fun outcome outcome' houtcome => ?_
  refine (alike_notifyFill h hlock.strategyState hsignal houtcome.1).bind
    fun notified notified' hnotified => ?_
  exact alike_pure ⟨houtcome.2, hnotified, hlock.pendingSignals, hlock.peakEquity⟩

theorem alike_queueSignal (hlock : Lockstep state state') (h : SameInput strategy first second)
    (index : ℕ) (candle : BacktestCandle StrategyIndicators) {signal signal' : Signal}
    (hsignal : signal'.anonymous = signal.anonymous) :
    Alike FailsItself Lockstep (first.queueSignal index candle state (.signal signal))
      (second.queueSignal index candle state' (.signal signal')) := by
  have hrecorded : (EngineEvent.signal index signal').anonymous =
      (EngineEvent.signal index signal).anonymous := congrArg (EngineEvent.signal index) hsignal
  simp only [BacktestRun.queueSignal, h.clock, normalizeSignal]
  refine Alike.bind (M := fun queued queued' => queued = signal ∧ queued' = signal') ⟨rfl, rfl⟩ ?_
  rintro signal signal' ⟨rfl, rfl⟩
  refine (alike_perform first.clock hlock.engine hrecorded).bind fun outcome outcome' houtcome => ?_
  refine alike_pure ⟨houtcome.2, hlock.strategyState, ?_, hlock.peakEquity⟩
  rw [List.map_append, List.map_append, hlock.pendingSignals, List.map_singleton, List.map_singleton,
    hsignal]

theorem alike_queueSignals (hlock : Lockstep state state') (h : SameInput strategy first second)
    (index : ℕ) (candle : BacktestCandle StrategyIndicators) (closedByLevel : Bool) :
    Alike FailsItself Turned (first.queueSignals index candle closedByLevel state)
      (second.queueSignals index candle closedByLevel state') := by
  obtain ⟨name, version, newSignalId, hsecond⟩ := h.secondStrategy
  have hindicators : second.indicators index candle = first.indicators index candle := by
    simp only [BacktestRun.indicators, h.indicatorProvider]
  unfold BacktestRun.queueSignals
  rw [hindicators]
  refine Alike.bind (M := Eq) ?_ ?_
  · cases first.indicators index candle with
    | error error => exact Or.inl rfl
    | ok indicators => exact rfl
  rintro indicators _ rfl
  refine Alike.bind (M := fun called called' => ∃ answer answer', SameAnswer answer answer' ∧
    called = asSignalList answer ∧ called' = asSignalList answer') ?_ ?_
  · cases closedByLevel with
    | true =>
      exact ⟨(state.strategyState, none), (state'.strategyState, none),
        Or.inl (Prod.ext hlock.strategyState rfl), rfl, rfl⟩
    | false =>
      simp only [Bool.false_eq_true, if_false, BacktestRun.strategySignals_eq h.firstStrategy,
        BacktestRun.strategySignals_eq hsecond, portfolio_of_anonymous hlock.engine]
      exact (alike_answer hlock.strategyState state.engine.portfolio).lift_map
        fun answer answer' hsame => ⟨answer, answer', hsame, rfl, rfl⟩
  · rintro _ _ ⟨⟨strategyState, answer⟩, ⟨strategyState', answer'⟩, hsame, rfl, rfl⟩
    rcases hsame with hsame | ⟨hnone, timeout, htimeout, hreason⟩
    · obtain ⟨hretest, hsignal⟩ := Prod.ext_iff.mp hsame
      have hlock' : Lockstep { state with strategyState } { state' with strategyState := strategyState' } :=
        ⟨hlock.engine, hretest, hlock.pendingSignals, hlock.peakEquity⟩
      cases answer with
      | none =>
        obtain rfl := Option.map_eq_none_iff.mp hsignal
        exact alike_pure hlock'.turned
      | some signal =>
        obtain ⟨signal', rfl, hown⟩ := Option.map_eq_some_iff.mp hsignal
        refine Alike.bind (alike_queueSignal hlock' h index candle hown) fun queued queued' hqueued => ?_
        exact alike_pure hqueued.turned
    · cases hnone
      cases htimeout
      have htrades := hlock.turned.trades
      have hturned : Turned { state with strategyState } { state' with
          engine := state'.engine.signaled timeout, strategyState := strategyState'
          pendingSignals := state'.pendingSignals ++ [timeout] } :=
        ⟨htrades, hlock.peakEquity,
          Or.inr ⟨timeout, List.mem_append_right _ List.mem_cons_self, hreason⟩⟩
      exact hturned

theorem Turned.alike_trackDrawdown (hturned : Turned state state') (h : SameInput strategy first second) :
    Alike FailsItself Turned (first.trackDrawdown state) (second.trackDrawdown state') := by
  have hportfolio : state'.engine.portfolio = state.engine.portfolio := by
    show state'.engine.trades.portfolio = state.engine.trades.portfolio
    rw [hturned.trades]
  unfold BacktestRun.trackDrawdown
  simp only [hportfolio, hturned.peakEquity, h.clock]
  split
  · exact Or.inl rfl
  · have hdrawn : ∀ share peak, Turned { state with engine := state.engine.drawn share, peakEquity := peak }
        { state' with engine := state'.engine.drawn share, peakEquity := peak } := by
      refine fun share peak => ⟨congrArg (BacktestEngine.drawn · share) hturned.trades, rfl, ?_⟩
      rcases hturned.lockstep with hlock | htimesOut
      · exact Or.inl ⟨congrArg (BacktestEngine.drawn · share) hlock.engine, hlock.strategyState,
          hlock.pendingSignals, rfl⟩
      · exact Or.inr htimesOut
    exact hdrawn _ _

/-- A turn that begins in lockstep. -/
theorem Lockstep.alike_turn (hlock : Lockstep state state') (h : SameInput strategy first second)
    (item : BacktestCandle StrategyIndicators × ℕ) :
    Alike FailsItself Turned (first.turn state item) (second.turn state' item) := by
  refine (hlock.alike_executePending h item.2 item.1).bind fun opened opened' hopened => ?_
  refine (alike_executeLevels h.clock h.candles item.2 item.1 hopened.engine).bind ?_
  rintro ⟨closedByLevel, engine⟩ ⟨closedByLevel', engine'⟩ ⟨hclosed, hengine⟩
  obtain rfl : closedByLevel' = closedByLevel := hclosed
  have hmarked : Alike FailsItself SameOutcome
      (engine.perform first.clock
        (.mark item.1.symbol item.1.close item.1.highPrice item.1.openTime))
      (engine'.perform second.clock
        (.mark item.1.symbol item.1.close item.1.highPrice item.1.openTime)) := by
    rw [h.clock]
    exact alike_perform first.clock hengine rfl
  refine hmarked.bind fun outcome outcome' houtcome => ?_
  have hlock' : Lockstep { opened with engine := outcome.2 } { opened' with engine := outcome'.2 } :=
    ⟨houtcome.2, hopened.strategyState, hopened.pendingSignals, hopened.peakEquity⟩
  exact (alike_queueSignals hlock' h item.2 item.1 closedByLevel').bind
    fun queued queued' hqueued => hqueued.alike_trackDrawdown h

end Turn

/-! The runs. -/

/-- v2 emits the close of a watch that has timed out in the turn of the candle at `index`. -/
def EmitsTimeout (run : BacktestRun BreakoutRetestV2State StrategyIndicators) (engine : BacktestEngine)
    (index : ℕ) : Prop :=
  ∃ state, (run.turns (index + 1) (run.start engine)).value? = some state ∧ TimesOut state

section Runs

variable {strategy : StrategyIdentity} {first : BacktestRun BreakoutRetestState StrategyIndicators}
  {second : BacktestRun BreakoutRetestV2State StrategyIndicators} {engine : BacktestEngine} {count : ℕ}

theorem lockstep_start (h : SameInput strategy first second) (engine : BacktestEngine) :
    Lockstep (first.start engine) (second.start engine) where
  engine := rfl
  strategyState := by
    show second.initialState.retest = first.initialState
    rw [h.firstState, h.secondState]
  pendingSignals := rfl
  peakEquity := rfl

theorem alike_turns_succ (h : SameInput strategy first second) (hcount : count < first.candles.length)
    (hturns : Alike FailsItself Lockstep (first.turns count (first.start engine))
      (second.turns count (second.start engine))) :
    Alike FailsItself Turned (first.turns (count + 1) (first.start engine))
      (second.turns (count + 1) (second.start engine)) := by
  have hcandle : first.candles[count]? = some first.candles[count] := List.getElem?_eq_getElem hcount
  have hcandle' : second.candles[count]? = some first.candles[count] := by rw [h.candles, hcandle]
  rw [first.turns_succ hcandle, second.turns_succ hcandle']
  exact hturns.bind fun state state' hlock => hlock.alike_turn h _

/-- The runs are in lockstep until a timeout. -/
theorem alike_turns (h : SameInput strategy first second) (hcount : count ≤ first.candles.length)
    (hquiet : ∀ index < count, ¬EmitsTimeout second engine index) :
    Alike FailsItself Lockstep (first.turns count (first.start engine))
      (second.turns count (second.start engine)) := by
  induction count with
  | zero => exact alike_pure (lockstep_start h engine)
  | succ count ih =>
    have hturns := ih (Nat.le_of_succ_le hcount) fun index hindex => hquiet index (by omega)
    refine (alike_turns_succ h hcount hturns).and_value.mono ?_
    rintro state state' ⟨hvalue, hstate⟩
    exact hstate.lockstep.resolve_right fun htimesOut =>
      hquiet count (by omega) ⟨state', hvalue, htimesOut⟩

theorem alike_execute (h : SameInput strategy first second)
    (hquiet : ∀ index < first.candles.length, ¬EmitsTimeout second engine index) :
    Alike FailsItself (fun ended ended' => ended'.anonymous = ended.anonymous)
      (first.execute engine) (second.execute engine) := by
  unfold BacktestRun.execute
  rw [h.candles]
  exact (alike_turns h le_rfl hquiet).bind fun state state' hlock =>
    alike_liquidate h.clock h.candles hlock.engine

/-- What a run of v2 raises is not the strategy's own. -/
theorem ensures_execute (h : SameInput strategy first second)
    (hhighs : ∀ candle ∈ first.candles, 0 < candle.highPrice)
    (hindicators : ∀ index candle, first.candles[index]? = some candle →
      ∃ indicators, first.indicators index candle = .ok indicators)
    (config : BacktestConfig) (riskEngine : RiskEngine) (draws : ℕ → Decimal) :
    (∀ count ≤ first.candles.length, Ensures BacktestRun.Engines (fun _ => True)
      (second.turns count (second.start (.new config riskEngine draws)))) ∧
    Ensures BacktestRun.Engines (fun _ => True) (second.execute (.new config riskEngine draws)) := by
  obtain ⟨name, version, newSignalId, hsecond⟩ := h.secondStrategy
  have hprovided : ∀ index candle, second.candles[index]? = some candle →
      ∃ indicators, second.indicators index candle = .ok indicators := by
    intro index candle hcandle
    obtain ⟨indicators, hgiven⟩ := hindicators index candle (h.candles ▸ hcandle)
    exact ⟨indicators, by simpa only [BacktestRun.indicators, h.indicatorProvider] using hgiven⟩
  have hturns : ∀ count ≤ first.candles.length, Ensures BacktestRun.Engines (fun _ => True)
      (second.turns count (second.start (.new config riskEngine draws))) := by
    intro count hcount
    exact (ensures_entersSoundly hsecond h.secondState (h.candles ▸ hhighs) hprovided config riskEngine
      draws (h.candles ▸ hcount)).mono (fun _ herror => herror) fun _ _ => trivial
  refine ⟨hturns, (hturns second.candles.length (by rw [h.candles])).bind fun state _ => ?_⟩
  exact (BacktestRun.ensures_liquidate state.engine).mono (fun _ herror => herror) fun _ _ => trivial

end Runs

/-- A run with v2 raises nothing of the strategy's own, and trades as the run with v1 on the same input
does: up to the turn that emits the first timeout, and to the end if none does. -/
theorem conservative_extension {strategy : StrategyIdentity}
    {first : BacktestRun BreakoutRetestState StrategyIndicators}
    {second : BacktestRun BreakoutRetestV2State StrategyIndicators} (h : SameInput strategy first second)
    (hhighs : ∀ candle ∈ first.candles, 0 < candle.highPrice)
    (hindicators : ∀ index candle, first.candles[index]? = some candle →
      ∃ indicators, first.indicators index candle = .ok indicators)
    (config : BacktestConfig) (riskEngine : RiskEngine) (draws : ℕ → Decimal) :
    let engine : BacktestEngine := .new config riskEngine draws
    (∀ text, second.execute engine ≠ .raised (.strategy text)) ∧
    ((∀ index < first.candles.length, ¬EmitsTimeout second engine index) →
      Alike (fun _ => False) (fun ended ended' => ended'.anonymous = ended.anonymous)
        (first.execute engine) (second.execute engine)) ∧
    ∀ count < first.candles.length, (∀ index < count, ¬EmitsTimeout second engine index) →
      Alike (fun _ => False) Lockstep (first.turns count (first.start engine))
        (second.turns count (second.start engine)) ∧
      Alike (fun _ => False) Turned (first.turns (count + 1) (first.start engine))
        (second.turns (count + 1) (second.start engine)) := by
  intro engine
  obtain ⟨hturns, hexecute⟩ := ensures_execute h hhighs hindicators config riskEngine draws
  refine ⟨fun text hraised => ?_, fun hquiet => ?_, fun count hcount hquiet => ⟨?_, ?_⟩⟩
  · rw [hraised] at hexecute
    exact hexecute text rfl
  · exact (alike_execute h hquiet).of_ensures hexecute fun _ => not_failsItself_of_engines
  · exact (alike_turns h hcount.le hquiet).of_ensures (hturns count hcount.le)
      fun _ => not_failsItself_of_engines
  · exact (alike_turns_succ h hcount (alike_turns h hcount.le hquiet)).of_ensures
      (hturns (count + 1) hcount) fun _ => not_failsItself_of_engines

/-- The run of v2 on the candles, under its own name and version. -/
def renamedV2Run (candles : List (BacktestCandle StrategyIndicators)) :
    BacktestRun BreakoutRetestV2State StrategyIndicators :=
  { retestV2Run candles with
    strategy := .base (breakoutRetestV2Strategy (retestIdentity.renamed "BreakoutRetestV2"
      "breakout_retest_v2" fun _ => .uuid 1)).base
    runId := "retest_v2" }

theorem not_emitsTimeout_of_all {run : BacktestRun BreakoutRetestV2State StrategyIndicators}
    {engine : BacktestEngine} {count : ℕ}
    (h : ((List.range count).all fun index =>
      (run.turns (index + 1) (run.start engine)).value?.all fun state =>
        state.pendingSignals.all fun signal => decide (signal.reason ≠ timeoutReason)) = true) :
    ∀ index < count, ¬EmitsTimeout run engine index := by
  rintro index hindex ⟨state, hvalue, signal, hsignal, hreason⟩
  have hstate := List.all_eq_true.mp h index (List.mem_range.mpr hindex)
  rw [hvalue, Option.all_some] at hstate
  exact of_decide_eq_true (List.all_eq_true.mp hstate signal hsignal) hreason

/-- The position that is bought at the retest and sold in `TREND_DOWN`, with either strategy. -/
theorem conservative_extension_exited : ∃ ended ended',
    ((retestRun exitedCandles).execute (.new {} {} fun _ => 0)).value? = some ended ∧
    ((renamedV2Run exitedCandles).execute (.new {} {} fun _ => 0)).value? = some ended' ∧
    ended.fills.map Fill.side = [.buy, .sell] ∧ ended'.anonymous = ended.anonymous := by
  obtain ⟨ended, hended, hfills⟩ := (Option.any_eq_true _ _).mp
    (show (((retestRun exitedCandles).execute (.new {} {} fun _ => 0)).value?.any fun ended =>
      decide (ended.fills.map Fill.side = [.buy, .sell])) = true by decide +kernel)
  have hsame : SameInput retestIdentity (retestRun exitedCandles) (renamedV2Run exitedCandles) :=
    ⟨rfl, ⟨_, _, _, rfl⟩, rfl, rfl, rfl, rfl, rfl⟩
  have halike := (conservative_extension hsame (by decide +kernel)
    (fun index candle _ => ⟨candle.indicators, rfl⟩) {} {} fun _ => 0).2.1
    (not_emitsTimeout_of_all (by decide +kernel))
  obtain ⟨ended', hended', hanonymous⟩ := halike.exists_value hended
  exact ⟨ended, ended', hended, hended', of_decide_eq_true hfills, hanonymous⟩

end CryptoTrading
