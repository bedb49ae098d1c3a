import CryptoTrading.Strategies.TrendPullbackConfirmation

/-! `v2_entry_funnel.py`: the trend pullback strategy with a record of what became of its setups.  The
reason for which a setup was cancelled is found out again from what the strategy was called with. -/

namespace CryptoTrading

open Kit

/-- The reasons of `_infer_cancel_reason`. -/
inductive CancelReason
  | regime
  | closeEma200
  | ema50Ema200
  | position
  | timeout
  | unknown
  deriving DecidableEq, Repr

/-- `FunnelTrace.event`. -/
inductive FunnelEvent
  | idleNoSetup
  | setupArmed
  | confirmed
  | cancelled (reason : CancelReason)
  | rsiCrossEma20VolBlock
  | rsiCrossNoEma20
  | rsiCrossConfirmationBlockUnknown
  | waiting
  deriving DecidableEq, Repr

/-- `SetupLifecycle.terminal_reason`. -/
inductive TerminalReason
  | confirmed
  | cancelled (reason : CancelReason)
  | openAtEnd
  deriving DecidableEq, Repr

structure FunnelTrace where
  timestamp : Datetime
  phaseBefore : PullbackPhase
  phaseAfter : PullbackPhase
  event : FunnelEvent
  cancelReason : Option CancelReason
  barsSinceSetupBefore : Option ℕ
  barsSinceSetupAfter : Option ℕ
  rsiCrossedUp : Bool
  closeAboveEma20 : Bool
  volatilityOk : Bool
  signalEmitted : Bool
  deriving DecidableEq

structure SetupLifecycle where
  setupTime : Datetime
  terminalTime : Datetime
  terminalReason : TerminalReason
  barsSinceSetup : ℕ
  confirmationTime : Option Datetime
  deriving DecidableEq

/-- The state of `InstrumentedTrendPullbackConfirmation`. -/
structure InstrumentedState where
  parent : PullbackState := {}
  traces : List FunnelTrace := []
  lifecycles : List SetupLifecycle := []
  activeSetupTime : Dict String Datetime := .empty
  baseFillCount : ℕ := 0
  deriving DecidableEq

/-- `_infer_cancel_reason`. -/
def inferCancelReason (candle : BacktestCandle StrategyIndicators) (indicators : StrategyIndicators)
    (hasPosition : Bool) (setupBefore : PullbackSetup) : CancelReason :=
  let nextBars := setupBefore.barsSinceSetup + 1
  if indicators.regime ≠ some trendUp then .regime
  else if indicators.ema200.any fun ema200 => decide (candle.close ≤ ema200) then .closeEma200
  else if indicators.ema50.any fun ema50 =>
      indicators.ema200.any fun ema200 => decide (ema50 ≤ ema200) then .ema50Ema200
  else if hasPosition then .position
  else if nextBars ≥ setupTimeoutBars then .timeout
  else .unknown

/-- What `should_enter` finds in the indicators before it asks the strategy. -/
structure FunnelSigns where
  crossedUp : Bool
  closeAboveEma20 : Bool
  volatilityOk : Bool
  deriving DecidableEq

def funnelSigns (before : PullbackSymbolState) (candle : BacktestCandle StrategyIndicators)
    (indicators : StrategyIndicators) : FunnelSigns where
  crossedUp := decide (before.phase = .pullbackArmed) &&
    (before.previousRsi.any fun previous => decide (previous ≤ 45)) &&
    indicators.rsi.any fun rsi => decide (rsi > 45)
  closeAboveEma20 := indicators.ema20.any fun ema20 => decide (candle.close > ema20)
  volatilityOk := indicators.volatility.all fun volatility => decide (volatility ≤ 8 / 10)

/-- The event of a setup that stays armed. -/
def FunnelSigns.armedEvent (signs : FunnelSigns) : FunnelEvent :=
  if signs.crossedUp && signs.closeAboveEma20 && !signs.volatilityOk then .rsiCrossEma20VolBlock
  else if signs.crossedUp && !signs.closeAboveEma20 then .rsiCrossNoEma20
  else if signs.crossedUp && signs.closeAboveEma20 then .rsiCrossConfirmationBlockUnknown
  else .waiting

namespace InstrumentedState

variable (state : InstrumentedState) (strategy : StrategyIdentity)
  (candle : BacktestCandle StrategyIndicators) (indicators : StrategyIndicators)

/-- The lifecycle of a setup that ends at a candle. -/
def endSetup (symbol : String) (lifecycle : SetupLifecycle) : InstrumentedState :=
  { state with
    lifecycles := state.lifecycles ++ [lifecycle]
    activeSetupTime := state.activeSetupTime.erase symbol }

/-- The event of a call, from the state of the symbol before and after it, with the setup times and
lifecycles that it leaves. -/
def observe (entry : EntryState) (before after : PullbackSymbolState) (signal : Option Signal) :
    Except BacktestError (InstrumentedState × FunnelEvent) :=
  let symbol := candle.symbol
  let timestamp := candle.openTime
  if before.phase = .idle ∧ after.phase = .pullbackArmed then
    .ok ({ state with activeSetupTime := state.activeSetupTime.set symbol timestamp }, .setupArmed)
  else if before.phase = .pullbackArmed ∧ signal.isSome then
    match (state.activeSetupTime.get? symbol).or (before.setup.map PullbackSetup.setupTime),
      before.setup with
    | none, _ => .error (.strategy "Confirmed setup has no recorded setup_time")
    | some _, none => .error (.strategy "'NoneType' object has no attribute 'get'")
    | some setupTime, some setupBefore =>
      .ok (state.endSetup symbol {
        setupTime, terminalTime := timestamp, terminalReason := .confirmed
        barsSinceSetup := setupBefore.barsSinceSetup + 1, confirmationTime := some timestamp },
        .confirmed)
  else if before.phase = .pullbackArmed ∧ after.phase = .idle then
    match before.setup with
    | none => .error (.strategy "Cancelled setup has no payload")
    | some setupBefore =>
      let cancelReason := inferCancelReason candle indicators entry.hasPosition setupBefore
      .ok (state.endSetup symbol {
        setupTime := (state.activeSetupTime.get? symbol).getD setupBefore.setupTime
        terminalTime := timestamp, terminalReason := .cancelled cancelReason
        barsSinceSetup := setupBefore.barsSinceSetup + 1, confirmationTime := none },
        .cancelled cancelReason)
  else if before.phase = .pullbackArmed then
    .ok (state, (funnelSigns before candle indicators).armedEvent)
  else .ok (state, .idleNoSetup)

/-- The trace of a call with an event. -/
def traceOf (before after : PullbackSymbolState) (signal : Option Signal) (event : FunnelEvent) :
    FunnelTrace :=
  let signs := funnelSigns before candle indicators
  { timestamp := candle.openTime, phaseBefore := before.phase, phaseAfter := after.phase, event
    cancelReason := match event with
      | .cancelled reason => some reason
      | _ => none
    barsSinceSetupBefore := before.setup.map PullbackSetup.barsSinceSetup
    barsSinceSetupAfter := after.setup.map PullbackSetup.barsSinceSetup
    rsiCrossedUp := signs.crossedUp, closeAboveEma20 := signs.closeAboveEma20
    volatilityOk := signs.volatilityOk, signalEmitted := signal.isSome }

/-- `InstrumentedTrendPullbackConfirmation.should_enter`. -/
def shouldEnter (entry : EntryState) : Except BacktestError (InstrumentedState × Option Signal) := do
  let before := state.parent.symbolState candle.symbol
  let (parent, signal) ← state.parent.shouldEnter strategy candle indicators entry
  let after := parent.symbolState candle.symbol
  let (observed, event) ← { state with parent }.observe candle indicators entry before after signal
  let trace := traceOf candle indicators before after signal event
  return ({ observed with traces := observed.traces ++ [trace] }, signal)

/-- `InstrumentedTrendPullbackConfirmation.on_fill`. -/
def onFill (signal : Signal) (fill : Fill) : InstrumentedState :=
  let filled := { state with parent := state.parent.onFill signal }
  if signal.reason = "Trend pullback recovery confirmed" ∧ fill.side = .buy then
    { filled with baseFillCount := filled.baseFillCount + 1 }
  else filled

/-- `finalize_open_setup`. -/
def finalizeOpenSetup (symbol : String) (terminalTime : Datetime) :
    Except BacktestError InstrumentedState :=
  let symbolState := state.parent.symbolState symbol
  if symbolState.phase ≠ .pullbackArmed then .ok state
  else
    match symbolState.setup with
    | none => .error (.strategy "Open setup has no payload")
    | some setup =>
      .ok (state.endSetup symbol {
        setupTime := (state.activeSetupTime.get? symbol).getD setup.setupTime
        terminalTime, terminalReason := .openAtEnd, barsSinceSetup := setup.barsSinceSetup
        confirmationTime := none })

end InstrumentedState

/-- `InstrumentedTrendPullbackConfirmation`. -/
def instrumentedTrendPullbackConfirmation (strategy : StrategyIdentity) :
    SignalStrategy InstrumentedState StrategyIndicators where
  shouldEnter state candle indicators entry := state.shouldEnter strategy candle indicators entry
  shouldExit state candle indicators position :=
    let (parent, signal) := state.parent.shouldExit strategy candle indicators position
    .ok ({ state with parent }, signal)
  shouldAddDca state candle indicators position := do
    let (parent, signal) ← state.parent.shouldAddDca strategy candle indicators position
    return ({ state with parent }, signal)
  onFill state signal fill := .ok (state.onFill signal fill)

/-- The counts of a `WindowFunnel`. -/
structure FunnelCounts where
  setupsArmed : ℕ
  confirmedSignals : ℕ
  confirmedFills : ℕ
  cancelledRegime : ℕ
  cancelledCloseEma200 : ℕ
  cancelledEma50Ema200 : ℕ
  cancelledPosition : ℕ
  cancelledTimeout : ℕ
  openAtEnd : ℕ
  rsiCrossesWhileArmed : ℕ
  rsiCrossesAboveEma20 : ℕ
  rsiCrossesBlockedVolatility : ℕ
  waitingEvaluations : ℕ
  deriving DecidableEq, Repr

/-- `_count_lifecycles`. -/
def countLifecycles (lifecycles : List SetupLifecycle) (reason : TerminalReason) : ℕ :=
  lifecycles.countP fun lifecycle => lifecycle.terminalReason = reason

/-- The traces of an event. -/
def countEvents (traces : List FunnelTrace) (event : FunnelEvent) : ℕ :=
  traces.countP fun trace => trace.event = event

/-- The counts of `_window_funnel`. -/
def windowFunnel (state : InstrumentedState) : FunnelCounts where
  setupsArmed := countEvents state.traces .setupArmed
  confirmedSignals := countEvents state.traces .confirmed
  confirmedFills := state.baseFillCount
  cancelledRegime := countLifecycles state.lifecycles (.cancelled .regime)
  cancelledCloseEma200 := countLifecycles state.lifecycles (.cancelled .closeEma200)
  cancelledEma50Ema200 := countLifecycles state.lifecycles (.cancelled .ema50Ema200)
  cancelledPosition := countLifecycles state.lifecycles (.cancelled .position)
  cancelledTimeout := countLifecycles state.lifecycles (.cancelled .timeout)
  openAtEnd := countLifecycles state.lifecycles .openAtEnd
  rsiCrossesWhileArmed := state.traces.countP FunnelTrace.rsiCrossedUp
  rsiCrossesAboveEma20 :=
    state.traces.countP fun trace => trace.rsiCrossedUp && trace.closeAboveEma20
  rsiCrossesBlockedVolatility := countEvents state.traces .rsiCrossEma20VolBlock
  waitingEvaluations := countEvents state.traces .waiting

/-! ### What a call does -/

/-- The end of a setup that an event is. -/
def FunnelEvent.terminal : FunnelEvent → Option TerminalReason
  | .confirmed => some .confirmed
  | .cancelled reason => some (.cancelled reason)
  | _ => none

theorem armedEvent_terminal (signs : FunnelSigns) : signs.armedEvent.terminal = none := by
  obtain ⟨crossedUp, closeAboveEma20, volatilityOk⟩ := signs
  cases crossedUp <;> cases closeAboveEma20 <;> cases volatilityOk <;> rfl

theorem armedEvent_ne (signs : FunnelSigns) : signs.armedEvent ≠ .setupArmed := by
  obtain ⟨crossedUp, closeAboveEma20, volatilityOk⟩ := signs
  cases crossedUp <;> cases closeAboveEma20 <;> cases volatilityOk <;> exact fun h => by cases h

/-- The reason is found for every setup that does not withstand a call. -/
theorem inferCancelReason_ne {call : EntryCall} {reading : PullbackReading} {setup : PullbackSetup}
    (hread : call.indicators.reading = some reading) (hcancels : ¬setup.Withstands call reading) :
    inferCancelReason call.candle call.indicators call.entry.hasPosition setup ≠ .unknown := by
  rw [reading_eq_some_iff] at hread
  rw [inferCancelReason, hread]
  simp only [Option.any_some, decide_eq_true_eq]
  split
  · rintro ⟨⟩
  rename_i hregime
  split
  · rintro ⟨⟩
  rename_i hclose
  split
  · rintro ⟨⟩
  rename_i hemas
  split
  · rintro ⟨⟩
  rename_i hflat
  split
  · rintro ⟨⟩
  rename_i hyoung
  have hup := Option.some_inj.mp (not_not.mp hregime)
  exact absurd ⟨hup, not_le.mp hclose, not_le.mp hemas, Bool.not_eq_true _ ▸ hflat,
    not_le.mp hyoung⟩ hcancels

/-- What a call that does not raise leaves of the record, and its event. -/
inductive FunnelRecorded (state : InstrumentedState) (call : EntryCall)
    (before after : PullbackSymbolState) : InstrumentedState × FunnelEvent → Prop
  | kept (event : FunnelEvent) (same : after.phase = before.phase)
      (payload : after.setup.isSome = before.setup.isSome) (goesOn : event.terminal = none)
      (noSetup : event ≠ .setupArmed) : FunnelRecorded state call before after (state, event)
  | armed (idle : before.phase = .idle) (armed : after.phase = .pullbackArmed)
      (payload : after.setup.isSome = true) :
      FunnelRecorded state call before after ({ state with
        activeSetupTime := state.activeSetupTime.set call.candle.symbol call.candle.openTime },
        .setupArmed)
  | ended (event : FunnelEvent) (lifecycle : SetupLifecycle) (armed : before.phase = .pullbackArmed)
      (idle : after.phase = .idle) (terminal : event.terminal = some lifecycle.terminalReason)
      (known : lifecycle.terminalReason ≠ .cancelled .unknown)
      (time : lifecycle.terminalTime = call.candle.openTime)
      (setup : ∀ timestamp, state.activeSetupTime.get? call.candle.symbol = some timestamp →
        lifecycle.setupTime = timestamp) :
      FunnelRecorded state call before after (state.endSetup call.candle.symbol lifecycle, event)

section Observe

variable (state : InstrumentedState) {call : EntryCall} {before after : PullbackSymbolState}
  {signal : Option Signal}

/-- A call without a signal that leaves the phase as it is. -/
theorem observe_kept (same : after.phase = before.phase)
    (payload : after.setup.isSome = before.setup.isSome) :
    ∃ result, state.observe call.candle call.indicators call.entry before after none = .ok result ∧
      FunnelRecorded state call before after result := by
  cases hphase : before.phase with
  | idle =>
    refine ⟨(state, .idleNoSetup), ?_, .kept _ same payload rfl (fun h => by cases h)⟩
    simp [InstrumentedState.observe, same, hphase]
  | pullbackArmed =>
    refine ⟨(state, (funnelSigns before call.candle call.indicators).armedEvent), ?_,
      .kept _ same payload (armedEvent_terminal _) (armedEvent_ne _)⟩
    simp [InstrumentedState.observe, same, hphase]

/-- A call that ends a setup without a signal has a reason to cancel it. -/
theorem observe_cancelled {reading : PullbackReading} {setup : PullbackSetup}
    (hread : call.indicators.reading = some reading) (harmed : before.phase = .pullbackArmed)
    (hheld : before.setup = some setup) (hidle : after.phase = .idle)
    (hcancels : ¬setup.Withstands call reading) :
    ∃ result, state.observe call.candle call.indicators call.entry before after none = .ok result ∧
      FunnelRecorded state call before after result := by
  have hknown := inferCancelReason_ne hread hcancels
  simp only [InstrumentedState.observe, harmed, hidle, hheld, reduceCtorEq, and_false,
    Option.isSome_none, Bool.false_eq_true, if_false, and_self, if_true]
  refine ⟨_, rfl, .ended _ _ harmed hidle rfl ?_ rfl fun timestamp htimestamp => ?_⟩
  · exact fun hunknown => hknown (TerminalReason.cancelled.inj hunknown)
  · rw [htimestamp, Option.getD_some]

/-- A call with a signal confirms the setup that was armed. -/
theorem observe_confirmed {signal : Signal} {setup : PullbackSetup}
    (harmed : before.phase = .pullbackArmed) (hheld : before.setup = some setup)
    (hidle : after.phase = .idle) :
    ∃ result, state.observe call.candle call.indicators call.entry before after (some signal) =
      .ok result ∧ FunnelRecorded state call before after result := by
  have hknown : TerminalReason.confirmed ≠ .cancelled .unknown := fun h => by cases h
  simp only [InstrumentedState.observe, harmed, hidle, hheld, reduceCtorEq,
    Option.isSome_some, if_false, and_self, if_true, Option.map_some]
  cases htime : state.activeSetupTime.get? call.candle.symbol with
  | none =>
    refine ⟨_, rfl, .ended .confirmed _ harmed hidle rfl hknown rfl fun timestamp htimestamp => ?_⟩
    cases htime.symm.trans htimestamp
  | some recorded =>
    refine ⟨_, rfl, .ended .confirmed _ harmed hidle rfl hknown rfl fun timestamp htimestamp => ?_⟩
    exact Option.some_inj.mp (htime.symm.trans htimestamp)

theorem observe_recorded (h : before.Called call after (.ok signal)) :
    ∃ result, state.observe call.candle call.indicators call.entry before after signal = .ok result ∧
      FunnelRecorded state call before after result := by
  cases h with
  | absent _ => exact observe_kept state rfl rfl
  | pulledBack read idle pulledBack =>
    cases pulledBack with
    | idle => exact observe_kept state rfl rfl
    | armed _ _ _ _ _ =>
      refine ⟨_, ?_, .armed idle rfl rfl⟩
      simp [InstrumentedState.observe, idle, PullbackSymbolState.armSetup]
  | unconfirmed read armed held outcome =>
    cases outcome with
    | cancelled cancels => exact observe_cancelled state read armed held rfl cancels
    | waits _ _ => exact observe_kept state rfl (by rw [held]; rfl)
  | signalled _ armed held outcome =>
    cases outcome with
    | confirmed _ _ => exact observe_confirmed state armed held rfl

end Observe

theorem PullbackSymbolState.Called.eq_raisedAt {before after : PullbackSymbolState}
    {call : EntryCall} {error : BacktestError}
    (h : before.Called call after (.error error)) : after = before.raisedAt call.indicators := by
  cases h with
  | raised _ _ _ _ => rfl
  | malformed _ _ => rfl

/-- The calls of `InstrumentedTrendPullbackConfirmation.should_enter`, from a new strategy on.  What raises
is the call of the strategy, before anything is recorded. -/
def instrumentedEntries (strategy : StrategyIdentity) :
    Callee InstrumentedState EntryCall (Except BacktestError (Option Signal)) :=
  (instrumentedTrendPullbackConfirmation strategy).entries {} fun state call =>
    { state with parent := (pullbackEntries strategy).after state.parent call }

/-- What a call leaves of the record beside the strategy after it. -/
inductive Funnelled (state : InstrumentedState) (call : EntryCall) (parent : PullbackState) :
    InstrumentedState → Prop
  | raised (same : (parent.symbolState call.candle.symbol).phase =
        (state.parent.symbolState call.candle.symbol).phase)
      (payload : (parent.symbolState call.candle.symbol).setup.isSome =
        (state.parent.symbolState call.candle.symbol).setup.isSome) :
      Funnelled state call parent { state with parent }
  | recorded {observed : InstrumentedState} (trace : FunnelTrace)
      (timestamp : trace.timestamp = call.candle.openTime)
      (recorded : FunnelRecorded { state with parent } call (state.parent.symbolState call.candle.symbol)
        (parent.symbolState call.candle.symbol) (observed, trace.event)) :
      Funnelled state call parent { observed with traces := observed.traces ++ [trace] }

/-- A call answers what the strategy answers, leaves the strategy as it would be, and the record of one of
its outcomes. -/
theorem instrumentedEntries_called (strategy : StrategyIdentity) (state : InstrumentedState)
    (call : EntryCall) :
    (instrumentedEntries strategy).answer state call =
        (pullbackEntries strategy).answer state.parent call ∧
      Funnelled state call ((pullbackEntries strategy).after state.parent call)
        ((instrumentedEntries strategy).after state call) := by
  have hcalled := pullbackEntries_called strategy state.parent call
  cases hentered : state.parent.shouldEnter strategy call.candle call.indicators call.entry with
  | error error =>
    have hraises : state.shouldEnter strategy call.candle call.indicators call.entry =
        .error error := by
      simp only [InstrumentedState.shouldEnter, hentered, bind, Except.bind]
    have hanswer : (pullbackEntries strategy).answer state.parent call = .error error := by
      simp only [pullbackEntries, SignalStrategy.entries, trendPullbackConfirmationStrategy,
        hentered, Except.map]
    rw [hanswer] at hcalled ⊢
    simp only [instrumentedEntries, SignalStrategy.entries, instrumentedTrendPullbackConfirmation,
      hraises, Except.map, Except.toOption, Option.elim_none, true_and]
    generalize (pullbackEntries strategy).after state.parent call = parent at hcalled ⊢
    have hraised := hcalled.eq_raisedAt
    exact .raised (by rw [hraised]; rfl) (by rw [hraised]; exact Option.isSome_map)
  | ok entered =>
    obtain ⟨parent, signal⟩ := entered
    have hanswer : (pullbackEntries strategy).answer state.parent call = .ok signal := by
      simp only [pullbackEntries, SignalStrategy.entries, trendPullbackConfirmationStrategy,
        hentered, Except.map]
    have hafter : (pullbackEntries strategy).after state.parent call = parent := by
      simp only [pullbackEntries, SignalStrategy.entries, trendPullbackConfirmationStrategy,
        hentered, Except.toOption, Option.elim_some]
    rw [hanswer, hafter] at hcalled
    obtain ⟨⟨observed, event⟩, hobserve, hrecorded⟩ :=
      observe_recorded { state with parent } hcalled
    have hgoesOn : state.shouldEnter strategy call.candle call.indicators call.entry =
        .ok ({ observed with traces := observed.traces ++ [InstrumentedState.traceOf call.candle
          call.indicators (state.parent.symbolState call.candle.symbol)
          (parent.symbolState call.candle.symbol) signal event] }, signal) := by
      simp only [InstrumentedState.shouldEnter, hentered, bind, Except.bind, hobserve, pure,
        Except.pure]
    rw [hanswer, hafter]
    simp only [instrumentedEntries, SignalStrategy.entries, instrumentedTrendPullbackConfirmation,
      hgoesOn, Except.map, Except.toOption, Option.elim_some, true_and]
    exact .recorded _ rfl hrecorded

end CryptoTrading
