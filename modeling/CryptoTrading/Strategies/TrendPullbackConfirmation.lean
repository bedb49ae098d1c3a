import CryptoTrading.Strategies.EntryCalls

/-! `trend_pullback_confirmation.py`: a pullback in an upward trend arms a setup, and a later cross of the
RSI back above its threshold confirms it. -/

namespace CryptoTrading

open Kit

/-- `SETUP_TIMEOUT_BARS`.  The constructor admits no other value. -/
def setupTimeoutBars : ℕ := 12

inductive PullbackPhase
  | idle
  | pullbackArmed
  deriving DecidableEq, Repr

/-- The setup that is armed. -/
structure PullbackSetup where
  setupTime : Datetime
  setupRsi : Decimal
  setupClose : Decimal
  setupEma20 : Decimal
  setupEma50 : Decimal
  setupEma200 : Decimal
  setupRegime : String
  barsSinceSetup : ℕ
  deriving DecidableEq

/-- The state of a symbol. -/
structure PullbackSymbolState where
  phase : PullbackPhase := .idle
  previousRsi : Option Decimal := none
  setup : Option PullbackSetup := none
  deriving DecidableEq

/-- The state of `TrendPullbackConfirmationStrategy`. -/
structure PullbackState where
  dca : TrendDCAState := {}
  symbols : Dict String PullbackSymbolState := .empty
  deriving DecidableEq

/-- The indicators that `should_enter` does not go on without. -/
structure PullbackReading where
  ema20 : Decimal
  ema50 : Decimal
  ema200 : Decimal
  rsi : Decimal
  regime : String
  volatility : Option Decimal
  deriving DecidableEq

/-- The indicators, if none of those is missing. -/
def StrategyIndicators.reading (indicators : StrategyIndicators) : Option PullbackReading := do
  let ema20 ← indicators.ema20
  let ema50 ← indicators.ema50
  let ema200 ← indicators.ema200
  let rsi ← indicators.rsi
  let regime ← indicators.regime
  return ⟨ema20, ema50, ema200, rsi, regime, indicators.volatility⟩

theorem reading_eq_some_iff {indicators : StrategyIndicators} {reading : PullbackReading} :
    indicators.reading = some reading ↔ indicators = ⟨some reading.ema20, some reading.ema50,
      some reading.ema200, some reading.rsi, some reading.regime, reading.volatility⟩ := by
  obtain ⟨ema20, ema50, ema200, rsi, regime, volatility⟩ := indicators
  obtain ⟨ema20', ema50', ema200', rsi', regime', volatility'⟩ := reading
  cases ema20 <;> cases ema50 <;> cases ema200 <;> cases rsi <;> cases regime <;>
    simp [StrategyIndicators.reading]

/-- A setup after another bar. -/
def PullbackSetup.aged (setup : PullbackSetup) : PullbackSetup :=
  { setup with barsSinceSetup := setup.barsSinceSetup + 1 }

namespace PullbackSymbolState

variable (symbolState : PullbackSymbolState) (candle : BacktestCandle StrategyIndicators)
  (reading : PullbackReading) (hasPosition : Bool)

/-- `_clear_setup`. -/
def clearSetup : PullbackSymbolState := { symbolState with phase := .idle, setup := none }

/-- `_arm_setup`. -/
def armSetup : PullbackSymbolState :=
  { symbolState with
    phase := .pullbackArmed
    setup := some {
      setupTime := candle.openTime, setupRsi := reading.rsi, setupClose := candle.close
      setupEma20 := reading.ema20, setupEma50 := reading.ema50, setupEma200 := reading.ema200
      setupRegime := reading.regime, barsSinceSetup := 0 } }

/-- `symbol_state["previous_rsi"] = ...`, of an RSI that is there. -/
def remember (rsi : Option Decimal) : PullbackSymbolState :=
  { symbolState with previousRsi := rsi.or symbolState.previousRsi }

/-- The conditions that cancel a setup. -/
def cancels (aged : PullbackSetup) : Bool :=
  decide (reading.regime ≠ trendUp) || decide (candle.close ≤ reading.ema200) ||
    decide (reading.ema50 ≤ reading.ema200) || hasPosition ||
    decide (aged.barsSinceSetup ≥ setupTimeoutBars)

/-- `crossed_up`. -/
def crossedUp (previousRsi : Option Decimal) (rsi : Decimal) : Bool :=
  (previousRsi.any fun previous => decide (previous ≤ 45)) && decide (rsi > 45)

/-- `confirmed`. -/
def confirmed (previousRsi : Option Decimal) : Bool :=
  crossedUp previousRsi reading.rsi && decide (candle.close > reading.ema20) &&
    reading.volatility.all fun volatility => decide (volatility ≤ 8 / 10)

/-- The branch of `should_enter` for a setup that is armed: the state after the candle, and the setup if
it is confirmed. -/
def confirm (previousRsi : Option Decimal) (setup : PullbackSetup) :
    PullbackSymbolState × Option PullbackSetup :=
  if cancels candle reading hasPosition setup.aged then (symbolState.clearSetup, none)
  else if confirmed candle reading previousRsi then (symbolState.clearSetup, some setup.aged)
  else ({ symbolState with setup := some setup.aged }, none)

/-- The branch of `should_enter` for no setup: one is armed, but nothing is bought on its candle. -/
def pullBack : PullbackSymbolState :=
  if hasPosition then symbolState
  else if reading.regime ≠ trendUp then symbolState
  else if candle.close ≤ reading.ema200 ∨ reading.ema50 ≤ reading.ema200 then symbolState
  else if reading.rsi > 45 then symbolState
  else if reading.volatility.any fun volatility => decide (volatility > 8 / 10) then symbolState
  else symbolState.armSetup candle reading

/-- What `should_enter` does to the state of the symbol, and the setup that is confirmed. -/
def advance (indicators : StrategyIndicators) :
    Except BacktestError (PullbackSymbolState × Option PullbackSetup) :=
  let remembered := symbolState.remember indicators.rsi
  match indicators.reading with
  | none => .ok (remembered, none)
  | some reading =>
    match symbolState.phase, symbolState.setup with
    | .pullbackArmed, none => .error (.strategy "PULLBACK_ARMED state has no setup payload")
    | .pullbackArmed, some setup =>
      .ok (remembered.confirm candle reading hasPosition symbolState.previousRsi setup)
    | .idle, _ => .ok (remembered.pullBack candle reading hasPosition, none)

end PullbackSymbolState

namespace PullbackState

variable (state : PullbackState) (strategy : StrategyIdentity)
  (candle : BacktestCandle StrategyIndicators) (indicators : StrategyIndicators)

/-- `_symbol_state`. -/
def symbolState (symbol : String) : PullbackSymbolState := (state.symbols.get? symbol).getD {}

def withSymbolState (symbol : String) (symbolState : PullbackSymbolState) : PullbackState :=
  { state with symbols := state.symbols.set symbol symbolState }

@[simp] theorem symbolState_withSymbolState (symbol : String) (symbolState : PullbackSymbolState) :
    (state.withSymbolState symbol symbolState).symbolState symbol = symbolState := by
  simp [PullbackState.symbolState, withSymbolState]

/-- `TrendPullbackConfirmationStrategy.should_enter`. -/
def shouldEnter (entry : EntryState) : Except BacktestError (PullbackState × Option Signal) := do
  let (symbolState, confirmed) ←
    (state.symbolState candle.symbol).advance candle entry.hasPosition indicators
  let entered := state.withSymbolState candle.symbol symbolState
  match confirmed with
  | none => return (entered, none)
  | some _ =>
    let signal ← strategy.baseOrder candle indicators entry.capital
      "Trend pullback recovery confirmed" { dcaLevel := some 0 }
    return (entered, some signal)

/-- `TrendDCAStrategy.should_exit`. -/
def shouldExit (position : PositionState) : PullbackState × Option Signal :=
  let (dca, signal) := state.dca.shouldExit strategy candle indicators position
  ({ state with dca }, signal)

/-- `TrendDCAStrategy.should_add_dca`. -/
def shouldAddDca (position : PositionState) : Except BacktestError (PullbackState × Option Signal) := do
  let (dca, signal) ← state.dca.shouldAddDca strategy candle indicators position
  return ({ state with dca }, signal)

/-- `TrendDCAStrategy.on_fill`. -/
def onFill (signal : Signal) : PullbackState := { state with dca := state.dca.onFill signal }

end PullbackState

/-- `TrendPullbackConfirmationStrategy`. -/
def trendPullbackConfirmationStrategy (strategy : StrategyIdentity) :
    SignalStrategy PullbackState StrategyIndicators where
  shouldEnter state candle indicators entry := state.shouldEnter strategy candle indicators entry
  shouldExit state candle indicators position :=
    .ok (state.shouldExit strategy candle indicators position)
  shouldAddDca state candle indicators position :=
    state.shouldAddDca strategy candle indicators position
  onFill state signal _ := .ok (state.onFill signal)

/-! ### What a call does -/

/-- Nothing cancels the setup at the call. -/
structure PullbackSetup.Withstands (setup : PullbackSetup) (call : EntryCall)
    (reading : PullbackReading) : Prop where
  regime : reading.regime = trendUp
  close : reading.ema200 < call.candle.close
  emas : reading.ema200 < reading.ema50
  flat : call.entry.hasPosition = false
  young : setup.barsSinceSetup + 1 < setupTimeoutBars

theorem cancels_eq_false_iff {setup : PullbackSetup} {call : EntryCall} {reading : PullbackReading} :
    PullbackSymbolState.cancels call.candle reading call.entry.hasPosition setup.aged = false ↔
      setup.Withstands call reading := by
  simp only [PullbackSymbolState.cancels, Bool.or_eq_false_iff, decide_eq_false_iff_not, not_not,
    not_le, ge_iff_le, PullbackSetup.aged]
  constructor
  · rintro ⟨⟨⟨⟨hregime, hclose⟩, hemas⟩, hflat⟩, hyoung⟩
    exact ⟨hregime, hclose, hemas, hflat, hyoung⟩
  · rintro ⟨hregime, hclose, hemas, hflat, hyoung⟩
    exact ⟨⟨⟨⟨hregime, hclose⟩, hemas⟩, hflat⟩, hyoung⟩

namespace PullbackSymbolState

/-- A call on an armed setup cancels it, confirms it, or leaves it armed. -/
inductive Confirmed (symbolState : PullbackSymbolState) (call : EntryCall) (reading : PullbackReading)
    (previousRsi : Option Decimal) (setup : PullbackSetup) :
    PullbackSymbolState × Option PullbackSetup → Prop
  | cancelled (cancels : ¬setup.Withstands call reading) :
      Confirmed symbolState call reading previousRsi setup (symbolState.clearSetup, none)
  | confirmed (withstands : setup.Withstands call reading)
      (confirmed : confirmed call.candle reading previousRsi = true) :
      Confirmed symbolState call reading previousRsi setup (symbolState.clearSetup, some setup.aged)
  | waits (withstands : setup.Withstands call reading)
      (unconfirmed : PullbackSymbolState.confirmed call.candle reading previousRsi = false) :
      Confirmed symbolState call reading previousRsi setup
        ({ symbolState with setup := some setup.aged }, none)

/-- A call without a setup arms one, or none. -/
inductive PulledBack (symbolState : PullbackSymbolState) (call : EntryCall)
    (reading : PullbackReading) : PullbackSymbolState → Prop
  | idle : PulledBack symbolState call reading symbolState
  | armed (regime : reading.regime = trendUp) (close : reading.ema200 < call.candle.close)
      (emas : reading.ema200 < reading.ema50) (rsi : reading.rsi ≤ 45)
      (flat : call.entry.hasPosition = false) :
      PulledBack symbolState call reading (symbolState.armSetup call.candle reading)

theorem confirm_confirmed (symbolState : PullbackSymbolState) (call : EntryCall)
    (reading : PullbackReading) (previousRsi : Option Decimal) (setup : PullbackSetup) :
    symbolState.Confirmed call reading previousRsi setup
      (symbolState.confirm call.candle reading call.entry.hasPosition previousRsi setup) := by
  unfold confirm
  split
  · rename_i hcancels
    refine .cancelled fun hwithstands => ?_
    rw [cancels_eq_false_iff.mpr hwithstands] at hcancels
    cases hcancels
  rename_i hcancels
  have hwithstands := cancels_eq_false_iff.mp (Bool.not_eq_true _ ▸ hcancels)
  split
  · rename_i hconfirmed
    exact .confirmed hwithstands hconfirmed
  · rename_i hunconfirmed
    exact .waits hwithstands (Bool.not_eq_true _ ▸ hunconfirmed)

theorem pullBack_pulledBack (symbolState : PullbackSymbolState) (call : EntryCall)
    (reading : PullbackReading) : symbolState.PulledBack call reading
      (symbolState.pullBack call.candle reading call.entry.hasPosition) := by
  unfold pullBack
  split
  · exact .idle
  rename_i hflat
  split
  · exact .idle
  rename_i hregime
  split
  · exact .idle
  rename_i htrend
  rw [not_or, not_le, not_le] at htrend
  split
  · exact .idle
  rename_i hrsi
  split
  · exact .idle
  · exact .armed (not_not.mp hregime) htrend.1 htrend.2 (not_lt.mp hrsi)
      (Bool.not_eq_true _ ▸ hflat)

/-- What a call that raises leaves: the RSI is remembered, and the setup aged. -/
def raisedAt (symbolState : PullbackSymbolState) (indicators : StrategyIndicators) :
    PullbackSymbolState :=
  let remembered := symbolState.remember indicators.rsi
  { remembered with setup := remembered.setup.map PullbackSetup.aged }

/-- What a call does to the state of its symbol, and what it answers. -/
inductive Called (symbolState : PullbackSymbolState) (call : EntryCall) :
    PullbackSymbolState → Except BacktestError (Option Signal) → Prop
  | absent (missing : call.indicators.reading = none) :
      Called symbolState call (symbolState.remember call.indicators.rsi) (.ok none)
  | pulledBack {reading : PullbackReading} {after : PullbackSymbolState}
      (read : call.indicators.reading = some reading) (idle : symbolState.phase = .idle)
      (pulledBack : (symbolState.remember call.indicators.rsi).PulledBack call reading after) :
      Called symbolState call after (.ok none)
  | unconfirmed {reading : PullbackReading} {setup : PullbackSetup} {after : PullbackSymbolState}
      (read : call.indicators.reading = some reading) (armed : symbolState.phase = .pullbackArmed)
      (held : symbolState.setup = some setup)
      (outcome : (symbolState.remember call.indicators.rsi).Confirmed call reading
        symbolState.previousRsi setup (after, none)) :
      Called symbolState call after (.ok none)
  | signalled {reading : PullbackReading} {setup confirmed : PullbackSetup}
      {after : PullbackSymbolState} {signal : Signal}
      (read : call.indicators.reading = some reading) (armed : symbolState.phase = .pullbackArmed)
      (held : symbolState.setup = some setup)
      (outcome : (symbolState.remember call.indicators.rsi).Confirmed call reading
        symbolState.previousRsi setup (after, some confirmed)) :
      Called symbolState call after (.ok (some signal))
  | raised {reading : PullbackReading} {setup confirmed : PullbackSetup}
      {cleared : PullbackSymbolState} {error : BacktestError}
      (read : call.indicators.reading = some reading) (armed : symbolState.phase = .pullbackArmed)
      (held : symbolState.setup = some setup)
      (outcome : (symbolState.remember call.indicators.rsi).Confirmed call reading
        symbolState.previousRsi setup (cleared, some confirmed)) :
      Called symbolState call (symbolState.raisedAt call.indicators) (.error error)
  | malformed {error : BacktestError} (armed : symbolState.phase = .pullbackArmed)
      (missing : symbolState.setup = none) :
      Called symbolState call (symbolState.raisedAt call.indicators) (.error error)

end PullbackSymbolState

/-- The calls of `TrendPullbackConfirmationStrategy.should_enter`, from a new strategy on. -/
def pullbackEntries (strategy : StrategyIdentity) :
    Callee PullbackState EntryCall (Except BacktestError (Option Signal)) :=
  (trendPullbackConfirmationStrategy strategy).entries {} fun state call =>
    state.withSymbolState call.candle.symbol
      ((state.symbolState call.candle.symbol).raisedAt call.indicators)

theorem pullbackEntries_called (strategy : StrategyIdentity) (state : PullbackState)
    (call : EntryCall) : (state.symbolState call.candle.symbol).Called call
      (((pullbackEntries strategy).after state call).symbolState call.candle.symbol)
      ((pullbackEntries strategy).answer state call) := by
  simp only [pullbackEntries, SignalStrategy.entries, trendPullbackConfirmationStrategy,
    PullbackState.shouldEnter, PullbackSymbolState.advance]
  cases hread : call.indicators.reading with
  | none =>
    simp only [bind, Except.bind, pure, Except.pure, Except.toOption, Option.elim_some, Except.map,
      PullbackState.symbolState_withSymbolState]
    exact .absent hread
  | some reading =>
    cases hphase : (state.symbolState call.candle.symbol).phase with
    | idle =>
      simp only [bind, Except.bind, pure, Except.pure, Except.toOption, Option.elim_some, Except.map,
        PullbackState.symbolState_withSymbolState]
      exact .pulledBack hread hphase (PullbackSymbolState.pullBack_pulledBack _ call reading)
    | pullbackArmed =>
      cases hheld : (state.symbolState call.candle.symbol).setup with
      | none =>
        simp only [bind, Except.bind, Except.toOption, Option.elim_none, Except.map,
          PullbackState.symbolState_withSymbolState]
        exact .malformed hphase hheld
      | some setup =>
        simp only [bind, Except.bind]
        have houtcome := ((state.symbolState call.candle.symbol).remember
          call.indicators.rsi).confirm_confirmed call reading
            (state.symbolState call.candle.symbol).previousRsi setup
        generalize ((state.symbolState call.candle.symbol).remember call.indicators.rsi).confirm
          call.candle reading call.entry.hasPosition
          (state.symbolState call.candle.symbol).previousRsi setup = outcome at houtcome ⊢
        obtain ⟨after, _ | confirmed⟩ := outcome
        · simp only [pure, Except.pure, Except.toOption, Option.elim_some, Except.map,
            PullbackState.symbolState_withSymbolState]
          exact .unconfirmed hread hphase hheld houtcome
        · dsimp only
          cases strategy.baseOrder call.candle call.indicators call.entry.capital
              "Trend pullback recovery confirmed" { dcaLevel := some 0 } with
          | error error =>
            simp only [Except.toOption, Option.elim_none, Except.map,
              PullbackState.symbolState_withSymbolState]
            exact .raised hread hphase hheld houtcome
          | ok signal =>
            simp only [pure, Except.pure, Except.toOption, Option.elim_some, Except.map,
              PullbackState.symbolState_withSymbolState]
            exact .signalled hread hphase hheld houtcome

end CryptoTrading
