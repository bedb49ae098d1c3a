import CryptoTrading.Strategies.TrendDca
import Mathlib.Data.List.DropRight

/-! `breakout_retest.py`: a breakout over the highs of the preceding candles, and an entry when the level
holds at a retest. -/

namespace CryptoTrading

open Kit

/-- `RESISTANCE_LOOKBACK_BARS`.  The constructor admits no other value. -/
def resistanceLookbackBars : ℕ := 20

/-- `RETEST_TIMEOUT_BARS`.  The constructor admits no other value. -/
def retestTimeoutBars : ℕ := 24

inductive BreakoutPhase
  | idle
  | breakoutArmed
  deriving DecidableEq, Repr

/-- The breakout that is armed. -/
structure Breakout where
  breakoutTime : Datetime
  breakoutLevel : Decimal
  breakoutClose : Decimal
  barsSinceBreakout : ℕ := 0
  deriving DecidableEq

/-- `_new_symbol_state`. -/
structure BreakoutSymbolState where
  phase : BreakoutPhase := .idle
  breakout : Option Breakout := none
  recentHighs : List Decimal := []
  lastObservedTime : Option Datetime := none
  lastPriorResistance : Option Decimal := none
  deriving DecidableEq

/-- The state of `BreakoutRetestStrategy`. -/
structure BreakoutRetestState where
  dca : TrendDCAState := {}
  symbols : Dict String BreakoutSymbolState := .empty
  deriving DecidableEq

namespace BreakoutSymbolState

variable (symbolState : BreakoutSymbolState) (candle : BacktestCandle StrategyIndicators)
  (indicators : StrategyIndicators)

/-- `_clear_breakout`. -/
def clearBreakout : BreakoutSymbolState := { symbolState with phase := .idle, breakout := none }

/-- `_observe_candle`: the resistance of the candles before, and the state after the candle. -/
def observeCandle : Option Decimal × BreakoutSymbolState :=
  if symbolState.lastObservedTime = some candle.openTime then
    (symbolState.lastPriorResistance, symbolState)
  else
    let highs := symbolState.recentHighs
    let resistance :=
      if highs.length ≥ resistanceLookbackBars then (highs.rtake resistanceLookbackBars).max?
      else none
    (resistance, { symbolState with
      recentHighs := (highs ++ [candle.highPrice]).rtake resistanceLookbackBars
      lastObservedTime := some candle.openTime, lastPriorResistance := resistance })

/-- `volatility > Decimal("0.8")`, of a volatility that is there. -/
def tooVolatile : Bool := indicators.volatility.any fun volatility => decide (volatility > 8 / 10)

/-- The branch of `should_enter` for a breakout that is armed: the state after the candle, and the
breakout if its level holds. -/
def retest (breakout : Breakout) (hasPosition : Bool) : BreakoutSymbolState × Option Breakout :=
  let aged := { breakout with barsSinceBreakout := breakout.barsSinceBreakout + 1 }
  let armed := { symbolState with breakout := some aged }
  if hasPosition then (symbolState.clearBreakout, none)
  else if indicators.regime = some trendDown then (symbolState.clearBreakout, none)
  else if aged.barsSinceBreakout ≥ retestTimeoutBars then (symbolState.clearBreakout, none)
  else
    match indicators.ema50, indicators.ema200, indicators.regime with
    | some ema50, some ema200, some _ =>
      if candle.close ≤ ema200 ∨ ema50 ≤ ema200 then (symbolState.clearBreakout, none)
      else if tooVolatile indicators then (armed, none)
      else if candle.lowPrice ≤ aged.breakoutLevel ∧ candle.close ≥ aged.breakoutLevel then
        (symbolState.clearBreakout, some aged)
      else (armed, none)
    | _, _, _ => (armed, none)

/-- The branch of `should_enter` for no breakout: one is armed, but nothing is bought on its candle. -/
def breakOut (priorResistance : Option Decimal) (hasPosition : Bool) : BreakoutSymbolState :=
  if hasPosition then symbolState
  else
    match priorResistance, indicators.ema50, indicators.ema200, indicators.regime with
    | some resistance, some ema50, some ema200, some regime =>
      if candle.close ≤ ema200 then symbolState
      else if ema50 ≤ ema200 then symbolState
      else if regime = trendDown then symbolState
      else if tooVolatile indicators then symbolState
      else if candle.close ≤ resistance then symbolState
      else { symbolState with
        phase := .breakoutArmed
        breakout := some {
          breakoutTime := candle.openTime, breakoutLevel := resistance
          breakoutClose := candle.close } }
    | _, _, _, _ => symbolState

/-- What `should_enter` does to the state of the symbol, and the breakout that is bought. -/
def advance (hasPosition : Bool) : Except BacktestError (BreakoutSymbolState × Option Breakout) :=
  let (priorResistance, observed) := symbolState.observeCandle candle
  match observed.phase, observed.breakout with
  | .breakoutArmed, none => .error (.strategy "BREAKOUT_ARMED state has no breakout payload")
  | .breakoutArmed, some breakout => .ok (observed.retest candle indicators breakout hasPosition)
  | .idle, _ => .ok (observed.breakOut candle indicators priorResistance hasPosition, none)

end BreakoutSymbolState

namespace BreakoutRetestState

variable (state : BreakoutRetestState) (strategy : StrategyIdentity)
  (candle : BacktestCandle StrategyIndicators) (indicators : StrategyIndicators)

/-- `_symbol_state`. -/
def symbolState (symbol : String) : BreakoutSymbolState := (state.symbols.get? symbol).getD {}

def withSymbolState (symbol : String) (symbolState : BreakoutSymbolState) : BreakoutRetestState :=
  { state with symbols := state.symbols.set symbol symbolState }

/-- `_observe_candle` of a position's candle. -/
def observe : BreakoutRetestState :=
  state.withSymbolState candle.symbol
    ((state.symbolState candle.symbol).observeCandle candle).2

/-- `BreakoutRetestStrategy.should_enter`. -/
def shouldEnter (entry : EntryState) :
    Except BacktestError (BreakoutRetestState × Option Signal) := do
  let (symbolState, bought) ←
    (state.symbolState candle.symbol).advance candle indicators entry.hasPosition
  let entered := state.withSymbolState candle.symbol symbolState
  match bought with
  | none => return (entered, none)
  | some breakout =>
    let signal ← strategy.baseOrder candle indicators entry.capital "Breakout retest held"
      { breakoutLevel := some breakout.breakoutLevel }
    return (entered, some signal)

/-- `BreakoutRetestStrategy.should_exit`. -/
def shouldExit (position : PositionState) : BreakoutRetestState × Option Signal :=
  let (dca, signal) := state.dca.shouldExit strategy candle indicators position
  ({ state.observe candle with dca }, signal)

/-- `BreakoutRetestStrategy.on_fill`. -/
def onFill (signal : Signal) : BreakoutRetestState :=
  if signal.action = "open_long" then
    { state with dca := { state.dca with
      trailingHighs := state.dca.trailingHighs.erase signal.symbol } }
  else state

end BreakoutRetestState

/-- `BreakoutRetestStrategy`.  It adds to no position. -/
def breakoutRetestStrategy (strategy : StrategyIdentity) :
    SignalStrategy BreakoutRetestState StrategyIndicators where
  shouldEnter state candle indicators entry := state.shouldEnter strategy candle indicators entry
  shouldExit state candle indicators position :=
    .ok (state.shouldExit strategy candle indicators position)
  shouldAddDca state candle _ _ := .ok (state.observe candle, none)
  onFill state signal _ := .ok (state.onFill signal)

/-! ### What the calls do -/

namespace BreakoutSymbolState

variable {symbolState after : BreakoutSymbolState} {candle : BacktestCandle StrategyIndicators}
  {indicators : StrategyIndicators} {breakout : Breakout} {bought : Option Breakout}
  {hasPosition : Bool}

/-- The highs that are kept, and the last candle that was observed. -/
def window (symbolState : BreakoutSymbolState) : List Decimal × Option Datetime :=
  (symbolState.recentHighs, symbolState.lastObservedTime)

/-- The phase and its breakout: one that is armed is there, and at a positive level. -/
def Armed (symbolState : BreakoutSymbolState) : Prop :=
  symbolState.phase = .breakoutArmed →
    ∃ breakout, symbolState.breakout = some breakout ∧ 0 < breakout.breakoutLevel

/-- A retest leaves the window, and the breakout armed or cleared. -/
theorem retest_cases (symbolState : BreakoutSymbolState)
    (candle : BacktestCandle StrategyIndicators) (indicators : StrategyIndicators)
    (breakout : Breakout) (hasPosition : Bool) :
    ((symbolState.retest candle indicators breakout hasPosition).1 = symbolState.clearBreakout ∨
      (symbolState.retest candle indicators breakout hasPosition).1 = { symbolState with
        breakout := some { breakout with barsSinceBreakout := breakout.barsSinceBreakout + 1 } }) ∧
    ∀ bought, (symbolState.retest candle indicators breakout hasPosition).2 = some bought →
      bought.breakoutLevel = breakout.breakoutLevel := by
  unfold retest
  simp only
  repeat' split
  all_goals first
    | exact ⟨Or.inl rfl, fun bought hbought => by cases hbought <;> rfl⟩
    | exact ⟨Or.inr rfl, fun bought hbought => by cases hbought⟩

/-- A breakout leaves the window, and is armed at the resistance. -/
theorem breakOut_cases (symbolState : BreakoutSymbolState)
    (candle : BacktestCandle StrategyIndicators) (indicators : StrategyIndicators)
    (priorResistance : Option Decimal) (hasPosition : Bool) :
    symbolState.breakOut candle indicators priorResistance hasPosition = symbolState ∨
    ∃ resistance, priorResistance = some resistance ∧
      symbolState.breakOut candle indicators priorResistance hasPosition = { symbolState with
        phase := .breakoutArmed
        breakout := some ⟨candle.openTime, resistance, candle.close, 0⟩ } := by
  unfold breakOut
  repeat' split
  all_goals first
    | exact Or.inl rfl
    | exact Or.inr ⟨_, rfl, rfl⟩

theorem window_advance (h : symbolState.advance candle indicators hasPosition = .ok (after, bought)) :
    after.window = (symbolState.observeCandle candle).2.window := by
  unfold advance at h
  simp only at h
  split at h
  · cases h
  · rename_i breakout _ _
    have hafter : ((symbolState.observeCandle candle).2.retest candle indicators breakout
        hasPosition).1 = after := congrArg Prod.fst (Except.ok.inj h)
    rw [← hafter]
    rcases (retest_cases (symbolState.observeCandle candle).2 candle indicators breakout
      hasPosition).1 with hcleared | harmed
    · rw [hcleared]
      rfl
    · rw [harmed]
      rfl
  · cases h
    rcases breakOut_cases (symbolState.observeCandle candle).2 candle indicators
      (symbolState.observeCandle candle).1 hasPosition with hsame | ⟨resistance, -, harmed⟩
    · rw [hsame]
    · rw [harmed]
      rfl

theorem observeCandle_lastObservedTime (symbolState : BreakoutSymbolState)
    (candle : BacktestCandle StrategyIndicators) :
    (symbolState.observeCandle candle).2.lastObservedTime = some candle.openTime := by
  unfold observeCandle
  split
  · rename_i hobserved
    exact hobserved
  · rfl

theorem observeCandle_observed {symbolState : BreakoutSymbolState}
    {candle : BacktestCandle StrategyIndicators}
    (h : symbolState.lastObservedTime = some candle.openTime) :
    (symbolState.observeCandle candle).2 = symbolState := by
  rw [observeCandle, if_pos h]

theorem observeCandle_new {symbolState : BreakoutSymbolState}
    {candle : BacktestCandle StrategyIndicators}
    (h : symbolState.lastObservedTime ≠ some candle.openTime) :
    (symbolState.observeCandle candle).1 =
      (if symbolState.recentHighs.length ≥ resistanceLookbackBars then
        (symbolState.recentHighs.rtake resistanceLookbackBars).max? else none) ∧
    (symbolState.observeCandle candle).2.recentHighs =
      (symbolState.recentHighs ++ [candle.highPrice]).rtake resistanceLookbackBars := by
  rw [observeCandle, if_neg h]
  exact ⟨rfl, rfl⟩

end BreakoutSymbolState

namespace BreakoutRetestState

variable {state after : BreakoutRetestState} {strategy : StrategyIdentity}
  {candle : BacktestCandle StrategyIndicators} {indicators : StrategyIndicators}
  {signal : Option Signal}

@[simp] theorem symbolState_withSymbolState (state : BreakoutRetestState) (symbol : String)
    (symbolState : BreakoutSymbolState) :
    (state.withSymbolState symbol symbolState).symbolState symbol = symbolState := by
  simp [BreakoutRetestState.symbolState, withSymbolState]

@[simp] theorem symbolState_observe (state : BreakoutRetestState)
    (candle : BacktestCandle StrategyIndicators) :
    (state.observe candle).symbolState candle.symbol =
      ((state.symbolState candle.symbol).observeCandle candle).2 :=
  symbolState_withSymbolState _ _ _

@[simp] theorem symbolState_shouldExit (state : BreakoutRetestState) (strategy : StrategyIdentity)
    (candle : BacktestCandle StrategyIndicators) (indicators : StrategyIndicators)
    (position : PositionState) :
    (state.shouldExit strategy candle indicators position).1.symbolState candle.symbol =
      ((state.symbolState candle.symbol).observeCandle candle).2 :=
  symbolState_observe state candle

/-- What is entered is decided by the state of the symbol, and bought at the level of its breakout. -/
theorem shouldEnter_ok {entry : EntryState}
    (h : state.shouldEnter strategy candle indicators entry = .ok (after, signal)) :
    ∃ symbolState bought,
      (state.symbolState candle.symbol).advance candle indicators entry.hasPosition =
        .ok (symbolState, bought) ∧
      after = state.withSymbolState candle.symbol symbolState ∧
      ∀ opened, signal = some opened → opened.symbol = candle.symbol ∧ opened.action = "open_long" ∧
        ∃ breakout, bought = some breakout ∧
          opened.metadata.breakoutLevel = some breakout.breakoutLevel := by
  obtain ⟨⟨symbolState, bought⟩, hadvance, hrest⟩ := bind_eq_ok_iff.mp h
  refine ⟨symbolState, bought, hadvance, ?_⟩
  cases bought with
  | none =>
    cases hrest
    exact ⟨rfl, fun opened hopened => nomatch hopened⟩
  | some breakout =>
    obtain ⟨opened, hopened, hreturned⟩ := bind_eq_ok_iff.mp hrest
    cases hreturned
    refine ⟨rfl, ?_⟩
    rintro _ ⟨⟩
    obtain ⟨hsymbol, haction, -, hmetadata⟩ := StrategyIdentity.openSignal_ok hopened
    exact ⟨hsymbol, haction, breakout, rfl, by rw [hmetadata]⟩

theorem shouldExit_signal {position : PositionState} {exit : Signal}
    (h : (state.shouldExit strategy candle indicators position).2 = some exit) :
    ∃ price reason, exit = strategy.closeSignal candle indicators position price reason :=
  TrendDCAState.shouldExit_signal h

end BreakoutRetestState

end CryptoTrading
