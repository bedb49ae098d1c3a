import CryptoTrading.Strategies.BreakoutRetest

/-! `breakout_retest_v2.py`: Breakout Retest with a second state machine for each position.  A position
that shows structural failure is watched; it is closed unless the structure is reclaimed in time. -/

namespace CryptoTrading

open Kit

/-- `FAILURE_DETECTION_AGE_BARS`.  The constructor admits no other value. -/
def failureDetectionAgeBars : ℕ := 24

/-- `FAILURE_WATCH_MAX_BARS`.  The constructor admits no other value. -/
def failureWatchMaxBars : ℕ := 24

/-- The values of `position_state` of an open position. -/
inductive ManagedState
  | normalPosition
  | failureWatch
  deriving DecidableEq, Repr

/-- The values of `reason_map`, and `f"HARD_EXIT:{signal.reason}"`. -/
inductive HardExit
  | trendDown
  | maxHolding
  | trailing
  | takeProfit
  | stopLoss
  | other (reason : String)
  deriving DecidableEq

/-- `reason_map`. -/
def HardExit.ofReason (reason : String) : HardExit :=
  if reason = "Regime changed to TREND_DOWN" then .trendDown
  else if reason = "Max holding period reached" then .maxHolding
  else if reason = "Trailing stop hit" then .trailing
  else if reason = "Take profit hit" then .takeProfit
  else if reason = "Stop loss hit" then .stopLoss
  else .other reason

/-- The values of `failure_watch_resolution`. -/
inductive WatchResolution
  | recovered
  | timeoutSignal
  | resolvedBy (exit : HardExit)
  deriving DecidableEq

/-- What is kept of the candle that started a watch. -/
structure WatchTrigger where
  close : Decimal
  ema20 : Decimal
  ema50 : Decimal
  breakoutLevel : Decimal
  deriving DecidableEq

/-- The entries of `transition_events`. -/
inductive TransitionEvent
  /-- `POSITION_NORMAL_STARTED` -/
  | positionNormalStarted (timestamp : Datetime) (entryPrice breakoutLevel : Decimal)
  /-- `FAILURE_WATCH_STARTED` -/
  | failureWatchStarted (timestamp : Datetime) (positionAgeBars : ℕ) (trigger : WatchTrigger)
      (regime : Option String)
  /-- `FAILURE_WATCH_RECOVERED` -/
  | failureWatchRecovered (timestamp : Datetime) (failureWatchBars : ℕ)
  /-- `FAILURE_WATCH_TIMEOUT_SIGNAL` -/
  | failureWatchTimeoutSignal (timestamp : Datetime) (failureWatchBars : ℕ)
  /-- `FAILURE_WATCH_RESOLVED_BY_{resolution}` -/
  | failureWatchResolvedBy (timestamp : Datetime) (exit : HardExit) (reason : String)
  /-- `POSITION_CLOSED` -/
  | positionClosed (timestamp : Datetime) (reason : String) (fillPrice : Decimal)
  deriving DecidableEq

/-- The entries of `_new_symbol_state` that v2 adds to those of v1. -/
structure PositionManagement where
  positionState : Option ManagedState := none
  entryFillTime : Option Datetime := none
  entryPrice : Option Decimal := none
  breakoutLevel : Option Decimal := none
  positionAgeBars : ℕ := 0
  lastPositionObservedTime : Option Datetime := none
  failureWatchUsed : Bool := false
  failureWatchStartTime : Option Datetime := none
  failureWatchBars : ℕ := 0
  failureWatchTrigger : Option WatchTrigger := none
  failureWatchResolution : Option WatchResolution := none
  failureWatchResolutionTime : Option Datetime := none
  transitionEvents : List TransitionEvent := []
  deriving DecidableEq

/-- `"Failure watch timeout without structural recovery"`. -/
def timeoutReason : String := "Failure watch timeout without structural recovery"

namespace PositionManagement

variable (management : PositionManagement) (strategy : StrategyIdentity)
  (candle : BacktestCandle StrategyIndicators) (indicators : StrategyIndicators)

/-- `_append_event`. -/
def appendEvent (event : TransitionEvent) : PositionManagement :=
  { management with transitionEvents := management.transitionEvents ++ [event] }

/-- `_reset_position_management`. -/
def reset : PositionManagement := { transitionEvents := management.transitionEvents }

/-- The position after a candle. -/
def observed (timestamp : Datetime) : PositionManagement :=
  { management with
    lastPositionObservedTime := some timestamp, positionAgeBars := management.positionAgeBars + 1 }

/-- `_observe_position_candle`, or `none` for a candle that is observed already. -/
def observe (timestamp : Datetime) : Option PositionManagement :=
  if management.lastPositionObservedTime = some timestamp then none
  else some (management.observed timestamp)

/-- `_mark_watch_hard_exit`. -/
def markWatchHardExit (signal : Signal) (timestamp : Datetime) : PositionManagement :=
  if management.positionState ≠ some .failureWatch then management
  else
    let exit := HardExit.ofReason signal.reason
    ({ management with
      failureWatchResolution := some (.resolvedBy exit)
      failureWatchResolutionTime := some timestamp }).appendEvent
        (.failureWatchResolvedBy timestamp exit signal.reason)

/-- The transition from `NORMAL_POSITION` to `FAILURE_WATCH`. -/
def startWatch (trigger : WatchTrigger) : PositionManagement :=
  ({ management with
    positionState := some .failureWatch, failureWatchUsed := true
    failureWatchStartTime := some candle.openTime, failureWatchBars := 0
    failureWatchTrigger := some trigger
    failureWatchResolution := none, failureWatchResolutionTime := none }).appendEvent
      (.failureWatchStarted candle.openTime management.positionAgeBars trigger indicators.regime)

/-- The branch of `should_exit` for `NORMAL_POSITION`. -/
def manageNormal : Except BacktestError PositionManagement :=
  if management.failureWatchUsed then .ok management
  else if management.positionAgeBars < failureDetectionAgeBars then .ok management
  else
    match indicators.ema20, indicators.ema50 with
    | some ema20, some ema50 =>
      match management.breakoutLevel with
      | none => .error (.strategy "Open v2 position is missing position_breakout_level")
      | some level =>
        if level ≤ 0 then .error (.strategy "position_breakout_level must be positive")
        else if candle.close < ema20 ∧ candle.close < ema50 ∧ candle.close < level then
          .ok (management.startWatch candle indicators ⟨candle.close, ema20, ema50, level⟩)
        else .ok management
    | _, _ => .ok management

/-- The condition `recovered` of `should_exit`: the structure is reclaimed. -/
def recovered : Except BacktestError Bool :=
  match indicators.ema20, indicators.ema50 with
  | some ema20, some ema50 =>
    match management.breakoutLevel with
    | none => .error (.strategy "FAILURE_WATCH is missing position_breakout_level")
    | some level => .ok (decide (candle.close ≥ ema20 ∧ candle.close ≥ ema50 ∧ candle.close ≥ level))
  | _, _ => .ok false

/-- The transition from `FAILURE_WATCH` to `NORMAL_POSITION`. -/
def recover (timestamp : Datetime) : PositionManagement :=
  { management.appendEvent (.failureWatchRecovered timestamp management.failureWatchBars) with
    positionState := some .normalPosition
    failureWatchResolution := some .recovered, failureWatchResolutionTime := some timestamp
    failureWatchBars := 0 }

/-- The record of a timeout.  It is made once for the resolution. -/
def timeOut (timestamp : Datetime) : PositionManagement :=
  if management.failureWatchResolution = some .timeoutSignal then management
  else ({ management with
    failureWatchResolution := some .timeoutSignal
    failureWatchResolutionTime := some timestamp }).appendEvent
      (.failureWatchTimeoutSignal timestamp management.failureWatchBars)

/-- `_build_watch_timeout_signal`. -/
def timeoutSignal (position : PositionState) : Signal :=
  { strategy.closeSignal candle indicators position candle.close timeoutReason with
    metadata := { breakoutLevel := management.breakoutLevel } }

/-- The watch after a candle. -/
def watched : PositionManagement :=
  { management with failureWatchBars := management.failureWatchBars + 1 }

/-- The branch of `should_exit` for `FAILURE_WATCH`. -/
def manageWatch (position : PositionState) :
    Except BacktestError (PositionManagement × Option Signal) := do
  let watched := management.watched
  if ← watched.recovered candle indicators then
    return (watched.recover candle.openTime, none)
  else if watched.failureWatchBars ≥ failureWatchMaxBars then
    return (watched.timeOut candle.openTime,
      some (watched.timeoutSignal strategy candle indicators position))
  else return (watched, none)

/-- The part of `should_exit` after the exits of v1. -/
def manage (position : PositionState) :
    Except BacktestError (PositionManagement × Option Signal) :=
  match management.positionState with
  | none => .error (.strategy
      ("Open portfolio position for " ++ candle.symbol ++ " has no v2 position-management state"))
  | some positionState =>
    match management.observe candle.openTime, positionState with
    | none, _ => .ok (management, none)
    | some observed, .normalPosition =>
      (observed.manageNormal candle indicators).map fun managed => (managed, none)
    | some observed, .failureWatch => observed.manageWatch strategy candle indicators position

/-- What `on_fill` does for a purchase. -/
def startPosition (signal : Signal) (fill : Fill) : Except BacktestError PositionManagement :=
  match signal.metadata.breakoutLevel with
  | none => .error (.strategy "Breakout Retest v2 entry fill is missing breakout_level metadata")
  | some level =>
    if level ≤ 0 then .error (.strategy "breakout_level must be positive")
    else .ok (({ management.reset with
      positionState := some .normalPosition, entryFillTime := some fill.timestamp
      entryPrice := some fill.price, breakoutLevel := some level }).appendEvent
        (.positionNormalStarted fill.timestamp fill.price level))

/-- What `on_fill` does for a sale. -/
def closePosition (signal : Signal) (fill : Fill) : PositionManagement :=
  (management.appendEvent (.positionClosed fill.timestamp signal.reason fill.price)).reset

/-! ### What a call can do -/

/-- The structure fails. -/
def Fails (indicators : StrategyIndicators) (close level : Decimal) : Prop :=
  ∃ ema20 ema50, indicators.ema20 = some ema20 ∧ indicators.ema50 = some ema50 ∧
    close < ema20 ∧ close < ema50 ∧ close < level

/-- The structure is reclaimed. -/
def Reclaims (indicators : StrategyIndicators) (close level : Decimal) : Prop :=
  ∃ ema20 ema50, indicators.ema20 = some ema20 ∧ indicators.ema50 = some ema50 ∧
    close ≥ ema20 ∧ close ≥ ema50 ∧ close ≥ level

/-- What `should_exit` makes of a position with a breakout level, and the signal that it returns. -/
inductive Managed (strategy : StrategyIdentity) (candle : BacktestCandle StrategyIndicators)
    (indicators : StrategyIndicators) (position : PositionState) (level : Decimal)
    (management : PositionManagement) : Option Signal → PositionManagement → Option Signal → Prop
  | preempted (hardExit : Signal) :
      Managed strategy candle indicators position level management (some hardExit)
        (management.markWatchHardExit hardExit candle.openTime) (some hardExit)
  | repeated (repeated : management.lastPositionObservedTime = some candle.openTime) :
      Managed strategy candle indicators position level management none management none
  | kept (new : management.lastPositionObservedTime ≠ some candle.openTime)
      (state : management.positionState = some .normalPosition)
      (unfailed : management.failureWatchUsed = true ∨
        management.positionAgeBars + 1 < failureDetectionAgeBars ∨ ¬Fails indicators candle.close level) :
      Managed strategy candle indicators position level management none
        (management.observed candle.openTime) none
  | started (trigger : WatchTrigger) (new : management.lastPositionObservedTime ≠ some candle.openTime)
      (state : management.positionState = some .normalPosition)
      (unused : management.failureWatchUsed = false)
      (age : failureDetectionAgeBars ≤ management.positionAgeBars + 1)
      (fails : Fails indicators candle.close level) :
      Managed strategy candle indicators position level management none
        ((management.observed candle.openTime).startWatch candle indicators trigger) none
  | recovered (new : management.lastPositionObservedTime ≠ some candle.openTime)
      (state : management.positionState = some .failureWatch)
      (reclaims : Reclaims indicators candle.close level) :
      Managed strategy candle indicators position level management none
        ((management.observed candle.openTime).watched.recover candle.openTime) none
  | timedOut (new : management.lastPositionObservedTime ≠ some candle.openTime)
      (state : management.positionState = some .failureWatch)
      (unreclaimed : ¬Reclaims indicators candle.close level)
      (bars : failureWatchMaxBars ≤ management.failureWatchBars + 1) :
      Managed strategy candle indicators position level management none
        ((management.observed candle.openTime).watched.timeOut candle.openTime)
        (some ((management.observed candle.openTime).watched.timeoutSignal strategy candle indicators
          position))
  | watched (new : management.lastPositionObservedTime ≠ some candle.openTime)
      (state : management.positionState = some .failureWatch)
      (unreclaimed : ¬Reclaims indicators candle.close level)
      (bars : management.failureWatchBars + 1 < failureWatchMaxBars) :
      Managed strategy candle indicators position level management none
        (management.observed candle.openTime).watched none

section Managed

variable {level : Decimal}

omit strategy candle indicators

theorem manageNormal_cases (candle : BacktestCandle StrategyIndicators)
    (indicators : StrategyIndicators) {management : PositionManagement}
    (hlevel : management.breakoutLevel = some level) (hpositive : 0 < level) :
    (management.manageNormal candle indicators = .ok management ∧
      (management.failureWatchUsed = true ∨ management.positionAgeBars < failureDetectionAgeBars ∨
        ¬Fails indicators candle.close level)) ∨
    ∃ trigger, management.manageNormal candle indicators =
        .ok (management.startWatch candle indicators trigger) ∧
      management.failureWatchUsed = false ∧
      failureDetectionAgeBars ≤ management.positionAgeBars ∧ Fails indicators candle.close level := by
  unfold manageNormal
  split
  · rename_i hused
    exact Or.inl ⟨rfl, Or.inl hused⟩
  rename_i hunused
  split
  · rename_i hyoung
    exact Or.inl ⟨rfl, Or.inr (Or.inl hyoung)⟩
  rename_i hage
  split
  · rename_i ema20 ema50 hema20 hema50
    simp only [hlevel, if_neg (not_le.mpr hpositive)]
    split
    · rename_i hfails
      exact Or.inr ⟨_, rfl, Bool.not_eq_true _ ▸ hunused, not_lt.mp hage,
        ema20, ema50, hema20, hema50, hfails⟩
    · rename_i hholds
      refine Or.inl ⟨rfl, Or.inr (Or.inr ?_)⟩
      rintro ⟨ema20', ema50', hema20', hema50', hfails⟩
      cases hema20.symm.trans hema20'
      cases hema50.symm.trans hema50'
      exact hholds hfails
  · rename_i hmissing
    refine Or.inl ⟨rfl, Or.inr (Or.inr ?_)⟩
    rintro ⟨ema20, ema50, hema20, hema50, -⟩
    exact hmissing ema20 ema50 hema20 hema50

theorem recovered_eq (candle : BacktestCandle StrategyIndicators) (indicators : StrategyIndicators)
    {management : PositionManagement}
    (hlevel : management.breakoutLevel = some level) :
    ∃ recovered, management.recovered candle indicators = .ok recovered ∧
      (recovered = true ↔ Reclaims indicators candle.close level) := by
  unfold recovered
  split
  · rename_i ema20 ema50 hema20 hema50
    refine ⟨decide (candle.close ≥ ema20 ∧ candle.close ≥ ema50 ∧ candle.close ≥ level),
      by simp only [hlevel], ?_⟩
    rw [decide_eq_true_eq]
    constructor
    · exact fun hreclaims => ⟨ema20, ema50, hema20, hema50, hreclaims⟩
    · rintro ⟨ema20', ema50', hema20', hema50', hreclaims⟩
      cases hema20.symm.trans hema20'
      cases hema50.symm.trans hema50'
      exact hreclaims
  · rename_i hmissing
    refine ⟨false, rfl, ?_⟩
    simp only [Bool.false_eq_true, false_iff]
    rintro ⟨ema20, ema50, hema20, hema50, -⟩
    exact hmissing ema20 ema50 hema20 hema50

/-- A position with its level is managed, and nothing is raised. -/
theorem manage_managed (strategy : StrategyIdentity) (candle : BacktestCandle StrategyIndicators)
    (indicators : StrategyIndicators) (position : PositionState) {management : PositionManagement}
    (hstate : management.positionState ≠ none)
    (hlevel : management.breakoutLevel = some level) (hpositive : 0 < level) :
    ∃ after signal, management.manage strategy candle indicators position = .ok (after, signal) ∧
      Managed strategy candle indicators position level management none after signal := by
  unfold manage
  cases hpositionState : management.positionState with
  | none => exact absurd hpositionState hstate
  | some positionState =>
    by_cases hrepeated : management.lastPositionObservedTime = some candle.openTime
    · exact ⟨management, none, by simp only [observe, hrepeated, if_true], .repeated hrepeated⟩
    simp only [observe, if_neg hrepeated]
    cases positionState with
    | normalPosition =>
      rcases manageNormal_cases candle indicators
        (show (management.observed candle.openTime).breakoutLevel = some level from hlevel) hpositive
        with ⟨hkept, hunfailed⟩ | ⟨trigger, hstarted, hunused, hage, hfails⟩
      · exact ⟨_, _, by simp only [hkept, Except.map], .kept hrepeated hpositionState hunfailed⟩
      · exact ⟨_, _, by simp only [hstarted, Except.map],
          .started trigger hrepeated hpositionState hunused hage hfails⟩
    | failureWatch =>
      obtain ⟨recovered, hrecovered, hreclaims⟩ := recovered_eq candle indicators
        (show (management.observed candle.openTime).watched.breakoutLevel = some level from hlevel)
      simp only [manageWatch, hrecovered]
      cases recovered with
      | true =>
        exact ⟨_, _, rfl, .recovered hrepeated hpositionState (hreclaims.mp rfl)⟩
      | false =>
        have hunreclaimed : ¬Reclaims indicators candle.close level := fun h =>
          Bool.false_ne_true (hreclaims.mpr h)
        by_cases hbars : failureWatchMaxBars ≤ management.failureWatchBars + 1
        · refine ⟨_, _, ?_, .timedOut hrepeated hpositionState hunreclaimed hbars⟩
          exact if_pos hbars
        · refine ⟨_, _, ?_, .watched hrepeated hpositionState hunreclaimed (not_le.mp hbars)⟩
          exact if_neg hbars

/-- What v2 adds to the exits is the timeout close. -/
theorem manage_signal {strategy : StrategyIdentity} {candle : BacktestCandle StrategyIndicators}
    {indicators : StrategyIndicators} {position : PositionState} {management after : PositionManagement}
    {signal : Signal}
    (h : management.manage strategy candle indicators position = .ok (after, some signal)) :
    ∃ watched : PositionManagement,
      signal = watched.timeoutSignal strategy candle indicators position := by
  unfold manage at h
  split at h
  · cases h
  split at h
  · cases h
  · obtain ⟨managed, -, hmanaged⟩ := map_eq_ok_iff.mp h
    cases hmanaged
  · obtain ⟨recovered, -, hrest⟩ := bind_eq_ok_iff.mp h
    split at hrest
    · cases hrest
    split at hrest
    · cases hrest
      exact ⟨_, rfl⟩
    · cases hrest

end Managed

end PositionManagement

/-- The state of `BreakoutRetestV2Strategy`: that of v1, and the entries that v2 adds for each symbol. -/
structure BreakoutRetestV2State where
  retest : BreakoutRetestState := {}
  managed : Dict String PositionManagement := .empty
  deriving DecidableEq

namespace BreakoutRetestV2State

variable (state : BreakoutRetestV2State) (strategy : StrategyIdentity)
  (candle : BacktestCandle StrategyIndicators) (indicators : StrategyIndicators)

def management (symbol : String) : PositionManagement := (state.managed.get? symbol).getD {}

def withManagement (symbol : String) (management : PositionManagement) : BreakoutRetestV2State :=
  { state with managed := state.managed.set symbol management }

/-- `BreakoutRetestV2Strategy.should_enter`. -/
def shouldEnter (entry : EntryState) :
    Except BacktestError (BreakoutRetestV2State × Option Signal) := do
  let management := state.management candle.symbol
  let settled := if !entry.hasPosition && management.positionState.isSome then
    state.withManagement candle.symbol management.reset else state
  let (retest, signal) ← settled.retest.shouldEnter strategy candle indicators entry
  return ({ settled with retest }, signal)

/-- `BreakoutRetestV2Strategy.should_exit`. -/
def shouldExit (position : PositionState) :
    Except BacktestError (BreakoutRetestV2State × Option Signal) :=
  let (retest, hardExit) := state.retest.shouldExit strategy candle indicators position
  let observed := { state with retest }
  let management := state.management candle.symbol
  match hardExit with
  | some signal =>
    .ok (observed.withManagement candle.symbol
      (management.markWatchHardExit signal candle.openTime), some signal)
  | none =>
    (management.manage strategy candle indicators position).map fun managed =>
      (observed.withManagement candle.symbol managed.1, managed.2)

/-- `should_exit` of a position with its level raises nothing. -/
theorem shouldExit_managed {state : BreakoutRetestV2State} (position : PositionState) {level : Decimal}
    (hstate : (state.management candle.symbol).positionState ≠ none)
    (hlevel : (state.management candle.symbol).breakoutLevel = some level) (hpositive : 0 < level) :
    ∃ after signal, state.shouldExit strategy candle indicators position =
        .ok ({ state with
          retest := (state.retest.shouldExit strategy candle indicators position).1
          managed := state.managed.set candle.symbol after }, signal) ∧
      PositionManagement.Managed strategy candle indicators position level
        (state.management candle.symbol)
        (state.retest.shouldExit strategy candle indicators position).2 after signal := by
  unfold shouldExit
  cases hexit : (state.retest.shouldExit strategy candle indicators position).2 with
  | some hardExit => exact ⟨_, _, by simp only [hexit]; rfl, .preempted hardExit⟩
  | none =>
    obtain ⟨after, signal, hmanage, hmanaged⟩ := PositionManagement.manage_managed strategy candle
      indicators position hstate hlevel hpositive
    exact ⟨after, signal, by simp only [hexit, hmanage]; rfl, hmanaged⟩

/-- `BreakoutRetestV2Strategy.on_fill`. -/
def onFill (signal : Signal) (fill : Fill) : Except BacktestError BreakoutRetestV2State :=
  let filled := { state with retest := state.retest.onFill signal }
  let management := state.management signal.symbol
  match fill.side with
  | .buy => (management.startPosition signal fill).map (filled.withManagement signal.symbol)
  | .sell => .ok (filled.withManagement signal.symbol (management.closePosition signal fill))

/-! v2 does to the state of v1 what v1 does. -/

theorem retest_shouldEnter {state after : BreakoutRetestV2State} {entry : EntryState}
    {signal : Option Signal}
    (h : state.shouldEnter strategy candle indicators entry = .ok (after, signal)) :
    state.retest.shouldEnter strategy candle indicators entry = .ok (after.retest, signal) ∧
      (after.management candle.symbol = state.management candle.symbol ∨
        after.management candle.symbol = (state.management candle.symbol).reset) := by
  obtain ⟨⟨retest, bought⟩, hretest, hreturned⟩ := bind_eq_ok_iff.mp h
  cases hreturned
  split at hretest
  · rename_i hsettles
    refine ⟨hretest, Or.inr ?_⟩
    rw [if_pos hsettles]
    simp [management, withManagement]
  · rename_i hkept
    refine ⟨hretest, Or.inl ?_⟩
    rw [if_neg hkept]
    rfl

theorem retest_shouldExit {state after : BreakoutRetestV2State} {position : PositionState}
    {signal : Option Signal}
    (h : state.shouldExit strategy candle indicators position = .ok (after, signal)) :
    after.retest = (state.retest.shouldExit strategy candle indicators position).1 := by
  unfold shouldExit at h
  simp only at h
  split at h
  · cases h
    rfl
  · obtain ⟨managed, -, hmanaged⟩ := map_eq_ok_iff.mp h
    cases hmanaged
    rfl

/-- The exits are sales of the position: those of v1, and the timeout close. -/
theorem shouldExit_signal {state after : BreakoutRetestV2State} {position : PositionState}
    {signal : Signal}
    (h : state.shouldExit strategy candle indicators position = .ok (after, some signal)) :
    signal.symbol = candle.symbol ∧ signal.action = "close" ∧
      ((state.retest.shouldExit strategy candle indicators position).2 = some signal ∨
        (state.retest.shouldExit strategy candle indicators position).2 = none ∧
          signal.reason = timeoutReason) := by
  unfold shouldExit at h
  simp only at h
  split at h
  · rename_i hardExit hexit
    cases h
    obtain ⟨price, reason, rfl⟩ := BreakoutRetestState.shouldExit_signal hexit
    exact ⟨rfl, rfl, Or.inl hexit⟩
  · rename_i hexit
    obtain ⟨⟨managed, timeout⟩, hmanage, hmanaged⟩ := map_eq_ok_iff.mp h
    cases hmanaged
    obtain ⟨watched, rfl⟩ := PositionManagement.manage_signal hmanage
    exact ⟨rfl, rfl, Or.inr ⟨hexit, rfl⟩⟩

theorem retest_onFill {state after : BreakoutRetestV2State} {signal : Signal} {fill : Fill}
    (h : state.onFill signal fill = .ok after) : after.retest = state.retest.onFill signal := by
  unfold onFill at h
  cases hside : fill.side with
  | buy =>
    simp only [hside] at h
    obtain ⟨started, -, rfl⟩ := map_eq_ok_iff.mp h
    rfl
  | sell =>
    simp only [hside] at h
    cases h
    rfl

end BreakoutRetestV2State

/-- `BreakoutRetestV2Strategy`. -/
def breakoutRetestV2Strategy (strategy : StrategyIdentity) :
    SignalStrategy BreakoutRetestV2State StrategyIndicators where
  shouldEnter state candle indicators entry := state.shouldEnter strategy candle indicators entry
  shouldExit state candle indicators position :=
    state.shouldExit strategy candle indicators position
  shouldAddDca state candle _ _ := .ok ({ state with retest := state.retest.observe candle }, none)
  onFill state signal fill := state.onFill signal fill

end CryptoTrading
