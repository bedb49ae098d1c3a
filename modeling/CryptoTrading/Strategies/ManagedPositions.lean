import CryptoTrading.Strategies.BreakoutRetestV2
import CryptoTrading.Strategies.StrategySession

/-! The positions that Breakout Retest v2 manages, over the turns of a run on any symbols.  A turn moves
the management of a symbol and whether its position is held, at the open and at the close of a candle. -/

namespace CryptoTrading

open Kit

variable {strategy : StrategyIdentity} {candle : BacktestCandle StrategyIndicators}
  {indicators : StrategyIndicators} {position : PositionState} {signal : Signal} {fill : Fill}

/-! ### What the calls do to the managements -/

namespace BreakoutRetestV2State

variable {state after : BreakoutRetestV2State} {answer : Option Signal}

theorem management_withManagement (state : BreakoutRetestV2State) (symbol : String)
    (management : PositionManagement) :
    (state.withManagement symbol management).management =
      Function.update state.management symbol management := by
  funext other
  simp only [BreakoutRetestV2State.management, withManagement, Dict.get?_set, Function.update_apply]
  by_cases h : symbol = other
  · rw [if_pos h, if_pos h.symm]
    rfl
  · rw [if_neg h, if_neg (Ne.symm h)]

theorem management_shouldEnter {entry : EntryState}
    (h : state.shouldEnter strategy candle indicators entry = .ok (after, answer)) :
    after.management = state.management ∨ after.management =
      Function.update state.management candle.symbol (state.management candle.symbol).reset := by
  obtain ⟨⟨retest, bought⟩, -, hreturned⟩ := bind_eq_ok_iff.mp h
  cases hreturned
  split
  · exact Or.inr (management_withManagement _ _ _)
  · exact Or.inl rfl

theorem management_onFill_buy (hside : fill.side = .buy)
    (h : state.onFill signal fill = .ok after) :
    ∃ started, (state.management signal.symbol).startPosition signal fill = .ok started ∧
      after.management = Function.update state.management signal.symbol started := by
  simp only [onFill, hside] at h
  obtain ⟨started, hstarted, rfl⟩ := map_eq_ok_iff.mp h
  exact ⟨started, hstarted, management_withManagement _ _ _⟩

theorem management_onFill_sell (hside : fill.side = .sell)
    (h : state.onFill signal fill = .ok after) : after.management =
      Function.update state.management signal.symbol
        ((state.management signal.symbol).closePosition signal fill) := by
  simp only [onFill, hside] at h
  cases h
  exact management_withManagement _ _ _

end BreakoutRetestV2State

namespace PositionManagement

variable {management after : PositionManagement} {hardExit answer : Option Signal} {level : Decimal}

/-- A position that `should_exit` can manage. -/
def IsManaged (management : PositionManagement) : Prop :=
  management.positionState ≠ none ∧ ∃ level, management.breakoutLevel = some level ∧ 0 < level

theorem isManaged_startPosition (h : management.startPosition signal fill = .ok after) :
    after.IsManaged := by
  unfold startPosition at h
  split at h
  · cases h
  · rename_i level _
    split at h
    · cases h
    · rename_i hpositive
      cases h
      exact ⟨nofun, level, rfl, not_le.mp hpositive⟩

theorem Managed.isManaged
    (h : Managed strategy candle indicators position level management hardExit after answer)
    (hmanaged : management.IsManaged) : after.IsManaged := by
  obtain ⟨hstate, hlevel⟩ := hmanaged
  cases h with
  | preempted hardExit =>
    unfold markWatchHardExit
    split <;> exact ⟨hstate, hlevel⟩
  | repeated _ => exact ⟨hstate, hlevel⟩
  | kept _ _ _ => exact ⟨hstate, hlevel⟩
  | started _ _ _ _ _ _ => exact ⟨nofun, hlevel⟩
  | recovered _ _ _ => exact ⟨nofun, hlevel⟩
  | timedOut _ _ _ _ =>
    unfold timeOut
    split <;> exact ⟨hstate, hlevel⟩
  | watched _ _ _ _ => exact ⟨hstate, hlevel⟩

/-- The open of a candle moves the management of a symbol, and whether its position is held. -/
inductive Opened (pending : Option Signal) (symbol : String) (management : PositionManagement)
    (held : Bool) : PositionManagement → Bool → Prop
  | same : Opened pending symbol management held management held
  | bought {signal : Signal} {fill : Fill} {started : PositionManagement} (flat : held = false)
      (starts : management.startPosition signal fill = .ok started) :
      Opened pending symbol management held started true
  | sold {signal : Signal} (fill : Fill) (isPending : pending = some signal)
      (own : signal.symbol = symbol)
      (side : (SignalAction.ofValue? signal.action).map SignalAction.side = some .sell)
      (wasHeld : held = true) :
      Opened pending symbol management held (management.closePosition signal fill) false

/-- The levels and the close of a candle move the management of a symbol, and whether its position is
held. -/
inductive Closed (strategy : StrategyIdentity) (candle : BacktestCandle StrategyIndicators)
    (indicators : StrategyIndicators) (shown : Option PositionState)
    (hardExit : PositionState → Option Signal) (symbol : String) (closedByLevel : Bool)
    (management : PositionManagement) (held : Bool) : PositionManagement → Bool → Prop
  | same : Closed strategy candle indicators shown hardExit symbol closedByLevel management held
      management held
  | stopped (byLevel : closedByLevel = true) (wasHeld : held = true) :
      Closed strategy candle indicators shown hardExit symbol closedByLevel management held
        management false
  | settled (flat : held = false) :
      Closed strategy candle indicators shown hardExit symbol closedByLevel management held
        management.reset false
  | managed {position : PositionState} {after : PositionManagement} {answer : Option Signal}
      {level : Decimal} (isShown : shown = some position) (own : symbol = candle.symbol)
      (notByLevel : closedByLevel = false) (wasHeld : held = true)
      (isLevel : management.breakoutLevel = some level)
      (managed : Managed strategy candle indicators position level management (hardExit position)
        after answer) :
      Closed strategy candle indicators shown hardExit symbol closedByLevel management held after true

theorem Opened.isManaged {pending : Option Signal} {symbol : String} {held held' : Bool}
    (h : Opened pending symbol management held after held')
    (hmanaged : held = true → management.IsManaged) (hheld : held' = true) : after.IsManaged := by
  cases h with
  | same => exact hmanaged hheld
  | bought _ starts => exact isManaged_startPosition starts
  | sold _ _ _ _ _ => cases hheld

theorem Closed.isManaged {shown : Option PositionState} {hardExit : PositionState → Option Signal}
    {symbol : String} {closedByLevel held held' : Bool}
    (h : Closed strategy candle indicators shown hardExit symbol closedByLevel management held after
      held') (hmanaged : held = true → management.IsManaged) (hheld : held' = true) :
    after.IsManaged := by
  cases h with
  | same => exact hmanaged hheld
  | stopped _ _ => cases hheld
  | settled _ => cases hheld
  | managed _ _ _ wasHeld _ managed => exact managed.isManaged (hmanaged wasHeld)

end PositionManagement

theorem BreakoutRetestV2State.management_manage {state after : BreakoutRetestV2State}
    {answer : Option Signal} (hmanaged : (state.management candle.symbol).IsManaged)
    (h : (breakoutRetestV2Strategy strategy).manage state candle indicators position =
      .ok (after, answer)) :
    ∃ managed level, (state.management candle.symbol).breakoutLevel = some level ∧
      PositionManagement.Managed strategy candle indicators position level
        (state.management candle.symbol)
        (state.retest.shouldExit strategy candle indicators position).2 managed answer ∧
      after.management = Function.update state.management candle.symbol managed ∧
      ∀ signal, answer = some signal → signal.symbol = candle.symbol ∧ signal.action = "close" := by
  obtain ⟨hstate, level, hlevel, hpositive⟩ := hmanaged
  obtain ⟨managed, exit, hexit, hmanages⟩ :=
    shouldExit_managed strategy candle indicators position hstate hlevel hpositive
  obtain ⟨⟨mid, signal⟩, hreturned, hrest⟩ := bind_eq_ok_iff.mp h
  have hclose : ∀ sale, exit = some sale → sale.symbol = candle.symbol ∧ sale.action = "close" := by
    rintro sale rfl
    have hsignal := shouldExit_signal strategy candle indicators hexit
    exact ⟨hsignal.1, hsignal.2.1⟩
  cases hexit.symm.trans hreturned
  have hmanagement := management_withManagement { state with
    retest := (state.retest.shouldExit strategy candle indicators position).1 } candle.symbol managed
  cases exit with
  | some sale =>
    cases hrest
    exact ⟨managed, level, hlevel, hmanages, hmanagement, hclose⟩
  | none =>
    cases hrest
    exact ⟨managed, level, hlevel, hmanages, hmanagement, fun signal hsignal => nomatch hsignal⟩

/-- A position that can be managed is, and nothing is raised. -/
theorem BreakoutRetestV2State.manage_ok (strategy : StrategyIdentity)
    (candle : BacktestCandle StrategyIndicators) (indicators : StrategyIndicators)
    (position : PositionState) {state : BreakoutRetestV2State}
    (hmanaged : (state.management candle.symbol).IsManaged) :
    ∃ answer, (breakoutRetestV2Strategy strategy).manage state candle indicators position =
      .ok answer := by
  obtain ⟨hstate, level, hlevel, hpositive⟩ := hmanaged
  obtain ⟨managed, exit, hexit, -⟩ :=
    shouldExit_managed strategy candle indicators position hstate hlevel hpositive
  cases exit with
  | some sale => exact ⟨_, bind_eq_ok_iff.mpr ⟨_, hexit, rfl⟩⟩
  | none => exact ⟨_, bind_eq_ok_iff.mpr ⟨_, hexit, rfl⟩⟩

/-! ### The turns -/

/-- Every position that is held can be managed, and a purchase is pending only without one. -/
structure HoldsManaged (session : StrategySession BreakoutRetestV2State) : Prop where
  managed : ∀ symbol, session.held symbol = true →
    (session.strategyState.management symbol).IsManaged
  entering : ∀ signal, session.pending = some signal →
    (SignalAction.ofValue? signal.action).map SignalAction.side = some .buy →
    session.held signal.symbol = false

section Turns

variable {session opened after : StrategySession BreakoutRetestV2State}
  {levelled : Bool × StrategySession BreakoutRetestV2State} {shown : Option PositionState}

theorem HoldsManaged.opens (h : HoldsManaged session)
    (hopens : StrategySession.Opens (breakoutRetestV2Strategy strategy) candle session (.ok opened))
    (symbol : String) :
    PositionManagement.Opened session.pending symbol (session.strategyState.management symbol)
      (session.held symbol) (opened.strategyState.management symbol) (opened.held symbol) := by
  obtain ⟨outcome, houtcome⟩ : ∃ outcome, outcome = Except.ok (ε := BacktestError) opened := ⟨_, rfl⟩
  rw [← houtcome] at hopens
  cases hopens with
  | idle _ => cases houtcome; exact .same
  | unfilled _ => cases houtcome; exact .same
  | @filled signal fill hpending hside hheld =>
    obtain ⟨filled, hfilled, rfl⟩ := map_eq_ok_iff.mp houtcome
    simp only [StrategySession.filled]
    by_cases hsymbol : symbol = signal.symbol
    · subst hsymbol
      cases hbuy : fill.side with
      | buy =>
        obtain ⟨started, hstarted, hmanagement⟩ :=
          BreakoutRetestV2State.management_onFill_buy hbuy hfilled
        rw [hmanagement, Function.update_self, Function.update_self]
        exact .bought (h.entering signal hpending (hside.trans (congrArg some hbuy))) hstarted
      | sell =>
        rw [BreakoutRetestV2State.management_onFill_sell hbuy hfilled, Function.update_self,
          Function.update_self]
        exact .sold fill hpending rfl (hside.trans (congrArg some hbuy)) (hheld hbuy)
    · have hother : filled.management symbol = session.strategyState.management symbol := by
        cases hbuy : fill.side with
        | buy =>
          obtain ⟨started, -, hmanagement⟩ :=
            BreakoutRetestV2State.management_onFill_buy hbuy hfilled
          rw [hmanagement, Function.update_of_ne hsymbol]
        | sell =>
          rw [BreakoutRetestV2State.management_onFill_sell hbuy hfilled,
            Function.update_of_ne hsymbol]
      rw [hother, Function.update_of_ne hsymbol]
      exact .same

/-- The levels and the close of a candle, when the positions that are held can be managed. -/
theorem closed_of_closes
    (hmanaged : ∀ symbol, opened.held symbol = true →
      (opened.strategyState.management symbol).IsManaged)
    (hlevels : StrategySession.Levels candle.symbol opened levelled)
    (hcloses : StrategySession.Closes (breakoutRetestV2Strategy strategy) candle indicators shown
      levelled (.ok after)) (symbol : String) :
    PositionManagement.Closed strategy candle indicators shown
      (fun position =>
        (levelled.2.strategyState.retest.shouldExit strategy candle indicators position).2)
      symbol levelled.1 (opened.strategyState.management symbol) (opened.held symbol)
      (after.strategyState.management symbol) (after.held symbol) := by
  obtain ⟨outcome, houtcome⟩ : ∃ outcome, outcome = Except.ok (ε := BacktestError) after := ⟨_, rfl⟩
  rw [← houtcome] at hcloses
  cases hlevels with
  | closed hheld =>
    cases hcloses
    cases houtcome
    simp only [StrategySession.stopped]
    by_cases hsymbol : symbol = candle.symbol
    · subst hsymbol
      rw [Function.update_self]
      exact .stopped rfl hheld
    · rw [Function.update_of_ne hsymbol]
      exact .same
  | untouched =>
    obtain _ | hcall := hcloses
    cases hcall with
    | entered hflat _ =>
      obtain ⟨answer, hanswer, rfl⟩ := map_eq_ok_iff.mp houtcome
      simp only [StrategySession.called]
      rcases BreakoutRetestV2State.management_shouldEnter hanswer with hsame | hreset
      · rw [hsame]
        exact .same
      · rw [hreset]
        by_cases hsymbol : symbol = candle.symbol
        · subst hsymbol
          rw [Function.update_self, hflat]
          exact .settled rfl
        · rw [Function.update_of_ne hsymbol]
          exact .same
    | managed hheld =>
      obtain ⟨answer, hanswer, rfl⟩ := map_eq_ok_iff.mp houtcome
      obtain ⟨managed, level, hlevel, hmanages, hmanagement, -⟩ :=
        BreakoutRetestV2State.management_manage (hmanaged _ hheld) hanswer
      simp only [StrategySession.called]
      rw [hmanagement]
      by_cases hsymbol : symbol = candle.symbol
      · subst hsymbol
        rw [Function.update_self, hheld]
        exact .managed rfl rfl rfl rfl hlevel hmanages
      · rw [Function.update_of_ne hsymbol]
        exact .same

theorem HoldsManaged.isManaged_opened (h : HoldsManaged session)
    (hopens : StrategySession.Opens (breakoutRetestV2Strategy strategy) candle session (.ok opened))
    (symbol : String) (hheld : opened.held symbol = true) :
    (opened.strategyState.management symbol).IsManaged :=
  (h.opens hopens symbol).isManaged (h.managed symbol) hheld

/-- A turn keeps the positions managed. -/
theorem HoldsManaged.turn (h : HoldsManaged session)
    (hturn : StrategySession.Turn (breakoutRetestV2Strategy strategy) candle indicators shown session
      opened levelled after) : HoldsManaged after := by
  have hopened := h.isManaged_opened hturn.opens
  constructor
  · exact fun symbol hheld => (closed_of_closes hopened hturn.levels hturn.closes symbol).isManaged
      (hopened symbol) hheld
  · intro signal hpending hbuy
    have hidle := hturn.levels.pending.trans hturn.idle
    have hcloses := hturn.closes
    obtain ⟨outcome, houtcome⟩ : ∃ outcome, outcome = Except.ok (ε := BacktestError) after := ⟨_, rfl⟩
    rw [← houtcome] at hcloses
    cases hturn.levels with
    | closed _ =>
      cases hcloses
      cases houtcome
      rw [hidle] at hpending
      cases hpending
    | untouched =>
      obtain _ | hcall := hcloses
      cases hcall with
      | entered hflat _ =>
        obtain ⟨⟨entered, bought⟩, hanswer, rfl⟩ := map_eq_ok_iff.mp houtcome
        obtain ⟨hentered, -⟩ := BreakoutRetestV2State.retest_shouldEnter strategy candle indicators
          hanswer
        obtain ⟨_, _, _, _, hsignal⟩ := BreakoutRetestState.shouldEnter_ok hentered
        obtain ⟨hsymbol, -⟩ := hsignal signal hpending
        rw [hsymbol]
        exact hflat
      | managed hheld =>
        obtain ⟨answer, hanswer, rfl⟩ := map_eq_ok_iff.mp houtcome
        obtain ⟨_, _, _, _, _, hclose⟩ :=
          BreakoutRetestV2State.management_manage (hopened _ hheld) hanswer
        rw [(hclose signal hpending).2] at hbuy
        cases hbuy

end Turns

end CryptoTrading
