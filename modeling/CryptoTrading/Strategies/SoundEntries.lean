import CryptoTrading.Strategies.ManagedPositions

/-! Breakout Retest v2 raises nothing of its own.  A breakout is armed at a level of the highs, which is
positive; so every purchase carries a positive level, and every position is managed. -/

namespace CryptoTrading

open Kit

variable {strategy : StrategyIdentity} {candle : BacktestCandle StrategyIndicators}
  {indicators : StrategyIndicators}

/-! ### The entries -/

namespace BreakoutSymbolState

variable {symbolState after : BreakoutSymbolState} {bought : Option Breakout} {hasPosition : Bool}

/-- The highs and the levels are positive. -/
structure Sound (symbolState : BreakoutSymbolState) : Prop where
  armed : symbolState.Armed
  highs : ∀ high ∈ symbolState.recentHighs, 0 < high
  resistance : ∀ level, symbolState.lastPriorResistance = some level → 0 < level

theorem sound_new : Sound {} :=
  ⟨fun h => (by cases h), fun high h => absurd h List.not_mem_nil, fun level h => (by cases h)⟩

theorem Sound.observeCandle (h : symbolState.Sound) (hhigh : 0 < candle.highPrice) :
    (symbolState.observeCandle candle).2.Sound ∧
      ∀ level, (symbolState.observeCandle candle).1 = some level → 0 < level := by
  unfold BreakoutSymbolState.observeCandle
  split
  · exact ⟨h, h.resistance⟩
  · have hresistance : ∀ level, (if symbolState.recentHighs.length ≥ resistanceLookbackBars then
        (symbolState.recentHighs.rtake resistanceLookbackBars).max? else none) = some level →
        0 < level := by
      intro level hlevel
      split at hlevel
      · have hmem := List.max?_mem hlevel
        exact h.highs level (List.mem_of_mem_drop hmem)
      · cases hlevel
    refine ⟨⟨h.armed, fun high hmem => ?_, hresistance⟩, hresistance⟩
    rcases List.mem_append.mp (List.mem_of_mem_drop hmem) with hmem | hmem
    · exact h.highs high hmem
    · rwa [List.mem_singleton.mp hmem]

theorem Sound.clearBreakout (h : symbolState.Sound) : symbolState.clearBreakout.Sound :=
  ⟨fun harmed => (by cases harmed), h.highs, h.resistance⟩

/-- What `should_enter` does is sound, and it raises nothing. -/
theorem Sound.advance (h : symbolState.Sound) (hhigh : 0 < candle.highPrice)
    (indicators : StrategyIndicators) (hasPosition : Bool) :
    ∃ after bought, symbolState.advance candle indicators hasPosition = .ok (after, bought) ∧
      after.Sound ∧ ∀ breakout, bought = some breakout → 0 < breakout.breakoutLevel := by
  obtain ⟨hobserved, hresistance⟩ := h.observeCandle hhigh
  unfold BreakoutSymbolState.advance
  simp only
  cases hphase : (symbolState.observeCandle candle).2.phase with
  | idle =>
    refine ⟨_, none, rfl, ?_, fun breakout hnone => by cases hnone⟩
    rcases breakOut_cases (symbolState.observeCandle candle).2 candle indicators
      (symbolState.observeCandle candle).1 hasPosition with hsame | ⟨level, hlevel, harmed⟩
    · rwa [hsame]
    · rw [harmed]
      exact ⟨fun _ => ⟨_, rfl, hresistance level hlevel⟩, hobserved.highs, hobserved.resistance⟩
  | breakoutArmed =>
    obtain ⟨breakout, hbreakout, hlevel⟩ := hobserved.armed hphase
    obtain ⟨hretested, hbought⟩ := retest_cases (symbolState.observeCandle candle).2 candle indicators
      breakout hasPosition
    refine ⟨((symbolState.observeCandle candle).2.retest candle indicators breakout hasPosition).1,
      ((symbolState.observeCandle candle).2.retest candle indicators breakout hasPosition).2,
      by simp only [hbreakout], ?_, fun held hheld => hbought held hheld ▸ hlevel⟩
    rcases hretested with hcleared | haged
    · rw [hcleared]
      exact hobserved.clearBreakout
    · rw [haged]
      exact ⟨fun _ => ⟨_, rfl, hlevel⟩, hobserved.highs, hobserved.resistance⟩

end BreakoutSymbolState

namespace BreakoutRetestState

variable {state after : BreakoutRetestState}

/-- What is stored for every symbol is sound. -/
def Sound (state : BreakoutRetestState) : Prop := ∀ symbol, (state.symbolState symbol).Sound

theorem sound_new : Sound {} := fun _ => BreakoutSymbolState.sound_new

theorem Sound.withSymbolState (h : state.Sound) {symbolState : BreakoutSymbolState}
    (hsound : symbolState.Sound) (symbol : String) :
    (state.withSymbolState symbol symbolState).Sound := by
  intro other
  by_cases hother : symbol = other
  · rwa [← hother, symbolState_withSymbolState]
  · have hsame : (state.withSymbolState symbol symbolState).symbolState other =
        state.symbolState other := by
      simp only [BreakoutRetestState.symbolState, BreakoutRetestState.withSymbolState,
        Dict.get?_set_ne _ _ hother]
    rw [hsame]
    exact h other

theorem Sound.observe (h : state.Sound) (hhigh : 0 < candle.highPrice) :
    (state.observe candle).Sound :=
  h.withSymbolState ((h candle.symbol).observeCandle hhigh).1 candle.symbol

theorem Sound.shouldExit (h : state.Sound) (hhigh : 0 < candle.highPrice) (strategy : StrategyIdentity)
    (indicators : StrategyIndicators) (position : PositionState) :
    (state.shouldExit strategy candle indicators position).1.Sound := by
  have hobserved : (state.observe candle).Sound := h.observe hhigh
  exact hobserved

theorem Sound.onFill (h : state.Sound) (signal : Signal) : (state.onFill signal).Sound := by
  unfold BreakoutRetestState.onFill
  split
  · have hsame : state.Sound := h
    exact hsame
  · exact h

/-- A purchase is at a positive level. -/
theorem Sound.shouldEnter (h : state.Sound) (hhigh : 0 < candle.highPrice) {entry : EntryState}
    {signal : Option Signal}
    (henter : state.shouldEnter strategy candle indicators entry = .ok (after, signal)) :
    after.Sound ∧ ∀ opened, signal = some opened →
      ∃ level, opened.metadata.breakoutLevel = some level ∧ 0 < level := by
  obtain ⟨symbolState, bought, hadvance, rfl, hsignal⟩ := shouldEnter_ok henter
  obtain ⟨_, _, hadvanced, hsound, hlevel⟩ :=
    (h candle.symbol).advance hhigh indicators entry.hasPosition
  cases hadvance.symm.trans hadvanced
  refine ⟨h.withSymbolState hsound candle.symbol, fun opened hopened => ?_⟩
  obtain ⟨-, -, breakout, hbreakout, hmetadata⟩ := hsignal opened hopened
  exact ⟨_, hmetadata, hlevel breakout hbreakout⟩

/-- What `should_enter` raises is not the strategy's own. -/
theorem Sound.shouldEnter_error (h : state.Sound) (hhigh : 0 < candle.highPrice) {entry : EntryState}
    {error : BacktestError}
    (henter : state.shouldEnter strategy candle indicators entry = .error error) :
    BacktestRun.Engines error := by
  obtain ⟨symbolState, bought, hadvance, -⟩ :=
    (h candle.symbol).advance hhigh indicators entry.hasPosition
  unfold BreakoutRetestState.shouldEnter at henter
  rw [hadvance] at henter
  cases bought with
  | none => cases henter
  | some breakout =>
    simp only [StrategyIdentity.baseOrder, StrategyIdentity.openSignal, bind, Except.bind] at henter
    split at henter
    · rename_i raised hraised
      cases henter
      split at hraised
      · cases hraised
        exact fun text => BacktestError.noConfusion
      · cases hraised
    · cases henter

end BreakoutRetestState

/-! ### The sessions -/

section Sessions

variable {session opened after : StrategySession BreakoutRetestV2State}
  {levelled : Bool × StrategySession BreakoutRetestV2State} {shown : Option PositionState}

/-- What is stored is sound, the positions are managed, and a pending purchase has its level. -/
structure EntersSoundly (session : StrategySession BreakoutRetestV2State) : Prop
    extends HoldsManaged session where
  sound : session.strategyState.retest.Sound
  levels : ∀ signal, session.pending = some signal →
    (SignalAction.ofValue? signal.action).map SignalAction.side = some .buy →
    ∃ level, signal.metadata.breakoutLevel = some level ∧ 0 < level

theorem EntersSoundly.sound_opened (h : EntersSoundly session)
    (hopens : StrategySession.Opens (breakoutRetestV2Strategy strategy) candle session (.ok opened)) :
    opened.strategyState.retest.Sound := by
  obtain ⟨outcome, houtcome⟩ : ∃ outcome, outcome = Except.ok (ε := BacktestError) opened := ⟨_, rfl⟩
  rw [← houtcome] at hopens
  cases hopens with
  | idle _ => cases houtcome; exact h.sound
  | unfilled _ => cases houtcome; exact h.sound
  | filled _ _ _ =>
    obtain ⟨filled, hfilled, rfl⟩ := map_eq_ok_iff.mp houtcome
    have hretest : filled.retest = _ := BreakoutRetestV2State.retest_onFill hfilled
    have hsound := h.sound.onFill
    simp only [StrategySession.filled, hretest]
    exact hsound _

/-- A turn keeps the entries sound. -/
theorem EntersSoundly.turn (h : EntersSoundly session) (hhigh : 0 < candle.highPrice)
    (hturn : StrategySession.Turn (breakoutRetestV2Strategy strategy) candle indicators shown session
      opened levelled after) : EntersSoundly after := by
  have hopened := h.sound_opened hturn.opens
  have hmanaged := h.isManaged_opened hturn.opens
  have hidle := hturn.levels.pending.trans hturn.idle
  have hcloses := hturn.closes
  obtain ⟨outcome, houtcome⟩ : ∃ outcome, outcome = Except.ok (ε := BacktestError) after := ⟨_, rfl⟩
  rw [← houtcome] at hcloses
  suffices hafter : after.strategyState.retest.Sound ∧ ∀ signal, after.pending = some signal →
      (SignalAction.ofValue? signal.action).map SignalAction.side = some .buy →
      ∃ level, signal.metadata.breakoutLevel = some level ∧ 0 < level from
    ⟨h.toHoldsManaged.turn hturn, hafter.1, hafter.2⟩
  cases hturn.levels with
  | closed _ =>
    cases hcloses
    cases houtcome
    refine ⟨hopened, fun signal hpending => ?_⟩
    rw [hidle] at hpending
    cases hpending
  | untouched =>
    obtain _ | hcall := hcloses
    cases hcall with
    | entered _ _ =>
      obtain ⟨⟨entered, bought⟩, hanswer, rfl⟩ := map_eq_ok_iff.mp houtcome
      obtain ⟨hentered, -⟩ := BreakoutRetestV2State.retest_shouldEnter strategy candle indicators
        hanswer
      obtain ⟨hsound, hlevels⟩ := hopened.shouldEnter hhigh hentered
      exact ⟨hsound, fun signal hpending _ => hlevels signal hpending⟩
    | managed hheld =>
      obtain ⟨⟨answered, exit⟩, hanswer, rfl⟩ := map_eq_ok_iff.mp houtcome
      obtain ⟨_, _, _, _, _, hclose⟩ :=
        BreakoutRetestV2State.management_manage (hmanaged _ hheld) hanswer
      refine ⟨?_, fun signal hpending hbuy => ?_⟩
      · obtain ⟨⟨mid, sale⟩, hexit, hrest⟩ := bind_eq_ok_iff.mp hanswer
        have hmid : mid.retest.Sound := by
          rw [BreakoutRetestV2State.retest_shouldExit strategy candle indicators hexit]
          exact hopened.shouldExit hhigh strategy indicators _
        cases sale with
        | some sale => cases hrest; exact hmid
        | none => cases hrest; exact hmid.observe hhigh
      · rw [(hclose signal hpending).2] at hbuy
        cases hbuy

/-- What is raised in a turn is not the strategy's own. -/
theorem EntersSoundly.raises (h : EntersSoundly session) (hhigh : 0 < candle.highPrice)
    {given : Except BacktestError StrategyIndicators} {error : BacktestError}
    (hgiven : ∀ raised, given = .error raised → BacktestRun.Engines raised)
    (hraises : StrategySession.Raises (breakoutRetestV2Strategy strategy) candle given session error) :
    BacktestRun.Engines error := by
  cases hraises with
  | opening hopens =>
    obtain ⟨outcome, houtcome⟩ : ∃ outcome, outcome =
      Except.error (α := StrategySession BreakoutRetestV2State) error := ⟨_, rfl⟩
    rw [← houtcome] at hopens
    cases hopens with
    | idle _ => cases houtcome
    | unfilled _ => cases houtcome
    | @filled signal fill hpending hside _ =>
      exfalso
      cases hbuy : fill.side with
      | sell => simp [breakoutRetestV2Strategy, BreakoutRetestV2State.onFill, hbuy, Except.map] at houtcome
      | buy =>
        obtain ⟨level, hlevel, hpositive⟩ :=
          h.levels signal hpending (hside.trans (congrArg some hbuy))
        simp [breakoutRetestV2Strategy, BreakoutRetestV2State.onFill, hbuy, Except.map,
          PositionManagement.startPosition, hlevel, not_le.mpr hpositive] at houtcome
  | provider hraised => exact hgiven error hraised
  | closing hopens hidle hlevels hprovided hcloses =>
    have hopened := h.sound_opened hopens
    have hmanaged := h.isManaged_opened hopens
    obtain ⟨outcome, houtcome⟩ : ∃ outcome, outcome =
      Except.error (α := StrategySession BreakoutRetestV2State) error := ⟨_, rfl⟩
    rw [← houtcome] at hcloses
    cases hlevels with
    | closed _ =>
      cases hcloses
      cases houtcome
    | untouched =>
      obtain _ | hcall := hcloses
      cases hcall with
      | entered _ _ =>
        rcases bind_eq_error_iff.mp (map_eq_error_iff.mp houtcome) with hretest | ⟨_, _, hreturned⟩
        · split at hretest
          · exact hopened.shouldEnter_error hhigh hretest
          · exact hopened.shouldEnter_error hhigh hretest
        · cases hreturned
      | @managed position hheld =>
        obtain ⟨answer, hanswer⟩ := BreakoutRetestV2State.manage_ok strategy candle _ position
          (hmanaged _ hheld)
        cases (map_eq_error_iff.mp houtcome).symm.trans hanswer

end Sessions

/-- The turns of a run raise nothing of the strategy's own, if its candles have positive highs and its
indicators are given. -/
theorem ensures_entersSoundly {run : BacktestRun BreakoutRetestV2State StrategyIndicators}
    (hstrategy : run.strategy = .base (breakoutRetestV2Strategy strategy).base)
    (hinitial : run.initialState = {}) (hhighs : ∀ candle ∈ run.candles, 0 < candle.highPrice)
    (hindicators : ∀ index candle, run.candles[index]? = some candle →
      ∃ indicators, run.indicators index candle = .ok indicators)
    (config : BacktestConfig) (riskEngine : RiskEngine) (draws : ℕ → Decimal) {count : ℕ}
    (hcount : count ≤ run.candles.length) :
    Traced.Ensures BacktestRun.Engines
      (fun state => ∃ session, Shows state session ∧ EntersSoundly session)
      (run.turns count (run.start (.new config riskEngine draws))) := by
  have hkept : run.KeptBySession (breakoutRetestV2Strategy strategy) (.new config riskEngine draws)
      BacktestRun.Engines fun _ => EntersSoundly := by
    refine ⟨?_, ?_, ?_, fun _ herror => herror⟩
    · refine ⟨⟨fun symbol hheld => (nomatch hheld), fun signal hpending => (nomatch hpending)⟩, ?_,
        fun signal hpending => (nomatch hpending)⟩
      rw [hinitial]
      exact BreakoutRetestState.sound_new
    · exact fun hturn hsound => hsound.turn (hhighs _ (List.mem_of_getElem? hturn.own)) hturn.turn
    · intro index candle session error hcandle hsound hraises
      refine hsound.raises (hhighs _ (List.mem_of_getElem? hcandle)) (fun raised hraised => ?_) hraises
      obtain ⟨indicators, hgiven⟩ := hindicators index candle hcandle
      cases hraised.symm.trans hgiven
  exact BacktestRun.ensures_turns hstrategy config riskEngine draws hkept hcount

end CryptoTrading
