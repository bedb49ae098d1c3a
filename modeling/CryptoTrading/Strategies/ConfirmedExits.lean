import CryptoTrading.Strategies.StrategySession
import CryptoTrading.Strategies.TrendDcaConfirm3

/-! The exits of Trend DCA Confirm3 on the regime.  The strategy counts the candles in `TREND_DOWN` at
which it is called; the count is that of the open position unless a level has closed an earlier one
while it was running. -/

namespace CryptoTrading

open Kit

/-! ### The strategy -/

section Strategy

variable {strategy : StrategyIdentity} {candle : BacktestCandle StrategyIndicators}
  {indicators : StrategyIndicators} {position : PositionState} {state after : Confirm3State}
  {signal : Option Signal}

@[simp] theorem Confirm3State.streak_withoutStreak (state : Confirm3State) (symbol : String) :
    (state.withoutStreak symbol).streak symbol = 0 := by
  simp [streak, withoutStreak, Dict.get?_erase]

@[simp] theorem Confirm3State.streak_withStreak (state : Confirm3State) (symbol : String)
    (count : ℕ) : (state.withStreak symbol count).streak symbol = count := by
  simp [streak, withStreak]

theorem Confirm3State.exitAtProfit_cases (state : Confirm3State) (strategy : StrategyIdentity)
    (candle : BacktestCandle StrategyIndicators) (indicators : StrategyIndicators)
    (position : PositionState) :
    ((state.exitAtProfit strategy candle indicators position).2 = none ∧
      (state.exitAtProfit strategy candle indicators position).1.streak candle.symbol =
        state.streak candle.symbol) ∨
    ∃ signal, (state.exitAtProfit strategy candle indicators position).2 = some signal ∧
      signal.symbol = candle.symbol ∧ signal.reason ≠ confirmedReason ∧
      (state.exitAtProfit strategy candle indicators position).1.streak candle.symbol = 0 := by
  unfold Confirm3State.exitAtProfit
  split
  · exact Or.inl ⟨rfl, rfl⟩
  · rename_i dca signal hsignal
    obtain ⟨price, reason, rfl, hreason⟩ :=
      TrendDCAState.exitAtProfit_signal (congrArg Prod.snd hsignal)
    refine Or.inr ⟨_, rfl, rfl, ?_, by simp⟩
    change reason ≠ confirmedReason
    rcases hreason with rfl | rfl <;> decide

/-- A call moves the streak on a candle in `TREND_DOWN` and otherwise ends it. -/
theorem Confirm3State.shouldExit_streak (state : Confirm3State) (strategy : StrategyIdentity)
    (candle : BacktestCandle StrategyIndicators) (indicators : StrategyIndicators)
    (position : PositionState) {after : Confirm3State} {signal : Option Signal}
    (h : state.shouldExit strategy candle indicators position = (after, signal)) :
    (after.streak candle.symbol = 0 ∨
      after.streak candle.symbol = state.streak candle.symbol + 1 ∧
        indicators.regime = some trendDown) ∧
    ∀ exit, signal = some exit → exit.symbol = candle.symbol ∧
      (exit.reason = confirmedReason →
        indicators.regime = some trendDown ∧ 2 ≤ state.streak candle.symbol) := by
  have hprofit : ∀ before : Confirm3State, (before.exitAtProfit strategy candle indicators position) =
      (after, signal) →
      (after.streak candle.symbol = 0 ∨
        after.streak candle.symbol = before.streak candle.symbol) ∧
      ∀ exit, signal = some exit → exit.symbol = candle.symbol ∧ exit.reason ≠ confirmedReason := by
    intro before hbefore
    rcases before.exitAtProfit_cases strategy candle indicators position with
      ⟨hnone, hstreak⟩ | ⟨exit, hsome, hsymbol, hreason, hstreak⟩
    · rw [hbefore] at hnone hstreak
      refine ⟨Or.inr hstreak, ?_⟩
      rintro exit rfl
      cases hnone
    · rw [hbefore] at hsome hstreak
      refine ⟨Or.inl hstreak, ?_⟩
      rintro other rfl
      cases hsome
      exact ⟨hsymbol, hreason⟩
  unfold Confirm3State.shouldExit at h
  split at h
  · cases h
    refine ⟨Or.inl (by simp), ?_⟩
    rintro exit ⟨⟩
    refine ⟨rfl, fun hreason => absurd hreason ?_⟩
    change "Max holding period reached" ≠ confirmedReason
    decide
  split at h
  · rename_i hdown
    simp only at h
    split at h
    · rename_i hstreak
      cases h
      refine ⟨Or.inl (by simp), ?_⟩
      rintro exit ⟨⟩
      exact ⟨rfl, fun _ => ⟨hdown, Nat.le_of_succ_le_succ hstreak⟩⟩
    · obtain ⟨hafter, hexit⟩ := hprofit _ h
      rw [Confirm3State.streak_withStreak] at hafter
      exact ⟨hafter.imp_right fun hstreak => ⟨hstreak, hdown⟩, fun exit hsome =>
        ⟨(hexit exit hsome).1, fun hreason => absurd hreason (hexit exit hsome).2⟩⟩
  · obtain ⟨hafter, hexit⟩ := hprofit _ h
    rw [Confirm3State.streak_withoutStreak, or_self] at hafter
    exact ⟨Or.inl hafter, fun exit hsome =>
      ⟨(hexit exit hsome).1, fun hreason => absurd hreason (hexit exit hsome).2⟩⟩

/-- The calls for a position. -/
theorem confirm3_manage
    (h : (trendDCAConfirm3Strategy strategy).manage state candle indicators position =
      .ok (after, signal)) :
    (after.streak candle.symbol = 0 ∨
      after.streak candle.symbol = state.streak candle.symbol + 1 ∧
        indicators.regime = some trendDown) ∧
    ∀ exit, signal = some exit → exit.symbol = candle.symbol ∧
      (exit.reason = confirmedReason →
        indicators.regime = some trendDown ∧ 2 ≤ state.streak candle.symbol) := by
  simp only [SignalStrategy.manage, trendDCAConfirm3Strategy] at h
  obtain ⟨⟨mid, exit⟩, hexit, hrest⟩ := bind_eq_ok_iff.mp h
  obtain ⟨hstreak, hsignal⟩ := state.shouldExit_streak strategy candle indicators position
    (Except.ok.inj hexit)
  cases exit with
  | some exit =>
    cases hrest
    exact ⟨hstreak, hsignal⟩
  | none =>
    obtain ⟨⟨dca, added⟩, hadded, hreturned⟩ := bind_eq_ok_iff.mp hrest
    cases hreturned
    refine ⟨hstreak, ?_⟩
    rintro exit rfl
    obtain ⟨hsymbol, level, hreason⟩ := TrendDCAState.shouldAddDca_ok hadded
    exact ⟨hsymbol, fun hconfirmed => absurd (hreason.symm.trans hconfirmed) (TrendDCAState.safetyReason_ne level (by decide))⟩

theorem confirm3_enter {entry : EntryState}
    (h : (trendDCAConfirm3Strategy strategy).shouldEnter state candle indicators entry =
      .ok (after, signal)) :
    after.trendDownStreaks = state.trendDownStreaks ∧
    ∀ bought, signal = some bought → bought.symbol = candle.symbol ∧
      bought.reason ≠ confirmedReason := by
  obtain ⟨⟨dca, bought⟩, hbought, hreturned⟩ := bind_eq_ok_iff.mp h
  cases hreturned
  refine ⟨rfl, ?_⟩
  rintro signal rfl
  obtain ⟨hsymbol, hreason⟩ := TrendDCAState.shouldEnter_ok hbought
  refine ⟨hsymbol, ?_⟩
  rw [hreason]
  decide

end Strategy

/-! ### The run -/

section Run

variable (run : BacktestRun Confirm3State StrategyIndicators) (engine : BacktestEngine)
  (symbol : String)

/-- Candle `index` is in `TREND_DOWN`, and a position is open at its close, after `closed` positions
have been closed. -/
structure DownWhileOpen (closed index : ℕ) : Prop where
  down : ∃ candle indicators, run.candles[index]? = some candle ∧
    run.indicators index candle = .ok indicators ∧ indicators.regime = some trendDown
  open_ : ∃ state, (run.turns (index + 1) (run.start engine)).value? = some state ∧
    (state.engine.portfolio.getPosition symbol).isSome = true ∧
    state.engine.portfolio.closedPositions.length = closed

/-- Whenever a position is opened, the strategy stores no streak. -/
def OpensWithoutStreak : Prop :=
  ∀ index before opened, (run.turns index (run.start engine)).value? = some before →
    (run.throughOpen index engine).value? = some opened →
    before.engine.portfolio.getPosition symbol = none →
    (opened.engine.portfolio.getPosition symbol).isSome = true →
    before.strategyState.streak symbol = 0

/-- The streak of an open position is of candles that were completed while it was open. -/
structure StreakOfPosition (count : ℕ) (session : StrategySession Confirm3State) : Prop where
  own : ∀ signal, session.pending = some signal → signal.symbol = symbol
  streak : session.held symbol = true → ∀ i < session.strategyState.streak symbol,
    i < count ∧ DownWhileOpen run engine symbol session.closed (count - 1 - i)
  confirmed : ∀ signal, session.pending = some signal → signal.reason = confirmedReason →
    ∀ i < 3, i < count ∧ DownWhileOpen run engine symbol session.closed (count - 1 - i)

variable {run engine symbol} {strategy : StrategyIdentity}

theorem streak_onFill (symbol : String) {before after : Confirm3State} {signal : Signal} {fill : Fill}
    (h : (trendDCAConfirm3Strategy strategy).onFill before signal fill = .ok after) :
    after.streak symbol = before.streak symbol := by
  cases h
  rfl

/-- The open of a candle keeps the streak, or opens a position without one. -/
theorem StreakOfPosition.opens {index : ℕ} {candle : BacktestCandle StrategyIndicators}
    {session opened : StrategySession Confirm3State} (h : StreakOfPosition run engine symbol index session)
    (hopens : StrategySession.Opens (trendDCAConfirm3Strategy strategy) candle session (.ok opened))
    (hstreak : session.held symbol = false → opened.held symbol = true →
      session.strategyState.streak symbol = 0) :
    opened.held symbol = true → ∀ i < opened.strategyState.streak symbol,
      i < index ∧ DownWhileOpen run engine symbol opened.closed (index - 1 - i) := by
  obtain ⟨outcome, houtcome⟩ : ∃ outcome, outcome = Except.ok (ε := BacktestError) opened := ⟨_, rfl⟩
  rw [← houtcome] at hopens
  cases hopens with
  | idle _ => cases houtcome; exact h.streak
  | unfilled _ => cases houtcome; exact h.streak
  | @filled signal fill hpending _ _ =>
    obtain ⟨after, hafter, rfl⟩ := map_eq_ok_iff.mp houtcome
    obtain rfl := h.own signal hpending
    have hsame := streak_onFill signal.symbol hafter
    simp only [StrategySession.filled, Function.update_self, hsame] at hstreak ⊢
    cases hside : fill.side with
    | sell => exact fun hheld => nomatch hheld
    | buy =>
      rw [hside] at hstreak
      intro _ i hi
      by_cases hheld : session.held signal.symbol = true
      · exact h.streak hheld i hi
      · rw [hstreak (Bool.not_eq_true _ ▸ hheld) rfl] at hi
        exact absurd hi (Nat.not_lt_zero i)

theorem DownWhileOpen.of_turn (symbol : String) {index : ℕ} {candle : BacktestCandle StrategyIndicators}
    {indicators : StrategyIndicators} {shown : Option PositionState}
    {session opened after : StrategySession Confirm3State}
    {levelled : Bool × StrategySession Confirm3State}
    (h : run.ShowsTurn (trendDCAConfirm3Strategy strategy) engine index candle indicators shown
      session opened levelled after)
    (hheld : after.held symbol = true) (hdown : indicators.regime = some trendDown) :
    DownWhileOpen run engine symbol after.closed index where
  down := ⟨candle, indicators, h.own, h.provided, hdown⟩
  open_ := by
    obtain ⟨state, hstate, hshows⟩ := h.after
    exact ⟨state, hstate, (hshows.held symbol).trans hheld, hshows.closed⟩

theorem StreakOfPosition.turn {index : ℕ} {candle : BacktestCandle StrategyIndicators}
    {indicators : StrategyIndicators} {shown : Option PositionState}
    {session opened after : StrategySession Confirm3State}
    {levelled : Bool × StrategySession Confirm3State} (hopens : OpensWithoutStreak run engine symbol)
    (hsymbol : candle.symbol = symbol)
    (h : run.ShowsTurn (trendDCAConfirm3Strategy strategy) engine index candle indicators shown
      session opened levelled after)
    (hkept : StreakOfPosition run engine symbol index session) :
    StreakOfPosition run engine symbol (index + 1) after := by
  subst hsymbol
  have hopened := hkept.opens h.turn.opens fun hflat hheld => by
    obtain ⟨before, hbefore, hsession⟩ := h.before
    obtain ⟨state, hstate, hshows⟩ := h.opened
    rw [← hsession.strategyState]
    refine hopens index before state hbefore hstate ?_ ((hshows.held _).trans hheld)
    rw [← Option.isNone_iff_eq_none, ← Option.not_isSome, hsession.held, hflat]
    rfl
  have hdown := DownWhileOpen.of_turn candle.symbol h
  have hcloses := h.turn.closes
  obtain ⟨outcome, houtcome⟩ : ∃ outcome, outcome = Except.ok (ε := BacktestError) after := ⟨_, rfl⟩
  rw [← houtcome] at hcloses
  cases h.turn.levels with
  | closed _ =>
    cases hcloses
    cases houtcome
    have hidle : (opened.stopped candle.symbol).pending = none := h.turn.idle
    refine ⟨fun signal hpending => ?_, fun hheld => ?_, fun signal hpending => ?_⟩
    · rw [hidle] at hpending
      cases hpending
    · simp only [StrategySession.stopped, Function.update_self] at hheld
      cases hheld
    · rw [hidle] at hpending
      cases hpending
  | untouched =>
    obtain _ | hcall := hcloses
    cases hcall with
    | entered hflat _ =>
      obtain ⟨answer, hanswer, rfl⟩ := map_eq_ok_iff.mp houtcome
      obtain ⟨-, hreason⟩ := confirm3_enter hanswer
      refine ⟨fun signal hpending => (hreason signal hpending).1,
        fun hheld => absurd (hflat.symm.trans hheld) Bool.false_ne_true, ?_⟩
      intro signal hpending hconfirmed
      exact absurd hconfirmed (hreason signal hpending).2
    | managed hheld =>
      obtain ⟨answer, hanswer, rfl⟩ := map_eq_ok_iff.mp houtcome
      obtain ⟨hstreak, hsignal⟩ := confirm3_manage hanswer
      -- the candle itself, and before it the candles of the streak so far
      have hearlier : ∀ i, i ≤ opened.strategyState.streak candle.symbol →
          indicators.regime = some trendDown →
          i < index + 1 ∧ DownWhileOpen run engine candle.symbol opened.closed (index + 1 - 1 - i) := by
        intro i hi hregime
        cases i with
        | zero => exact ⟨Nat.succ_pos _, hdown hheld hregime⟩
        | succ i =>
          obtain ⟨hlt, hbefore⟩ := hopened hheld i hi
          refine ⟨Nat.succ_lt_succ hlt, ?_⟩
          rwa [show index + 1 - 1 - (i + 1) = index - 1 - i by omega]
      refine ⟨fun signal hpending => (hsignal signal hpending).1, ?_, ?_⟩
      · intro _ i hi
        rcases hstreak with hzero | ⟨hnext, hregime⟩
        · rw [show (opened.called answer).strategyState = answer.1 from rfl, hzero] at hi
          exact absurd hi (Nat.not_lt_zero i)
        · rw [show (opened.called answer).strategyState = answer.1 from rfl, hnext] at hi
          exact hearlier i (Nat.le_of_lt_succ hi) hregime
      · intro signal hpending hconfirmed i hi
        obtain ⟨hregime, htwo⟩ := (hsignal signal hpending).2 hconfirmed
        exact hearlier i (by omega) hregime

end Run

/-- When every position opens without a stored streak, an exit that is confirmed for three bars is
emitted at the third of three candles in `TREND_DOWN` that were completed while its position was open. -/
theorem confirmed_exits (run : BacktestRun Confirm3State StrategyIndicators)
    (strategy : StrategyIdentity) (symbol : String) (config : BacktestConfig) (riskEngine : RiskEngine)
    (draws : ℕ → Decimal) (hstrategy : run.strategy = .base (trendDCAConfirm3Strategy strategy).base)
    (hsymbol : ∀ candle ∈ run.candles, candle.symbol = symbol)
    (hopens : OpensWithoutStreak run (.new config riskEngine draws) symbol) {index : ℕ}
    (hindex : index < run.candles.length) {after : BacktestState Confirm3State}
    (hafter : (run.turns (index + 1) (run.start (.new config riskEngine draws))).value? = some after)
    (hconfirmed : ∃ signal ∈ after.pendingSignals, signal.reason = confirmedReason) :
    2 ≤ index ∧ ∀ i ≤ 2, DownWhileOpen run (.new config riskEngine draws) symbol
      after.engine.portfolio.closedPositions.length (index - i) := by
  have hkept : run.KeptBySession (trendDCAConfirm3Strategy strategy)
      (.new config riskEngine draws) (fun _ => True)
      (StreakOfPosition run (.new config riskEngine draws) symbol) := by
    refine ⟨⟨fun signal hpending => (nomatch hpending), fun hheld => (nomatch hheld),
      fun signal hpending => (nomatch hpending)⟩, ?_,
      fun _ _ _ => trivial, fun _ _ => trivial⟩
    exact fun hturn hkept =>
      hkept.turn hopens (hsymbol _ (List.mem_of_getElem? hturn.own)) hturn
  obtain ⟨session, hshows, hstreak⟩ :=
    (BacktestRun.ensures_turns hstrategy config riskEngine draws hkept hindex).value hafter
  obtain ⟨signal, hpending, hreason⟩ := hconfirmed
  rw [hshows.pending, Option.mem_toList] at hpending
  have hbars := hstreak.confirmed signal hpending hreason
  rw [← hshows.closed] at hbars
  refine ⟨by have hlast := (hbars 2 (by omega)).1; omega, fun i hi => ?_⟩
  exact (hbars i (by omega)).2

/-! ### A streak that is left over -/

/-- The condition, checked candle by candle. -/
def opensWithoutStreak (run : BacktestRun Confirm3State StrategyIndicators) (engine : BacktestEngine)
    (symbol : String) : Bool :=
  (List.range run.candles.length).all fun index =>
    ((run.turns index (run.start engine)).value?.all fun before =>
      (before.engine.portfolio.getPosition symbol).isSome ||
        ((run.throughOpen index engine).value?.all fun opened =>
          (opened.engine.portfolio.getPosition symbol).isNone) ||
        decide (before.strategyState.streak symbol = 0))

theorem opensWithoutStreak_of_check {run : BacktestRun Confirm3State StrategyIndicators}
    {engine : BacktestEngine} {symbol : String} (h : opensWithoutStreak run engine symbol = true) :
    OpensWithoutStreak run engine symbol := by
  intro index before opened hbefore hopened hflat hheld
  rcases Nat.lt_or_ge index run.candles.length with hindex | hindex
  · have hcheck := List.all_eq_true.mp h index (List.mem_range.mpr hindex)
    simp only [hbefore, hopened, Option.all_some, hflat, Bool.or_eq_true, decide_eq_true_eq] at hcheck
    rcases hcheck with (hsome | hnone) | hstreak
    · cases hsome
    · rw [← Option.not_isSome, hheld] at hnone
      cases hnone
    · exact hstreak
  · -- past the last candle nothing is opened
    rw [BacktestRun.throughOpen, Traced.value?_bind, hbefore, Option.bind_some,
      List.getElem?_eq_none hindex] at hopened
    cases hopened
    rw [hflat] at hheld
    cases hheld

/-- The indicators of a pullback in an upward trend. -/
def pullback : StrategyIndicators :=
  { ema20 := some 100, ema50 := some 100, ema200 := some 90, rsi := some 40, regime := some trendUp }

/-- An hourly candle at 100, down to `low`. -/
def pullbackCandle (index : ℕ) (low : Decimal) (regime : String) : BacktestCandle StrategyIndicators :=
  { symbol := "BTCUSDT", openTime := index * hour, close := 100, open_ := some 100
    high := some 100, low := some low, volume := some 1000
    indicators := { pullback with regime := some regime } }

def confirm3Identity : StrategyIdentity :=
  { name := "TrendDCAConfirm3", newSignalId := fun timestamp => .uuid timestamp.toNat }

/-- A backtest of Trend DCA Confirm3 over the candles. -/
def confirm3Run (candles : List (BacktestCandle StrategyIndicators)) :
    BacktestRun Confirm3State StrategyIndicators :=
  { candles, strategy := .base (trendDCAConfirm3Strategy confirm3Identity).base, initialState := {}
    clock := fun _ => 0, runId := "confirm3" }

theorem exists_confirmed {run : BacktestRun Confirm3State StrategyIndicators} {engine : BacktestEngine}
    {count : ℕ} (h : ((run.turns count (run.start engine)).value?.any fun after =>
      after.pendingSignals.any fun signal => decide (signal.reason = confirmedReason)) = true) :
    ∃ after, (run.turns count (run.start engine)).value? = some after ∧
      ∃ signal ∈ after.pendingSignals, signal.reason = confirmedReason := by
  obtain ⟨after, hafter, hany⟩ := (Option.any_eq_true _ _).mp h
  obtain ⟨signal, hsignal, hreason⟩ := List.any_eq_true.mp hany
  exact ⟨after, hafter, signal, hsignal, of_decide_eq_true hreason⟩

/-- A purchase, and three candles in `TREND_DOWN`. -/
def confirmedCandles : List (BacktestCandle StrategyIndicators) :=
  [pullbackCandle 0 100 trendUp, pullbackCandle 1 100 trendDown, pullbackCandle 2 100 trendDown,
    pullbackCandle 3 100 trendDown]

theorem confirmed_exits_three_bars : ∃ after,
    ((confirm3Run confirmedCandles).turns 4
      ((confirm3Run confirmedCandles).start (.new {} {} fun _ => 0))).value? = some after ∧
    2 ≤ 3 ∧ ∀ i ≤ 2, DownWhileOpen (confirm3Run confirmedCandles) (.new {} {} fun _ => 0) "BTCUSDT"
      after.engine.portfolio.closedPositions.length (3 - i) := by
  obtain ⟨after, hafter, hconfirmed⟩ : ∃ after,
      ((confirm3Run confirmedCandles).turns 4
        ((confirm3Run confirmedCandles).start (.new {} {} fun _ => 0))).value? = some after ∧
      ∃ signal ∈ after.pendingSignals, signal.reason = confirmedReason :=
    exists_confirmed (by decide +kernel)
  exact ⟨after, hafter, confirmed_exits (confirm3Run confirmedCandles) confirm3Identity "BTCUSDT" {} {}
    (fun _ => 0) rfl (by simp [confirm3Run, confirmedCandles, pullbackCandle])
    (opensWithoutStreak_of_check (by decide +kernel)) (by decide) hafter hconfirmed⟩

/-- Two candles in `TREND_DOWN`, a stop-loss, and a new position. -/
def leftoverCandles : List (BacktestCandle StrategyIndicators) :=
  [pullbackCandle 0 100 trendUp, pullbackCandle 1 100 trendDown, pullbackCandle 2 100 trendDown,
    pullbackCandle 3 80 trendUp, pullbackCandle 4 100 trendUp, pullbackCandle 5 100 trendDown]

/-- The new position is closed at its first candle in `TREND_DOWN`. -/
theorem leftover_streak_confirmed : ¬∀ (run : BacktestRun Confirm3State StrategyIndicators)
    (strategy : StrategyIdentity) (symbol : String) (config : BacktestConfig) (riskEngine : RiskEngine)
    (draws : ℕ → Decimal), run.strategy = .base (trendDCAConfirm3Strategy strategy).base →
    run.initialState = {} → (∀ candle ∈ run.candles, candle.symbol = symbol) →
    ∀ index < run.candles.length, ∀ after,
      (run.turns (index + 1) (run.start (.new config riskEngine draws))).value? = some after →
      (∃ signal ∈ after.pendingSignals, signal.reason = confirmedReason) →
      2 ≤ index ∧ ∀ i ≤ 2, DownWhileOpen run (.new config riskEngine draws) symbol
        after.engine.portfolio.closedPositions.length (index - i) := by
  intro h
  obtain ⟨after, hafter, hconfirmed⟩ : ∃ after,
      ((confirm3Run leftoverCandles).turns 6
        ((confirm3Run leftoverCandles).start (.new {} {} fun _ => 0))).value? = some after ∧
      ∃ signal ∈ after.pendingSignals, signal.reason = confirmedReason :=
    exists_confirmed (by decide +kernel)
  have hbars := (h (confirm3Run leftoverCandles) confirm3Identity "BTCUSDT" {} {} (fun _ => 0) rfl rfl
    (by simp [confirm3Run, leftoverCandles, pullbackCandle]) 5 (by decide) after hafter hconfirmed).2
  -- the candle before the exit is in `TREND_UP`
  obtain ⟨candle, indicators, hcandle, hindicators, hregime⟩ := (hbars 1 (by decide)).down
  cases hcandle
  cases hindicators
  revert hregime
  decide

end CryptoTrading
