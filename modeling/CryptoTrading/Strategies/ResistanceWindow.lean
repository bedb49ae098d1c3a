import CryptoTrading.Strategies.BreakoutRetestV2
import CryptoTrading.Strategies.StrategySession

/-! The resistance of Breakout Retest, over the runs of v1 and of v2.  The strategy keeps the highs of the
candles at which it is called, and it is not called on a candle whose levels close the position. -/

namespace CryptoTrading

open Kit

variable {σ : Type}

/-- A strategy with the state of Breakout Retest that observes the candle of every call. -/
structure Observes (strategy : SignalStrategy σ StrategyIndicators) (retest : σ → BreakoutRetestState) :
    Prop where
  entered : ∀ {state candle indicators entry after signal},
    strategy.shouldEnter state candle indicators entry = .ok (after, signal) →
      ((retest after).symbolState candle.symbol).window =
        (((retest state).symbolState candle.symbol).observeCandle candle).2.window
  managed : ∀ {state candle indicators position after signal},
    strategy.manage state candle indicators position = .ok (after, signal) →
      ((retest after).symbolState candle.symbol).window =
        (((retest state).symbolState candle.symbol).observeCandle candle).2.window
  filled : ∀ {state signal fill after}, strategy.onFill state signal fill = .ok after →
    (retest after).symbols = (retest state).symbols

section Strategies

variable (strategy : StrategyIdentity)

theorem BreakoutRetestState.window_enter {state after : BreakoutRetestState}
    {candle : BacktestCandle StrategyIndicators} {indicators : StrategyIndicators} {entry : EntryState}
    {signal : Option Signal} {strategy : StrategyIdentity}
    (h : state.shouldEnter strategy candle indicators entry = .ok (after, signal)) :
    (after.symbolState candle.symbol).window =
      ((state.symbolState candle.symbol).observeCandle candle).2.window := by
  obtain ⟨symbolState, bought, hadvance, rfl, -⟩ := shouldEnter_ok h
  rw [symbolState_withSymbolState, BreakoutSymbolState.window_advance hadvance]

theorem BreakoutRetestState.symbolState_observe_twice {state before : BreakoutRetestState}
    {candle : BacktestCandle StrategyIndicators}
    (h : state.symbolState candle.symbol =
      ((before.symbolState candle.symbol).observeCandle candle).2) :
    (state.observe candle).symbolState candle.symbol = state.symbolState candle.symbol := by
  rw [symbolState_observe, BreakoutSymbolState.observeCandle_observed]
  rw [h, BreakoutSymbolState.observeCandle_lastObservedTime]

theorem breakoutRetest_observes : Observes (breakoutRetestStrategy strategy) id where
  entered h := BreakoutRetestState.window_enter h
  managed {state candle indicators position after signal} h := by
    obtain ⟨⟨mid, exit⟩, hexit, hrest⟩ := bind_eq_ok_iff.mp h
    have hmid : mid.symbolState candle.symbol =
        ((state.symbolState candle.symbol).observeCandle candle).2 := by
      rw [← state.symbolState_shouldExit strategy candle indicators position]
      exact congrArg (fun answer => answer.1.symbolState candle.symbol) (Except.ok.inj hexit).symm
    cases exit with
    | some exit =>
      cases hrest
      rw [id, id, hmid]
    | none =>
      cases hrest
      rw [id, id, BreakoutRetestState.symbolState_observe_twice hmid, hmid]
  filled {state signal fill after} h := by
    cases h
    simp only [id, BreakoutRetestState.onFill]
    split <;> rfl

theorem breakoutRetestV2_observes :
    Observes (breakoutRetestV2Strategy strategy) BreakoutRetestV2State.retest where
  entered h := BreakoutRetestState.window_enter (BreakoutRetestV2State.retest_shouldEnter _ _ _ h).1
  managed {state candle indicators position after signal} h := by
    obtain ⟨⟨mid, exit⟩, hexit, hrest⟩ := bind_eq_ok_iff.mp h
    have hmid : mid.retest.symbolState candle.symbol =
        ((state.retest.symbolState candle.symbol).observeCandle candle).2 := by
      rw [BreakoutRetestV2State.retest_shouldExit strategy candle indicators hexit,
        BreakoutRetestState.symbolState_shouldExit]
    cases exit with
    | some exit =>
      cases hrest
      rw [hmid]
    | none =>
      cases hrest
      rw [BreakoutRetestState.symbolState_observe_twice hmid, hmid]
  filled {state signal fill after} h := by
    rw [BreakoutRetestV2State.retest_onFill h]
    exact (breakoutRetest_observes strategy).filled
      (show (breakoutRetestStrategy strategy).onFill state.retest signal fill = .ok _ from rfl)

end Strategies

/-! ### The window of a run -/

section Window

variable {run : BacktestRun σ StrategyIndicators} {engine : BacktestEngine} {symbol : String}
  {strategy : SignalStrategy σ StrategyIndicators} {retest : σ → BreakoutRetestState}

/-- The highs of the candles since the last one that was closed by a level are the last ones that are
kept, and the last candle that was observed is one before `count`. -/
structure KeepsHighs (run : BacktestRun σ StrategyIndicators) (engine : BacktestEngine)
    (symbol : String) (retest : σ → BreakoutRetestState) (count : ℕ) (session : StrategySession σ) : Prop where
  highs : ∀ k ≤ resistanceLookbackBars, k ≤ count →
    (∀ index, count - k ≤ index → index < count → ¬run.ClosesByLevel engine index) →
    ((retest session.strategyState).symbolState symbol).recentHighs.rtake k =
      ((run.candles.take count).map BacktestCandle.highPrice).rtake k
  observed : ∀ timestamp,
    ((retest session.strategyState).symbolState symbol).lastObservedTime = some timestamp →
    ∃ index < count, ∃ candle, run.candles[index]? = some candle ∧ candle.openTime = timestamp

theorem Observes.symbols_opens (hobserves : Observes strategy retest)
    {candle : BacktestCandle StrategyIndicators} {session opened : StrategySession σ}
    (h : StrategySession.Opens strategy candle session (.ok opened)) :
    (retest opened.strategyState).symbols = (retest session.strategyState).symbols := by
  obtain ⟨outcome, houtcome⟩ : ∃ outcome, outcome = Except.ok (ε := BacktestError) opened := ⟨_, rfl⟩
  rw [← houtcome] at h
  cases h with
  | idle _ => cases houtcome; rfl
  | unfilled _ => cases houtcome; rfl
  | @filled signal fill _ _ _ =>
    obtain ⟨after, hafter, rfl⟩ := map_eq_ok_iff.mp houtcome
    rw [← hobserves.filled hafter]
    rfl

theorem Observes.window_calls (hobserves : Observes strategy retest)
    {candle : BacktestCandle StrategyIndicators} {indicators : StrategyIndicators}
    {shown : Option PositionState} {session after : StrategySession σ}
    (h : StrategySession.Calls strategy candle indicators session shown (.ok after)) :
    ((retest after.strategyState).symbolState candle.symbol).window =
      (((retest session.strategyState).symbolState candle.symbol).observeCandle candle).2.window := by
  obtain ⟨outcome, houtcome⟩ : ∃ outcome, outcome = Except.ok (ε := BacktestError) after := ⟨_, rfl⟩
  rw [← houtcome] at h
  cases h with
  | entered _ _ =>
    obtain ⟨answer, hanswer, rfl⟩ := map_eq_ok_iff.mp houtcome
    exact hobserves.entered hanswer
  | managed _ =>
    obtain ⟨answer, hanswer, rfl⟩ := map_eq_ok_iff.mp houtcome
    exact hobserves.managed hanswer

theorem rtake_rtake {α : Type} (items : List α) {m n : ℕ} (h : m ≤ n) :
    (items.rtake n).rtake m = items.rtake m := by
  simp only [List.rtake_eq_reverse_take_reverse, List.reverse_reverse, List.take_take,
    Nat.min_eq_left h]

/-- The next candle is later than the one that was observed last. -/
theorem KeepsHighs.not_observed {index : ℕ} {candle : BacktestCandle StrategyIndicators}
    {session : StrategySession σ} (hkept : KeepsHighs run engine symbol retest index session)
    (hordered : run.candles.Pairwise fun earlier later => earlier.openTime < later.openTime)
    (hcandle : run.candles[index]? = some candle) :
    ((retest session.strategyState).symbolState symbol).lastObservedTime ≠
      some candle.openTime := by
  intro hlast
  obtain ⟨earlier, hlt, other, hother, htime⟩ := hkept.observed _ hlast
  obtain ⟨hearlier, rfl⟩ := List.getElem?_eq_some_iff.mp hother
  obtain ⟨hindex, rfl⟩ := List.getElem?_eq_some_iff.mp hcandle
  have hlt' := List.pairwise_iff_getElem.mp hordered earlier index hearlier hindex hlt
  rw [htime] at hlt'
  exact lt_irrefl _ hlt'

theorem KeepsHighs.turn (hobserves : Observes strategy retest)
    (hordered : run.candles.Pairwise fun earlier later => earlier.openTime < later.openTime)
    {index : ℕ} {candle : BacktestCandle StrategyIndicators} {indicators : StrategyIndicators}
    {session opened after : StrategySession σ} {levelled : Bool × StrategySession σ}
    (hsymbol : candle.symbol = symbol)
    (h : run.ShowsTurn strategy engine index candle indicators shown
      session opened levelled after)
    (hkept : KeepsHighs run engine symbol retest index session) :
    KeepsHighs run engine symbol retest (index + 1) after := by
  subst hsymbol
  have hsymbols : (retest opened.strategyState).symbolState candle.symbol =
      (retest session.strategyState).symbolState candle.symbol := by
    simp only [BreakoutRetestState.symbolState, hobserves.symbols_opens h.turn.opens]
  have hclosed := h.closesByLevel_iff
  have hlevels := h.turn.levels
  have hcloses := h.turn.closes
  cases hlevels with
  | closed _ =>
    cases hcloses
    rw [iff_true_right rfl] at hclosed
    refine ⟨fun k _ _ hnone => ?_, fun timestamp hlast => ?_⟩
    · cases k with
      | zero => simp
      | succ k => exact absurd hclosed (hnone index (by omega) (Nat.lt_succ_self index))
    · obtain ⟨earlier, hlt, found⟩ := hkept.observed timestamp (by rw [← hsymbols]; exact hlast)
      exact ⟨earlier, Nat.lt_succ_of_lt hlt, found⟩
  | untouched =>
    obtain _ | hcall := hcloses
    have hwindow := hobserves.window_calls hcall
    rw [hsymbols] at hwindow
    have hnew := hkept.not_observed hordered h.own
    have hhighs : ((retest after.strategyState).symbolState candle.symbol).recentHighs =
        (((retest session.strategyState).symbolState candle.symbol).recentHighs ++
          [candle.highPrice]).rtake resistanceLookbackBars :=
      (congrArg Prod.fst hwindow).trans (BreakoutSymbolState.observeCandle_new hnew).2
    refine ⟨fun k hk hcount hnone => ?_, fun timestamp hlast => ?_⟩
    · cases k with
      | zero => simp
      | succ k =>
        have hearlier := hkept.highs k (Nat.le_of_succ_le hk) (Nat.le_of_succ_le_succ hcount)
          fun earlier hfrom hto => hnone earlier (by omega) (Nat.lt_succ_of_lt hto)
        rw [hhighs, rtake_rtake _ hk, List.rtake_concat_succ, hearlier,
          List.take_add_one, h.own, List.map_append]
        exact (List.rtake_concat_succ _ _ _).symm
    · have htime := (congrArg Prod.snd hwindow).symm.trans hlast
      rw [BreakoutSymbolState.window, BreakoutSymbolState.observeCandle_lastObservedTime] at htime
      exact ⟨index, Nat.lt_succ_self index, candle, h.own, Option.some.inj htime⟩

end Window

/-! ### The resistance -/

section Resistance

variable (run : BacktestRun σ StrategyIndicators) (engine : BacktestEngine) (symbol : String)

/-- `should_enter` is called on the candle at `index`. -/
structure EntersAt (index : ℕ) (state : BacktestState σ) : Prop where
  called : (run.throughLevels index engine).value? = some (false, state)
  flat : state.engine.portfolio.getPosition symbol = none

/-- The resistance of `should_enter` is the maximum of the highs of the 20 candles before, if none of
these was closed by a level. -/
def UsesPrecedingHighs (retest : σ → BreakoutRetestState) : Prop :=
  ∀ index candle state, resistanceLookbackBars ≤ index → run.candles[index]? = some candle →
    EntersAt run engine symbol index state →
    (∀ earlier, index - resistanceLookbackBars ≤ earlier → earlier < index →
      ¬run.ClosesByLevel engine earlier) →
    (((retest state.strategyState).symbolState symbol).observeCandle candle).1 =
      (((run.candles.take index).drop (index - resistanceLookbackBars)).map
        BacktestCandle.highPrice).max?

variable {run engine symbol}

theorem Observes.usesPrecedingHighs {strategy : SignalStrategy σ StrategyIndicators}
    {retest : σ → BreakoutRetestState} (hobserves : Observes strategy retest)
    {config : BacktestConfig} {riskEngine : RiskEngine} {draws : ℕ → Decimal}
    (hstrategy : run.strategy = .base strategy.base)
    (hsymbol : ∀ candle ∈ run.candles, candle.symbol = symbol)
    (hfresh : (retest run.initialState).symbolState symbol = {})
    (hordered : run.candles.Pairwise fun earlier later => earlier.openTime < later.openTime) :
    UsesPrecedingHighs run (.new config riskEngine draws) symbol retest := by
  intro index candle state hindex hcandle henters hnone
  obtain rfl := hsymbol candle (List.mem_of_getElem? hcandle)
  have hkept : run.KeptBySession strategy (.new config riskEngine draws)
      (fun _ => True) (KeepsHighs run (.new config riskEngine draws) candle.symbol retest) := by
    refine ⟨⟨fun k _ hk _ => ?_, fun timestamp hlast => ?_⟩, ?_, fun _ _ _ => trivial,
      fun _ _ => trivial⟩
    · obtain rfl := Nat.le_zero.mp hk
      simp
    · rw [hfresh] at hlast
      cases hlast
    · exact fun hturn hkept =>
        hkept.turn hobserves hordered (hsymbol _ (List.mem_of_getElem? hturn.own)) hturn
  have hlt : index < run.candles.length := (List.getElem?_eq_some_iff.mp hcandle).1
  obtain ⟨session, opened, after, hkept, hopens, hlevels, hshows⟩ :=
    BacktestRun.shows_throughLevels hstrategy hcandle
      (fun before hbefore =>
        (BacktestRun.ensures_turns hstrategy config riskEngine draws hkept hlt.le).value hbefore)
      henters.called
  have hsymbols : (retest state.strategyState).symbols = (retest session.strategyState).symbols := by
    rw [hshows.strategyState, ← hobserves.symbols_opens hopens]
    cases hlevels
    rfl
  have hstate : (retest state.strategyState).symbolState candle.symbol =
      (retest session.strategyState).symbolState candle.symbol := by
    simp only [BreakoutRetestState.symbolState, hsymbols]
  rw [hstate]
  have hnew := hkept.not_observed hordered hcandle
  have hhighs := hkept.highs resistanceLookbackBars le_rfl hindex hnone
  have htaken : (run.candles.take index).length = index := List.length_take_of_le hlt.le
  have hlength : resistanceLookbackBars ≤
      ((retest session.strategyState).symbolState candle.symbol).recentHighs.length := by
    have := congrArg List.length hhighs
    rw [List.rtake, List.rtake, List.length_drop, List.length_drop, List.length_map, htaken] at this
    omega
  rw [(BreakoutSymbolState.observeCandle_new hnew).1, if_pos hlength, hhighs, List.rtake,
    List.length_map, htaken, List.map_drop]

end Resistance

/-- The resistance of Breakout Retest, of v1 and of v2, when no level closes a position on the 20 candles
before. -/
theorem resistance_of_preceding (strategy : StrategyIdentity) (symbol : String)
    (config : BacktestConfig) (riskEngine : RiskEngine) (draws : ℕ → Decimal) :
    (∀ run : BacktestRun BreakoutRetestState StrategyIndicators,
      run.strategy = .base (breakoutRetestStrategy strategy).base → run.initialState = {} →
      (∀ candle ∈ run.candles, candle.symbol = symbol) →
      (run.candles.Pairwise fun earlier later => earlier.openTime < later.openTime) →
      UsesPrecedingHighs run (.new config riskEngine draws) symbol id) ∧
    ∀ run : BacktestRun BreakoutRetestV2State StrategyIndicators,
      run.strategy = .base (breakoutRetestV2Strategy strategy).base → run.initialState = {} →
      (∀ candle ∈ run.candles, candle.symbol = symbol) →
      (run.candles.Pairwise fun earlier later => earlier.openTime < later.openTime) →
      UsesPrecedingHighs run (.new config riskEngine draws) symbol BreakoutRetestV2State.retest := by
  constructor
  · intro run hstrategy hinitial hsymbol hordered
    refine (breakoutRetest_observes strategy).usesPrecedingHighs
      hstrategy hsymbol ?_ hordered
    rw [hinitial]
    rfl
  · intro run hstrategy hinitial hsymbol hordered
    refine (breakoutRetestV2_observes strategy).usesPrecedingHighs
      hstrategy hsymbol ?_ hordered
    rw [hinitial]
    rfl

/-! ### A candle that is skipped -/

section Examples

/-- `should_enter` is called on the candle at `index`, with the resistance. -/
def entersWith (run : BacktestRun σ StrategyIndicators) (engine : BacktestEngine) (symbol : String)
    (retest : σ → BreakoutRetestState) (index : ℕ) (candle : BacktestCandle StrategyIndicators)
    (resistance : Option Decimal) : Bool :=
  (run.throughLevels index engine).value?.any fun levels =>
    !levels.1 && (levels.2.engine.portfolio.getPosition symbol).isNone &&
      decide ((((retest levels.2.strategyState).symbolState symbol).observeCandle candle).1 =
        resistance)

theorem exists_entersAt {run : BacktestRun σ StrategyIndicators} {engine : BacktestEngine}
    {symbol : String} {retest : σ → BreakoutRetestState} {index : ℕ}
    {candle : BacktestCandle StrategyIndicators} {resistance : Option Decimal}
    (h : entersWith run engine symbol retest index candle resistance = true) :
    ∃ state, EntersAt run engine symbol index state ∧
      (((retest state.strategyState).symbolState symbol).observeCandle candle).1 = resistance := by
  obtain ⟨⟨closedByLevel, state⟩, hcalled, hall⟩ := (Option.any_eq_true _ _).mp h
  simp only [Bool.and_eq_true, Bool.not_eq_true', Option.isNone_iff_eq_none, decide_eq_true_eq] at hall
  obtain ⟨⟨rfl, hflat⟩, hresistance⟩ := hall
  exact ⟨state, ⟨hcalled, hflat⟩, hresistance⟩

theorem not_closesByLevel {run : BacktestRun σ StrategyIndicators} {engine : BacktestEngine}
    {index : ℕ} (h : ((run.throughLevels index engine).value?.any Prod.fst) = false) :
    ¬run.ClosesByLevel engine index := by
  rintro ⟨state, hvalue⟩
  rw [hvalue] at h
  cases h

/-- An hourly candle in an upward trend. -/
def rangeCandle (index : ℕ) (high low close : Decimal) : BacktestCandle StrategyIndicators :=
  let indicators : StrategyIndicators :=
    { ema20 := some 98, ema50 := some 95, ema200 := some 90, rsi := some 50, regime := some trendUp }
  { symbol := "BTCUSDT", openTime := index * hour, close, open_ := some close
    high := some high, low := some low, volume := some 1000, indicators }

def retestIdentity : StrategyIdentity :=
  { name := "BreakoutRetest", newSignalId := fun timestamp => .uuid timestamp.toNat }

/-- A backtest of Breakout Retest over the candles. -/
def retestRun (candles : List (BacktestCandle StrategyIndicators)) :
    BacktestRun BreakoutRetestState StrategyIndicators :=
  { candles, strategy := .base (breakoutRetestStrategy retestIdentity).base, initialState := {}
    clock := fun _ => 0, runId := "retest" }

/-- Highs that rise from 100. -/
def risingCandle (index : ℕ) : BacktestCandle StrategyIndicators :=
  rangeCandle index (100 + index) 99 100

def risingCandles : List (BacktestCandle StrategyIndicators) := (List.range 21).map risingCandle

theorem resistance_of_preceding_rising : ∃ state,
    EntersAt (retestRun risingCandles) (.new {} {} fun _ => 0) "BTCUSDT" 20 state ∧
      ((state.strategyState.symbolState "BTCUSDT").observeCandle (risingCandle 20)).1 =
        (((risingCandles.take 20).drop (20 - resistanceLookbackBars)).map
          BacktestCandle.highPrice).max? := by
  have hcalled : entersWith (retestRun risingCandles) (.new {} {} fun _ => 0) "BTCUSDT" id 20
      (risingCandle 20) (some 119) = true := by decide +kernel
  obtain ⟨state, henters, -⟩ := exists_entersAt hcalled
  refine ⟨state, henters, (resistance_of_preceding retestIdentity "BTCUSDT" {} {} fun _ => 0).1
    (retestRun risingCandles) rfl rfl (by decide +kernel) ?_ 20 (risingCandle 20) state
    le_rfl rfl henters ?_⟩
  · decide +kernel
  · intro earlier _ hlt
    refine not_closesByLevel ?_
    revert earlier
    decide +kernel

/-- A breakout over 100, its retest, the purchase, and a candle up to 120 that stops the position. -/
def stoppedCandles : List (BacktestCandle StrategyIndicators) :=
  (List.range 20).map (fun index => rangeCandle index 100 99 100) ++
    [rangeCandle 20 101 100 101, rangeCandle 21 101 100 100, rangeCandle 22 101 100 100,
      rangeCandle 23 120 80 100, rangeCandle 24 101 100 100]

/-- The resistance after the stop is 101. -/
theorem stopped_candle_skipped : ¬∀ (strategy : StrategyIdentity) (symbol : String)
    (config : BacktestConfig) (riskEngine : RiskEngine) (draws : ℕ → Decimal)
    (run : BacktestRun BreakoutRetestState StrategyIndicators),
    run.strategy = .base (breakoutRetestStrategy strategy).base → run.initialState = {} →
    (∀ candle ∈ run.candles, candle.symbol = symbol) →
    (run.candles.Pairwise fun earlier later => earlier.openTime < later.openTime) →
    ∀ index candle state, resistanceLookbackBars ≤ index → run.candles[index]? = some candle →
      EntersAt run (.new config riskEngine draws) symbol index state →
      ((state.strategyState.symbolState symbol).observeCandle candle).1 =
        (((run.candles.take index).drop (index - resistanceLookbackBars)).map
          BacktestCandle.highPrice).max? := by
  intro h
  have hcalled : entersWith (retestRun stoppedCandles) (.new {} {} fun _ => 0) "BTCUSDT" id 24
      (rangeCandle 24 101 100 100) (some 101) = true := by decide +kernel
  obtain ⟨state, henters, hresistance⟩ := exists_entersAt hcalled
  have hall := h retestIdentity "BTCUSDT" {} {} (fun _ => 0) (retestRun stoppedCandles) rfl rfl
    (by decide +kernel) (by decide +kernel) 24 (rangeCandle 24 101 100 100) state (by decide) rfl
    henters
  have hmaximum : (((stoppedCandles.take 24).drop (24 - resistanceLookbackBars)).map
      BacktestCandle.highPrice).max? = some 120 := by decide +kernel
  rw [show (retestRun stoppedCandles).candles = stoppedCandles from rfl, hmaximum] at hall
  rw [id, hall] at hresistance
  revert hresistance
  decide +kernel

end Examples

end CryptoTrading
