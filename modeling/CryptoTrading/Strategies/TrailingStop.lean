import CryptoTrading.Strategies.DcaLadder
import Mathlib.Data.Set.Finite.Lemmas
import Mathlib.Order.Interval.Finset.Nat

/-! The trailing stop of `TrendDCAStrategy`: the high that it trails is kept by symbol, and outlives the
positions that the engine closes.  It is one of the position that is held all the same. -/

namespace CryptoTrading

open Kit

/-! ### The high that is trailed -/

section Trail

variable {strategy : StrategyIdentity} {candle : BacktestCandle StrategyIndicators}
  {indicators : StrategyIndicators} {position : PositionState} {state : TrendDCAState}
  {trailingHighs : Dict String Decimal} {P : Decimal → Prop}

/-- What holds of the highs that a candle may raise the trailed one to holds of the one that is trailed
after it, and of the one that the stop is hit below. -/
theorem StrategyIdentity.trail_kept
    (hstart : position.entryPrice * (1 + strategy.config.trailingStopActivation) ≤ candle.highPrice →
      P candle.highPrice)
    (hraised : ∀ own, trailingHighs.get? candle.symbol = some own →
      P candle.highPrice ∧ P (max own candle.highPrice)) :
    (∀ high, (strategy.trail candle trailingHighs position).1.get? candle.symbol = some high →
      P high) ∧
    ∀ stop, (strategy.trail candle trailingHighs position).2 = some stop → ∃ high, P high ∧
      candle.lowPrice ≤ high * (1 - strategy.config.trailingStopDistance) := by
  have hhigh : ((trailingHighs.get? candle.symbol).isSome || decide (candle.highPrice ≥
      position.entryPrice * (1 + strategy.config.trailingStopActivation))) = true →
      P (max (truthyOr (trailingHighs.get? candle.symbol) candle.highPrice) candle.highPrice) := by
    intro htrails
    cases htracked : trailingHighs.get? candle.symbol with
    | none =>
      rw [htracked, Option.isSome_none, Bool.false_or, decide_eq_true_eq] at htrails
      rw [truthyOr, max_self]
      exact hstart htrails
    | some own =>
      obtain ⟨hown, hmax⟩ := hraised own htracked
      simp only [truthyOr]
      split
      · rwa [max_self]
      · exact hmax
  unfold trail
  dsimp only
  split
  · rename_i htrails
    split
    · rename_i hlow
      refine ⟨fun high hkept => ?_, ?_⟩
      · rw [Dict.get?_erase, if_pos rfl] at hkept
        cases hkept
      · exact fun stop _ => ⟨_, hhigh htrails, hlow⟩
    · refine ⟨fun high hkept => ?_, fun stop hstop => by cases hstop⟩
      rw [Dict.get?_set, if_pos rfl, Option.some.injEq] at hkept
      exact hkept ▸ hhigh htrails
  · rename_i hidle
    refine ⟨fun high hkept => ?_, fun stop hstop => by cases hstop⟩
    simp [hkept] at hidle

/-- The trailed high after an exit was asked for, and the one that a trailing stop is hit below. -/
theorem TrendDCAState.shouldExit_trailed (hlower : ∀ high higher, high ≤ higher → P higher → P high)
    (hstart : position.entryPrice * (1 + strategy.config.trailingStopActivation) ≤ candle.highPrice →
      P candle.highPrice)
    (hraised : ∀ own, state.trailingHighs.get? candle.symbol = some own →
      P (max own candle.highPrice)) :
    (∀ high, (state.shouldExit strategy candle indicators position).1.trailingHighs.get?
      candle.symbol = some high → P high) ∧
    ∀ signal, (state.shouldExit strategy candle indicators position).2 = some signal →
      signal.reason = "Trailing stop hit" → ∃ high, P high ∧
        candle.lowPrice ≤ high * (1 - strategy.config.trailingStopDistance) := by
  have hkept : ∀ high, state.trailingHighs.get? candle.symbol = some high → P high := fun high hhigh =>
    hlower high _ (le_max_left _ _) (hraised high hhigh)
  obtain ⟨htracked, hstops⟩ := strategy.trail_kept hstart fun own hown =>
    ⟨hlower _ _ (le_max_right _ _) (hraised own hown), hraised own hown⟩
  unfold shouldExit
  split
  · refine ⟨hkept, ?_⟩
    rintro signal ⟨⟩ hreason
    exact absurd hreason (show "Max holding period reached" ≠ "Trailing stop hit" by decide)
  split
  · refine ⟨hkept, ?_⟩
    rintro signal ⟨⟩ hreason
    exact absurd hreason (show "Regime changed to TREND_DOWN" ≠ "Trailing stop hit" by decide)
  unfold exitAtProfit
  split
  · rename_i highs stop htrail
    rw [htrail] at htracked hstops
    exact ⟨htracked, fun _ _ _ => hstops stop rfl⟩
  · rename_i highs htrail
    rw [htrail] at htracked
    refine ⟨htracked, fun signal hsignal hreason => ?_⟩
    dsimp only at hsignal
    split at hsignal
    · cases hsignal
      exact absurd hreason (show "Take profit hit" ≠ "Trailing stop hit" by decide)
    · cases hsignal

end Trail

/-! ### The candles that are evaluated -/

namespace BacktestRun

variable {σ ι : Type}

/-- The strategy is asked about a position at the close of the candle at `index`, after `closed` others
have been closed. -/
def EvaluatedAt (run : BacktestRun σ ι) (engine : BacktestEngine) (closed index : ℕ)
    (candle : BacktestCandle ι) (position : Position) : Prop :=
  ∃ state, run.Evaluates engine index candle state position ∧
    state.engine.portfolio.closedPositions.length = closed

/-- The highs of the candles from `first` on, up to `count`, at which the strategy is asked about one
position. -/
def evaluatedHighs (run : BacktestRun σ ι) (engine : BacktestEngine) (closed first count : ℕ) :
    Set Decimal :=
  {high | ∃ index candle position, first ≤ index ∧ index < count ∧
    run.EvaluatedAt engine closed index candle position ∧ candle.highPrice = high}

/-- A high that is trailed: the position has reached the activation price at a candle that was evaluated,
and the high was reached at one of those evaluated since. -/
def Trails (run : BacktestRun σ ι) (engine : BacktestEngine) (activation : Decimal)
    (closed count : ℕ) (high : Decimal) : Prop :=
  ∃ first candle position, first < count ∧ run.EvaluatedAt engine closed first candle position ∧
    position.entryPrice * (1 + activation) ≤ candle.highPrice ∧
      ∃ highest ∈ run.evaluatedHighs engine closed first count, high ≤ highest

/-- A stop of the position that is held at the close of the candle at `index`: at a candle since its base
order the price was 3% above the average entry price, and it has fallen by 2% from the highest price since. -/
def StopsPosition (run : BacktestRun σ ι) (engine : BacktestEngine) (index : ℕ)
    (candle : BacktestCandle ι) : Prop :=
  ∃ state position, run.Evaluates engine index candle state position ∧
    ∃ first start opened highest, first ≤ index ∧
      run.EvaluatedAt engine state.engine.portfolio.closedPositions.length first start opened ∧
      opened.entryPrice * (103 / 100) ≤ start.highPrice ∧
      IsGreatest (run.evaluatedHighs engine state.engine.portfolio.closedPositions.length first
        (index + 1)) highest ∧
      candle.lowPrice ≤ highest * (98 / 100)

section Highs

variable {run : BacktestRun σ ι} {engine : BacktestEngine} {activation : Decimal}
  {closed first count : ℕ} {candle : BacktestCandle ι} {position : Position} {high : Decimal}

theorem evaluatedHighs_finite (run : BacktestRun σ ι) (engine : BacktestEngine)
    (closed first count : ℕ) : (run.evaluatedHighs engine closed first count).Finite := by
  refine Set.Finite.subset ((Set.finite_Iio count).image fun index =>
    (run.candles[index]?).elim 0 BacktestCandle.highPrice) ?_
  rintro high ⟨index, candle, position, -, hindex, ⟨state, hevaluates, -⟩, rfl⟩
  exact ⟨index, hindex, by simp only [hevaluates.own, Option.elim_some]⟩

theorem Trails.lower {higher : Decimal} (hle : high ≤ higher)
    (h : run.Trails engine activation closed count higher) :
    run.Trails engine activation closed count high := by
  obtain ⟨first, candle, position, hfirst, hevaluated, hstart, highest, hmem, hhighest⟩ := h
  exact ⟨first, candle, position, hfirst, hevaluated, hstart, highest, hmem, hle.trans hhighest⟩

theorem evaluatedHighs_succ (hmem : high ∈ run.evaluatedHighs engine closed first count) :
    high ∈ run.evaluatedHighs engine closed first (count + 1) := by
  obtain ⟨index, candle, position, hfirst, hindex, hevaluated, hhigh⟩ := hmem
  exact ⟨index, candle, position, hfirst, Nat.lt_succ_of_lt hindex, hevaluated, hhigh⟩

theorem Trails.succ (h : run.Trails engine activation closed count high) :
    run.Trails engine activation closed (count + 1) high := by
  obtain ⟨first, candle, position, hfirst, hevaluated, hstart, highest, hmem, hhighest⟩ := h
  exact ⟨first, candle, position, Nat.lt_succ_of_lt hfirst, hevaluated, hstart, highest,
    evaluatedHighs_succ hmem, hhighest⟩

theorem Trails.start (hevaluated : run.EvaluatedAt engine closed count candle position)
    (hstart : position.entryPrice * (1 + activation) ≤ candle.highPrice) :
    run.Trails engine activation closed (count + 1) candle.highPrice :=
  ⟨count, candle, position, Nat.lt_succ_self count, hevaluated, hstart, candle.highPrice,
    ⟨count, candle, position, le_rfl, Nat.lt_succ_self count, hevaluated, rfl⟩, le_rfl⟩

/-- The high that is trailed is raised by that of a candle. -/
theorem Trails.raise (h : run.Trails engine activation closed count high)
    (hevaluated : run.EvaluatedAt engine closed count candle position) :
    run.Trails engine activation closed (count + 1) (max high candle.highPrice) := by
  rcases le_total high candle.highPrice with hle | hle
  · rw [max_eq_right hle]
    obtain ⟨first, candle', position', hfirst, hevaluated', hstart, -⟩ := h
    exact ⟨first, candle', position', Nat.lt_succ_of_lt hfirst, hevaluated', hstart,
      candle.highPrice, ⟨count, candle, position, hfirst.le, Nat.lt_succ_self count, hevaluated, rfl⟩,
      le_rfl⟩
  · rw [max_eq_left hle]
    exact h.succ

end Highs

end BacktestRun

/-! ### Runs -/

/-- While a position is held, the high that is trailed is one of its own. -/
def BacktestRun.TrailsPosition (run : BacktestRun TrendDCAState StrategyIndicators)
    (engine : BacktestEngine) (activation : Decimal) (symbol : String) (count : ℕ)
    (state : BacktestState TrendDCAState) : Prop :=
  (state.engine.portfolio.getPosition symbol).isSome = true →
    ∀ high, state.strategyState.trailingHighs.get? symbol = some high →
      run.Trails engine activation state.engine.portfolio.closedPositions.length count high

namespace BacktestRun

section Turns

variable {run : BacktestRun TrendDCAState StrategyIndicators} {strategy : StrategyIdentity}
  {engine : BacktestEngine} {symbol : String} {index : ℕ} {activation : Decimal}
  {candle : BacktestCandle StrategyIndicators} {state opened : BacktestState TrendDCAState}

/-- The fill of a base order drops the trailed high, and that of a safety order is of the position that
is held. -/
theorem TrailsPosition.opens (h : run.TrailsPosition engine activation symbol index state)
    (hplans : run.PlansLadder engine symbol index state)
    (hopens : run.OpensWith (trendDCAStrategy strategy) index candle state opened) :
    run.TrailsPosition engine activation symbol index opened := by
  cases hopens with
  | idle _ => exact h
  | @order signal fill after strategyState hpending houtcome hnotified =>
    cases houtcome.moves with
    | unmoved portfolio =>
      obtain rfl : state.strategyState = strategyState := Except.ok.inj hnotified
      intro hheld high hhigh
      simp only [portfolio] at hheld ⊢
      exact h hheld high hhigh
    | @filled _ fill side before held closed =>
      obtain rfl : state.strategyState.onFill signal = strategyState := Except.ok.inj hnotified
      intro hheld high hhigh
      simp only at hheld hhigh ⊢
      simp only [pendingCall] at side held before
      rcases hplans.next signal (hpending ▸ List.mem_singleton_self signal) with
        hsells | ⟨level, hbuys⟩
      · have hside : fill.side = .sell := hsells.side_eq side
        rw [held, hsells.own, Function.update_self, hside] at hheld
        cases hheld
      · have hside : fill.side = .buy := hbuys.side_eq side
        have hcount : after.portfolio.closedPositions.length =
            state.engine.portfolio.closedPositions.length := by
          rw [closed, hside]
          rfl
        rw [hcount]
        simp only [TrendDCAState.onFill, hbuys.metadata, hbuys.own] at hhigh
        cases level with
        | zero =>
          rw [Nat.cast_zero, if_pos rfl, Dict.get?_erase, if_pos rfl] at hhigh
          cases hhigh
        | succ level =>
          have hpositive : ((level + 1 : ℕ) : ℤ) ≠ 0 := by omega
          rw [if_neg hpositive] at hhigh
          refine h ?_ high hhigh
          by_contra hflat
          have hnext := hbuys.next
          rw [hplans.climbs.flat (Bool.not_eq_true _ ▸ hflat), rungs_succ] at hnext
          have hlength := congrArg List.length hnext
          simp [rungs] at hlength

/-- A level ends the position, if it is touched at all. -/
theorem TrailsPosition.touches (h : run.TrailsPosition engine activation candle.symbol index state)
    {levels : Bool × BacktestEngine} (htouches : run.LevelsWith candle state.engine levels) :
    run.TrailsPosition engine activation candle.symbol index { state with engine := levels.2 } := by
  cases htouches with
  | untouched => exact h
  | order call hsymbol haction hplain houtcome =>
    cases houtcome.moves with
    | unmoved portfolio =>
      intro hheld high hhigh
      simp only [portfolio] at hheld ⊢
      exact h hheld high hhigh
    | @filled _ fill side before held closed =>
      intro hheld
      have hside : fill.side = .sell := SellsPosition.side_eq ⟨hsymbol, haction, hplain⟩ side
      simp only at hheld
      rw [held, hsymbol, Function.update_self, hside] at hheld
      cases hheld

/-- What an exit that is asked for at the close of a candle leaves of the trailed high, and the one that a
trailing stop is hit below. -/
theorem TrailsPosition.exits {indicators : StrategyIndicators}
    {position : Position} {shown : PositionState}
    (h : run.TrailsPosition engine strategy.config.trailingStopActivation candle.symbol index state)
    (hown : run.candles[index]? = some candle)
    (hreaches : (run.throughLevels index engine).value? = some (false, state))
    (hposition : (state.engine.markedAt candle).portfolio.getPosition candle.symbol = some position)
    (hshown : positionState (state.engine.markedAt candle).portfolio position = .ok shown) :
    (∀ high, (state.strategyState.shouldExit strategy candle indicators shown).1.trailingHighs.get?
      candle.symbol = some high → run.Trails engine strategy.config.trailingStopActivation
        state.engine.portfolio.closedPositions.length (index + 1) high) ∧
    ∀ signal, (state.strategyState.shouldExit strategy candle indicators shown).2 = some signal →
      signal.reason = "Trailing stop hit" → ∃ high,
        run.Trails engine strategy.config.trailingStopActivation
          state.engine.portfolio.closedPositions.length (index + 1) high ∧
        candle.lowPrice ≤ high * (1 - strategy.config.trailingStopDistance) := by
  have hevaluated : run.EvaluatedAt engine state.engine.portfolio.closedPositions.length index
      candle position := ⟨state, ⟨hown, hreaches, hposition⟩, rfl⟩
  refine TrendDCAState.shouldExit_trailed (fun _ _ hle => Trails.lower hle) (fun hstart => ?_)
    fun own htracked => ?_
  · rw [(positionState_ok hshown).1] at hstart
    exact Trails.start hevaluated hstart
  · have hheld : (state.engine.portfolio.getPosition candle.symbol).isSome = true := by
      rw [← state.engine.isSome_getPosition_markedAt candle]
      exact Option.isSome_of_eq_some hposition
    exact (h hheld own htracked).raise hevaluated

/-- The trailed high after the close of a candle, and the one that a trailing stop is hit below. -/
theorem TrailsPosition.closes {closedByLevel : Bool} {after : BacktestState TrendDCAState}
    (hcloses : run.ClosesWith (trendDCAStrategy strategy) index candle state closedByLevel after)
    (h : run.TrailsPosition engine strategy.config.trailingStopActivation candle.symbol index state)
    (hown : run.candles[index]? = some candle)
    (hreaches : (run.throughLevels index engine).value? = some (closedByLevel, state)) :
    run.TrailsPosition engine strategy.config.trailingStopActivation candle.symbol (index + 1) after ∧
    ∀ signal ∈ after.pendingSignals, signal.reason = "Trailing stop hit" →
      ∃ position high, run.Evaluates engine index candle state position ∧
        run.Trails engine strategy.config.trailingStopActivation
          state.engine.portfolio.closedPositions.length (index + 1) high ∧
        candle.lowPrice ≤ high * (1 - strategy.config.trailingStopDistance) := by
  cases hcloses with
  | byLevel same strategyState pending =>
    refine ⟨fun hposition high hhigh => ?_, fun signal hsignal => ?_⟩
    · rw [same.isSome_marked] at hposition
      rw [strategyState] at hhigh
      rw [same.closed]
      exact (h hposition high hhigh).succ
    · rw [pending] at hsignal
      cases hsignal
  | @byCall _ indicators signal same provided answered pending =>
    have hanswers := TrendDCAState.answers answered
    rw [TrailsPosition, same.isSome_marked, same.closed, pending]
    simp only [Option.mem_toList]
    generalize after.strategyState = left at hanswers ⊢
    cases hanswers with
    | flat hflat hbase =>
      refine ⟨fun hposition => ?_, fun own hpending hreason => ?_⟩
      · rw [← state.engine.isSome_getPosition_markedAt candle] at hposition
        exact absurd (hflat ▸ hposition) (by simp)
      · exact absurd ((hbase own hpending).2.2.1.symm.trans hreason) (by decide)
    | exits hposition hshows hexit =>
      obtain ⟨hkept, hstops⟩ := h.exits hown hreaches hposition hshows
      refine ⟨fun _ => hkept, fun own hpending hreason => ?_⟩
      obtain ⟨high, htrails, hlow⟩ := hstops own (hexit.trans hpending) hreason
      exact ⟨_, high, ⟨hown, hreaches, hposition⟩, htrails, hlow⟩
    | stays hposition hshows hexit hsafety =>
      obtain ⟨hkept, -⟩ := h.exits hown hreaches hposition hshows
      refine ⟨fun _ => hkept, fun own hpending hreason => ?_⟩
      obtain ⟨level, threshold, hordered⟩ := hsafety own hpending
      exact absurd (hordered.reason.symm.trans hreason)
        (TrendDCAState.safetyReason_ne level (by decide))

/-- A turn keeps the trailed high one of the position. -/
theorem TrailsPosition.turn {config : BacktestConfig} {riskEngine : RiskEngine} {draws : ℕ → Decimal}
    {before opened after : BacktestState TrendDCAState} {levels : Bool × BacktestEngine}
    (hturn : run.TurnWith (trendDCAStrategy strategy) (.new config riskEngine draws) index candle before
      opened levels after)
    (hplans : run.PlansLadder (.new config riskEngine draws) candle.symbol index before)
    (h : run.TrailsPosition (.new config riskEngine draws) strategy.config.trailingStopActivation
      candle.symbol index before) :
    run.TrailsPosition (.new config riskEngine draws) strategy.config.trailingStopActivation
        candle.symbol (index + 1) after ∧
    ∀ signal ∈ after.pendingSignals, signal.reason = "Trailing stop hit" →
      ∃ state position high, run.Evaluates (.new config riskEngine draws) index candle state position ∧
        run.Trails (.new config riskEngine draws) strategy.config.trailingStopActivation
          state.engine.portfolio.closedPositions.length (index + 1) high ∧
        candle.lowPrice ≤ high * (1 - strategy.config.trailingStopDistance) := by
  have htouched := (h.opens hplans hturn.opens).touches hturn.touches
  obtain ⟨hkept, hstops⟩ := TrailsPosition.closes hturn.closes htouched hturn.own hturn.reaches
  exact ⟨hkept, fun signal hsignal hreason => ⟨_, hstops signal hsignal hreason⟩⟩

end Turns

end BacktestRun

/-- A trailing stop is one of the position that is held. -/
theorem trailing_stop_confined (run : BacktestRun TrendDCAState StrategyIndicators)
    (strategy : StrategyIdentity) (symbol : String) (config : BacktestConfig) (riskEngine : RiskEngine)
    (draws : ℕ → Decimal) (hstrategy : run.strategy = .base (trendDCAStrategy strategy).base)
    (hactivation : strategy.config.trailingStopActivation = 3 / 100)
    (hdistance : strategy.config.trailingStopDistance = 2 / 100)
    (hsymbol : ∀ candle ∈ run.candles, candle.symbol = symbol) (index : ℕ)
    (candle : BacktestCandle StrategyIndicators) (hcandle : run.candles[index]? = some candle)
    (after : BacktestState TrendDCAState)
    (hafter : (run.turns (index + 1) (run.start (.new config riskEngine draws))).value? = some after)
    (signal : Signal) (hsignal : signal ∈ after.pendingSignals)
    (hreason : signal.reason = "Trailing stop hit") :
    run.StopsPosition (.new config riskEngine draws) index candle := by
  have hindex : index < run.candles.length := (List.getElem?_eq_some_iff.mp hcandle).1
  have hkept : ∀ {count : ℕ} {state : BacktestState TrendDCAState}, count ≤ run.candles.length →
      (run.turns count (run.start (.new config riskEngine draws))).value? = some state →
      run.TrailsPosition (.new config riskEngine draws) strategy.config.trailingStopActivation symbol
        count state := by
    intro count state hcount hstate
    refine BacktestRun.turns_invariant (P := run.TrailsPosition (.new config riskEngine draws)
      strategy.config.trailingStopActivation symbol) hstrategy (fun hheld => by cases hheld) ?_ hcount
      hstate
    intro index candle before opened levels after hturn htrails
    obtain ⟨hlt, -⟩ := List.getElem?_eq_some_iff.mp hturn.own
    have hplans := BacktestRun.plansLadder hstrategy hsymbol hlt.le hturn.starts
    obtain rfl : candle.symbol = symbol := hsymbol candle (List.mem_of_getElem? hturn.own)
    exact (BacktestRun.TrailsPosition.turn hturn hplans htrails).1
  obtain rfl : candle.symbol = symbol := hsymbol candle (List.mem_of_getElem? hcandle)
  obtain ⟨before, opened, levels, hturn⟩ := BacktestRun.exists_turnWith hstrategy hcandle hafter
  have hplans := BacktestRun.plansLadder hstrategy hsymbol hindex.le hturn.starts
  have hstops := (BacktestRun.TrailsPosition.turn hturn hplans (hkept hindex.le hturn.starts)).2
  obtain ⟨state, position, high, hevaluates, htrails, hlow⟩ := hstops signal hsignal hreason
  obtain ⟨first, start, opening, hfirst, hevaluated, hstart, reached, hreached, hhigh⟩ := htrails
  obtain ⟨highest, hmem, hgreatest⟩ := Set.exists_max_image _ id
    (run.evaluatedHighs_finite (.new config riskEngine draws)
      state.engine.portfolio.closedPositions.length first (index + 1)) ⟨reached, hreached⟩
  rw [hactivation] at hstart
  rw [hdistance] at hlow
  have hle : high ≤ highest := hhigh.trans (hgreatest reached hreached)
  refine ⟨state, position, hevaluates, first, start, opening, highest, Nat.le_of_lt_succ hfirst,
    hevaluated, ?_, ⟨hmem, hgreatest⟩, ?_⟩
  · linarith
  · linarith

/-- A position that rises by 4%, and then falls by 3%. -/
def trailedRun : BacktestRun TrendDCAState StrategyIndicators :=
  { ladderRun with candles := [trendUpCandle 0 100, trendUpCandle hour 100,
      trendUpCandle (2 * hour) 104, trendUpCandle (3 * hour) 101] }

theorem trailedRun_stops : ∃ after, (trailedRun.turns 4 (trailedRun.start ladderEngine)).value? =
    some after ∧ (∃ signal ∈ after.pendingSignals, signal.reason = "Trailing stop hit") ∧
      trailedRun.StopsPosition ladderEngine 3 (trendUpCandle (3 * hour) 101) := by
  have hstopped : (trailedRun.turns 4 (trailedRun.start ladderEngine)).value?.any (fun after =>
      after.pendingSignals.any fun signal => decide (signal.reason = "Trailing stop hit")) = true := by
    decide +kernel
  obtain ⟨after, hafter, hany⟩ := (Option.any_eq_true _ _).mp hstopped
  obtain ⟨signal, hsignal, hdecide⟩ := List.any_eq_true.mp hany
  have hreason := of_decide_eq_true hdecide
  exact ⟨after, hafter, ⟨signal, hsignal, hreason⟩, trailing_stop_confined trailedRun ladderIdentity
    "BTCUSDT" {} {} _ rfl rfl rfl (by decide +kernel) 3 _ rfl after hafter signal hsignal hreason⟩

end CryptoTrading
