import CryptoTrading.Strategies.DcaLadder

/-! How long the positions of a backtest have been held: what `holding_periods` counts, beside a watch that
counts the candles and the purchases by itself. -/

namespace CryptoTrading

open Kit

/-! ### The watch -/

/-- What is seen of an open position: how many candles were completed before it was opened, and how many
purchases were added to it. -/
structure PositionLife where
  opened : ℕ
  added : ℕ := 0
  deriving DecidableEq

/-- The symbols of the completed candles, and the open positions. -/
structure PositionWatch where
  completed : List String := []
  lives : Dict String PositionLife := .empty
  deriving DecidableEq

namespace PositionWatch

variable (watch : PositionWatch)

/-- A purchase opens a position, or is added to the one that is open. -/
def bought (symbol : String) : PositionWatch :=
  { watch with lives := watch.lives.set symbol ((watch.lives.get? symbol).elim
      ⟨watch.completed.length, 0⟩ fun life => { life with added := life.added + 1 }) }

def sold (symbol : String) : PositionWatch := { watch with lives := watch.lives.erase symbol }

def filled (fill : Fill) : PositionWatch :=
  match fill.side with
  | .buy => watch.bought fill.symbol
  | .sell => watch.sold fill.symbol

/-- An event is seen, and the fill that it leads to. -/
def see (event : EngineEvent) (fill : Option Fill) : PositionWatch :=
  match event with
  | .mark symbol _ _ _ => { watch with completed := watch.completed ++ [symbol] }
  | _ => fill.elim watch watch.filled

theorem completed_filled (fill : Fill) : (watch.filled fill).completed = watch.completed := by
  unfold filled
  split <;> rfl

theorem completed_see {event : EngineEvent} (fill : Option Fill)
    (h : ∀ symbol close high timestamp, event ≠ .mark symbol close high timestamp) :
    (watch.see event fill).completed = watch.completed := by
  cases event with
  | mark symbol close high timestamp => exact absurd rfl (h symbol close high timestamp)
  | signal _ _ => cases fill <;> simp [see, completed_filled]
  | order _ => cases fill <;> simp [see, completed_filled]
  | drawdown _ => cases fill <;> simp [see, completed_filled]

end PositionWatch

/-- A step of the engine, which the watch sees. -/
def WatchedStep (clock : ℕ → Datetime) (seen : PositionWatch × BacktestEngine) (event : EngineEvent)
    (after : PositionWatch × BacktestEngine) : Prop :=
  ∃ fill, seen.2.apply clock event = .ok (fill, after.2) ∧ after.1 = seen.1.see event fill

/-- What the watch has seen after events that do not raise. -/
def BacktestEngine.watch (clock : ℕ → Datetime) (seen : PositionWatch × BacktestEngine)
    (events : List EngineEvent) : Except BacktestError (PositionWatch × BacktestEngine) :=
  events.foldlM (fun seen event => do
    let (fill, after) ← seen.2.apply clock event
    return (seen.1.see event fill, after)) seen

theorem watch_of_run {clock : ℕ → Datetime} {seen after : PositionWatch × BacktestEngine}
    {events : List EngineEvent} (h : Run (WatchedStep clock) seen events after) :
    BacktestEngine.watch clock seen events = .ok after := by
  induction h with
  | nil => rfl
  | @cons seen next after event events first _ ih =>
    obtain ⟨fill, happly, hsee⟩ := first
    obtain ⟨watch, engine⟩ := next
    rw [BacktestEngine.watch, List.foldlM_cons, happly]
    dsimp only at hsee
    rw [hsee] at ih
    exact ih

/-! ### What `holding_periods` counts -/

/-- A position has been held for the candles of its symbol that are completed since it was opened, and for
one more for each purchase that was added to it. -/
structure Aged (completed : List String) (symbol : String) (position : Position) (life : PositionLife) :
    Prop where
  opened : life.opened ≤ completed.length
  periods : position.holdingPeriods = (completed.drop life.opened).count symbol + life.added

def Portfolio.Ages (portfolio : Portfolio) (watch : PositionWatch) : Prop :=
  ∀ symbol, Option.Rel (Aged watch.completed symbol) (portfolio.getPosition symbol)
    (watch.lives.get? symbol)

section Ages

variable {portfolio : Portfolio} {watch : PositionWatch} {engine after : BacktestEngine}
  {clock : ℕ → Datetime} {symbol : String}

theorem Aged.marked {completed : List String} {position : Position} {life : PositionLife}
    (h : Aged completed symbol position life) (marked : String) (close high : Decimal) :
    Aged (completed ++ [marked]) symbol
      (if marked = symbol then position.updateMarket close (some high) else position) life where
  opened := h.opened.trans (by simp)
  periods := by
    rw [List.drop_append_of_le_length h.opened, List.count_append]
    split
    · rename_i hmarked
      have hperiods : (position.updateMarket close (some high)).holdingPeriods =
          position.holdingPeriods + 1 := rfl
      rw [hmarked, List.count_singleton_self, hperiods, h.periods]
      omega
    · rename_i hmarked
      rw [List.count_singleton, beq_false_of_ne hmarked, h.periods]
      rfl

theorem Portfolio.Ages.marked (h : portfolio.Ages watch) (marked : String) (close high : Decimal)
    (timestamp : Datetime) :
    (portfolio.updatePositions (Dict.empty.set marked close) timestamp
      (Dict.empty.set marked high)).Ages { watch with completed := watch.completed ++ [marked] } := by
  intro symbol
  have hposition : (portfolio.updatePositions (Dict.empty.set marked close) timestamp
      (Dict.empty.set marked high)).getPosition symbol = (portfolio.getPosition symbol).map fun position =>
        if marked = symbol then position.updateMarket close (some high) else position := by
    simp only [Portfolio.getPosition, Portfolio.updatePositions, Portfolio.get?_marked, Dict.get?_set,
      Dict.get?_empty]
    refine congrArg (Option.map · _) (funext fun position => ?_)
    by_cases hsymbol : marked = symbol
    · simp [hsymbol]
    · simp [hsymbol]
  have hown := h symbol
  rw [hposition]
  generalize portfolio.getPosition symbol = held at hown ⊢
  dsimp only
  generalize watch.lives.get? symbol = life at hown ⊢
  cases hown with
  | some haged => exact .some (haged.marked marked close high)
  | none => exact .none

theorem Portfolio.Ages.purchased (h : portfolio.Ages watch) (opening : Portfolio.Opening) :
    (portfolio.purchased opening).Ages (watch.bought opening.symbol) := by
  intro symbol
  simp only [Portfolio.getPosition, Portfolio.purchased, PositionWatch.bought, Dict.get?_set]
  have hown := h opening.symbol
  by_cases hsymbol : opening.symbol = symbol
  · simp only [hsymbol, if_true]
    rw [hsymbol] at hown
    simp only [Portfolio.getPosition] at hown
    generalize portfolio.positions.get? symbol = held at hown
    generalize watch.lives.get? symbol = life at hown
    cases hown with
    | none =>
      refine .some ⟨le_rfl, ?_⟩
      simp only [Option.elim_none, List.drop_length]
      rfl
    | @some position life haged =>
      refine .some ⟨haged.opened, ?_⟩
      show position.holdingPeriods + 1 = _
      rw [haged.periods]
      rfl
  · simp only [hsymbol, if_false]
    exact h symbol

theorem Portfolio.Ages.sold (h : portfolio.Ages watch) (symbol : String) (position : Position)
    (price commission : Decimal) (timestamp : Datetime) :
    (portfolio.sold symbol position price commission timestamp).Ages (watch.sold symbol) := by
  intro other
  simp only [Portfolio.getPosition, Portfolio.sold, PositionWatch.sold, Dict.get?_erase]
  split
  · exact .none
  · exact h other

theorem WatchedStep.ages {seen next : PositionWatch × BacktestEngine} {event : EngineEvent}
    (h : seen.2.portfolio.Ages seen.1) (hstep : WatchedStep clock seen event next) :
    next.2.portfolio.Ages next.1 := by
  obtain ⟨watch, engine⟩ := seen
  obtain ⟨watch', after⟩ := next
  obtain ⟨fill, happly, rfl : watch' = watch.see event fill⟩ := hstep
  cases event with
  | signal index signal => cases happly; exact h
  | drawdown drawdown => cases happly; exact h
  | mark symbol close high timestamp => cases happly; exact h.marked symbol close high timestamp
  | order call =>
    cases BacktestEngine.createAndExecuteOrder_outcome happly with
    | noPosition _ _ => exact h
    | rejected hassessed _ =>
      have hportfolio := hassessed.portfolio
      exact hportfolio ▸ h
    | refused hassessed _ _ _ =>
      have hportfolio := hassessed.portfolio
      exact hportfolio ▸ h
    | @bought order quote assessed hassessed _ hside _ =>
      have hsee : watch.see (.order call) (some (assessed.fillOf order quote)) =
          watch.bought (engine.opening order quote).symbol := by
        show watch.filled _ = _
        simp only [PositionWatch.filled, BacktestEngine.fillOf, hside]
        rfl
      rw [hsee]
      exact h.purchased _
    | @sold order quote assessed position hassessed _ hside _ =>
      have hsee : watch.see (.order call) (some (assessed.fillOf order quote)) =
          watch.sold call.signal.symbol := by
        show watch.filled _ = _
        simp only [PositionWatch.filled, BacktestEngine.fillOf, hside, hassessed.symbol]
      rw [hsee]
      exact h.sold _ _ _ _ _

end Ages

/-! ### Runs -/

/-- The watch goes along with the engine, and has seen the candles in these symbols. -/
def Watches (completed : List String) (engine : BacktestEngine) (seen : PositionWatch × BacktestEngine) :
    Prop := seen.2 = engine ∧ seen.1.completed = completed

namespace BacktestRun

open Traced

section Watched

variable {σ ι : Type} {run : BacktestRun σ ι} {completed : List String} {engine : BacktestEngine}
  {seen : PositionWatch × BacktestEngine} {state : BacktestState σ} {candle : BacktestCandle ι}
  {index : ℕ}

theorem watched_perform {event : EngineEvent} (h : Watches completed engine seen)
    (hevent : ∀ symbol close high timestamp, event ≠ .mark symbol close high timestamp) :
    Follows (WatchedStep run.clock) seen (fun outcome => Watches completed outcome.2)
      (engine.perform run.clock event) := by
  obtain ⟨rfl, rfl⟩ := h
  intro outcome trace hreturns
  obtain ⟨happly, rfl⟩ := returns_perform_iff.mp hreturns
  exact ⟨(seen.1.see event outcome.1, outcome.2), .single ⟨outcome.1, happly, rfl⟩, rfl,
    seen.1.completed_see outcome.1 hevent⟩

theorem watched_mark (h : Watches completed engine seen) (candle : BacktestCandle ι) :
    Follows (WatchedStep run.clock) seen
      (fun outcome => Watches (completed ++ [candle.symbol]) outcome.2)
      (engine.perform run.clock (.mark candle.symbol candle.close candle.highPrice candle.openTime)) := by
  obtain ⟨rfl, rfl⟩ := h
  intro outcome trace hreturns
  obtain ⟨happly, rfl⟩ := returns_perform_iff.mp hreturns
  exact ⟨({ seen.1 with completed := seen.1.completed ++ [candle.symbol] }, outcome.2),
    .single ⟨outcome.1, happly, rfl⟩, rfl, rfl⟩

theorem watched_executePending (h : Watches completed state.engine seen) :
    Follows (WatchedStep run.clock) seen (fun opened => Watches completed opened.engine)
      (run.executePending index candle state) := by
  refine follows_foldlM h fun opened seen signal _ hopened => ?_
  refine (watched_perform hopened fun _ _ _ _ => EngineEvent.noConfusion).bind ?_
  intro outcome seen houtcome
  exact follows_lift_bind fun strategyState _ => follows_pure houtcome

theorem watched_executeLevels (h : Watches completed engine seen) :
    Follows (WatchedStep run.clock) seen (fun closed => Watches completed closed.2)
      (run.executeLevels index candle engine) := by
  refine follows_foldlM h fun closed seen event _ hclosed => ?_
  unfold executeLevel
  split
  · exact follows_pure hclosed
  · refine Follows.bind (M := fun outcome seen => Watches completed outcome.2 seen) ?_
      fun outcome seen houtcome => follows_pure houtcome
    refine (watched_perform hclosed fun _ _ _ _ => EngineEvent.noConfusion).bind ?_
    exact fun recorded seen hrecorded =>
      watched_perform hrecorded fun _ _ _ _ => EngineEvent.noConfusion

theorem watched_queueSignals (state : BacktestState σ) (h : Watches completed state.engine seen)
    (closedByLevel : Bool) :
    Follows (WatchedStep run.clock) seen (fun queued => Watches completed queued.engine)
      (run.queueSignals index candle closedByLevel state) := by
  refine follows_lift_bind fun _ _ => follows_lift_bind fun called _ => ?_
  refine follows_foldlM h fun queued seen raw _ hqueued => ?_
  refine follows_lift_bind fun signal _ => ?_
  refine (watched_perform hqueued fun _ _ _ _ => EngineEvent.noConfusion).bind ?_
  exact fun recorded seen hrecorded => follows_pure hrecorded

theorem watched_trackDrawdown (h : Watches completed state.engine seen) :
    Follows (WatchedStep run.clock) seen (fun drawn => Watches completed drawn.engine)
      (run.trackDrawdown state) := by
  unfold trackDrawdown
  dsimp only
  split
  · exact follows_raised _
  · refine (watched_perform h fun _ _ _ _ => EngineEvent.noConfusion).bind ?_
    exact fun drawn seen hdrawn => follows_pure hdrawn

theorem watched_afterLevels {levels : Bool × BacktestState σ}
    (h : Watches completed levels.2.engine seen) :
    Follows (WatchedStep run.clock) seen
      (fun after => Watches (completed ++ [candle.symbol]) after.engine)
      (run.afterLevels index candle levels) := by
  refine (watched_mark h candle).bind fun marked seen hmarked => ?_
  exact (watched_queueSignals { levels.2 with engine := marked.2 } hmarked levels.1).bind
    fun queued seen hqueued => watched_trackDrawdown hqueued

theorem watched_throughLevels (hcandle : run.candles[index]? = some candle)
    (h : Follows (WatchedStep run.clock) seen (fun state => Watches completed state.engine)
      (run.turns index (run.start engine))) :
    Follows (WatchedStep run.clock) seen (fun levels => Watches completed levels.2.engine)
      (run.throughLevels index engine) := by
  simp only [throughLevels, throughOpen, hcandle, bind_assoc]
  refine h.bind fun before seen hbefore => ?_
  refine (watched_executePending hbefore).bind fun opened seen hopened => ?_
  refine (watched_executeLevels hopened).bind fun levels seen hlevels => ?_
  exact follows_pure hlevels

/-- The watch sees one candle in every turn. -/
theorem watched_turns {count : ℕ} (hcount : count ≤ run.candles.length)
    (h : Watches [] engine seen) :
    Follows (WatchedStep run.clock) seen
      (fun state => Watches ((run.candles.take count).map BacktestCandle.symbol) state.engine)
      (run.turns count (run.start engine)) := by
  induction count with
  | zero => exact follows_pure h
  | succ count ih =>
    have hcandle : run.candles[count]? = some run.candles[count] :=
      List.getElem?_eq_getElem hcount
    have htake : (run.candles.take (count + 1)).map BacktestCandle.symbol =
        (run.candles.take count).map BacktestCandle.symbol ++ [run.candles[count].symbol] := by
      rw [List.take_add_one, hcandle, List.map_append]
      rfl
    rw [htake, turns_succ_levels hcandle]
    refine (watched_throughLevels hcandle (ih (Nat.le_of_succ_le hcount))).bind ?_
    exact fun levels seen hlevels => watched_afterLevels hlevels

end Watched

variable {σ ι : Type}

/-- What the watch has seen when the strategy is called at the close of a candle. -/
def watchTo (run : BacktestRun σ ι) (engine : BacktestEngine) (index : ℕ)
    (candle : BacktestCandle ι) : Option PositionWatch :=
  (BacktestEngine.watch run.clock ({}, engine) ((run.throughLevels index engine).trace ++
    [.mark candle.symbol candle.close candle.highPrice candle.openTime])).toOption.map Prod.fst

/-- The candles in `symbol` from the one at `first` to the one at `last`. -/
def candlesOf (run : BacktestRun σ ι) (symbol : String) (first last : ℕ) : ℕ :=
  ((run.candles.take (last + 1)).drop first).countP fun candle => decide (candle.symbol = symbol)

/-- The strategy is called with positions that have been held for as many candles as there were in their
symbols, and for one more for each purchase that was added. -/
theorem holdingPeriods_eq (run : BacktestRun σ ι) (config : BacktestConfig) (riskEngine : RiskEngine)
    (draws : ℕ → Decimal) {index : ℕ} {candle : BacktestCandle ι}
    (hcandle : run.candles[index]? = some candle) {levels : Bool × BacktestState σ}
    (hlevels : (run.throughLevels index (.new config riskEngine draws)).value? = some levels)
    {symbol : String} {position : Position}
    (hposition : (levels.2.engine.markedAt candle).portfolio.getPosition symbol = some position) :
    ∃ watch life, run.watchTo (.new config riskEngine draws) index candle = some watch ∧
      watch.lives.get? symbol = some life ∧
      position.holdingPeriods = run.candlesOf symbol life.opened index + life.added := by
  obtain ⟨hindex, -⟩ := List.getElem?_eq_some_iff.mp hcandle
  have hturns : Follows (WatchedStep run.clock) ({}, .new config riskEngine draws)
      (fun state => Watches ((run.candles.take index).map BacktestCandle.symbol) state.engine)
      (run.turns index (run.start (.new config riskEngine draws))) :=
    watched_turns hindex.le ⟨rfl, rfl⟩
  obtain ⟨seen, hseen, hengine, hcompleted⟩ :=
    watched_throughLevels hcandle hturns levels _ (returns_of_value? hlevels)
  have hmark : WatchedStep run.clock seen
      (.mark candle.symbol candle.close candle.highPrice candle.openTime)
      ({ seen.1 with completed := seen.1.completed ++ [candle.symbol] },
        levels.2.engine.markedAt candle) := ⟨none, by rw [hengine]; rfl, rfl⟩
  have hrun := hseen.snoc hmark
  have hages := hrun.invariant (P := fun _ seen => seen.2.portfolio.Ages seen.1)
    (fun _ => .none) fun _ _ _ _ h hstep => WatchedStep.ages h hstep
  refine ⟨{ seen.1 with completed := seen.1.completed ++ [candle.symbol] }, ?_⟩
  have hown := hages symbol
  dsimp only at hown ⊢
  rw [hposition] at hown
  generalize hlife : seen.1.lives.get? symbol = life at hown ⊢
  cases hown with
  | @some _ life haged =>
    refine ⟨life, ?_, rfl, ?_⟩
    · rw [watchTo, watch_of_run hrun]
      rfl
    · have htake : seen.1.completed ++ [candle.symbol] =
          (run.candles.take (index + 1)).map BacktestCandle.symbol := by
        rw [hcompleted, List.take_add_one, hcandle, List.map_append]
        rfl
      rw [haged.periods, htake, ← List.map_drop, candlesOf, List.count, List.countP_map]
      rfl

/-- The watch has seen the life of the position in `symbol` up to the call of the strategy. -/
def Lives (run : BacktestRun σ ι) (engine : BacktestEngine) (index : ℕ) (candle : BacktestCandle ι)
    (symbol : String) (life : PositionLife) : Prop :=
  ∃ watch, run.watchTo engine index candle = some watch ∧ watch.lives.get? symbol = some life

end BacktestRun

/-! ### The exit by age -/

section Exit

variable {strategy : StrategyIdentity} {candle : BacktestCandle StrategyIndicators}
  {indicators : StrategyIndicators} {shown : PositionState} {state : TrendDCAState}

theorem TrendDCAState.shouldExit_maxHolding_iff :
    (∃ signal, (state.shouldExit strategy candle indicators shown).2 = some signal ∧
      signal.reason = "Max holding period reached") ↔
      strategy.config.maxHoldingPeriods ≤ shown.holdingPeriods := by
  unfold shouldExit
  split
  · rename_i hreached
    exact iff_of_true ⟨_, rfl, rfl⟩ hreached
  rename_i hearlier
  refine iff_of_false ?_ hearlier
  rintro ⟨signal, hsignal, hreason⟩
  split at hsignal
  · cases hsignal
    exact absurd hreason (show "Regime changed to TREND_DOWN" ≠ "Max holding period reached" by decide)
  · obtain ⟨price, reason, rfl, hother⟩ := exitAtProfit_signal hsignal
    rcases hother with rfl | rfl
    · exact absurd hreason (show "Trailing stop hit" ≠ "Max holding period reached" by decide)
    · exact absurd hreason (show "Take profit hit" ≠ "Max holding period reached" by decide)

/-- The exit by age is signalled when the position is old enough by the count of the engine. -/
theorem BacktestRun.exits_by_age_iff {run : BacktestRun TrendDCAState StrategyIndicators}
    {engine : BacktestEngine} (hstrategy : run.strategy = .base (trendDCAStrategy strategy).base)
    {index : ℕ} {state after : BacktestState TrendDCAState} {position : Position}
    (hevaluates : run.Evaluates engine index candle state position)
    (hafter : (run.turns (index + 1) (run.start engine)).value? = some after) :
    (∃ signal ∈ after.pendingSignals, signal.reason = "Max holding period reached") ↔
      strategy.config.maxHoldingPeriods ≤ position.holdingPeriods := by
  obtain ⟨before, opened, levels, hturn⟩ := exists_turnWith hstrategy hevaluates.own hafter
  have hsame := Option.some.inj (hturn.reaches.symm.trans hevaluates.reaches)
  have hclosed : levels.1 = false := congrArg Prod.fst hsame
  obtain rfl : { opened with engine := levels.2 } = state := congrArg Prod.snd hsame
  have hcloses := hturn.closes
  rw [hclosed] at hcloses
  cases hcloses with
  | @byCall _ indicators signal same provided answered pending =>
    have hanswers := TrendDCAState.answers answered
    rw [pending]
    simp only [Option.mem_toList]
    generalize after.strategyState = left at hanswers
    cases hanswers with
    | flat hflat _ =>
      rw [hevaluates.held] at hflat
      cases hflat
    | exits hposition hshows hexit =>
      obtain rfl := Option.some.inj (hevaluates.held.symm.trans hposition)
      rw [← (positionState_ok hshows).2, ← TrendDCAState.shouldExit_maxHolding_iff]
      exact exists_congr fun signal => and_congr_left' (by rw [hexit])
    | stays hposition hshows hexit hsafety =>
      obtain rfl := Option.some.inj (hevaluates.held.symm.trans hposition)
      rw [← (positionState_ok hshows).2, ← TrendDCAState.shouldExit_maxHolding_iff]
      refine iff_of_false ?_ ?_
      · rintro ⟨own, hown, hreason⟩
        obtain ⟨level, threshold, hordered⟩ := hsafety own hown
        exact absurd (hordered.reason.symm.trans hreason)
          (TrendDCAState.safetyReason_ne level (by decide))
      · rintro ⟨own, hown, -⟩
        rw [hexit] at hown
        cases hown

end Exit

/-- The strategy is called with positions whose `holding_periods` counts the candles in their symbols
exactly when no purchase was added to them; and then the exit by age is signalled by that count. -/
theorem holding_periods_count_candles_iff (config : BacktestConfig) (riskEngine : RiskEngine)
    (draws : ℕ → Decimal) (index : ℕ) :
    (∀ {σ ι : Type} (run : BacktestRun σ ι) (candle : BacktestCandle ι) (state : BacktestState σ)
      (symbol : String) (position : Position), run.candles[index]? = some candle →
      (run.throughLevels index (.new config riskEngine draws)).value? = some (false, state) →
      (state.engine.markedAt candle).portfolio.getPosition symbol = some position →
      ∃ life, run.Lives (.new config riskEngine draws) index candle symbol life ∧
        (position.holdingPeriods = run.candlesOf symbol life.opened index ↔ life.added = 0)) ∧
    ∀ (run : BacktestRun TrendDCAState StrategyIndicators) (strategy : StrategyIdentity)
      (candle : BacktestCandle StrategyIndicators) (state : BacktestState TrendDCAState)
      (position : Position), run.strategy = .base (trendDCAStrategy strategy).base →
      run.Evaluates (.new config riskEngine draws) index candle state position →
      ∃ life, run.Lives (.new config riskEngine draws) index candle candle.symbol life ∧
        ((position.holdingPeriods = run.candlesOf candle.symbol life.opened index ∧
          ∀ after, (run.turns (index + 1) (run.start (.new config riskEngine draws))).value? =
              some after →
            ((∃ signal ∈ after.pendingSignals, signal.reason = "Max holding period reached") ↔
              strategy.config.maxHoldingPeriods ≤ run.candlesOf candle.symbol life.opened index)) ↔
          life.added = 0) := by
  constructor
  · intro σ ι run candle state symbol position hcandle hlevels hposition
    obtain ⟨watch, life, hwatch, hlife, hperiods⟩ :=
      run.holdingPeriods_eq config riskEngine draws hcandle hlevels hposition
    exact ⟨life, ⟨watch, hwatch, hlife⟩, by omega⟩
  · intro run strategy candle state position hstrategy hevaluates
    obtain ⟨watch, life, hwatch, hlife, hperiods⟩ := run.holdingPeriods_eq config riskEngine draws
      hevaluates.own hevaluates.reaches hevaluates.held
    refine ⟨life, ⟨watch, hwatch, hlife⟩, fun hcounts => ?_, fun hadded => ?_⟩
    · have hcount := hcounts.1
      omega
    · have hcount : position.holdingPeriods = run.candlesOf candle.symbol life.opened index := by
        omega
      refine ⟨hcount, fun after hafter => ?_⟩
      rw [← hcount]
      exact BacktestRun.exits_by_age_iff hstrategy hevaluates hafter

/-! ### A position with a safety order -/

/-- The position of `ladderRun`, when the strategy is called at its last candle. -/
theorem ladderRun_evaluates : ∃ state position, ladderRun.Evaluates ladderEngine 3
    (trendUpCandle (3 * hour) 96) state position ∧ position.holdingPeriods = 4 := by
  have hfound : (ladderRun.throughLevels 3 ladderEngine).value?.any (fun levels => !levels.1 &&
      ((levels.2.engine.markedAt (trendUpCandle (3 * hour) 96)).portfolio.getPosition "BTCUSDT").any
        fun position => decide (position.holdingPeriods = 4)) = true := by
    decide +kernel
  obtain ⟨⟨closedByLevel, state⟩, hlevels, hany⟩ := (Option.any_eq_true _ _).mp hfound
  rw [Bool.and_eq_true, Bool.not_eq_true'] at hany
  obtain ⟨rfl, hheld⟩ : closedByLevel = false ∧ _ := hany
  obtain ⟨position, hposition, hperiods⟩ := (Option.any_eq_true _ _).mp hheld
  exact ⟨state, position, ⟨rfl, hlevels, hposition⟩, of_decide_eq_true hperiods⟩

theorem ladderRun_lives : ladderRun.Lives ladderEngine 3 (trendUpCandle (3 * hour) 96) "BTCUSDT"
    ⟨1, 1⟩ := by
  have hfound : (ladderRun.watchTo ladderEngine 3 (trendUpCandle (3 * hour) 96)).any (fun watch =>
      decide (watch.lives.get? "BTCUSDT" = some ⟨1, 1⟩)) = true := by
    decide +kernel
  obtain ⟨watch, hwatch, hlife⟩ := (Option.any_eq_true _ _).mp hfound
  exact ⟨watch, hwatch, of_decide_eq_true hlife⟩

/-- The safety order makes it one candle older than it is. -/
theorem holding_periods_fail : ¬∀ (run : BacktestRun TrendDCAState StrategyIndicators)
    (config : BacktestConfig) (riskEngine : RiskEngine) (draws : ℕ → Decimal) (index : ℕ)
    (candle : BacktestCandle StrategyIndicators) (state : BacktestState TrendDCAState)
    (position : Position) (life : PositionLife),
    run.Evaluates (.new config riskEngine draws) index candle state position →
    run.Lives (.new config riskEngine draws) index candle candle.symbol life →
      position.holdingPeriods = run.candlesOf candle.symbol life.opened index := by
  intro h
  obtain ⟨state, position, hevaluates, hperiods⟩ := ladderRun_evaluates
  have hcount := h ladderRun {} {} (fun _ => 0) 3 _ state position ⟨1, 1⟩ hevaluates ladderRun_lives
  have hthree : ladderRun.candlesOf "BTCUSDT" 1 3 = 3 := by decide +kernel
  rw [hperiods] at hcount
  exact absurd (hcount.trans hthree) (by decide)

/-- `holding_periods_count_candles_iff` for that position. -/
theorem ladderRun_ages : ∃ state position, ladderRun.Evaluates ladderEngine 3
      (trendUpCandle (3 * hour) 96) state position ∧
    (∃ life, ladderRun.Lives ladderEngine 3 (trendUpCandle (3 * hour) 96) "BTCUSDT" life ∧
      (position.holdingPeriods = ladderRun.candlesOf "BTCUSDT" life.opened 3 ↔ life.added = 0)) ∧
    ∃ life, ladderRun.Lives ladderEngine 3 (trendUpCandle (3 * hour) 96) "BTCUSDT" life ∧
      ((position.holdingPeriods = ladderRun.candlesOf "BTCUSDT" life.opened 3 ∧
        ∀ after, (ladderRun.turns 4 (ladderRun.start ladderEngine)).value? = some after →
          ((∃ signal ∈ after.pendingSignals, signal.reason = "Max holding period reached") ↔
            100 ≤ ladderRun.candlesOf "BTCUSDT" life.opened 3)) ↔ life.added = 0) := by
  obtain ⟨state, position, hevaluates, -⟩ := ladderRun_evaluates
  obtain ⟨hany, htrend⟩ := holding_periods_count_candles_iff {} {} (fun _ => 0) 3
  exact ⟨state, position, hevaluates,
    hany ladderRun _ state _ position rfl hevaluates.reaches hevaluates.held,
    htrend ladderRun ladderIdentity _ state position rfl hevaluates⟩

end CryptoTrading
