import CryptoTrading.Strategies.StrategySession

/-! The turns of a run with a strategy that returns one signal at most, taken apart: the order at the open of
the candle, the order at a level of the position, and the answer of the strategy at the close. -/

namespace CryptoTrading

open Kit

variable {σ ι : Type}

/-- The engine's books of orders, fills and positions are the same. -/
structure BacktestEngine.SameBooks (engine after : BacktestEngine) : Prop where
  orders : after.orders = engine.orders
  fills : after.fills = engine.fills
  positions : after.portfolio.positions = engine.portfolio.positions
  closed : after.portfolio.closedPositions = engine.portfolio.closedPositions

theorem BacktestEngine.SameBooks.isSome_marked {engine after : BacktestEngine}
    {candle : BacktestCandle ι} (h : (engine.markedAt candle).SameBooks after) (symbol : String) :
    (after.portfolio.getPosition symbol).isSome = (engine.portfolio.getPosition symbol).isSome := by
  rw [← engine.isSome_getPosition_markedAt candle, Portfolio.getPosition, h.positions]
  rfl

namespace BacktestRun

/-- The order of a pending signal at the open of a candle. -/
def pendingCall (run : BacktestRun σ ι) (index : ℕ) (candle : BacktestCandle ι) (signal : Signal) :
    OrderCall where
  origin := .pending index
  signal
  requestedPrice := candle.openPrice
  timestamp := candle.openTime
  averageVolume := averageCompletedVolume (run.candles.take index) signal.symbol

/-- The open of a candle: nothing is pending, or one signal, of which the strategy is told if it is
filled. -/
inductive OpensWith (run : BacktestRun σ ι) (strategy : SignalStrategy σ ι) (index : ℕ)
    (candle : BacktestCandle ι) (state : BacktestState σ) : BacktestState σ → Prop
  | idle (pending : state.pendingSignals = []) : OpensWith run strategy index candle state state
  | order {signal : Signal} {fill : Option Fill} {engine : BacktestEngine} {strategyState : σ}
      (pending : state.pendingSignals = [signal])
      (outcome : BacktestEngine.Outcome state.engine run.clock (run.pendingCall index candle signal)
        fill engine)
      (notified : fill.elim (.ok state.strategyState)
        (strategy.onFill state.strategyState signal) = .ok strategyState) :
      OpensWith run strategy index candle state
        { state with engine, strategyState, pendingSignals := [] }

/-- The levels of a candle: none is touched, or the engine sells the position in the candle's symbol. -/
inductive LevelsWith (run : BacktestRun σ ι) (candle : BacktestCandle ι) (engine : BacktestEngine) :
    Bool × BacktestEngine → Prop
  | untouched : LevelsWith run candle engine (false, engine)
  | order (call : OrderCall) {fill : Option Fill} {after : BacktestEngine}
      (symbol : call.signal.symbol = candle.symbol) (action : call.signal.action = "close")
      (plain : call.signal.metadata = {})
      (outcome : BacktestEngine.Outcome (engine.signaled call.signal) run.clock call fill after) :
      LevelsWith run candle engine (fill.isSome, after)

/-- The close of a candle: the strategy answers, unless a level has closed the position. -/
inductive ClosesWith (run : BacktestRun σ ι) (strategy : SignalStrategy σ ι) (index : ℕ)
    (candle : BacktestCandle ι) (state : BacktestState σ) : Bool → BacktestState σ → Prop
  | byLevel {after : BacktestState σ}
      (same : (state.engine.markedAt candle).SameBooks after.engine)
      (strategyState : after.strategyState = state.strategyState)
      (pending : after.pendingSignals = []) :
      ClosesWith run strategy index candle state true after
  | byCall {after : BacktestState σ} {indicators : ι} (signal : Option Signal)
      (same : (state.engine.markedAt candle).SameBooks after.engine)
      (provided : run.indicators index candle = .ok indicators)
      (answered : answer strategy candle indicators (state.engine.markedAt candle).portfolio
        state.strategyState = .ok (after.strategyState, signal))
      (pending : after.pendingSignals = signal.toList) :
      ClosesWith run strategy index candle state false after

/-- A turn of a run, from `before` to `after`. -/
structure TurnWith (run : BacktestRun σ ι) (strategy : SignalStrategy σ ι) (engine : BacktestEngine)
    (index : ℕ) (candle : BacktestCandle ι) (before opened : BacktestState σ)
    (levels : Bool × BacktestEngine) (after : BacktestState σ) : Prop where
  own : run.candles[index]? = some candle
  starts : (run.turns index (run.start engine)).value? = some before
  opens : run.OpensWith strategy index candle before opened
  touches : run.LevelsWith candle opened.engine levels
  reaches : (run.throughLevels index engine).value? =
    some (levels.1, { opened with engine := levels.2 })
  closes : run.ClosesWith strategy index candle { opened with engine := levels.2 } levels.1 after
  ends : (run.turns (index + 1) (run.start engine)).value? = some after

/-- The strategy is asked about `position` at the close of the candle at `index`. -/
structure Evaluates (run : BacktestRun σ ι) (engine : BacktestEngine) (index : ℕ)
    (candle : BacktestCandle ι) (state : BacktestState σ) (position : Position) : Prop where
  own : run.candles[index]? = some candle
  reaches : (run.throughLevels index engine).value? = some (false, state)
  held : (state.engine.markedAt candle).portfolio.getPosition candle.symbol = some position

section Parts

variable {run : BacktestRun σ ι} {strategy : SignalStrategy σ ι} {engine : BacktestEngine} {index : ℕ}
  {candle : BacktestCandle ι} {state : BacktestState σ}

theorem value?_perform {clock : ℕ → Datetime} {event : EngineEvent}
    {outcome : Option Fill × BacktestEngine} :
    (engine.perform clock event).value? = some outcome ↔ engine.apply clock event = .ok outcome := by
  unfold BacktestEngine.perform
  split
  · rename_i error happly
    rw [happly]
    exact ⟨fun h => (by cases h), fun h => (by cases h)⟩
  · rename_i result happly
    rw [happly, Traced.value?, Option.some_inj, Except.ok.injEq]

theorem value?_lift {α : Type} {x : Except BacktestError α} {a : α} :
    (Traced.lift (τ := EngineEvent) x).value? = some a ↔ x = .ok a := by
  cases x with
  | error error => exact ⟨fun h => (by cases h), fun h => (by cases h)⟩
  | ok value => rw [Traced.lift, Traced.value?, Option.some_inj, Except.ok.injEq]

theorem opensWith (hstrategy : run.strategy = .base strategy.base) {pending : Option Signal}
    (hpending : state.pendingSignals = pending.toList) {opened : BacktestState σ}
    (h : (run.executePending index candle state).value? = some opened) :
    run.OpensWith strategy index candle state opened := by
  unfold executePending at h
  rw [hpending] at h
  cases pending with
  | none =>
    have hsame : { state with pendingSignals := [] } = state := by rw [← Option.toList_none, ← hpending]
    rw [Option.toList_none, List.foldlM_nil, hsame] at h
    cases h
    exact .idle hpending
  | some signal =>
    rw [Option.toList_some, List.foldlM_cons, Traced.value?_bind] at h
    obtain ⟨executed, hexecuted, hlast⟩ := Option.bind_eq_some_iff.mp h
    cases hlast
    unfold executePendingSignal at hexecuted
    rw [Traced.value?_bind] at hexecuted
    obtain ⟨⟨fill, after⟩, hordered, hrest⟩ := Option.bind_eq_some_iff.mp hexecuted
    rw [Traced.value?_bind] at hrest
    obtain ⟨strategyState, hnotified, hreturned⟩ := Option.bind_eq_some_iff.mp hrest
    cases hreturned
    refine .order hpending
      (BacktestEngine.createAndExecuteOrder_outcome (value?_perform.mp hordered)) ?_
    rw [← value?_lift.mp hnotified]
    cases fill with
    | none => rfl
    | some fill =>
      simp only [notifyFill, hstrategy]
      rfl

theorem levelsWith {levels : Bool × BacktestEngine}
    (h : (run.executeLevels index candle engine).value? = some levels) :
    run.LevelsWith candle engine levels := by
  rw [executeLevels, Portfolio.checkIntrabarExits_single] at h
  cases hheld : engine.portfolio.getPosition candle.symbol with
  | none =>
    rw [hheld] at h
    cases h
    exact .untouched
  | some position =>
    rw [hheld, Option.elim_some] at h
    split at h
    · cases h
      exact .untouched
    cases hexit : Portfolio.exitEvent candle.symbol position candle.range with
    | none =>
      rw [hexit] at h
      cases h
      exact .untouched
    | some event =>
      obtain ⟨hevent, -⟩ := Portfolio.exitEvent_level hexit
      rw [hexit, Option.toList_some, List.foldlM_cons, Traced.value?_bind] at h
      obtain ⟨closed, hclosed, hlast⟩ := Option.bind_eq_some_iff.mp h
      cases hlast
      simp only [executeLevel, hevent, hheld, processSignal, Traced.value?_bind,
        Option.bind_eq_some_iff] at hclosed
      obtain ⟨⟨fill, after⟩, ⟨recorded, hrecorded, hordered⟩, hreturned⟩ := hclosed
      cases value?_perform.mp hrecorded
      cases hreturned
      rw [Bool.or_false]
      exact .order ⟨.level index, run.closeSignal engine candle.symbol event.referencePrice
        position.quantity candle.openTime event.reason, _, candle.openTime, _⟩ rfl rfl rfl
        (BacktestEngine.createAndExecuteOrder_outcome (value?_perform.mp hordered))

theorem closesWith (hstrategy : run.strategy = .base strategy.base) {closedByLevel : Bool}
    (hidle : state.pendingSignals = []) {after : BacktestState σ}
    (h : (run.afterLevels index candle (closedByLevel, state)).value? = some after) :
    run.ClosesWith strategy index candle state closedByLevel after := by
  unfold afterLevels at h
  rw [Traced.value?_bind] at h
  obtain ⟨marked, hmarked, hrest⟩ := Option.bind_eq_some_iff.mp h
  obtain rfl : (none, state.engine.markedAt candle) = marked :=
    Except.ok.inj (value?_perform.mp hmarked)
  rw [Traced.value?_bind] at hrest
  obtain ⟨queued, hqueued, htracked⟩ := Option.bind_eq_some_iff.mp hrest
  have hdrawn : queued.engine.SameBooks after.engine ∧ after.strategyState = queued.strategyState ∧
      after.pendingSignals = queued.pendingSignals := by
    unfold trackDrawdown at htracked
    dsimp only at htracked
    split at htracked
    · cases htracked
    · rw [Traced.value?_bind] at htracked
      obtain ⟨drawn, hdrawn, hreturned⟩ := Option.bind_eq_some_iff.mp htracked
      cases value?_perform.mp hdrawn
      cases hreturned
      exact ⟨⟨rfl, rfl, rfl, rfl⟩, rfl, rfl⟩
  obtain ⟨hbooks, hstate, hpending⟩ := hdrawn
  unfold queueSignals at hqueued
  rw [Traced.value?_bind] at hqueued
  obtain ⟨indicators, hindicators, hrest⟩ := Option.bind_eq_some_iff.mp hqueued
  rw [Traced.value?_bind] at hrest
  obtain ⟨called, hcalled, hsignals⟩ := Option.bind_eq_some_iff.mp hrest
  cases closedByLevel with
  | true =>
    cases value?_lift.mp hcalled
    cases hsignals
    exact .byLevel hbooks hstate (hpending.trans hidle)
  | false =>
    have hanswer := value?_lift.mp hcalled
    simp only [Bool.false_eq_true, if_false, strategySignals_eq hstrategy] at hanswer
    obtain ⟨⟨strategyState, signal⟩, hanswered, rfl⟩ := map_eq_ok_iff.mp hanswer
    cases signal with
    | none =>
      cases hsignals
      refine .byCall none hbooks (value?_lift.mp hindicators) ?_ (hpending.trans hidle)
      rwa [hstate]
    | some signal =>
      change ([RawSignal.signal signal].foldlM _ _ : Backtest (BacktestState σ)).value? = _ at hsignals
      rw [List.foldlM_cons, Traced.value?_bind] at hsignals
      obtain ⟨recorded, hrecorded, hlast⟩ := Option.bind_eq_some_iff.mp hsignals
      cases hlast
      unfold queueSignal at hrecorded
      rw [Traced.value?_bind] at hrecorded
      obtain ⟨normalized, hnormalized, hrest⟩ := Option.bind_eq_some_iff.mp hrecorded
      cases value?_lift.mp hnormalized
      rw [Traced.value?_bind] at hrest
      obtain ⟨signaled, hsignaled, hreturned⟩ := Option.bind_eq_some_iff.mp hrest
      cases value?_perform.mp hsignaled
      cases hreturned
      refine .byCall (some signal) ⟨hbooks.orders, hbooks.fills, hbooks.positions,
        hbooks.closed⟩ (value?_lift.mp hindicators) ?_ ?_
      · rwa [hstate]
      · rw [hpending, hidle]
        rfl

/-- A turn after which nothing or one signal is pending, if so it was before. -/
theorem exists_turnWith_of_pending (hstrategy : run.strategy = .base strategy.base)
    (hcandle : run.candles[index]? = some candle) {before after : BacktestState σ}
    {pending : Option Signal}
    (hbefore : (run.turns index (run.start engine)).value? = some before)
    (hpending : before.pendingSignals = pending.toList)
    (hafter : (run.turns (index + 1) (run.start engine)).value? = some after) :
    ∃ opened levels, run.TurnWith strategy engine index candle before opened levels after := by
  have hparts := hafter
  rw [turns_succ_levels hcandle, Traced.value?_bind] at hparts
  obtain ⟨levels, hlevels, hcloses⟩ := Option.bind_eq_some_iff.mp hparts
  have hthrough := hlevels
  simp only [throughLevels, throughOpen, hcandle, Traced.value?_bind, hbefore, Option.bind_some,
    Option.bind_eq_some_iff] at hlevels
  obtain ⟨opened, hopened, ⟨closedByLevel, left⟩, hclosed, hreturned⟩ := hlevels
  cases hreturned
  have hopens := opensWith hstrategy hpending hopened
  have hidle : opened.pendingSignals = [] := by
    cases hopens with
    | idle hnone => exact hnone
    | order _ _ _ => rfl
  have hleft : ({ opened with engine := left } : BacktestState σ).pendingSignals = [] := hidle
  exact ⟨opened, (closedByLevel, left), hcandle, hbefore, hopens, levelsWith hclosed, hthrough,
    closesWith hstrategy hleft hcloses, hafter⟩

theorem ClosesWith.exists_pending {closedByLevel : Bool} {after : BacktestState σ}
    (h : run.ClosesWith strategy index candle state closedByLevel after) :
    ∃ pending : Option Signal, after.pendingSignals = pending.toList := by
  cases h with
  | byLevel _ _ pending => exact ⟨none, pending⟩
  | byCall signal _ _ _ pending => exact ⟨signal, pending⟩

/-- At most one signal is pending after a turn. -/
theorem exists_pending (hstrategy : run.strategy = .base strategy.base) {count : ℕ}
    (hcount : count ≤ run.candles.length)
    (h : (run.turns count (run.start engine)).value? = some state) :
    ∃ pending : Option Signal, state.pendingSignals = pending.toList := by
  induction count generalizing state with
  | zero =>
    cases h
    exact ⟨none, rfl⟩
  | succ count ih =>
    have hcandle : run.candles[count]? = some run.candles[count] :=
      List.getElem?_eq_getElem hcount
    have hparts := h
    rw [run.turns_succ hcandle, Traced.value?_bind] at hparts
    obtain ⟨before, hbefore, -⟩ := Option.bind_eq_some_iff.mp hparts
    obtain ⟨pending, hpending⟩ := ih (Nat.le_of_succ_le hcount) hbefore
    obtain ⟨opened, levels, hturn⟩ :=
      exists_turnWith_of_pending hstrategy hcandle hbefore hpending h
    exact hturn.closes.exists_pending

theorem exists_turnWith (hstrategy : run.strategy = .base strategy.base)
    (hcandle : run.candles[index]? = some candle) {after : BacktestState σ}
    (h : (run.turns (index + 1) (run.start engine)).value? = some after) :
    ∃ before opened levels, run.TurnWith strategy engine index candle before opened levels after := by
  have hparts := h
  rw [run.turns_succ hcandle, Traced.value?_bind] at hparts
  obtain ⟨before, hbefore, -⟩ := Option.bind_eq_some_iff.mp hparts
  have hlt : index < run.candles.length := (List.getElem?_eq_some_iff.mp hcandle).1
  obtain ⟨pending, hpending⟩ := exists_pending hstrategy hlt.le hbefore
  exact ⟨before, exists_turnWith_of_pending hstrategy hcandle hbefore hpending h⟩

/-- What the start has and every turn keeps, every run that comes so far has. -/
theorem turns_invariant (hstrategy : run.strategy = .base strategy.base)
    {P : ℕ → BacktestState σ → Prop} (start : P 0 (run.start engine))
    (next : ∀ {index candle before opened levels after},
      run.TurnWith strategy engine index candle before opened levels after → P index before →
        P (index + 1) after) {count : ℕ} (hcount : count ≤ run.candles.length)
    (h : (run.turns count (run.start engine)).value? = some state) : P count state := by
  induction count generalizing state with
  | zero =>
    cases h
    exact start
  | succ count ih =>
    obtain ⟨before, opened, levels, hturn⟩ :=
      exists_turnWith hstrategy (List.getElem?_eq_getElem hcount) h
    exact next hturn (ih (Nat.le_of_succ_le hcount) hturn.starts)

end Parts

end BacktestRun

end CryptoTrading
