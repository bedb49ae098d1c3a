import CryptoTrading.Backtest.PurchaseLevels
import CryptoTrading.Backtest.RiskAtStop
import CryptoTrading.Strategies.StrategyTurns

/-! The ladder of `TrendDCAStrategy`: the purchases of a position are a base order and then safety orders,
in order.  The level is kept by the strategy, which hears of fills and of nothing else; the positions are
kept by the engine. -/

namespace CryptoTrading

open Kit

/-! ### What the strategy answers -/

/-- The drops of the price that the safety orders wait for. -/
def dcaThresholds : List Decimal := [3 / 100, 5 / 100, 8 / 100]

/-- A signal of a safety order, the first of which has level 0 here and level 1 in its metadata. -/
structure TrendDCAState.OrdersSafety (state : TrendDCAState) (candle : BacktestCandle StrategyIndicators)
    (indicators : StrategyIndicators) (position : PositionState) (level : ℕ) (threshold : Decimal)
    (signal : Signal) : Prop where
  symbol : signal.symbol = candle.symbol
  action : signal.action = "open_long"
  reason : signal.reason = safetyReason level
  metadata : signal.metadata = { dcaLevel := some (level + 1 : ℤ) }
  stored : ((state.dcaLevels.get? candle.symbol).getD 0).toNat = level
  waits : dcaThresholds[level]? = some threshold
  regime : indicators.regime = some trendUp
  drop : threshold ≤ (position.entryPrice - candle.close) / position.entryPrice

/-- The answer of the strategy at the close of a candle, by the position that the portfolio holds. -/
inductive TrendDCAState.Answers (state : TrendDCAState) (strategy : StrategyIdentity)
    (candle : BacktestCandle StrategyIndicators) (indicators : StrategyIndicators)
    (portfolio : Portfolio) : TrendDCAState → Option Signal → Prop
  | flat {signal : Option Signal} (flat : portfolio.getPosition candle.symbol = none)
      (base : ∀ own ∈ signal, own.symbol = candle.symbol ∧ own.action = "open_long" ∧
        own.reason = "Trend DCA base order" ∧ own.metadata = { dcaLevel := some 0 }) :
      Answers state strategy candle indicators portfolio state signal
  | exits {position : Position} {shown : PositionState} {signal : Signal}
      (held : portfolio.getPosition candle.symbol = some position)
      (shows : BacktestRun.positionState portfolio position = .ok shown)
      (exit : (state.shouldExit strategy candle indicators shown).2 = some signal) :
      Answers state strategy candle indicators portfolio
        (state.shouldExit strategy candle indicators shown).1 (some signal)
  | stays {position : Position} {shown : PositionState} {signal : Option Signal}
      (held : portfolio.getPosition candle.symbol = some position)
      (shows : BacktestRun.positionState portfolio position = .ok shown)
      (exit : (state.shouldExit strategy candle indicators shown).2 = none)
      (safety : ∀ own ∈ signal, ∃ level threshold,
        state.OrdersSafety candle indicators shown level threshold own) :
      Answers state strategy candle indicators portfolio
        (state.shouldExit strategy candle indicators shown).1 signal

section Answers

variable {state after : TrendDCAState} {strategy : StrategyIdentity}
  {candle : BacktestCandle StrategyIndicators} {indicators : StrategyIndicators}
  {portfolio : Portfolio} {shown : PositionState} {signal : Option Signal}

theorem BacktestRun.positionState_ok {position : Position}
    (h : positionState portfolio position = .ok shown) :
    shown.entryPrice = position.entryPrice ∧ shown.holdingPeriods = position.holdingPeriods := by
  unfold positionState at h
  repeat' split at h
  all_goals cases h
  all_goals exact ⟨rfl, rfl⟩

theorem TrendDCAState.dcaLevels_shouldExit :
    (state.shouldExit strategy candle indicators shown).1.dcaLevels = state.dcaLevels := by
  unfold shouldExit
  repeat' split
  · rfl
  · rfl
  · unfold exitAtProfit
    split <;> rfl

theorem TrendDCAState.shouldEnter_base {entry : EntryState}
    (h : state.shouldEnter strategy candle indicators entry = .ok (after, signal)) :
    after = state ∧ ∀ own ∈ signal, own.symbol = candle.symbol ∧ own.action = "open_long" ∧
      own.reason = "Trend DCA base order" ∧ own.metadata = { dcaLevel := some 0 } := by
  unfold shouldEnter at h
  repeat' split at h
  all_goals first
    | cases h
      exact ⟨rfl, fun own hown => by cases hown⟩
    | skip
  obtain ⟨bought, hbought, hreturned⟩ := bind_eq_ok_iff.mp h
  cases hreturned
  refine ⟨rfl, ?_⟩
  rintro own ⟨⟩
  exact StrategyIdentity.openSignal_ok hbought

theorem TrendDCAState.shouldAddDca_safety
    (h : state.shouldAddDca strategy candle indicators shown = .ok (after, signal)) :
    after = state ∧ ∀ own ∈ signal, ∃ level threshold,
      state.OrdersSafety candle indicators shown level threshold own := by
  unfold shouldAddDca at h
  split at h
  · cases h
    exact ⟨rfl, fun own hown => by cases hown⟩
  rename_i hregime
  dsimp only at h
  split at h
  · cases h
    exact ⟨rfl, fun own hown => by cases hown⟩
  rename_i threshold share hlevel
  split at h
  · cases h
  split at h
  · rename_i hdrop
    obtain ⟨bought, hbought, hreturned⟩ := bind_eq_ok_iff.mp h
    cases hreturned
    refine ⟨rfl, ?_⟩
    rintro own ⟨⟩
    obtain ⟨hsymbol, haction, hreason, hmetadata⟩ := StrategyIdentity.openSignal_ok hbought
    have hthreshold : dcaThresholds[((state.dcaLevels.get? candle.symbol).getD 0).toNat]? =
        some threshold := by
      have hfirst : dcaThresholds = (safetyOrders strategy.config).map Prod.fst := rfl
      rw [hfirst, List.getElem?_map, hlevel]
      rfl
    exact ⟨_, threshold, hsymbol, haction, hreason, hmetadata, rfl, hthreshold, not_not.mp hregime,
      hdrop⟩
  · cases h
    exact ⟨rfl, fun own hown => by cases hown⟩

theorem TrendDCAState.OrdersSafety.same {level : ℕ} {threshold : Decimal} {own : Signal}
    (h : after.OrdersSafety candle indicators shown level threshold own)
    (hsame : after.dcaLevels = state.dcaLevels) :
    state.OrdersSafety candle indicators shown level threshold own :=
  { h with stored := hsame ▸ h.stored }

theorem TrendDCAState.answers
    (h : BacktestRun.answer (trendDCAStrategy strategy) candle indicators portfolio state =
      .ok (after, signal)) :
    state.Answers strategy candle indicators portfolio after signal := by
  unfold BacktestRun.answer at h
  split at h
  · rename_i hflat
    obtain ⟨rfl, hbase⟩ := shouldEnter_base h
    exact .flat hflat hbase
  · rename_i position hheld
    obtain ⟨shown, hshown, hmanaged⟩ := bind_eq_ok_iff.mp h
    unfold SignalStrategy.manage at hmanaged
    obtain ⟨⟨left, exit⟩, hexit, hrest⟩ := bind_eq_ok_iff.mp hmanaged
    obtain rfl : (state.shouldExit strategy candle indicators shown).1 = left :=
      congrArg Prod.fst (Except.ok.inj hexit)
    obtain hanswer : (state.shouldExit strategy candle indicators shown).2 = exit :=
      congrArg Prod.snd (Except.ok.inj hexit)
    cases exit with
    | some own =>
      cases hrest
      exact .exits hheld hshown hanswer
    | none =>
      obtain ⟨rfl, hsafety⟩ := shouldAddDca_safety hrest
      refine .stays hheld hshown hanswer fun own hown => ?_
      obtain ⟨level, threshold, hordered⟩ := hsafety own hown
      exact ⟨level, threshold, hordered.same dcaLevels_shouldExit⟩

theorem TrendDCAState.Answers.dcaLevels
    (h : state.Answers strategy candle indicators portfolio after signal) :
    after.dcaLevels = state.dcaLevels := by
  cases h with
  | flat _ _ => rfl
  | exits _ _ _ => exact dcaLevels_shouldExit
  | stays _ _ _ _ => exact dcaLevels_shouldExit

end Answers

/-! ### The ladder -/

/-- The base order, and the safety orders up to a level. -/
def rungs (level : ℕ) : List (Option ℤ) := (List.range (level + 1)).map fun rung : ℕ => some (rung : ℤ)

/-- A base order and then safety orders 1, 2, ... in order, three at most. -/
def ClimbsLadder (levels : List (Option ℤ)) : Prop := ∃ level ≤ 3, levels = rungs level

theorem rungs_succ (level : ℕ) : rungs (level + 1) = rungs level ++ [some (level + 1 : ℤ)] := by
  rw [rungs, List.range_succ, List.map_append, rungs]
  rfl

/-- The purchases of each position climb the ladder, and the strategy knows how far those of the position
in `symbol` have come.  There is no other position. -/
structure OnLadder (portfolio : Portfolio) (levels : PurchaseLevels) (symbol : String)
    (dcaLevels : Dict String ℤ) : Prop where
  own : ∀ other, (portfolio.getPosition other).isSome = true → other = symbol
  ended : ∀ position ∈ levels.ended, ClimbsLadder position
  flat : (portfolio.getPosition symbol).isSome = false → levels.current = []
  held : (portfolio.getPosition symbol).isSome = true → ∃ level ≤ 3,
    levels.current = rungs level ∧ dcaLevels.get? symbol = some (level : ℤ)

/-- A signal to sell the position. -/
structure SellsPosition (symbol : String) (signal : Signal) : Prop where
  own : signal.symbol = symbol
  action : signal.action = "close"
  plain : signal.metadata = {}

/-- A signal to buy the next rung of the ladder. -/
structure BuysRung (symbol : String) (current : List (Option ℤ)) (signal : Signal) (level : ℕ) :
    Prop where
  own : signal.symbol = symbol
  action : signal.action = "open_long"
  metadata : signal.metadata = { dcaLevel := some (level : ℤ) }
  bound : level ≤ 3
  next : current ++ [some (level : ℤ)] = rungs level

section Sides

variable {symbol : String} {signal : Signal} {side : OrderSide}

theorem SellsPosition.side_eq (h : SellsPosition symbol signal)
    (hside : (SignalAction.ofValue? signal.action).map SignalAction.side = some side) :
    side = .sell := by
  rw [h.action] at hside
  exact (Option.some.inj hside).symm

theorem BuysRung.side_eq {current : List (Option ℤ)} {level : ℕ}
    (h : BuysRung symbol current signal level)
    (hside : (SignalAction.ofValue? signal.action).map SignalAction.side = some side) :
    side = .buy := by
  rw [h.action] at hside
  exact (Option.some.inj hside).symm

end Sides

section Ladder

variable {engine after : BacktestEngine} {clock : ℕ → Datetime} {call : OrderCall}
  {fill : Option Fill} {symbol : String} {dcaLevels : Dict String ℤ} {state : TrendDCAState}

theorem OnLadder.same {portfolio portfolio' : Portfolio} {levels : PurchaseLevels}
    (h : OnLadder portfolio levels symbol dcaLevels)
    (hheld : ∀ other, (portfolio'.getPosition other).isSome = (portfolio.getPosition other).isSome) :
    OnLadder portfolio' levels symbol dcaLevels where
  own other := by rw [hheld]; exact h.own other
  ended := h.ended
  flat := by rw [hheld]; exact h.flat
  held := by rw [hheld]; exact h.held

/-- A sale ends the position, if it is filled. -/
theorem OnLadder.sold (h : OnLadder engine.portfolio engine.levels symbol dcaLevels)
    (hlogged : engine.Logged) (hsignal : SellsPosition symbol call.signal)
    (houtcome : BacktestEngine.Outcome engine clock call fill after) :
    OnLadder after.portfolio after.levels symbol dcaLevels := by
  have hlevels := houtcome.levels hlogged
  cases houtcome.moves with
  | unmoved portfolio =>
    rw [Option.elim_none] at hlevels
    rw [portfolio, hlevels]
    exact h
  | @filled _ fill side before held closed =>
    have hside : fill.side = .sell := hsignal.side_eq side
    simp only [hside, hsignal.own, reduceCtorEq, decide_false] at held
    have hgone : (after.portfolio.getPosition symbol).isSome = false := by
      rw [held, Function.update_self]
    obtain ⟨level, hlevel, hcurrent, -⟩ := h.held (hsignal.own ▸ before hside)
    rw [Option.elim_some, hside] at hlevels
    rw [hlevels]
    refine ⟨fun other hother => ?_, ?_, fun _ => rfl, fun hsome => ?_⟩
    · rw [held, Function.update_apply] at hother
      split at hother
      · cases hother
      · exact h.own other hother
    · intro position hposition
      rcases List.mem_append.mp hposition with hposition | hposition
      · exact h.ended position hposition
      · exact ⟨level, hlevel, (List.mem_singleton.mp hposition).trans hcurrent⟩
    · rw [hgone] at hsome
      cases hsome

/-- A purchase is the next rung, if it is filled, and the strategy is told. -/
theorem OnLadder.bought {level : ℕ}
    (h : OnLadder engine.portfolio engine.levels symbol state.dcaLevels) (hlogged : engine.Logged)
    (hsignal : BuysRung symbol engine.levels.current call.signal level)
    (houtcome : BacktestEngine.Outcome engine clock call fill after) :
    OnLadder after.portfolio after.levels symbol
      (fill.elim state fun _ => state.onFill call.signal).dcaLevels := by
  have hlevels := houtcome.levels hlogged
  cases houtcome.moves with
  | unmoved portfolio =>
    rw [Option.elim_none] at hlevels
    rw [portfolio, hlevels]
    exact h
  | @filled _ fill side before held closed =>
    have hside : fill.side = .buy := hsignal.side_eq side
    simp only [hside, hsignal.own, decide_true] at held
    have hown : (after.portfolio.getPosition symbol).isSome = true := by
      rw [held, Function.update_self]
    rw [Option.elim_some, hside, hsignal.metadata] at hlevels
    rw [hlevels, Option.elim_some]
    refine ⟨fun other hother => ?_, h.ended, fun hnone => ?_, fun _ => ?_⟩
    · rw [held, Function.update_apply] at hother
      split at hother
      · assumption
      · exact h.own other hother
    · rw [hown] at hnone
      cases hnone
    · refine ⟨level, hsignal.bound, hsignal.next, ?_⟩
      simp only [TrendDCAState.onFill, hsignal.metadata, hsignal.own, Dict.get?_set, if_true]

end Ladder

/-! ### Runs -/

/-- The signal of the safety order at `level` is emitted at the close of the candle at `index`: the market
goes up, and the close is below the average entry price of the position by the share that the order waits
for. -/
structure BacktestRun.SignalsSafety (run : BacktestRun TrendDCAState StrategyIndicators)
    (engine : BacktestEngine) (index level : ℕ) (signal : Signal)
    (candle : BacktestCandle StrategyIndicators) (indicators : StrategyIndicators)
    (state : BacktestState TrendDCAState) (position : Position) (threshold : Decimal) : Prop where
  evaluates : run.Evaluates engine index candle state position
  provided : run.indicators index candle = .ok indicators
  regime : indicators.regime = some trendUp
  waits : dcaThresholds[level]? = some threshold
  positive : 0 < position.entryPrice
  drop : candle.close ≤ position.entryPrice * (1 - threshold)
  emitted : ∃ after, (run.turns (index + 1) (run.start engine)).value? = some after ∧
    after.pendingSignals = [signal]

/-- If the signal is of a safety order, it is emitted as one at the close of the candle at `index`. -/
def BacktestRun.SignalsDip (run : BacktestRun TrendDCAState StrategyIndicators)
    (engine : BacktestEngine) (index : ℕ) (signal : Signal) : Prop :=
  ∀ level : ℕ, signal.metadata.dcaLevel = some (level + 1 : ℤ) →
    ∃ candle indicators state position threshold,
      run.SignalsSafety engine index level signal candle indicators state position threshold

/-- The positions of a run climb the ladder of `TrendDCAStrategy`: in every state and in the result, with
a level that only a purchase changes, and by safety orders that are signalled in dips. -/
structure BacktestRun.ClimbsLadders (run : BacktestRun TrendDCAState StrategyIndicators)
    (engine : BacktestEngine) (symbol : String) : Prop where
  reached : ∀ count state, count ≤ run.candles.length →
    (run.turns count (run.start engine)).value? = some state →
      OnLadder state.engine.portfolio state.engine.levels symbol state.strategyState.dcaLevels
  result : ∀ result, (run.result engine).value? = some result →
    ∃ dcaLevels, OnLadder result.portfolio (purchaseLevels result.orders result.fills) symbol dcaLevels
  unfilled : ∀ index before after, index < run.candles.length →
    (run.turns index (run.start engine)).value? = some before →
    (run.turns (index + 1) (run.start engine)).value? = some after →
    (∀ fill ∈ after.engine.fills.drop before.engine.fills.length, fill.side ≠ .buy) →
      after.strategyState.dcaLevels = before.strategyState.dcaLevels
  signals : ∀ index after, index < run.candles.length →
    (run.turns (index + 1) (run.start engine)).value? = some after →
    ∀ signal ∈ after.pendingSignals, run.SignalsDip engine index signal
  orders : ∀ result, (run.result engine).value? = some result → ∀ order ∈ result.orders,
    ∃ index, run.SignalsDip engine index order.signal

/-- What the engine keeps of the ladder. -/
structure BacktestRun.KeepsLadder (run : BacktestRun TrendDCAState StrategyIndicators)
    (engine : BacktestEngine) (symbol : String) (reached : BacktestEngine)
    (dcaLevels : Dict String ℤ) : Prop where
  logged : reached.Logged
  holds : reached.portfolio.Holds
  climbs : OnLadder reached.portfolio reached.levels symbol dcaLevels
  orders : ∀ order ∈ reached.orders, ∃ index, run.SignalsDip engine index order.signal

/-- What the states between the turns keep of the ladder. -/
structure BacktestRun.PlansLadder (run : BacktestRun TrendDCAState StrategyIndicators)
    (engine : BacktestEngine) (symbol : String) (count : ℕ) (state : BacktestState TrendDCAState) :
    Prop where
  climbs : OnLadder state.engine.portfolio state.engine.levels symbol state.strategyState.dcaLevels
  orders : ∀ order ∈ state.engine.orders, ∃ index, run.SignalsDip engine index order.signal
  next : ∀ signal ∈ state.pendingSignals, SellsPosition symbol signal ∨
    ∃ level, BuysRung symbol state.engine.levels.current signal level
  signals : ∀ signal ∈ state.pendingSignals, ∃ index, count = index + 1 ∧
    run.SignalsDip engine index signal

namespace BacktestRun

section Turns

variable {run : BacktestRun TrendDCAState StrategyIndicators} {strategy : StrategyIdentity}
  {engine reached after : BacktestEngine} {symbol : String} {index : ℕ} {call : OrderCall}
  {fill : Option Fill} {candle : BacktestCandle StrategyIndicators} {dcaLevels : Dict String ℤ}
  {state opened : BacktestState TrendDCAState}

theorem SignalsDip.of_plain {signal : Signal} (h : signal.metadata = {}) :
    run.SignalsDip engine index signal := by
  intro level hlevel
  rw [h] at hlevel
  cases hlevel

theorem KeepsLadder.sold (h : run.KeepsLadder engine symbol reached dcaLevels)
    (hsignal : SellsPosition symbol call.signal)
    (houtcome : BacktestEngine.Outcome reached run.clock call fill after) :
    run.KeepsLadder engine symbol after dcaLevels where
  logged := houtcome.logged h.logged
  holds := houtcome.holds h.holds
  climbs := h.climbs.sold h.logged hsignal houtcome
  orders order horder := by
    rcases houtcome.orders horder with hold | hnew
    · exact h.orders order hold
    · exact ⟨0, SignalsDip.of_plain (hnew ▸ hsignal.plain)⟩

theorem KeepsLadder.signaled (h : run.KeepsLadder engine symbol reached dcaLevels) (signal : Signal) :
    run.KeepsLadder engine symbol (reached.signaled signal) dcaLevels :=
  ⟨h.logged.same ⟨rfl, rfl, rfl, rfl, rfl, rfl⟩, h.holds, h.climbs, h.orders⟩

/-- The open of a candle executes what the close of the candle before has planned. -/
theorem KeepsLadder.opens (h : run.KeepsLadder engine symbol state.engine state.strategyState.dcaLevels)
    (hplans : run.PlansLadder engine symbol index state)
    (hopens : run.OpensWith (trendDCAStrategy strategy) index candle state opened) :
    run.KeepsLadder engine symbol opened.engine opened.strategyState.dcaLevels := by
  cases hopens with
  | idle _ => exact h
  | @order signal fill after strategyState hpending houtcome hnotified =>
    have hmem : signal ∈ state.pendingSignals := hpending ▸ List.mem_singleton_self signal
    have hstate : strategyState = fill.elim state.strategyState
        fun _ => state.strategyState.onFill signal := by
      cases fill <;> exact (Except.ok.inj hnotified).symm
    rcases hplans.next signal hmem with hsells | ⟨level, hbuys⟩
    · have hsame : strategyState = state.strategyState := by
        have hplain : state.strategyState.onFill signal = state.strategyState := by
          rw [TrendDCAState.onFill, hsells.plain]
        rw [hstate, hplain]
        cases fill <;> rfl
      rw [hsame]
      exact h.sold hsells houtcome
    · rw [hstate]
      refine ⟨houtcome.logged h.logged, houtcome.holds h.holds, h.climbs.bought h.logged hbuys houtcome,
        fun order horder => ?_⟩
      rcases houtcome.orders horder with hold | hnew
      · exact h.orders order hold
      · obtain ⟨earlier, -, hdip⟩ := hplans.signals signal hmem
        exact ⟨earlier, hnew ▸ hdip⟩

theorem KeepsLadder.touches (h : run.KeepsLadder engine candle.symbol reached dcaLevels)
    {levels : Bool × BacktestEngine} (htouches : run.LevelsWith candle reached levels) :
    run.KeepsLadder engine candle.symbol levels.2 dcaLevels := by
  cases htouches with
  | untouched => exact h
  | order call hsymbol haction hplain houtcome =>
    exact (h.signaled call.signal).sold ⟨hsymbol, haction, hplain⟩ houtcome

/-- The signal of a safety order is one of a dip, and buys the next rung. -/
theorem KeepsLadder.safety (h : run.KeepsLadder engine candle.symbol state.engine
    state.strategyState.dcaLevels) {indicators : StrategyIndicators} {position : Position}
    {shown : PositionState} {level : ℕ} {threshold : Decimal} {signal : Signal}
    (hevaluates : run.Evaluates engine index candle state position)
    (hindicators : run.indicators index candle = .ok indicators)
    (hshows : positionState (state.engine.markedAt candle).portfolio position = .ok shown)
    (hsafety : state.strategyState.OrdersSafety candle indicators shown level threshold signal)
    (hemitted : ∃ after, (run.turns (index + 1) (run.start engine)).value? = some after ∧
      after.pendingSignals = [signal]) :
    BuysRung candle.symbol state.engine.levels.current signal (level + 1) ∧
      run.SignalsSafety engine index level signal candle indicators state position threshold := by
  have hpositive : 0 < position.entryPrice :=
    (h.holds.updatePositions _ _ _ _ position hevaluates.held).entryPrice_pos
  have hheld : (state.engine.portfolio.getPosition candle.symbol).isSome = true := by
    rw [← state.engine.isSome_getPosition_markedAt candle]
    exact Option.isSome_of_eq_some hevaluates.held
  obtain ⟨last, -, hcurrent, hstored⟩ := h.climbs.held hheld
  have hlevel : last = level := by
    rw [← hsafety.stored, hstored]
    rfl
  have hbound : level < 3 := (List.getElem?_eq_some_iff.mp hsafety.waits).1
  constructor
  · refine ⟨hsafety.symbol, hsafety.action, hsafety.metadata, hbound, ?_⟩
    rw [hcurrent, hlevel, rungs_succ]
    rfl
  · refine ⟨hevaluates, hindicators, hsafety.regime, hsafety.waits, hpositive, ?_, hemitted⟩
    have hdrop := hsafety.drop
    rw [(positionState_ok hshows).1, le_div_iff₀ hpositive] at hdrop
    linarith

/-- The ladder in the books that are kept at the close of a candle. -/
theorem KeepsLadder.kept {after : BacktestEngine}
    (h : run.KeepsLadder engine candle.symbol state.engine dcaLevels)
    (hsame : (state.engine.markedAt candle).SameBooks after) :
    after.levels = state.engine.levels ∧ OnLadder after.portfolio after.levels candle.symbol dcaLevels ∧
      ∀ order ∈ after.orders, ∃ index, run.SignalsDip engine index order.signal := by
  have hlevels : after.levels = state.engine.levels := by
    rw [BacktestEngine.levels, hsame.orders, hsame.fills]
    rfl
  refine ⟨hlevels, hlevels ▸ h.climbs.same fun other => hsame.isSome_marked other, ?_⟩
  rw [hsame.orders]
  exact h.orders

/-- What the strategy answers at the close of a candle is the next step on the ladder. -/
theorem KeepsLadder.answered {indicators : StrategyIndicators}
    {left : TrendDCAState} {signal : Option Signal} {own : Signal}
    (h : run.KeepsLadder engine candle.symbol state.engine state.strategyState.dcaLevels)
    (hown : run.candles[index]? = some candle)
    (hreaches : (run.throughLevels index engine).value? = some (false, state))
    (hindicators : run.indicators index candle = .ok indicators)
    (hanswers : state.strategyState.Answers strategy candle indicators
      (state.engine.markedAt candle).portfolio left signal)
    (hsignal : own ∈ signal)
    (hemitted : ∃ after, (run.turns (index + 1) (run.start engine)).value? = some after ∧
      after.pendingSignals = [own]) :
    (SellsPosition candle.symbol own ∨
      ∃ level, BuysRung candle.symbol state.engine.levels.current own level) ∧
      run.SignalsDip engine index own := by
  cases hanswers with
  | flat hflat hbase =>
    obtain ⟨hsymbol, haction, -, hmetadata⟩ := hbase own hsignal
    have hnone : (state.engine.portfolio.getPosition candle.symbol).isSome = false := by
      rw [← state.engine.isSome_getPosition_markedAt candle, hflat]
      rfl
    refine ⟨Or.inr ⟨0, hsymbol, haction, hmetadata, Nat.zero_le _, ?_⟩, ?_⟩
    · rw [h.climbs.flat hnone]
      rfl
    · intro level hlevel
      rw [hmetadata, Option.some.injEq] at hlevel
      omega
  | exits hposition hshows hexit =>
    cases hsignal
    obtain ⟨price, reason, rfl⟩ := TrendDCAState.shouldExit_signal hexit
    exact ⟨Or.inl ⟨rfl, rfl, rfl⟩, SignalsDip.of_plain rfl⟩
  | stays hposition hshows hexit hsafety =>
    obtain ⟨level, threshold, hordered⟩ := hsafety own hsignal
    obtain ⟨hbuys, hsignals⟩ :=
      h.safety ⟨hown, hreaches, hposition⟩ hindicators hshows hordered hemitted
    refine ⟨Or.inr ⟨level + 1, hbuys⟩, fun other hother => ?_⟩
    have hsame : other = level := by
      rw [hordered.metadata, Option.some.injEq] at hother
      omega
    subst hsame
    exact ⟨candle, indicators, state, _, threshold, hsignals⟩

/-- The close of a candle plans the next step on the ladder. -/
theorem KeepsLadder.closes {closedByLevel : Bool} {after : BacktestState TrendDCAState}
    (hcloses : run.ClosesWith (trendDCAStrategy strategy) index candle state closedByLevel after)
    (h : run.KeepsLadder engine candle.symbol state.engine state.strategyState.dcaLevels)
    (hown : run.candles[index]? = some candle)
    (hreaches : (run.throughLevels index engine).value? = some (closedByLevel, state))
    (hends : (run.turns (index + 1) (run.start engine)).value? = some after) :
    run.PlansLadder engine candle.symbol (index + 1) after := by
  cases hcloses with
  | byLevel same strategyState pending =>
    obtain ⟨-, hclimbs, horders⟩ := h.kept same
    refine ⟨strategyState.symm ▸ hclimbs, horders, ?_, ?_⟩
    · intro signal hsignal
      rw [pending] at hsignal
      cases hsignal
    · intro signal hsignal
      rw [pending] at hsignal
      cases hsignal
  | @byCall _ indicators signal same provided answered pending =>
    have hanswers := TrendDCAState.answers answered
    obtain ⟨hlevels, hclimbs, horders⟩ := h.kept same
    have hnext : ∀ own ∈ after.pendingSignals, (SellsPosition candle.symbol own ∨
        ∃ level, BuysRung candle.symbol state.engine.levels.current own level) ∧
          run.SignalsDip engine index own := by
      intro own hpending
      rw [pending, Option.mem_toList] at hpending
      refine h.answered hown hreaches provided hanswers hpending ⟨after, hends, ?_⟩
      rw [pending, hpending]
      rfl
    refine ⟨hanswers.dcaLevels ▸ hclimbs, horders, ?_, ?_⟩
    · intro own hpending
      rw [hlevels]
      exact (hnext own hpending).1
    · intro own hpending
      exact ⟨index, rfl, (hnext own hpending).2⟩

theorem ClosesWith.levels_eq {closedByLevel : Bool} {after : BacktestState TrendDCAState}
    (h : run.ClosesWith (trendDCAStrategy strategy) index candle state closedByLevel after) :
    after.strategyState.dcaLevels = state.strategyState.dcaLevels := by
  cases h with
  | byLevel _ strategyState _ => exact congrArg TrendDCAState.dcaLevels strategyState
  | byCall _ _ _ answered _ => exact (TrendDCAState.answers answered).dcaLevels

/-- The level changes at the open of a candle, by a purchase. -/
theorem OpensWith.levels_eq_or_bought (hplans : run.PlansLadder engine symbol index state)
    (h : run.OpensWith (trendDCAStrategy strategy) index candle state opened) :
    opened.strategyState.dcaLevels = state.strategyState.dcaLevels ∨
      ∃ fill : Fill, opened.engine.fills = state.engine.fills ++ [fill] ∧ fill.side = .buy := by
  cases h with
  | idle _ => exact Or.inl rfl
  | @order signal fill after strategyState hpending houtcome hnotified =>
    cases fill with
    | none => exact Or.inl (congrArg TrendDCAState.dcaLevels (Except.ok.inj hnotified).symm)
    | some fill =>
      obtain rfl : state.strategyState.onFill signal = strategyState := Except.ok.inj hnotified
      rcases hplans.next signal (hpending ▸ List.mem_singleton_self signal) with
        hsells | ⟨level, hbuys⟩
      · left
        show (state.strategyState.onFill signal).dcaLevels = _
        rw [TrendDCAState.onFill, hsells.plain]
      · refine Or.inr ⟨fill, houtcome.fills, ?_⟩
        cases houtcome.moves with
        | filled side _ _ _ => exact hbuys.side_eq side

theorem LevelsWith.fills {levels : Bool × BacktestEngine} (h : run.LevelsWith candle reached levels) :
    reached.fills <+: levels.2.fills := by
  cases h with
  | untouched => exact List.prefix_rfl
  | order _ _ _ _ houtcome =>
    rw [houtcome.fills]
    exact List.prefix_append _ _

theorem ClosesWith.fills {closedByLevel : Bool} {after : BacktestState TrendDCAState}
    (h : run.ClosesWith (trendDCAStrategy strategy) index candle state closedByLevel after) :
    after.engine.fills = state.engine.fills := by
  cases h with
  | byLevel same _ _ => exact same.fills
  | byCall _ same _ _ _ => exact same.fills

/-- The liquidation sells what is held. -/
theorem KeepsLadder.liquidates (h : run.KeepsLadder engine symbol reached dcaLevels) :
    Traced.Ensures Engines (fun ended => run.KeepsLadder engine symbol ended dcaLevels)
      (run.liquidate reached) := by
  unfold liquidate
  split
  · refine Traced.ensures_foldlM h fun liquidated entry hentry hkept => ?_
    have hsymbol : entry.1 = symbol := by
      have hheld : reached.portfolio.getPosition entry.1 = some entry.2 :=
        Dict.get?_eq_some_iff.mpr hentry
      exact h.climbs.own entry.1 (Option.isSome_of_eq_some hheld)
    refine Traced.Ensures.bind (M := fun outcome => run.KeepsLadder engine symbol outcome.2 dcaLevels)
      ?_ fun outcome houtcome => Traced.ensures_pure houtcome
    refine Traced.Ensures.bind (ensures_perform _) fun recorded hrecorded => ?_
    cases hrecorded
    refine (ensures_perform _).mono (fun _ herror => herror) ?_
    rintro ⟨fill, after⟩ happly
    simp only [BacktestEngine.apply] at happly
    have houtcome := BacktestEngine.createAndExecuteOrder_outcome happly
    exact (hkept.signaled _).sold ⟨hsymbol, rfl, rfl⟩ houtcome
  · exact Traced.ensures_pure h

theorem keeps_turns (config : BacktestConfig) (riskEngine : RiskEngine) (draws : ℕ → Decimal)
    {count : ℕ} (h : (run.turns count (run.start (.new config riskEngine draws))).value? = some state) :
    state.engine.Logged ∧ state.engine.portfolio.Holds := by
  have hreturns := Traced.returns_of_value? h
  have hrun := leads_of_follows (run.follows_turns count _) hreturns
  refine hrun.invariant (P := fun _ engine => engine.Logged ∧ engine.portfolio.Holds) ?_ ?_
  · exact ⟨BacktestEngine.logged_new config riskEngine draws, fun symbol position hposition => by
      cases hposition⟩
  · rintro passed before event next ⟨hlogged, hholds⟩ hstep
    exact ⟨hlogged.step hstep, hstep.holds hholds⟩

end Turns

end BacktestRun

section Runs

variable {run : BacktestRun TrendDCAState StrategyIndicators} {strategy : StrategyIdentity}
  {symbol : String} {config : BacktestConfig} {riskEngine : RiskEngine} {draws : ℕ → Decimal}

theorem BacktestRun.plansLadder (hstrategy : run.strategy = .base (trendDCAStrategy strategy).base)
    (hsymbol : ∀ candle ∈ run.candles, candle.symbol = symbol) {count : ℕ}
    (hcount : count ≤ run.candles.length) {state : BacktestState TrendDCAState}
    (h : (run.turns count (run.start (.new config riskEngine draws))).value? = some state) :
    run.PlansLadder (.new config riskEngine draws) symbol count state := by
  refine turns_invariant (P := run.PlansLadder (.new config riskEngine draws) symbol) hstrategy ?_ ?_
    hcount h
  · refine ⟨⟨fun other hother => ?_, fun levels hlevels => ?_, fun _ => rfl, fun hsome => ?_⟩,
      fun order horder => ?_, fun signal hsignal => ?_, fun signal hsignal => ?_⟩
    · cases hother
    · cases hlevels
    · cases hsome
    · cases horder
    · cases hsignal
    · cases hsignal
  · intro index candle before opened levels after hturn hplans
    obtain rfl : candle.symbol = symbol := hsymbol candle (List.mem_of_getElem? hturn.own)
    obtain ⟨hlogged, hholds⟩ := keeps_turns config riskEngine draws hturn.starts
    have hkeeps : run.KeepsLadder (.new config riskEngine draws) candle.symbol before.engine
        before.strategyState.dcaLevels := ⟨hlogged, hholds, hplans.climbs, hplans.orders⟩
    have htouched := (hkeeps.opens hplans hturn.opens).touches hturn.touches
    exact KeepsLadder.closes hturn.closes htouched hturn.own hturn.reaches hturn.ends

/-- A turn that fills no purchase leaves the levels that the strategy keeps as they are. -/
theorem BacktestRun.dcaLevels_of_unfilled
    (hstrategy : run.strategy = .base (trendDCAStrategy strategy).base)
    (hsymbol : ∀ candle ∈ run.candles, candle.symbol = symbol) {index : ℕ}
    (hindex : index < run.candles.length) {before after : BacktestState TrendDCAState}
    (hbefore : (run.turns index (run.start (.new config riskEngine draws))).value? = some before)
    (hafter : (run.turns (index + 1) (run.start (.new config riskEngine draws))).value? = some after)
    (hunfilled : ∀ fill ∈ after.engine.fills.drop before.engine.fills.length, fill.side ≠ .buy) :
    after.strategyState.dcaLevels = before.strategyState.dcaLevels := by
  obtain ⟨start, opened, levels, hturn⟩ :=
    exists_turnWith hstrategy (List.getElem?_eq_getElem hindex) hafter
  obtain rfl : start = before := Option.some.inj (hturn.starts.symm.trans hbefore)
  have hplans := plansLadder hstrategy hsymbol hindex.le hturn.starts
  have hclosed := ClosesWith.levels_eq hturn.closes
  rcases OpensWith.levels_eq_or_bought hplans hturn.opens with hopened | ⟨fill, hfills, hside⟩
  · exact hclosed.trans hopened
  · have hprefix : start.engine.fills ++ [fill] <+: after.engine.fills := by
      rw [← hfills, ClosesWith.fills hturn.closes]
      exact hturn.touches.fills
    obtain ⟨rest, hrest⟩ := hprefix
    refine absurd hside (hunfilled fill ?_)
    rw [← hrest, List.append_assoc, List.drop_left]
    exact List.mem_cons_self

/-- The positions of every run of `TrendDCAStrategy` climb the ladder. -/
theorem trend_dca_climbs_ladders (run : BacktestRun TrendDCAState StrategyIndicators)
    (strategy : StrategyIdentity) (symbol : String) (config : BacktestConfig) (riskEngine : RiskEngine)
    (draws : ℕ → Decimal) (hstrategy : run.strategy = .base (trendDCAStrategy strategy).base)
    (hsymbol : ∀ candle ∈ run.candles, candle.symbol = symbol) :
    run.ClimbsLadders (.new config riskEngine draws) symbol := by
  have hended : ∀ result, (run.result (.new config riskEngine draws)).value? = some result →
      ∃ ended dcaLevels, ended.calculateResults = result ∧
        run.KeepsLadder (.new config riskEngine draws) symbol ended dcaLevels := by
    intro result hresult
    simp only [BacktestRun.result, BacktestRun.execute, Traced.value?_bind,
      Option.bind_eq_some_iff] at hresult
    obtain ⟨ended, ⟨last, hlast, hliquidated⟩, hreturned⟩ := hresult
    have hplans := BacktestRun.plansLadder hstrategy hsymbol le_rfl hlast
    obtain ⟨hlogged, hholds⟩ := BacktestRun.keeps_turns config riskEngine draws hlast
    have hkeeps : run.KeepsLadder (.new config riskEngine draws) symbol last.engine
        last.strategyState.dcaLevels := ⟨hlogged, hholds, hplans.climbs, hplans.orders⟩
    exact ⟨ended, _, Option.some.inj hreturned, hkeeps.liquidates.value hliquidated⟩
  refine ⟨fun count state hcount hstate => ?_, fun result hresult => ?_,
    fun index before after hindex hbefore hafter => ?_, fun index after hindex hafter => ?_,
    fun result hresult => ?_⟩
  · exact (BacktestRun.plansLadder hstrategy hsymbol hcount hstate).climbs
  · obtain ⟨ended, dcaLevels, rfl, hkeeps⟩ := hended result hresult
    exact ⟨dcaLevels, hkeeps.climbs⟩
  · exact BacktestRun.dcaLevels_of_unfilled hstrategy hsymbol hindex hbefore hafter
  · intro signal hsignal
    obtain ⟨last, hlast, hdip⟩ :=
      (BacktestRun.plansLadder hstrategy hsymbol hindex hafter).signals signal hsignal
    cases hlast
    exact hdip
  · obtain ⟨ended, dcaLevels, rfl, hkeeps⟩ := hended result hresult
    exact hkeeps.orders

end Runs

/-- A base order and one safety order, and then the liquidation. -/
theorem ladderRun_climbs : ladderRun.ClimbsLadders ladderEngine "BTCUSDT" ∧
    (ladderRun.result ladderEngine).value?.map (fun result =>
      purchaseLevels result.orders result.fills) = some ⟨[[some 0, some 1]], []⟩ :=
  ⟨trend_dca_climbs_ladders ladderRun ladderIdentity "BTCUSDT" {} {} _ rfl (by decide +kernel),
    by decide +kernel⟩

end CryptoTrading
