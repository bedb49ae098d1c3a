import CryptoTrading.Backtest.EngineEvents

/-! A backtest looks at no candle before its time: what has been decided when the pending signals are
executed at the open of candle `n` depends on the candles before it and on its open alone. -/

namespace CryptoTrading

open Kit

/-! ### The clock -/

/-- The readings of two clocks are the same to the engine: the risk engine compares them to the time
of the last data, if it was told of any. -/
def BacktestEngine.SameTime (clock clock' : ℕ → Datetime) (engine : BacktestEngine) : Prop :=
  clock = clock' ∨ engine.riskEngine.lastDataTime = none

theorem RiskEngine.checkTrade_now {riskEngine : RiskEngine} (h : riskEngine.lastDataTime = none)
    (args : TradeArguments) (now : Datetime) :
    riskEngine.checkTrade { args with now } = riskEngine.checkTrade args := by
  have hage : ∀ now, riskEngine.dataAge now = none := fun now => by rw [RiskEngine.dataAge, h]; rfl
  have hgates : riskEngine.gates { args with now } = riskEngine.gates args := by
    simp only [RiskEngine.gates, hage]
    rfl
  have hrejections : riskEngine.rejections { args with now } = riskEngine.rejections args := by
    simp only [RiskEngine.rejections, hgates]
    rfl
  simp only [RiskEngine.checkTrade, hrejections]
  rfl

namespace BacktestEngine.SameTime

variable {clock clock' : ℕ → Datetime} {engine after : BacktestEngine}

theorem quote (h : engine.SameTime clock clock') (order : Order) (averageVolume : Option Decimal) :
    engine.quote clock order averageVolume = engine.quote clock' order averageVolume := by
  rcases h with rfl | hnone
  · rfl
  have hcheck : ∀ executionPrice now now', engine.checkRisk order executionPrice now =
      engine.checkRisk order executionPrice now' := fun executionPrice now now' =>
    RiskEngine.checkTrade_now hnone (engine.riskArguments order executionPrice now') now
  unfold BacktestEngine.quote
  split
  · rfl
  · rename_i executionPrice _
    rw [hcheck executionPrice (clock engine.checks) (clock' engine.checks)]

theorem assess (h : engine.SameTime clock clock') (order : Order)
    (averageVolume : Option Decimal) :
    engine.assess clock order averageVolume = engine.assess clock' order averageVolume := by
  unfold BacktestEngine.assess
  rw [h.quote]
  cases hquote : engine.quote clock' order averageVolume with
  | error e => rfl
  | ok quoted =>
    obtain ⟨-, -, -, hafter⟩ := quote_cases hquote
    have hquoted : quoted.2.SameTime clock clock' := by
      rw [hafter]
      exact h
    cases hretry : quoted.1.retry with
    | none => simp only [hretry]
    | some quantity => simp only [hretry, hquoted.quote]

theorem apply (h : engine.SameTime clock clock') (event : EngineEvent) :
    engine.apply clock event = engine.apply clock' event := by
  cases event with
  | signal index signal => rfl
  | mark symbol close high timestamp => rfl
  | drawdown drawdown => rfl
  | order call =>
    have hassess : ∀ order : Order, (engine.ordered order).assess clock order call.averageVolume =
        (engine.ordered order).assess clock' order call.averageVolume := fun order =>
      SameTime.assess (show (engine.ordered order).SameTime clock clock' from h) order _
    simp only [BacktestEngine.apply, createAndExecuteOrder, executeOrder, hassess]

theorem step {event : EngineEvent} (h : engine.SameTime clock clock')
    (hstep : EngineStep clock engine event after) : after.SameTime clock clock' := by
  refine h.imp_right fun hnone => ?_
  obtain ⟨fill, happly⟩ := hstep
  cases event with
  | signal index signal => cases happly; exact hnone
  | mark symbol close high timestamp => cases happly; exact hnone
  | drawdown drawdown => cases happly; exact hnone
  | order call =>
    have hassessed : ∀ {order quote assessed},
        BacktestEngine.Assessed engine clock call order quote assessed →
          assessed.riskEngine.lastDataTime = none := fun hassessed => by
      rw [hassessed.frame]
      exact hnone
    cases BacktestEngine.createAndExecuteOrder_outcome happly with
    | noPosition _ _ => exact hnone
    | rejected h _ => have hsame := hassessed h; exact hsame
    | refused h _ _ _ => have hsame := hassessed h; exact hsame
    | bought h _ _ _ => have hsame := hassessed h; exact hsame
    | sold h _ _ _ => have hsame := hassessed h; exact hsame

end BacktestEngine.SameTime

/-! ### Two runs -/

namespace BacktestRun

open Traced

variable {σ ι : Type}

/-- Two runs of one strategy that are given the same until the open of candle `count`: the candles
before it, their indicators, and the symbol, the time and the open of the candle itself. -/
structure SameUntil (count : ℕ) (first second : BacktestRun σ ι) : Prop where
  strategy : first.strategy = second.strategy
  initialState : first.initialState = second.initialState
  runId : first.runId = second.runId
  completed : first.candles.take count = second.candles.take count
  indicators : ∀ index candle, index < count → first.candles[index]? = some candle →
    first.indicators index candle = second.indicators index candle
  opening : ∃ candle candle', first.candles[count]? = some candle ∧
    second.candles[count]? = some candle' ∧ candle.symbol = candle'.symbol ∧
    candle.openTime = candle'.openTime ∧ candle.openPrice = candle'.openPrice

/-- The run up to the execution of the signals that are pending at the open of candle `count`. -/
def throughOpen (run : BacktestRun σ ι) (count : ℕ) (engine : BacktestEngine) :
    Backtest (BacktestState σ) := do
  let state ← run.turns count (run.start engine)
  match run.candles[count]? with
  | none => pure state
  | some candle => run.executePending count candle state

section Comparison

variable {count index : ℕ} {first second : BacktestRun σ ι} {candle candle' : BacktestCandle ι}
  {engine : BacktestEngine} {state : BacktestState σ}

theorem SameUntil.completed_le (h : SameUntil count first second) (hindex : index ≤ count) :
    first.candles.take index = second.candles.take index := by
  have htake := congrArg (List.take index) h.completed
  rwa [List.take_take, List.take_take, Nat.min_eq_left hindex] at htake

theorem same_perform (h : engine.SameTime first.clock second.clock) (event : EngineEvent) :
    Same (fun outcome => outcome.2.SameTime first.clock second.clock)
      (engine.perform first.clock event) (engine.perform second.clock event) := by
  constructor
  · simp only [BacktestEngine.perform, h.apply event]
  · intro outcome trace hreturns
    exact h.step ⟨outcome.1, (returns_perform_iff.mp hreturns).1⟩

theorem same_executePending (h : SameUntil count first second) (hindex : index ≤ count)
    (hopen : candle.openPrice = candle'.openPrice) (htime : candle.openTime = candle'.openTime)
    (hstate : state.engine.SameTime first.clock second.clock) :
    Same (fun state => state.engine.SameTime first.clock second.clock)
      (first.executePending index candle state) (second.executePending index candle' state) := by
  refine same_foldlM hstate fun state signal _ hstate => ?_
  simp only [executePendingSignal, hopen, htime, h.completed_le hindex]
  refine (same_perform hstate _).bind fun outcome houtcome => ?_
  have hnotify : ∀ state : BacktestState σ, first.notifyFill state signal outcome.1 =
      second.notifyFill state signal outcome.1 := by
    intro state
    cases outcome.1 with
    | none => rfl
    | some fill => simp only [notifyFill, h.strategy]
  rw [hnotify]
  exact same_lift_bind fun _ => same_pure houtcome

theorem same_executeLevels (h : SameUntil count first second) (hindex : index ≤ count)
    (hengine : engine.SameTime first.clock second.clock) :
    Same (fun closed => closed.2.SameTime first.clock second.clock)
      (first.executeLevels index candle engine) (second.executeLevels index candle engine) := by
  refine same_foldlM hengine fun closed event _ hclosed => ?_
  unfold executeLevel
  split
  · exact same_pure hclosed
  · rename_i position _
    have hsignal : first.closeSignal = second.closeSignal := by
      funext engine symbol price quantity timestamp reason
      simp only [closeSignal, h.runId]
    simp only [hsignal, h.completed_le hindex]
    refine Same.bind ?_ fun outcome houtcome => same_pure houtcome
    exact (same_perform hclosed _).bind fun recorded hrecorded => same_perform hrecorded _

theorem same_queueSignals (h : SameUntil count first second) (hindex : index < count)
    (hcandle : first.candles[index]? = some candle) (closedByLevel : Bool)
    (hstate : state.engine.SameTime first.clock second.clock) :
    Same (fun state => state.engine.SameTime first.clock second.clock)
      (first.queueSignals index candle closedByLevel state)
      (second.queueSignals index candle closedByLevel state) := by
  have hsignals : ∀ indicators portfolio state,
      first.strategySignals candle indicators portfolio state =
        second.strategySignals candle indicators portfolio state := by
    intro indicators portfolio state
    simp only [strategySignals, h.strategy]
  simp only [queueSignals, h.indicators index candle hindex hcandle, hsignals]
  refine same_lift_bind fun indicators => same_lift_bind fun called => ?_
  refine same_foldlM hstate fun state raw _ hstate => ?_
  simp only [queueSignal, h.runId]
  refine same_lift_bind fun signal => ?_
  exact (same_perform hstate _).bind fun outcome houtcome => same_pure houtcome

theorem same_trackDrawdown (hstate : state.engine.SameTime first.clock second.clock) :
    Same (fun state => state.engine.SameTime first.clock second.clock)
      (first.trackDrawdown state) (second.trackDrawdown state) := by
  unfold trackDrawdown
  simp only
  split
  · exact same_raised _
  · exact (same_perform hstate _).bind fun outcome houtcome => same_pure houtcome

theorem same_turn (h : SameUntil count first second) (hindex : index < count)
    (hcandle : first.candles[index]? = some candle)
    (hstate : state.engine.SameTime first.clock second.clock) :
    Same (fun state => state.engine.SameTime first.clock second.clock)
      (first.turn state (candle, index)) (second.turn state (candle, index)) := by
  refine (same_executePending h hindex.le rfl rfl hstate).bind fun opened hopened => ?_
  refine (same_executeLevels h hindex.le hopened).bind fun closed hclosed => ?_
  refine (same_perform hclosed _).bind fun marked hmarked => ?_
  refine (same_queueSignals h hindex hcandle closed.1 hmarked).bind fun queued hqueued => ?_
  exact same_trackDrawdown hqueued

theorem SameUntil.candle_before (h : SameUntil count first second) (hindex : index < count) :
    ∃ candle, first.candles[index]? = some candle ∧ second.candles[index]? = some candle := by
  obtain ⟨opening, -, hopening, -⟩ := h.opening
  have hlength : count < first.candles.length := (List.getElem?_eq_some_iff.mp hopening).1
  have hcandle := List.getElem?_eq_getElem (hindex.trans hlength)
  refine ⟨_, hcandle, ?_⟩
  calc second.candles[index]?
      = (second.candles.take count)[index]? := (List.getElem?_take_of_lt hindex).symm
    _ = (first.candles.take count)[index]? := by rw [h.completed]
    _ = first.candles[index]? := List.getElem?_take_of_lt hindex
    _ = some first.candles[index] := hcandle

theorem same_turns (state : BacktestState σ) (h : SameUntil count first second) (hindex : index ≤ count)
    (hstate : state.engine.SameTime first.clock second.clock) :
    Same (fun state => state.engine.SameTime first.clock second.clock)
      (first.turns index state) (second.turns index state) := by
  induction index with
  | zero => exact same_pure hstate
  | succ index ih =>
    obtain ⟨candle, hfirst, hsecond⟩ := h.candle_before hindex
    rw [turns_succ _ hfirst, turns_succ _ hsecond]
    exact (ih (Nat.le_of_succ_le hindex)).bind fun turned hturned =>
      same_turn h hindex hfirst hturned

theorem same_throughOpen (engine : BacktestEngine) (h : SameUntil count first second)
    (hengine : engine.SameTime first.clock second.clock) :
    first.throughOpen count engine = second.throughOpen count engine := by
  obtain ⟨candle, candle', hfirst, hsecond, -, htime, hopen⟩ := h.opening
  have hstart : first.start engine = second.start engine := by
    simp only [start, h.initialState]
  simp only [throughOpen, hfirst, hsecond, hstart]
  have hsame := (same_turns (second.start engine) h le_rfl hengine).bind
    fun state hstate => same_executePending h le_rfl hopen htime hstate
  exact hsame.1

/-- A run goes on from the open of a candle. -/
theorem execute_eq (hcandle : first.candles[count]? = some candle) (engine : BacktestEngine) :
    first.execute engine = first.throughOpen count engine >>= fun state =>
      first.afterOpen count candle state >>= fun state =>
        (first.candles.zipIdx.drop (count + 1)).foldlM first.turn state >>= fun state =>
          first.liquidate state.engine := by
  have hitem : first.candles.zipIdx[count]? = some (candle, count) := by
    simp [List.getElem?_zipIdx, hcandle]
  have hsplit : first.candles.zipIdx.take first.candles.length =
      first.candles.zipIdx.take count ++ (candle, count) ::
        first.candles.zipIdx.drop (count + 1) := by
    obtain ⟨hlt, hget⟩ := List.getElem?_eq_some_iff.mp hitem
    rw [List.take_of_length_le (by simp), ← hget, List.getElem_cons_drop, List.take_append_drop]
  simp only [execute, throughOpen, turns, hsplit, hcandle, List.foldlM_append, List.foldlM_cons,
    bind_assoc, turn]

/-- What follows the open of a candle only adds to the logs. -/
theorem extends_throughOpen {result : BacktestResult} {trace : List EngineEvent}
    (hcandle : first.candles[count]? = some candle)
    (h : (first.result engine).Returns result trace) :
    ∃ state events, (first.throughOpen count engine).Returns state events ∧ events <+: trace ∧
      ∃ ended, state.engine.Extends ended ∧ result = ended.calculateResults := by
  obtain ⟨ended, events, rest, hexecute, hpure, rfl⟩ := returns_bind_iff.mp h
  obtain ⟨rfl, rfl⟩ := returns_pure_iff.mp hpure
  rw [execute_eq hcandle] at hexecute
  obtain ⟨state, events, later, hopen, hlater, rfl⟩ := returns_bind_iff.mp hexecute
  have hfollows : Follows (EngineStep first.clock) state.engine (Leaves id)
      (first.afterOpen count candle state >>= fun state =>
        (first.candles.zipIdx.drop (count + 1)).foldlM first.turn state >>= fun state =>
          first.liquidate state.engine) := by
    refine (first.follows_afterOpen count candle state).bind ?_
    rintro turned _ rfl
    refine (first.follows_loop _ turned).bind ?_
    rintro looped _ rfl
    exact first.follows_liquidate looped.engine
  exact ⟨state, events, hopen, ⟨later, by simp⟩, ended,
    .run (leads_of_follows hfollows hlater), rfl⟩

end Comparison

/-- Two runs that are given the same until the open of candle `count` do the same until the signals
that are pending there are executed: they raise the same, or leave the same trace and the same
state.  The logs of a run that goes on from there begin with those of this state. -/
theorem causality {first second : BacktestRun σ ι} {count : ℕ} (h : SameUntil count first second)
    (config : BacktestConfig) (riskEngine : RiskEngine) (draws : ℕ → Decimal)
    (hclock : first.clock = second.clock ∨ riskEngine.lastDataTime = none) :
    first.throughOpen count (.new config riskEngine draws) =
        second.throughOpen count (.new config riskEngine draws) ∧
      ∀ run ∈ [first, second], ∀ result trace,
        (run.result (.new config riskEngine draws)).Returns result trace →
        ∃ state events,
          (first.throughOpen count (.new config riskEngine draws)).Returns state events ∧
          events <+: trace ∧ state.engine.signals <+: result.signals ∧
          state.engine.riskDecisions <+: result.riskDecisions ∧
          state.engine.orders <+: result.orders ∧ state.engine.fills <+: result.fills := by
  have hsame := same_throughOpen (.new config riskEngine draws) h hclock
  obtain ⟨candle, candle', hfirst, hsecond, -⟩ := h.opening
  refine ⟨hsame, fun run hrun result trace hresult => ?_⟩
  obtain ⟨candle, hcandle⟩ : ∃ candle, run.candles[count]? = some candle := by
    rcases List.mem_pair.mp hrun with rfl | rfl
    · exact ⟨_, hfirst⟩
    · exact ⟨_, hsecond⟩
  obtain ⟨state, events, hopen, hevents, ended, hlogs, rfl⟩ := extends_throughOpen hcandle hresult
  have hboth : first.throughOpen count (.new config riskEngine draws) =
      run.throughOpen count (.new config riskEngine draws) := by
    rcases List.mem_pair.mp hrun with rfl | rfl
    · rfl
    · exact hsame
  exact ⟨state, events, hboth ▸ hopen, hevents, hlogs.signals, hlogs.riskDecisions, hlogs.orders,
    hlogs.fills⟩

/-- A purchase at the open of a candle that rises. -/
def rising : BacktestRun Unit Unit :=
  { candles := [flatCandle "BTCUSDT" 0 100,
      { flatCandle "BTCUSDT" hour 100 with close := 200, high := some 200 }]
    strategy := buyOnce 1, initialState := (), clock := fun _ => 0, runId := "" }

/-- The same purchase, at the open of a candle that falls. -/
def falling : BacktestRun Unit Unit :=
  { rising with
    candles := [flatCandle "BTCUSDT" 0 100,
      { flatCandle "BTCUSDT" hour 100 with close := 50, low := some 50, volume := none }]
    clock := fun check => check }

theorem rising_falling_until : SameUntil 1 rising falling where
  strategy := rfl
  initialState := rfl
  runId := rfl
  completed := rfl
  indicators := fun _ _ _ _ => rfl
  opening := ⟨_, _, rfl, rfl, rfl, rfl, rfl⟩

/-- `causality` for these runs, which buy. -/
theorem rising_falling_same :
    rising.throughOpen 1 (.new {} {} fun _ => 0) = falling.throughOpen 1 (.new {} {} fun _ => 0) ∧
      (rising.throughOpen 1 (.new {} {} fun _ => 0)).value?.any (fun state =>
        decide (state.engine.fills ≠ [])) = true :=
  ⟨(causality rising_falling_until {} {} _ (Or.inr rfl)).1, by decide +kernel⟩

end BacktestRun

end CryptoTrading
