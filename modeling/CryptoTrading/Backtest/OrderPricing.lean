import CryptoTrading.Backtest.EngineEvents

/-! The prices that the orders of a backtest ask for, when its candles interleave several symbols: a
strategy's signal is executed at the open of the next candle and a liquidation at the last close,
whatever their symbols. -/

namespace CryptoTrading

open Kit

/-- A price that a position may be closed at within a candle. -/
def Position.LevelAt (position : Position) (openPrice price : Decimal) : Prop :=
  position.stopLoss = some price ∨ position.takeProfit = some price ∨ price = openPrice

namespace Portfolio

variable {portfolio : Portfolio} {symbol : String} {range : PriceRange} {event : ExitLevelEvent}

theorem exitEvent_level {position : Position} (h : exitEvent symbol position range = some event) :
    event.symbol = symbol ∧ position.LevelAt range.open_ event.referencePrice := by
  unfold exitEvent at h
  split at h
  · rename_i stop hstop
    split at h
    · cases h
      exact ⟨rfl, Or.inr (Or.inr rfl)⟩
    · cases h
      exact ⟨rfl, Or.inl (Option.filter_eq_some_iff.mp hstop).1⟩
  · obtain ⟨take, htake, rfl⟩ := Option.map_eq_some_iff.mp h
    exact ⟨rfl, Or.inr (Or.inl (Option.filter_eq_some_iff.mp htake).1)⟩

/-- The prices of one symbol close the position in that symbol alone. -/
theorem checkIntrabarExits_single (portfolio : Portfolio) (symbol : String) (range : PriceRange) :
    portfolio.checkIntrabarExits (Dict.empty.set symbol range) =
      (portfolio.getPosition symbol).elim [] fun position =>
        if position.side ≠ "long" then [] else (exitEvent symbol position range).toList := by
  have hother : ∀ entry ∈ portfolio.positions.entries, entry.1 ≠ symbol →
      (Dict.empty.set symbol range).get? entry.1 = none := fun entry _ hne =>
    Dict.get?_set_ne _ _ fun he => hne he.symm
  have hfilter : portfolio.checkIntrabarExits (Dict.empty.set symbol range) =
      (portfolio.positions.entries.filter fun entry => decide (entry.1 = symbol)).filterMap
        fun entry => if entry.2.side ≠ "long" then none else exitEvent symbol entry.2 range := by
    rw [checkIntrabarExits, List.filterMap_filter]
    refine List.filterMap_congr fun entry hmem => ?_
    by_cases hsymbol : entry.1 = symbol
    · subst hsymbol
      simp
    · simp [hother entry hmem hsymbol, hsymbol]
  rw [hfilter, Dict.filter_entries_key, getPosition]
  cases portfolio.positions.get? symbol with
  | none => rfl
  | some position =>
    by_cases hside : position.side = "long"
    · cases hexit : exitEvent symbol position range <;> simp [hside, hexit]
    · simp [hside]

end Portfolio

namespace BacktestRun

open Traced

variable {σ ι : Type}

/-- Where the engine takes the price of an order from. -/
def FromSource (run : BacktestRun σ ι) (passed : List EngineEvent) (engine : BacktestEngine)
    (call : OrderCall) : Prop :=
  match call.origin with
  | .pending index => ∃ signalIndex candle, index = signalIndex + 1 ∧
      .signal signalIndex call.signal ∈ passed ∧ run.candles[index]? = some candle ∧
      call.requestedPrice = candle.openPrice
  | .level index => ∃ candle position, run.candles[index]? = some candle ∧
      candle.symbol = call.signal.symbol ∧
      engine.portfolio.getPosition call.signal.symbol = some position ∧
      position.LevelAt candle.openPrice call.requestedPrice
  | .liquidation => ∃ candle, run.candles.getLast? = some candle ∧
      call.requestedPrice = candle.close

/-- A step of the engine after the events that have passed, whose order has its source. -/
def SourcedStep (run : BacktestRun σ ι) (before : List EngineEvent × BacktestEngine)
    (event : EngineEvent) (after : List EngineEvent × BacktestEngine) : Prop :=
  EngineStep run.clock before.2 event after.2 ∧ after.1 = before.1 ++ [event] ∧
    ∀ call, event = .order call → run.FromSource before.1 before.2 call

/-- The state after `count` candles: the queued signals are those of the last of them. -/
def Queued (count : ℕ) (state : BacktestState σ) (s : List EngineEvent × BacktestEngine) : Prop :=
  s.2 = state.engine ∧ ∀ signal ∈ state.pendingSignals, ∃ index, count = index + 1 ∧
    .signal index signal ∈ s.1

section Sources

variable {run : BacktestRun σ ι} {passed : List EngineEvent} {engine : BacktestEngine}
  {candle : BacktestCandle ι} {index : ℕ} {state : BacktestState σ}

theorem sourced_perform {event : EngineEvent}
    (h : ∀ call, event = .order call → run.FromSource passed engine call) :
    Follows run.SourcedStep (passed, engine)
      (fun outcome s => s = (passed ++ [event], outcome.2)) (engine.perform run.clock event) := by
  intro outcome trace hreturns
  obtain ⟨happly, rfl⟩ := returns_perform_iff.mp hreturns
  exact ⟨_, .single ⟨⟨outcome.1, happly⟩, rfl, h⟩, rfl⟩

theorem sourced_executePending (hcandle : run.candles[index]? = some candle)
    (h : Queued index state (passed, engine)) :
    Follows run.SourcedStep (passed, engine)
      (fun opened s => s.2 = opened.engine ∧ opened.pendingSignals = [])
      (run.executePending index candle state) := by
  refine (follows_foldlM (M := fun opened s => s.2 = opened.engine ∧
    opened.pendingSignals = [] ∧ ∀ signal ∈ state.pendingSignals, ∃ signalIndex,
      index = signalIndex + 1 ∧ .signal signalIndex signal ∈ s.1) ⟨h.1, rfl, h.2⟩ ?_).mono ?_
  · rintro opened ⟨passed, _⟩ signal hsignal ⟨rfl, hnone, hqueued⟩
    refine (sourced_perform ?_).bind ?_
    · rintro call ⟨⟩
      obtain ⟨signalIndex, hindex, hmem⟩ := hqueued signal hsignal
      exact ⟨signalIndex, candle, hindex, hmem, hcandle, rfl⟩
    · rintro outcome _ rfl
      refine follows_lift_bind fun strategyState _ => follows_pure ⟨rfl, hnone, ?_⟩
      intro other hother
      obtain ⟨signalIndex, hindex, hmem⟩ := hqueued other hother
      exact ⟨signalIndex, hindex, List.mem_append_left _ hmem⟩
  · exact fun opened s hopened => ⟨hopened.1, hopened.2.1⟩

theorem sourced_processSignal {origin : OrderOrigin} {signal : Signal} {timestamp : Datetime}
    {averageVolume : Option Decimal}
    (h : run.FromSource (passed ++ [.signal index signal]) (engine.signaled signal)
      ⟨origin, signal, signal.price, timestamp, averageVolume⟩) :
    Follows run.SourcedStep (passed, engine) (fun outcome s => s.2 = outcome.2)
      (run.processSignal engine index origin signal timestamp averageVolume) := by
  intro outcome trace hreturns
  obtain ⟨horder, rfl⟩ := returns_processSignal_iff.mp hreturns
  have hsignal : run.SourcedStep (passed, engine) (.signal index signal)
      (passed ++ [.signal index signal], engine.signaled signal) :=
    ⟨⟨none, rfl⟩, rfl, fun call he => EngineEvent.noConfusion he⟩
  refine ⟨(_, outcome.2), .cons hsignal (.single ⟨⟨outcome.1, horder⟩, rfl, ?_⟩), rfl⟩
  rintro call ⟨⟩
  exact h

/-- The level that is touched is one of the position's, in the candle's symbol. -/
theorem sourced_executeLevels (hcandle : run.candles[index]? = some candle) :
    Follows run.SourcedStep (passed, engine) (fun closed s => s.2 = closed.2)
      (run.executeLevels index candle engine) := by
  rw [executeLevels, Portfolio.checkIntrabarExits_single]
  cases hheld : engine.portfolio.getPosition candle.symbol with
  | none => exact follows_pure rfl
  | some position =>
    rw [Option.elim_some]
    split
    · exact follows_pure rfl
    cases hexit : Portfolio.exitEvent candle.symbol position candle.range with
    | none => exact follows_pure rfl
    | some event =>
      obtain ⟨hsymbol, hlevel⟩ := Portfolio.exitEvent_level hexit
      rw [Option.toList_some, List.foldlM_cons]
      refine Follows.bind (M := fun closed s => s.2 = closed.2) ?_ fun closed s hclosed =>
        follows_pure hclosed
      rw [← hsymbol] at hheld
      simp only [executeLevel, hheld]
      refine (sourced_processSignal ?_).bind fun outcome s houtcome => follows_pure houtcome
      exact ⟨candle, position, hcandle, hsymbol.symm, hheld, hlevel⟩

theorem sourced_queueSignals (state : BacktestState σ) (closedByLevel : Bool) {passed : List EngineEvent} :
    Follows run.SourcedStep (passed, state.engine) (Queued (index + 1))
      (run.queueSignals index candle closedByLevel { state with pendingSignals := [] }) := by
  refine follows_lift_bind fun _ _ => follows_lift_bind fun called _ => ?_
  refine follows_foldlM ⟨rfl, fun signal hmem => absurd hmem List.not_mem_nil⟩ ?_
  rintro queued ⟨passed, _⟩ raw - ⟨rfl, hqueued⟩
  refine follows_lift_bind fun signal _ => ?_
  refine (sourced_perform fun call he => EngineEvent.noConfusion he).bind ?_
  rintro outcome _ rfl
  refine follows_pure ⟨rfl, fun other hother => ?_⟩
  rcases List.mem_append.mp hother with hother | hother
  · obtain ⟨signalIndex, hindex, hmem⟩ := hqueued other hother
    exact ⟨signalIndex, hindex, List.mem_append_left _ hmem⟩
  · rw [List.mem_singleton.mp hother]
    exact ⟨index, rfl, List.mem_append_right _ List.mem_cons_self⟩

theorem sourced_trackDrawdown (h : Queued (index + 1) state (passed, engine)) :
    Follows run.SourcedStep (passed, engine) (Queued (index + 1)) (run.trackDrawdown state) := by
  obtain ⟨rfl, hqueued⟩ := h
  unfold trackDrawdown
  simp only
  split
  · exact follows_raised _
  · refine (sourced_perform fun call he => EngineEvent.noConfusion he).bind ?_
    rintro outcome _ rfl
    refine follows_pure ⟨rfl, fun signal hmem => ?_⟩
    obtain ⟨signalIndex, hindex, hpassed⟩ := hqueued signal hmem
    exact ⟨signalIndex, hindex, List.mem_append_left _ hpassed⟩

theorem sourced_turn (hcandle : run.candles[index]? = some candle)
    (h : Queued index state (passed, engine)) :
    Follows run.SourcedStep (passed, engine) (Queued (index + 1))
      (run.turn state (candle, index)) := by
  refine (sourced_executePending hcandle h).bind ?_
  rintro ⟨_, strategyState, _, peakEquity⟩ ⟨opening, engine⟩ ⟨rfl, rfl⟩
  refine (sourced_executeLevels hcandle).bind ?_
  rintro ⟨closedByLevel, _⟩ ⟨closing, engine⟩ rfl
  refine (sourced_perform fun call he => EngineEvent.noConfusion he).bind ?_
  rintro ⟨fill, marked⟩ _ rfl
  refine (sourced_queueSignals ⟨marked, strategyState, [], peakEquity⟩
    closedByLevel).bind ?_
  rintro queued ⟨queueing, _⟩ hqueued
  exact sourced_trackDrawdown hqueued

theorem sourced_turns {count : ℕ} (hcount : count ≤ run.candles.length)
    (h : Queued 0 state (passed, engine)) :
    Follows run.SourcedStep (passed, engine) (Queued count) (run.turns count state) := by
  induction count with
  | zero => exact follows_pure h
  | succ count ih =>
    rw [turns_succ run (List.getElem?_eq_getElem hcount)]
    refine (ih (Nat.le_of_succ_le hcount)).bind ?_
    rintro turned ⟨passed, engine⟩ hqueued
    exact sourced_turn (List.getElem?_eq_getElem hcount) hqueued

theorem sourced_liquidate :
    Follows run.SourcedStep (passed, engine) (fun after s => s.2 = after)
      (run.liquidate engine) := by
  unfold liquidate
  split
  · rename_i last hlast _
    refine follows_foldlM rfl ?_
    rintro _ ⟨passed, engine⟩ entry - rfl
    refine (sourced_processSignal ?_).bind fun outcome s houtcome => follows_pure houtcome
    exact ⟨last, hlast, rfl⟩
  · exact follows_pure rfl

theorem sourced_execute (run : BacktestRun σ ι) (engine : BacktestEngine) :
    Follows run.SourcedStep ([], engine) (fun after s => s.2 = after) (run.execute engine) := by
  refine (sourced_turns le_rfl ⟨rfl, fun signal hmem => absurd hmem List.not_mem_nil⟩).bind ?_
  rintro turned ⟨passed, _⟩ ⟨rfl, -⟩
  exact sourced_liquidate

theorem run_of_sourced {labels : List EngineEvent} {before after : List EngineEvent × BacktestEngine}
    (h : Run run.SourcedStep before labels after) :
    after.1 = before.1 ++ labels ∧ Run (EngineStep run.clock) before.2 labels after.2 := by
  induction h with
  | nil => exact ⟨(List.append_nil _).symm, .nil _⟩
  | cons first _ ih =>
    obtain ⟨hstep, hpassed, -⟩ := first
    rw [ih.1, hpassed]
    exact ⟨by simp, .cons hstep ih.2⟩

end Sources

/-- The order `call` of a run is filled, after the events `passed` that lead to `before`. -/
def Filled (run : BacktestRun σ ι) (engine : BacktestEngine) (trace passed : List EngineEvent)
    (before : BacktestEngine) (call : OrderCall) : Prop :=
  ∃ later fill after, trace = passed ++ .order call :: later ∧
    Run (EngineStep run.clock) engine passed before ∧
    before.createAndExecuteOrder run.clock call = .ok (some fill, after)

/-- The price of an order is one of its symbol: for a signal the open of the next candle of the
symbol, for a level that the candle touches a level of the position, and at the end the last close. -/
def FromOwnCandle (run : BacktestRun σ ι) (passed : List EngineEvent) (engine : BacktestEngine)
    (call : OrderCall) : Prop :=
  match call.origin with
  | .pending _ => ∃ index candle, .signal index call.signal ∈ passed ∧
      (run.candles.drop (index + 1)).find? (fun candle => candle.symbol = call.signal.symbol) =
        some candle ∧ call.requestedPrice = candle.openPrice
  | .level index => ∃ candle position, run.candles[index]? = some candle ∧
      candle.symbol = call.signal.symbol ∧
      engine.portfolio.getPosition call.signal.symbol = some position ∧
      position.LevelAt candle.openPrice call.requestedPrice
  | .liquidation => ∃ candle,
      run.candles.reverse.find? (fun candle => candle.symbol = call.signal.symbol) =
        some candle ∧ call.requestedPrice = candle.close

/-- The candle that an order is executed at. -/
def executionCandle (run : BacktestRun σ ι) : OrderOrigin → Option (BacktestCandle ι)
  | .pending index => run.candles[index]?
  | .level index => run.candles[index]?
  | .liquidation => run.candles.getLast?

/-- The candle that an order is executed at is one of its symbol. -/
def OwnTurn (run : BacktestRun σ ι) (call : OrderCall) : Prop :=
  ∀ candle ∈ run.executionCandle call.origin, candle.symbol = call.signal.symbol

instance (run : BacktestRun σ ι) (call : OrderCall) : Decidable (run.OwnTurn call) :=
  inferInstanceAs (Decidable (∀ candle ∈ run.executionCandle call.origin,
    candle.symbol = call.signal.symbol))

theorem FromSource.own {run : BacktestRun σ ι} {passed : List EngineEvent}
    {engine : BacktestEngine} {call : OrderCall} (h : run.FromSource passed engine call)
    (hown : run.OwnTurn call) : run.FromOwnCandle passed engine call := by
  unfold FromSource at h
  unfold OwnTurn at hown
  unfold FromOwnCandle
  cases horigin : call.origin with
  | pending index =>
    simp only [horigin] at h hown ⊢
    obtain ⟨signalIndex, candle, rfl, hpassed, hcandle, hprice⟩ := h
    refine ⟨signalIndex, candle, hpassed, ?_, hprice⟩
    rw [List.drop_eq_getElem?_toList_append, hcandle]
    simp [hown candle hcandle]
  | level index =>
    simp only [horigin] at h ⊢
    exact h
  | liquidation =>
    simp only [horigin] at h hown ⊢
    obtain ⟨last, hlast, hprice⟩ := h
    refine ⟨last, ?_, hprice⟩
    obtain ⟨earlier, hearlier⟩ := List.getLast?_eq_some_iff.mp hlast
    simp [hearlier, hown last hlast]

/-- Every order that is filled is priced by a candle of its symbol, in a run whose orders are all
executed at candles of their symbols. -/
theorem fills_own_candle (run : BacktestRun σ ι) (engine : BacktestEngine)
    (result : BacktestResult) (trace : List EngineEvent)
    (h : (run.result engine).Returns result trace)
    (hown : ∀ passed before call, run.Filled engine trace passed before call → run.OwnTurn call) :
    ∀ passed before call, run.Filled engine trace passed before call →
      run.FromOwnCandle passed before call := by
  intro passed before call hfilled
  refine FromSource.own ?_ (hown passed before call hfilled)
  obtain ⟨later, fill, after, rfl, hbefore, -⟩ := hfilled
  obtain ⟨ended, events, rest, hexecute, hpure, htrace⟩ := Traced.returns_bind_iff.mp h
  obtain ⟨-, rfl⟩ := Traced.returns_pure_iff.mp hpure
  rw [List.append_nil] at htrace
  subst htrace
  obtain ⟨s, hrun, -⟩ := sourced_execute run engine ended _ hexecute
  obtain ⟨⟨earlier, reached⟩, hfirst, hrest⟩ := hrun.split
  obtain ⟨rfl, hreached⟩ := run_of_sourced hfirst
  cases hreached.unique (EngineStep.deterministic run.clock) hbefore
  obtain _ | ⟨hstep, -⟩ := hrest
  exact hstep.2.2 call rfl

/-- Two symbols in turn: the signal for the first is executed at the open of the second. -/
def interleaved : BacktestRun Unit Unit :=
  { candles := [flatCandle "BTCUSDT" 0 100, flatCandle "ETHUSDT" hour 10,
      flatCandle "BTCUSDT" (2 * hour) 100]
    strategy := buyOnce 1, initialState := (), clock := fun _ => 0, runId := "" }

def interleavedEngine : BacktestEngine := .new {} {} fun _ => 0

/-- The order of the second candle. -/
def interleavedOrder : OrderCall :=
  { origin := .pending 1
    signal := { action := "buy", symbol := "BTCUSDT", price := 100, quantity := 1, timestamp := 0
                signalId := .uuid 0 }
    requestedPrice := 10, timestamp := hour, averageVolume := some 1000 }

theorem filled_of_replay {run : BacktestRun σ ι} {engine : BacktestEngine}
    {passed : List EngineEvent} {call : OrderCall} (later : List EngineEvent)
    (h : ((engine.replay run.clock passed).toOption.any fun before =>
      (before.createAndExecuteOrder run.clock call).toOption.any fun outcome =>
        outcome.1.any fun _ => true) = true) :
    ∃ before, run.Filled engine (passed ++ .order call :: later) passed before call := by
  obtain ⟨before, fill, after, hrun, horder, -⟩ := fill_of_replay (fun _ _ _ => true) h
  exact ⟨before, later, fill, after, rfl, hrun, horder⟩

/-- A purchase at 10 of what is worth 100. -/
theorem fills_own_candle_fails : ¬∀ (run : BacktestRun Unit Unit) (config : BacktestConfig)
    (riskEngine : RiskEngine) (draws : ℕ → Decimal) (result : BacktestResult)
    (trace : List EngineEvent),
    run.candles.Pairwise (fun first second => first.openTime ≤ second.openTime) →
    (run.result (.new config riskEngine draws)).Returns result trace →
    ∀ passed before call, run.Filled (.new config riskEngine draws) trace passed before call →
      run.FromOwnCandle passed before call := by
  intro h
  have hordered : interleaved.candles.Pairwise
      fun first second => first.openTime ≤ second.openTime := by decide +kernel
  obtain ⟨result, hresult⟩ := Option.isSome_iff_exists.mp
    (show (interleaved.result interleavedEngine).value?.isSome = true by decide +kernel)
  have htrace : (interleaved.result interleavedEngine).trace =
      (interleaved.result interleavedEngine).trace.take 3 ++ .order interleavedOrder ::
        (interleaved.result interleavedEngine).trace.drop 4 := by decide +kernel
  obtain ⟨before, hfilled⟩ : ∃ before, interleaved.Filled interleavedEngine _
      ((interleaved.result interleavedEngine).trace.take 3) before interleavedOrder :=
    filled_of_replay ((interleaved.result interleavedEngine).trace.drop 4) (by decide +kernel)
  rw [← htrace] at hfilled
  have hown := h interleaved {} {} _ result _ hordered (Traced.returns_of_value? hresult) _ _ _
    hfilled
  obtain ⟨index, candle, -, hnext, hprice⟩ := hown
  have hmem : candle ∈ interleaved.candles := List.mem_of_mem_drop (List.mem_of_find?_eq_some hnext)
  have hsymbol := List.find?_some hnext
  have hprices : ∀ candle ∈ interleaved.candles, candle.symbol = "BTCUSDT" →
      candle.openPrice ≠ 10 := by decide +kernel
  exact hprices candle hmem (of_decide_eq_true hsymbol) hprice.symm

/-- The order that an event is, if it is one. -/
def orderCall? : EngineEvent → Option OrderCall
  | .order call => some call
  | _ => none

/-- One symbol, bought at the open of the second candle and sold at its close. -/
def oneSymbol : BacktestRun Unit Unit :=
  { interleaved with candles := [flatCandle "BTCUSDT" 0 100, flatCandle "BTCUSDT" hour 100] }

/-- `fills_own_candle` for that run. -/
theorem oneSymbol_own_candle : ∃ result : BacktestResult, result.fills ≠ [] ∧
    ∀ passed before call, oneSymbol.Filled interleavedEngine
      (oneSymbol.result interleavedEngine).trace passed before call →
        oneSymbol.FromOwnCandle passed before call := by
  obtain ⟨result, hresult, hfills⟩ := (Option.any_eq_true _ _).mp
    (show (oneSymbol.result interleavedEngine).value?.any (fun result =>
      decide (result.fills ≠ [])) = true by decide +kernel)
  have horders : ∀ event ∈ (oneSymbol.result interleavedEngine).trace,
      ∀ call ∈ orderCall? event, oneSymbol.OwnTurn call := by decide +kernel
  refine ⟨result, of_decide_eq_true hfills, fills_own_candle oneSymbol interleavedEngine result _
    (Traced.returns_of_value? hresult) ?_⟩
  rintro passed before call ⟨later, fill, after, htrace, -, -⟩
  exact horders (.order call) (htrace ▸ List.mem_append_right _ List.mem_cons_self) call rfl

end BacktestRun

end CryptoTrading
