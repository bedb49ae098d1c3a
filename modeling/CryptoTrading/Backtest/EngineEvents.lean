import CryptoTrading.Backtest.BacktestEngine

/-! A run of a backtest is a run of the engine's events, and what the events keep of the engine. -/

namespace CryptoTrading

open Kit

/-- The engine makes a step by each event that does not raise. -/
def EngineStep (clock : ℕ → Datetime) (engine : BacktestEngine) (event : EngineEvent)
    (after : BacktestEngine) : Prop :=
  ∃ fill, engine.apply clock event = .ok (fill, after)

theorem EngineStep.deterministic (clock : ℕ → Datetime) :
    Run.Deterministic (EngineStep clock) := by
  rintro engine event first second ⟨fill, hfirst⟩ ⟨fill', hsecond⟩
  rw [hfirst] at hsecond
  cases hsecond
  rfl

/-- The engine after events that do not raise. -/
def BacktestEngine.replay (clock : ℕ → Datetime) (engine : BacktestEngine)
    (events : List EngineEvent) : Except BacktestError BacktestEngine :=
  events.foldlM (fun engine event => Prod.snd <$> engine.apply clock event) engine

theorem run_of_replay {clock : ℕ → Datetime} {engine after : BacktestEngine}
    {events : List EngineEvent} (h : engine.replay clock events = .ok after) :
    Run (EngineStep clock) engine events after := by
  induction events generalizing engine with
  | nil => cases h; exact .nil _
  | cons event events ih =>
    rw [BacktestEngine.replay, List.foldlM_cons] at h
    cases happly : engine.apply clock event with
    | error e => rw [happly] at h; cases h
    | ok outcome =>
      rw [happly] at h
      exact .cons ⟨outcome.1, happly⟩ (ih h)

/-- An order that is filled after events that do not raise, and what is found of it. -/
theorem fill_of_replay {clock : ℕ → Datetime} {engine : BacktestEngine} {passed : List EngineEvent}
    {call : OrderCall} (finding : BacktestEngine → Fill → BacktestEngine → Bool)
    (h : ((engine.replay clock passed).toOption.any fun before =>
      (before.createAndExecuteOrder clock call).toOption.any fun outcome =>
        outcome.1.any fun fill => finding before fill outcome.2) = true) :
    ∃ before fill after, Run (EngineStep clock) engine passed before ∧
      before.createAndExecuteOrder clock call = .ok (some fill, after) ∧
      finding before fill after = true := by
  cases hreplay : engine.replay clock passed with
  | error e => rw [hreplay] at h; cases h
  | ok before =>
    rw [hreplay] at h
    cases horder : before.createAndExecuteOrder clock call with
    | error e => simp [Except.toOption, horder] at h
    | ok outcome =>
      obtain ⟨fill, after⟩ := outcome
      cases fill with
      | none => simp [Except.toOption, horder] at h
      | some fill =>
        simp only [Except.toOption, Option.any_some, horder] at h
        exact ⟨before, fill, after, run_of_replay hreplay, horder, h⟩

/-- A run that goes on after those events makes the step. -/
theorem makes_fill_of_replay {clock : ℕ → Datetime} {engine : BacktestEngine}
    {passed : List EngineEvent} {call : OrderCall} (later : List EngineEvent)
    (finding : BacktestEngine → Fill → BacktestEngine → Bool)
    (h : ((engine.replay clock passed).toOption.any fun before =>
      (before.createAndExecuteOrder clock call).toOption.any fun outcome =>
        outcome.1.any fun fill => finding before fill outcome.2) = true) :
    ∃ before fill after, Run.Makes (EngineStep clock) engine (passed ++ .order call :: later) before
        (.order call) after ∧
      before.createAndExecuteOrder clock call = .ok (some fill, after) ∧
      finding before fill after = true := by
  obtain ⟨before, fill, after, hrun, horder, hfinding⟩ := fill_of_replay finding h
  exact ⟨before, fill, after, ⟨passed, later, rfl, hrun, _, horder⟩, horder, hfinding⟩

/-- No event raises, and `fine` holds of the engine before and after each. -/
def checks (clock : ℕ → Datetime) (fine : BacktestEngine → BacktestEngine → Bool) :
    BacktestEngine → List EngineEvent → Bool
  | _, [] => true
  | engine, event :: rest =>
    match engine.apply clock event with
    | .error _ => false
    | .ok (_, after) => fine engine after && checks clock fine after rest

theorem makes_of_checks {clock : ℕ → Datetime} {fine : BacktestEngine → BacktestEngine → Bool}
    {engine : BacktestEngine} {trace : List EngineEvent} (h : checks clock fine engine trace = true)
    (before : BacktestEngine) (event : EngineEvent) (after : BacktestEngine)
    (hmakes : Run.Makes (EngineStep clock) engine trace before event after) :
    fine before after = true := by
  induction trace generalizing engine with
  | nil =>
    obtain ⟨passed, later, hsplit, -⟩ := hmakes
    simp at hsplit
  | cons first rest ih =>
    unfold checks at h
    split at h
    · cases h
    · rename_i fill next happly
      rw [Bool.and_eq_true] at h
      rcases (Run.makes_cons_iff (EngineStep.deterministic clock) ⟨fill, happly⟩).mp hmakes with
        ⟨rfl, -, rfl⟩ | hmakes
      · exact h.1
      · exact ih h.2 hmakes

/-- A step that leaves the logs and what is held as they are. -/
structure BacktestEngine.SameLogs (engine after : BacktestEngine) : Prop where
  config : after.config = engine.config
  orders : after.orders = engine.orders
  riskDecisions : after.riskDecisions = engine.riskDecisions
  fills : after.fills = engine.fills
  sequence : after.sequence = engine.sequence
  tradeHistory : after.portfolio.tradeHistory = engine.portfolio.tradeHistory

/-- A step either leaves the logs alone or is an order. -/
theorem EngineStep.cases {clock : ℕ → Datetime} {engine after : BacktestEngine}
    {event : EngineEvent} (h : EngineStep clock engine event after) :
    ((∀ call, event ≠ .order call) ∧ engine.SameLogs after) ∨
      ∃ call fill, event = .order call ∧ BacktestEngine.Outcome engine clock call fill after := by
  obtain ⟨fill, happly⟩ := h
  cases event with
  | order call =>
    exact Or.inr ⟨call, fill, rfl, BacktestEngine.createAndExecuteOrder_outcome happly⟩
  | signal index signal =>
    cases happly
    exact Or.inl ⟨fun _ he => EngineEvent.noConfusion he, rfl, rfl, rfl, rfl, rfl, rfl⟩
  | mark symbol close high timestamp =>
    cases happly
    exact Or.inl ⟨fun _ he => EngineEvent.noConfusion he, rfl, rfl, rfl, rfl, rfl, rfl⟩
  | drawdown drawdown =>
    cases happly
    exact Or.inl ⟨fun _ he => EngineEvent.noConfusion he, rfl, rfl, rfl, rfl, rfl, rfl⟩

theorem EngineStep.config {clock : ℕ → Datetime} {engine after : BacktestEngine}
    {event : EngineEvent} (h : EngineStep clock engine event after) :
    after.config = engine.config := by
  rcases h.cases with ⟨-, hsame⟩ | ⟨call, fill, -, houtcome⟩
  · exact hsame.config
  · cases houtcome with
    | noPosition _ _ => rfl
    | rejected hassessed _ => exact hassessed.config
    | refused hassessed _ _ _ => exact hassessed.config
    | bought hassessed _ _ _ => exact hassessed.config
    | sold hassessed _ _ _ => exact hassessed.config

/-! ### The logs -/

/-- The logs of `after` begin with those of `engine`. -/
structure BacktestEngine.Extends (engine after : BacktestEngine) : Prop where
  signals : engine.signals <+: after.signals
  riskDecisions : engine.riskDecisions <+: after.riskDecisions
  orders : engine.orders <+: after.orders
  fills : engine.fills <+: after.fills

namespace BacktestEngine.Extends

variable {clock : ℕ → Datetime} {engine middle after : BacktestEngine}

theorem refl (engine : BacktestEngine) : engine.Extends engine :=
  ⟨List.prefix_rfl, List.prefix_rfl, List.prefix_rfl, List.prefix_rfl⟩

theorem trans (h : engine.Extends middle) (h' : middle.Extends after) : engine.Extends after :=
  ⟨h.signals.trans h'.signals, h.riskDecisions.trans h'.riskDecisions, h.orders.trans h'.orders,
    h.fills.trans h'.fills⟩

/-- An order that is assessed appends itself and its decision, and its fill if there is one. -/
theorem assessed {call : OrderCall} {order : Order} {quote : Quote} {assessed : BacktestEngine}
    (h : Assessed engine clock call order quote assessed) (hsignals : after.signals = assessed.signals)
    (hdecisions : after.riskDecisions = assessed.riskDecisions ++ [riskDecision order quote])
    (horders : after.orders = assessed.orders) (hfills : assessed.fills <+: after.fills) :
    engine.Extends after where
  signals := by
    have hsame : after.signals = engine.signals := by rw [hsignals, h.frame]
    exact hsame ▸ List.prefix_rfl
  riskDecisions := by rw [hdecisions, h.riskDecisions]; exact List.prefix_append _ _
  orders := by rw [horders, h.orders]; exact List.prefix_append _ _
  fills := by rw [← h.fills]; exact hfills

theorem step {event : EngineEvent} (h : EngineStep clock engine event after) :
    engine.Extends after := by
  obtain ⟨fill, happly⟩ := h
  cases event with
  | signal index signal =>
    cases happly
    exact { refl engine with signals := List.prefix_append _ _ }
  | mark symbol close high timestamp =>
    cases happly
    exact ⟨List.prefix_rfl, List.prefix_rfl, List.prefix_rfl, List.prefix_rfl⟩
  | drawdown drawdown =>
    cases happly
    exact ⟨List.prefix_rfl, List.prefix_rfl, List.prefix_rfl, List.prefix_rfl⟩
  | order call =>
    cases createAndExecuteOrder_outcome happly with
    | noPosition _ _ => exact { refl engine with riskDecisions := List.prefix_append _ _ }
    | rejected h _ => exact assessed h rfl rfl rfl List.prefix_rfl
    | refused h _ _ _ => exact assessed h rfl rfl rfl List.prefix_rfl
    | bought h _ _ _ => exact assessed h rfl rfl rfl (List.prefix_append _ _)
    | sold h _ _ _ => exact assessed h rfl rfl rfl (List.prefix_append _ _)

theorem run {events : List EngineEvent} (h : Run (EngineStep clock) engine events after) :
    engine.Extends after := by
  induction h with
  | nil engine => exact refl engine
  | cons first _ ih => exact (step first).trans ih

end BacktestEngine.Extends

/-! ### The positions -/

/-- Every position is kept under its own symbol, long, and of a positive quantity. -/
def Portfolio.LongOnly (portfolio : Portfolio) : Prop :=
  ∀ symbol position, portfolio.positions.get? symbol = some position →
    position.symbol = symbol ∧ position.side = "long" ∧ 0 < position.quantity

namespace Portfolio.LongOnly

variable {portfolio : Portfolio}

theorem new (initialBalance : Decimal) : (Portfolio.new initialBalance).LongOnly :=
  fun _ _ h => by cases h

theorem purchased (h : portfolio.LongOnly) {opening : Opening} (haffords : portfolio.Affords opening) :
    (portfolio.purchased opening).LongOnly := by
  intro symbol position hget
  simp only [Portfolio.purchased, Dict.get?_set] at hget
  split at hget
  · rename_i hsymbol
    cases hold : portfolio.positions.get? opening.symbol with
    | none =>
      rw [hold] at hget
      cases hget
      exact ⟨hsymbol, haffords.side, haffords.quantity_pos⟩
    | some old =>
      rw [hold] at hget
      cases hget
      obtain ⟨hown, hside, hquantity⟩ := h _ old hold
      exact ⟨hown.trans hsymbol, hside, add_pos hquantity haffords.quantity_pos⟩
  · exact h symbol position hget

theorem sold (h : portfolio.LongOnly) (symbol : String) (position : Position)
    (price commission : Decimal) (timestamp : Datetime) :
    (portfolio.sold symbol position price commission timestamp).LongOnly := by
  intro other held hget
  simp only [Portfolio.sold, Dict.get?_erase] at hget
  split at hget
  · cases hget
  · exact h other held hget

theorem updatePositions (h : portfolio.LongOnly) (prices : Dict String Decimal)
    (timestamp : Datetime) (highs : Dict String Decimal) :
    (portfolio.updatePositions prices timestamp highs).LongOnly := by
  intro symbol position hget
  simp only [Portfolio.updatePositions, get?_marked, Option.map_eq_some_iff] at hget
  obtain ⟨old, hold, rfl⟩ := hget
  cases prices.get? symbol with
  | none => exact h symbol old hold
  | some price => exact h symbol old hold

end Portfolio.LongOnly

theorem EngineStep.longOnly {clock : ℕ → Datetime} {engine after : BacktestEngine}
    {event : EngineEvent} (h : engine.portfolio.LongOnly)
    (hstep : EngineStep clock engine event after) : after.portfolio.LongOnly := by
  obtain ⟨fill, happly⟩ := hstep
  cases event with
  | signal index signal => cases happly; exact h
  | mark symbol close high timestamp => cases happly; exact h.updatePositions _ _ _
  | drawdown drawdown => cases happly; exact h
  | order call =>
    cases BacktestEngine.createAndExecuteOrder_outcome happly with
    | noPosition _ _ => exact h
    | rejected hassessed _ =>
      have hportfolio := hassessed.portfolio
      exact hportfolio ▸ h
    | refused hassessed _ _ _ =>
      have hportfolio := hassessed.portfolio
      exact hportfolio ▸ h
    | bought _ _ _ haffords => exact h.purchased haffords
    | sold _ _ _ _ => exact h.sold _ _ _ _ _

namespace BacktestRun

open Traced

variable {σ ι : Type} (run : BacktestRun σ ι)

theorem returns_perform_iff {clock : ℕ → Datetime} {engine : BacktestEngine} {event : EngineEvent}
    {outcome : Option Fill × BacktestEngine} {trace : List EngineEvent} :
    (engine.perform clock event).Returns outcome trace ↔
      engine.apply clock event = .ok outcome ∧ trace = [event] := by
  unfold BacktestEngine.perform
  split
  · rename_i error happly
    simp [happly]
  · rename_i result happly
    simp [Returns, happly, eq_comm]

/-- A signal of the engine itself is recorded, and its order executed at its price. -/
theorem returns_processSignal_iff {run : BacktestRun σ ι} {engine : BacktestEngine} {index : ℕ}
    {origin : OrderOrigin} {signal : Signal} {timestamp : Datetime}
    {averageVolume : Option Decimal} {outcome : Option Fill × BacktestEngine}
    {trace : List EngineEvent} :
    (run.processSignal engine index origin signal timestamp averageVolume).Returns outcome trace ↔
      (engine.signaled signal).apply run.clock
          (.order ⟨origin, signal, signal.price, timestamp, averageVolume⟩) = .ok outcome ∧
        trace = [.signal index signal,
          .order ⟨origin, signal, signal.price, timestamp, averageVolume⟩] := by
  rw [processSignal, returns_bind_iff]
  constructor
  · rintro ⟨recorded, first, rest, hfirst, hrest, rfl⟩
    obtain ⟨hsignal, rfl⟩ := returns_perform_iff.mp hfirst
    cases hsignal
    obtain ⟨horder, rfl⟩ := returns_perform_iff.mp hrest
    exact ⟨horder, rfl⟩
  · rintro ⟨horder, rfl⟩
    exact ⟨(none, engine.signaled signal), _, _, returns_perform_iff.mpr ⟨rfl, rfl⟩,
      returns_perform_iff.mpr ⟨horder, rfl⟩, rfl⟩

/-- The state that a computation leads to is the engine in what it returns. -/
def Leaves {α : Type} (engine : α → BacktestEngine) (a : α) (after : BacktestEngine) : Prop :=
  after = engine a

theorem follows_perform (engine : BacktestEngine) (event : EngineEvent) :
    Follows (EngineStep run.clock) engine (Leaves Prod.snd) (engine.perform run.clock event) := by
  intro outcome trace h
  obtain ⟨happly, rfl⟩ := returns_perform_iff.mp h
  exact ⟨outcome.2, .single ⟨outcome.1, happly⟩, rfl⟩

theorem follows_executePending (index : ℕ) (candle : BacktestCandle ι) (state : BacktestState σ) :
    Follows (EngineStep run.clock) state.engine (Leaves BacktestState.engine)
      (run.executePending index candle state) := by
  refine follows_foldlM rfl ?_
  rintro state _ signal - rfl
  refine (run.follows_perform _ _).bind ?_
  rintro outcome _ rfl
  exact follows_lift_bind fun _ _ => follows_pure rfl

theorem follows_processSignal (engine : BacktestEngine) (index : ℕ) (origin : OrderOrigin)
    (signal : Signal) (timestamp : Datetime) (averageVolume : Option Decimal) :
    Follows (EngineStep run.clock) engine (Leaves Prod.snd)
      (run.processSignal engine index origin signal timestamp averageVolume) := by
  refine (run.follows_perform _ _).bind ?_
  rintro outcome _ rfl
  exact run.follows_perform _ _

theorem follows_executeLevels (index : ℕ) (candle : BacktestCandle ι) (engine : BacktestEngine) :
    Follows (EngineStep run.clock) engine (Leaves Prod.snd)
      (run.executeLevels index candle engine) := by
  refine follows_foldlM rfl ?_
  rintro closedByLevel _ event - rfl
  unfold executeLevel
  split
  · exact follows_pure rfl
  · refine (run.follows_processSignal _ _ _ _ _ _).bind ?_
    rintro outcome _ rfl
    exact follows_pure rfl

theorem follows_queueSignals (index : ℕ) (candle : BacktestCandle ι) (closedByLevel : Bool)
    (state : BacktestState σ) :
    Follows (EngineStep run.clock) state.engine (Leaves BacktestState.engine)
      (run.queueSignals index candle closedByLevel state) := by
  refine follows_lift_bind fun _ _ => follows_lift_bind fun called _ => follows_foldlM rfl ?_
  rintro state _ raw - rfl
  refine follows_lift_bind fun signal _ => (run.follows_perform _ _).bind ?_
  rintro outcome _ rfl
  exact follows_pure rfl

theorem follows_trackDrawdown (state : BacktestState σ) :
    Follows (EngineStep run.clock) state.engine (Leaves BacktestState.engine)
      (run.trackDrawdown state) := by
  unfold trackDrawdown
  simp only
  split
  · exact follows_raised _
  · refine (run.follows_perform _ _).bind ?_
    rintro outcome _ rfl
    exact follows_pure rfl

theorem follows_afterOpen (index : ℕ) (candle : BacktestCandle ι) (state : BacktestState σ) :
    Follows (EngineStep run.clock) state.engine (Leaves BacktestState.engine)
      (run.afterOpen index candle state) := by
  refine (run.follows_executeLevels _ _ state.engine).bind ?_
  rintro levels _ rfl
  refine (run.follows_perform _ _).bind ?_
  rintro outcome _ rfl
  refine (run.follows_queueSignals index candle _ { state with engine := outcome.2 }).bind ?_
  rintro queued _ rfl
  exact run.follows_trackDrawdown queued

theorem follows_turn (state : BacktestState σ) (item : BacktestCandle ι × ℕ) :
    Follows (EngineStep run.clock) state.engine (Leaves BacktestState.engine)
      (run.turn state item) := by
  refine (run.follows_executePending _ _ state).bind ?_
  rintro opened _ rfl
  exact run.follows_afterOpen _ _ opened

theorem turns_succ {count : ℕ} {candle : BacktestCandle ι}
    (h : run.candles[count]? = some candle) (state : BacktestState σ) :
    run.turns (count + 1) state = run.turns count state >>= (run.turn · (candle, count)) := by
  have hitem : run.candles.zipIdx[count]? = some (candle, count) := by
    simp [List.getElem?_zipIdx, h]
  rw [turns, List.take_add_one, hitem, List.foldlM_append]
  simp only [Option.toList_some, List.foldlM_cons, List.foldlM_nil, bind_pure, turns]

theorem follows_loop (items : List (BacktestCandle ι × ℕ)) (state : BacktestState σ) :
    Follows (EngineStep run.clock) state.engine (Leaves BacktestState.engine)
      (items.foldlM run.turn state) := by
  refine follows_foldlM rfl ?_
  rintro state _ item - rfl
  exact run.follows_turn state item

theorem follows_turns (count : ℕ) (state : BacktestState σ) :
    Follows (EngineStep run.clock) state.engine (Leaves BacktestState.engine)
      (run.turns count state) :=
  run.follows_loop _ state

theorem follows_liquidatePosition (last : BacktestCandle ι) (engine : BacktestEngine)
    (entry : String × Position) :
    Follows (EngineStep run.clock) engine (Leaves id)
      (run.liquidatePosition last engine entry) := by
  refine (run.follows_processSignal _ _ _ _ _ _).bind ?_
  rintro outcome _ rfl
  exact follows_pure rfl

theorem follows_liquidate (engine : BacktestEngine) :
    Follows (EngineStep run.clock) engine (Leaves id) (run.liquidate engine) := by
  unfold liquidate
  split
  · refine follows_foldlM rfl ?_
    rintro engine _ entry - (rfl : _ = engine)
    exact run.follows_liquidatePosition _ _ entry
  · exact follows_pure rfl

theorem leads_of_follows {α : Type} {engine : α → BacktestEngine} {clock : ℕ → Datetime}
    {start : BacktestEngine} {x : Backtest α} (h : Follows (EngineStep clock) start (Leaves engine) x)
    {a : α} {trace : List EngineEvent} (hreturns : x.Returns a trace) :
    Run (EngineStep clock) start trace (engine a) := by
  obtain ⟨_, hrun, rfl⟩ := h a trace hreturns
  exact hrun

theorem execute_follows {engine after : BacktestEngine} {trace : List EngineEvent}
    (h : (run.execute engine).Returns after trace) :
    Run (EngineStep run.clock) engine trace after := by
  have hfollows : Follows (EngineStep run.clock) engine (Leaves id) (run.execute engine) := by
    refine (run.follows_turns _ (run.start engine)).bind ?_
    rintro state _ rfl
    exact run.follows_liquidate state.engine
  exact leads_of_follows hfollows h

end BacktestRun

end CryptoTrading
