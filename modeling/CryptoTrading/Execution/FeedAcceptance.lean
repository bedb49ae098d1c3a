import CryptoTrading.Execution.PaperTradingRuntime

/-! Which feeds the runtime handles whole: the engine accepts each of their events, the strategy is
called on each of their candles, and each of them is counted. -/

namespace CryptoTrading.RuntimeSettings

variable {σ : Type} (settings : RuntimeSettings σ)

/-- `on_market_event` returns `True` for every event of a feed. -/
def AcceptsEvery : PaperTradingRuntime σ → List MarketEvent → Prop
  | _, [] => True
  | state, event :: rest =>
    (∃ engine, state.engine.onMarketEvent event = .ok (true, engine)) ∧
      AcceptsEvery (settings.processCandle state event).state rest

/-- The runtime accepts every event of a feed, calls the strategy on it, once each, and counts
them all. -/
structure HandlesEvery (state : PaperTradingRuntime σ) (feed : List MarketEvent) : Prop where
  accepts : settings.AcceptsEvery state feed
  calls : strategyCalls (settings.processFeed state feed).actions = feed.map MarketEvent.candle
  counts : (settings.processFeed state feed).state.candlesProcessed =
    state.candlesProcessed + feed.length

/-- A feed of valid candles that goes beyond the engine's last event and then, from event to event,
to later sequences and later open times, whatever the symbols. -/
structure Advances (engine : PaperExecutionEngine) (feed : List MarketEvent) : Prop where
  valid : ∀ event ∈ feed, event.candle.validate = .ok ()
  sequence : ∀ event ∈ feed, engine.lastSequence < event.sequence
  sequences : feed.Pairwise fun earlier later => earlier.sequence < later.sequence
  openTime : ∀ event ∈ feed, ∀ last, engine.lastProcessedTimestamp = some last →
    last < event.candle.openTime
  openTimes : feed.Pairwise fun earlier later => earlier.candle.openTime < later.candle.openTime

/-- The strategy is called on an event that the engine takes, and neither it nor the checks and
executions of its requests raise. -/
structure Serves (state : PaperTradingRuntime σ) (event : MarketEvent) : Prop where
  called : settings.callsStrategy event = true
  returns : (settings.runStrategy (accepted state event) event).raised = none

/-- Every event of a feed is served in the state in which its turn comes. -/
def ServesEvery : PaperTradingRuntime σ → List MarketEvent → Prop
  | _, [] => True
  | state, event :: rest =>
    settings.Serves state event ∧ ServesEvery (settings.processCandle state event).state rest

/-! ### One event -/

theorem advances_cons {engine next : PaperExecutionEngine} {event : MarketEvent}
    {rest : List MarketEvent} (hnext : SameMarket (engine.accept event) next) :
    Advances engine (event :: rest) ↔ engine.Takes event ∧ Advances next rest := by
  have hseq : next.lastSequence = event.sequence := hnext.lastSequence
  have htime : next.lastProcessedTimestamp = some event.candle.openTime :=
    hnext.lastProcessedTimestamp
  constructor
  · intro h
    obtain ⟨hlaterSeq, hseqs⟩ := List.pairwise_cons.mp h.sequences
    obtain ⟨hlaterTime, htimes⟩ := List.pairwise_cons.mp h.openTimes
    refine ⟨⟨h.valid _ List.mem_cons_self, h.sequence _ List.mem_cons_self,
      h.openTime _ List.mem_cons_self⟩, ?_⟩
    exact ⟨fun later hmem => h.valid later (List.mem_cons_of_mem _ hmem),
      fun later hmem => hseq ▸ hlaterSeq later hmem, hseqs,
      fun later hmem last hlast => by
        rw [htime] at hlast
        cases hlast
        exact hlaterTime later hmem, htimes⟩
  · rintro ⟨ht, h⟩
    have hlaterSeq : ∀ later ∈ rest, event.sequence < later.sequence :=
      fun later hmem => hseq ▸ h.sequence later hmem
    have hlaterTime : ∀ later ∈ rest, event.candle.openTime < later.candle.openTime :=
      fun later hmem => h.openTime later hmem _ htime
    refine ⟨?_, ?_, List.pairwise_cons.mpr ⟨hlaterSeq, h.sequences⟩, ?_,
      List.pairwise_cons.mpr ⟨hlaterTime, h.openTimes⟩⟩
    · rintro later (_ | ⟨_, hmem⟩)
      · exact ht.valid
      · exact h.valid later hmem
    · rintro later (_ | ⟨_, hmem⟩)
      · exact ht.sequence
      · exact ht.sequence.trans (hlaterSeq later hmem)
    · rintro later (_ | ⟨_, hmem⟩) last hlast
      · exact ht.openTime last hlast
      · exact (ht.openTime last hlast).trans (hlaterTime later hmem)

variable {settings} {state : PaperTradingRuntime σ} {event : MarketEvent} {rest feed : List MarketEvent}

theorem processCandle_of_raised (ht : state.engine.Takes event) {error : RuntimeError}
    (hr : (settings.runStrategy (accepted state event) event).raised = some error) :
    (settings.processCandle state event).raised = some error ∧
      (settings.processCandle state event).state.candlesProcessed = state.candlesProcessed ∧
      strategyCalls (settings.processCandle state event).actions =
        if settings.callsStrategy event then [event.candle] else [] := by
  rw [settings.processCandle_of_takes ht,
    Outcome.andThen_of_raised ((Outcome.after_raised _ _).trans hr)]
  refine ⟨hr, settings.runStrategy_candlesProcessed _ event, ?_⟩
  simpa using settings.runStrategy_strategyCalls (accepted state event) event

theorem processCandle_of_returned (ht : state.engine.Takes event)
    (hr : (settings.runStrategy (accepted state event) event).raised = none) :
    (settings.processCandle state event).raised = none ∧
      (settings.processCandle state event).state.candlesProcessed = state.candlesProcessed + 1 ∧
      SameMarket (state.engine.accept event) (settings.processCandle state event).state.engine ∧
      strategyCalls (settings.processCandle state event).actions =
        if settings.callsStrategy event then [event.candle] else [] := by
  rw [settings.processCandle_of_takes ht,
    Outcome.andThen_of_returned ((Outcome.after_raised _ _).trans hr)]
  refine ⟨rfl, ?_, settings.runStrategy_sameMarket (accepted state event) event, ?_⟩
  · show (settings.runStrategy _ event).state.candlesProcessed + 1 = _
    rw [settings.runStrategy_candlesProcessed]
    rfl
  · simp [(settings.finishCandle_actions _).2, settings.runStrategy_strategyCalls]

theorem processCandle_bounds (settings : RuntimeSettings σ) (state : PaperTradingRuntime σ)
    (event : MarketEvent) :
    (strategyCalls (settings.processCandle state event).actions).length ≤ 1 ∧
      (settings.processCandle state event).state.candlesProcessed ≤ state.candlesProcessed + 1 := by
  have hone : (if settings.callsStrategy event then [event.candle] else []).length ≤ 1 := by
    split <;> simp
  by_cases ht : state.engine.Takes event
  · cases hr : (settings.runStrategy (accepted state event) event).raised with
    | some error =>
      obtain ⟨-, hcount, hcalls⟩ := processCandle_of_raised ht hr
      exact ⟨hcalls ▸ hone, by omega⟩
    | none =>
      obtain ⟨-, hcount, -, hcalls⟩ := processCandle_of_returned ht hr
      exact ⟨hcalls ▸ hone, by omega⟩
  · obtain ⟨hstate, hcalls, -⟩ := settings.processCandle_of_not_takes ht
    exact ⟨by simp [hcalls], by simp [hstate]⟩

/-! ### A whole feed -/

theorem processFeed_bounds (settings : RuntimeSettings σ) (state : PaperTradingRuntime σ)
    (feed : List MarketEvent) :
    (strategyCalls (settings.processFeed state feed).actions).length ≤ feed.length ∧
      (settings.processFeed state feed).state.candlesProcessed ≤
        state.candlesProcessed + feed.length := by
  induction feed generalizing state with
  | nil => simp [processFeed]
  | cons event rest ih =>
    obtain ⟨hcalls, hcount⟩ := settings.processCandle_bounds state event
    simp only [processFeed, List.length_cons]
    cases hr : (settings.processCandle state event).raised with
    | some error =>
      rw [Outcome.andThen_of_raised hr]
      constructor <;> omega
    | none =>
      obtain ⟨ihCalls, ihCount⟩ := ih (settings.processCandle state event).state
      rw [Outcome.andThen_of_returned hr]
      simp only [Outcome.after_actions, strategyCalls_append, List.length_append,
        Outcome.after_state]
      constructor <;> omega

/-- An event of a feed that is handled whole is taken and served, and the rest is handled from
there. -/
theorem handlesEvery_cons :
    settings.HandlesEvery state (event :: rest) ↔ state.engine.Takes event ∧
      settings.Serves state event ∧
      settings.HandlesEvery (settings.processCandle state event).state rest := by
  constructor
  · intro ⟨⟨⟨engine, hev⟩, haccepts⟩, hcalls, hcounts⟩
    have ht : state.engine.Takes event := by
      rcases PaperExecutionEngine.onMarketEvent_cases hev with ⟨hf, _⟩ | ⟨_, _, ht⟩
      · cases hf
      · exact ht
    cases hr : (settings.runStrategy (accepted state event) event).raised with
    | some error =>
      -- A candle whose processing raises ends the feed and is not counted.
      obtain ⟨hraised, hcount, -⟩ := processCandle_of_raised ht hr
      rw [processFeed, Outcome.andThen_of_raised hraised, List.length_cons] at hcounts
      omega
    | none =>
      obtain ⟨hraised, hcount, -, hone⟩ := processCandle_of_returned ht hr
      rw [processFeed, Outcome.andThen_of_returned hraised] at hcalls hcounts
      simp only [Outcome.after_actions, strategyCalls_append, hone, List.map_cons] at hcalls
      simp only [Outcome.after_state, List.length_cons] at hcounts
      have hcalled : settings.callsStrategy event = true := by
        by_contra hnot
        -- A strategy that is not called leaves the rest of the feed one call short.
        have hlength := congrArg List.length hcalls
        have hbound := (settings.processFeed_bounds (settings.processCandle state event).state
          rest).1
        simp only [if_neg hnot, List.nil_append, List.length_cons, List.length_map] at hlength
        omega
      rw [if_pos hcalled, List.singleton_append, List.cons_inj_right] at hcalls
      exact ⟨ht, ⟨hcalled, hr⟩, ⟨haccepts, hcalls, by omega⟩⟩
  · rintro ⟨ht, ⟨hcalled, hr⟩, ⟨haccepts, hcalls, hcounts⟩⟩
    obtain ⟨hraised, hcount, -, hone⟩ := processCandle_of_returned ht hr
    refine ⟨⟨⟨_, PaperExecutionEngine.onMarketEvent_of_takes ht⟩, haccepts⟩, ?_, ?_⟩
    · rw [processFeed, Outcome.andThen_of_returned hraised]
      simp [hone, hcalled, hcalls]
    · rw [processFeed, Outcome.andThen_of_returned hraised, Outcome.after_state, hcounts, hcount,
        List.length_cons]
      omega

/-- A runtime whose strategy watches every candle and never trades. -/
def watching : RuntimeSettings Unit where
  strategy := some ⟨fun _ _ _ => some ([], ())⟩
  runId := "run"
  clock event _ := event.candle.closeTime

/-- One hour of two symbols, numbered as the market data source numbers them. -/
def twoSymbols : List MarketEvent :=
  [⟨⟨"BTCUSDT", hour, 2 * hour, 100, 100, 100, 100, 1⟩, 36000, "bybit-rest-dds"⟩,
    ⟨⟨"ETHUSDT", hour, 2 * hour, 10, 10, 10, 10, 1⟩, 36001, "bybit-rest-dds"⟩]

end CryptoTrading.RuntimeSettings
