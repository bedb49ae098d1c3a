import CryptoTrading.Exchange.ExecutedOrders
import CryptoTrading.Execution.PaperTradingRuntime

/-! Replaying a feed: events that the engine is past are skipped, and two runtimes whose engines have
executed the same orders execute the same on the rest. -/

namespace CryptoTrading

open Kit

namespace PaperExecutionEngine

/-- An event that the engine is past: it is skipped, or not accepted. -/
def Passed (engine : PaperExecutionEngine) (event : MarketEvent) : Prop :=
  event.sequence ≤ engine.lastSequence ∨ event.candle.validate = .ok () ∧
    ∃ last, engine.lastProcessedTimestamp = some last ∧ event.candle.openTime ≤ last

theorem Passed.not_takes {engine : PaperExecutionEngine} {event : MarketEvent}
    (h : engine.Passed event) : ¬engine.Takes event := by
  rintro ⟨-, hsequence, htime⟩
  rcases h with h | ⟨-, last, hlast, h⟩
  · exact absurd hsequence (not_lt.mpr h)
  · exact absurd (htime last hlast) (not_lt.mpr h)

theorem Similar.passed_iff {first second : PaperExecutionEngine} (h : Similar first second)
    (event : MarketEvent) : first.Passed event ↔ second.Passed event := by
  rw [Passed, Passed, h.lastSequence, h.lastProcessedTimestamp]

theorem Passed.of_takes {engine next : PaperExecutionEngine} {event other : MarketEvent}
    (h : engine.Passed event) (ht : engine.Takes other)
    (hnext : SameMarket (engine.accept other) next) : next.Passed event := by
  have hsequence : next.lastSequence = other.sequence := hnext.lastSequence
  have htime : next.lastProcessedTimestamp = some other.candle.openTime :=
    hnext.lastProcessedTimestamp
  rcases h with h | ⟨hvalid, last, hlast, h⟩
  · exact Or.inl (hsequence ▸ h.trans ht.sequence.le)
  · exact Or.inr ⟨hvalid, _, htime, h.trans (ht.openTime last hlast).le⟩

end PaperExecutionEngine

namespace RuntimeSettings

variable {σ : Type} {settings resumed : RuntimeSettings σ} {state state' : PaperTradingRuntime σ}
  {event : MarketEvent} {feed : List MarketEvent}

/-! ### Events that the engine is past -/

theorem processCandle_sameMarket (settings : RuntimeSettings σ) (ht : state.engine.Takes event) :
    SameMarket (state.engine.accept event) (settings.processCandle state event).state.engine := by
  rw [settings.processCandle_of_takes ht]
  have hsame := settings.runStrategy_sameMarket (accepted state event) event
  cases hr : (settings.runStrategy (accepted state event) event).raised with
  | some error =>
    rw [Outcome.andThen_of_raised ((Outcome.after_raised _ _).trans hr)]
    exact hsame
  | none =>
    rw [Outcome.andThen_of_returned ((Outcome.after_raised _ _).trans hr)]
    exact hsame

/-- An event that the engine does not take, and that does not raise, is one that it is past. -/
theorem passed_of_not_takes (hnot : ¬state.engine.Takes event)
    (hr : (settings.processCandle state event).raised = none) : state.engine.Passed event := by
  by_cases hsequence : event.sequence ≤ state.engine.lastSequence
  · exact Or.inl hsequence
  · have hvalid : event.candle.validate = .ok () := by
      cases hvalid : event.candle.validate with
      | ok _ => rfl
      | error e =>
        rw [processCandle, if_neg hsequence, PaperExecutionEngine.onMarketEvent, hvalid] at hr
        cases hr
    refine Or.inr ⟨hvalid, ?_⟩
    by_contra hnone
    exact hnot ⟨hvalid, not_le.mp hsequence, fun last hlast => not_le.mp fun hle =>
      hnone ⟨last, hlast, hle⟩⟩

theorem processCandle_of_passed (settings : RuntimeSettings σ) (h : state.engine.Passed event) :
    (settings.processCandle state event).state = state ∧
      (settings.processCandle state event).raised = none := by
  refine ⟨(settings.processCandle_of_not_takes h.not_takes).1, ?_⟩
  unfold processCandle
  split
  · rfl
  rename_i hsequence
  rcases h with h | ⟨hvalid, last, hlast, h⟩
  · exact absurd h hsequence
  · have htime : (state.engine.lastProcessedTimestamp.any fun last =>
        decide (event.candle.openTime ≤ last)) = true := by
      rw [hlast]
      exact decide_eq_true h
    rw [PaperExecutionEngine.onMarketEvent, hvalid]
    simp only
    rw [if_neg hsequence, if_pos htime]

theorem passed_of_processCandle (hr : (settings.processCandle state event).raised = none) :
    (settings.processCandle state event).state.engine.Passed event := by
  by_cases ht : state.engine.Takes event
  · exact Or.inl (settings.processCandle_sameMarket ht).lastSequence.ge
  · have hpassed := passed_of_not_takes ht hr
    rwa [(settings.processCandle_of_passed hpassed).1]

theorem passed_processCandle (settings : RuntimeSettings σ) (event : MarketEvent)
    {other : MarketEvent} (h : state.engine.Passed other) :
    (settings.processCandle state event).state.engine.Passed other := by
  by_cases ht : state.engine.Takes event
  · exact h.of_takes ht (settings.processCandle_sameMarket ht)
  · rwa [(settings.processCandle_of_not_takes ht).1]

theorem processFeed_cons (feed : List MarketEvent)
    (hr : (settings.processCandle state event).raised = none) :
    (settings.processFeed state (event :: feed)).state =
        (settings.processFeed (settings.processCandle state event).state feed).state ∧
      (settings.processFeed state (event :: feed)).raised =
        (settings.processFeed (settings.processCandle state event).state feed).raised := by
  rw [processFeed, Outcome.andThen_of_returned hr]
  exact ⟨rfl, rfl⟩

theorem raised_processCandle (h : (settings.processFeed state (event :: feed)).raised = none) :
    (settings.processCandle state event).raised = none := by
  cases hr : (settings.processCandle state event).raised with
  | none => rfl
  | some error =>
    rw [processFeed, Outcome.andThen_of_raised hr, hr] at h
    cases h

theorem passed_processFeed {other : MarketEvent} (h : state.engine.Passed other) :
    (settings.processFeed state feed).state.engine.Passed other := by
  induction feed generalizing state with
  | nil => exact h
  | cons event rest ih =>
    have hnext := settings.passed_processCandle event h
    cases hr : (settings.processCandle state event).raised with
    | none =>
      rw [(processFeed_cons rest hr).1]
      exact ih hnext
    | some error =>
      rw [processFeed, Outcome.andThen_of_raised hr]
      exact hnext

/-- After a feed the engine is past all of its events. -/
theorem passed_of_processFeed (h : (settings.processFeed state feed).raised = none) :
    ∀ other ∈ feed, (settings.processFeed state feed).state.engine.Passed other := by
  induction feed generalizing state with
  | nil => exact fun _ hmem => absurd hmem List.not_mem_nil
  | cons event rest ih =>
    have hr := raised_processCandle h
    obtain ⟨hstate, hraised⟩ := processFeed_cons rest hr
    rw [hraised] at h
    rw [hstate]
    intro other hmem
    rcases List.mem_cons.mp hmem with rfl | hmem
    · exact passed_processFeed (passed_of_processCandle hr)
    · exact ih h other hmem

/-- A feed whose events the engine is past changes nothing. -/
theorem processFeed_of_passed (settings : RuntimeSettings σ) (state : PaperTradingRuntime σ)
    (h : ∀ event ∈ feed, state.engine.Passed event) :
    (settings.processFeed state feed).state = state ∧
      (settings.processFeed state feed).raised = none := by
  induction feed with
  | nil => exact ⟨rfl, rfl⟩
  | cons event rest ih =>
    obtain ⟨hsame, hr⟩ := settings.processCandle_of_passed (h event (List.mem_cons_self ..))
    obtain ⟨hstate, hraised⟩ := processFeed_cons rest hr
    rw [hstate, hraised, hsame]
    exact ih fun other hmem => h other (List.mem_cons_of_mem _ hmem)

theorem processFeed_append {before : List MarketEvent} (after : List MarketEvent)
    (h : (settings.processFeed state before).raised = none) :
    (settings.processFeed state (before ++ after)).state =
        (settings.processFeed (settings.processFeed state before).state after).state ∧
      (settings.processFeed state (before ++ after)).raised =
        (settings.processFeed (settings.processFeed state before).state after).raised := by
  induction before generalizing state with
  | nil => exact ⟨rfl, rfl⟩
  | cons event rest ih =>
    have hr := raised_processCandle h
    obtain ⟨hstate, hraised⟩ := processFeed_cons rest hr
    obtain ⟨hstate', hraised'⟩ := processFeed_cons (rest ++ after) hr
    rw [hraised] at h
    rw [List.cons_append, hstate', hraised', hstate]
    exact ih h

/-! ### Two runtimes side by side -/

/-- A strategy whose requests depend on the candle and the positions alone, and a risk manager whose
verdicts depend on the request, the positions, the cash and the last candle. -/
structure Deterministic (settings : RuntimeSettings σ) : Prop where
  strategy : ∀ strategy, settings.strategy = some strategy →
    ∀ own own' candle engine engine', engine.positions.Agrees engine'.positions →
      (strategy.onCandle own candle engine).map Prod.fst =
        (strategy.onCandle own' candle engine').map Prod.fst
  riskManager : ∀ validateRequest, settings.riskManager = some validateRequest →
    ∀ request engine engine', engine.positions.Agrees engine'.positions →
      engine.cashBalance = engine'.cashBalance → engine.lastCandle = engine'.lastCandle →
      validateRequest request engine = validateRequest request engine'

theorem defaultRiskManager_congr (manager : DefaultRiskManager) (request : ExecutionRequest)
    {engine engine' : PaperExecutionEngine} (hpositions : engine.positions.Agrees engine'.positions)
    (hcandle : engine.lastCandle = engine'.lastCandle) :
    manager.validateRequest request engine = manager.validateRequest request engine' := by
  have hheld : engine.heldQuantity request.symbol = engine'.heldQuantity request.symbol := by
    simp only [PaperExecutionEngine.heldQuantity, hpositions request.symbol]
  have hprice : DefaultRiskManager.price engine = DefaultRiskManager.price engine' := by
    simp only [DefaultRiskManager.price, hcandle]
  simp only [DefaultRiskManager.validateRequest, hheld, hprice]

/-- The settings of a restarted runtime.  Its clock and its run are others. -/
structure Resumes (settings resumed : RuntimeSettings σ) : Prop where
  strategy : resumed.strategy = settings.strategy
  riskManager : resumed.riskManager = settings.riskManager
  tradingEnabled : resumed.tradingEnabled = settings.tradingEnabled
  sourceReady : resumed.sourceReady = settings.sourceReady
  sessionId : resumed.sessionId = settings.sessionId

theorem clientOrderId_ne_empty (settings : RuntimeSettings σ) (sequence : ℤ) (index : ℕ)
    (request : ExecutionRequest) : settings.clientOrderId sequence index request ≠ "" := by
  intro h
  have hlength := congrArg String.length h
  simp only [clientOrderId, String.length_append] at hlength
  have hcolon : (":" : String).length = 1 := rfl
  have hempty : ("" : String).length = 0 := rfl
  omega

section Lockstep

variable {first second : PaperExecutionEngine}

open PaperExecutionEngine

theorem Deterministic.validate (hdet : settings.Deterministic) (hresumes : Resumes settings resumed)
    (h : Similar first second) (hcandle : first.lastCandle = second.lastCandle)
    (request : ExecutionRequest) :
    (resumed.validate request first).2 = (settings.validate request second).2 := by
  unfold RuntimeSettings.validate
  rw [hresumes.riskManager]
  cases hrisk : settings.riskManager with
  | none => rfl
  | some validateRequest =>
    simp only
    rw [hdet.riskManager validateRequest hrisk request first second h.positions h.cashBalance
      hcandle]

/-- Requests that one of them executes without raising so does the other. -/
theorem Deterministic.processRequests (hdet : settings.Deterministic)
    (hresumes : Resumes settings resumed) (event : MarketEvent) (index : ℕ)
    (requests : List ExecutionRequest) (h : Similar first second)
    (hcandle : first.lastCandle = second.lastCandle)
    (hr : (settings.processRequests event index requests second).raised = none) :
    (resumed.processRequests event index requests first).raised = none ∧
      Similar (resumed.processRequests event index requests first).state
        (settings.processRequests event index requests second).state := by
  induction requests generalizing index first second with
  | nil => exact ⟨rfl, h⟩
  | cons request rest ih =>
    have hverdict := hdet.validate hresumes h hcandle request
    rcases hown : settings.validate request second with ⟨checks, verdict⟩
    rcases hown' : resumed.validate request first with ⟨checks', verdict'⟩
    obtain rfl : verdict' = verdict := by rwa [hown, hown'] at hverdict
    simp only [RuntimeSettings.processRequests, hown, hown'] at hr ⊢
    rcases verdict' with - | - | -
    · cases hr
    · exact ih (index + 1) h hcandle hr
    · simp only at hr ⊢
      have hid : (resumed.executeArguments event index request).clientOrderId =
          some (settings.clientOrderId event.sequence index request) := by
        simp only [executeArguments, clientOrderId, hresumes.sessionId]
      cases hdone : second.execute (settings.executeArguments event index request) with
      | error e => rw [hdone] at hr; cases hr
      | ok done =>
        rw [hdone] at hr
        obtain ⟨done', hdone', hsimilar, hcandle'⟩ := h.execute hcandle
          (settings.clientOrderId_ne_empty event.sequence index request)
          (settings.executeArguments event index request)
          (resumed.executeArguments event index request) rfl rfl rfl hid hdone
        rw [hdone']
        exact ih (index + 1) hsimilar hcandle' hr

theorem Deterministic.runStrategy (hdet : settings.Deterministic)
    (hresumes : Resumes settings resumed) (event : MarketEvent)
    (state state' : PaperTradingRuntime σ) (h : Similar state'.engine state.engine)
    (hcandle : state'.engine.lastCandle = state.engine.lastCandle)
    (hr : (settings.runStrategy state event).raised = none) :
    (resumed.runStrategy state' event).raised = none ∧
      Similar (resumed.runStrategy state' event).state.engine
        (settings.runStrategy state event).state.engine := by
  unfold RuntimeSettings.runStrategy at hr ⊢
  rw [hresumes.strategy, hresumes.tradingEnabled, hresumes.sourceReady]
  cases hstrategy : settings.strategy with
  | none => exact ⟨rfl, h⟩
  | some strategy =>
    rw [hstrategy] at hr
    simp only at hr ⊢
    have hrequests := hdet.strategy strategy hstrategy state'.strategyState state.strategyState
      event.candle state'.engine state.engine h.positions
    split
    · rename_i hcalls
      rw [if_pos hcalls] at hr
      cases hown : strategy.onCandle state.strategyState event.candle state.engine with
      | none => rw [hown] at hr; cases hr
      | some outcome =>
        obtain ⟨requests, next⟩ := outcome
        rw [hown, Option.map_some] at hrequests
        obtain ⟨⟨requests', next'⟩, hown', hsame⟩ := Option.map_eq_some_iff.mp hrequests
        simp only at hsame
        subst hsame
        rw [hown] at hr
        rw [hown']
        exact hdet.processRequests hresumes event 0 requests' h hcandle hr
    · exact ⟨rfl, h⟩

theorem Deterministic.processCandle (hdet : settings.Deterministic)
    (hresumes : Resumes settings resumed) (h : Similar state'.engine state.engine)
    (hr : (settings.processCandle state event).raised = none) :
    (resumed.processCandle state' event).raised = none ∧
      Similar (resumed.processCandle state' event).state.engine
        (settings.processCandle state event).state.engine := by
  by_cases ht : state.engine.Takes event
  · have ht' := (h.takes_iff event).mpr ht
    rw [settings.processCandle_of_takes ht] at hr ⊢
    rw [resumed.processCandle_of_takes ht']
    cases hown : (settings.runStrategy (accepted state event) event).raised with
    | some error =>
      rw [Outcome.andThen_of_raised ((Outcome.after_raised _ _).trans hown), Outcome.after_raised,
        hown] at hr
      cases hr
    | none =>
      obtain ⟨hown', hsimilar⟩ := hdet.runStrategy hresumes event (accepted state event)
        (accepted state' event) (h.accept event) rfl hown
      rw [Outcome.andThen_of_returned ((Outcome.after_raised _ _).trans hown),
        Outcome.andThen_of_returned ((Outcome.after_raised _ _).trans hown')]
      exact ⟨rfl, hsimilar⟩
  · have hpassed := passed_of_not_takes ht hr
    obtain ⟨hsame', hr'⟩ := resumed.processCandle_of_passed ((h.passed_iff event).mpr hpassed)
    rw [hsame', (settings.processCandle_of_not_takes ht).1]
    exact ⟨hr', h⟩

/-- Two runtimes whose engines have executed the same orders execute the same over a feed that one of
them processes without raising. -/
theorem Deterministic.processFeed (hdet : settings.Deterministic)
    (hresumes : Resumes settings resumed) (h : Similar state'.engine state.engine)
    (hr : (settings.processFeed state feed).raised = none) :
    (resumed.processFeed state' feed).raised = none ∧
      Similar (resumed.processFeed state' feed).state.engine
        (settings.processFeed state feed).state.engine := by
  induction feed generalizing state state' with
  | nil => exact ⟨rfl, h⟩
  | cons event rest ih =>
    have hone := raised_processCandle hr
    obtain ⟨hone', hnext⟩ := hdet.processCandle hresumes h hone
    obtain ⟨hstate, hraised⟩ := processFeed_cons rest hone
    obtain ⟨hstate', hraised'⟩ := processFeed_cons rest hone'
    rw [hstate, hstate', hraised']
    exact ih hnext (hraised ▸ hr)

end Lockstep

/-- The replay of a feed by a runtime whose engine has executed what another's had after a part of
it. -/
theorem Deterministic.replay (hdet : settings.Deterministic) (hresumes : Resumes settings resumed)
    {done rest : List MarketEvent} (hr : (settings.processFeed state (done ++ rest)).raised = none)
    (hdone : (settings.processFeed state done).raised = none) (state' : PaperTradingRuntime σ)
    (h : PaperExecutionEngine.Similar state'.engine (settings.processFeed state done).state.engine) :
    (resumed.processFeed state' (done ++ rest)).raised = none ∧
      PaperExecutionEngine.Similar (resumed.processFeed state' (done ++ rest)).state.engine
        (settings.processFeed state (done ++ rest)).state.engine := by
  obtain ⟨hskip, hskipped⟩ := resumed.processFeed_of_passed state' fun event hmem =>
    (h.passed_iff event).mpr (passed_of_processFeed hdone event hmem)
  obtain ⟨hstate, hraised⟩ := processFeed_append rest hdone
  obtain ⟨hstate', hraised'⟩ := processFeed_append rest hskipped
  rw [hstate, hstate', hraised', hskip]
  exact hdet.processFeed hresumes h (hraised ▸ hr)

end RuntimeSettings

end CryptoTrading
