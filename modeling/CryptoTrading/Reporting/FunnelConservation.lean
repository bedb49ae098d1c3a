import CryptoTrading.Reporting.EntryFunnel
import CryptoTrading.Strategies.PullbackWindow

/-! The funnel keeps its balance: every setup that is armed has one lifecycle, which says how it was
confirmed, why it was cancelled, or that it is open at the end. -/

namespace CryptoTrading

open Kit

/-- The times at which setups were armed. -/
def armedTimes (traces : List FunnelTrace) : List Datetime :=
  traces.filterMap fun trace => if trace.event = .setupArmed then some trace.timestamp else none

/-- The times and reasons of the traces that end a setup. -/
def endings (traces : List FunnelTrace) : List (Datetime × TerminalReason) :=
  traces.filterMap fun trace => trace.event.terminal.map (Prod.mk trace.timestamp)

/-- The reasons of the lifecycles of setups that ended. -/
def endReasons : List TerminalReason :=
  [.confirmed, .cancelled .regime, .cancelled .closeEma200, .cancelled .ema50Ema200,
    .cancelled .position, .cancelled .timeout]

/-- The record of a symbol's setups between two calls: each setup that ended has its lifecycle, and one that
is armed has its time. -/
structure Balanced (symbol : String) (state : InstrumentedState) : Prop where
  payload : (state.parent.symbolState symbol).phase = .pullbackArmed →
    (state.parent.symbolState symbol).setup.isSome = true
  active : (state.activeSetupTime.get? symbol).isSome = true ↔
    (state.parent.symbolState symbol).phase = .pullbackArmed
  setups : armedTimes state.traces =
    state.lifecycles.map SetupLifecycle.setupTime ++ (state.activeSetupTime.get? symbol).toList
  ends : endings state.traces =
    state.lifecycles.map fun lifecycle => (lifecycle.terminalTime, lifecycle.terminalReason)
  known : ∀ lifecycle ∈ state.lifecycles, lifecycle.terminalReason ∈ endReasons

theorem mem_endReasons {event : FunnelEvent} {reason : TerminalReason}
    (h : event.terminal = some reason) (hknown : reason ≠ .cancelled .unknown) :
    reason ∈ endReasons := by
  cases event with
  | confirmed =>
    cases h
    exact List.mem_cons_self
  | cancelled cancelReason =>
    cases h
    cases cancelReason with
    | unknown => exact absurd rfl hknown
    | _ => decide
  | _ => cases h

section Traces

variable (traces : List FunnelTrace) {trace : FunnelTrace}

theorem armedTimes_snoc_of_ne (h : trace.event ≠ .setupArmed) :
    armedTimes (traces ++ [trace]) = armedTimes traces := by
  simp [armedTimes, List.filterMap_append, h]

theorem armedTimes_snoc (h : trace.event = .setupArmed) :
    armedTimes (traces ++ [trace]) = armedTimes traces ++ [trace.timestamp] := by
  simp [armedTimes, List.filterMap_append, h]

theorem endings_snoc_of_none (h : trace.event.terminal = none) :
    endings (traces ++ [trace]) = endings traces := by
  simp [endings, List.filterMap_append, h]

theorem endings_snoc {reason : TerminalReason} (h : trace.event.terminal = some reason) :
    endings (traces ++ [trace]) = endings traces ++ [(trace.timestamp, reason)] := by
  simp [endings, List.filterMap_append, h]

end Traces

theorem ne_setupArmed_of_terminal {event : FunnelEvent} {reason : TerminalReason}
    (h : event.terminal = some reason) : event ≠ .setupArmed := by
  rintro rfl
  cases h

theorem Balanced.new (symbol : String) : Balanced symbol {} where
  payload harmed := by cases harmed
  active := by simp [PullbackState.symbolState]
  setups := rfl
  ends := rfl
  known _ hmem := by cases hmem

section Step

variable {symbol : String} {state : InstrumentedState} {parent : PullbackState} {trace : FunnelTrace}

/-- The phase and the setup stay, and so do the setups in the record. -/
theorem Balanced.stays (h : Balanced symbol state)
    (same : (parent.symbolState symbol).phase = (state.parent.symbolState symbol).phase)
    (payload : (parent.symbolState symbol).setup.isSome =
      (state.parent.symbolState symbol).setup.isSome) :
    Balanced symbol { state with parent } where
  payload harmed := payload.trans (h.payload (same.symm.trans harmed))
  active := by
    rw [same]
    exact h.active
  setups := h.setups
  ends := h.ends
  known := h.known

theorem Balanced.traced (h : Balanced symbol state) (goesOn : trace.event.terminal = none)
    (noSetup : trace.event ≠ .setupArmed) :
    Balanced symbol { state with traces := state.traces ++ [trace] } :=
  { h with
    setups := (armedTimes_snoc_of_ne _ noSetup).trans h.setups
    ends := (endings_snoc_of_none _ goesOn).trans h.ends }

/-- A setup that is armed has no lifecycle yet. -/
theorem Balanced.arms (h : Balanced symbol state)
    (idle : (state.parent.symbolState symbol).phase = .idle)
    (armed : (parent.symbolState symbol).phase = .pullbackArmed)
    (payload : (parent.symbolState symbol).setup.isSome = true)
    (event : trace.event = .setupArmed) :
    Balanced symbol { state with
      parent, traces := state.traces ++ [trace]
      activeSetupTime := state.activeSetupTime.set symbol trace.timestamp } := by
  have hnone : state.activeSetupTime.get? symbol = none := by
    rw [← Option.not_isSome_iff_eq_none, h.active, idle]
    rintro ⟨⟩
  refine ⟨fun _ => payload, ?_, ?_, ?_, h.known⟩
  · simp only [Dict.get?_set_self, Option.isSome_some, armed]
  · simp only [Dict.get?_set_self, Option.toList_some]
    rw [armedTimes_snoc _ event, h.setups, hnone, Option.toList_none, List.append_nil]
  · rw [endings_snoc_of_none _ (by rw [event]; rfl)]
    exact h.ends

/-- A setup that ends gets its lifecycle. -/
theorem Balanced.ended {lifecycle : SetupLifecycle} (h : Balanced symbol state)
    (armed : (state.parent.symbolState symbol).phase = .pullbackArmed)
    (idle : (parent.symbolState symbol).phase = .idle)
    (terminal : trace.event.terminal = some lifecycle.terminalReason)
    (known : lifecycle.terminalReason ≠ .cancelled .unknown)
    (time : lifecycle.terminalTime = trace.timestamp)
    (setup : ∀ timestamp, state.activeSetupTime.get? symbol = some timestamp →
      lifecycle.setupTime = timestamp) :
    Balanced symbol { state.endSetup symbol lifecycle with
      parent, traces := state.traces ++ [trace] } := by
  obtain ⟨started, hstarted⟩ := Option.isSome_iff_exists.mp (h.active.mpr armed)
  refine ⟨fun harmed => ?_, ?_, ?_, ?_, ?_⟩
  · cases idle.symm.trans harmed
  · simp [InstrumentedState.endSetup, Dict.get?_erase, idle]
  · rw [armedTimes_snoc_of_ne _ (ne_setupArmed_of_terminal terminal)]
    simp only [InstrumentedState.endSetup, Dict.get?_erase, List.map_append, List.map_cons,
      List.map_nil, setup started hstarted]
    rw [h.setups, hstarted]
    simp
  · rw [endings_snoc _ terminal]
    simp only [InstrumentedState.endSetup, List.map_append, List.map_cons, List.map_nil, time]
    rw [h.ends]
  · intro other hother
    rcases List.mem_append.mp hother with hother | hother
    · exact h.known other hother
    · rw [List.mem_singleton.mp hother]
      exact mem_endReasons terminal known

/-- A call keeps the balance. -/
theorem Balanced.called {next : InstrumentedState} {call : EntryCall}
    (h : Balanced call.candle.symbol state) (hstep : Funnelled state call parent next) :
    Balanced call.candle.symbol next := by
  cases hstep with
  | raised same payload => exact h.stays same payload
  | recorded trace timestamp recorded =>
    generalize hevent : trace.event = event at recorded
    cases recorded with
    | kept _ same payload goesOn noSetup =>
      exact (h.stays same payload).traced (hevent ▸ goesOn) (hevent ▸ noSetup)
    | armed idle armed payload =>
      rw [← timestamp]
      exact h.arms idle armed payload hevent
    | ended _ lifecycle armed idle terminal known time setup =>
      exact h.ended armed idle (hevent ▸ terminal) known (time.trans timestamp.symm) setup

end Step

/-! ### The end -/

theorem length_armedTimes (traces : List FunnelTrace) :
    (armedTimes traces).length = countEvents traces .setupArmed := by
  induction traces with
  | nil => rfl
  | cons trace rest ih =>
    rw [countEvents] at ih ⊢
    by_cases h : trace.event = .setupArmed
    · simp only [armedTimes, List.filterMap_cons, h, if_true, List.length_cons, List.countP_cons,
        decide_true] at ih ⊢
      rw [ih]
    · simp only [armedTimes, List.filterMap_cons, h, if_false, List.countP_cons, decide_false,
        Bool.false_eq_true, add_zero] at ih ⊢
      exact ih

theorem countEvents_confirmed (traces : List FunnelTrace) :
    countEvents traces .confirmed =
      (endings traces).countP fun ending => ending.2 = .confirmed := by
  induction traces with
  | nil => rfl
  | cons trace rest ih =>
    rw [countEvents] at ih ⊢
    cases hevent : trace.event <;>
      simp_all [endings, FunnelEvent.terminal]

/-- Lifecycles are counted by their reasons. -/
theorem length_eq_counts {lifecycles : List SetupLifecycle}
    (h : ∀ lifecycle ∈ lifecycles, lifecycle.terminalReason ∈ endReasons ∨
      lifecycle.terminalReason = .openAtEnd) :
    lifecycles.length = countLifecycles lifecycles .confirmed +
      countLifecycles lifecycles (.cancelled .regime) +
      countLifecycles lifecycles (.cancelled .closeEma200) +
      countLifecycles lifecycles (.cancelled .ema50Ema200) +
      countLifecycles lifecycles (.cancelled .position) +
      countLifecycles lifecycles (.cancelled .timeout) +
      countLifecycles lifecycles .openAtEnd := by
  induction lifecycles with
  | nil => rfl
  | cons lifecycle rest ih =>
    have hrest := ih fun other hother => h other (List.mem_cons_of_mem _ hother)
    have hreason := h lifecycle List.mem_cons_self
    simp only [endReasons, List.mem_cons, List.not_mem_nil, or_false] at hreason
    rw [List.length_cons, hrest]
    obtain ((hreason | hreason | hreason | hreason | hreason | hreason) | hreason) := hreason <;>
      simp only [countLifecycles, List.countP_cons, hreason, reduceCtorEq, TerminalReason.cancelled.injEq,
        decide_true, decide_false, Bool.false_eq_true, if_true, if_false] <;> omega

/-- The record after the end: every setup has one lifecycle with one of the seven reasons, in the order of
their times, and those that ended are those of the traces. -/
structure FunnelConserved (state : InstrumentedState) : Prop where
  balance : (windowFunnel state).setupsArmed = (windowFunnel state).confirmedSignals +
    (windowFunnel state).cancelledRegime + (windowFunnel state).cancelledCloseEma200 +
    (windowFunnel state).cancelledEma50Ema200 + (windowFunnel state).cancelledPosition +
    (windowFunnel state).cancelledTimeout + (windowFunnel state).openAtEnd
  setups : armedTimes state.traces = state.lifecycles.map SetupLifecycle.setupTime
  ends : endings state.traces = (state.lifecycles.filter fun lifecycle =>
    lifecycle.terminalReason ≠ .openAtEnd).map fun lifecycle =>
      (lifecycle.terminalTime, lifecycle.terminalReason)
  known : ∀ lifecycle ∈ state.lifecycles, lifecycle.terminalReason ∈ endReasons ∨
    lifecycle.terminalReason = .openAtEnd
  traced : ∀ trace ∈ state.traces, trace.event ≠ .cancelled .unknown

/-- What is left to show of a record is that it has the lifecycles of its setups. -/
theorem FunnelConserved.of_ends {state : InstrumentedState}
    (setups : armedTimes state.traces = state.lifecycles.map SetupLifecycle.setupTime)
    (ends : endings state.traces = (state.lifecycles.filter fun lifecycle =>
      lifecycle.terminalReason ≠ .openAtEnd).map fun lifecycle =>
        (lifecycle.terminalTime, lifecycle.terminalReason))
    (known : ∀ lifecycle ∈ state.lifecycles, lifecycle.terminalReason ∈ endReasons ∨
      lifecycle.terminalReason = .openAtEnd) : FunnelConserved state := by
  refine ⟨?_, setups, ends, known, fun trace htrace hevent => ?_⟩
  · have hconfirmed : countEvents state.traces .confirmed =
        countLifecycles state.lifecycles .confirmed := by
      rw [countEvents_confirmed, ends, List.countP_map, List.countP_filter, countLifecycles]
      refine List.countP_congr fun lifecycle _ => ?_
      simp only [Function.comp_apply, ne_eq, decide_not, Bool.and_eq_true, decide_eq_true_eq,
        Bool.not_eq_true', decide_eq_false_iff_not, and_iff_left_iff_imp]
      rintro hreason hopen
      cases hreason.symm.trans hopen
    have harmed := length_armedTimes state.traces
    rw [setups, List.length_map, length_eq_counts known] at harmed
    simp only [windowFunnel, ← harmed, hconfirmed]
  · -- such a trace would end a setup with a reason that no lifecycle has
    have hend : (trace.timestamp, TerminalReason.cancelled .unknown) ∈ endings state.traces :=
      List.mem_filterMap.mpr ⟨trace, htrace, by rw [hevent]; rfl⟩
    rw [ends] at hend
    obtain ⟨lifecycle, hlifecycle, hreason⟩ := List.mem_map.mp hend
    have hunknown := congrArg Prod.snd hreason
    have hknown := known lifecycle (List.mem_of_mem_filter hlifecycle)
    dsimp only at hunknown
    rw [hunknown] at hknown
    revert hknown
    decide

/-- A setup that is open at the end has its lifecycle then. -/
theorem Balanced.finalized {symbol : String} {state : InstrumentedState} (h : Balanced symbol state)
    (terminalTime : Datetime) : ∃ final,
      state.finalizeOpenSetup symbol terminalTime = .ok final ∧ FunnelConserved final := by
  have hends : ∀ lifecycle ∈ state.lifecycles, lifecycle.terminalReason ≠ .openAtEnd := by
    intro lifecycle hlifecycle hopen
    have hknown := h.known lifecycle hlifecycle
    rw [hopen] at hknown
    revert hknown
    decide
  have hfilter : (state.lifecycles.filter fun lifecycle => lifecycle.terminalReason ≠ .openAtEnd) =
      state.lifecycles :=
    List.filter_eq_self.mpr fun lifecycle hlifecycle => decide_eq_true (hends lifecycle hlifecycle)
  cases hphase : (state.parent.symbolState symbol).phase with
  | idle =>
    have hnone : state.activeSetupTime.get? symbol = none := by
      rw [← Option.not_isSome_iff_eq_none, h.active, hphase]
      rintro ⟨⟩
    refine ⟨state, by simp [InstrumentedState.finalizeOpenSetup, hphase], .of_ends ?_ ?_ ?_⟩
    · rw [h.setups, hnone, Option.toList_none, List.append_nil]
    · rw [hfilter, h.ends]
    · exact fun lifecycle hlifecycle => .inl (h.known lifecycle hlifecycle)
  | pullbackArmed =>
    obtain ⟨setup, hsetup⟩ := Option.isSome_iff_exists.mp (h.payload hphase)
    obtain ⟨started, hstarted⟩ := Option.isSome_iff_exists.mp (h.active.mpr hphase)
    refine ⟨_, by simp [InstrumentedState.finalizeOpenSetup, hphase, hsetup]; rfl, .of_ends ?_ ?_ ?_⟩
    · simp only [InstrumentedState.endSetup, List.map_append, List.map_cons, List.map_nil]
      rw [h.setups, hstarted, Option.getD_some, Option.toList_some]
    · simp only [InstrumentedState.endSetup, List.filter_append, hfilter]
      simpa using h.ends
    · intro lifecycle hlifecycle
      rcases List.mem_append.mp hlifecycle with hlifecycle | hlifecycle
      · exact .inl (h.known lifecycle hlifecycle)
      · exact .inr (by rw [List.mem_singleton.mp hlifecycle])

/-! ### The run -/

section Run

variable {strategy : StrategyIdentity} {calls : List EntryCall} {symbol : String}

theorem Funnelled.parent_eq {state next : InstrumentedState} {call : EntryCall}
    {parent : PullbackState} (h : Funnelled state call parent next) : next.parent = parent := by
  cases h with
  | raised _ _ => rfl
  | recorded trace _ recorded =>
    generalize trace.event = event at recorded
    cases recorded <;> rfl

theorem parent_stateAt (strategy : StrategyIdentity) (calls : List EntryCall) (n : ℕ) :
    ((instrumentedEntries strategy).stateAt calls n).parent =
      (pullbackEntries strategy).stateAt calls n := by
  exact Callee.stateAt_map InstrumentedState.parent rfl
    (fun state call _ => (instrumentedEntries_called strategy state call).2.parent_eq) n

theorem answerAt_eq (strategy : StrategyIdentity) (calls : List EntryCall) (n : ℕ) :
    (instrumentedEntries strategy).answerAt calls n = (pullbackEntries strategy).answerAt calls n := by
  rw [Callee.answerAt, Callee.answerAt, ← parent_stateAt]
  exact Option.map_congr fun call _ => (instrumentedEntries_called strategy _ call).1

theorem balanced_stateAt (hsymbol : ∀ call ∈ calls, call.candle.symbol = symbol) {n : ℕ}
    (h : n ≤ calls.length) : Balanced symbol ((instrumentedEntries strategy).stateAt calls n) := by
  refine Callee.invariant (P := fun _ state => Balanced symbol state) (Balanced.new symbol)
    (fun n call hcall hbalanced => ?_) h
  obtain rfl := hsymbol call (List.mem_of_getElem? hcall)
  exact hbalanced.called (instrumentedEntries_called strategy _ call).2

end Run

/-- Whatever the strategy is called with, the funnel adds up at the end, and its signals are those of the
strategy without a record. -/
theorem funnel_is_conserved (strategy : StrategyIdentity) {calls : List EntryCall} {symbol : String}
    (hsymbol : ∀ call ∈ calls, call.candle.symbol = symbol) (terminalTime : Datetime) :
    (∃ state, ((instrumentedEntries strategy).stateAt calls calls.length).finalizeOpenSetup symbol
      terminalTime = .ok state ∧ FunnelConserved state) ∧
    ∀ n, (instrumentedEntries strategy).answerAt calls n = (pullbackEntries strategy).answerAt calls n :=
  ⟨(balanced_stateAt hsymbol le_rfl).finalized terminalTime, answerAt_eq strategy calls⟩

/-- A pullback and its confirmation, and another pullback that is open at the end. -/
def funnelCalls : List EntryCall := pullbackCalls ++ [pullbackCall 2 44]

theorem funnelCalls_conserved :
    (∃ state, ((instrumentedEntries pullbackIdentity).stateAt funnelCalls 3).finalizeOpenSetup "BTCUSDT"
      (3 * hour) = .ok state ∧ FunnelConserved state) ∧
    ∀ n, (instrumentedEntries pullbackIdentity).answerAt funnelCalls n =
      (pullbackEntries pullbackIdentity).answerAt funnelCalls n :=
  funnel_is_conserved pullbackIdentity
    (show ∀ call ∈ funnelCalls, call.candle.symbol = "BTCUSDT" by decide +kernel) (3 * hour)

end CryptoTrading
