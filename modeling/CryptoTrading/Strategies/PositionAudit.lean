import CryptoTrading.Strategies.ManagedPositions
import CryptoTrading.Strategies.ResistanceWindow

/-! The transition events of Breakout Retest v2 as an audit of its positions.  The strategy records what
it is told of; a position that a level or the liquidation closes behind its back leaves no record of the
close. -/

namespace CryptoTrading

open Kit

namespace TransitionEvent

def startsPosition : TransitionEvent → Bool
  | positionNormalStarted _ _ _ => true
  | _ => false

def closesPosition : TransitionEvent → Bool
  | positionClosed _ _ _ => true
  | _ => false

def startsWatch : TransitionEvent → Bool
  | failureWatchStarted _ _ _ _ => true
  | _ => false

/-- The terminal resolutions of a watch. -/
def resolvesWatch : TransitionEvent → Bool
  | failureWatchRecovered _ _ => true
  | failureWatchTimeoutSignal _ _ => true
  | failureWatchResolvedBy _ _ _ => true
  | _ => false

end TransitionEvent

open TransitionEvent

/-- The events before the next position is started. -/
def ofPosition (later : List TransitionEvent) : List TransitionEvent :=
  later.takeWhile fun event => !event.startsPosition

/-- The events are a complete audit of the positions in a symbol, of which the last one is still held or
not.  A position is closed before the next one is started, and when the last one is not held. -/
structure AuditComplete (events : List TransitionEvent) (held : Bool) : Prop where
  closed : ∀ first start later, events = first ++ start :: later → start.startsPosition = true →
    (held = false ∨ later.any startsPosition = true) → (ofPosition later).countP closesPosition = 1
  resolved : ∀ first start later, events = first ++ start :: later → start.startsWatch = true →
    (held = false ∨ later.any startsPosition = true) →
    (ofPosition later).countP resolvesWatch = 1 ∧
      ((ofPosition later).takeWhile fun event => !event.closesPosition).countP resolvesWatch = 1
  once : ∀ first start later, events = first ++ start :: later → start.startsWatch = true →
    (ofPosition later).countP resolvesWatch ≤ 1

/-! ### The audit of a log -/

inductive AuditedWatch
  | unused
  | watching
  | resolved
  deriving DecidableEq, Repr

/-- Where the events leave the audit of a symbol. -/
inductive AuditStage
  | closed
  | opened (watch : AuditedWatch)
  deriving DecidableEq, Repr

namespace AuditStage

/-- A position is started, may be watched once, and is closed when its watch is resolved. -/
def advance : AuditStage → TransitionEvent → Option AuditStage
  | closed, .positionNormalStarted _ _ _ => some (opened .unused)
  | opened .unused, .failureWatchStarted _ _ _ _ => some (opened .watching)
  | opened .watching, .failureWatchRecovered _ _ => some (opened .resolved)
  | opened .watching, .failureWatchTimeoutSignal _ _ => some (opened .resolved)
  | opened .watching, .failureWatchResolvedBy _ _ _ => some (opened .resolved)
  | opened .unused, .positionClosed _ _ _ => some closed
  | opened .resolved, .positionClosed _ _ _ => some closed
  | _, _ => none

/-- Where the events lead, if each of them has its place. -/
def after (stage : AuditStage) (events : List TransitionEvent) : Option AuditStage :=
  events.foldlM advance stage

def held : AuditStage → Bool
  | closed => false
  | opened _ => true

variable {stage last : AuditStage} {events later : List TransitionEvent} {event : TransitionEvent}

theorem after_snoc (h : stage.after events = some last) (event : TransitionEvent) :
    stage.after (events ++ [event]) = last.advance event := by
  rw [after, List.foldlM_append, show events.foldlM advance stage = some last from h]
  cases hnext : last.advance event <;> simp [hnext]

theorem ofPosition_cons (h : event.startsPosition = false) :
    ofPosition (event :: later) = event :: ofPosition later := by
  simp [ofPosition, h]

/-- A watch that is started is watching. -/
theorem of_startsWatch {next : AuditStage} (h : event.startsWatch = true)
    (hnext : stage.advance event = some next) : next = opened .watching := by
  cases event with
  | failureWatchStarted _ _ _ _ =>
    cases stage with
    | closed => cases hnext
    | opened watch =>
      cases watch with
      | unused => exact (Option.some.inj hnext).symm
      | watching => cases hnext
      | resolved => cases hnext
  | _ => cases h

theorem ofPosition_closed (h : closed.after later = some last) : ofPosition later = [] := by
  cases later with
  | nil => rfl
  | cons event later =>
    cases event with
    | positionNormalStarted _ _ _ => rfl
    | _ => cases h

/-- The position of a resolved watch may be closed. -/
theorem ofPosition_resolved (h : (opened .resolved).after later = some last) :
    (later = [] ∧ last.held = true) ∨
    ∃ close, close.closesPosition = true ∧ ofPosition later = [close] := by
  cases later with
  | nil =>
    cases h
    exact Or.inl ⟨rfl, rfl⟩
  | cons event later =>
    cases event with
    | positionClosed timestamp reason price =>
      refine Or.inr ⟨.positionClosed timestamp reason price, rfl, ?_⟩
      rw [ofPosition_cons rfl, ofPosition_closed (show closed.after later = some last from h)]
    | _ => cases h

/-- A watch is resolved before its position may be closed. -/
theorem ofPosition_watching (h : (opened .watching).after later = some last) :
    (later = [] ∧ last.held = true) ∨
    ∃ resolution rest, later = resolution :: rest ∧ resolution.resolvesWatch = true ∧
      (opened .resolved).after rest = some last := by
  cases later with
  | nil =>
    cases h
    exact Or.inl ⟨rfl, rfl⟩
  | cons event later =>
    cases event with
    | failureWatchRecovered _ _ => exact Or.inr ⟨_, later, rfl, rfl, h⟩
    | failureWatchTimeoutSignal _ _ => exact Or.inr ⟨_, later, rfl, rfl, h⟩
    | failureWatchResolvedBy _ _ _ => exact Or.inr ⟨_, later, rfl, rfl, h⟩
    | _ => cases h

/-- A position is closed, or watched. -/
theorem ofPosition_unused (h : (opened .unused).after later = some last) :
    (later = [] ∧ last.held = true) ∨
    (∃ close, close.closesPosition = true ∧ ofPosition later = [close]) ∨
    ∃ start rest, later = start :: rest ∧ start.startsWatch = true ∧
      (opened .watching).after rest = some last := by
  cases later with
  | nil =>
    cases h
    exact Or.inl ⟨rfl, rfl⟩
  | cons event later =>
    cases event with
    | failureWatchStarted _ _ _ _ => exact Or.inr (Or.inr ⟨_, later, rfl, rfl, h⟩)
    | positionClosed timestamp reason price =>
      refine Or.inr (Or.inl ⟨.positionClosed timestamp reason price, rfl, ?_⟩)
      rw [ofPosition_cons rfl, ofPosition_closed (show closed.after later = some last from h)]
    | _ => cases h

/-- The events of a position whose watch is resolved: none, or the close. -/
theorem counts_resolved (h : (opened .resolved).after later = some last) :
    (ofPosition later).countP resolvesWatch = 0 ∧
      ((last.held = false ∨ later.any startsPosition = true) →
        (ofPosition later).countP closesPosition = 1) := by
  rcases ofPosition_resolved h with ⟨rfl, hheld⟩ | ⟨close, hclose, hown⟩
  · refine ⟨rfl, fun hended => ?_⟩
    rw [hheld] at hended
    simp at hended
  · rw [hown]
    refine ⟨?_, fun _ => ?_⟩
    · cases close <;> first | rfl | cases hclose
    · cases close <;> first | rfl | cases hclose

theorem counts_watching (h : (opened .watching).after later = some last) :
    (ofPosition later).countP resolvesWatch ≤ 1 ∧
      ((last.held = false ∨ later.any startsPosition = true) →
        (ofPosition later).countP closesPosition = 1 ∧
          (ofPosition later).countP resolvesWatch = 1 ∧
          ((ofPosition later).takeWhile fun event => !event.closesPosition).countP resolvesWatch =
            1) := by
  rcases ofPosition_watching h with ⟨rfl, hheld⟩ | ⟨resolution, rest, rfl, hresolves, hrest⟩
  · refine ⟨Nat.zero_le _, fun hended => ?_⟩
    rw [hheld] at hended
    simp at hended
  · obtain ⟨hnone, hcloses⟩ := counts_resolved hrest
    obtain ⟨hstarts, hopen⟩ : resolution.startsPosition = false ∧ resolution.closesPosition = false := by
      cases resolution <;> first | exact ⟨rfl, rfl⟩ | cases hresolves
    rw [ofPosition_cons hstarts, List.countP_cons_of_pos hresolves, hnone]
    refine ⟨le_rfl, fun hended => ?_⟩
    rw [List.any_cons, hstarts, Bool.false_or] at hended
    rw [List.countP_cons_of_neg (by simp [hopen]), hcloses hended,
      List.takeWhile_cons_of_pos (by simp [hopen]), List.countP_cons_of_pos hresolves]
    refine ⟨rfl, rfl, congrArg (· + 1) (Nat.le_zero.mp ?_)⟩
    rw [← hnone]
    exact (List.takeWhile_sublist _).countP_le

theorem counts_unused (h : (opened .unused).after later = some last)
    (hended : last.held = false ∨ later.any startsPosition = true) :
    (ofPosition later).countP closesPosition = 1 := by
  rcases ofPosition_unused h with
    ⟨rfl, hheld⟩ | ⟨close, hclose, hown⟩ | ⟨start, rest, rfl, hstart, hrest⟩
  · rw [hheld] at hended
    simp at hended
  · rw [hown, List.countP_cons_of_pos hclose]
    rfl
  · obtain ⟨hstarts, hopen⟩ : start.startsPosition = false ∧ start.closesPosition = false := by
      cases start <;> first | exact ⟨rfl, rfl⟩ | cases hstart
    rw [List.any_cons, hstarts, Bool.false_or] at hended
    rw [ofPosition_cons hstarts, List.countP_cons_of_neg (by simp [hopen])]
    exact ((counts_watching hrest).2 hended).1

theorem exists_after_of_append {first : List TransitionEvent}
    (h : stage.after (first ++ event :: later) = some last) :
    ∃ mid next : AuditStage, mid.advance event = some next ∧ next.after later = some last := by
  rw [after, List.foldlM_append] at h
  obtain ⟨mid, -, hrest⟩ := Option.bind_eq_some_iff.mp h
  rw [List.foldlM_cons] at hrest
  obtain ⟨next, hnext, hlater⟩ := Option.bind_eq_some_iff.mp hrest
  exact ⟨mid, next, hnext, hlater⟩

/-- Events that all have their place are a complete audit. -/
theorem auditComplete (h : closed.after events = some last) : AuditComplete events last.held where
  closed := by
    rintro first start later rfl hstart hended
    obtain ⟨mid, next, hnext, hlater⟩ := exists_after_of_append h
    obtain rfl : next = opened .unused := by
      cases start with
      | positionNormalStarted _ _ _ =>
        cases mid with
        | closed => exact (Option.some.inj hnext).symm
        | opened watch => cases watch <;> cases hnext
      | _ => cases hstart
    exact counts_unused hlater hended
  resolved := by
    rintro first start later rfl hstart hended
    obtain ⟨mid, next, hnext, hlater⟩ := exists_after_of_append h
    exact ((counts_watching (of_startsWatch hstart hnext ▸ hlater)).2 hended).2
  once := by
    rintro first start later rfl hstart
    obtain ⟨mid, next, hnext, hlater⟩ := exists_after_of_append h
    exact (counts_watching (of_startsWatch hstart hnext ▸ hlater)).1

end AuditStage

/-! ### The audit of the calls -/

namespace PositionManagement

open AuditStage

/-- A call of `should_exit` that resolves a watch again, which has its resolution. -/
def ResolvesAgain (management : PositionManagement) (candle : BacktestCandle StrategyIndicators)
    (indicators : StrategyIndicators) (hardExit : Option Signal) : Prop :=
  management.positionState = some .failureWatch ∧ management.failureWatchResolution ≠ none ∧
    (hardExit ≠ none ∨ management.lastPositionObservedTime ≠ some candle.openTime ∧
      (management.recovered candle indicators = .ok true ∨
        failureWatchMaxBars ≤ management.failureWatchBars + 1 ∧
          management.failureWatchResolution ≠ some .timeoutSignal))

/-- What is stored of a position at a stage of its audit. -/
inductive Stands (management : PositionManagement) : AuditStage → Prop
  | closed : Stands management .closed
  | unused (state : management.positionState = some .normalPosition)
      (unused : management.failureWatchUsed = false) : Stands management (.opened .unused)
  | watching (state : management.positionState = some .failureWatch)
      (used : management.failureWatchUsed = true)
      (unresolved : management.failureWatchResolution = none) : Stands management (.opened .watching)
  | resolved (used : management.failureWatchUsed = true)
      (resolved : management.failureWatchResolution ≠ none) : Stands management (.opened .resolved)

/-- The events of a symbol audit its positions so far. -/
def Audited (management : PositionManagement) (held : Bool) : Prop :=
  ∃ stage, AuditStage.closed.after management.transitionEvents = some stage ∧ stage.held = held ∧
    management.Stands stage

variable {strategy : StrategyIdentity} {candle : BacktestCandle StrategyIndicators}
  {indicators : StrategyIndicators} {position : PositionState} {signal : Signal} {fill : Fill}
  {management after : PositionManagement} {hardExit answer : Option Signal} {level : Decimal}

theorem Audited.auditComplete {held : Bool} (h : management.Audited held) :
    AuditComplete management.transitionEvents held := by
  obtain ⟨stage, hstage, rfl, -⟩ := h
  exact AuditStage.auditComplete hstage

theorem Audited.reset (h : management.Audited false) : management.reset.Audited false := by
  obtain ⟨stage, hstage, hheld, -⟩ := h
  cases stage with
  | closed => exact ⟨.closed, hstage, rfl, .closed⟩
  | opened watch => cases hheld

theorem Audited.startPosition (h : management.Audited false)
    (hstarted : management.startPosition signal fill = .ok after) : after.Audited true := by
  obtain ⟨stage, hstage, hheld, -⟩ := h
  cases stage with
  | opened watch => cases hheld
  | closed =>
    unfold PositionManagement.startPosition at hstarted
    split at hstarted
    · cases hstarted
    split at hstarted
    · cases hstarted
    · cases hstarted
      exact ⟨.opened .unused, after_snoc hstage _, rfl, .unused rfl rfl⟩

/-- A position that is sold is not being watched, or its watch is resolved. -/
theorem Audited.closePosition (h : management.Audited true)
    (hleaving : management.positionState = some .failureWatch →
      management.failureWatchResolution ≠ none) :
    (management.closePosition signal fill).Audited false := by
  obtain ⟨stage, hstage, hheld, hstands⟩ := h
  refine ⟨.closed, (after_snoc hstage _).trans ?_, rfl, .closed⟩
  cases hstands with
  | closed => cases hheld
  | unused _ _ => rfl
  | watching state _ unresolved => exact absurd unresolved (hleaving state)
  | resolved _ _ => rfl

theorem Stands.congr {stage : AuditStage} (h : management.Stands stage)
    (hstate : after.positionState = management.positionState)
    (hused : after.failureWatchUsed = management.failureWatchUsed)
    (hresolution : after.failureWatchResolution = management.failureWatchResolution) :
    after.Stands stage := by
  cases h with
  | closed => exact .closed
  | unused state unused => exact .unused (hstate.trans state) (hused.trans unused)
  | watching state used unresolved =>
    exact .watching (hstate.trans state) (hused.trans used) (hresolution.trans unresolved)
  | resolved used resolved => exact .resolved (hused.trans used) (hresolution ▸ resolved)

theorem Audited.congr {held : Bool} (h : management.Audited held)
    (hevents : after.transitionEvents = management.transitionEvents)
    (hstate : after.positionState = management.positionState)
    (hused : after.failureWatchUsed = management.failureWatchUsed)
    (hresolution : after.failureWatchResolution = management.failureWatchResolution) :
    after.Audited held := by
  obtain ⟨stage, hstage, hheld, hstands⟩ := h
  exact ⟨stage, hevents ▸ hstage, hheld, hstands.congr hstate hused hresolution⟩

/-- A watch without a resolution gets one. -/
theorem Audited.resolves {event : TransitionEvent} (h : management.Audited true)
    (hwatch : management.positionState = some .failureWatch)
    (hunresolved : management.failureWatchResolution = none)
    (hadvance : (AuditStage.opened .watching).advance event = some (.opened .resolved))
    (hevents : after.transitionEvents = management.transitionEvents ++ [event])
    (hused : after.failureWatchUsed = management.failureWatchUsed)
    (hresolved : after.failureWatchResolution ≠ none) : after.Audited true := by
  obtain ⟨stage, hstage, hheld, hstands⟩ := h
  refine ⟨.opened .resolved, ?_, rfl, .resolved ?_ hresolved⟩
  · rw [hevents, after_snoc hstage]
    cases hstands with
    | closed => cases hheld
    | unused state _ => cases state.symm.trans hwatch
    | watching _ _ _ => exact hadvance
    | resolved _ resolved => exact absurd hunresolved resolved
  · rw [hused]
    cases hstands with
    | closed => cases hheld
    | unused state _ => cases state.symm.trans hwatch
    | watching _ used _ => exact used
    | resolved used _ => exact used

theorem Audited.markWatchHardExit {exit : Signal} {timestamp : Datetime}
    (h : management.Audited true)
    (honce : management.positionState = some .failureWatch →
      management.failureWatchResolution = none) :
    (management.markWatchHardExit exit timestamp).Audited true := by
  unfold PositionManagement.markWatchHardExit
  split
  · exact h
  · rename_i hwatch
    have hwatch := not_not.mp hwatch
    exact h.resolves hwatch (honce hwatch) rfl rfl rfl (Option.some_ne_none _)

theorem Audited.timeOut {timestamp : Datetime} (h : management.Audited true)
    (hwatch : management.positionState = some .failureWatch)
    (honce : management.failureWatchResolution ≠ some .timeoutSignal →
      management.failureWatchResolution = none) : (management.timeOut timestamp).Audited true := by
  unfold PositionManagement.timeOut
  split
  · exact h
  · rename_i hfirst
    exact h.resolves hwatch (honce hfirst) rfl rfl rfl (Option.some_ne_none _)

/-- A call of `should_exit` keeps the audit, unless it resolves a watch again. -/
theorem Audited.managed (h : management.Audited true)
    (hlevel : management.breakoutLevel = some level)
    (honce : ¬management.ResolvesAgain candle indicators hardExit)
    (hmanaged : Managed strategy candle indicators position level management hardExit after answer) :
    after.Audited true := by
  have hunresolved : management.positionState = some .failureWatch →
      (hardExit ≠ none ∨ management.lastPositionObservedTime ≠ some candle.openTime ∧
        (management.recovered candle indicators = .ok true ∨
          failureWatchMaxBars ≤ management.failureWatchBars + 1 ∧
            management.failureWatchResolution ≠ some .timeoutSignal)) →
      management.failureWatchResolution = none := by
    intro hwatch hagain
    by_contra hresolved
    exact honce ⟨hwatch, hresolved, hagain⟩
  cases hmanaged with
  | preempted exit =>
    exact h.markWatchHardExit fun hwatch => hunresolved hwatch (.inl (Option.some_ne_none _))
  | repeated _ => exact h
  | kept _ _ _ => exact h.congr rfl rfl rfl rfl
  | started trigger _ state unused _ _ =>
    obtain ⟨stage, hstage, hheld, hstands⟩ := h
    cases hstands with
    | closed => cases hheld
    | unused _ _ => exact ⟨.opened .watching, after_snoc hstage _, rfl, .watching rfl rfl rfl⟩
    | watching watching _ _ => cases watching.symm.trans state
    | resolved used _ => cases used.symm.trans unused
  | recovered new state reclaims =>
    obtain ⟨recovered, hrecovered, hiff⟩ := recovered_eq candle indicators hlevel
    rw [hiff.mpr reclaims] at hrecovered
    exact h.resolves state (hunresolved state (.inr ⟨new, .inl hrecovered⟩)) rfl rfl rfl
      (Option.some_ne_none _)
  | timedOut new state _ bars =>
    have hwatched : ((management.observed candle.openTime).watched).Audited true :=
      h.congr rfl rfl rfl rfl
    exact hwatched.timeOut state fun hfirst => hunresolved state (.inr ⟨new, .inr ⟨bars, hfirst⟩⟩)
  | watched _ _ _ _ => exact h.congr rfl rfl rfl rfl

/-- An exit is signalled from no watch without a resolution. -/
theorem Managed.leaving
    (h : Managed strategy candle indicators position level management hardExit after answer)
    (hanswer : answer ≠ none) (hwatch : after.positionState = some .failureWatch) :
    after.failureWatchResolution ≠ none := by
  cases h with
  | preempted exit =>
    unfold markWatchHardExit at hwatch ⊢
    split at hwatch
    · rename_i hnormal
      exact absurd hwatch hnormal
    · rename_i hstate
      rw [if_neg hstate]
      exact Option.some_ne_none _
  | timedOut _ _ _ _ =>
    unfold timeOut
    split
    · rename_i htimeout
      rw [htimeout]
      exact Option.some_ne_none _
    · exact Option.some_ne_none _
  | _ => exact absurd rfl hanswer

end PositionManagement

/-! ### The audit of a run -/

section Run

variable (run : BacktestRun BreakoutRetestV2State StrategyIndicators) (strategy : StrategyIdentity)
  (engine : BacktestEngine)

/-- `should_exit` is called on the candle at `index`, and resolves a watch again. -/
def ResolvesAgain (index : ℕ) : Prop :=
  ∃ candle indicators state held position, run.candles[index]? = some candle ∧
    run.indicators index candle = .ok indicators ∧
    (run.throughLevels index engine).value? = some (false, state) ∧
    (state.engine.markedAt candle).portfolio.getPosition candle.symbol = some held ∧
    BacktestRun.positionState (state.engine.markedAt candle).portfolio held = .ok position ∧
    (state.strategyState.management candle.symbol).ResolvesAgain candle indicators
      (state.strategyState.retest.shouldExit strategy candle indicators position).2

/-- The events audit the positions in every symbol, and a sale is pending only without a watch, or when
the watch has its resolution. -/
structure Audits (session : StrategySession BreakoutRetestV2State) : Prop
    extends HoldsManaged session where
  audited : ∀ symbol, (session.strategyState.management symbol).Audited (session.held symbol)
  leaving : ∀ signal, session.pending = some signal →
    (SignalAction.ofValue? signal.action).map SignalAction.side = some .sell →
    (session.strategyState.management signal.symbol).positionState = some .failureWatch →
    (session.strategyState.management signal.symbol).failureWatchResolution ≠ none

variable {run strategy engine} {candle : BacktestCandle StrategyIndicators}
  {indicators : StrategyIndicators} {shown : Option PositionState}
  {session opened after : StrategySession BreakoutRetestV2State}
  {levelled : Bool × StrategySession BreakoutRetestV2State} {index : ℕ}

theorem PositionManagement.Opened.audited {pending : Option Signal} {symbol : String} {held held' : Bool}
    {management after : PositionManagement}
    (h : PositionManagement.Opened pending symbol management held after held')
    (haudited : management.Audited held)
    (hleaving : ∀ signal, pending = some signal → signal.symbol = symbol →
      (SignalAction.ofValue? signal.action).map SignalAction.side = some .sell →
      management.positionState = some .failureWatch → management.failureWatchResolution ≠ none) :
    after.Audited held' := by
  cases h with
  | same => exact haudited
  | bought flat starts => exact (flat ▸ haudited).startPosition starts
  | sold fill isPending own side wasHeld =>
    exact (wasHeld ▸ haudited).closePosition (hleaving _ isPending own side)

theorem PositionManagement.Closed.audited {hardExit : PositionState → Option Signal} {symbol : String}
    {closedByLevel held held' : Bool} {management after : PositionManagement}
    (h : PositionManagement.Closed strategy candle indicators shown hardExit symbol closedByLevel
      management held after held') (haudited : management.Audited held)
    (hlevel : closedByLevel = false)
    (honce : ∀ position, shown = some position → symbol = candle.symbol →
      ¬management.ResolvesAgain candle indicators (hardExit position)) : after.Audited held' := by
  cases h with
  | same => exact haudited
  | stopped byLevel _ => cases hlevel.symm.trans byLevel
  | settled flat => exact (flat ▸ haudited).reset
  | managed isShown own _ wasHeld isLevel managed =>
    exact (wasHeld ▸ haudited).managed isLevel (honce _ isShown own) managed

theorem Audits.turn (h : Audits session)
    (hturn : run.ShowsTurn (breakoutRetestV2Strategy strategy) engine index candle indicators shown
      session opened levelled after)
    (hlevel : ¬run.ClosesByLevel engine index) (honce : ¬ResolvesAgain run strategy engine index) :
    Audits after := by
  have hlevelled : levelled.1 = false := Bool.not_eq_true _ ▸ hturn.closesByLevel_iff.not.mp hlevel
  have hopened : ∀ symbol,
      (opened.strategyState.management symbol).Audited (opened.held symbol) := fun symbol =>
    (h.opens hturn.turn.opens symbol).audited (h.audited symbol) fun signal hpending hown hside => by
      subst hown
      exact h.leaving signal hpending hside
  have hmanaged := h.isManaged_opened hturn.turn.opens
  have hclosed := closed_of_closes hmanaged hturn.turn.levels hturn.turn.closes
  have hcalled : ∀ position, shown = some position →
      ¬(opened.strategyState.management candle.symbol).ResolvesAgain candle indicators
        (levelled.2.strategyState.retest.shouldExit strategy candle indicators position).2 := by
    intro position hshown hagain
    obtain ⟨state, hvalue, hshows, hposition⟩ := hturn.levels
    obtain ⟨held, hheld, hstate⟩ := hposition position hshown
    rw [hlevelled] at hvalue
    refine honce ⟨candle, indicators, state, held, position, hturn.own, hturn.provided, hvalue, hheld,
      hstate, ?_⟩
    rw [hshows.strategyState]
    have hsame : levelled.2.strategyState = opened.strategyState := by
      cases hturn.turn.levels <;> rfl
    rw [hsame] at hagain ⊢
    exact hagain
  refine ⟨h.toHoldsManaged.turn hturn.turn, fun symbol => ?_, ?_⟩
  · refine (hclosed symbol).audited (hopened symbol) hlevelled fun position hshown hown => ?_
    subst hown
    exact hcalled position hshown
  · intro signal hpending hside
    have hcloses := hturn.turn.closes
    obtain ⟨outcome, houtcome⟩ : ∃ outcome, outcome = Except.ok (ε := BacktestError) after := ⟨_, rfl⟩
    rw [← houtcome] at hcloses
    cases hturn.turn.levels with
    | closed _ => cases hlevelled
    | untouched =>
      obtain _ | hcall := hcloses
      cases hcall with
      | entered hflat _ =>
        obtain ⟨⟨entered, bought⟩, hanswer, rfl⟩ := map_eq_ok_iff.mp houtcome
        obtain ⟨hentered, -⟩ := BreakoutRetestV2State.retest_shouldEnter strategy candle indicators
          hanswer
        obtain ⟨_, _, _, _, hsignal⟩ := BreakoutRetestState.shouldEnter_ok hentered
        obtain ⟨-, haction, -⟩ := hsignal signal hpending
        rw [haction] at hside
        cases hside
      | managed hheld =>
        obtain ⟨⟨answered, exit⟩, hanswer, rfl⟩ := map_eq_ok_iff.mp houtcome
        obtain ⟨managed, level, -, hmanages, hmanagement, hclose⟩ :=
          BreakoutRetestV2State.management_manage (hmanaged _ hheld) hanswer
        obtain rfl : exit = some signal := hpending
        have hown : signal.symbol = candle.symbol := (hclose signal rfl).1
        simp only [StrategySession.called, hmanagement, hown, Function.update_self]
        exact hmanages.leaving (Option.some_ne_none _)

end Run

/-- When no level and no liquidation closes a position, and no call resolves a watch again, the events
are a complete audit of the positions in every symbol, at every candle and at the end of the run. -/
theorem audit_complete (run : BacktestRun BreakoutRetestV2State StrategyIndicators)
    (strategy : StrategyIdentity) (config : BacktestConfig) (riskEngine : RiskEngine)
    (draws : ℕ → Decimal) (hstrategy : run.strategy = .base (breakoutRetestV2Strategy strategy).base)
    (hinitial : run.initialState = {})
    (hlevels : ∀ index, ¬run.ClosesByLevel (.new config riskEngine draws) index)
    (honce : ∀ index, ¬ResolvesAgain run strategy (.new config riskEngine draws) index) :
    (∀ count ≤ run.candles.length, ∀ state,
      (run.turns count (run.start (.new config riskEngine draws))).value? = some state →
      ∀ symbol, AuditComplete (state.strategyState.management symbol).transitionEvents
        (state.engine.portfolio.getPosition symbol).isSome) ∧
    ∀ last ended,
      (run.turns run.candles.length (run.start (.new config riskEngine draws))).value? = some last →
      (run.execute (.new config riskEngine draws)).value? = some ended →
      (∀ symbol, (last.engine.portfolio.getPosition symbol).isSome = true →
        (ended.portfolio.getPosition symbol).isSome = true) →
      ∀ symbol, AuditComplete (last.strategyState.management symbol).transitionEvents
        (ended.portfolio.getPosition symbol).isSome := by
  have hstart : Audits { strategyState := run.initialState } := by
    refine ⟨⟨fun symbol hheld => (nomatch hheld), fun signal hpending => (nomatch hpending)⟩,
      fun symbol => ?_, fun signal hpending => (nomatch hpending)⟩
    rw [hinitial]
    exact ⟨.closed, rfl, rfl, .closed⟩
  have hkept : run.KeptBySession (breakoutRetestV2Strategy strategy) (.new config riskEngine draws)
      (fun _ => True) fun _ => Audits :=
    ⟨hstart, fun hturn haudits => haudits.turn hturn (hlevels _) (honce _), fun _ _ _ => trivial,
      fun _ _ => trivial⟩
  have hturns : ∀ count ≤ run.candles.length, ∀ state,
      (run.turns count (run.start (.new config riskEngine draws))).value? = some state →
      ∀ symbol, AuditComplete (state.strategyState.management symbol).transitionEvents
        (state.engine.portfolio.getPosition symbol).isSome := by
    intro count hcount state hstate symbol
    obtain ⟨session, hshows, haudits⟩ :=
      (BacktestRun.ensures_turns hstrategy config riskEngine draws hkept hcount).value hstate
    rw [hshows.strategyState, hshows.held]
    exact (haudits.audited symbol).auditComplete
  refine ⟨hturns, fun last ended hlast hended hunsold symbol => ?_⟩
  rw [BacktestRun.execute, Traced.value?_bind, hlast, Option.bind_some] at hended
  have hopened := (BacktestRun.ensures_liquidate last.engine).value hended symbol
  rw [Bool.eq_iff_iff.mpr ⟨hopened, hunsold symbol⟩]
  exact hturns _ le_rfl last hlast symbol

/-! ### A close that is not recorded -/

/-- A backtest of Breakout Retest v2 over the candles. -/
def retestV2Run (candles : List (BacktestCandle StrategyIndicators)) :
    BacktestRun BreakoutRetestV2State StrategyIndicators :=
  { candles, strategy := .base (breakoutRetestV2Strategy retestIdentity).base, initialState := {}
    clock := fun _ => 0, runId := "retest" }

/-- No level closes a position, and no position is watched, checked candle by candle. -/
def neverWatched (run : BacktestRun BreakoutRetestV2State StrategyIndicators) (engine : BacktestEngine) :
    Bool :=
  run.candles.zipIdx.all fun item =>
    (run.throughLevels item.2 engine).value?.all fun levels => !levels.1 &&
      decide ((levels.2.strategyState.management item.1.symbol).positionState ≠ some .failureWatch)

theorem neverWatched_levels {run : BacktestRun BreakoutRetestV2State StrategyIndicators}
    {engine : BacktestEngine} (h : neverWatched run engine = true) {index : ℕ}
    {candle : BacktestCandle StrategyIndicators} (hcandle : run.candles[index]? = some candle)
    {levels : Bool × BacktestState BreakoutRetestV2State}
    (hlevels : (run.throughLevels index engine).value? = some levels) :
    levels.1 = false ∧
      (levels.2.strategyState.management candle.symbol).positionState ≠ some .failureWatch := by
  have hitem : (candle, index) ∈ run.candles.zipIdx := by
    rw [List.mk_mem_zipIdx_iff_getElem?]
    exact hcandle
  have hcheck := List.all_eq_true.mp h (candle, index) hitem
  simp only [hlevels, Option.all_some, Bool.and_eq_true, Bool.not_eq_true', decide_eq_true_eq] at hcheck
  exact hcheck

theorem not_closesByLevel_of_neverWatched
    {run : BacktestRun BreakoutRetestV2State StrategyIndicators} {engine : BacktestEngine}
    (h : neverWatched run engine = true) (index : ℕ) : ¬run.ClosesByLevel engine index := by
  rintro ⟨state, hvalue⟩
  cases hcandle : run.candles[index]? with
  | some candle => cases (neverWatched_levels h hcandle hvalue).1
  | none =>
    simp only [BacktestRun.throughLevels, hcandle, Traced.value?_bind, Option.bind_eq_some_iff] at hvalue
    obtain ⟨opened, -, hpure⟩ := hvalue
    cases hpure

theorem not_resolvesAgain_of_neverWatched
    {run : BacktestRun BreakoutRetestV2State StrategyIndicators} {strategy : StrategyIdentity}
    {engine : BacktestEngine} (h : neverWatched run engine = true) (index : ℕ) :
    ¬ResolvesAgain run strategy engine index := by
  rintro ⟨candle, indicators, state, held, position, hcandle, -, hvalue, -, -, hwatch, -⟩
  exact (neverWatched_levels h hcandle hvalue).2 hwatch

/-- A breakout over 100, its retest, the purchase, and an exit in `TREND_DOWN`. -/
def exitedCandles : List (BacktestCandle StrategyIndicators) :=
  let exit := rangeCandle 23 101 100 100
  (List.range 20).map (fun index => rangeCandle index 100 99 100) ++
    [rangeCandle 20 101 100 101, rangeCandle 21 101 100 100, rangeCandle 22 101 100 100,
      { exit with indicators := { exit.indicators with regime := some trendDown } },
      rangeCandle 24 101 100 100]

/-- After the turns of the run, the events of the symbol that start positions, and no position is held. -/
theorem exists_flat {run : BacktestRun BreakoutRetestV2State StrategyIndicators}
    {engine : BacktestEngine} {turns : ℕ} {starts : List Bool}
    (h : ((run.turns turns (run.start engine)).value?.any fun state =>
      decide ((state.strategyState.management "BTCUSDT").transitionEvents.map startsPosition = starts) &&
        (state.engine.portfolio.getPosition "BTCUSDT").isNone) = true) :
    ∃ state, (run.turns turns (run.start engine)).value? = some state ∧
      (state.strategyState.management "BTCUSDT").transitionEvents.map startsPosition = starts ∧
      (state.engine.portfolio.getPosition "BTCUSDT").isSome = false := by
  obtain ⟨state, hstate, hall⟩ := (Option.any_eq_true _ _).mp h
  simp only [Bool.and_eq_true, decide_eq_true_eq] at hall
  exact ⟨state, hstate, hall.1, by rw [← Option.not_isNone, hall.2]; rfl⟩

theorem audit_complete_exited : ∃ state,
    ((retestV2Run exitedCandles).turns 25
      ((retestV2Run exitedCandles).start (.new {} {} fun _ => 0))).value? = some state ∧
    (state.strategyState.management "BTCUSDT").transitionEvents.map startsPosition = [true, false] ∧
    AuditComplete (state.strategyState.management "BTCUSDT").transitionEvents false := by
  have hnever : neverWatched (retestV2Run exitedCandles) (.new {} {} fun _ => 0) = true := by
    decide +kernel
  obtain ⟨state, hstate, hstarts, hflat⟩ : ∃ state,
      ((retestV2Run exitedCandles).turns 25
        ((retestV2Run exitedCandles).start (.new {} {} fun _ => 0))).value? = some state ∧
      (state.strategyState.management "BTCUSDT").transitionEvents.map startsPosition =
        [true, false] ∧
      (state.engine.portfolio.getPosition "BTCUSDT").isSome = false :=
    exists_flat (by decide +kernel)
  refine ⟨state, hstate, hstarts, ?_⟩
  rw [← hflat]
  exact (audit_complete (retestV2Run exitedCandles) retestIdentity {} {} (fun _ => 0) rfl rfl
    (not_closesByLevel_of_neverWatched hnever) (not_resolvesAgain_of_neverWatched hnever)).1 25
    (by decide) state hstate "BTCUSDT"

/-- The position that is stopped on candle 23 has been started, and its close is not recorded. -/
theorem stopped_position_unrecorded : ¬∀ (run : BacktestRun BreakoutRetestV2State StrategyIndicators)
    (strategy : StrategyIdentity) (config : BacktestConfig) (riskEngine : RiskEngine)
    (draws : ℕ → Decimal), run.strategy = .base (breakoutRetestV2Strategy strategy).base →
    run.initialState = {} → ∀ count ≤ run.candles.length, ∀ state,
      (run.turns count (run.start (.new config riskEngine draws))).value? = some state →
      ∀ symbol, AuditComplete (state.strategyState.management symbol).transitionEvents
        (state.engine.portfolio.getPosition symbol).isSome := by
  intro h
  obtain ⟨state, hstate, hstarts, hflat⟩ : ∃ state,
      ((retestV2Run stoppedCandles).turns 25
        ((retestV2Run stoppedCandles).start (.new {} {} fun _ => 0))).value? = some state ∧
      (state.strategyState.management "BTCUSDT").transitionEvents.map startsPosition = [true] ∧
      (state.engine.portfolio.getPosition "BTCUSDT").isSome = false :=
    exists_flat (by decide +kernel)
  have haudit := h (retestV2Run stoppedCandles) retestIdentity {} {} (fun _ => 0) rfl rfl 25
    (by decide) state hstate "BTCUSDT"
  obtain ⟨start, hevents, hstart⟩ := List.map_eq_singleton_iff.mp hstarts
  have hcloses := haudit.closed [] start [] hevents hstart (Or.inl hflat)
  cases hcloses

end CryptoTrading
