import CryptoTrading.Kit.Run
import CryptoTrading.Strategies.BreakoutRetestV2

/-! The protocol of `FAILURE_WATCH`, over any calls of `should_exit` after the purchase of a position.
The protocol speaks of the calls that are counted; the strategy keeps two counters and a latch. -/

namespace CryptoTrading

open Kit

/-- The arguments of a call of `should_exit`. -/
structure ExitCall where
  candle : BacktestCandle StrategyIndicators
  indicators : StrategyIndicators
  position : PositionState

/-- A call of `should_exit`: whether an exit of v1 preempts it, the management of the position before
and after it, and what it returns. -/
structure ExitRecord where
  call : ExitCall
  hardExit : Bool
  before : PositionManagement
  after : PositionManagement
  signal : Option Signal

def TransitionEvent.isWatchStarted : TransitionEvent → Bool
  | .failureWatchStarted .. => true
  | _ => false

def TransitionEvent.isWatchRecovered : TransitionEvent → Bool
  | .failureWatchRecovered .. => true
  | _ => false

namespace ExitRecord

variable (record : ExitRecord)

def timestamp : Datetime := record.call.candle.openTime

/-- The events that the call appends. -/
def events : List TransitionEvent :=
  record.after.transitionEvents.drop record.before.transitionEvents.length

def starts : Bool := record.events.any TransitionEvent.isWatchStarted

def recovers : Bool := record.events.any TransitionEvent.isWatchRecovered

/-- The call emits the timeout close. -/
def timesOut : Prop :=
  ∃ signal, record.signal = some signal ∧ signal.action = "close" ∧ signal.reason = timeoutReason

end ExitRecord

/-- A call of `should_exit`, with its record. -/
def BreakoutRetestV2State.exitCall (state : BreakoutRetestV2State) (strategy : StrategyIdentity)
    (call : ExitCall) : Except BacktestError (BreakoutRetestV2State × ExitRecord) :=
  (state.shouldExit strategy call.candle call.indicators call.position).map fun answer =>
    (answer.1, {
      call
      hardExit :=
        (state.retest.shouldExit strategy call.candle call.indicators call.position).2.isSome
      before := state.management call.candle.symbol
      after := answer.1.management call.candle.symbol
      signal := answer.2 })

/-- Calls of `should_exit` one after the other, with their records. -/
def BreakoutRetestV2State.exitCalls (state : BreakoutRetestV2State) (strategy : StrategyIdentity) :
    List ExitCall → Except BacktestError (BreakoutRetestV2State × List ExitRecord)
  | [] => .ok (state, [])
  | call :: rest => do
    let (after, record) ← state.exitCall strategy call
    let (last, log) ← after.exitCalls strategy rest
    return (last, record :: log)

/-! ### The protocol -/

/-- The timestamps of the calls that are counted: those with no hard exit, at another timestamp than the
last that is counted. -/
def countedTimes (log : List ExitRecord) : List Datetime :=
  log.foldl (fun counted record =>
    if record.hardExit = true ∨ counted.getLast? = some record.timestamp then counted
    else counted ++ [record.timestamp]) []

/-- A call is counted, after the calls in `passed`. -/
def Counted (passed : List ExitRecord) (record : ExitRecord) : Prop :=
  record.hardExit = false ∧ (countedTimes passed).getLast? ≠ some record.timestamp

/-- What the protocol says of a call, after the calls in `passed`. -/
structure WatchCall (level : Decimal) (passed : List ExitRecord) (record : ExitRecord) : Prop where
  /-- The watch starts at a counted call, the 24th at the earliest, that closes strictly below the three
  levels. -/
  starts : record.starts = true → Counted passed record ∧
    24 ≤ (countedTimes (passed ++ [record])).length ∧
    PositionManagement.Fails record.call.indicators record.call.candle.close level
  /-- A call that is not counted changes no counter. -/
  uncounted : ¬Counted passed record →
    record.after.positionAgeBars = record.before.positionAgeBars ∧
      record.after.failureWatchBars = record.before.failureWatchBars
  /-- A position that has recovered is not watched again. -/
  recovered : (∃ other ∈ passed, other.recovers = true) → record.starts = false
  /-- A counted call during the watch emits the timeout close if and only if it is the 24th after the
  start, or a later one, and the structure is not reclaimed. -/
  timeout : ∀ first start between, passed = first ++ start :: between → start.starts = true →
    (∀ other ∈ between, other.recovers = false) → Counted passed record →
    (record.timesOut ↔
      (countedTimes (first ++ [start])).length + 24 ≤ (countedTimes (passed ++ [record])).length ∧
      ¬PositionManagement.Reclaims record.call.indicators record.call.candle.close level)

/-- What the protocol says of the calls for a position. -/
structure WatchProtocol (level : Decimal) (log : List ExitRecord) : Prop where
  /-- There is one watch at most. -/
  once : (log.flatMap ExitRecord.events).countP TransitionEvent.isWatchStarted ≤ 1
  call : ∀ passed record later, log = passed ++ record :: later → WatchCall level passed record

theorem countedTimes_snoc (log : List ExitRecord) (record : ExitRecord) :
    countedTimes (log ++ [record]) =
      if record.hardExit = true ∨ (countedTimes log).getLast? = some record.timestamp then
        countedTimes log
      else countedTimes log ++ [record.timestamp] := by
  rw [countedTimes, List.foldl_append]
  rfl

theorem Counted.times {passed : List ExitRecord} {record : ExitRecord} (h : Counted passed record) :
    countedTimes (passed ++ [record]) = countedTimes passed ++ [record.timestamp] := by
  rw [countedTimes_snoc, if_neg]
  rintro (hexit | hlast)
  · rw [h.1] at hexit
    cases hexit
  · exact h.2 hlast

theorem countedTimes_of_not_counted {passed : List ExitRecord} {record : ExitRecord}
    (h : ¬Counted passed record) : countedTimes (passed ++ [record]) = countedTimes passed := by
  rw [countedTimes_snoc, if_pos]
  by_contra hnone
  push Not at hnone
  exact h ⟨Bool.not_eq_true _ ▸ hnone.1, hnone.2⟩

/-! ### The strategy keeps to it -/

/-- Where a position is in its one watch. -/
inductive WatchStage (management : PositionManagement) (passed : List ExitRecord) : Prop
  | unused (state : management.positionState = some .normalPosition)
      (used : management.failureWatchUsed = false)
      (starts : ∀ record ∈ passed, record.starts = false)
      (recovers : ∀ record ∈ passed, record.recovers = false)
  | watching (state : management.positionState = some .failureWatch)
      (used : management.failureWatchUsed = true)
      (recovers : ∀ record ∈ passed, record.recovers = false)
      (bars : ∀ first start between, passed = first ++ start :: between → start.starts = true →
        (countedTimes (first ++ [start])).length + management.failureWatchBars =
          (countedTimes passed).length)
  | recovered (state : management.positionState = some .normalPosition)
      (used : management.failureWatchUsed = true)
      (recovers : ∀ first start between, passed = first ++ start :: between → start.starts = true →
        ∃ other ∈ between, other.recovers = true)

/-- The management of a position, after the calls in `passed`. -/
structure Tracked (level : Decimal) (passed : List ExitRecord) (management : PositionManagement) :
    Prop where
  level : management.breakoutLevel = some level
  age : management.positionAgeBars = (countedTimes passed).length
  last : management.lastPositionObservedTime = (countedTimes passed).getLast?
  once : (passed.flatMap ExitRecord.events).countP TransitionEvent.isWatchStarted =
    management.failureWatchUsed.toNat
  stage : WatchStage management passed

theorem snoc_split {α : Type} {passed first between : List α} {record start : α}
    (h : passed ++ [record] = first ++ start :: between) :
    (∃ rest, between = rest ++ [record] ∧ passed = first ++ start :: rest) ∨
      (between = [] ∧ first = passed ∧ start = record) := by
  rcases List.eq_nil_or_concat between with rfl | ⟨rest, last, rfl⟩
  · obtain ⟨rfl, hlast⟩ := List.append_inj' h rfl
    exact Or.inr ⟨rfl, rfl, (List.singleton_inj.mp hlast).symm⟩
  · rw [List.concat_eq_append, ← List.cons_append, ← List.append_assoc] at h
    obtain ⟨rfl, hlast⟩ := List.append_inj' h rfl
    exact Or.inl ⟨rest, by rw [List.singleton_inj.mp hlast, List.concat_eq_append], rfl⟩

/-- What a hard exit changes of the management, and a timeout. -/
structure PositionManagement.Resolves (management after : PositionManagement) : Prop where
  frame : ∃ resolution time events,
    after = { management with
      failureWatchResolution := resolution, failureWatchResolutionTime := time
      transitionEvents := management.transitionEvents ++ events } ∧
    events.any TransitionEvent.isWatchStarted = false ∧
    events.any TransitionEvent.isWatchRecovered = false

theorem PositionManagement.resolves_markWatchHardExit (management : PositionManagement)
    (signal : Signal) (timestamp : Datetime) :
    management.Resolves (management.markWatchHardExit signal timestamp) := by
  unfold markWatchHardExit
  split
  · exact ⟨_, _, [], by rw [List.append_nil], rfl, rfl⟩
  · exact ⟨_, _, _, rfl, rfl, rfl⟩

theorem PositionManagement.resolves_timeOut (management : PositionManagement) (timestamp : Datetime) :
    management.Resolves (management.timeOut timestamp) := by
  unfold timeOut
  split
  · exact ⟨_, _, [], by rw [List.append_nil], rfl, rfl⟩
  · exact ⟨_, _, _, rfl, rfl, rfl⟩

section Step

variable {strategy : StrategyIdentity} {level : Decimal} {passed : List ExitRecord}
  {record : ExitRecord} {management : PositionManagement}

theorem ExitRecord.events_eq {events : List TransitionEvent}
    (h : record.after.transitionEvents = record.before.transitionEvents ++ events) :
    record.events = events := by
  rw [ExitRecord.events, h, List.drop_left]

theorem countP_flatMap_snoc (passed : List ExitRecord) (record : ExitRecord) :
    ((passed ++ [record]).flatMap ExitRecord.events).countP TransitionEvent.isWatchStarted =
      (passed.flatMap ExitRecord.events).countP TransitionEvent.isWatchStarted +
        record.events.countP TransitionEvent.isWatchStarted := by
  rw [List.flatMap_append, List.countP_append, List.flatMap_singleton]

theorem ExitRecord.countP_events (h : record.starts = false) :
    record.events.countP TransitionEvent.isWatchStarted = 0 := by
  rw [List.countP_eq_zero]
  intro event hevent hstarted
  rw [ExitRecord.starts, List.any_eq_false] at h
  exact h event hevent hstarted

/-- A record that neither starts a watch nor ends one. -/
structure ExitRecord.Quiet (record : ExitRecord) : Prop where
  starts : record.starts = false
  recovers : record.recovers = false

theorem ExitRecord.quiet_of_events (events : List TransitionEvent)
    (h : record.after.transitionEvents = record.before.transitionEvents ++ events)
    (hstarts : events.any TransitionEvent.isWatchStarted = false)
    (hrecovers : events.any TransitionEvent.isWatchRecovered = false) : record.Quiet :=
  ⟨by rw [ExitRecord.starts, ExitRecord.events_eq h, hstarts],
    by rw [ExitRecord.recovers, ExitRecord.events_eq h, hrecovers]⟩

theorem WatchStage.quiet {after : PositionManagement} (h : WatchStage management passed)
    (hquiet : record.Quiet) (hstate : after.positionState = management.positionState)
    (hused : after.failureWatchUsed = management.failureWatchUsed)
    (hbars : management.positionState = some .failureWatch →
      after.failureWatchBars + (countedTimes passed).length =
        management.failureWatchBars + (countedTimes (passed ++ [record])).length) :
    WatchStage after (passed ++ [record]) := by
  have hsplit : ∀ {first start between}, passed ++ [record] = first ++ start :: between →
      start.starts = true → ∃ rest, between = rest ++ [record] ∧ passed = first ++ start :: rest := by
    intro first start between heq hstart
    rcases snoc_split heq with hrest | ⟨-, -, rfl⟩
    · exact hrest
    · rw [hquiet.starts] at hstart
      cases hstart
  cases h with
  | unused state used starts recovers =>
    refine .unused (hstate.trans state) (hused.trans used) ?_ ?_
    · simpa [or_imp, forall_and, hquiet.starts] using starts
    · simpa [or_imp, forall_and, hquiet.recovers] using recovers
  | watching state used recovers bars =>
    refine .watching (hstate.trans state) (hused.trans used) ?_ ?_
    · simpa [or_imp, forall_and, hquiet.recovers] using recovers
    · intro first start between heq hstart
      obtain ⟨rest, -, hpassed⟩ := hsplit heq hstart
      have hfirst := bars first start rest hpassed hstart
      have hnext := hbars state
      omega
  | recovered state used recovers =>
    refine .recovered (hstate.trans state) (hused.trans used) ?_
    intro first start between heq hstart
    obtain ⟨rest, rfl, hpassed⟩ := hsplit heq hstart
    obtain ⟨other, hother, hrecovers⟩ := recovers first start rest hpassed hstart
    exact ⟨other, List.mem_append_left _ hother, hrecovers⟩

theorem WatchStage.used_of_recovers (h : WatchStage management passed)
    (hrecovers : ∃ other ∈ passed, other.recovers = true) : management.failureWatchUsed = true := by
  obtain ⟨other, hother, hrecovered⟩ := hrecovers
  cases h with
  | unused _ _ _ recovers =>
    rw [recovers other hother] at hrecovered
    cases hrecovered
  | watching _ used _ _ => exact used
  | recovered _ used _ => exact used

/-- While the watch that has started lasts, the position is in it. -/
theorem WatchStage.watching_of_started (h : WatchStage management passed) {start : ExitRecord}
    {first between : List ExitRecord} (hpassed : passed = first ++ start :: between)
    (hstart : start.starts = true) (hlasts : ∀ other ∈ between, other.recovers = false) :
    management.positionState = some .failureWatch ∧
      (countedTimes (first ++ [start])).length + management.failureWatchBars =
        (countedTimes passed).length := by
  cases h with
  | unused _ _ starts _ =>
    rw [starts start (by rw [hpassed]; simp)] at hstart
    cases hstart
  | watching state _ _ bars => exact ⟨state, bars first start between hpassed hstart⟩
  | recovered _ _ recovers =>
    obtain ⟨other, hother, hrecovers⟩ := recovers first start between hpassed hstart
    rw [hlasts other hother] at hrecovers
    cases hrecovers

theorem Tracked.counted_iff (h : Tracked level passed management) (record : ExitRecord) :
    Counted passed record ↔ record.hardExit = false ∧
      management.lastPositionObservedTime ≠ some record.timestamp := by
  rw [Counted, h.last]

theorem Tracked.quiet {after : PositionManagement} (h : Tracked level passed management)
    (hquiet : record.Quiet) (hlevel : after.breakoutLevel = management.breakoutLevel)
    (hstate : after.positionState = management.positionState)
    (hused : after.failureWatchUsed = management.failureWatchUsed)
    (hage : after.positionAgeBars = (countedTimes (passed ++ [record])).length)
    (hlast : after.lastPositionObservedTime = (countedTimes (passed ++ [record])).getLast?)
    (hbars : management.positionState = some .failureWatch →
      after.failureWatchBars + (countedTimes passed).length =
        management.failureWatchBars + (countedTimes (passed ++ [record])).length) :
    Tracked level (passed ++ [record]) after where
  level := hlevel.trans h.level
  age := hage
  last := hlast
  once := by rw [countP_flatMap_snoc, record.countP_events hquiet.starts, h.once, hused, Nat.add_zero]
  stage := h.stage.quiet hquiet hstate hused hbars

/-- The clauses of the protocol, in terms of the management before the call. -/
theorem Tracked.watchCall (h : Tracked level passed record.before)
    (hstarts : record.starts = true → record.before.failureWatchUsed = false ∧
      Counted passed record ∧ 24 ≤ record.before.positionAgeBars + 1 ∧
      PositionManagement.Fails record.call.indicators record.call.candle.close level)
    (huncounted : ¬Counted passed record →
      record.after.positionAgeBars = record.before.positionAgeBars ∧
        record.after.failureWatchBars = record.before.failureWatchBars)
    (htimeout : record.before.positionState = some .failureWatch → Counted passed record →
      (record.timesOut ↔ 24 ≤ record.before.failureWatchBars + 1 ∧
        ¬PositionManagement.Reclaims record.call.indicators record.call.candle.close level)) :
    WatchCall level passed record where
  starts hrecord := by
    obtain ⟨-, hcounted, hage, hfails⟩ := hstarts hrecord
    refine ⟨hcounted, ?_, hfails⟩
    rw [hcounted.times, List.length_append, ← h.age]
    exact hage
  uncounted := huncounted
  recovered hrecovers := by
    rw [← Bool.not_eq_true]
    intro hrecord
    have hused := h.stage.used_of_recovers hrecovers
    rw [(hstarts hrecord).1] at hused
    cases hused
  timeout first start between hpassed hstart hlasts hcounted := by
    obtain ⟨hstate, hbars⟩ := h.stage.watching_of_started hpassed hstart hlasts
    rw [htimeout hstate hcounted, hcounted.times, List.length_append, List.length_singleton]
    refine and_congr_left fun _ => ?_
    omega

/-- A call that is not counted changes nothing that the protocol speaks of. -/
theorem Tracked.uncounted (h : Tracked level passed record.before)
    (huncounted : ¬Counted passed record) (hresolves : record.before.Resolves record.after) :
    WatchCall level passed record ∧ Tracked level (passed ++ [record]) record.after := by
  obtain ⟨resolution, time, events, hframe, hstarts, hrecovers⟩ := hresolves.frame
  have hquiet : record.Quiet :=
    ExitRecord.quiet_of_events events (by rw [hframe]) hstarts hrecovers
  have htimes := countedTimes_of_not_counted huncounted
  constructor
  · refine h.watchCall (fun hstarts => ?_) (fun _ => by rw [hframe]; exact ⟨rfl, rfl⟩)
      fun _ hcounted => absurd hcounted huncounted
    rw [hquiet.starts] at hstarts
    cases hstarts
  · rw [hframe]
    exact h.quiet hquiet rfl rfl rfl (htimes ▸ h.age) (htimes ▸ h.last) fun _ => by rw [htimes]

/-- A counted call that leaves the position in its state. -/
theorem Tracked.counted (h : Tracked level passed record.before) (hcounted : Counted passed record)
    (hquiet : record.Quiet) (hlevel : record.after.breakoutLevel = record.before.breakoutLevel)
    (hstate : record.after.positionState = record.before.positionState)
    (hused : record.after.failureWatchUsed = record.before.failureWatchUsed)
    (hage : record.after.positionAgeBars = record.before.positionAgeBars + 1)
    (hlast : record.after.lastPositionObservedTime = some record.timestamp)
    (hbars : record.before.positionState = some .failureWatch →
      record.after.failureWatchBars = record.before.failureWatchBars + 1)
    (htimeout : record.before.positionState = some .failureWatch →
      (record.timesOut ↔ 24 ≤ record.before.failureWatchBars + 1 ∧
        ¬PositionManagement.Reclaims record.call.indicators record.call.candle.close level)) :
    WatchCall level passed record ∧ Tracked level (passed ++ [record]) record.after := by
  have htimes := hcounted.times
  constructor
  · refine h.watchCall (fun hstarts => ?_) (fun huncounted => absurd hcounted huncounted)
      fun hwatch _ => htimeout hwatch
    rw [hquiet.starts] at hstarts
    cases hstarts
  · refine h.quiet hquiet hlevel hstate hused ?_ ?_ fun hwatch => ?_
    · rw [hage, h.age, htimes, List.length_append, List.length_singleton]
    · rw [hlast, htimes, List.getLast?_concat]
    · rw [hbars hwatch, htimes, List.length_append, List.length_singleton]
      omega

/-- The call that starts the watch. -/
theorem Tracked.start (h : Tracked level passed record.before) (hcounted : Counted passed record)
    (hunused : record.before.failureWatchUsed = false) {trigger : WatchTrigger} {age : ℕ}
    {regime : Option String}
    (hevents : record.events = [.failureWatchStarted record.timestamp age trigger regime])
    (hlevel : record.after.breakoutLevel = record.before.breakoutLevel)
    (hstate : record.after.positionState = some .failureWatch)
    (hused : record.after.failureWatchUsed = true)
    (hage : record.after.positionAgeBars = record.before.positionAgeBars + 1)
    (hlast : record.after.lastPositionObservedTime = some record.timestamp)
    (hbars : record.after.failureWatchBars = 0) :
    Tracked level (passed ++ [record]) record.after := by
  have htimes := hcounted.times
  obtain ⟨hnone, hrecovers⟩ : (∀ other ∈ passed, other.starts = false) ∧
      ∀ other ∈ passed, other.recovers = false := by
    cases h.stage with
    | unused _ _ starts recovers => exact ⟨starts, recovers⟩
    | watching _ used _ _ => rw [used] at hunused; cases hunused
    | recovered _ used _ => rw [used] at hunused; cases hunused
  refine ⟨hlevel.trans h.level, ?_, ?_, ?_, .watching hstate hused ?_ ?_⟩
  · rw [hage, h.age, htimes, List.length_append, List.length_singleton]
  · rw [hlast, htimes, List.getLast?_concat]
  · rw [countP_flatMap_snoc, h.once, hunused, hused, hevents]
    rfl
  · have hown : record.recovers = false := by
      rw [ExitRecord.recovers, hevents]
      rfl
    simpa [or_imp, forall_and, hown] using hrecovers
  · intro first start between heq hstart
    rcases snoc_split heq with ⟨rest, -, hpassed⟩ | ⟨-, rfl, rfl⟩
    · rw [hnone start (by rw [hpassed]; simp)] at hstart
      cases hstart
    · rw [hbars, Nat.add_zero]

/-- The call at which the structure is reclaimed. -/
theorem Tracked.recover (h : Tracked level passed record.before) (hcounted : Counted passed record)
    (hwatch : record.before.positionState = some .failureWatch) {bars : ℕ}
    (hevents : record.events = [.failureWatchRecovered record.timestamp bars])
    (hlevel : record.after.breakoutLevel = record.before.breakoutLevel)
    (hstate : record.after.positionState = some .normalPosition)
    (hused : record.after.failureWatchUsed = record.before.failureWatchUsed)
    (hage : record.after.positionAgeBars = record.before.positionAgeBars + 1)
    (hlast : record.after.lastPositionObservedTime = some record.timestamp) :
    Tracked level (passed ++ [record]) record.after := by
  have htimes := hcounted.times
  have hused' : record.before.failureWatchUsed = true := by
    cases h.stage with
    | unused state _ _ _ => rw [state] at hwatch; cases hwatch
    | watching _ used _ _ => exact used
    | recovered _ used _ => exact used
  refine ⟨hlevel.trans h.level, ?_, ?_, ?_, .recovered hstate (hused.trans hused') ?_⟩
  · rw [hage, h.age, htimes, List.length_append, List.length_singleton]
  · rw [hlast, htimes, List.getLast?_concat]
  · rw [countP_flatMap_snoc, h.once, hused, hevents]
    rfl
  · intro first start between heq hstart
    rcases snoc_split heq with ⟨rest, rfl, -⟩ | ⟨-, -, rfl⟩
    · refine ⟨record, by simp, ?_⟩
      rw [ExitRecord.recovers, hevents]
      rfl
    · rw [ExitRecord.starts, hevents] at hstart
      cases hstart

end Step

/-- A call keeps to the protocol. -/
theorem Tracked.step {strategy : StrategyIdentity} {level : Decimal} {passed : List ExitRecord}
    {record : ExitRecord} {hardExit : Option Signal} (h : Tracked level passed record.before)
    (hexit : record.hardExit = hardExit.isSome)
    (hmanaged : PositionManagement.Managed strategy record.call.candle record.call.indicators
      record.call.position level record.before hardExit record.after record.signal) :
    WatchCall level passed record ∧ Tracked level (passed ++ [record]) record.after := by
  have hcounted_iff := h.counted_iff record
  obtain ⟨after, hafter⟩ : ∃ after, record.after = after := ⟨_, rfl⟩
  obtain ⟨signal, hsignal⟩ : ∃ signal, record.signal = signal := ⟨_, rfl⟩
  rw [hafter, hsignal] at hmanaged
  have hsilent : signal = none → ¬record.timesOut := by
    rintro hnone ⟨emitted, hemitted, -⟩
    rw [hsignal, hnone] at hemitted
    cases hemitted
  cases hmanaged with
  | preempted hardExit =>
    refine h.uncounted (fun hcounted => ?_) ?_
    · rw [hexit] at hcounted_iff
      cases (hcounted_iff.mp hcounted).1
    · rw [hafter]
      exact record.before.resolves_markWatchHardExit hardExit record.call.candle.openTime
  | repeated hrepeated =>
    refine h.uncounted (fun hcounted => (hcounted_iff.mp hcounted).2 hrepeated) ?_
    exact ⟨_, _, [], by rw [hafter, List.append_nil], rfl, rfl⟩
  | kept hnew hstate hunfailed =>
    refine h.counted (hcounted_iff.mpr ⟨hexit, hnew⟩) ?_ ?_ ?_ ?_ ?_ ?_ ?_ ?_
    · exact ExitRecord.quiet_of_events [] (by rw [hafter, List.append_nil]; rfl) rfl rfl
    all_goals first | rw [hafter]; rfl | skip
    · intro hwatch
      rw [hstate] at hwatch
      cases hwatch
    · intro hwatch
      rw [hstate] at hwatch
      cases hwatch
  | started trigger hnew hstate hunused hage hfails =>
    have hcounted := hcounted_iff.mpr ⟨hexit, hnew⟩
    have hevents : record.events = _ := ExitRecord.events_eq (by rw [hafter]; rfl)
    constructor
    · refine h.watchCall (fun _ => ⟨hunused, hcounted, hage, hfails⟩)
        (fun huncounted => absurd hcounted huncounted) fun hwatch => ?_
      rw [hstate] at hwatch
      cases hwatch
    · exact h.start hcounted hunused hevents (by rw [hafter]; rfl) (by rw [hafter]; rfl)
        (by rw [hafter]; rfl) (by rw [hafter]; rfl) (by rw [hafter]; rfl) (by rw [hafter]; rfl)
  | recovered hnew hstate hreclaims =>
    have hcounted := hcounted_iff.mpr ⟨hexit, hnew⟩
    have hevents : record.events = _ := ExitRecord.events_eq (by rw [hafter]; rfl)
    constructor
    · refine h.watchCall (fun hstarts => ?_) (fun huncounted => absurd hcounted huncounted)
        fun _ _ => iff_of_false (hsilent rfl) fun hdue => hdue.2 hreclaims
      rw [ExitRecord.starts, hevents] at hstarts
      cases hstarts
    · exact h.recover hcounted hstate hevents (by rw [hafter]; rfl) (by rw [hafter]; rfl)
        (by rw [hafter]; rfl) (by rw [hafter]; rfl) (by rw [hafter]; rfl)
  | timedOut hnew hstate hunreclaimed hbars =>
    obtain ⟨resolution, time, events, hframe, hstarts, hrecovers⟩ :=
      ((record.before.observed record.timestamp).watched.resolves_timeOut record.timestamp).frame
    have hframed := hafter.trans hframe
    refine h.counted (hcounted_iff.mpr ⟨hexit, hnew⟩) ?_ ?_ ?_ ?_ ?_ ?_ ?_ ?_
    · exact ExitRecord.quiet_of_events events (by rw [hframed]; rfl) hstarts hrecovers
    all_goals first | rw [hframed]; rfl | skip
    · intro hwatch
      rw [hframed]
      rfl
    · exact fun _ => iff_of_true ⟨_, hsignal, rfl, rfl⟩ ⟨hbars, hunreclaimed⟩
  | watched hnew hstate hunreclaimed hbars =>
    refine h.counted (hcounted_iff.mpr ⟨hexit, hnew⟩) ?_ ?_ ?_ ?_ ?_ ?_ ?_ ?_
    · exact ExitRecord.quiet_of_events [] (by rw [hafter, List.append_nil]; rfl) rfl rfl
    all_goals first | rw [hafter]; rfl | skip
    · intro hwatch
      rw [hafter]
      rfl
    · refine fun _ => iff_of_false (hsilent rfl) fun hdue => ?_
      exact absurd hdue.1 (not_le.mpr hbars)

/-- A call after others keeps to the protocol, and raises nothing. -/
theorem Tracked.exitCall (strategy : StrategyIdentity) {level : Decimal} (hpositive : 0 < level)
    {passed : List ExitRecord} {state : BreakoutRetestV2State} (call : ExitCall)
    (h : Tracked level passed (state.management call.candle.symbol)) :
    ∃ next record, state.exitCall strategy call = .ok (next, record) ∧ record.call = call ∧
      WatchCall level passed record ∧
      Tracked level (passed ++ [record]) (next.management call.candle.symbol) := by
  have hstate : (state.management call.candle.symbol).positionState ≠ none := by
    cases h.stage with
    | unused state _ _ _ => rw [state]; exact Option.some_ne_none _
    | watching state _ _ _ => rw [state]; exact Option.some_ne_none _
    | recovered state _ _ => rw [state]; exact Option.some_ne_none _
  obtain ⟨after, signal, hexit, hmanaged⟩ := BreakoutRetestV2State.shouldExit_managed strategy
    call.candle call.indicators call.position hstate h.level hpositive
  obtain ⟨next, hnext⟩ : ∃ next : BreakoutRetestV2State, next = { state with
    retest := (state.retest.shouldExit strategy call.candle call.indicators call.position).1
    managed := state.managed.set call.candle.symbol after } := ⟨_, rfl⟩
  have hmanagement : next.management call.candle.symbol = after := by
    rw [hnext, BreakoutRetestV2State.management, Dict.get?_set_self]
    rfl
  let record : ExitRecord := {
    call
    hardExit := (state.retest.shouldExit strategy call.candle call.indicators call.position).2.isSome
    before := state.management call.candle.symbol
    after, signal }
  have hstep : WatchCall level passed record ∧ Tracked level (passed ++ [record]) record.after :=
    Tracked.step h rfl hmanaged
  refine ⟨next, record, ?_, rfl, hstep.1, hmanagement ▸ hstep.2⟩
  rw [BreakoutRetestV2State.exitCall, hexit, ← hnext]
  simp only [Except.map, hmanagement, record]

/-- The calls after others keep to the protocol, and raise nothing. -/
theorem Tracked.exitCalls (strategy : StrategyIdentity) {level : Decimal} (hpositive : 0 < level)
    {symbol : String} {calls : List ExitCall}
    (hsymbol : ∀ call ∈ calls, call.candle.symbol = symbol) {passed : List ExitRecord}
    {state : BreakoutRetestV2State} (h : Tracked level passed (state.management symbol)) :
    ∃ after log, state.exitCalls strategy calls = .ok (after, log) ∧
      log.map ExitRecord.call = calls ∧
      (∀ first record later, log = first ++ record :: later →
        WatchCall level (passed ++ first) record) ∧
      Tracked level (passed ++ log) (after.management symbol) := by
  induction calls generalizing passed state with
  | nil =>
    refine ⟨state, [], rfl, rfl, fun first record later heq => ?_, (List.append_nil passed).symm ▸ h⟩
    cases first <;> cases heq
  | cons call rest ih =>
    obtain rfl := hsymbol call List.mem_cons_self
    obtain ⟨next, record, hcall, hrecord, hwatch, htracked⟩ := h.exitCall strategy hpositive call
    obtain ⟨last, log, hcalls, hlog, hprotocol, hlast⟩ :=
      ih (fun other hother => hsymbol other (List.mem_cons_of_mem _ hother)) htracked
    refine ⟨last, record :: log, ?_, ?_, ?_, ?_⟩
    · simp only [BreakoutRetestV2State.exitCalls, hcall, bind, Except.bind, hcalls]
      rfl
    · rw [List.map_cons, hlog, hrecord]
    · intro first other later heq
      cases first with
      | nil =>
        cases heq
        rwa [List.append_nil]
      | cons head first =>
        cases heq
        have hother := hprotocol first other later rfl
        rwa [List.append_assoc] at hother
    · rwa [List.append_assoc] at hlast

/-- After a purchase at a positive breakout level, all calls of `should_exit` in its symbol return, and
keep to the protocol of the watch. -/
theorem failure_watch_protocol (strategy : StrategyIdentity) (state : BreakoutRetestV2State)
    {signal : Signal} {fill : Fill} {level : Decimal} (hbuy : fill.side = .buy)
    (hlevel : signal.metadata.breakoutLevel = some level) (hpositive : 0 < level)
    (calls : List ExitCall) (hsymbol : ∀ call ∈ calls, call.candle.symbol = signal.symbol) :
    ∃ filled after log, state.onFill signal fill = .ok filled ∧
      filled.exitCalls strategy calls = .ok (after, log) ∧ log.map ExitRecord.call = calls ∧
      WatchProtocol level log := by
  obtain ⟨started, hstarted⟩ : ∃ started,
      (state.management signal.symbol).startPosition signal fill = .ok started := by
    simp [PositionManagement.startPosition, hlevel, not_le.mpr hpositive]
  have htracked : Tracked level [] started := by
    simp only [PositionManagement.startPosition, hlevel, if_neg (not_le.mpr hpositive)] at hstarted
    cases hstarted
    exact ⟨rfl, rfl, rfl, rfl, .unused rfl rfl (by simp) (by simp)⟩
  obtain ⟨filled, hfilled⟩ : ∃ filled : BreakoutRetestV2State, filled =
      BreakoutRetestV2State.withManagement
        { state with retest := state.retest.onFill signal } signal.symbol started := ⟨_, rfl⟩
  have hmanagement : filled.management signal.symbol = started := by
    rw [hfilled, BreakoutRetestV2State.management, BreakoutRetestV2State.withManagement,
      Dict.get?_set_self]
    rfl
  have hfill : state.onFill signal fill = .ok filled := by
    simp only [BreakoutRetestV2State.onFill, hbuy, hstarted, hfilled]
    rfl
  obtain ⟨after, log, hcalls, hlog, hprotocol, hlast⟩ :=
    Tracked.exitCalls strategy hpositive hsymbol (hmanagement ▸ htracked)
  refine ⟨filled, after, log, hfill, hcalls, hlog, ?_, hprotocol⟩
  rw [← List.nil_append log, hlast.once]
  exact Bool.toNat_le _

/-- A purchase at a breakout level of 100. -/
def retestPurchase : Signal :=
  { action := "open_long", symbol := "BTCUSDT", price := 100, quantity := 1, timestamp := 0
    metadata := { breakoutLevel := some 100 }, signalId := .uuid 0 }

def retestFill : Fill :=
  { fillId := "bt-fill-00000002", orderId := "bt-order-00000001", symbol := "BTCUSDT", side := .buy
    quantity := 1, price := 100, commission := 0, timestamp := 0, signalId := .uuid 0 }

/-- Calls on hourly candles that all close below the level. -/
def sagging (hours : ℕ) : List ExitCall :=
  (List.range hours).map fun (index : ℕ) => {
    candle := { symbol := "BTCUSDT", openTime := index * hour, close := 99, indicators := {} }
    indicators := { ema20 := some 100, ema50 := some 100 }
    position := ⟨"BTCUSDT", "long", 100, 1, -1 / 100, index + 1, 5000, some 100⟩ }

/-- The watch starts at the 24th call and times out at the 48th. -/
example : ((BreakoutRetestV2State.onFill {} retestPurchase retestFill).bind fun filled =>
    (filled.exitCalls { name := "BreakoutRetestV2", newSignalId := fun _ => .uuid 0 }
      (sagging 48)).map fun answer =>
        answer.2.findIdxs fun record => record.starts || record.signal.isSome) = .ok [23, 47] := by
  decide +kernel

theorem failure_watch_protocol_sagging : ∃ filled after log,
    BreakoutRetestV2State.onFill {} retestPurchase retestFill = .ok filled ∧
      filled.exitCalls { name := "BreakoutRetestV2", newSignalId := fun _ => .uuid 0 } (sagging 48) =
        .ok (after, log) ∧
      log.map ExitRecord.call = sagging 48 ∧ WatchProtocol 100 log :=
  failure_watch_protocol _ {} rfl rfl (by norm_num) (sagging 48) (by simp [sagging, retestPurchase])

end CryptoTrading
