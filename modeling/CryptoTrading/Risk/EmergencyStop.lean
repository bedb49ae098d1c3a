import CryptoTrading.Kit.Observed
import Mathlib.Data.List.Nodup

/-! The emergency stop: calls of `activate` under its lock.  The first call latches the stop and makes
six calls of its own; each of these may suspend while other calls of `activate` queue, and each may
fail.  A failure of the notification alone is not caught. -/

namespace CryptoTrading

open Kit

inductive EmergencyReason
  | dbFailure
  | marketDataStale
  | reconciliationFailed
  | runtimeError
  | manualStop
  deriving DecidableEq

def EmergencyReason.value : EmergencyReason → String
  | .dbFailure => "EMERGENCY_DB_FAILURE"
  | .marketDataStale => "EMERGENCY_MARKET_DATA_STALE"
  | .reconciliationFailed => "EMERGENCY_RECONCILIATION_FAILED"
  | .runtimeError => "EMERGENCY_RUNTIME_ERROR"
  | .manualStop => "EMERGENCY_MANUAL_STOP"

/-- What the first activation calls. -/
inductive SafetyCall
  | disableTrading
  | closeExecution
  | saveCheckpoint
  | recordRiskEvent (reason : EmergencyReason) (detail : String)
  /-- `send_notification` at the level `CRITICAL`. -/
  | sendNotification (message : String)
  | stopRuntime
  deriving DecidableEq

/-- A call of `activate`; `caller` is the number of calls before it. -/
structure Activation where
  caller : ℕ
  reason : EmergencyReason
  detail : String
  deriving DecidableEq

namespace Activation

variable (activation : Activation)

def message : String :=
  "Emergency stop activated: " ++ activation.reason.value ++
    if activation.detail = "" then "" else " (" ++ activation.detail ++ ")"

/-- All that is to be called, in order. -/
def safetyCalls : List SafetyCall :=
  [.disableTrading, .closeExecution, .saveCheckpoint,
    .recordRiskEvent activation.reason activation.detail, .sendNotification activation.message,
    .stopRuntime]

theorem nodup_safetyCalls : activation.safetyCalls.Nodup := by
  simp [safetyCalls]

end Activation

/-- Where the activation that has latched the stop is suspended. -/
inductive ActivationPhase
  /-- The loop over the callbacks, with those after the current one. -/
  | callbacks (current : SafetyCall) (rest : List SafetyCall)
  | notification
  | stopping
  deriving DecidableEq

structure Activating where
  activation : Activation
  phase : ActivationPhase
  errors : List String := []
  deriving DecidableEq

/-- The call that is awaited. -/
def Activating.awaited (activating : Activating) : SafetyCall :=
  match activating.phase with
  | .callbacks current _ => current
  | .notification => .sendNotification activating.activation.message
  | .stopping => .stopRuntime

inductive StopException
  /-- The `ExceptionGroup`. -/
  | completedWithErrors (errors : List String)
  | notifier (error : String)
  deriving DecidableEq

inductive StopOutcome
  | returned (activated : Bool)
  | raised (exception : StopException)
  deriving DecidableEq

inductive StopEvent
  | invoked (activation : Activation) (call : SafetyCall)
  | failed (call : SafetyCall) (error : String)
  | finished (activation : Activation) (outcome : StopOutcome)
  deriving DecidableEq

structure EmergencyStop where
  active : Bool := false
  reason : Option EmergencyReason := none
  callers : ℕ := 0
  /-- The calls that wait for the lock, the first of them in front. -/
  waiting : List Activation := []
  /-- The activation that has the lock, while it is suspended. -/
  holder : Option Activating := none
  deriving DecidableEq

inductive StopStep
  | activate (reason : EmergencyReason) (detail : String)
  /-- The first call that waits gets the lock. -/
  | acquire
  /-- What the holder awaits returns. -/
  | returns
  /-- It raises. -/
  | raises (error : String)
  deriving DecidableEq

namespace EmergencyStop

variable (stop : EmergencyStop)

/-- `activate`, from the lock to its first call. -/
def enter (activation : Activation) : EmergencyStop × List StopEvent :=
  if stop.active then (stop, [.finished activation (.returned false)])
  else
    ({ stop with
      active := true
      reason := some activation.reason
      holder := some ⟨activation, .callbacks .disableTrading
        [.closeExecution, .saveCheckpoint, .recordRiskEvent activation.reason activation.detail], []⟩ },
      [.invoked activation .disableTrading])

/-- The next call of the holder is made. -/
def invoke (activating : Activating) : EmergencyStop × List StopEvent :=
  ({ stop with holder := some activating }, [.invoked activating.activation activating.awaited])

/-- The end of the holder, which releases the lock. -/
def finish (activation : Activation) (outcome : StopOutcome) : EmergencyStop × List StopEvent :=
  ({ stop with holder := none }, [.finished activation outcome])

/-- How an activation ends that has attempted everything. -/
def outcomeOf (errors : List String) : StopOutcome :=
  if errors.isEmpty then .returned true else .raised (.completedWithErrors errors)

/-- The holder goes on after a call, with the errors so far. -/
def proceed (activating : Activating) (errors : List String) : EmergencyStop × List StopEvent :=
  match activating.phase with
  | .callbacks _ (next :: rest) =>
    stop.invoke { activating with phase := .callbacks next rest, errors }
  | .callbacks _ [] => stop.invoke { activating with phase := .notification, errors }
  | .notification => stop.invoke { activating with phase := .stopping, errors }
  | .stopping => stop.finish activating.activation (outcomeOf errors)

/-- The call that the holder awaits raises: the notification's error is nobody's to catch. -/
def recover (activating : Activating) (error : String) : EmergencyStop × List StopEvent :=
  if activating.phase = .notification then
    stop.finish activating.activation (.raised (.notifier error))
  else stop.proceed activating (activating.errors ++ [error])

/-- What happens at a step, if the step can happen. -/
def step? : StopStep → Option (EmergencyStop × List StopEvent)
  | .activate reason detail =>
    let activation : Activation := ⟨stop.callers, reason, detail⟩
    let called := { stop with callers := stop.callers + 1 }
    if stop.holder.isNone && stop.waiting.isEmpty then some (called.enter activation)
    else some ({ called with waiting := stop.waiting ++ [activation] }, [])
  | .acquire =>
    match stop.holder, stop.waiting with
    | none, activation :: waiting => some ({ stop with waiting }.enter activation)
    | _, _ => none
  | .returns => stop.holder.map fun activating => stop.proceed activating activating.errors
  | .raises error =>
    stop.holder.map fun activating =>
      let segment := stop.recover activating error
      (segment.1, .failed activating.awaited error :: segment.2)

end EmergencyStop

/-- What an event says has been called. -/
def StopEvent.invocation? : StopEvent → Option SafetyCall
  | .invoked _ call => some call
  | _ => none

def StopEvent.error? : StopEvent → Option String
  | .failed _ error => some error
  | _ => none

def invocations (events : List StopEvent) : List SafetyCall :=
  events.filterMap StopEvent.invocation?

def failures (events : List StopEvent) : List String :=
  events.filterMap StopEvent.error?

/-- The first call of `activate` ends after everything has been called, and reports every failure; only
it calls anything, and nothing twice. -/
structure AttemptsEverything (events : List StopEvent) : Prop where
  attempted : ∀ before activation outcome later,
    events = before ++ .finished activation outcome :: later → activation.caller = 0 →
      invocations before = activation.safetyCalls ∧
        outcome = EmergencyStop.outcomeOf (failures before)
  first : ∀ activation call, .invoked activation call ∈ events → activation.caller = 0
  once : (invocations events).Nodup

/-- The notification of the activation raises. -/
def NotifierRaises (stop : EmergencyStop) (step : StopStep) : Prop :=
  ∃ error activating, step = .raises error ∧ stop.holder = some activating ∧
    activating.phase = .notification

section Trace

variable {events new : List StopEvent}

theorem invocations_append : invocations (events ++ new) = invocations events ++ invocations new :=
  List.filterMap_append ..

theorem failures_append : failures (events ++ new) = failures events ++ failures new :=
  List.filterMap_append ..

theorem invocations_eq_nil (h : ∀ activation call, .invoked activation call ∉ new) :
    invocations new = [] := by
  refine List.filterMap_eq_nil_iff.mpr fun event hevent => ?_
  cases event with
  | invoked activation call => exact absurd hevent (h activation call)
  | failed call error => rfl
  | finished activation outcome => rfl

theorem attemptsEverything_nil : AttemptsEverything [] := by
  refine ⟨fun before activation outcome later hsplit => ?_, fun activation call hcall => ?_, ?_⟩
  · exact absurd hsplit.symm (by simp)
  · exact absurd hcall List.not_mem_nil
  · exact List.nodup_nil

/-- Events that call nothing, and are not the end of the first activation, change nothing. -/
theorem attemptsEverything_append_iff (hinvoked : ∀ activation call, .invoked activation call ∉ new)
    (hfinished : ∀ activation outcome, .finished activation outcome ∈ new → activation.caller ≠ 0) :
    AttemptsEverything (events ++ new) ↔ AttemptsEverything events := by
  have hnone : invocations new = [] := invocations_eq_nil hinvoked
  constructor
  · rintro ⟨hattempted, hfirst, honce⟩
    refine ⟨fun before activation outcome later hsplit => ?_, fun activation call hcall => ?_, ?_⟩
    · exact hattempted before activation outcome (later ++ new) (by rw [hsplit]; simp)
    · exact hfirst activation call (List.mem_append_left _ hcall)
    · rwa [invocations_append, hnone, List.append_nil] at honce
  · rintro ⟨hattempted, hfirst, honce⟩
    refine ⟨fun before activation outcome later hsplit hcaller => ?_, fun activation call hcall => ?_, ?_⟩
    · rcases List.append_eq_append_iff.mp hsplit with ⟨more, -, hnew⟩ | ⟨more, hevents, hmore⟩
      · exact absurd hcaller (hfinished activation outcome (by simp [hnew]))
      · cases more with
        | nil =>
          rw [List.nil_append] at hmore
          exact absurd hcaller (hfinished activation outcome (by simp [← hmore]))
        | cons head more =>
          cases hmore
          exact hattempted before activation outcome more hevents hcaller
    · rcases List.mem_append.mp hcall with hcall | hcall
      · exact hfirst activation call hcall
      · exact absurd hcall (hinvoked activation call)
    · rwa [invocations_append, hnone, List.append_nil]

end Trace

/-- What the holder has still to call. -/
def Activating.remaining (activating : Activating) : List SafetyCall :=
  match activating.phase with
  | .callbacks _ rest => rest ++ [.sendNotification activating.activation.message, .stopRuntime]
  | .notification => [.stopRuntime]
  | .stopping => []

/-- The first activation, before its end. -/
structure Attempting (activating : Activating) (events : List StopEvent) : Prop where
  first : activating.activation.caller = 0
  made : invocations events ++ activating.remaining = activating.activation.safetyCalls
  failed : failures events = activating.errors
  invoked : ∀ activation call, .invoked activation call ∈ events → activation.caller = 0
  unfinished : ∀ activation outcome, .finished activation outcome ∉ events

theorem Attempting.attemptsEverything {activating : Activating} {events : List StopEvent}
    (h : Attempting activating events) : AttemptsEverything events := by
  refine ⟨fun before activation outcome later hsplit => ?_, h.invoked, ?_⟩
  · exact absurd (by simp [hsplit]) (h.unfinished activation outcome)
  · have hnodup := activating.activation.nodup_safetyCalls
    rw [← h.made] at hnodup
    exact (List.nodup_append.mp hnodup).1

/-- The calls that wait are not the first. -/
structure Queued (stop : EmergencyStop) : Prop where
  active : stop.active = true
  called : stop.callers ≠ 0
  waiting : ∀ activation ∈ stop.waiting, activation.caller ≠ 0

/-- The stop before the first call, while that is suspended, and after it. -/
inductive Latched : EmergencyStop → List StopEvent → Prop
  | idle : Latched {} []
  | attempting {stop : EmergencyStop} {events : List StopEvent} {activating : Activating}
      (hqueued : Queued stop) (hholder : stop.holder = some activating)
      (h : Attempting activating events) : Latched stop events
  | stopped {stop : EmergencyStop} {events : List StopEvent}
      (hqueued : Queued stop) (hholder : stop.holder = none) : Latched stop events

namespace Attempting

variable {activating next : Activating} {events : List StopEvent} {stop : EmergencyStop}

/-- The next call is made. -/
theorem invoke (h : Attempting activating events) (hsame : next.activation = activating.activation)
    (herrors : next.errors = activating.errors)
    (hremaining : activating.remaining = next.awaited :: next.remaining) :
    Attempting next (events ++ [.invoked next.activation next.awaited]) := by
  refine ⟨?_, ?_, ?_, fun activation call hcall => ?_, fun activation outcome hfinished => ?_⟩
  · rw [hsame]
    exact h.first
  · rw [invocations_append, List.append_assoc, hsame, ← h.made, hremaining]
    rfl
  · rw [failures_append, h.failed, herrors]
    exact List.append_nil _
  · rcases List.mem_append.mp hcall with hcall | hcall
    · exact h.invoked activation call hcall
    · cases List.mem_singleton.mp hcall
      rw [hsame]
      exact h.first
  · rcases List.mem_append.mp hfinished with hfinished | hfinished
    · exact h.unfinished activation outcome hfinished
    · cases List.mem_singleton.mp hfinished

/-- The call that is awaited fails. -/
theorem fail (h : Attempting activating events) (call : SafetyCall) (error : String) :
    Attempting { activating with errors := activating.errors ++ [error] }
      (events ++ [.failed call error]) := by
  refine ⟨h.first, ?_, ?_, fun activation call hcall => ?_, fun activation outcome hfinished => ?_⟩
  · rw [invocations_append, List.append_assoc]
    exact h.made
  · rw [failures_append, h.failed]
    rfl
  · rcases List.mem_append.mp hcall with hcall | hcall
    · exact h.invoked activation call hcall
    · cases List.mem_singleton.mp hcall
  · rcases List.mem_append.mp hfinished with hfinished | hfinished
    · exact h.unfinished activation outcome hfinished
    · cases List.mem_singleton.mp hfinished

/-- The end of the first activation, as it should be. -/
theorem attemptsEverything_finished_iff (h : Attempting activating events) {outcome : StopOutcome} :
    AttemptsEverything (events ++ [.finished activating.activation outcome]) ↔
      activating.remaining = [] ∧ outcome = EmergencyStop.outcomeOf activating.errors := by
  have hall : invocations events = activating.activation.safetyCalls ↔ activating.remaining = [] := by
    rw [← h.made]
    exact List.self_eq_append_right
  constructor
  · intro hattempts
    obtain ⟨hinvoked, houtcome⟩ := hattempts.attempted events _ outcome [] rfl h.first
    rw [h.failed] at houtcome
    exact ⟨hall.mp hinvoked, houtcome⟩
  · rintro ⟨hremaining, houtcome⟩
    obtain ⟨-, -, honce⟩ := h.attemptsEverything
    refine ⟨fun before activation outcome' later hsplit hcaller => ?_, fun activation call hcall => ?_, ?_⟩
    · rcases append_singleton_eq_iff.mp hsplit with ⟨rfl, hlast, rfl⟩ | ⟨init, rfl, hevents⟩
      · cases hlast
        rw [h.failed]
        exact ⟨hall.mpr hremaining, houtcome⟩
      · -- only the last event ends an activation
        exact absurd (by simp [hevents]) (h.unfinished activation outcome')
    · rcases List.mem_append.mp hcall with hcall | hcall
      · exact h.invoked activation call hcall
      · cases List.mem_singleton.mp hcall
    · rw [invocations_append]
      exact (List.append_nil _).symm ▸ honce

theorem proceed (h : Attempting activating events) (hqueued : Queued stop) :
    Latched (stop.proceed activating activating.errors).1
        (events ++ (stop.proceed activating activating.errors).2) ∧
      AttemptsEverything (events ++ (stop.proceed activating activating.errors).2) := by
  have hinvoked : ∀ {next : Activating}, next.activation = activating.activation →
      next.errors = activating.errors → activating.remaining = next.awaited :: next.remaining →
      Latched (stop.invoke next).1 (events ++ (stop.invoke next).2) ∧
        AttemptsEverything (events ++ (stop.invoke next).2) := by
    intro next hsame herrors hremaining
    have hnext := h.invoke hsame herrors hremaining
    exact ⟨.attempting ⟨hqueued.active, hqueued.called, hqueued.waiting⟩ rfl hnext,
      hnext.attemptsEverything⟩
  unfold EmergencyStop.proceed
  split
  case h_1 next rest hphase =>
    exact hinvoked rfl rfl (by simp [Activating.remaining, Activating.awaited, hphase])
  case h_2 hphase =>
    exact hinvoked rfl rfl (by simp [Activating.remaining, Activating.awaited, hphase])
  case h_3 hphase =>
    exact hinvoked rfl rfl (by simp [Activating.remaining, Activating.awaited, hphase])
  case h_4 hphase =>
    refine ⟨.stopped ⟨hqueued.active, hqueued.called, hqueued.waiting⟩ rfl, ?_⟩
    exact h.attemptsEverything_finished_iff.mpr ⟨by simp [Activating.remaining, hphase], rfl⟩

/-- A failure leaves everything attempted, unless it is that of the notification. -/
theorem recover (h : Attempting activating events) (hqueued : Queued stop) (error : String) :
    Latched (stop.recover activating error).1
        (events ++ .failed activating.awaited error :: (stop.recover activating error).2) ∧
      (AttemptsEverything
          (events ++ .failed activating.awaited error :: (stop.recover activating error).2) ↔
        activating.phase ≠ .notification) := by
  have hfailed := h.fail activating.awaited error
  rw [List.append_cons]
  unfold EmergencyStop.recover
  split
  · rename_i hphase
    refine ⟨.stopped ⟨hqueued.active, hqueued.called, hqueued.waiting⟩ rfl, iff_of_false ?_ ?_⟩
    · intro hattempts
      obtain ⟨hremaining, -⟩ := hfailed.attemptsEverything_finished_iff.mp hattempts
      simp [Activating.remaining, hphase] at hremaining
    · exact not_not_intro hphase
  · rename_i hphase
    obtain ⟨hlatched, hattempts⟩ := hfailed.proceed hqueued
    exact ⟨hlatched, iff_of_true hattempts hphase⟩

end Attempting

namespace Latched

variable {stop : EmergencyStop} {events : List StopEvent}

/-- A call that gets the lock of a stop that is latched calls nothing. -/
theorem enter {next : EmergencyStop} {new : List StopEvent} {activation : Activation}
    (hqueued : Queued stop) (hholder : stop.holder = none) (hcaller : activation.caller ≠ 0)
    (h : some (stop.enter activation) = some (next, new)) :
    Latched next (events ++ new) ∧
      (AttemptsEverything (events ++ new) ↔ AttemptsEverything events) := by
  unfold EmergencyStop.enter at h
  rw [if_pos hqueued.active] at h
  cases h
  refine ⟨.stopped hqueued hholder, attemptsEverything_append_iff ?_ ?_⟩
  · intro activation call hcall
    cases List.mem_singleton.mp hcall
  · intro activation outcome hfinished
    cases List.mem_singleton.mp hfinished
    exact hcaller

theorem wait (hqueued : Queued stop) (reason : EmergencyReason) (detail : String) :
    Queued { stop with
      callers := stop.callers + 1, waiting := stop.waiting ++ [⟨stop.callers, reason, detail⟩] } := by
  refine ⟨hqueued.active, Nat.succ_ne_zero _, fun activation hwaits => ?_⟩
  rcases List.mem_append.mp hwaits with hwaits | hwaits
  · exact hqueued.waiting activation hwaits
  · cases List.mem_singleton.mp hwaits
    exact hqueued.called

/-- The step of a stop that nobody has called. -/
theorem of_idle {after : EmergencyStop} {new : List StopEvent} {label : StopStep}
    (hstep : EmergencyStop.step? {} label = some (after, new)) :
    Latched after new ∧ AttemptsEverything new := by
  cases label with
  | activate reason detail =>
    cases hstep
    have hfirst : Attempting ⟨⟨0, reason, detail⟩, .callbacks .disableTrading
        [.closeExecution, .saveCheckpoint, .recordRiskEvent reason detail], []⟩
        [.invoked ⟨0, reason, detail⟩ .disableTrading] := by
      refine ⟨rfl, rfl, rfl, fun activation call hcall => ?_, fun activation outcome hend => ?_⟩
      · cases List.mem_singleton.mp hcall
        rfl
      · cases List.mem_singleton.mp hend
    exact ⟨.attempting ⟨rfl, Nat.one_ne_zero, List.forall_mem_nil _⟩ rfl hfirst,
      hfirst.attemptsEverything⟩
  | acquire => cases hstep
  | returns => cases hstep
  | raises error => cases hstep

/-- A step while the first activation is suspended. -/
theorem of_attempting {after : EmergencyStop} {new : List StopEvent} {label : StopStep}
    {activating : Activating} (hqueued : Queued stop) (hholder : stop.holder = some activating)
    (h : Attempting activating events) (hstep : stop.step? label = some (after, new)) :
    Latched after (events ++ new) ∧
      (AttemptsEverything (events ++ new) ↔
        ∀ error, label = .raises error → activating.phase ≠ .notification) := by
  have hheld : stop.holder.isNone = false := by simp [hholder]
  cases label with
  | activate reason detail =>
    simp only [EmergencyStop.step?, hheld, Bool.false_and, Bool.false_eq_true, if_false] at hstep
    cases hstep
    rw [List.append_nil]
    refine ⟨.attempting (wait hqueued reason detail) hholder h, iff_of_true h.attemptsEverything ?_⟩
    intro error hlabel
    cases hlabel
  | acquire =>
    simp only [EmergencyStop.step?, hholder] at hstep
    cases hstep
  | returns =>
    simp only [EmergencyStop.step?, hholder, Option.map_some] at hstep
    obtain ⟨hlatched, hattempts⟩ := h.proceed hqueued
    rw [Option.some.inj hstep] at hlatched hattempts
    refine ⟨hlatched, iff_of_true hattempts ?_⟩
    intro error hlabel
    cases hlabel
  | raises error =>
    simp only [EmergencyStop.step?, hholder, Option.map_some] at hstep
    obtain ⟨hlatched, hattempts⟩ := h.recover hqueued error
    obtain ⟨hnext, hnew⟩ := Prod.mk.inj (Option.some.inj hstep)
    rw [hnext, hnew] at hlatched
    rw [hnew] at hattempts
    exact ⟨hlatched, hattempts.trans ⟨fun hphase _ _ => hphase, fun h => h error rfl⟩⟩

/-- A step after the first activation. -/
theorem of_stopped {after : EmergencyStop} {new : List StopEvent} {label : StopStep}
    (hqueued : Queued stop) (hholder : stop.holder = none)
    (hstep : stop.step? label = some (after, new)) :
    Latched after (events ++ new) ∧
      (AttemptsEverything (events ++ new) ↔ AttemptsEverything events) := by
  have hfree : stop.holder.isNone = true := by simp [hholder]
  cases label with
  | activate reason detail =>
    simp only [EmergencyStop.step?, hfree, Bool.true_and] at hstep
    split at hstep
    · have hcounted : Queued { stop with callers := stop.callers + 1 } :=
        ⟨hqueued.active, Nat.succ_ne_zero _, hqueued.waiting⟩
      exact enter hcounted hholder hqueued.called hstep
    · cases hstep
      rw [List.append_nil]
      exact ⟨.stopped (wait hqueued reason detail) hholder, Iff.rfl⟩
  | acquire =>
    simp only [EmergencyStop.step?] at hstep
    split at hstep
    · rename_i activation waiting _ hwaiting
      have hcallers := hqueued.waiting
      rw [hwaiting] at hcallers
      have hrest : Queued { stop with waiting } :=
        ⟨hqueued.active, hqueued.called, fun other hother =>
          hcallers other (List.mem_cons_of_mem _ hother)⟩
      exact enter hrest hholder (hcallers activation (List.mem_cons_self ..)) hstep
    · cases hstep
  | returns =>
    simp only [EmergencyStop.step?, hholder, Option.map_none] at hstep
    cases hstep
  | raises error =>
    simp only [EmergencyStop.step?, hholder, Option.map_none] at hstep
    cases hstep

/-- Everything is attempted after a step exactly when it was before, and the notification does not
raise. -/
theorem step {after : EmergencyStop} {new : List StopEvent} {label : StopStep}
    (h : Latched stop events) (hstep : stop.step? label = some (after, new)) :
    Latched after (events ++ new) ∧
      (AttemptsEverything (events ++ new) ↔
        AttemptsEverything events ∧ ¬NotifierRaises stop label) := by
  cases h with
  | idle =>
    obtain ⟨hlatched, hattempts⟩ := of_idle hstep
    refine ⟨hlatched, iff_of_true hattempts ⟨attemptsEverything_nil, ?_⟩⟩
    rintro ⟨error, activating, -, hholder, -⟩
    cases hholder
  | attempting hqueued hholder h =>
    obtain ⟨hlatched, hattempts⟩ := of_attempting hqueued hholder h hstep
    refine ⟨hlatched, hattempts.trans ⟨fun hfine => ⟨h.attemptsEverything, ?_⟩, ?_⟩⟩
    · rintro ⟨error, activating, hlabel, hsame, hphase⟩
      cases hholder.symm.trans hsame
      exact hfine error hlabel hphase
    · rintro ⟨-, hfine⟩ error hlabel hphase
      exact hfine ⟨error, _, hlabel, hholder, hphase⟩
  | stopped hqueued hholder =>
    obtain ⟨hlatched, hattempts⟩ := of_stopped hqueued hholder hstep
    refine ⟨hlatched, hattempts.trans (and_iff_left ?_).symm⟩
    rintro ⟨error, activating, -, hsame, -⟩
    cases hholder.symm.trans hsame

end Latched

namespace EmergencyStop

/-- In a run of calls of `activate`, the first one attempts every step and reports every failure, and no
other attempts any, exactly when the notification does not raise. -/
theorem attempts_everything_iff {steps : List StopStep} {after : Observed EmergencyStop StopEvent}
    (hrun : Run (Observed.Step step?) ⟨{}, []⟩ steps after) :
    AttemptsEverything after.events ↔
      ∀ before label next, Run.Makes (Observed.Step step?) ⟨{}, []⟩ steps before label next →
        ¬NotifierRaises before.state label := by
  exact Observed.iff_makes (I := Latched) (P := fun _ => AttemptsEverything) hrun .idle
    attemptsEverything_nil fun stop events label after new h hstep => h.step hstep

/-- A call whose first callback fails, and another that waits for it. -/
def twoCalls : List StopStep :=
  [.activate .dbFailure "", .activate .manualStop "operator", .raises "no session", .returns, .returns,
    .returns, .returns, .returns, .acquire]

theorem attempts_everything_two_calls :
    ∃ after, Run (Observed.Step step?) ⟨{}, []⟩ twoCalls after ∧
      failures after.events = ["no session"] ∧ AttemptsEverything after.events := by
  have hruns : (Observed.after? step? ⟨{}, []⟩ twoCalls).map (fun after => failures after.events) =
      some ["no session"] := rfl
  obtain ⟨after, hafter, hfailures⟩ := Option.map_eq_some_iff.mp hruns
  have hrun := Observed.run_of_after? hafter
  refine ⟨after, hrun, hfailures, (attempts_everything_iff hrun).mpr ?_⟩
  rintro before label next ⟨passed, later, hsplit, hbefore, -⟩
    ⟨error, activating, rfl, hholder, hphase⟩
  have hpassed : passed = twoCalls.take 2 := by
    simp only [twoCalls, List.cons_eq_append_iff] at hsplit
    simp at hsplit
    exact hsplit.1
  have hcallback : (Observed.after? step? ⟨{}, []⟩ (twoCalls.take 2)).map
      (fun before => before.state.holder.map fun activating => activating.phase) =
      some (some (.callbacks .disableTrading
        [.closeExecution, .saveCheckpoint, .recordRiskEvent .dbFailure ""])) := rfl
  rw [← hpassed, Observed.after?_of_run hbefore, Option.map_some, hholder, Option.map_some, hphase]
    at hcallback
  cases hcallback

/-- The notification raises: the runtime is not stopped, and what the checkpoint raised is lost. -/
theorem notifier_skips_stop :
    ∃ after, Run (Observed.Step step?) ⟨{}, []⟩
        [.activate .dbFailure "", .returns, .returns, .raises "disk full", .returns, .raises "offline"]
        after ∧
      .stopRuntime ∉ invocations after.events ∧ ¬AttemptsEverything after.events := by
  have hruns : (Observed.after? step? ⟨{}, []⟩ [.activate .dbFailure "", .returns, .returns,
      .raises "disk full", .returns, .raises "offline"]).map (fun after =>
        (decide (.stopRuntime ∈ invocations after.events), after.events.getLast?)) =
      some (false, some (.finished ⟨0, .dbFailure, ""⟩ (.raised (.notifier "offline")))) := by
    decide +kernel
  obtain ⟨after, hafter, hfacts⟩ := Option.map_eq_some_iff.mp hruns
  obtain ⟨hcalled, hlast⟩ := Prod.mk.inj hfacts
  refine ⟨after, Observed.run_of_after? hafter, of_decide_eq_false hcalled, fun hattempts => ?_⟩
  obtain ⟨before, hevents⟩ := List.getLast?_eq_some_iff.mp hlast
  obtain ⟨-, houtcome⟩ := hattempts.attempted before _ _ [] hevents rfl
  unfold outcomeOf at houtcome
  split at houtcome <;> cases houtcome

end EmergencyStop

end CryptoTrading
