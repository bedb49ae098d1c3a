import CryptoTrading.Runtime.ApplicationRuns
import Mathlib.Data.List.Chain

/-! How a run of the application ends.  Its lifecycle follows the table of transitions, and trading is off.
The dependencies are closed exactly when no call of the shutdown before has raised: the first that does
ends the shutdown, and a runtime whose task has failed is never closed. -/

namespace CryptoTrading

open Kit Kit.Fallible

namespace ApplicationProcess

theorem called_nil (process : ApplicationProcess) : process.called [] = process := by
  simp [called]

theorem called_called (process : ApplicationProcess) (calls more : List AppCall) :
    (process.called calls).called more = process.called (calls ++ more) := by
  simp [called]

end ApplicationProcess

namespace ApplicationM

variable {raises : AppCall → Bool} {call : AppCall} {calls more : List AppCall}
  {s t : ApplicationProcess} {result : Except ApplicationError Unit} {target : RuntimeState}

/-- Calls one after the other. -/
def attemptAll (raises : AppCall → Bool) : List AppCall → ApplicationM Unit
  | [] => pure ()
  | call :: rest => do
    attempt raises call
    attemptAll raises rest

/-- The calls that are made: up to the first that raises. -/
def made (raises : AppCall → Bool) : List AppCall → List AppCall
  | [] => []
  | call :: rest => if raises call then [call] else call :: made raises rest

/-- How calls end, by the first that raises. -/
def outcome (raises : AppCall → Bool) (calls : List AppCall) : Except ApplicationError Unit :=
  match calls.find? raises with
  | some call => .error (.raised call)
  | none => .ok ()

theorem outcome_eq_ok_iff : outcome raises calls = .ok () ↔ ∀ call ∈ calls, raises call = false := by
  unfold outcome
  split
  · rename_i call hfind
    refine iff_of_false nofun fun h => ?_
    have hraises := List.find?_some hfind
    rw [h call (List.mem_of_find?_eq_some hfind)] at hraises
    cases hraises
  · rename_i hfind
    exact iff_of_true rfl fun call hmem => by simpa using List.find?_eq_none.mp hfind call hmem

theorem outcome_cons : outcome raises (call :: calls) =
    if raises call then .error (.raised call) else outcome raises calls := by
  unfold outcome
  rw [List.find?_cons]
  cases raises call <;> rfl

theorem ends_attempt_iff : Ends (attempt raises call) s result t ↔
    t = s.called [call] ∧ result = outcome raises [call] := by
  unfold attempt
  rw [ends_bind_of_returns (ends_modify_iff.mpr ⟨rfl, rfl⟩), outcome_cons]
  split
  · rw [ends_throw_iff, and_comm]
  · rw [ends_pure_iff, and_comm]
    rfl

theorem ends_attemptAll_iff : Ends (attemptAll raises calls) s result t ↔
    t = s.called (made raises calls) ∧ result = outcome raises calls := by
  induction calls generalizing s with
  | nil =>
    unfold attemptAll
    rw [ends_pure_iff, and_comm, made, ApplicationProcess.called_nil]
    rfl
  | cons call rest ih =>
    unfold attemptAll made
    rw [outcome_cons]
    split
    · rename_i hraises
      have hcall : Ends (attempt raises call) s (.error (.raised call)) (s.called [call]) :=
        ends_attempt_iff.mpr ⟨rfl, by rw [outcome_cons, if_pos hraises]⟩
      rw [ends_bind_of_raises hcall, and_comm]
    · rename_i hreturns
      have hcall : Ends (attempt raises call) s (.ok ()) (s.called [call]) :=
        ends_attempt_iff.mpr ⟨rfl, by rw [outcome_cons, if_neg hreturns]; rfl⟩
      rw [ends_bind_of_returns hcall, ih, ApplicationProcess.called_called]
      rfl

theorem attemptAll_append (more : List AppCall) :
    attemptAll raises (calls ++ more) = attemptAll raises calls >>= fun _ => attemptAll raises more := by
  induction calls with
  | nil => rfl
  | cons call rest ih =>
    rw [List.cons_append, attemptAll, attemptAll, ih, bind_assoc]

theorem attemptAll_single : attemptAll raises [call] = attempt raises call := bind_pure_unit

theorem ends_transition_iff (h : target ∈ s.state.next) : Ends (transition target) s result t ↔
    t = s.turned target ∧ result = .ok () := by
  unfold transition
  rw [ends_bind_of_returns (ends_get_iff.mpr ⟨rfl, rfl⟩), if_pos h, ends_set_iff, and_comm]

theorem optionally_attempt (present : Bool) :
    optionally present (attempt raises call) = attemptAll raises (if present then [call] else []) := by
  cases present
  · rfl
  · exact attemptAll_single.symm

theorem made_append : made raises (calls ++ more) =
    if outcome raises calls = .ok () then calls ++ made raises more else made raises calls := by
  induction calls with
  | nil => rfl
  | cons call rest ih =>
    rw [List.cons_append, made, made, outcome_cons, ih]
    cases raises call with
    | true => simp
    | false =>
      simp only [Bool.false_eq_true, if_false]
      split <;> rfl

theorem outcome_append : outcome raises (calls ++ more) =
    if outcome raises calls = .ok () then outcome raises more else outcome raises calls := by
  induction calls with
  | nil => rfl
  | cons call rest ih =>
    rw [List.cons_append, outcome_cons, outcome_cons, ih]
    cases raises call <;> simp

theorem made_of_ok (h : outcome raises calls = .ok ()) : made raises calls = calls := by
  have happend : made raises (calls ++ []) = _ := made_append
  rwa [List.append_nil, if_pos h, made, List.append_nil] at happend

end ApplicationM

namespace Composition

open ApplicationM

variable (composition : Composition) (process : ApplicationProcess)

/-- The calls of a shutdown before its transition to `STOPPED`. -/
def shutdownCalls : List AppCall :=
  (if composition.hasHealthCoordinator then [.stopPeriodic] else []) ++
    ((if process.sessionCloseTask then [.sessionCloseTask] else []) ++
      ([if process.runTask then .runTask else .checkpoint] ++
        ((if composition.hasPnlCheckpoint then [.pnlCheckpoint] else []) ++
          if composition.hasSessionManager then [.closeSession] else [])))

/-- And those after it. -/
def closingCalls : List AppCall :=
  (if composition.hasHeartbeat then [.beatStopped] else []) ++ [.close]

/-- A process whose shutdown has begun. -/
def halted : ApplicationProcess :=
  { process with
    state := .stopping
    history := process.history ++ if process.state = .stopping then [] else [.stopping]
    tradingEnabled := false
    runtimeTrading := false
    runtimeStopped := true }

variable {composition process} {raises : AppCall → Bool} {t : ApplicationProcess}
  {result : Except ApplicationError Unit}

/-- What the shutdown of a process leaves. -/
structure ShutDown (composition : Composition) (raises : AppCall → Bool) (process : ApplicationProcess)
    (result : Except ApplicationError Unit) (t : ApplicationProcess) : Prop where
  result : result = outcome raises (composition.shutdownCalls process ++ composition.closingCalls)
  calls : t.calls = process.calls ++
    made raises (composition.shutdownCalls process ++ composition.closingCalls)
  trading : t.tradingEnabled = false ∧ t.runtimeTrading = false
  stopped : t.state = .stopped ↔ ∀ call ∈ composition.shutdownCalls process, raises call = false
  closed : t.closed ↔ process.closed ∨
    ∀ call ∈ composition.shutdownCalls process ++ composition.closingCalls, raises call = false

theorem halted_ends {rest : ApplicationM Unit} (hopen : process.state ≠ .stopped) : Ends (do
      optionally (process.state ≠ .stopping) (transition .stopping)
      modify fun process =>
        { process with tradingEnabled := false, runtimeTrading := false, runtimeStopped := true }
      rest) process result t ↔ Ends rest (halted process) result t := by
  by_cases hstopping : process.state = .stopping
  · have hstay : Ends (optionally (process.state ≠ .stopping) (transition .stopping)) process (.ok ())
        process := by simp [optionally, hstopping]
    rw [ends_bind_of_returns hstay, ends_bind_of_returns (ends_modify_iff.mpr ⟨rfl, rfl⟩)]
    simp [halted, hstopping]
  · have hnext : .stopping ∈ process.state.next := by
      cases h : process.state <;> simp_all [RuntimeState.next]
    have hturn : Ends (optionally (process.state ≠ .stopping) (transition .stopping)) process (.ok ())
        (process.turned .stopping) := by
      simpa [optionally, hstopping] using (ends_transition_iff hnext).mpr ⟨rfl, rfl⟩
    rw [ends_bind_of_returns hturn, ends_bind_of_returns (ends_modify_iff.mpr ⟨rfl, rfl⟩)]
    simp [halted, hstopping, ApplicationProcess.turned]

/-- A stop makes the calls of the shutdown up to the first that raises. -/
theorem stop_shuts_down (hopen : process.state ≠ .stopped)
    (h : Ends (composition.stop raises) process result t) : ShutDown composition raises process result t := by
  unfold stop at h
  rw [ends_bind_of_returns (ends_get_iff.mpr ⟨rfl, rfl⟩), if_neg hopen, halted_ends hopen] at h
  have hcalls : (do
      optionally composition.hasHealthCoordinator (attempt raises .stopPeriodic)
      optionally process.sessionCloseTask (attempt raises .sessionCloseTask)
      attempt raises (if process.runTask then .runTask else .checkpoint)
      optionally composition.hasPnlCheckpoint (attempt raises .pnlCheckpoint)
      optionally composition.hasSessionManager (attempt raises .closeSession)
      transition .stopped
      optionally composition.hasHeartbeat (attempt raises .beatStopped)
      close raises) = (do
      attemptAll raises (composition.shutdownCalls process)
      transition .stopped
      attemptAll raises composition.closingCalls
      modify fun process => { process with closed := true }) := by
    simp only [optionally_attempt, close, shutdownCalls, closingCalls, attemptAll_append, attemptAll_single,
      bind_assoc]
  rw [hcalls] at h
  rcases ends_bind_iff.mp h with ⟨error, hraises, rfl⟩ | ⟨_, m, hreturns, h⟩
  · obtain ⟨rfl, herror⟩ := ends_attemptAll_iff.mp hraises
    have hnot : outcome raises (composition.shutdownCalls process) ≠ .ok () := herror ▸ nofun
    have hsome := mt outcome_eq_ok_iff.mpr hnot
    refine ⟨?_, ?_, ⟨rfl, rfl⟩, iff_of_false nofun hsome, ?_⟩
    · rw [outcome_append, if_neg hnot, herror]
    · rw [made_append, if_neg hnot]
      rfl
    · refine (or_iff_left fun hall => hsome fun call hmem => ?_).symm
      exact hall call (List.mem_append_left _ hmem)
  · obtain ⟨rfl, hok⟩ := ends_attemptAll_iff.mp hreturns
    have hnone := outcome_eq_ok_iff.mp hok.symm
    rw [ends_bind_of_returns ((ends_transition_iff (List.mem_singleton_self _)).mpr ⟨rfl, rfl⟩)] at h
    rcases ends_bind_iff.mp h with ⟨error, hraises, rfl⟩ | ⟨_, m, hreturns, h⟩
    · obtain ⟨rfl, herror⟩ := ends_attemptAll_iff.mp hraises
      have hnot : outcome raises composition.closingCalls ≠ .ok () := herror ▸ nofun
      refine ⟨?_, ?_, ⟨rfl, rfl⟩, iff_of_true rfl hnone, ?_⟩
      · rw [outcome_append, if_pos hok.symm, herror]
      · rw [made_append, if_pos hok.symm, ← List.append_assoc]
        change process.calls ++ made raises (composition.shutdownCalls process) ++ _ = _
        rw [made_of_ok hok.symm]
      · refine (or_iff_left fun hall => hnot (outcome_eq_ok_iff.mpr fun call hmem => ?_)).symm
        exact hall call (List.mem_append_right _ hmem)
    · obtain ⟨rfl, hclosed⟩ := ends_attemptAll_iff.mp hreturns
      obtain ⟨rfl, rfl⟩ := ends_modify_iff.mp h
      refine ⟨?_, ?_, ⟨rfl, rfl⟩, iff_of_true rfl hnone, iff_of_true rfl (.inr ?_)⟩
      · rw [outcome_append, if_pos hok.symm, ← hclosed]
      · rw [made_append, if_pos hok.symm, ← List.append_assoc]
        change process.calls ++ made raises (composition.shutdownCalls process) ++ _ = _
        rw [made_of_ok hok.symm]
      · rw [List.forall_mem_append]
        exact ⟨hnone, outcome_eq_ok_iff.mp hclosed.symm⟩

/-! ### What a start keeps -/

/-- The lifecycle of a process is a path through the table of transitions. -/
structure Follows (process : ApplicationProcess) : Prop where
  first : process.history.head? = some .created
  last : process.history.getLast? = some process.state
  steps : process.history.IsChain fun previous target => target ∈ previous.next

theorem Follows.turned (h : Follows process) {target : RuntimeState} (htarget : target ∈ process.state.next) :
    Follows (process.turned target) where
  first := by
    change (process.history ++ [target]).head? = _
    rw [List.head?_append, h.first]
    rfl
  last := List.getLast?_concat
  steps := by
    change (process.history ++ [target]).IsChain _
    refine List.isChain_append.mpr ⟨h.steps, List.isChain_singleton _, ?_⟩
    intro previous hprevious other hother
    rw [h.last] at hprevious
    cases hprevious
    cases hother
    exact htarget

/-- A property that only depends on the lifecycle, and on whether the dependencies are closed. -/
def OfLifecycle (P : ApplicationProcess → Prop) : Prop :=
  ∀ s t, t.state = s.state → t.history = s.history → t.closed = s.closed → P s → P t

/-- A transition to one of these keeps the property. -/
def KeptBy (P : ApplicationProcess → Prop) (targets : List RuntimeState) : Prop :=
  ∀ s, ∀ target ∈ targets, target ∈ s.state.next → P s → P (s.turned target)

/-- A property that does not depend on what is called, or told to the risk engine, or planned for the
close of the session. -/
def Unannounced (P : ApplicationProcess → Prop) : Prop :=
  ∀ s calls sessionCloseTask reconciliationOk, P s → P { s with calls, sessionCloseTask, reconciliationOk }

variable {P : ApplicationProcess → Prop} {answers : StartAnswers}

theorem OfLifecycle.unannounced (hP : OfLifecycle P) : Unannounced P :=
  fun s _ _ _ hs => hP s _ rfl rfl rfl hs

theorem keeps_attempt (hP : Unannounced P) (call : AppCall) : Keeps P (attempt raises call) := by
  intro s outcome m hs h
  obtain ⟨rfl, -⟩ := ends_attempt_iff.mp h
  exact hP s _ _ _ hs

theorem keeps_optionally {x : ApplicationM Unit} (present : Bool) (hx : Keeps P x) :
    Keeps P (optionally present x) :=
  .ite (fun _ => hx) fun _ => .pure

theorem keeps_transition {targets : List RuntimeState} (hturn : KeptBy P targets) {target : RuntimeState}
    (htarget : target ∈ targets) : Keeps P (transition target) := by
  intro s outcome m hs h
  unfold transition at h
  rw [ends_bind_of_returns (ends_get_iff.mpr ⟨rfl, rfl⟩)] at h
  split at h
  · obtain ⟨-, rfl⟩ := ends_set_iff.mp h
    exact hturn s target htarget ‹_› hs
  · obtain ⟨-, rfl⟩ := ends_throw_iff.mp h
    exact hs

theorem keeps_launch (hP : OfLifecycle P) (hturn : KeptBy P [.restoring, .warmup, .running]) :
    Keeps P (composition.launch answers) := by
  have hbootstrap : Keeps P (composition.bootstrapped answers) :=
    .ite (fun _ => .tryCatch (.bind (keeps_attempt hP.unannounced _) fun _ => .pure) fun _ => .pure) fun _ => .pure
  have hsession : Keeps P (composition.openedSession answers) :=
    .ite (fun _ => .bind (keeps_attempt hP.unannounced _) fun _ => .pure) fun _ => .pure
  refine .bind (keeps_transition hturn (by simp)) fun _ => .bind (keeps_attempt hP.unannounced _) fun _ =>
    .bind (keeps_transition hturn (by simp)) fun _ => .bind hbootstrap fun _ =>
    .bind (keeps_attempt hP.unannounced _) fun _ => .bind hsession fun _ =>
    .bind (.modify fun s hs => hP s _ rfl rfl rfl hs) fun _ =>
    .bind (keeps_transition hturn (by simp)) fun _ => .modify fun s hs => hP s _ rfl rfl rfl hs

theorem keeps_announce (hP : Unannounced P) : Keeps P (composition.announce answers) := by
  have hreconciled : Keeps P (reconciled answers) :=
    .tryCatch (.bind (keeps_attempt hP _) fun _ => .bind (keeps_attempt hP _) fun _ =>
      .modify fun s hs => hP s _ _ _ hs) fun _ =>
      .bind (keeps_attempt hP _) fun _ => .modify fun s hs => hP s _ _ _ hs
  have hschedule : Keeps P (scheduleClose answers) :=
    .bind (keeps_attempt hP _) fun _ => keeps_optionally _ (.modify fun s hs => hP s _ _ _ hs)
  exact .bind (keeps_optionally _ (keeps_attempt hP _)) fun _ => .bind (keeps_optionally _ hreconciled) fun _ =>
    .bind (keeps_optionally _ hschedule) fun _ => .bind (keeps_optionally _ (keeps_attempt hP _)) fun _ =>
    keeps_optionally _ (keeps_attempt hP _)

/-- How a start ends whose checks have failed. -/
theorem failPreflight_ends {errors : List String} {s m : ApplicationProcess}
    {outcome : Except ApplicationError Unit} (hs : s.state = .preflight)
    (h : Ends (failPreflight answers errors) s outcome m) :
    ∃ closing, closing = { s.turned .stopping with tradingEnabled := false } ∧
      (answers.raises .close = true ∧ m = closing.called [.close] ∨
        answers.raises .close = false ∧ m = { closing.called [.close] with closed := true }.turned .stopped) := by
  refine ⟨_, rfl, ?_⟩
  unfold failPreflight close at h
  rw [ends_bind_of_returns ((ends_transition_iff (by rw [hs]; simp [RuntimeState.next])).mpr ⟨rfl, rfl⟩),
    ends_bind_of_returns (ends_modify_iff.mpr ⟨rfl, rfl⟩), bind_assoc] at h
  rcases ends_bind_iff.mp h with ⟨error, hraises, -⟩ | ⟨_, _, hreturns, h⟩
  · obtain ⟨rfl, herror⟩ := ends_attempt_iff.mp hraises
    refine .inl ⟨?_, rfl⟩
    rw [outcome_cons] at herror
    cases hclose : answers.raises .close with
    | true => rfl
    | false =>
      rw [hclose] at herror
      cases herror
  · obtain ⟨rfl, hok⟩ := ends_attempt_iff.mp hreturns
    have hclose := outcome_eq_ok_iff.mp hok.symm .close (List.mem_singleton_self _)
    rw [ends_bind_of_returns (ends_modify_iff.mpr ⟨rfl, rfl⟩),
      ends_bind_of_returns ((ends_transition_iff (List.mem_singleton_self _)).mpr ⟨rfl, rfl⟩)] at h
    exact .inr ⟨hclose, (ends_throw_iff.mp h).2⟩

theorem keeps_stop (hP : ∀ s t, t.state = s.state → t.history = s.history → P s → P t)
    (hturn : KeptBy P [.stopping, .stopped]) : Keeps P (composition.stop raises) := by
  have hattempt : ∀ call, Keeps P (attempt raises call) := keeps_attempt fun s _ _ _ hs =>
    hP s _ rfl rfl hs
  refine .bind .get fun process => .ite (fun _ => .pure) fun _ => ?_
  exact .bind (keeps_optionally _ (keeps_transition hturn (by simp))) fun _ =>
    .bind (.modify fun s hs => hP s _ rfl rfl hs) fun _ => .bind (keeps_optionally _ (hattempt _)) fun _ =>
    .bind (keeps_optionally _ (hattempt _)) fun _ => .bind (hattempt _) fun _ =>
    .bind (keeps_optionally _ (hattempt _)) fun _ => .bind (keeps_optionally _ (hattempt _)) fun _ =>
    .bind (keeps_transition hturn (by simp)) fun _ => .bind (keeps_optionally _ (hattempt _)) fun _ =>
    .bind (hattempt _) fun _ => .modify fun s hs => hP s _ rfl rfl hs

theorem Follows.same {s : ApplicationProcess} (h : Follows s) (hstate : t.state = s.state)
    (hhistory : t.history = s.history) : Follows t :=
  ⟨hhistory ▸ h.first, hhistory ▸ hstate ▸ h.last, hhistory ▸ h.steps⟩

theorem follows_turned (targets : List RuntimeState) : KeptBy Follows targets :=
  fun _ _ _ htarget hs => hs.turned htarget

/-- Nothing has been shut down. -/
def Open (process : ApplicationProcess) : Prop := process.state ≠ .stopped ∧ process.closed = false

/-- All has been, and trading is off. -/
def Closed (process : ApplicationProcess) : Prop :=
  process.state = .stopped ∧ process.closed = true ∧ process.tradingEnabled = false

/-- A start leaves the application open, or its checks have failed and it has closed it. -/
theorem start_ends {m : ApplicationProcess} {outcome : Except ApplicationError Unit}
    (h : Ends (composition.start answers) {} outcome m) : Follows m ∧ (Open m ∨ Closed m) := by
  have hfollows : Follows ({} : ApplicationProcess) := ⟨rfl, rfl, List.isChain_singleton _⟩
  have hsame : OfLifecycle Follows := fun _ _ hstate hhistory _ hs =>
    hs.same hstate hhistory
  have hchecks : Follows (({} : ApplicationProcess).turned .preflight) := hfollows.turned (by simp [RuntimeState.next])
  unfold start at h
  rw [ends_bind_of_returns (ends_get_iff.mpr ⟨rfl, rfl⟩), if_pos rfl,
    ends_bind_of_returns ((ends_transition_iff (by simp [RuntimeState.next])).mpr ⟨rfl, rfl⟩)] at h
  dsimp only at h
  split at h
  · have hopen : OfLifecycle Open := fun s t hstate _ hclosed hs => ⟨hstate ▸ hs.1, hclosed ▸ hs.2⟩
    have hturn : KeptBy Open [.restoring, .warmup, .running] := by
      intro s target htarget _ hs
      refine ⟨?_, hs.2⟩
      rintro rfl
      simp at htarget
    exact ⟨Keeps.bind (keeps_launch hsame (follows_turned _)) (fun _ => keeps_announce hsame.unannounced) _ _ _ hchecks h,
      .inl (Keeps.bind (keeps_launch hopen hturn) (fun _ => keeps_announce hopen.unannounced) _ _ _ ⟨by simp [ApplicationProcess.turned], rfl⟩ h)⟩
  · have hstopping : Follows ((({} : ApplicationProcess).turned .preflight).turned .stopping) :=
      hchecks.turned (by simp [RuntimeState.next, ApplicationProcess.turned])
    obtain ⟨_, rfl, ⟨-, rfl⟩ | ⟨-, rfl⟩⟩ := failPreflight_ends rfl h
    · exact ⟨hstopping.same rfl rfl, .inl ⟨by simp [ApplicationProcess.turned, ApplicationProcess.called], rfl⟩⟩
    · have hclosed : Follows { (({} : ApplicationProcess).turned .preflight).turned .stopping with
          calls := [.close], closed := true } := hstopping.same rfl rfl
      exact ⟨(hclosed.turned (List.mem_singleton_self _)).same rfl rfl, .inr ⟨rfl, rfl, rfl⟩⟩

theorem serve_ends {m : ApplicationProcess} {outcome : Except ApplicationError Unit} {taskEnds : Bool}
    (h : Ends (composition.serve answers taskEnds raises) {} outcome m) : Follows m ∧ (Open m ∨ Closed m) := by
  rcases ends_bind_iff.mp h with ⟨error, hstart, -⟩ | ⟨_, started, hstart, hawait⟩
  · exact start_ends hstart
  · obtain ⟨hfollows, hended⟩ := start_ends hstart
    cases taskEnds with
    | false =>
      obtain ⟨-, rfl⟩ := ends_pure_iff.mp hawait
      exact ⟨hfollows, hended⟩
    | true =>
      obtain ⟨rfl, -⟩ := ends_attempt_iff.mp hawait
      exact ⟨hfollows.same rfl rfl, hended⟩

/-- However the calls of a run answer, and whichever of them raise, its lifecycle follows the table of
transitions and trading is off at its end.  The dependencies are closed at its end exactly when it has
stopped before its shutdown, or no call of the shutdown raises. -/
theorem run_ends (composition : Composition) (answers : StartAnswers) (taskEnds : Bool)
    (raises : AppCall → Bool) (result : Except ApplicationError Unit) (t : ApplicationProcess)
    (h : Ends (composition.run answers taskEnds raises) {} result t) :
    Follows t ∧ t.tradingEnabled = false ∧ ∃ outcome served,
      Ends (composition.serve answers taskEnds raises) {} outcome served ∧
      (t.closed = true ↔ served.state = .stopped ∨ ∀ call ∈
        composition.shutdownCalls served ++ composition.closingCalls, raises call = false) ∧
      (t.state = .stopped ↔ served.state = .stopped ∨
        ∀ call ∈ composition.shutdownCalls served, raises call = false) ∧
      (served.state ≠ .stopped → t.calls = served.calls ++
        made raises (composition.shutdownCalls served ++ composition.closingCalls)) := by
  obtain ⟨outcome, served, hserve, hstop⟩ := ends_andFinally_iff.mp h
  obtain ⟨hfollows, hserved⟩ := serve_ends hserve
  obtain ⟨stopping, hstop⟩ : ∃ stopping, Ends (composition.stop raises) served stopping t := by
    rcases hstop with ⟨error, hstop, -⟩ | ⟨hstop, -⟩
    · exact ⟨_, hstop⟩
    · exact ⟨_, hstop⟩
  have hpath : Follows t := keeps_stop (fun _ _ hstate hhistory hs => hs.same hstate hhistory)
    (follows_turned _) _ _ _ hfollows hstop
  rcases hserved with ⟨hopen, hnot⟩ | ⟨hstopped, hclosed, htrading⟩
  · have hshut := stop_shuts_down hopen hstop
    refine ⟨hpath, hshut.trading.1, outcome, served, hserve, ?_, ?_, fun _ => hshut.calls⟩
    · rw [hshut.closed, hnot]
      simp [hopen]
    · rw [hshut.stopped]
      simp [hopen]
  · have hsame : t = served := by
      unfold stop at hstop
      rw [ends_bind_of_returns (ends_get_iff.mpr ⟨rfl, rfl⟩), if_pos hstopped] at hstop
      exact (ends_pure_iff.mp hstop).2
    subst hsame
    exact ⟨hpath, htrading, outcome, t, hserve, iff_of_true hclosed (.inl hstopped),
      iff_of_true hstopped (.inl hstopped), fun hne => absurd hstopped hne⟩

end Composition

def btcApplication : Composition where
  symbols := ["BTCUSDT"]
  warmupCandles := 200

/-- A start in which every call answers well. -/
def goodAnswers : StartAnswers where
  preflight :=
    { tradingMode := "paper"
      exchange := "testnet"
      symbols := ["BTCUSDT"]
      initialCapital := 1000
      hasRiskConfig := true
      databaseCheck := some true
      migrationCheck := some true }
  available := Dict.empty.set "BTCUSDT" 250
  session := some "paper_session_20250101"

def taskRaises (call : AppCall) : Bool := call = .runTask

/-- The task of the runtime fails, and the shutdown after it ends there. -/
theorem failed_task_stays_open : ∃ t, Ends (btcApplication.run goodAnswers true taskRaises) {}
      (.error (.raised .runTask)) t ∧ t.closed = false ∧ t.state = .stopping ∧
    Composition.Follows t ∧ t.tradingEnabled = false :=
  have h := Composition.run_ends btcApplication goodAnswers true taskRaises (.error (.raised .runTask)) _ rfl
  ⟨_, rfl, rfl, rfl, h.1, h.2.1⟩

end CryptoTrading
