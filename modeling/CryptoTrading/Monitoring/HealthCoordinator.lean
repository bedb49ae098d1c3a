import CryptoTrading.Models
import CryptoTrading.Kit.Streaks
import CryptoTrading.Risk.EmergencyStop

/-! The health coordinator: `check_now` asks the monitors of the database and of the risk engine, and a
transition to `CRITICAL` is notified and activates the emergency stop.  The monitors of the market and of
the pipeline are never asked, and the transition is remembered when all of it has returned. -/

namespace CryptoTrading

open Kit

inductive DatabaseHealthStatus
  | ok
  | degraded
  | unavailable
  deriving DecidableEq

def DatabaseHealthStatus.value : DatabaseHealthStatus → String
  | .ok => "OK"
  | .degraded => "DEGRADED"
  | .unavailable => "UNAVAILABLE"

inductive RiskHealthStatus
  | ok
  | warning
  | critical
  deriving DecidableEq

inductive PipelineHealthStatus
  | ready
  | degraded
  | failed
  deriving DecidableEq

inductive SystemHealthStatus
  | healthy
  | degraded
  | critical
  deriving DecidableEq

def SystemHealthStatus.value : SystemHealthStatus → String
  | .healthy => "HEALTHY"
  | .degraded => "DEGRADED"
  | .critical => "CRITICAL"

structure DatabaseHealthResult where
  status : DatabaseHealthStatus
  tradingEnabled : Bool
  deriving DecidableEq

structure RiskHealthResult where
  riskStatus : RiskHealthStatus
  tradingEnabled : Bool
  reasons : List String := []
  deriving DecidableEq

structure SystemHealthResult where
  status : SystemHealthStatus
  database : Option DatabaseHealthStatus := none
  risk : Option RiskHealthStatus := none
  pipeline : Option PipelineHealthStatus := none
  reasons : List String := []
  checkedAt : Datetime
  deriving DecidableEq

inductive NotificationLevel
  | info
  | warning
  | critical
  deriving DecidableEq

/-- What the coordinator is constructed with.  It asks neither the market's monitor nor the
pipeline's. -/
structure HealthSettings where
  databaseMonitor : Bool := false
  marketMonitor : Bool := false
  riskMonitor : Bool := false
  pipelineMonitor : Bool := false
  riskEngine : Bool := false
  emergencyStop : Bool := false
  notifier : Bool := false
  deriving DecidableEq

/-- What the parts of the system say at a check, where they are asked; an error is the text of what is
raised.  What `activate` raises is logged and nothing else. -/
structure HealthReadings where
  now : Datetime
  database : Except String DatabaseHealthResult
  risk : Except String RiskHealthResult
  pipeline : Except String PipelineHealthStatus
  notification : Except String Unit

structure HealthCoordinator where
  lastStatus : Option SystemHealthStatus := none
  checkCount : ℕ := 0
  criticalCount : ℕ := 0
  history : List SystemHealthResult := []

/-- A call of `check_now`, and the calls that it makes. -/
structure HealthCheck where
  readings : HealthReadings
  /-- The arguments `database_available` of `update_system_health`. -/
  healthUpdates : List Bool
  notifications : List (NotificationLevel × String)
  activations : List (EmergencyReason × String)
  outcome : Except String SystemHealthResult

namespace HealthCoordinator

/-- The status of the database, if there is a monitor, and the reasons that it gives. -/
def databaseStatus (settings : HealthSettings) (readings : HealthReadings) :
    Option DatabaseHealthStatus × List String :=
  if settings.databaseMonitor then
    match readings.database with
    | .ok result =>
      (some result.status, if result.tradingEnabled then [] else ["database: " ++ result.status.value])
    | .error text => (some .unavailable, ["database check failed: " ++ text])
  else (none, [])

/-- The status of the risk engine, if there is one and a monitor. -/
def riskStatus (settings : HealthSettings) (readings : HealthReadings) :
    Option RiskHealthStatus × List String :=
  if settings.riskMonitor && settings.riskEngine then
    match readings.risk with
    | .ok result => (some result.riskStatus, if result.tradingEnabled then [] else result.reasons)
    | .error text => (some .critical, ["risk check failed: " ++ text])
  else (none, [])

/-- The overall status; that of the market is always `None` here. -/
def overall (database : Option DatabaseHealthStatus) (risk : Option RiskHealthStatus)
    (pipeline : Option PipelineHealthStatus) : SystemHealthStatus :=
  if database = some .unavailable ∨ risk = some .critical ∨ pipeline = some .failed then .critical
  else if database = some .degraded ∨ risk = some .warning ∨ pipeline = some .degraded then .degraded
  else .healthy

/-- `_classify_emergency`. -/
def classifyEmergency (result : SystemHealthResult) : EmergencyReason :=
  if result.database = some .unavailable then .dbFailure
  else if result.risk = some .critical then .reconciliationFailed
  else .runtimeError

/-- `"; ".join(reasons)`, or what stands for no reasons. -/
def detail (reasons : List String) (default : String) : String :=
  if reasons.isEmpty then default else "; ".intercalate reasons

/-- What is notified of a transition. -/
def notice (previous : Option SystemHealthStatus) (result : SystemHealthResult) :
    Option (NotificationLevel × String) :=
  match result.status with
  | .critical =>
    some (.critical,
      "System health CRITICAL: " ++ detail result.reasons "unknown critical condition")
  | .degraded =>
    some (.warning, "System health DEGRADED: " ++ detail result.reasons "performance degraded")
  | .healthy => previous.map fun previous =>
    (.info, "System health recovered to HEALTHY (was " ++ previous.value ++ ")")

/-- `_handle_transition`: what is notified, whether that returns, and what is activated. -/
def handleTransition (settings : HealthSettings) (previous : Option SystemHealthStatus)
    (result : SystemHealthResult) (notification : Except String Unit) :
    List (NotificationLevel × String) × List (EmergencyReason × String) × Except String Unit :=
  if previous = some result.status then ([], [], .ok ())
  else
    let notices := if settings.notifier then (notice previous result).toList else []
    let sent := if notices.isEmpty then .ok () else notification
    match sent with
    | .error text => (notices, [], .error text)
    | .ok () =>
      let activations := if result.status = .critical ∧ settings.emergencyStop = true then
        [(classifyEmergency result, detail result.reasons "unknown critical condition")] else []
      (notices, activations, .ok ())

/-- `check_now`. -/
def checkNow (settings : HealthSettings) (coordinator : HealthCoordinator)
    (readings : HealthReadings) : HealthCoordinator × HealthCheck :=
  let (database, databaseReasons) := databaseStatus settings readings
  let (risk, riskReasons) := riskStatus settings readings
  let result : SystemHealthResult :=
    { status := overall database risk none, database, risk
      reasons := databaseReasons ++ riskReasons, checkedAt := readings.now }
  let (notifications, activations, handled) :=
    handleTransition settings coordinator.lastStatus result readings.notification
  let transition := decide (coordinator.lastStatus ≠ some result.status)
  let history := coordinator.history ++ [result]
  ({ lastStatus := match handled with
       | .ok () => some result.status
       | .error _ => coordinator.lastStatus
     checkCount := coordinator.checkCount + 1
     criticalCount := coordinator.criticalCount +
       if transition && decide (result.status = .critical) then 1 else 0
     history := history.drop (history.length - 100) },
    { readings
      healthUpdates := if settings.riskEngine then
        (database.map fun status => decide (status ≠ .unavailable)).toList else []
      notifications, activations
      outcome := handled.map fun _ => result })

/-- A call of `check_now` as a step; it can always be made. -/
def step? (settings : HealthSettings) (coordinator : HealthCoordinator) (readings : HealthReadings) :
    Option (HealthCoordinator × List HealthCheck) :=
  some ((checkNow settings coordinator readings).1, [(checkNow settings coordinator readings).2])

/-- A condition that the coordinator sees is critical. -/
def SeesCritical (settings : HealthSettings) (readings : HealthReadings) : Prop :=
  (databaseStatus settings readings).1 = some .unavailable ∨
    (riskStatus settings readings).1 = some .critical

/-- The database is unavailable, the risk status is critical, or the pipeline has failed. -/
def Critical (settings : HealthSettings) (readings : HealthReadings) : Prop :=
  SeesCritical settings readings ∨
    settings.pipelineMonitor = true ∧ readings.pipeline = .ok .failed

/-- The stop has been activated since the last check that was not critical. -/
def FailsClosed (settings : HealthSettings) (checks : List HealthCheck) : Prop :=
  Responsive (fun check => Critical settings check.readings) (fun check => check.activations ≠ [])
    checks

/-- A check is critical, the one before it was not, and it is not one on which the coordinator activates
the stop. -/
def Unanswered (settings : HealthSettings) (before : Observed HealthCoordinator HealthCheck)
    (readings : HealthReadings) : Prop :=
  Critical settings readings ∧
    (∀ last ∈ before.events.getLast?, ¬Critical settings last.readings) ∧
    ¬(settings.emergencyStop = true ∧ SeesCritical settings readings ∧
      before.state.lastStatus ≠ some .critical ∧
      (settings.notifier = true → readings.notification = .ok ()))

theorem overall_eq_critical_iff {database : Option DatabaseHealthStatus}
    {risk : Option RiskHealthStatus} :
    overall database risk none = .critical ↔ database = some .unavailable ∨ risk = some .critical := by
  have hnone : (none : Option PipelineHealthStatus) ≠ some .failed := nofun
  unfold overall
  split
  · rename_i h
    exact iff_of_true rfl (by tauto)
  · rename_i h
    refine iff_of_false ?_ (by tauto)
    split <;> nofun

/-- The stop is activated by a transition to `CRITICAL` that has been notified. -/
theorem handleTransition_activates_iff {settings : HealthSettings}
    {previous : Option SystemHealthStatus} {result : SystemHealthResult}
    {notification : Except String Unit} :
    (handleTransition settings previous result notification).2.1 ≠ [] ↔
      settings.emergencyStop = true ∧ result.status = .critical ∧ previous ≠ some .critical ∧
        (settings.notifier = true → notification = .ok ()) := by
  unfold handleTransition
  split
  · rename_i hsame
    refine iff_of_false (not_not_intro rfl) ?_
    rintro ⟨-, hcritical, hprevious, -⟩
    exact hprevious (hcritical ▸ hsame)
  · rename_i hchanged
    by_cases hcritical : result.status = .critical
    · have hnotice : notice previous result = some (.critical,
          "System health CRITICAL: " ++ detail result.reasons "unknown critical condition") := by
        simp only [notice, hcritical]
      have hprevious : previous ≠ some .critical := hcritical ▸ hchanged
      cases settings.notifier with
      | false => simp [hcritical, hprevious]
      | true => cases notification <;> simp [hnotice, hcritical, hprevious]
    · refine iff_of_false ?_ fun h => hcritical h.2.1
      dsimp only
      split <;> simp [hcritical]

theorem checkNow_activates_iff {settings : HealthSettings} {coordinator : HealthCoordinator}
    {readings : HealthReadings} :
    (checkNow settings coordinator readings).2.activations ≠ [] ↔
      settings.emergencyStop = true ∧ SeesCritical settings readings ∧
        coordinator.lastStatus ≠ some .critical ∧
        (settings.notifier = true → readings.notification = .ok ()) := by
  rw [SeesCritical, ← overall_eq_critical_iff]
  exact handleTransition_activates_iff

/-- A check is answered exactly when those before it were, unless it begins a streak of critical checks
and does not activate the stop. -/
theorem failsClosed_step_iff {settings : HealthSettings} {coordinator after : HealthCoordinator}
    {readings : HealthReadings} {checks new : List HealthCheck}
    (hstep : step? settings coordinator readings = some (after, new)) :
    FailsClosed settings (checks ++ new) ↔
      FailsClosed settings checks ∧ ¬Unanswered settings ⟨coordinator, checks⟩ readings := by
  cases hstep
  refine responsive_concat_iff.trans (and_congr_right fun _ => ?_)
  have hreadings : (checkNow settings coordinator readings).2.readings = readings := rfl
  rw [checkNow_activates_iff, hreadings, Unanswered]
  constructor
  · rintro hanswers ⟨hcritical, hfirst, hsilent⟩
    rcases hanswers hcritical with hactivates | ⟨last, hlast, hdue⟩
    · exact hsilent hactivates
    · exact hfirst last hlast hdue
  · intro hfine hcritical
    by_contra hnone
    obtain ⟨hsilent, hlast⟩ := not_or.mp hnone
    exact hfine ⟨hcritical, fun last hmem hdue => hlast ⟨last, hmem, hdue⟩, hsilent⟩

/-- In a sequence of checks the coordinator fails closed exactly when each check that begins a streak of
critical ones is one on which it activates the stop. -/
theorem fails_closed_iff {settings : HealthSettings} {readings : List HealthReadings}
    {after : Observed HealthCoordinator HealthCheck}
    (hrun : Run (Observed.Step (step? settings)) ⟨{}, []⟩ readings after) :
    FailsClosed settings after.events ↔
      ∀ before label next, Run.Makes (Observed.Step (step? settings)) ⟨{}, []⟩ readings before label
        next → ¬Unanswered settings before label :=
  Observed.iff_makes (I := fun _ _ => True) (P := fun _ => FailsClosed settings) hrun trivial
    responsive_nil fun _ _ _ _ _ _ hstep => ⟨trivial, failsClosed_step_iff hstep⟩

/-- The database cannot be asked, and whether the notifier can be reached. -/
def outage (notification : Except String Unit) : HealthReadings where
  now := 0
  database := .error "connection refused"
  risk := .ok ⟨.ok, true, []⟩
  pipeline := .ok .ready
  notification := notification

/-- Everything is configured. -/
def allMonitors : HealthSettings where
  databaseMonitor := true
  marketMonitor := true
  riskMonitor := true
  pipelineMonitor := true
  riskEngine := true
  emergencyStop := true
  notifier := true

theorem fails_closed_outage :
    ∃ after, Run (Observed.Step (step? allMonitors)) ⟨{}, []⟩ [outage (.ok ())] after ∧
      FailsClosed allMonitors after.events := by
  have hruns : Observed.after? (step? allMonitors) ⟨{}, []⟩ [outage (.ok ())] = some ⟨_, _⟩ := rfl
  have hrun := Observed.run_of_after? hruns
  refine ⟨_, hrun, (fails_closed_iff hrun).mpr ?_⟩
  rintro before label next ⟨passed, later, hsplit, hbefore, -⟩ ⟨-, -, hsilent⟩
  cases passed with
  | nil =>
    cases hsplit
    cases hbefore
    exact hsilent ⟨rfl, .inl rfl, nofun, fun _ => rfl⟩
  | cons first passed =>
    have hshort := congrArg List.length hsplit
    simp at hshort

/-- The notifier cannot be reached either: the emergency stop is not activated. -/
theorem notifier_silences_stop :
    ∃ after, Run (Observed.Step (step? allMonitors)) ⟨{}, []⟩ [outage (.error "offline")] after ∧
      ¬FailsClosed allMonitors after.events := by
  have hruns : Observed.after? (step? allMonitors) ⟨{}, []⟩ [outage (.error "offline")] =
    some ⟨_, _⟩ := rfl
  refine ⟨_, Observed.run_of_after? hruns, fun hcloses => ?_⟩
  have hanswers := (responsive_concat_iff.mp hcloses).2 (.inl (.inl rfl))
  rcases hanswers with hactivates | ⟨last, hlast, -⟩
  · exact hactivates rfl
  · cases hlast

end HealthCoordinator

end CryptoTrading
