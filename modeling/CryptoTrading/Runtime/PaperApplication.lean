import CryptoTrading.Exchange.PaperStateRepository

/-! The start and the stop of the application: the checks before a start, the restore of the durable
state, and the checkpoint with which a start that failed is shut down. -/

namespace CryptoTrading

inductive RuntimeState
  | created
  | preflight
  | restoring
  | warmup
  | running
  | stopping
  | stopped
  deriving DecidableEq, Repr

/-! ### The checks before a start -/

/-- `StartupPreflight`, with what its database and migration checks answer; `none` is a check that
raises. -/
structure StartupPreflight where
  tradingMode : String
  exchange : String
  symbols : List String
  initialCapital : Decimal
  hasRiskConfig : Bool
  databaseCheck : Option Bool
  migrationCheck : Option Bool

namespace StartupPreflight

/-- A string with a character that `str.strip` keeps. -/
def nonblank (text : String) : Bool :=
  text.toList.any fun c => !(decide (c.toNat ∈ [9, 10, 11, 12, 13, 28, 29, 30, 31, 32, 133, 160, 5760,
    8192, 8193, 8194, 8195, 8196, 8197, 8198, 8199, 8200, 8201, 8202, 8232, 8233, 8239, 8287,
    12288]))

/-- The check `name` when `passed`, and the error otherwise. -/
def gate (passed : Bool) (name error : String) : List String × List String :=
  if passed then ([name], []) else ([], [error])

/-- `run`: the checks that passed and the errors, with a repository whose load may raise. -/
def run (preflight : StartupPreflight) (raises : LoadCall → Bool) : List String × List String :=
  let database := preflight.databaseCheck.getD false
  let outcomes :=
    [gate (preflight.tradingMode = "paper") "trading_mode=paper"
        (if preflight.tradingMode = "live" then "Live mode cannot start the paper runtime"
          else "Unknown trading mode: " ++ preflight.tradingMode),
      gate (nonblank preflight.exchange) "exchange_configuration"
        "Exchange configuration is missing",
      gate (!preflight.symbols.isEmpty && preflight.symbols.all nonblank) "symbol_list"
        "Symbol list is missing",
      gate (preflight.initialCapital > 0) "initial_capital" "Initial capital must be positive",
      gate preflight.hasRiskConfig "risk_configuration" "Risk configuration is missing",
      gate database "database_connection" "Database unavailable",
      gate (database && preflight.migrationCheck.getD false) "migration_state"
        "Database migration state is unavailable",
      gate (!raises .preflightState) "restore_available" "Paper state restore is unavailable"]
  (outcomes.flatMap Prod.fst, outcomes.flatMap Prod.snd)

end StartupPreflight

/-! ### Starting and stopping -/

inductive StartError
  /-- "Paper application can only be started once" -/
  | startedOnce
  /-- "Paper runtime preflight failed: ..." -/
  | preflight (errors : List String)
  | restore (error : RestoreError)
  deriving DecidableEq

structure PaperApplication where
  lifecycle : RuntimeState := .created
  engine : PaperExecutionEngine
  repository : PaperStateRepository

/-- `PaperTradingRuntime.restore_state`: the engine that it leaves, and the state restored or what it
raised. -/
def restoreRuntimeState (engine : PaperExecutionEngine) (repository : PaperStateRepository)
    (raises : LoadCall → Bool) :
    PaperExecutionEngine × Except RestoreError (Option PaperRuntimeState) :=
  if raises .runtimeState then (engine, .error (.load .runtimeState))
  else
    match repository.runtimeState with
    | none => (engine, .ok none)
    | some state =>
      match engine.restoreState repository raises with
      | (after, some error) => (after, .error error)
      | (after, none) => (after, .ok (some state))

/-- `_checkpoint` of a runtime with no write pending, where `saveRaises` says whether its `save_state`
raises. -/
def checkpointed (engine : PaperExecutionEngine) (repository : PaperStateRepository)
    (saveRaises : Bool) : PaperStateRepository :=
  if saveRaises then repository else repository.saveState engine.savedState

namespace PaperApplication

/-- `start`, up to the end of the restore: the application that it leaves, and what it raised. -/
def start (app : PaperApplication) (preflight : StartupPreflight) (raises : LoadCall → Bool) :
    PaperApplication × Option StartError :=
  if app.lifecycle ≠ .created then (app, some .startedOnce)
  else
    match (preflight.run raises).2 with
    | [] =>
      match restoreRuntimeState app.engine app.repository raises with
      | (engine, .error error) =>
        ({ app with lifecycle := .restoring, engine }, some (.restore error))
      | (engine, .ok _) => ({ app with lifecycle := .warmup, engine }, none)
    | errors => ({ app with lifecycle := .stopped }, some (.preflight errors))

/-- `stop`, before the runtime's task was created: unless the application has stopped, it saves a
checkpoint. -/
def stop (app : PaperApplication) (saveRaises : Bool) : PaperApplication :=
  if app.lifecycle = .stopped then app
  else
    { app with
      lifecycle := if saveRaises then .stopping else .stopped
      repository := checkpointed app.engine app.repository saveRaises }

end PaperApplication

/-- The store after a `run_async` whose restore raises: its `finally` block saves a checkpoint. -/
def afterFailedRun (engine : PaperExecutionEngine) (repository : PaperStateRepository)
    (raises : LoadCall → Bool) (saveRaises : Bool) : PaperStateRepository :=
  checkpointed (restoreRuntimeState engine repository raises).1 repository saveRaises

/-! ### What a failed restore leaves in the store -/

section FailedRestore

variable {engine : PaperExecutionEngine} {repository : PaperStateRepository}
  {raises : LoadCall → Bool} {saveRaises : Bool} {error : RestoreError}

/-- A checkpoint leaves the store as it is when it raises, or when the store already has its row. -/
theorem checkpointed_eq_iff : checkpointed engine repository saveRaises = repository ↔
    saveRaises = true ∨ repository.runtimeState = some engine.savedState := by
  cases saveRaises with
  | true => simp [checkpointed]
  | false =>
    simp only [checkpointed, Bool.false_eq_true, if_false, false_or]
    constructor
    · intro h
      rw [← h]
      rfl
    · intro h
      rw [PaperStateRepository.saveState, ← h]

theorem restoreRuntimeState_engine {state : PaperRuntimeState}
    (hload : raises .runtimeState = false) (hstored : repository.runtimeState = some state) :
    (restoreRuntimeState engine repository raises).1 = (engine.restoreState repository raises).1 := by
  simp only [restoreRuntimeState, hload, Bool.false_eq_true, if_false, hstored]
  split <;> simp_all

/-- The loads of the stored sequence, timestamp and cash. -/
def LoadsState (raises : LoadCall → Bool) : Prop :=
  raises .runtimeState = false ∧ raises .engineState = false

/-- The row that an engine would save after a restore that raises is its own, when no state was
loaded, and the stored one otherwise. -/
theorem savedState_of_failed (h : (restoreRuntimeState engine repository raises).2 = .error error) :
    ¬LoadsState raises ∧
        (restoreRuntimeState engine repository raises).1.savedState = engine.savedState ∨
      LoadsState raises ∧ repository.runtimeState =
        some (restoreRuntimeState engine repository raises).1.savedState := by
  cases hr : raises .runtimeState with
  | true => exact Or.inl ⟨by simp [LoadsState, hr], by simp [restoreRuntimeState, hr]⟩
  | false =>
    cases hs : repository.runtimeState with
    | none => simp [restoreRuntimeState, hr, hs] at h
    | some state =>
      rw [restoreRuntimeState_engine hr hs]
      cases he : raises .engineState with
      | true =>
        rw [engine.restoreState_of_raises repository he]
        exact Or.inl ⟨by simp [LoadsState, he], rfl⟩
      | false =>
        rw [engine.restoreState_savedState he hs]
        exact Or.inr ⟨⟨hr, he⟩, rfl⟩

/-- A checkpoint after a restore that raised keeps the store when the state was loaded before, when
the checkpoint raises as well, or when the store already has the row of the engine as it was. -/
theorem checkpointed_of_failed (h : (restoreRuntimeState engine repository raises).2 = .error error) :
    checkpointed (restoreRuntimeState engine repository raises).1 repository saveRaises = repository ↔
      LoadsState raises ∨ saveRaises = true ∨ repository.runtimeState = some engine.savedState := by
  rw [checkpointed_eq_iff]
  rcases savedState_of_failed h with ⟨hnot, hown⟩ | ⟨hloads, hstored⟩
  · rw [hown]
    simp [hnot]
  · simp [hloads, hstored]

end FailedRestore

/-- After a restore that raised, the store is what it was exactly when the state was loaded before
the failure, when the shutdown's checkpoint raises as well, or when the store already has the row of
the engine as it was; a start that fails in its checks leaves the store alone. -/
theorem failed_restore_keeps_store_iff (app : PaperApplication) (raises : LoadCall → Bool)
    (saveRaises : Bool) (error : RestoreError) (hcreated : app.lifecycle = .created)
    (hfail : (restoreRuntimeState app.engine app.repository raises).2 = .error error) :
    (afterFailedRun app.engine app.repository raises saveRaises = app.repository ↔
        LoadsState raises ∨ saveRaises = true ∨
          app.repository.runtimeState = some app.engine.savedState) ∧
      ∀ preflight : StartupPreflight,
        (((app.start preflight raises).1.stop saveRaises).repository = app.repository ↔
          (preflight.run raises).2 ≠ [] ∨ LoadsState raises ∨ saveRaises = true ∨
            app.repository.runtimeState = some app.engine.savedState) := by
  refine ⟨checkpointed_of_failed hfail, fun preflight => ?_⟩
  cases hrun : (preflight.run raises).2 with
  | cons first rest => simp [PaperApplication.start, hcreated, hrun, PaperApplication.stop]
  | nil =>
    have hstop : ((app.start preflight raises).1.stop saveRaises).repository =
        checkpointed (restoreRuntimeState app.engine app.repository raises).1 app.repository
          saveRaises := by
      have hpair : restoreRuntimeState app.engine app.repository raises =
          ((restoreRuntimeState app.engine app.repository raises).1, .error error) :=
        Prod.ext rfl hfail
      rw [PaperApplication.start, if_neg (by simp [hcreated]), hrun]
      simp only
      rw [hpair]
      simp [PaperApplication.stop]
    rw [hstop, checkpointed_of_failed hfail]
    simp

/-- A new application, and a store with the state of an earlier run. -/
def restarted : PaperApplication where
  engine := { cashBalance := 1000 }
  repository := { runtimeState := some ⟨some (2 * hour), 72000, 900⟩ }

/-- The load of the state raises while the runtime restores. -/
def stateUnavailable : LoadCall → Bool := fun call => decide (call = .runtimeState)

/-- The shutdown after that writes the state of a new engine over the stored one. -/
theorem failed_restore_overwrites : ¬∀ (app : PaperApplication) (raises : LoadCall → Bool)
    (error : RestoreError), app.lifecycle = .created →
      (restoreRuntimeState app.engine app.repository raises).2 = .error error →
      afterFailedRun app.engine app.repository raises false = app.repository := by
  intro h
  have hkept := h restarted stateUnavailable (.load .runtimeState) rfl rfl
  revert hkept
  decide +kernel

/-- `failed_restore_keeps_store_iff` for that start. -/
theorem restarted_loses_state :
    afterFailedRun restarted.engine restarted.repository stateUnavailable false ≠
      restarted.repository := by
  have hiff := (failed_restore_keeps_store_iff restarted stateUnavailable false
    (.load .runtimeState) rfl rfl).1
  rw [Ne, hiff]
  simp only [LoadsState]
  decide +kernel

end CryptoTrading
