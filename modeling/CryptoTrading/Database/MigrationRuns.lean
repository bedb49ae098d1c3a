import CryptoTrading.Database.Migrations
import CryptoTrading.Kit.ExclusiveSections
import CryptoTrading.Kit.Observed
import Mathlib.Logic.Function.Basic

/-! Runs of the migration runner, any number of them at the same time, on one database.  A runner applies
a file in a transaction that first looks for its version and later records it; what lets the two agree is
the advisory lock that it takes before its first file and keeps until its connection is closed. -/

namespace CryptoTrading

open Kit

/-- A row of `public.schema_migrations`. -/
structure MigrationRecord where
  version : ℕ
  filename : String
  checksum : String
  deriving DecidableEq

/-- The committed contents of the database.  There is no history before the table is created. -/
structure MigratedDatabase (σ : Type) where
  history : Option (List MigrationRecord) := none
  schema : σ

inductive MigrationError
  | undefinedTable
  | differs (version : ℕ)
  | script
  | uniqueViolation
  deriving DecidableEq

namespace MigratedDatabase

variable {σ : Type}

/-- `_ensure_history`: `CREATE TABLE IF NOT EXISTS`. -/
def ensureHistory (database : MigratedDatabase σ) : MigratedDatabase σ :=
  { database with history := some (database.history.getD []) }

/-- The `SELECT` for a version. -/
def recorded (database : MigratedDatabase σ) (version : ℕ) :
    Except MigrationError (Option MigrationRecord) :=
  match database.history with
  | none => .error .undefinedTable
  | some history => .ok (history.find? fun record => record.version = version)

end MigratedDatabase

namespace MigrationSettings

variable {β σ : Type} {settings : MigrationSettings β σ}

/-- What is recorded of a file. -/
def Migration.record (migration : settings.Migration) : MigrationRecord :=
  { version := migration.version
    filename := migration.name
    checksum := settings.checksum migration.contents }

/-- `history_changed`. -/
def historyChanged (migration : settings.Migration) (recorded : MigrationRecord) : Bool :=
  recorded.filename ≠ migration.name || recorded.checksum ≠ settings.checksum migration.contents

/-- The script, the `INSERT` under the primary key and the unique name, and the commit. -/
def applyMigration (database : MigratedDatabase σ) (migration : settings.Migration) :
    Except MigrationError (MigratedDatabase σ) :=
  match settings.execute migration.contents database.schema, database.history with
  | none, _ => .error .script
  | some _, none => .error .undefinedTable
  | some schema, some history =>
    if history.any fun record => record.version = migration.version || record.filename = migration.name then
      .error .uniqueViolation
    else .ok { history := some (history ++ [migration.record]), schema }

/-- The body of the loop of `apply_migrations`, with nobody else at the database. -/
def migrate (database : MigratedDatabase σ) (migration : settings.Migration) :
    Except MigrationError (MigratedDatabase σ) := do
  match ← database.recorded migration.version with
  | some recorded =>
    if historyChanged migration recorded then .error (.differs migration.version) else .ok database
  | none => applyMigration database migration

variable {database after : MigratedDatabase σ} {migration : settings.Migration}

theorem applyMigration_eq_ok_iff : applyMigration database migration = .ok after ↔
    ∃ schema history, settings.execute migration.contents database.schema = some schema ∧
      database.history = some history ∧
      (∀ record ∈ history, record.version ≠ migration.version ∧ record.filename ≠ migration.name) ∧
      after = { history := some (history ++ [migration.record]), schema } := by
  unfold applyMigration
  split
  · rename_i hraises
    exact iff_of_false nofun (by simp [hraises])
  · rename_i hmissing
    exact iff_of_false nofun (by simp [hmissing])
  · rename_i schema history hexecutes hhistory
    split
    · rename_i hconflict
      refine iff_of_false nofun ?_
      rintro ⟨_, other, -, hother, hfree, -⟩
      cases hhistory.symm.trans hother
      obtain ⟨record, hrecord, hsame⟩ := List.any_eq_true.mp hconflict
      simp [hfree record hrecord] at hsame
    · rename_i hfree
      simp only [List.any_eq_true, Bool.or_eq_true, decide_eq_true_eq, not_exists, not_and, not_or] at hfree
      constructor
      · intro h
        cases h
        exact ⟨schema, history, hexecutes, hhistory, hfree, rfl⟩
      · rintro ⟨_, _, hexecutes', hhistory', -, rfl⟩
        cases hexecutes.symm.trans hexecutes'
        cases hhistory.symm.trans hhistory'
        rfl

theorem migrate_eq_ok_iff : migrate database migration = .ok after ↔
    (∃ recorded, database.recorded migration.version = .ok (some recorded) ∧
      historyChanged migration recorded = false ∧ after = database) ∨
    database.recorded migration.version = .ok none ∧ applyMigration database migration = .ok after := by
  unfold migrate
  rw [bind_eq_ok_iff]
  constructor
  · rintro ⟨_ | recorded, hrecorded, h⟩
    · exact .inr ⟨hrecorded, h⟩
    · dsimp only at h
      split at h
      · cases h
      · rename_i hsame
        cases h
        exact .inl ⟨recorded, hrecorded, Bool.eq_false_iff.mpr hsame, rfl⟩
  · rintro (⟨recorded, hrecorded, hsame, rfl⟩ | ⟨hrecorded, h⟩)
    · exact ⟨_, hrecorded, if_neg (Bool.eq_false_iff.mp hsame)⟩
    · exact ⟨_, hrecorded, h⟩

end MigrationSettings

section Runs

variable {β σ : Type} (settings : MigrationSettings β σ) (ρ : Type*)

/-- Where a runner is in `apply_migrations`.  The loop has passed the files of `passed`, and `rest` are
the others. -/
inductive RunnerPhase
  | idle
  /-- In the transaction that creates the table and asks for the lock. -/
  | waiting (migrations : List settings.Migration)
  | choosing (passed rest : List settings.Migration)
  /-- The `SELECT` has found no row. -/
  | applying (passed : List settings.Migration) (migration : settings.Migration)
      (rest : List settings.Migration)
  /-- The loop has been left, after the last file or at one that raised. -/
  | closing (passed rest : List settings.Migration)
  | ended (passed rest : List settings.Migration) (successful : Bool)

/-- What a runner does until it waits for the database again. -/
inductive MigrationStep (β : Type)
  | discover (runner : ρ) (directory : List (DirectoryEntry β))
  | lock (runner : ρ)
  | select (runner : ρ)
  | apply (runner : ρ)
  | dispose (runner : ρ)
  /-- The process ends, or its connection does. -/
  | crash (runner : ρ)

/-- The database, the holder of the advisory lock, and the runners. -/
structure MigrationRuns where
  database : MigratedDatabase σ
  lock : Option ρ := none
  runners : ρ → RunnerPhase settings := fun _ => .idle

inductive MigrationEvent
  | locked (runner : ρ)
  | skipped (runner : ρ) (migration : settings.Migration)
  | applied (runner : ρ) (migration : settings.Migration)

end Runs

namespace RunnerPhase

variable {β σ : Type} {settings : MigrationSettings β σ}

def passed : RunnerPhase settings → List settings.Migration
  | idle | waiting _ => []
  | choosing passed _ | applying passed _ _ | closing passed _ | ended passed _ _ => passed

def rest : RunnerPhase settings → List settings.Migration
  | idle => []
  | waiting migrations => migrations
  | choosing _ rest | closing _ rest | ended _ rest _ => rest
  | applying _ migration rest => migration :: rest

/-- Between the lock and the end of the connection. -/
def holdsLock : RunnerPhase settings → Bool
  | choosing .. | applying .. | closing .. => true
  | idle | waiting _ | ended .. => false

def mayLock : RunnerPhase settings → Bool
  | idle | waiting _ => true
  | choosing .. | applying .. | closing .. | ended .. => false

/-- The runner has no migrations: it has not asked for them, or they were an error. -/
def undiscovered : RunnerPhase settings → Prop
  | idle => True
  | ended passed rest successful => passed = [] ∧ rest = [] ∧ successful = false
  | waiting _ | choosing .. | applying .. | closing .. => False

end RunnerPhase

namespace MigrationRuns

variable {β σ : Type} {settings : MigrationSettings β σ} {ρ : Type*} [DecidableEq ρ]

/-- A runner is in a new phase. -/
def enter (runs : MigrationRuns settings ρ) (runner : ρ) (phase : RunnerPhase settings) :
    MigrationRuns settings ρ :=
  { runs with runners := Function.update runs.runners runner phase }

/-- The connection of a runner is closed, and with it what it has locked is free. -/
def close (runs : MigrationRuns settings ρ) (runner : ρ) (successful : Bool) : MigrationRuns settings ρ :=
  let phase := runs.runners runner
  { runs.enter runner (.ended phase.passed phase.rest successful) with
    lock := if runs.lock = some runner then none else runs.lock }

def step? (runs : MigrationRuns settings ρ) :
    MigrationStep ρ β → Option (MigrationRuns settings ρ × List (MigrationEvent settings ρ))
  | .discover runner directory =>
    match runs.runners runner with
    | .idle =>
      match settings.discoverMigrations directory with
      | .error _ => some (runs.enter runner (.ended [] [] false), [])
      | .ok migrations => some (runs.enter runner (.waiting migrations), [])
    | _ => none
  | .lock runner =>
    match runs.runners runner, runs.lock with
    | .waiting migrations, none =>
      -- Nobody sees the table before this transaction commits.
      some ({ runs.enter runner (.choosing [] migrations) with
        database := runs.database.ensureHistory
        lock := some runner }, [.locked runner])
    | _, _ => none
  | .select runner =>
    match runs.runners runner with
    | .choosing passed [] => some (runs.enter runner (.closing passed []), [])
    | .choosing passed (migration :: rest) =>
      match runs.database.recorded migration.version with
      | .error _ => some (runs.enter runner (.closing passed (migration :: rest)), [])
      | .ok none => some (runs.enter runner (.applying passed migration rest), [])
      | .ok (some recorded) =>
        if MigrationSettings.historyChanged migration recorded then
          some (runs.enter runner (.closing passed (migration :: rest)), [])
        else some (runs.enter runner (.choosing (passed ++ [migration]) rest), [.skipped runner migration])
    | _ => none
  | .apply runner =>
    match runs.runners runner with
    | .applying passed migration rest =>
      match MigrationSettings.applyMigration runs.database migration with
      | .error _ => some (runs.enter runner (.closing passed (migration :: rest)), [])
      | .ok database =>
        some ({ runs.enter runner (.choosing (passed ++ [migration]) rest) with database },
          [.applied runner migration])
    | _ => none
  | .dispose runner =>
    match runs.runners runner with
    | .closing _ rest => some (runs.close runner (rest = []), [])
    | _ => none
  | .crash runner =>
    match runs.runners runner with
    | .idle | .ended .. => none
    | _ => some (runs.close runner false, [])

/-! ### What a step changes -/

/-- What a step of a runner can do to the runs, and what is seen of it. -/
inductive Change (runs : MigrationRuns settings ρ) :
    MigrationStep ρ β → MigrationRuns settings ρ → List (MigrationEvent settings ρ) → Prop
  | discovered {runner : ρ} {directory : List (DirectoryEntry β)} {phase : RunnerPhase settings}
      (idle : runs.runners runner = .idle)
      (found : phase = .ended [] [] false ∨ ∃ migrations,
        settings.discoverMigrations directory = .ok migrations ∧ phase = .waiting migrations) :
      Change runs (.discover runner directory) (runs.enter runner phase) []
  | locked {step : MigrationStep ρ β} {runner : ρ} {migrations : List settings.Migration}
      (waiting : runs.runners runner = .waiting migrations) (free : runs.lock = none) :
      Change runs step { runs.enter runner (.choosing [] migrations) with
        database := runs.database.ensureHistory
        lock := some runner } [.locked runner]
  /-- The runner goes on without the database, or with a version that is not recorded. -/
  | turned {step : MigrationStep ρ β} {runner : ρ} {phase : RunnerPhase settings}
      (held : (runs.runners runner).holdsLock)
      (holds : phase.holdsLock) (passed : phase.passed = (runs.runners runner).passed)
      (rest : phase.rest = (runs.runners runner).rest)
      (unrecorded : ∀ passed migration rest, phase = .applying passed migration rest →
        runs.database.recorded migration.version = .ok none) :
      Change runs step (runs.enter runner phase) []
  | skipped {step : MigrationStep ρ β} {runner : ρ} {passed rest : List settings.Migration}
      {migration : settings.Migration} {recorded : MigrationRecord}
      (choosing : runs.runners runner = .choosing passed (migration :: rest))
      (found : runs.database.recorded migration.version = .ok (some recorded))
      (same : MigrationSettings.historyChanged migration recorded = false) :
      Change runs step (runs.enter runner (.choosing (passed ++ [migration]) rest)) [.skipped runner migration]
  | applied {step : MigrationStep ρ β} {runner : ρ} {passed rest : List settings.Migration}
      {migration : settings.Migration} {database : MigratedDatabase σ}
      (applying : runs.runners runner = .applying passed migration rest)
      (done : MigrationSettings.applyMigration runs.database migration = .ok database) :
      Change runs step { runs.enter runner (.choosing (passed ++ [migration]) rest) with database }
        [.applied runner migration]
  | closed {step : MigrationStep ρ β} {runner : ρ} {successful : Bool}
      (started : ¬(runs.runners runner).undiscovered)
      (through : successful → (runs.runners runner).rest = []) :
      Change runs step (runs.close runner successful) []

theorem change_of_step? {runs after : MigrationRuns settings ρ} {step : MigrationStep ρ β}
    {new : List (MigrationEvent settings ρ)} (h : runs.step? step = some (after, new)) :
    Change runs step after new := by
  cases step with
  | discover runner directory =>
    simp only [step?] at h
    split at h
    · rename_i hidle
      split at h
      · cases h
        exact .discovered hidle (.inl rfl)
      · rename_i migrations hfound
        cases h
        exact .discovered hidle (.inr ⟨migrations, hfound, rfl⟩)
    · cases h
  | lock runner =>
    simp only [step?] at h
    split at h
    · rename_i hwaiting hfree
      cases h
      exact .locked hwaiting hfree
    · cases h
  | select runner =>
    simp only [step?] at h
    split at h
    · rename_i passed hchoosing
      cases h
      exact .turned (by rw [hchoosing]; rfl) rfl (by rw [hchoosing]; rfl) (by rw [hchoosing]; rfl) nofun
    · rename_i passed migration rest hchoosing
      split at h
      · cases h
        exact .turned (by rw [hchoosing]; rfl) rfl (by rw [hchoosing]; rfl) (by rw [hchoosing]; rfl) nofun
      · rename_i hnone
        cases h
        refine .turned (by rw [hchoosing]; rfl) rfl (by rw [hchoosing]; rfl) (by rw [hchoosing]; rfl) ?_
        rintro _ _ _ ⟨⟩
        exact hnone
      · rename_i recorded hfound
        split at h
        · cases h
          exact .turned (by rw [hchoosing]; rfl) rfl (by rw [hchoosing]; rfl) (by rw [hchoosing]; rfl) nofun
        · rename_i hsame
          cases h
          exact .skipped hchoosing hfound (Bool.not_eq_true _ ▸ hsame)
    · cases h
  | apply runner =>
    simp only [step?] at h
    split at h
    · rename_i passed migration rest happlying
      split at h
      · cases h
        exact .turned (by rw [happlying]; rfl) rfl (by rw [happlying]; rfl) (by rw [happlying]; rfl) nofun
      · rename_i database hdone
        cases h
        exact .applied happlying hdone
    · cases h
  | dispose runner =>
    simp only [step?] at h
    split at h
    · rename_i passed rest hclosing
      cases h
      exact .closed (by rw [hclosing]; exact id) (by simp [hclosing, RunnerPhase.rest])
    · cases h
  | crash runner =>
    simp only [step?] at h
    split at h
    · cases h
    · cases h
    · rename_i hidle hended
      cases h
      refine .closed ?_ nofun
      cases hphase : runs.runners runner with
      | idle => exact absurd hphase hidle
      | ended passed rest successful => exact absurd hphase (hended passed rest successful)
      | waiting | choosing | applying | closing => exact id

end MigrationRuns

end CryptoTrading
