import CryptoTrading.Database.MigrationRuns

/-! What concurrent runs of the migration runner leave behind.  The runs are exclusive sections: a
database that several runners have worked on, some of which may have crashed, is the one they would have
made one after the other.  The history then is the list of what has been applied, and the schema what
the scripts of the history make. -/

namespace CryptoTrading.MigrationRuns

open Kit

variable {β σ : Type} {settings : MigrationSettings β σ} {ρ : Type*}

/-- Who has held the lock. -/
def locked? : MigrationEvent settings ρ → Option ρ
  | .locked runner => some runner
  | _ => none

def applied? : MigrationEvent settings ρ → Option settings.Migration
  | .applied _ migration => some migration
  | _ => none

/-- The runs as sections of their runners. -/
def sections (runs : MigrationRuns settings ρ) (events : List (MigrationEvent settings ρ)) :
    Sections ρ settings.Migration (MigratedDatabase σ) where
  shared := runs.database
  holder := runs.lock
  order := events.filterMap locked?
  performed := fun runner => (runs.runners runner).passed

/-- The lock is held by the runner that is in its section, and what it has not found is not there. -/
structure Guarded (runs : MigrationRuns settings ρ) (events : List (MigrationEvent settings ρ)) : Prop where
  holder : ∀ runner, (runs.runners runner).holdsLock ↔ runs.lock = some runner
  once : ∀ runner ∈ events.filterMap locked?, (runs.runners runner).mayLock = false
  unrecorded : ∀ runner passed migration rest, runs.runners runner = .applying passed migration rest →
    runs.database.recorded migration.version = .ok none

variable {runs after : MigrationRuns settings ρ} {events new : List (MigrationEvent settings ρ)}
  {label : MigrationStep ρ β}

theorem Guarded.start (schema : σ) :
    Guarded ({ database := { schema } } : MigrationRuns settings ρ) [] where
  holder := fun _ => iff_of_false nofun nofun
  once := nofun
  unrecorded := nofun

/-- Two runners are not in their sections at once. -/
theorem Guarded.alone (h : Guarded runs events) {runner other : ρ}
    (hrunner : (runs.runners runner).holdsLock) (hother : (runs.runners other).holdsLock) : other = runner :=
  Option.some_injective _ (((h.holder other).mp hother).symm.trans ((h.holder runner).mp hrunner))

theorem Guarded.append (h : Guarded runs events) (hnew : new.filterMap locked? = []) :
    Guarded runs (events ++ new) :=
  ⟨h.holder, by rw [List.filterMap_append, hnew, List.append_nil]; exact h.once, h.unrecorded⟩

variable [DecidableEq ρ]

/-- What holds of the phases of all runners but one, and of its new one, holds of all of them. -/
theorem forall_update {runners : ρ → RunnerPhase settings} {runner : ρ} {phase : RunnerPhase settings}
    {P : ρ → RunnerPhase settings → Prop} (hnew : P runner phase)
    (hold : ∀ other, other ≠ runner → P other (runners other)) (other : ρ) :
    P other (Function.update runners runner phase other) := by
  rcases eq_or_ne other runner with rfl | hne
  · rwa [Function.update_self]
  · rw [Function.update_of_ne hne]
    exact hold other hne

theorem update_congr {γ : Type*} (f : RunnerPhase settings → γ) (runners : ρ → RunnerPhase settings)
    (runner : ρ) (phase : RunnerPhase settings) (h : f phase = f (runners runner)) :
    (fun other => f (Function.update runners runner phase other)) = fun other => f (runners other) :=
  funext fun other => forall_update (P := fun other phase => f phase = f (runners other)) h
    (fun _ _ => rfl) other

/-- A runner turns to a phase that needs no more of the lock than the one before. -/
theorem Guarded.enter (h : Guarded runs events) {runner : ρ} {phase : RunnerPhase settings}
    (hholds : phase.holdsLock = (runs.runners runner).holdsLock)
    (honce : runner ∈ events.filterMap locked? → phase.mayLock = false)
    (hunrecorded : ∀ passed migration rest, phase = .applying passed migration rest →
      runs.database.recorded migration.version = .ok none) : Guarded (runs.enter runner phase) events where
  holder := forall_update (P := fun other phase => phase.holdsLock ↔ runs.lock = some other)
    (hholds ▸ h.holder runner) fun other _ => h.holder other
  once := forall_update (P := fun other phase => other ∈ events.filterMap locked? → phase.mayLock = false)
    honce fun other _ => h.once other
  unrecorded := forall_update (P := fun _ phase => ∀ passed migration rest,
    phase = .applying passed migration rest → runs.database.recorded migration.version = .ok none)
    hunrecorded fun other _ => h.unrecorded other

theorem Guarded.next (h : Guarded runs events) (hchange : Change runs label after new) :
    Guarded after (events ++ new) := by
  cases hchange with
  | @discovered runner directory phase hidle hfound =>
    have hnew : runner ∉ events.filterMap locked? := fun hmem => by
      simpa [hidle, RunnerPhase.mayLock] using h.once runner hmem
    have hphase : phase.holdsLock = false ∧ ∀ passed migration rest, phase ≠ .applying passed migration rest := by
      rcases hfound with rfl | ⟨_, _, rfl⟩ <;> exact ⟨rfl, nofun⟩
    refine (h.enter ?_ (absurd · hnew) fun passed migration rest heq => ?_).append rfl
    · rw [hphase.1, hidle]
      rfl
    · exact absurd heq (hphase.2 passed migration rest)
  | @locked _ runner migrations hwaiting hfree =>
    have hidle : ∀ other, (runs.runners other).holdsLock = false := fun other => by
      rw [← Bool.not_eq_true, h.holder other, hfree]
      simp
    refine ⟨?_, ?_, ?_⟩
    · refine forall_update (P := fun other phase => phase.holdsLock ↔ some runner = some other)
        (iff_of_true rfl rfl) ?_
      intro other hne
      simp [hidle other, hne.symm]
    · rw [List.filterMap_append]
      refine forall_update (P := fun other phase => other ∈ events.filterMap locked? ++ [runner] →
        phase.mayLock = false) (fun _ => rfl) ?_
      intro other hne hother
      rcases List.mem_append.mp hother with hother | hother
      · exact h.once other hother
      · exact absurd (List.mem_singleton.mp hother) hne
    · refine forall_update (P := fun _ phase => ∀ passed migration rest,
        phase = .applying passed migration rest →
          runs.database.ensureHistory.recorded migration.version = .ok none) nofun ?_
      intro other _ passed migration rest happlying
      cases happlying ▸ hidle other
  | @turned _ runner phase held holds passed rest unrecorded =>
    refine (h.enter (holds.trans held.symm) (fun _ => ?_) unrecorded).append rfl
    cases phase <;> first | rfl | cases holds
  | @skipped _ runner passed rest migration recorded choosing found same =>
    have hentered : Guarded (runs.enter runner (.choosing (passed ++ [migration]) rest)) events :=
      h.enter (by rw [choosing]; rfl) (fun _ => rfl) nofun
    exact hentered.append rfl
  | @applied _ runner passed rest migration database applying done =>
    have held : (runs.runners runner).holdsLock := by rw [applying]; rfl
    have hentered : Guarded (runs.enter runner (.choosing (passed ++ [migration]) rest)) events :=
      h.enter (by rw [applying]; rfl) (fun _ => rfl) nofun
    refine ⟨hentered.holder, (hentered.append rfl).once, forall_update (P := fun _ phase => ∀ passed migration rest,
      phase = .applying passed migration rest → database.recorded migration.version = .ok none)
      (fun _ _ _ heq => nomatch heq) ?_⟩
    intro other hne _ _ _ happlying
    exact absurd (h.alone held (by rw [happlying]; rfl)) hne
  | @closed _ runner successful started through =>
    refine ⟨?_, ?_, ?_⟩
    · refine forall_update (P := fun other phase => phase.holdsLock ↔
        (if runs.lock = some runner then none else runs.lock) = some other) ?_ fun other hne => ?_
      · refine iff_of_false nofun ?_
        split
        · nofun
        · assumption
      · rw [h.holder other]
        split
        · rename_i hlock
          simp [hlock, hne.symm]
        · rfl
    · rw [List.append_nil]
      exact forall_update (P := fun other phase => other ∈ events.filterMap locked? → phase.mayLock = false)
        (fun _ => rfl) fun other _ => h.once other
    · exact forall_update (P := fun _ phase => ∀ passed migration rest,
        phase = .applying passed migration rest → runs.database.recorded migration.version = .ok none)
        nofun fun other _ => h.unrecorded other

/-- A step of the runs is one of their sections. -/
theorem Guarded.sections_step (h : Guarded runs events) (hchange : Change runs label after new) :
    Sections.Step MigratedDatabase.ensureHistory MigrationSettings.migrate (sections runs events)
      (sections after (events ++ new)) := by
  have horder : (events ++ new).filterMap locked? = events.filterMap locked? ++ new.filterMap locked? :=
    List.filterMap_append
  have hquiet : new.filterMap locked? = [] → (events ++ new).filterMap locked? = events.filterMap locked? := by
    intro hnew
    rw [horder, hnew, List.append_nil]
  cases hchange with
  | @discovered runner directory phase hidle hfound =>
    have hpassed : phase.passed = (runs.runners runner).passed := by
      rw [hidle]
      rcases hfound with rfl | ⟨_, _, rfl⟩ <;> rfl
    exact .elsewhere rfl rfl (hquiet rfl) (update_congr RunnerPhase.passed _ _ _ hpassed)
  | @locked _ runner migrations hwaiting hfree =>
    have hpassed := update_congr RunnerPhase.passed runs.runners runner (.choosing [] migrations)
      (by rw [hwaiting]; rfl)
    refine .acquire hfree (fun hmem => ?_) rfl rfl horder hpassed
    cases hwaiting ▸ h.once runner hmem
  | turned held holds passed rest unrecorded =>
    exact .elsewhere rfl rfl (hquiet rfl) (update_congr RunnerPhase.passed _ _ _ passed)
  | @skipped _ runner passed rest migration recorded choosing found same =>
    have hmigrate : MigrationSettings.migrate runs.database migration = .ok runs.database :=
      MigrationSettings.migrate_eq_ok_iff.mpr (.inl ⟨recorded, found, same, rfl⟩)
    refine .operate ((h.holder runner).mp (by rw [choosing]; rfl)) hmigrate rfl (hquiet rfl) ?_ ?_
    · change (Function.update runs.runners runner _ runner).passed = (runs.runners runner).passed ++ _
      rw [Function.update_self, choosing]
      rfl
    · intro other hne
      exact congrArg RunnerPhase.passed (Function.update_of_ne hne _ _)
  | @applied _ runner passed rest migration database applying done =>
    have hmigrate : MigrationSettings.migrate runs.database migration = .ok database :=
      MigrationSettings.migrate_eq_ok_iff.mpr (.inr ⟨h.unrecorded runner _ _ _ applying, done⟩)
    refine .operate ((h.holder runner).mp (by rw [applying]; rfl)) hmigrate rfl (hquiet rfl) ?_ ?_
    · change (Function.update runs.runners runner _ runner).passed = (runs.runners runner).passed ++ _
      rw [Function.update_self, applying]
      rfl
    · intro other hne
      exact congrArg RunnerPhase.passed (Function.update_of_ne hne _ _)
  | @closed _ runner successful started through =>
    have hpassed := update_congr RunnerPhase.passed runs.runners runner
      (.ended (runs.runners runner).passed (runs.runners runner).rest successful) rfl
    rcases eq_or_ne runs.lock (some runner) with hlock | hlock
    · exact .release hlock rfl (if_pos hlock) (hquiet rfl) hpassed
    · exact .elsewhere rfl (if_neg hlock) (hquiet rfl) hpassed

/-- The database that concurrent runs of the runner leave is the one that the runners make one after the
other, in the order in which they got the lock, each of the files that it passed. -/
theorem database_eq_serially {schema : σ} {steps : List (MigrationStep ρ β)}
    {after : Observed (MigrationRuns settings ρ) (MigrationEvent settings ρ)}
    (h : Run (Observed.Step step?) ⟨{ database := { schema } }, []⟩ steps after) :
    Sections.serially MigratedDatabase.ensureHistory MigrationSettings.migrate
      (fun runner => (after.state.runners runner).passed) { schema } (after.events.filterMap locked?) =
        .ok after.state.database := by
  have hinvariant : Guarded after.state after.events ∧ Sections.Serial MigratedDatabase.ensureHistory
      MigrationSettings.migrate { schema } (sections after.state after.events) := by
    refine h.invariant (P := fun _ observed => Guarded observed.state observed.events ∧
      Sections.Serial MigratedDatabase.ensureHistory MigrationSettings.migrate { schema }
        (sections observed.state observed.events)) ⟨.start schema, .start _⟩ ?_
    rintro _ before _ ⟨state, events⟩ ⟨hguarded, hserial⟩ ⟨new, hstep, hevents⟩
    have hchange := change_of_step? hstep
    dsimp only at hevents hchange ⊢
    rw [hevents]
    exact ⟨hguarded.next hchange, hserial.next (hguarded.sections_step hchange)⟩
  exact hinvariant.2.serial

/-- A schema that is the list of the scripts that made it. -/
def listsScripts : MigrationSettings String (List String) where
  digit? := fun c => if '0' ≤ c ∧ c ≤ '9' then some (c.toNat - '0'.toNat) else none
  checksum := id
  execute := fun contents schema => if contents = "" then none else some (schema ++ [contents])

def createRaw : listsScripts.Migration := ⟨"001_create_raw.sql", "CREATE SCHEMA raw", 1, by decide⟩

def createDds : listsScripts.Migration := ⟨"002_create_dds.sql", "CREATE SCHEMA dds", 2, by decide⟩

def migrationsDirectory : List (DirectoryEntry String) :=
  [{ name := createDds.name, contents := createDds.contents }, { name := "README.md", contents := "" },
    { name := createRaw.name, contents := createRaw.contents }]

theorem discover_migrationsDirectory :
    listsScripts.discoverMigrations migrationsDirectory = .ok [createRaw, createDds] := by
  rw [MigrationSettings.discoverMigrations_eq_ok_iff]
  have hfiles : MigrationSettings.sqlFiles migrationsDirectory =
      [{ name := createDds.name, contents := createDds.contents },
        { name := createRaw.name, contents := createRaw.contents }] := rfl
  refine ⟨by simp, by simp [createRaw, createDds], ?_⟩
  rw [hfiles]
  exact .swap ..

/-- Two runners have discovered the files. -/
def bothWait : MigrationRuns listsScripts Bool where
  database := { schema := [] }
  runners := fun _ => .waiting [createRaw, createDds]

theorem both_discover : Run (Observed.Step step?)
    (⟨{ database := { schema := [] } }, []⟩ :
      Observed (MigrationRuns listsScripts Bool) (MigrationEvent listsScripts Bool))
    [.discover false migrationsDirectory, .discover true migrationsDirectory] ⟨bothWait, []⟩ := by
  refine .cons (m := ⟨{ bothWait with
    runners := fun runner => if runner then .idle else .waiting [createRaw, createDds] }, []⟩)
    ⟨[], ?_, rfl⟩ (.single ⟨[], ?_, rfl⟩)
  · simp only [step?, discover_migrationsDirectory, enter]
    refine congrArg (fun runners => some (({ database := { schema := [] }, runners } :
      MigrationRuns listsScripts Bool), [])) (funext fun runner => ?_)
    cases runner <;> rfl
  · simp only [step?, discover_migrationsDirectory, enter]
    refine congrArg (fun runners => some (({ database := { schema := [] }, runners } :
      MigrationRuns listsScripts Bool), [])) (funext fun runner => ?_)
    cases runner <;> rfl

/-- The first runner crashes between its files, and the other goes on. -/
def interruptedSteps : List (MigrationStep Bool String) :=
  [.lock false, .select false, .apply false, .crash false, .lock true, .select true, .select true, .apply true,
    .select true, .dispose true]

theorem interrupted_runs_serial : ∃ after : Observed (MigrationRuns listsScripts Bool)
      (MigrationEvent listsScripts Bool),
    after.events.filterMap locked? = [false, true] ∧
      Sections.serially MigratedDatabase.ensureHistory MigrationSettings.migrate
        (fun runner => (after.state.runners runner).passed) { schema := [] } [false, true] =
          .ok after.state.database :=
  ⟨_, rfl, database_eq_serially (both_discover.append
    (show Run _ _ interruptedSteps _ from Observed.run_of_after? rfl))⟩

/-! ### The history -/

def history (runs : MigrationRuns settings ρ) : List MigrationRecord := runs.database.history.getD []

/-- The history is what has been applied, and the schema what that makes.  What a runner has passed is
recorded, and it has passed all that it has discovered when it ends well. -/
structure Sound (schema : σ) (runs : MigrationRuns settings ρ) (labels : List (MigrationStep ρ β))
    (events : List (MigrationEvent settings ρ)) : Prop where
  recorded : history runs = (events.filterMap applied?).map MigrationSettings.Migration.record
  executed : (events.filterMap applied?).foldlM (fun schema migration =>
    settings.execute migration.contents schema) schema = some runs.database.schema
  distinct : (history runs).Pairwise fun earlier later => earlier.version ≠ later.version
  passed : ∀ runner, ∀ migration ∈ (runs.runners runner).passed, migration.record ∈ history runs
  ended : ∀ runner passed rest, runs.runners runner = .ended passed rest true → rest = []
  discovered : ∀ runner, (runs.runners runner).undiscovered ∨
    ∃ directory, .discover runner directory ∈ labels ∧ settings.discoverMigrations directory =
      .ok ((runs.runners runner).passed ++ (runs.runners runner).rest)

variable {schema : σ} {labels : List (MigrationStep ρ β)}

omit [DecidableEq ρ] in
theorem Sound.start : Sound schema ({ database := { schema } } : MigrationRuns settings ρ) [] [] where
  recorded := rfl
  executed := rfl
  distinct := .nil
  passed := nofun
  ended := nofun
  discovered := fun _ => .inl trivial

omit [DecidableEq ρ] in
theorem record_mem_of_recorded {migration : settings.Migration} {recorded : MigrationRecord}
    (hfound : runs.database.recorded migration.version = .ok (some recorded))
    (hsame : MigrationSettings.historyChanged migration recorded = false) : migration.record ∈ history runs := by
  unfold MigratedDatabase.recorded at hfound
  unfold history
  split at hfound
  · cases hfound
  · rename_i records hrecords
    have hrecorded : records.find? (fun record => record.version = migration.version) = some recorded :=
      Except.ok.inj hfound
    have hversion : recorded.version = migration.version := by simpa using List.find?_some hrecorded
    simp only [MigrationSettings.historyChanged, Bool.or_eq_false_iff, decide_eq_false_iff_not,
      not_not] at hsame
    have heq : recorded = migration.record := by
      rw [MigrationSettings.Migration.record, ← hversion, ← hsame.1, ← hsame.2]
    rw [hrecords, ← heq]
    exact List.mem_of_find?_eq_some hrecorded

omit [DecidableEq ρ] in
/-- What a runner that goes on has discovered. -/
theorem Sound.rediscovered (h : Sound schema runs labels events) {runner : ρ} {phase : RunnerPhase settings}
    (hdiscovered : ¬(runs.runners runner).undiscovered)
    (hsame : phase.passed ++ phase.rest = (runs.runners runner).passed ++ (runs.runners runner).rest) :
    ∃ directory, .discover runner directory ∈ labels ++ [label] ∧
      settings.discoverMigrations directory = .ok (phase.passed ++ phase.rest) := by
  obtain ⟨directory, hmem, hok⟩ := (h.discovered runner).resolve_left hdiscovered
  exact ⟨directory, List.mem_append_left _ hmem, hsame ▸ hok⟩

omit [DecidableEq ρ] in
theorem Sound.discovered_before (h : Sound schema runs labels events) (runner : ρ) :
    (runs.runners runner).undiscovered ∨ ∃ directory, .discover runner directory ∈ labels ++ [label] ∧
      settings.discoverMigrations directory =
        .ok ((runs.runners runner).passed ++ (runs.runners runner).rest) :=
  (h.discovered runner).imp_right fun ⟨directory, hmem, hok⟩ => ⟨directory, List.mem_append_left _ hmem, hok⟩

/-- A runner turns to a phase in which it has passed what it had, or one more that is recorded. -/
theorem Sound.enter (h : Sound schema runs labels events) {runner : ρ} {phase : RunnerPhase settings}
    (hpassed : ∀ migration ∈ phase.passed, migration.record ∈ history runs)
    (hended : ∀ passed rest, phase = .ended passed rest true → rest = [])
    (hdiscovered : phase.undiscovered ∨ ∃ directory, .discover runner directory ∈ labels ++ [label] ∧
      settings.discoverMigrations directory = .ok (phase.passed ++ phase.rest))
    (hnew : new.filterMap applied? = []) :
    Sound schema (runs.enter runner phase) (labels ++ [label]) (events ++ new) := by
  refine ⟨?_, ?_, h.distinct, ?_, ?_, ?_⟩
  · rw [List.filterMap_append, hnew, List.append_nil]
    exact h.recorded
  · rw [List.filterMap_append, hnew, List.append_nil]
    exact h.executed
  · exact forall_update (P := fun _ phase => ∀ migration ∈ phase.passed, migration.record ∈ history runs)
      hpassed fun other _ => h.passed other
  · exact forall_update (P := fun _ phase => ∀ passed rest, phase = .ended passed rest true → rest = [])
      hended fun other _ => h.ended other
  · exact forall_update (P := fun other phase => phase.undiscovered ∨ ∃ directory,
      .discover other directory ∈ labels ++ [label] ∧
        settings.discoverMigrations directory = .ok (phase.passed ++ phase.rest)) hdiscovered
      fun other _ => h.discovered_before other

theorem Sound.next (h : Sound schema runs labels events) (hchange : Change runs label after new) :
    Sound schema after (labels ++ [label]) (events ++ new) := by
  cases hchange with
  | @discovered runner directory phase idle found =>
    rcases found with rfl | ⟨migrations, hfound, rfl⟩
    · exact h.enter nofun nofun (.inl ⟨rfl, rfl, rfl⟩) rfl
    · refine h.enter nofun nofun (.inr ⟨directory, ?_, hfound⟩) rfl
      exact List.mem_append_right _ (List.mem_singleton_self _)
  | @locked _ runner migrations waiting free =>
    have hentered : Sound schema (runs.enter runner (.choosing [] migrations)) (labels ++ [label])
        (events ++ [.locked runner]) := h.enter nofun nofun
      (.inr (h.rediscovered (by rw [waiting]; exact id) (by rw [waiting]; rfl))) rfl
    -- The history of the database is what it was, and there may be one now.
    exact ⟨hentered.recorded, hentered.executed, hentered.distinct, hentered.passed, hentered.ended,
      hentered.discovered⟩
  | @turned _ runner phase held holds passed rest unrecorded =>
    have hdiscovered : ¬(runs.runners runner).undiscovered := by
      cases hphase : runs.runners runner <;> rw [hphase] at held <;> first | exact id | cases held
    refine h.enter (passed ▸ h.passed runner) ?_ (.inr (h.rediscovered hdiscovered (by rw [passed, rest]))) rfl
    rintro _ _ rfl
    cases holds
  | @skipped _ runner passed rest migration recorded choosing found same =>
    refine h.enter ?_ nofun (.inr (h.rediscovered (by rw [choosing]; exact id)
      (by rw [choosing]; simp [RunnerPhase.passed, RunnerPhase.rest]))) rfl
    intro other hother
    rcases List.mem_append.mp hother with hother | hother
    · exact h.passed runner other (by rwa [choosing])
    · rw [List.mem_singleton.mp hother]
      exact record_mem_of_recorded found same
  | @applied _ runner passed rest migration database applying done =>
    obtain ⟨made, records, hexecutes, hrecords, hfree, rfl⟩ :=
      MigrationSettings.applyMigration_eq_ok_iff.mp done
    have hhistory : history runs = records := by
      unfold history
      rw [hrecords]
      rfl
    have hpassed := hhistory ▸ h.passed
    refine ⟨?_, ?_, ?_, ?_, ?_, ?_⟩
    · rw [List.filterMap_append, List.map_append, ← h.recorded, hhistory]
      rfl
    · rw [List.filterMap_append, List.foldlM_append, h.executed]
      change List.foldlM (fun schema (migration : settings.Migration) =>
        settings.execute migration.contents schema) runs.database.schema [migration] = some made
      rw [List.foldlM_cons, hexecutes]
      rfl
    · refine List.pairwise_append.mpr ⟨hhistory ▸ h.distinct, List.pairwise_singleton .., ?_⟩
      intro record hrecord other hother
      rw [List.mem_singleton.mp hother]
      exact (hfree record hrecord).1
    · refine forall_update (P := fun _ phase => ∀ migration' ∈ phase.passed,
        migration'.record ∈ records ++ [migration.record]) ?_
        fun other _ migration' hmem => List.mem_append_left _ (hpassed other migration' hmem)
      intro other hother
      rcases List.mem_append.mp hother with hother | hother
      · exact List.mem_append_left _ (hpassed runner other (by rwa [applying]))
      · rw [List.mem_singleton.mp hother]
        exact List.mem_append_right _ (List.mem_singleton_self _)
    · exact forall_update (P := fun _ phase => ∀ passed rest, phase = .ended passed rest true → rest = [])
        nofun fun other _ => h.ended other
    · refine forall_update (P := fun other phase => phase.undiscovered ∨ ∃ directory,
        .discover other directory ∈ labels ++ [label] ∧
          settings.discoverMigrations directory = .ok (phase.passed ++ phase.rest)) ?_ ?_
      · exact .inr (h.rediscovered (by rw [applying]; exact id)
          (by rw [applying]; simp [RunnerPhase.passed, RunnerPhase.rest]))
      · exact fun other _ => h.discovered_before other
  | @closed _ runner successful started through =>
    have hentered : Sound schema (runs.enter runner
        (.ended (runs.runners runner).passed (runs.runners runner).rest successful)) (labels ++ [label])
        (events ++ []) := h.enter (h.passed runner) (by rintro _ _ ⟨⟩; exact through rfl) (.inr (h.rediscovered started rfl)) rfl
    exact ⟨hentered.recorded, hentered.executed, hentered.distinct, hentered.passed, hentered.ended,
      hentered.discovered⟩

/-- However the runs of the runner interleave, and wherever they are cut off, no version is recorded
twice, the history is what has been applied, and the schema what that makes.  A run that ends well has
passed all that it discovered, and all of it is recorded as it is. -/
theorem history_sound {schema : σ} {steps : List (MigrationStep ρ β)}
    {after : Observed (MigrationRuns settings ρ) (MigrationEvent settings ρ)}
    (h : Run (Observed.Step step?) ⟨{ database := { schema } }, []⟩ steps after) :
    history after.state = (after.events.filterMap applied?).map MigrationSettings.Migration.record ∧
      (after.events.filterMap applied?).foldlM (fun schema migration =>
        settings.execute migration.contents schema) schema = some after.state.database.schema ∧
      ((history after.state).Pairwise fun earlier later => earlier.version ≠ later.version) ∧
      ∀ runner passed rest, after.state.runners runner = .ended passed rest true →
        (∃ directory, .discover runner directory ∈ steps ∧
          settings.discoverMigrations directory = .ok passed) ∧
        ∀ migration ∈ passed, migration.record ∈ history after.state := by
  have hsound : Sound schema after.state steps after.events := by
    refine h.invariant (P := fun labels observed => Sound schema observed.state labels observed.events)
      .start ?_
    rintro labels before label ⟨state, events⟩ hbefore ⟨new, hstep, hevents⟩
    dsimp only at hevents hstep ⊢
    rw [hevents]
    exact hbefore.next (change_of_step? hstep)
  refine ⟨hsound.recorded, hsound.executed, hsound.distinct, ?_⟩
  intro runner passed rest hended
  constructor
  · have hrest := hsound.ended runner passed rest hended
    have hdiscovered := (hsound.discovered runner).resolve_left (by rw [hended]; exact fun h => nomatch h.2.2)
    rw [hended, hrest] at hdiscovered
    simpa [RunnerPhase.passed, RunnerPhase.rest] using hdiscovered
  · have hpassed := hsound.passed runner
    rwa [hended] at hpassed

theorem interrupted_runs_recorded : ∃ after : Observed (MigrationRuns listsScripts Bool)
      (MigrationEvent listsScripts Bool),
    after.state.runners true = .ended [createRaw, createDds] [] true ∧
      ∀ migration ∈ [createRaw, createDds], migration.record ∈ history after.state := by
  refine ⟨_, ?_, ((history_sound (both_discover.append
    (show Run _ _ interruptedSteps _ from Observed.run_of_after? rfl))).2.2.2 true [createRaw, createDds] [] rfl).2⟩
  rfl

/-! ### A runner on its own -/

/-- The steps of one runner, after it has asked for the lock. -/
def ownSteps (runner : ρ) : List (MigrationStep ρ β) :=
  [.lock runner, .select runner, .apply runner, .dispose runner]

/-- From here the runner ends by itself.  It passes `rest` as the loop does that has the database for
itself, up to the first file that raises there, and leaves the lock free. -/
def EndsAlone (observed : Observed (MigrationRuns settings ρ) (MigrationEvent settings ρ)) (runner : ρ)
    (passed rest : List settings.Migration) : Prop :=
  ∃ steps after done left, (∀ step ∈ steps, step ∈ ownSteps runner) ∧
    Run (Observed.Step step?) observed steps after ∧ rest = done ++ left ∧
    after.state.runners runner = .ended (passed ++ done) left (left = []) ∧ after.state.lock = none ∧
    done.foldlM MigrationSettings.migrate observed.state.database = .ok after.state.database ∧
    ∀ migration ∈ left.head?, ∃ error, MigrationSettings.migrate after.state.database migration = .error error

variable {observed next : Observed (MigrationRuns settings ρ) (MigrationEvent settings ρ)} {runner : ρ}
  {passed rest : List settings.Migration} {migration : settings.Migration}

theorem EndsAlone.turn (hstep : Observed.Step step? observed label next) (hown : label ∈ ownSteps runner)
    (hdatabase : next.state.database = observed.state.database) (h : EndsAlone next runner passed rest) :
    EndsAlone observed runner passed rest := by
  obtain ⟨steps, after, done, left, hsteps, hrun, hrest, hended, hlock, hdone, hleft⟩ := h
  exact ⟨label :: steps, after, done, left, List.forall_mem_cons.mpr ⟨hown, hsteps⟩, .cons hstep hrun, hrest,
    hended, hlock, hdatabase ▸ hdone, hleft⟩

theorem EndsAlone.pass (hstep : Observed.Step step? observed label next) (hown : label ∈ ownSteps runner)
    (hmigrate : MigrationSettings.migrate observed.state.database migration = .ok next.state.database)
    (h : EndsAlone next runner (passed ++ [migration]) rest) :
    EndsAlone observed runner passed (migration :: rest) := by
  obtain ⟨steps, after, done, left, hsteps, hrun, rfl, hended, hlock, hdone, hleft⟩ := h
  refine ⟨label :: steps, after, migration :: done, left, List.forall_mem_cons.mpr ⟨hown, hsteps⟩,
    .cons hstep hrun, rfl, ?_, hlock, ?_, hleft⟩
  · rw [hended, List.append_assoc]
    rfl
  · rw [List.foldlM_cons, hmigrate]
    exact hdone

theorem endsAlone_closing (hclosing : observed.state.runners runner = .closing passed rest)
    (hlock : observed.state.lock = some runner)
    (hraises : ∀ migration ∈ rest.head?,
      ∃ error, MigrationSettings.migrate observed.state.database migration = .error error) :
    EndsAlone observed runner passed rest := by
  refine ⟨[.dispose runner], ⟨observed.state.close runner (rest = []), observed.events ++ []⟩, [], rest,
    by simp [ownSteps], .single ⟨[], by simp [step?, hclosing], rfl⟩, rfl, ?_, if_pos hlock, rfl, hraises⟩
  change Function.update observed.state.runners runner _ runner = _
  rw [Function.update_self, hclosing, List.append_nil]
  rfl

theorem endsAlone_choosing (hchoosing : observed.state.runners runner = .choosing passed rest)
    (hlock : observed.state.lock = some runner) : EndsAlone observed runner passed rest := by
  -- The runner has the lock, so that nobody else can be where it finds the database changed.
  induction rest generalizing observed passed with
  | nil =>
    have hstep : Observed.Step step? observed (.select runner)
        ⟨observed.state.enter runner (.closing passed []), observed.events ++ []⟩ :=
      ⟨[], by simp [step?, hchoosing], rfl⟩
    exact .turn hstep (by simp [ownSteps]) rfl (endsAlone_closing (Function.update_self ..) hlock (by simp))
  | cons migration rest ih =>
    have hleave (error : MigrationError) (hstep : Observed.Step step? observed (.select runner)
        ⟨observed.state.enter runner (.closing passed (migration :: rest)), observed.events ++ []⟩)
        (hraises : MigrationSettings.migrate observed.state.database migration = .error error) :
        EndsAlone observed runner passed (migration :: rest) := by
      refine .turn hstep (by simp [ownSteps]) rfl (endsAlone_closing (Function.update_self ..) hlock ?_)
      rintro _ ⟨⟩
      exact ⟨error, hraises⟩
    cases hrecorded : observed.state.database.recorded migration.version with
    | error error =>
      exact hleave error ⟨[], by simp [step?, hchoosing, hrecorded], rfl⟩ (by
        unfold MigrationSettings.migrate
        rw [hrecorded]
        rfl)
    | ok found => cases found with
      | some recorded =>
        cases hchanged : MigrationSettings.historyChanged migration recorded with
        | true =>
          exact hleave (.differs migration.version) ⟨[], by simp [step?, hchoosing, hrecorded, hchanged], rfl⟩ (by
            unfold MigrationSettings.migrate
            rw [hrecorded]
            exact if_pos hchanged)
        | false =>
          have hstep : Observed.Step step? observed (.select runner)
              ⟨observed.state.enter runner (.choosing (passed ++ [migration]) rest),
                observed.events ++ [.skipped runner migration]⟩ :=
            ⟨_, by simp [step?, hchoosing, hrecorded, hchanged], rfl⟩
          refine .pass hstep (by simp [ownSteps]) ?_ (ih (Function.update_self ..) hlock)
          exact MigrationSettings.migrate_eq_ok_iff.mpr (.inl ⟨recorded, hrecorded, hchanged, rfl⟩)
      | none =>
        have hfind : Observed.Step step? observed (.select runner)
            ⟨observed.state.enter runner (.applying passed migration rest), observed.events ++ []⟩ :=
          ⟨_, by simp [step?, hchoosing, hrecorded], rfl⟩
        refine .turn hfind (by simp [ownSteps]) rfl ?_
        cases hdone : MigrationSettings.applyMigration observed.state.database migration with
        | error error =>
          have hstep : Observed.Step step?
              ⟨observed.state.enter runner (.applying passed migration rest), observed.events ++ []⟩
              (.apply runner)
              ⟨(observed.state.enter runner (.applying passed migration rest)).enter runner
                (.closing passed (migration :: rest)), observed.events ++ [] ++ []⟩ :=
            ⟨_, by simp [step?, enter, hdone], rfl⟩
          refine .turn hstep (by simp [ownSteps]) rfl (endsAlone_closing (Function.update_self ..) hlock ?_)
          rintro _ ⟨⟩
          refine ⟨error, ?_⟩
          unfold MigrationSettings.migrate
          change (observed.state.database.recorded migration.version >>= _) = _
          rw [hrecorded]
          exact hdone
        | ok database =>
          have hstep : Observed.Step step?
              ⟨observed.state.enter runner (.applying passed migration rest), observed.events ++ []⟩
              (.apply runner)
              ⟨{ (observed.state.enter runner (.applying passed migration rest)).enter runner
                (.choosing (passed ++ [migration]) rest) with database },
                observed.events ++ [] ++ [.applied runner migration]⟩ :=
            ⟨_, by simp [step?, enter, hdone], rfl⟩
          refine .pass hstep (by simp [ownSteps]) ?_ (ih (Function.update_self ..) hlock)
          exact MigrationSettings.migrate_eq_ok_iff.mpr (.inr ⟨hrecorded, hdone⟩)

/-- A runner that waits for the lock while it is free ends by itself, whatever the others have left. -/
theorem runner_ends_alone (observed : Observed (MigrationRuns settings ρ) (MigrationEvent settings ρ))
    (runner : ρ) (migrations : List settings.Migration)
    (hwaiting : observed.state.runners runner = .waiting migrations) (hfree : observed.state.lock = none) :
    ∃ steps after passed rest, (∀ step ∈ steps, step ∈ ownSteps runner) ∧
      Run (Observed.Step step?) observed steps after ∧ migrations = passed ++ rest ∧
      after.state.runners runner = .ended passed rest (rest = []) ∧ after.state.lock = none ∧
      passed.foldlM MigrationSettings.migrate observed.state.database.ensureHistory =
        .ok after.state.database ∧
      ∀ migration ∈ rest.head?, ∃ error,
        MigrationSettings.migrate after.state.database migration = .error error := by
  have hstep : Observed.Step step? observed (.lock runner)
      ⟨{ observed.state.enter runner (.choosing [] migrations) with
        database := observed.state.database.ensureHistory
        lock := some runner }, observed.events ++ [.locked runner]⟩ :=
    ⟨_, by simp [step?, hwaiting, hfree], rfl⟩
  have halone : EndsAlone ⟨{ observed.state.enter runner (.choosing [] migrations) with
      database := observed.state.database.ensureHistory
      lock := some runner }, observed.events ++ [.locked runner]⟩ runner [] migrations :=
    endsAlone_choosing (Function.update_self ..) rfl
  obtain ⟨steps, after, done, left, hsteps, hrun, hrest, hended, hlock, hdone, hleft⟩ := halone
  exact ⟨.lock runner :: steps, after, done, left, List.forall_mem_cons.mpr ⟨by simp [ownSteps], hsteps⟩,
    .cons hstep hrun, hrest, hended, hlock, hdone, hleft⟩

theorem first_runner_ends_alone : ∃ steps after, ∃ passed rest : List listsScripts.Migration,
    (∀ step ∈ steps, step ∈ ownSteps false) ∧ Run (Observed.Step step?) ⟨bothWait, []⟩ steps after ∧
      [createRaw, createDds] = passed ++ rest ∧
      after.state.runners false = .ended passed rest (rest = []) ∧ after.state.lock = none ∧
      passed.foldlM MigrationSettings.migrate bothWait.database.ensureHistory = .ok after.state.database ∧
      ∀ migration ∈ rest.head?, ∃ error,
        MigrationSettings.migrate after.state.database migration = .error error :=
  runner_ends_alone ⟨bothWait, []⟩ false [createRaw, createDds] rfl rfl

end CryptoTrading.MigrationRuns
