import CryptoTrading.Kit.Dict
import CryptoTrading.Kit.Fallible
import CryptoTrading.Kit.StableSort

/-! The migration runner: which files of its directory are migrations, and what it does to the database
with each of them.  Two files of one version are an error, and so is a `.sql` file of any other name; the
rest of the directory plays no part, and neither does the order in which it is listed. -/

namespace CryptoTrading

open Kit

/-- What the runner uses of the language and of the database: the value of a decimal digit, the SHA-256
of a file's contents, and what a script makes of the schema, if it does not raise. -/
structure MigrationSettings (β σ : Type) where
  digit? : Char → Option ℕ
  checksum : β → String
  execute : β → σ → Option σ

/-- What `iterdir` lists. -/
structure DirectoryEntry (β : Type) where
  name : String
  contents : β
  isFile : Bool := true

inductive DiscoveryError
  | invalidFilename (name : String)
  | duplicateVersion (version : ℕ) (previous name : String)
  | noMigrations
  deriving DecidableEq

/-- `path.suffix == ".sql"`. -/
def hasSqlSuffix (name : String) : Bool := ".sql".toList <:+ name.toList && name ≠ ".sql"

/-- The characters of `[a-z0-9_]`. -/
def isLabel (c : Char) : Bool := ('a' ≤ c && c ≤ 'z') || ('0' ≤ c && c ≤ '9') || c = '_'

namespace MigrationSettings

variable {β σ : Type} (settings : MigrationSettings β σ)

/-- `MIGRATION_PATTERN.fullmatch`, and the number of the version that it finds. -/
def versionOf? (name : String) : Option ℕ :=
  match name.toList with
  | a :: b :: c :: '_' :: rest =>
    let label := rest.take (rest.length - 4)
    if label ≠ [] ∧ label.all isLabel ∧ rest.drop (rest.length - 4) = ".sql".toList then do
      return 100 * (← settings.digit? a) + 10 * (← settings.digit? b) + (← settings.digit? c)
    else none
  | _ => none

/-- A file whose name gives its version. -/
structure Migration where
  name : String
  contents : β
  version : ℕ
  named : settings.versionOf? name = some version

variable {settings}

/-- The loop of `discover_migrations` over the rest of the entries. -/
def collect (migrations : List settings.Migration) (versions : Dict ℕ settings.Migration) :
    List (DirectoryEntry β) → Except DiscoveryError (List settings.Migration)
  | [] => .ok migrations
  | entry :: rest =>
    if !entry.isFile || !hasSqlSuffix entry.name then collect migrations versions rest
    else
      match named : settings.versionOf? entry.name with
      | none => .error (.invalidFilename entry.name)
      | some version =>
        match versions.get? version with
        | some previous => .error (.duplicateVersion version previous.name entry.name)
        | none =>
          let migration : settings.Migration := ⟨entry.name, entry.contents, version, named⟩
          collect (migrations ++ [migration]) (versions.set version migration) rest

variable (settings)

def discoverMigrations (directory : List (DirectoryEntry β)) :
    Except DiscoveryError (List settings.Migration) := do
  let migrations ← collect [] Dict.empty directory
  if migrations = [] then .error .noMigrations
  else .ok (StableSort.sortOn Migration.version migrations)

/-! ### What is discovered -/

/-- The files that must be migrations. -/
def sqlFiles (directory : List (DirectoryEntry β)) : List (DirectoryEntry β) :=
  directory.filter fun entry => entry.isFile && hasSqlSuffix entry.name

def Migration.source {settings : MigrationSettings β σ} (migration : settings.Migration) : String × β :=
  (migration.name, migration.contents)

variable {settings}

theorem Migration.source_injective :
    Function.Injective (Migration.source : settings.Migration → String × β) := by
  rintro ⟨name, contents, version, named⟩ ⟨name', contents', version', named'⟩ h
  cases h
  cases named.symm.trans named'
  rfl

/-- The loop finds the migrations that the files are, when their versions are new and differ. -/
theorem collect_eq_ok_iff {migrations found : List settings.Migration} {versions : Dict ℕ settings.Migration}
    {directory : List (DirectoryEntry β)} :
    collect migrations versions directory = .ok found ↔ ∃ new, found = migrations ++ new ∧
      new.map Migration.source = (sqlFiles directory).map (fun entry => (entry.name, entry.contents)) ∧
      (new.map Migration.version).Nodup ∧ ∀ migration ∈ new, versions.get? migration.version = none := by
  induction directory generalizing migrations versions with
  | nil =>
    constructor
    · intro h
      cases h
      exact ⟨[], (List.append_nil _).symm, rfl, List.nodup_nil, by simp⟩
    · rintro ⟨new, rfl, hnew, -⟩
      rw [List.map_eq_nil_iff.mp hnew, List.append_nil]
      rfl
  | cons entry rest ih =>
    unfold collect
    split
    · rename_i hskip
      rw [ih, show sqlFiles (entry :: rest) = sqlFiles rest from
        List.filter_cons_of_neg (by simpa [imp_iff_not_or] using hskip)]
    · rename_i hkeep
      have hfiles : sqlFiles (entry :: rest) = entry :: sqlFiles rest :=
        List.filter_cons_of_pos (by simpa using hkeep)
      rw [hfiles, List.map_cons]
      split
      · rename_i hunnamed
        refine iff_of_false (by simp) ?_
        rintro ⟨new, -, hnew, -⟩
        cases new with
        | nil => simp at hnew
        | cons migration new =>
          obtain ⟨hname, -⟩ := Prod.mk.inj (List.cons.inj hnew).1
          cases (hname ▸ migration.named).symm.trans hunnamed
      · rename_i version named
        split
        · rename_i previous hprevious
          refine iff_of_false (by simp) ?_
          rintro ⟨new, -, hnew, -, hfree⟩
          cases new with
          | nil => simp at hnew
          | cons migration new =>
            obtain ⟨hname, -⟩ := Prod.mk.inj (List.cons.inj hnew).1
            cases (hname ▸ migration.named).symm.trans named
            cases (hfree migration List.mem_cons_self).symm.trans hprevious
        · rename_i hfresh
          rw [ih]
          constructor
          · rintro ⟨new, rfl, hnew, hdistinct, hfree⟩
            refine ⟨⟨entry.name, entry.contents, version, named⟩ :: new, by simp, ?_, ?_, ?_⟩
            · rw [List.map_cons, hnew]
              rfl
            · refine List.nodup_cons.mpr ⟨?_, hdistinct⟩
              intro hmem
              obtain ⟨other, hother, hversion⟩ := List.mem_map.mp hmem
              have hnone := hfree other hother
              rw [hversion, Dict.get?_set_self] at hnone
              cases hnone
            · refine List.forall_mem_cons.mpr ⟨hfresh, fun other hother => ?_⟩
              have hnone := hfree other hother
              rw [Dict.get?_set] at hnone
              split at hnone
              · cases hnone
              · exact hnone
          · rintro ⟨new, rfl, hnew, hdistinct, hfree⟩
            cases new with
            | nil => simp at hnew
            | cons migration new =>
              obtain ⟨hhead, htail⟩ := List.cons.inj hnew
              have hmigration : migration = ⟨entry.name, entry.contents, version, named⟩ :=
                Migration.source_injective hhead
              subst hmigration
              obtain ⟨hhere, hdistinct⟩ := List.nodup_cons.mp hdistinct
              refine ⟨new, by simp, htail, hdistinct, fun other hother => ?_⟩
              rw [Dict.get?_set, if_neg]
              · exact hfree other (List.mem_cons_of_mem _ hother)
              · intro hsame
                exact hhere (List.mem_map.mpr ⟨other, hother, hsame.symm⟩)

/-- What the runner discovers are the `.sql` files of the directory, with their versions ascending, if
there are some and each has a version of its own. -/
theorem discoverMigrations_eq_ok_iff (settings : MigrationSettings β σ)
    (directory : List (DirectoryEntry β)) (migrations : List settings.Migration) :
    settings.discoverMigrations directory = .ok migrations ↔ migrations ≠ [] ∧
      migrations.Pairwise (fun earlier later => earlier.version < later.version) ∧
      ((sqlFiles directory).map fun entry => (entry.name, entry.contents)).Perm
        (migrations.map Migration.source) := by
  have hdiscover : settings.discoverMigrations directory = .ok migrations ↔ ∃ found,
      collect [] Dict.empty directory = .ok found ∧ found ≠ [] ∧
        StableSort.sortOn Migration.version found = migrations := by
    unfold discoverMigrations
    rw [bind_eq_ok_iff]
    refine exists_congr fun found => and_congr_right fun _ => ?_
    split <;> simp_all
  rw [hdiscover]
  constructor
  · rintro ⟨found, hfound, hsome, rfl⟩
    obtain ⟨new, rfl, hnew, hdistinct, -⟩ := collect_eq_ok_iff.mp hfound
    have hperm := StableSort.sortOn_perm Migration.version found
    refine ⟨fun hnil => hsome (List.nil_perm.mp (hnil ▸ hperm)), ?_, ?_⟩
    · have hdistinct : ((StableSort.sortOn Migration.version found).map Migration.version).Nodup :=
        (hperm.map _).nodup_iff.mpr hdistinct
      have hsorted := StableSort.sorted_sortOn Migration.version found
      exact hsorted.imp₂ (fun _ _ hle hne => lt_of_le_of_ne hle hne) (List.pairwise_map.mp hdistinct)
    · rw [← hnew]
      exact (hperm.map _).symm
  · rintro ⟨hsome, hascending, hperm⟩
    have hcomp := congrFun (congrFun (List.eq_map_comp_perm Migration.source)
      ((sqlFiles directory).map fun entry => (entry.name, entry.contents))) migrations
    obtain ⟨found, hfound, hpermuted⟩ := hcomp.mpr hperm
    have hdistinct : (migrations.map Migration.version).Nodup :=
      List.pairwise_map.mpr (hascending.imp ne_of_lt)
    have hfoundDistinct : (found.map Migration.version).Nodup :=
      (hpermuted.map _).nodup_iff.mpr hdistinct
    refine ⟨found, collect_eq_ok_iff.mpr ⟨found, rfl, hfound.symm, hfoundDistinct, fun _ _ => rfl⟩, ?_, ?_⟩
    · rintro rfl
      exact hsome (List.nil_perm.mp hpermuted)
    · rw [StableSort.sortOn_eq_sortOn_iff.mpr
        (StableSort.withKey_eq_of_perm hpermuted hfoundDistinct)]
      exact StableSort.sortOn_eq_self (hascending.imp le_of_lt)

end MigrationSettings

end CryptoTrading
