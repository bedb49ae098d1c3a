import CryptoTrading.Database.LosslessEtl

/-! The ETL between concurrent writers: transactions that insert rows begin, write and commit in any
interleaving, and runs start and finish among them.  A row is loaded at the start of its transaction, and
a run sees the rows that are committed when it starts. -/

namespace CryptoTrading

open Kit

/-- An open transaction: its `now()`, and the rows that it has inserted. -/
structure RawWriter where
  startedAt : Datetime
  rows : List RawRow := []

/-- A run on its way: what it sees, its `p_as_of`, and its `clock_timestamp()`. -/
structure EtlRun where
  seen : Warehouse
  asOf : Timestamptz
  cutoff : Datetime

/-- The database: what is committed, the clock, the open transactions, and the run that has the lock on
the checkpoint. -/
structure EtlDatabase where
  warehouse : Warehouse := .blank
  clock : Datetime
  writers : Dict ℕ RawWriter := .empty
  running : Option EtlRun := none

inductive DatabaseEvent
  | begins (writer : ℕ)
  | inserts (writer : ℕ) (row : RawRow)
  | commits (writer : ℕ)
  | rollsBack (writer : ℕ)
  | runStarts (asOf : Timestamptz)
  | runFinishes
  | runFails
  | ticks (moment : Datetime)

namespace Warehouse

/-- The tables with the rows of RAW that a snapshot has. -/
def reading (w seen : Warehouse) : Warehouse := { w with raw := seen.raw, keyed := seen.keyed }

/-- What a run leaves. -/
def finished (w : Warehouse) (run : EtlRun) : Warehouse :=
  ((w.reading run.seen).loadRawCandles run.asOf run.cutoff).1.reading w

/-- The candle of a row stands in DDS. -/
def Stored (w : Warehouse) (row : RawRow) : Prop :=
  ∃ candle, row.normalize = some candle ∧ w.candles.get? row.openTime = some candle

end Warehouse

namespace EtlDatabase

variable (s : EtlDatabase)

/-- Another open transaction has a row with the key of this one, and has it locked. -/
def locked (writer : ℕ) (row : RawRow) : Bool :=
  s.writers.entries.any fun entry => decide (entry.1 ≠ writer) &&
    entry.2.rows.any fun pending => decide (pending.openTime = row.openTime)

/-- What a transaction has after `INSERT … ON CONFLICT … DO NOTHING`. -/
def insertedRows (writer : RawWriter) (row : RawRow) : List RawRow :=
  if (s.warehouse.raw.get? row.openTime).isSome ∨ row.openTime ∈ writer.rows.map (·.openTime) then
    writer.rows
  else writer.rows ++ [row]

/-- One event, where it can happen.  The runs come with increasing `p_as_of`, one at a time. -/
def step : DatabaseEvent → Option EtlDatabase
  | .begins writer =>
    match s.writers.get? writer with
    | some _ => none
    | none => some { s with writers := s.writers.set writer { startedAt := s.clock } }
  | .inserts writer row =>
    match s.writers.get? writer with
    | none => none
    | some open_ =>
      if row.loadedAt = open_.startedAt ∧ s.locked writer row = false then
        some { s with writers := s.writers.set writer { open_ with rows := s.insertedRows open_ row } }
      else none
  | .commits writer =>
    match s.writers.get? writer with
    | none => none
    | some open_ =>
      some { s with warehouse := s.warehouse.commit open_.rows, writers := s.writers.erase writer }
  | .rollsBack writer =>
    match s.writers.get? writer with
    | none => none
    | some _ => some { s with writers := s.writers.erase writer }
  | .runStarts asOf =>
    match s.running with
    | some _ => none
    | none =>
      if s.warehouse.lastRunAt ≤ asOf then some { s with running := some ⟨s.warehouse, asOf, s.clock⟩ }
      else none
  | .runFinishes =>
    match s.running with
    | none => none
    | some run => some { s with warehouse := s.warehouse.finished run, running := none }
  | .runFails =>
    match s.running with
    | none => none
    | some _ => some { s with running := none }
  | .ticks moment => if s.clock ≤ moment then some { s with clock := moment } else none

end EtlDatabase

def DatabaseStep (s : EtlDatabase) (event : DatabaseEvent) (next : EtlDatabase) : Prop :=
  s.step event = some next

/-- A history finishes a run in that state. -/
def Finishes (clock : Datetime) (events : List DatabaseEvent) (before : EtlDatabase) (run : EtlRun)
    (after : EtlDatabase) : Prop :=
  Run.Makes DatabaseStep { clock } events before .runFinishes after ∧ before.running = some run

/-- A run that a history has finished saw the row. -/
def SeenInHistory (clock : Datetime) (events : List DatabaseEvent) (row : RawRow) : Prop :=
  ∃ before run after, Finishes clock events before run after ∧ run.seen.Holds row

/-- After each run, the valid rows that were committed when it started and closed by its time stand in
DDS. -/
def Timely (clock : Datetime) (events : List DatabaseEvent) : Prop :=
  ∀ before run after, Finishes clock events before run after → ∀ row, run.seen.Holds row → row.Valid →
    row.ClosedBy run.asOf → after.warehouse.Stored row

/-- When a run starts, a valid row that no earlier run has seen was loaded after the newest row that they
saw, or closes after their last `p_as_of`. -/
def NotOvertaken (clock : Datetime) (events : List DatabaseEvent) : Prop :=
  ∀ passed before run after later, events = passed ++ .runFinishes :: later →
    Run DatabaseStep { clock } passed before → DatabaseStep before .runFinishes after →
    before.running = some run → ∀ row, run.seen.Holds row → row.Valid →
    ¬SeenInHistory clock passed row →
    run.seen.lastLoadedAt < row.loadedAt ∨ ∀ t ∈ row.closeTime, run.seen.lastRunAt < t

/-! ### What a run finds and leaves -/

theorem databaseStep_deterministic : Run.Deterministic DatabaseStep := by
  intro s event next next' h h'
  exact Option.some.inj (h.symm.trans h')

section Seen

variable {clock : Datetime} {events : List DatabaseEvent} {event : DatabaseEvent}
  {s next : EtlDatabase} {run : EtlRun} {row : RawRow}

theorem not_seen_nil : ¬SeenInHistory clock [] row := by
  rintro ⟨before, run, after, ⟨⟨passed, later, hsplit, -⟩, -⟩, -⟩
  simp at hsplit

theorem seen_snoc_iff (h : Run DatabaseStep { clock } events s) (hstep : DatabaseStep s event next) :
    SeenInHistory clock (events ++ [event]) row ↔ SeenInHistory clock events row ∨
      event = .runFinishes ∧ ∃ run, s.running = some run ∧ run.seen.Holds row := by
  unfold SeenInHistory Finishes
  simp only [Run.makes_snoc_iff databaseStep_deterministic h hstep]
  constructor
  · rintro ⟨before, run, after, ⟨hmakes | ⟨rfl, rfl, rfl⟩, hrunning⟩, hrow⟩
    · exact Or.inl ⟨before, run, after, ⟨hmakes, hrunning⟩, hrow⟩
    · exact Or.inr ⟨rfl, run, hrunning, hrow⟩
  · rintro (⟨before, run, after, ⟨hmakes, hrunning⟩, hrow⟩ | ⟨rfl, run, hrunning, hrow⟩)
    · exact ⟨before, run, after, ⟨Or.inl hmakes, hrunning⟩, hrow⟩
    · exact ⟨s, run, next, ⟨Or.inr ⟨rfl, rfl, rfl⟩, hrunning⟩, hrow⟩

end Seen

/-- What holds of a run on its way: it has the rows and the marks that were committed when it started,
every row that an earlier run has seen among them. -/
structure RunInv (s : EtlDatabase) (seen : RawRow → Prop) (run : EtlRun) : Prop where
  held : ∀ row, run.seen.Holds row → s.warehouse.Holds row
  marks : run.seen.marks = s.warehouse.marks
  later : run.seen.lastRunAt ≤ run.asOf
  reaches : run.seen.Reaches run.cutoff
  earlier : ∀ row, seen row → run.seen.Holds row

/-- What holds in every state of a history. -/
structure DatabaseInv (s : EtlDatabase) (seen : RawRow → Prop) : Prop where
  loaded : s.warehouse.Reaches s.clock
  writers : ∀ writer open_, s.writers.get? writer = some open_ →
    open_.startedAt ≤ s.clock ∧ ∀ row ∈ open_.rows, row.loadedAt = open_.startedAt
  running : ∀ run, s.running = some run → RunInv s seen run
  own : ∀ openTime candle, s.warehouse.candles.get? openTime = some candle →
    ∃ row, s.warehouse.raw.get? openTime = some row ∧ row.normalize = some candle ∧ seen row
  held : ∀ row, seen row → s.warehouse.Holds row

namespace Warehouse

variable {w : Warehouse} {run : EtlRun} {row : RawRow} {openTime : Timestamptz} {candle : DdsRow}

@[simp] theorem finished_holds_iff : (w.finished run).Holds row ↔ w.Holds row := Iff.rfl

theorem get?_candles_finished
    (hown : ∀ other row, w.candles.get? openTime = some other → run.seen.raw.get? openTime = some row →
      row.normalize = some other) :
    (w.finished run).candles.get? openTime = some candle ↔ w.candles.get? openTime = some candle ∨
      ∃ row, run.seen.raw.get? openTime = some row ∧ row.normalize = some candle ∧
        (w.reading run.seen).Selects run.asOf run.cutoff row ∧ row.ClosedBy run.asOf := by
  have hread := @get?_candles_loadRawCandles (w.reading run.seen) openTime run.asOf run.cutoff candle hown
  exact hread

theorem marks_finished (h : run.seen.raw.entries ≠ []) :
    (w.finished run).marks = ⟨(w.reading run.seen).upperLoadedAt run.cutoff, run.asOf⟩ := by
  have hread : (w.reading run.seen).raw.entries ≠ [] := h
  show ((w.reading run.seen).loadRawCandles run.asOf run.cutoff).1.marks = _
  exact loadRawCandles_marks hread

end Warehouse

/-! ### The invariant -/

namespace DatabaseInv

variable {s next : EtlDatabase} {seen seen' : RawRow → Prop} {writer : ℕ} {row : RawRow}
  {asOf : Timestamptz} {moment : Datetime} {run : EtlRun}

theorem congr (h : DatabaseInv s seen) (hiff : ∀ row, seen row ↔ seen' row) : DatabaseInv s seen' := by
  obtain rfl : seen = seen' := funext fun row => propext (hiff row)
  exact h

theorem setWriters (h : DatabaseInv s seen) {writers : Dict ℕ RawWriter}
    (hwriters : ∀ writer open_, writers.get? writer = some open_ →
      open_.startedAt ≤ s.clock ∧ ∀ row ∈ open_.rows, row.loadedAt = open_.startedAt) :
    DatabaseInv { s with writers } seen :=
  ⟨h.loaded, hwriters, fun run hrun => ⟨(h.running run hrun).held, (h.running run hrun).marks,
    (h.running run hrun).later, (h.running run hrun).reaches, (h.running run hrun).earlier⟩, h.own, h.held⟩

theorem begins (h : DatabaseInv s seen) (hstep : DatabaseStep s (.begins writer) next) :
    DatabaseInv next seen := by
  unfold DatabaseStep EtlDatabase.step at hstep
  dsimp only at hstep
  split at hstep
  · cases hstep
  · cases hstep
    apply h.setWriters
    intro other open_ hopen
    rw [Dict.get?_set] at hopen
    split at hopen
    · cases hopen
      exact ⟨le_rfl, fun row hrow => absurd hrow List.not_mem_nil⟩
    · exact h.writers other open_ hopen

theorem inserts (h : DatabaseInv s seen) (hstep : DatabaseStep s (.inserts writer row) next) :
    DatabaseInv next seen := by
  unfold DatabaseStep EtlDatabase.step at hstep
  dsimp only at hstep
  split at hstep
  · cases hstep
  rename_i mine hmine
  split at hstep
  · rename_i hguard
    cases hstep
    obtain ⟨hstarted, hrows⟩ := h.writers writer mine hmine
    apply h.setWriters
    intro other open_ hopen
    rw [Dict.get?_set] at hopen
    split at hopen
    · cases hopen
      refine ⟨hstarted, fun pending hpending => ?_⟩
      unfold EtlDatabase.insertedRows at hpending
      split at hpending
      · exact hrows pending hpending
      · rcases List.mem_append.mp hpending with hold | hnew
        · exact hrows pending hold
        · rw [List.mem_singleton.mp hnew]
          exact hguard.1
    · exact h.writers other open_ hopen
  · cases hstep

theorem writers_erase (h : DatabaseInv s seen) (other : ℕ) (open_ : RawWriter)
    (hopen : (s.writers.erase writer).get? other = some open_) :
    open_.startedAt ≤ s.clock ∧ ∀ row ∈ open_.rows, row.loadedAt = open_.startedAt := by
  rw [Dict.get?_erase] at hopen
  split at hopen
  · cases hopen
  · exact h.writers other open_ hopen

theorem commits (h : DatabaseInv s seen) (hstep : DatabaseStep s (.commits writer) next) :
    DatabaseInv next seen := by
  unfold DatabaseStep EtlDatabase.step at hstep
  dsimp only at hstep
  split at hstep
  · cases hstep
  rename_i mine hmine
  cases hstep
  obtain ⟨hstarted, hrows⟩ := h.writers writer mine hmine
  refine ⟨?_, h.writers_erase, ?_, ?_, fun row hseen => (h.held row hseen).commit⟩
  · intro row hrow
    rcases Warehouse.holds_commit_cases hrow with hold | ⟨-, hmem⟩
    · exact h.loaded row hold
    · rw [hrows row hmem]
      exact hstarted
  · intro run hrun
    obtain ⟨hheld, hmarks, hlater, hreaches, hearlier⟩ := h.running run hrun
    exact ⟨fun row hrow => (hheld row hrow).commit, hmarks, hlater, hreaches, hearlier⟩
  · intro openTime candle hcandle
    obtain ⟨row, hrow, hrest⟩ := h.own openTime candle hcandle
    exact ⟨row, Dict.get?_insertAll_of_some hrow, hrest⟩

theorem rollsBack (h : DatabaseInv s seen) (hstep : DatabaseStep s (.rollsBack writer) next) :
    DatabaseInv next seen := by
  unfold DatabaseStep EtlDatabase.step at hstep
  dsimp only at hstep
  split at hstep
  · cases hstep
  · cases hstep
    exact h.setWriters h.writers_erase

theorem runStarts (h : DatabaseInv s seen) (hstep : DatabaseStep s (.runStarts asOf) next) :
    DatabaseInv next seen := by
  unfold DatabaseStep EtlDatabase.step at hstep
  dsimp only at hstep
  split at hstep
  · cases hstep
  split at hstep
  · rename_i hlater
    cases hstep
    refine ⟨h.loaded, h.writers, fun run hrun => ?_, h.own, h.held⟩
    cases hrun
    exact ⟨fun _ hrow => hrow, rfl, hlater, h.loaded, h.held⟩
  · cases hstep

theorem runFails (h : DatabaseInv s seen) (hstep : DatabaseStep s .runFails next) :
    DatabaseInv next seen := by
  unfold DatabaseStep EtlDatabase.step at hstep
  dsimp only at hstep
  split at hstep
  · cases hstep
  · cases hstep
    exact ⟨h.loaded, h.writers, fun run hrun => (by cases hrun), h.own, h.held⟩

theorem ticks (h : DatabaseInv s seen) (hstep : DatabaseStep s (.ticks moment) next) :
    DatabaseInv next seen := by
  unfold DatabaseStep EtlDatabase.step at hstep
  dsimp only at hstep
  split at hstep
  · rename_i hle
    cases hstep
    refine ⟨fun row hrow => (h.loaded row hrow).trans hle, fun writer open_ hopen => ?_, ?_, h.own, h.held⟩
    · obtain ⟨hstarted, hrows⟩ := h.writers writer open_ hopen
      exact ⟨hstarted.trans hle, hrows⟩
    · intro run hrun
      obtain ⟨hheld, hmarks, hlater, hreaches, hearlier⟩ := h.running run hrun
      exact ⟨hheld, hmarks, hlater, hreaches, hearlier⟩
  · cases hstep

theorem own_seen (h : DatabaseInv s seen) (hrunning : s.running = some run) {openTime : Timestamptz}
    (other : DdsRow) (row : RawRow) (hother : s.warehouse.candles.get? openTime = some other)
    (hrow : run.seen.raw.get? openTime = some row) : row.normalize = some other := by
  obtain ⟨own, hget, hnormal, -⟩ := h.own openTime other hother
  obtain ⟨hholds, rfl⟩ := Warehouse.holds_iff_get?.mp hrow
  have hheld := (h.running run hrunning).held row hholds
  cases Option.some.inj (hget.symm.trans hheld)
  exact hnormal

theorem runFinishes (h : DatabaseInv s seen) (hrunning : s.running = some run)
    (hstep : DatabaseStep s .runFinishes next) :
    DatabaseInv next fun row => seen row ∨ run.seen.Holds row := by
  unfold DatabaseStep EtlDatabase.step at hstep
  simp only [hrunning] at hstep
  cases hstep
  have hrun := h.running run hrunning
  refine ⟨h.loaded, h.writers, fun run hrun => (by cases hrun), ?_, ?_⟩
  · intro openTime candle hcandle
    rcases (Warehouse.get?_candles_finished (h.own_seen hrunning)).mp hcandle with
      hold | ⟨row, hrow, hnormal, -, -⟩
    · obtain ⟨row, hrow, hnormal, hseen⟩ := h.own openTime candle hold
      exact ⟨row, hrow, hnormal, Or.inl hseen⟩
    · obtain ⟨hholds, rfl⟩ := Warehouse.holds_iff_get?.mp hrow
      exact ⟨row, hrun.held row hholds, hnormal, Or.inr hholds⟩
  · rintro row (hseen | hholds)
    · exact h.held row hseen
    · exact hrun.held row hholds

end DatabaseInv

/-- The invariant holds after every history. -/
theorem databaseInv_of_run {clock : Datetime} {events : List DatabaseEvent} {s : EtlDatabase}
    (h : Run DatabaseStep { clock } events s) : DatabaseInv s (SeenInHistory clock events) := by
  have hall : Run DatabaseStep { clock } events s ∧ DatabaseInv s (SeenInHistory clock events) := by
    apply h.invariant (P := fun passed m =>
      Run DatabaseStep { clock } passed m ∧ DatabaseInv m (SeenInHistory clock passed))
    · refine ⟨.nil _, ⟨fun row hrow => (by cases hrow), fun writer open_ hopen => (by cases hopen),
        fun run hrun => (by cases hrun), fun openTime candle hcandle => (by cases hcandle),
        fun row hseen => absurd hseen not_seen_nil⟩⟩
    · rintro passed m event next ⟨hrun, hinv⟩ hstep
      refine ⟨hrun.snoc hstep, ?_⟩
      have hiff : ∀ row, SeenInHistory clock (passed ++ [event]) row ↔
          SeenInHistory clock passed row ∨
            event = .runFinishes ∧ ∃ run, m.running = some run ∧ run.seen.Holds row :=
        fun row => seen_snoc_iff hrun hstep
      have hsame : event ≠ .runFinishes → ∀ row, SeenInHistory clock passed row ↔
          SeenInHistory clock (passed ++ [event]) row := by
        intro hne row
        rw [hiff]
        exact (or_iff_left fun h => hne h.1).symm
      cases event with
      | begins writer => exact (hinv.begins hstep).congr (hsame (by simp))
      | inserts writer row => exact (hinv.inserts hstep).congr (hsame (by simp))
      | commits writer => exact (hinv.commits hstep).congr (hsame (by simp))
      | rollsBack writer => exact (hinv.rollsBack hstep).congr (hsame (by simp))
      | runStarts asOf => exact (hinv.runStarts hstep).congr (hsame (by simp))
      | runFails => exact (hinv.runFails hstep).congr (hsame (by simp))
      | ticks moment => exact (hinv.ticks hstep).congr (hsame (by simp))
      | runFinishes =>
        cases hrunning : m.running with
        | none =>
          unfold DatabaseStep EtlDatabase.step at hstep
          simp only [hrunning] at hstep
          cases hstep
        | some run =>
          apply (hinv.runFinishes hrunning hstep).congr
          intro row
          rw [hiff, hrunning]
          simp
  exact hall.2

/-! ### Rows in time -/

/-- A valid row that the runs have seen and the marks have passed stands in DDS. -/
def CaughtUp (w : Warehouse) (seen : RawRow → Prop) : Prop :=
  ∀ row, seen row → row.Valid →
    w.marks.Passed (fun row => (row.loadedAt : WithBot Datetime)) RawRow.closeTime row → w.Stored row

section Finishing

variable {clock : Datetime} {events : List DatabaseEvent} {before after : EtlDatabase} {run : EtlRun}
  {row : RawRow} {seen : RawRow → Prop}

theorem warehouse_of_finish (hrunning : before.running = some run)
    (hstep : DatabaseStep before .runFinishes after) :
    after.warehouse = before.warehouse.finished run := by
  unfold DatabaseStep EtlDatabase.step at hstep
  simp only [hrunning] at hstep
  cases hstep
  rfl

/-- Only a run that finishes changes DDS and the marks. -/
theorem frame_of_step {event : DatabaseEvent} (hstep : DatabaseStep before event after)
    (hne : event ≠ .runFinishes) : after.warehouse.marks = before.warehouse.marks ∧
      after.warehouse.candles = before.warehouse.candles := by
  unfold DatabaseStep at hstep
  cases event with
  | runFinishes => exact absurd rfl hne
  | begins writer | commits writer | rollsBack writer | runFails =>
    simp only [EtlDatabase.step] at hstep
    split at hstep <;> cases hstep
    exact ⟨rfl, rfl⟩
  | inserts writer row =>
    simp only [EtlDatabase.step] at hstep
    split at hstep
    · cases hstep
    · split at hstep <;> cases hstep
      exact ⟨rfl, rfl⟩
  | runStarts asOf =>
    simp only [EtlDatabase.step] at hstep
    split at hstep
    · cases hstep
    · split at hstep <;> cases hstep
      exact ⟨rfl, rfl⟩
  | ticks moment =>
    simp only [EtlDatabase.step] at hstep
    split at hstep <;> cases hstep
    exact ⟨rfl, rfl⟩

/-- A run stores the valid rows that it sees and that closed by its time, unless the marks passed them
unseen. -/
theorem stored_of_finish (h : DatabaseInv before seen) (hcaught : CaughtUp before.warehouse seen)
    (hrunning : before.running = some run)
    (hovertaken : ∀ row, run.seen.Holds row → row.Valid → ¬seen row →
      run.seen.lastLoadedAt < row.loadedAt ∨ ∀ t ∈ row.closeTime, run.seen.lastRunAt < t)
    (hrow : run.seen.Holds row) (hvalid : row.Valid) (hclosed : row.ClosedBy run.asOf) :
    (before.warehouse.finished run).Stored row := by
  have hrun := h.running run hrunning
  obtain ⟨candle, hnormal⟩ := RawRow.exists_normalize_iff.mpr hvalid
  refine ⟨candle, hnormal, (Warehouse.get?_candles_finished (h.own_seen hrunning)).mpr ?_⟩
  have hreaches : (before.warehouse.reading run.seen).Reaches run.cutoff := hrun.reaches
  rcases Warehouse.selects_or_passed hreaches hrow hclosed with hselects | hpassed
  · exact Or.inr ⟨row, hrow, hnormal, hselects, hclosed⟩
  · left
    have hold : before.warehouse.Stored row := by
      apply hcaught row _ hvalid hpassed
      by_contra hunseen
      obtain ⟨hloaded, t, ht, hearlier⟩ := hpassed
      rcases hovertaken row hrow hvalid hunseen with hnew | hlater
      · have hingestion : run.seen.lastLoadedAt = before.warehouse.lastLoadedAt :=
          congrArg Marks.ingestion hrun.marks
        rw [hingestion] at hnew
        exact absurd hloaded (not_le.mpr hnew)
      · have hevent : run.seen.lastRunAt = before.warehouse.lastRunAt := congrArg Marks.event hrun.marks
        have hlt := hlater t ht
        rw [hevent] at hlt
        exact absurd hearlier (not_le.mpr hlt)
    obtain ⟨other, hother, hcandle⟩ := hold
    cases Option.some.inj (hother.symm.trans hnormal)
    exact hcandle

/-- A valid row that the marks have passed before any run saw it is not stored by the run that sees it,
though it has closed by its time. -/
theorem not_stored_of_passed (h : DatabaseInv before seen) (hrunning : before.running = some run)
    (hrow : run.seen.Holds row) (hunseen : ¬seen row)
    (hpassed : run.seen.marks.Passed (fun row => (row.loadedAt : WithBot Datetime)) RawRow.closeTime row) :
    row.ClosedBy run.asOf ∧ ¬(before.warehouse.finished run).Stored row := by
  have hrun := h.running run hrunning
  constructor
  · obtain ⟨-, t, ht, hearlier⟩ := hpassed
    exact ⟨t, ht, hearlier.trans hrun.later⟩
  · rintro ⟨candle, -, hcandle⟩
    rcases (Warehouse.get?_candles_finished (h.own_seen hrunning)).mp hcandle with
      hold | ⟨other, hother, -, hselects, -⟩
    · obtain ⟨own, hget, -, hseen⟩ := h.own row.openTime candle hold
      cases Option.some.inj (hget.symm.trans (hrun.held row hrow))
      exact hunseen hseen
    · cases Option.some.inj (hother.symm.trans hrow)
      rw [hrun.marks] at hpassed
      exact Marks.not_selects_of_passed hpassed hselects

/-- Where no run is overtaken, the runs are caught up. -/
theorem caughtUp_of_run (h : Run DatabaseStep { clock } events before)
    (hovertaken : NotOvertaken clock events) :
    CaughtUp before.warehouse (SeenInHistory clock events) := by
  have hall : Run DatabaseStep { clock } events before ∧ (NotOvertaken clock events →
      CaughtUp before.warehouse (SeenInHistory clock events)) := by
    apply h.invariant (P := fun passed m => Run DatabaseStep { clock } passed m ∧
      (NotOvertaken clock passed → CaughtUp m.warehouse (SeenInHistory clock passed)))
    · exact ⟨.nil _, fun _ row hseen => absurd hseen not_seen_nil⟩
    · rintro passed m event next ⟨hrun, hcaught⟩ hstep
      refine ⟨hrun.snoc hstep, fun hnext => ?_⟩
      have hpassed : NotOvertaken clock passed := by
        intro first before run after later hsplit hrest
        exact hnext first before run after (later ++ [event]) (by rw [hsplit]; simp) hrest
      have hcaught := hcaught hpassed
      have hiff : ∀ row, SeenInHistory clock (passed ++ [event]) row ↔
          SeenInHistory clock passed row ∨
            event = .runFinishes ∧ ∃ run, m.running = some run ∧ run.seen.Holds row :=
        fun row => seen_snoc_iff hrun hstep
      by_cases hfinish : event = .runFinishes
      · subst hfinish
        cases hrunning : m.running with
        | none =>
          unfold DatabaseStep EtlDatabase.step at hstep
          simp only [hrunning] at hstep
          cases hstep
        | some run =>
          have hinv := databaseInv_of_run hrun
          have hmine := hnext passed m run next [] (by simp) hrun hstep hrunning
          intro row hseen hvalid hpassed
          have hheld : run.seen.Holds row := by
            rcases (hiff row).mp hseen with hseen | ⟨-, other, hother, hheld⟩
            · exact (hinv.running run hrunning).earlier row hseen
            · cases Option.some.inj (hrunning.symm.trans hother)
              exact hheld
          have hsome : run.seen.raw.entries ≠ [] :=
            fun hempty => Warehouse.not_holds_of_empty hempty hheld
          rw [warehouse_of_finish hrunning hstep] at hpassed ⊢
          rw [Warehouse.marks_finished hsome] at hpassed
          exact stored_of_finish hinv hcaught hrunning hmine hheld hvalid hpassed.2
      · intro row hseen hvalid hpassed
        obtain ⟨hmarks, hcandles⟩ := frame_of_step hstep hfinish
        rw [hmarks] at hpassed
        have hseen : SeenInHistory clock passed row := by
          rcases (hiff row).mp hseen with hseen | ⟨heq, -⟩
          · exact hseen
          · exact absurd heq hfinish
        obtain ⟨candle, hnormal, hcandle⟩ := hcaught row hseen hvalid hpassed
        exact ⟨candle, hnormal, by rw [hcandles]; exact hcandle⟩
  exact hall.2 hovertaken

end Finishing

/-- In every interleaving of writers and runs, each run leaves in DDS all valid rows that were committed
when it started and closed by its time, if and only if no run starts when a valid row that is new to the
runs was loaded no later than the newest row they saw and closes no later than their last time. -/
theorem etl_timely_iff (clock : Datetime) (events : List DatabaseEvent) :
    Timely clock events ↔ NotOvertaken clock events := by
  constructor
  · intro htimely passed before run after later hsplit hbefore hstep hrunning row hrow hvalid hunseen
    have hinv := databaseInv_of_run hbefore
    by_contra hovertaken
    push Not at hovertaken
    obtain ⟨hloaded, hclose⟩ := hovertaken
    have hpassed : run.seen.marks.Passed (fun row => (row.loadedAt : WithBot Datetime))
        RawRow.closeTime row := ⟨hloaded, hclose⟩
    obtain ⟨hclosed, hmissing⟩ := not_stored_of_passed hinv hrunning hrow hunseen hpassed
    have hstored := htimely before run after ⟨⟨passed, later, hsplit, hbefore, hstep⟩, hrunning⟩ row hrow
      hvalid hclosed
    rw [warehouse_of_finish hrunning hstep] at hstored
    exact hmissing hstored
  · rintro hovertaken before run after ⟨⟨passed, later, hsplit, hbefore, hstep⟩, hrunning⟩ row hrow hvalid
      hclosed
    have hpassed : NotOvertaken clock passed := by
      intro first before' run' after' later' hsplit' hrest
      exact hovertaken first before' run' after' (later' ++ .runFinishes :: later)
        (by rw [hsplit, hsplit']; simp) hrest
    rw [warehouse_of_finish hrunning hstep]
    exact stored_of_finish (databaseInv_of_run hbefore) (caughtUp_of_run hbefore hpassed) hrunning
      (hovertaken passed before run after later hsplit hbefore hstep hrunning) hrow hvalid hclosed

theorem run_of_foldlM {s t : EtlDatabase} {events : List DatabaseEvent}
    (h : events.foldlM EtlDatabase.step s = some t) : Run DatabaseStep s events t := by
  induction events generalizing s with
  | nil =>
    cases h
    exact .nil _
  | cons event rest ih =>
    rw [List.foldlM_cons] at h
    obtain ⟨next, hstep, hrest⟩ := Option.bind_eq_some_iff.mp h
    exact .cons hstep (ih hrest)

/-- The row of an hour, in a transaction that started then. -/
def hourlyRow (k : ℤ) (loadedAt : Datetime) : RawRow :=
  { openTime := finite (k * hour), closeTime := some (finite ((k + 1) * hour)), openPrice := 100
    highPrice := 101, lowPrice := 99, closePrice := 100, volume := some 10, loadedAt }

/-- A transaction that began first commits last, and a run passes between. -/
def slowWriter : List DatabaseEvent :=
  [.begins 0, .inserts 0 (hourlyRow 0 (5 * hour)), .ticks (6 * hour), .begins 1,
    .inserts 1 (hourlyRow 1 (6 * hour)), .commits 1, .runStarts (finite (6 * hour)), .runFinishes,
    .commits 0, .runStarts (finite (7 * hour))]

/-- The row of the slow transaction is not in DDS after the first run that starts after its commit. -/
theorem slowWriter_not_timely : ∃ before run after, Finishes (5 * hour) (slowWriter ++ [.runFinishes]) before
      run after ∧ run.seen.Holds (hourlyRow 0 (5 * hour)) ∧ (hourlyRow 0 (5 * hour)).Valid ∧
      (hourlyRow 0 (5 * hour)).ClosedBy run.asOf ∧ ¬after.warehouse.Stored (hourlyRow 0 (5 * hour)) := by
  have hstates : ∃ before run after,
      slowWriter.foldlM EtlDatabase.step { clock := 5 * hour } = some before ∧
      before.step .runFinishes = some after ∧ before.running = some run ∧
      run.seen.raw.get? (finite 0) = some (hourlyRow 0 (5 * hour)) ∧ run.asOf = finite (7 * hour) ∧
      after.warehouse.candles.get? (finite 0) = none := ⟨_, _, _, rfl, rfl, rfl, rfl, rfl, rfl⟩
  obtain ⟨before, run, after, hfold, hstep, hrunning, hrow, hasOf, hmissing⟩ := hstates
  refine ⟨before, run, after, ⟨⟨slowWriter, [], rfl, run_of_foldlM hfold, hstep⟩, hrunning⟩, hrow,
    by decide +kernel, ?_, ?_⟩
  · rw [hasOf]
    exact ⟨_, rfl, by decide⟩
  · rintro ⟨candle, -, hcandle⟩
    have hnone : after.warehouse.candles.get? (hourlyRow 0 (5 * hour)).openTime = none := hmissing
    rw [hnone] at hcandle
    cases hcandle

end CryptoTrading
