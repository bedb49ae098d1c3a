import CryptoTrading.Database.RawToDds
import CryptoTrading.Kit.Run

/-! What the runs of the ETL have taken out of RAW, over histories of transactions and runs as of any
times.  A row is due to a run that starts after it was committed and whose time it has closed by: the
tables of DDS hold what was due, and the marks pass nothing else. -/

namespace CryptoTrading

open Kit

/-- A transaction that inserts rows, or a run. -/
inductive EtlEvent
  | commit (rows : List RawRow)
  | run (asOf : Timestamptz) (cutoff : Datetime)

def Warehouse.after (w : Warehouse) : EtlEvent → Warehouse
  | .commit rows => w.commit rows
  | .run asOf cutoff => (w.loadRawCandles asOf cutoff).1

/-- The tables of DDS, by the rows that were due to a run: a candle for each that is valid, an event for
each check that one fails, and no other row is passed by the marks. -/
structure Exact (w : Warehouse) (due : RawRow → Prop) : Prop where
  candles : ∀ openTime candle, w.candles.get? openTime = some candle ↔
    ∃ row, w.raw.get? openTime = some row ∧ row.normalize = some candle ∧ due row
  events : ∀ openTime check, (w.events.get? (openTime, check)).isSome ↔
    ∃ row, w.raw.get? openTime = some row ∧ check ∈ row.errors ∧ due row
  passed : ∀ row, w.Holds row →
    w.marks.Passed (fun row => (row.loadedAt : WithBot Datetime)) RawRow.closeTime row → due row
  held : ∀ row, due row → w.Holds row

namespace Warehouse

variable {w : Warehouse} {rows : List RawRow} {row : RawRow} {openTime asOf : Timestamptz}
  {cutoff : Datetime}

theorem Holds.commit (h : w.Holds row) : (w.commit rows).Holds row := Dict.get?_insertAll_of_some h

theorem holds_commit_cases (h : (w.commit rows).Holds row) :
    w.Holds row ∨ ¬w.Holds row ∧ row ∈ rows := by
  rcases Dict.get?_insertAll_cases h with hold | ⟨hfree, hmem, -⟩
  · exact Or.inl hold
  · refine Or.inr ⟨fun hholds => ?_, hmem⟩
    rw [Holds, hfree] at hholds
    cases hholds

@[simp] theorem holds_loadRawCandles_iff : (w.loadRawCandles asOf cutoff).1.Holds row ↔ w.Holds row := by
  rw [Holds, Holds, loadRawCandles_raw]

theorem selects_or_passed (hcutoff : w.Reaches cutoff) (hrow : w.Holds row) (hclosed : row.ClosedBy asOf) :
    w.Selects asOf cutoff row ∨
      w.marks.Passed (fun row => (row.loadedAt : WithBot Datetime)) RawRow.closeTime row :=
  Marks.selects_or_passed (loadedAt_le_upper hcutoff hrow) hclosed

end Warehouse

namespace Exact

variable {w : Warehouse} {due due' : RawRow → Prop} {rows : List RawRow} {asOf : Timestamptz}
  {cutoff : Datetime}

theorem congr (h : Exact w due) (hiff : ∀ row, due row ↔ due' row) : Exact w due' := by
  obtain rfl : due = due' := funext fun row => propext (hiff row)
  exact h

/-- A transaction whose new rows the marks have not passed. -/
theorem commit (h : Exact w due) (hnew : ∀ row ∈ rows, ¬w.Holds row →
    ¬w.marks.Passed (fun row => (row.loadedAt : WithBot Datetime)) RawRow.closeTime row) :
    Exact (w.commit rows) due := by
  have hheld : ∀ {openTime row}, (w.commit rows).raw.get? openTime = some row → due row →
      w.raw.get? openTime = some row := by
    intro openTime row hrow hdue
    exact Warehouse.holds_iff_get?.mpr ⟨h.held row hdue, (w.commit rows).keyed openTime row hrow⟩
  refine ⟨?_, ?_, ?_, fun row hdue => (h.held row hdue).commit⟩
  · intro openTime candle
    refine (h.candles openTime candle).trans (exists_congr fun row => ?_)
    exact ⟨fun ⟨hrow, hrest⟩ => ⟨Dict.get?_insertAll_of_some hrow, hrest⟩,
      fun ⟨hrow, hnormal, hdue⟩ => ⟨hheld hrow hdue, hnormal, hdue⟩⟩
  · intro openTime check
    refine (h.events openTime check).trans (exists_congr fun row => ?_)
    exact ⟨fun ⟨hrow, hrest⟩ => ⟨Dict.get?_insertAll_of_some hrow, hrest⟩,
      fun ⟨hrow, hcheck, hdue⟩ => ⟨hheld hrow hdue, hcheck, hdue⟩⟩
  · intro row hrow hpassed
    rcases Warehouse.holds_commit_cases hrow with hold | ⟨hfree, hmem⟩
    · exact h.passed row hold hpassed
    · exact absurd hpassed (hnew row hmem hfree)

/-- A run that reaches every committed row. -/
theorem run (h : Exact w due) (hcutoff : w.Reaches cutoff) :
    Exact (w.loadRawCandles asOf cutoff).1 fun row => due row ∨ w.Holds row ∧ row.ClosedBy asOf := by
  have hown : ∀ openTime other row, w.candles.get? openTime = some other →
      w.raw.get? openTime = some row → row.normalize = some other := by
    intro openTime other row hother hrow
    obtain ⟨own, hget, hnormal, -⟩ := (h.candles openTime other).mp hother
    cases Option.some.inj (hget.symm.trans hrow)
    exact hnormal
  refine ⟨?_, ?_, ?_, ?_⟩
  · intro openTime candle
    rw [Warehouse.get?_candles_loadRawCandles (hown openTime), h.candles, Warehouse.loadRawCandles_raw]
    constructor
    · rintro (⟨row, hrow, hnormal, hdue⟩ | ⟨row, hrow, hnormal, -, hclosed⟩)
      · exact ⟨row, hrow, hnormal, Or.inl hdue⟩
      · exact ⟨row, hrow, hnormal, Or.inr ⟨(Warehouse.holds_iff_get?.mp hrow).1, hclosed⟩⟩
    · rintro ⟨row, hrow, hnormal, hdue | ⟨hholds, hclosed⟩⟩
      · exact Or.inl ⟨row, hrow, hnormal, hdue⟩
      · rcases Warehouse.selects_or_passed hcutoff hholds hclosed with hselects | hpassed
        · exact Or.inr ⟨row, hrow, hnormal, hselects, hclosed⟩
        · exact Or.inl ⟨row, hrow, hnormal, h.passed row hholds hpassed⟩
  · intro openTime check
    rw [Warehouse.isSome_events_loadRawCandles, h.events, Warehouse.loadRawCandles_raw]
    constructor
    · rintro (⟨row, hrow, hcheck, hdue⟩ | ⟨row, hrow, hcheck, -, hclosed⟩)
      · exact ⟨row, hrow, hcheck, Or.inl hdue⟩
      · exact ⟨row, hrow, hcheck, Or.inr ⟨(Warehouse.holds_iff_get?.mp hrow).1, hclosed⟩⟩
    · rintro ⟨row, hrow, hcheck, hdue | ⟨hholds, hclosed⟩⟩
      · exact Or.inl ⟨row, hrow, hcheck, hdue⟩
      · rcases Warehouse.selects_or_passed hcutoff hholds hclosed with hselects | hpassed
        · exact Or.inr ⟨row, hrow, hcheck, hselects, hclosed⟩
        · exact Or.inl ⟨row, hrow, hcheck, h.passed row hholds hpassed⟩
  · intro row hrow hpassed
    rw [Warehouse.holds_loadRawCandles_iff] at hrow
    have hsome : w.raw.entries ≠ [] := fun hempty => Warehouse.not_holds_of_empty hempty hrow
    rw [Warehouse.loadRawCandles_marks hsome] at hpassed
    exact Or.inr ⟨hrow, hpassed.2⟩
  · rintro row (hdue | ⟨hholds, -⟩)
    · exact Warehouse.holds_loadRawCandles_iff.mpr (h.held row hdue)
    · exact Warehouse.holds_loadRawCandles_iff.mpr hholds

theorem empty : Exact .blank fun _ => False := by
  refine ⟨?_, ?_, ?_, fun _ hdue => hdue.elim⟩
  · intro openTime candle
    refine iff_of_false (fun h => by cases h) ?_
    rintro ⟨row, hrow, -⟩
    cases hrow
  · intro openTime check
    refine iff_of_false (fun h => by cases h) ?_
    rintro ⟨row, hrow, -⟩
    cases hrow
  · intro row hrow
    cases hrow

end Exact

/-! ### One writer -/

/-- Transactions come one after another, each loaded later than those before it, and runs between them,
as of any time. -/
def InOrderStep (w : Warehouse) (event : EtlEvent) (next : Warehouse) : Prop :=
  (match event with
    | .commit rows => ∃ loadedAt, (∀ row ∈ rows, row.loadedAt = loadedAt) ∧
        ∀ row, w.Holds row → row.loadedAt < loadedAt
    | .run _ cutoff => w.Reaches cutoff) ∧
  next = w.after event

/-- A run of a history starts when the row is committed. -/
def SeenByRun (events : List EtlEvent) (row : RawRow) : Prop :=
  ∃ before asOf cutoff next,
    Run.Makes InOrderStep .blank events before (.run asOf cutoff) next ∧ before.Holds row

/-- A run of a history starts when the row is committed, as of a time that the row has closed by. -/
def DueToRun (events : List EtlEvent) (row : RawRow) : Prop :=
  ∃ before asOf cutoff next,
    Run.Makes InOrderStep .blank events before (.run asOf cutoff) next ∧ before.Holds row ∧ row.ClosedBy asOf

/-- After a history, RAW has lost nothing on the way to DDS: the candles are the valid rows that were due
to a run, each once; a row that is not valid has an event once it was due to a run, or was seen by one
without a close time; and a row that was not due is selected by any run that it has closed by. -/
structure Lossless (events : List EtlEvent) (w : Warehouse) : Prop where
  candles : ∀ openTime candle, w.candles.get? openTime = some candle ↔
    ∃ row, w.raw.get? openTime = some row ∧ row.normalize = some candle ∧ DueToRun events row
  rejected : ∀ row, w.Holds row → ¬row.Valid →
    DueToRun events row ∨ row.closeTime = none ∧ SeenByRun events row →
    ∃ check event, w.events.get? (row.openTime, check) = some event
  pending : ∀ row, w.Holds row → ¬DueToRun events row → ∀ asOf cutoff, w.Reaches cutoff →
    row.ClosedBy asOf → w.Selects asOf cutoff row

theorem inOrder_deterministic : Run.Deterministic InOrderStep := by
  rintro w event next next' ⟨-, rfl⟩ ⟨-, rfl⟩
  rfl

/-- The latest row that a run has seen is committed. -/
def Warehouse.Marked (w : Warehouse) : Prop :=
  ∀ moment : Datetime, w.lastLoadedAt = moment → ∃ row, w.Holds row ∧ row.loadedAt = moment

namespace InOrder

variable {events : List EtlEvent} {w next : Warehouse} {row : RawRow} {rows : List RawRow}
  {asOf : Timestamptz} {cutoff : Datetime}

theorem due_commit_iff (h : Run InOrderStep .blank events w) (hstep : InOrderStep w (.commit rows) next) :
    DueToRun events row ↔ DueToRun (events ++ [.commit rows]) row := by
  unfold DueToRun
  refine exists_congr fun before => exists_congr fun asOf => exists_congr fun cutoff =>
    exists_congr fun after => and_congr_left fun _ => ?_
  rw [Run.makes_snoc_iff inOrder_deterministic h hstep]
  refine (or_iff_left ?_).symm
  rintro ⟨-, hlabel, -⟩
  cases hlabel

theorem due_run_iff (h : Run InOrderStep .blank events w) (hstep : InOrderStep w (.run asOf cutoff) next) :
    (DueToRun events row ∨ w.Holds row ∧ row.ClosedBy asOf) ↔
      DueToRun (events ++ [.run asOf cutoff]) row := by
  unfold DueToRun
  simp only [Run.makes_snoc_iff inOrder_deterministic h hstep]
  constructor
  · rintro (⟨before, asOf', cutoff', after, hmakes, hrest⟩ | hnow)
    · exact ⟨before, asOf', cutoff', after, Or.inl hmakes, hrest⟩
    · exact ⟨w, asOf, cutoff, next, Or.inr ⟨rfl, rfl, rfl⟩, hnow⟩
  · rintro ⟨before, asOf', cutoff', after, hmakes | ⟨rfl, hlabel, rfl⟩, hrest⟩
    · exact Or.inl ⟨before, asOf', cutoff', after, hmakes, hrest⟩
    · cases hlabel
      exact Or.inr hrest

theorem marked_run (h : w.Marked) : (w.loadRawCandles asOf cutoff).1.Marked := by
  intro moment hmoment
  simp only [Warehouse.holds_loadRawCandles_iff]
  by_cases hempty : w.raw.entries = []
  · rw [Warehouse.loadRawCandles_of_empty hempty] at hmoment
    exact h moment hmoment
  have hupper : w.upperLoadedAt cutoff = moment := by
    have hmarks : (w.loadRawCandles asOf cutoff).1.marks = ⟨w.upperLoadedAt cutoff, asOf⟩ :=
      Warehouse.loadRawCandles_marks hempty
    exact (congrArg Marks.ingestion hmarks).symm.trans hmoment
  unfold Warehouse.upperLoadedAt at hupper
  split at hupper
  · rename_i latest hlatest
    cases WithBot.coe_inj.mp hupper
    obtain ⟨row, hrow, hloaded⟩ := List.mem_map.mp (List.mem_of_mem_filter (List.max?_mem hlatest))
    exact ⟨row, Warehouse.mem_raw_iff.mp hrow, hloaded⟩
  · exact h moment hupper

/-- A row that is loaded after all others is not passed by the marks. -/
theorem not_passed (h : w.Marked) (hlater : ∀ old, w.Holds old → old.loadedAt < row.loadedAt) :
    ¬w.marks.Passed (fun row => (row.loadedAt : WithBot Datetime)) RawRow.closeTime row := by
  rintro ⟨hle, -⟩
  change (row.loadedAt : WithBot Datetime) ≤ w.lastLoadedAt at hle
  cases hlast : w.lastLoadedAt with
  | bot =>
    rw [hlast, le_bot_iff] at hle
    exact WithBot.coe_ne_bot hle
  | coe moment =>
    rw [hlast, WithBot.coe_le_coe] at hle
    obtain ⟨old, hold, rfl⟩ := h moment hlast
    exact absurd hle (not_le.mpr (hlater old hold))

/-- After every history the tables are exact. -/
theorem exact (h : Run InOrderStep .blank events w) : Exact w (DueToRun events) := by
  have hall : Run InOrderStep .blank events w ∧ Exact w (DueToRun events) ∧ w.Marked := by
    apply h.invariant (P := fun passed m => Run InOrderStep .blank passed m ∧ Exact m (DueToRun passed) ∧
      m.Marked)
    · refine ⟨.nil _, Exact.empty.congr fun row => ?_, fun moment hmoment => by cases hmoment⟩
      refine iff_of_false id ?_
      rintro ⟨before, asOf, cutoff, next, ⟨passed, later, hsplit, -⟩, -⟩
      simp at hsplit
    · rintro passed m event next ⟨hrun, hexact, hmarked⟩ hstep
      refine ⟨hrun.snoc hstep, ?_⟩
      cases event with
      | commit rows =>
        have hkeep : ∀ row, DueToRun passed row ↔ DueToRun (passed ++ [.commit rows]) row :=
          fun row => due_commit_iff hrun hstep
        obtain ⟨⟨loadedAt, hrows, hlater⟩, rfl⟩ := hstep
        refine ⟨(hexact.commit fun row hmem _ => ?_).congr hkeep, ?_⟩
        · apply not_passed hmarked
          intro old hold
          rw [hrows row hmem]
          exact hlater old hold
        · intro moment hmoment
          obtain ⟨row, hrow, hloaded⟩ := hmarked moment hmoment
          exact ⟨row, hrow.commit, hloaded⟩
      | run asOf cutoff =>
        have hkeep : ∀ row, (DueToRun passed row ∨ m.Holds row ∧ row.ClosedBy asOf) ↔
            DueToRun (passed ++ [.run asOf cutoff]) row := fun row => due_run_iff hrun hstep
        obtain ⟨hcutoff, rfl⟩ := hstep
        exact ⟨(hexact.run hcutoff).congr hkeep, marked_run hmarked⟩
  exact hall.2.1

end InOrder

/-- The way from RAW to DDS loses nothing in a history if and only if no run sees a row without a close
time. -/
theorem raw_to_dds_lossless_iff {events : List EtlEvent} {w : Warehouse}
    (h : Run InOrderStep .blank events w) :
    Lossless events w ↔ ∀ row, w.Holds row → SeenByRun events row → row.closeTime ≠ none := by
  have hexact := InOrder.exact h
  constructor
  · intro hlossless row hrow hseen hnull
    have hinvalid : ¬row.Valid := fun hvalid =>
      RawRow.not_fails_of_valid hvalid .invalidCloseTime (Or.inl hnull)
    obtain ⟨check, event, hevent⟩ := hlossless.rejected row hrow hinvalid (Or.inr ⟨hnull, hseen⟩)
    -- Events are recorded for rows that were due, and it has no time to be due by.
    obtain ⟨own, hget, -, before, asOf, cutoff, next, -, -, t, ht, -⟩ :=
      (hexact.events row.openTime check).mp (by rw [hevent]; rfl)
    cases Option.some.inj (hget.symm.trans hrow)
    rw [hnull] at ht
    cases ht
  · intro hclose
    refine ⟨hexact.candles, ?_, ?_⟩
    · intro row hrow hinvalid hdue
      have hwas : DueToRun events row := by
        rcases hdue with hdue | ⟨hnull, hseen⟩
        · exact hdue
        · exact absurd hnull (hclose row hrow hseen)
      obtain ⟨check, hcheck⟩ := List.exists_mem_of_ne_nil row.errors hinvalid
      exact ⟨check, Option.isSome_iff_exists.mp
        ((hexact.events row.openTime check).mpr ⟨row, hrow, hcheck, hwas⟩)⟩
    · intro row hrow hpending asOf cutoff hcutoff hclosed
      rcases Warehouse.selects_or_passed hcutoff hrow hclosed with hselects | hpassed
      · exact hselects
      · exact absurd (hexact.passed row hrow hpassed) hpending

/-- A finite `timestamptz`. -/
def finite (moment : Datetime) : Timestamptz := ((moment : WithTop Datetime) : WithBot _)

/-- A row of the first hour, loaded a minute after it. -/
def hourRow (closeTime : Option Timestamptz) : RawRow :=
  { openTime := finite 0, closeTime, openPrice := 100, highPrice := 101, lowPrice := 99
    closePrice := 100, volume := some 10, loadedAt := hour + 60000000 }

/-- A row is committed. -/
def withRow (closeTime : Option Timestamptz) : Warehouse :=
  Warehouse.after .blank (.commit [hourRow closeTime])

/-- A run starts two hours after the epoch. -/
def secondHour : EtlEvent := .run (finite (2 * hour)) (2 * hour)

def oneRow (closeTime : Option Timestamptz) : List EtlEvent :=
  [.commit [hourRow closeTime], secondHour]

def afterOneRow (closeTime : Option Timestamptz) : Warehouse := (withRow closeTime).after secondHour

theorem holds_withRow {closeTime : Option Timestamptz} {row : RawRow}
    (h : (withRow closeTime).Holds row) : row = hourRow closeTime := by
  rw [← Warehouse.mem_raw_iff] at h
  exact List.mem_singleton.mp h

theorem commit_oneRow (closeTime : Option Timestamptz) :
    InOrderStep .blank (.commit [hourRow closeTime]) (withRow closeTime) := by
  refine ⟨⟨hour + 60000000, fun row hrow => ?_, fun row hrow => by cases hrow⟩, rfl⟩
  rw [List.mem_singleton.mp hrow]
  rfl

theorem run_secondHour (closeTime : Option Timestamptz) :
    InOrderStep (withRow closeTime) secondHour (afterOneRow closeTime) := by
  refine ⟨fun row hrow => ?_, rfl⟩
  rw [holds_withRow hrow]
  show hour + 60000000 ≤ 2 * hour
  decide

theorem run_oneRow (closeTime : Option Timestamptz) :
    Run InOrderStep .blank (oneRow closeTime) (afterOneRow closeTime) :=
  .cons (commit_oneRow closeTime) (.single (run_secondHour closeTime))

theorem closedRow_lossless :
    Run InOrderStep .blank (oneRow (some (finite hour))) (afterOneRow (some (finite hour))) ∧
      Lossless (oneRow (some (finite hour))) (afterOneRow (some (finite hour))) := by
  refine ⟨run_oneRow _, (raw_to_dds_lossless_iff (run_oneRow _)).mpr fun row hrow _ hnull => ?_⟩
  have hheld : (withRow (some (finite hour))).Holds row := Warehouse.holds_loadRawCandles_iff.mp hrow
  rw [holds_withRow hheld] at hnull
  cases hnull

/-- A row without a close time leaves no event behind it. -/
theorem openRow_lost : Run InOrderStep .blank (oneRow none) (afterOneRow none) ∧
    (afterOneRow none).events.entries = [] ∧ ¬Lossless (oneRow none) (afterOneRow none) := by
  refine ⟨run_oneRow none, rfl, fun hlossless => ?_⟩
  have hmakes : Run.Makes InOrderStep .blank (oneRow none) (withRow none) secondHour (afterOneRow none) :=
    ⟨[.commit [hourRow none]], [], rfl, .single (commit_oneRow none), run_secondHour none⟩
  obtain ⟨check, event, hevent⟩ := hlossless.rejected (hourRow none) rfl (by decide +kernel)
    (Or.inr ⟨rfl, withRow none, _, _, _, hmakes, rfl⟩)
  cases hevent

end CryptoTrading
