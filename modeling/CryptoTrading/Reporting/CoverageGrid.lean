import CryptoTrading.Kit.Progression
import CryptoTrading.Reporting.ValidationPreflight

/-! The coverage checks count rows, and hours that are skipped, but do not look at the hours themselves:
rows that are off the hour fill a period as well as its candles do. -/

namespace CryptoTrading

open Kit

/-- The times of the records, in order. -/
def recordTimes (records : List StructuralCandleRecord) : List Datetime :=
  (records.mergeSort fun a b => decide (a.openTime.key ≤ b.openTime.key)).map fun row =>
    row.openTime.key

/-- The open times of the records are `start`, an hour later, and so on until an hour before `finish`, each
once. -/
def OnGrid (records : List StructuralCandleRecord) (start finish : Datetime) : Prop :=
  ∃ count : ℕ, start + count * hour = finish ∧
    (records.map StructuralCandleRecord.openTime).Perm
      ((progression start hour count).map Timestamp.aware)

/-- As many different times as there are hours, from `start` to an hour before `finish`, with less than two
hours between neighbours. -/
structure FillsHours (records : List StructuralCandleRecord) (start finish : Datetime) : Prop where
  count : (records.length : ℤ) = (finish - start) / hour
  distinct : (recordTimes records).Nodup
  spaced : ∀ pair ∈ (recordTimes records).zip (recordTimes records).tail,
    pair.2 - pair.1 < 2 * hour
  first : ∀ time ∈ (recordTimes records).head?, time = start
  last : ∀ time ∈ (recordTimes records).getLast?, time = finish - hour

/-- All times, and the end, are full hours. -/
def OnTheHour (records : List StructuralCandleRecord) (finish : Datetime) : Prop :=
  (∀ time ∈ recordTimes records, hour ∣ time) ∧ hour ∣ finish

theorem hour_pos : 0 < hour := by decide

section Times

variable {records : List StructuralCandleRecord} {start finish : Datetime}

theorem recordTimes_perm (records : List StructuralCandleRecord) :
    (recordTimes records).Perm (records.map fun row => row.openTime.key) :=
  (List.mergeSort_perm records _).map _

theorem length_recordTimes (records : List StructuralCandleRecord) :
    (recordTimes records).length = records.length := by
  rw [(recordTimes_perm records).length_eq, List.length_map]

theorem sorted_recordTimes (records : List StructuralCandleRecord) :
    (recordTimes records).Pairwise (· ≤ ·) := by
  rw [recordTimes, List.pairwise_map]
  refine (List.pairwise_mergeSort (fun a b c hab hbc => ?_) (fun a b => ?_) records).imp fun h =>
    of_decide_eq_true h
  · exact decide_eq_true ((of_decide_eq_true hab).trans (of_decide_eq_true hbc))
  · rw [Bool.or_eq_true, decide_eq_true_eq, decide_eq_true_eq]
    exact le_total _ _

/-- Records with moments are on the grid exactly where their times are, in order. -/
theorem onGrid_iff (haware : ∀ row ∈ records, ∃ moment, row.openTime = .aware moment) :
    OnGrid records start finish ↔
      ∃ count : ℕ, start + count * hour = finish ∧ recordTimes records = progression start hour count := by
  have hkeys : records.map StructuralCandleRecord.openTime =
      (records.map fun row => row.openTime.key).map Timestamp.aware := by
    rw [List.map_map]
    refine List.map_congr_left fun row hrow => ?_
    obtain ⟨moment, hmoment⟩ := haware row hrow
    rw [Function.comp_apply, hmoment]
    rfl
  refine exists_congr fun count => and_congr_right fun _ => ?_
  rw [hkeys, List.map_perm_map_iff (fun a b h => Timestamp.aware.inj h)]
  constructor
  · intro hperm
    exact ((recordTimes_perm records).trans hperm).eq_of_pairwise
      (fun a b _ _ h h' => le_antisymm h h') (sorted_recordTimes records)
      ((pairwise_lt_progression hour_pos).imp fun h => h.le)
  · intro heq
    exact heq ▸ (recordTimes_perm records).symm

/-- The grid fills the hours. -/
theorem OnGrid.fills (haware : ∀ row ∈ records, ∃ moment, row.openTime = .aware moment)
    (h : OnGrid records start finish) : FillsHours records start finish := by
  obtain ⟨count, hfinish, htimes⟩ := (onGrid_iff haware).mp h
  have hcount : (finish - start) / hour = count := by
    rw [← hfinish, add_sub_cancel_left, Int.mul_ediv_cancel _ hour_pos.ne']
  refine ⟨?_, ?_, fun pair hpair => ?_, ?_, fun time htime => ?_⟩
  · rw [← length_recordTimes, htimes, length_progression, hcount]
  · rw [htimes]
    exact nodup_progression hour_pos
  · rw [htimes] at hpair
    rw [sub_eq_of_mem_zip_tail hpair]
    linarith [hour_pos]
  · rw [htimes]
    exact head?_progression
  · rw [htimes] at htime
    cases count with
    | zero => cases htime
    | succ count =>
      rw [getLast?_progression, Option.mem_some_iff] at htime
      rw [← htime, ← hfinish]
      push_cast
      ring

/-- Times that fill the hours are on the grid where all of them are full hours. -/
theorem FillsHours.onGrid (haware : ∀ row ∈ records, ∃ moment, row.openTime = .aware moment)
    (hstart : hour ∣ start) (h : FillsHours records start finish)
    (hhours : OnTheHour records finish) : OnGrid records start finish := by
  have hlt : (recordTimes records).Pairwise (· < ·) :=
    ((sorted_recordTimes records).and h.distinct).imp fun hboth => lt_of_le_of_ne hboth.1 hboth.2
  have htimes := eq_progression_of_lt hour_pos hlt hhours.1 h.spaced h.first
  refine (onGrid_iff haware).mpr ⟨_, ?_, htimes⟩
  obtain ⟨hours, hdiff⟩ := Int.dvd_sub hhours.2 hstart
  have hcount := h.count
  rw [hdiff, Int.mul_ediv_cancel_left _ hour_pos.ne'] at hcount
  rw [length_recordTimes, hcount]
  linarith

theorem OnGrid.onTheHour (haware : ∀ row ∈ records, ∃ moment, row.openTime = .aware moment)
    (hstart : hour ∣ start) (h : OnGrid records start finish) : OnTheHour records finish := by
  obtain ⟨count, hfinish, htimes⟩ := (onGrid_iff haware).mp h
  refine ⟨fun time htime => ?_, ?_⟩
  · rw [htimes] at htime
    obtain ⟨k, -, rfl⟩ := mem_progression_iff.mp htime
    exact Int.dvd_add hstart (Dvd.intro_left _ rfl)
  · rw [← hfinish]
    exact Int.dvd_add hstart (Dvd.intro_left _ rfl)

theorem fills_iff_onGrid_iff (haware : ∀ row ∈ records, ∃ moment, row.openTime = .aware moment)
    (hstart : hour ∣ start) :
    (FillsHours records start finish ↔ OnGrid records start finish) ↔
      (FillsHours records start finish → OnTheHour records finish) :=
  ⟨fun hexact hfills => (hexact.mp hfills).onTheHour haware hstart,
    fun hhours => ⟨fun hfills => hfills.onGrid haware hstart (hhours hfills),
      OnGrid.fills haware⟩⟩

end Times

/-! ### What the loop counts -/

section Loop

variable {scope : ValidationScope} {symbol : String} {start finish : Datetime}
  {counts result : RowCounts} {rows : List StructuralCandleRecord}

theorem skippedHours_nonneg (previous : Option Datetime) (moment : Datetime) :
    0 ≤ skippedHours previous moment := by
  cases previous with
  | none => exact le_rfl
  | some previous =>
    simp only [skippedHours]
    split
    · rename_i hskips
      have hone : 1 ≤ (moment - previous) / hour :=
        (Int.le_ediv_iff_mul_le hour_pos).mpr (by linarith)
      linarith
    · exact le_rfl

/-- Nothing is skipped by less than two hours, whatever the minutes are. -/
theorem skippedHours_eq_zero_iff (previous : Option Datetime) (moment : Datetime) :
    skippedHours previous moment = 0 ↔ ∀ before ∈ previous, moment - before < 2 * hour := by
  cases previous with
  | none => exact iff_of_true rfl fun _ h => by cases h
  | some previous =>
    have hpos := hour_pos
    simp only [skippedHours, Option.mem_some_iff, forall_eq']
    split
    · rename_i hskips
      have hone : 1 ≤ (moment - previous) / hour :=
        (Int.le_ediv_iff_mul_le hour_pos).mpr (by linarith)
      have hbound := Int.ediv_lt_iff_lt_mul (a := moment - previous) (b := 2) hour_pos
      constructor
      · intro hzero
        exact hbound.mp (by linarith)
      · intro hless
        have htwo : (moment - previous) / hour < 1 + 1 := hbound.mpr hless
        linarith [Int.lt_add_one_iff.mp htwo]
    · rename_i hskips
      exact iff_of_true rfl (by linarith)

/-- The loop counts no duplicate where no time comes again. -/
theorem duplicates_iff (h : rows.foldlM (scanRow scope symbol start finish) counts = .ok result) :
    counts.duplicates ≤ result.duplicates ∧ (result.duplicates = counts.duplicates ↔
      (rows.map fun row => row.openTime.key).Nodup ∧
        ∀ row ∈ rows, row.openTime.key ∉ counts.seen) := by
  induction rows generalizing counts with
  | nil =>
    cases h
    exact ⟨le_rfl, iff_of_true rfl ⟨List.nodup_nil, fun _ h => by cases h⟩⟩
  | cons row rows ih =>
    rw [List.foldlM_cons, bind_eq_ok_iff] at h
    obtain ⟨next, hrow, hrows⟩ := h
    obtain ⟨moment, htime, -, -, -, rfl⟩ := scanRow_eq_ok_iff.mp hrow
    obtain ⟨hle, hiff⟩ := ih hrows
    have hkey : row.openTime.key = moment := by rw [htime]; rfl
    simp only [RowCounts.add] at hle hiff
    simp only [List.map_cons, List.nodup_cons, List.forall_mem_cons, hkey, List.mem_map, not_exists,
      not_and]
    by_cases hseen : moment ∈ counts.seen
    · rw [if_pos hseen] at hle hiff
      refine ⟨by omega, iff_of_false (by omega) fun hdistinct => hdistinct.2.1 hseen⟩
    · rw [if_neg hseen, add_zero] at hle hiff
      refine ⟨hle, hiff.trans ?_⟩
      simp only [List.mem_cons, not_or]
      constructor
      · rintro ⟨hnodup, hnew⟩
        exact ⟨⟨fun other hother => (hnew other hother).1, hnodup⟩, hseen,
          fun other hother => (hnew other hother).2⟩
      · rintro ⟨⟨hnew, hnodup⟩, -, hothers⟩
        exact ⟨hnodup, fun other hother => ⟨hnew other hother, hothers other hother⟩⟩

/-- The loop counts no gap where neighbours are less than two hours apart. -/
theorem gaps_iff (h : rows.foldlM (scanRow scope symbol start finish) counts = .ok result)
    {times : List ℤ} (htimes : times = counts.previous.toList ++ rows.map fun row => row.openTime.key) :
    counts.gaps ≤ result.gaps ∧ (result.gaps = counts.gaps ↔
      ∀ pair ∈ times.zip times.tail, pair.2 - pair.1 < 2 * hour) := by
  subst htimes
  induction rows generalizing counts with
  | nil =>
    cases h
    refine ⟨le_rfl, iff_of_true rfl fun pair hpair => ?_⟩
    cases hprevious : result.previous <;> simp [hprevious] at hpair
  | cons row rows ih =>
    rw [List.foldlM_cons, bind_eq_ok_iff] at h
    obtain ⟨next, hrow, hrows⟩ := h
    obtain ⟨moment, htime, -, -, -, rfl⟩ := scanRow_eq_ok_iff.mp hrow
    obtain ⟨hle, hiff⟩ := ih hrows
    have hkey : row.openTime.key = moment := by rw [htime]; rfl
    have hskipped := skippedHours_nonneg counts.previous moment
    have hzero := skippedHours_eq_zero_iff counts.previous moment
    simp only [RowCounts.add, Option.toList_some, List.singleton_append] at hle hiff
    refine ⟨by omega, ?_⟩
    have hsplit : result.gaps = counts.gaps ↔ skippedHours counts.previous moment = 0 ∧
        result.gaps = counts.gaps + skippedHours counts.previous moment := by omega
    rw [hsplit, hiff, hzero, List.map_cons, hkey]
    cases counts.previous with
    | none => simp
    | some previous => simp

/-- The sorted rows of a loop that raises nothing. -/
structure Scanned (records rows : List StructuralCandleRecord) (counts : RowCounts) : Prop where
  times : (rows.map fun row => row.openTime.key) = recordTimes records
  aware : ∀ row ∈ records, ∃ moment, row.openTime = .aware moment
  distinct : counts.duplicates = 0 ↔ (recordTimes records).Nodup
  spaced : counts.gaps = 0 ↔
    ∀ pair ∈ (recordTimes records).zip (recordTimes records).tail, pair.2 - pair.1 < 2 * hour

theorem scanned_of_foldlM {records : List StructuralCandleRecord} (hsorted : sortRows records = .ok rows)
    (h : rows.foldlM (scanRow scope symbol start finish) {} = .ok counts) :
    Scanned records rows counts := by
  have hrows : (records.mergeSort fun a b => decide (a.openTime.key ≤ b.openTime.key)) = rows := by
    unfold sortRows at hsorted
    split at hsorted
    · cases hsorted
    · exact Except.ok.inj hsorted
  have htimes : (rows.map fun row => row.openTime.key) = recordTimes records := by
    rw [recordTimes, hrows]
  refine ⟨htimes, fun row hrow => ?_, ?_, ?_⟩
  · exact aware_of_foldlM h row (hrows ▸ (List.mergeSort_perm records _).mem_iff.mpr hrow)
  · rw [← htimes]
    exact (duplicates_iff h).2.trans (and_iff_left fun _ _ hseen => by cases hseen)
  · rw [← htimes]
    exact (gaps_iff h rfl).2

theorem Scanned.length_rows {records : List StructuralCandleRecord} (h : Scanned records rows counts) :
    rows.length = records.length := by
  have hlength := congrArg List.length h.times
  rwa [List.length_map, length_recordTimes] at hlength

theorem Scanned.firstTime_rows {records : List StructuralCandleRecord}
    (h : Scanned records rows counts) : firstTime rows = (recordTimes records).head? := by
  rw [← h.times, List.head?_map, firstTime]

theorem Scanned.lastTime_rows {records : List StructuralCandleRecord}
    (h : Scanned records rows counts) : lastTime rows = (recordTimes records).getLast? := by
  rw [← h.times, List.getLast?_map, lastTime]

end Loop

/-! ### The checks -/

section Checks

variable {symbol : String} {records : List StructuralCandleRecord} {start finish cutoff : Datetime}

theorem expectedHourlyCandles_eq {expected : ℤ} (h : expectedHourlyCandles start finish = .ok expected) :
    expected = (finish - start) / hour := by
  unfold expectedHourlyCandles at h
  split at h
  · cases h
  · cases h
    exact Int.ediv_ediv_of_nonneg (by decide)

theorem validatePeriod_eq_ok {period : Datetime × Datetime}
    (h : validatePeriod (.aware start) (.aware finish) = .ok period) :
    period = (start, finish) ∧ hour ∣ start := by
  obtain ⟨_, hstart, h⟩ := bind_eq_ok_iff.mp h
  obtain ⟨_, hfinish, h⟩ := bind_eq_ok_iff.mp h
  cases hstart
  cases hfinish
  split at h
  · cases h
  split at h
  · cases h
  split at h
  · cases h
  rename_i haligned
  split at h
  · cases h
  · cases h
    exact ⟨rfl, Int.dvd_of_emod_eq_zero (not_not.mp haligned)⟩

theorem isEmpty_or_iff {rows : List StructuralCandleRecord} {time : Option ℤ} {expected : ℤ}
    (hempty : rows.isEmpty = time.isNone) :
    (rows.isEmpty || decide (time = some expected)) = true ↔ ∀ own ∈ time, own = expected := by
  cases time with
  | none => simp_all
  | some own => simp_all

/-- The preflight finds the coverage complete where the records fill the hours. -/
theorem coverageComplete_iff {preflight : SymbolPreflight}
    (h : validateSymbolRecords symbol records (.aware start) (.aware finish) = .ok preflight) :
    (∀ row ∈ records, ∃ moment, row.openTime = .aware moment) ∧ hour ∣ start ∧
      (preflight.coverageComplete = true ↔ FillsHours records start finish) := by
  unfold validateSymbolRecords at h
  split at h
  · cases h
  obtain ⟨period, hperiod, h⟩ := bind_eq_ok_iff.mp h
  obtain ⟨rfl, haligned⟩ := validatePeriod_eq_ok hperiod
  obtain ⟨rows, hsorted, h⟩ := bind_eq_ok_iff.mp h
  obtain ⟨expected, hexpected, h⟩ := bind_eq_ok_iff.mp h
  obtain ⟨counts, hloop, h⟩ := bind_eq_ok_iff.mp h
  cases h
  have hscanned := scanned_of_foldlM hsorted hloop
  have hfirst : rows.isEmpty = (firstTime rows).isNone := by cases rows <;> rfl
  have hlast : rows.isEmpty = (lastTime rows).isNone := by
    cases rows <;> simp [lastTime, List.getLast?_cons]
  refine ⟨hscanned.aware, haligned, ?_⟩
  simp only [Bool.and_eq_true, decide_eq_true_eq, isEmpty_or_iff hfirst, isEmpty_or_iff hlast]
  rw [hscanned.firstTime_rows, hscanned.lastTime_rows, hscanned.length_rows, hscanned.distinct,
    hscanned.spaced, expectedHourlyCandles_eq hexpected]
  exact ⟨fun ⟨⟨⟨⟨hcount, hdistinct⟩, hspaced⟩, hfirst⟩, hlast⟩ =>
      ⟨hcount, hdistinct, hspaced, hfirst, hlast⟩,
    fun hfills => ⟨⟨⟨⟨hfills.count, hfills.distinct⟩, hfills.spaced⟩, hfills.first⟩, hfills.last⟩⟩

theorem expectedElapsedCandles_eq (h : validationStart ≤ cutoff) :
    expectedElapsedCandles cutoff = (cutoff - validationStart) / hour := by
  unfold expectedElapsedCandles
  split
  · rename_i hbefore
    rw [le_antisymm hbefore h, sub_self, Int.zero_ediv]
  · rfl

/-- The boundaries are looked at where hours are expected, and rows are there then. -/
theorem boundaryOk_iff {rows : List StructuralCandleRecord} {expected first last : ℤ}
    (hlength : (rows.length : ℤ) = expected) :
    (if expected > 0 then !rows.isEmpty && decide (firstTime rows = some first) &&
        decide (lastTime rows = some last) else true) = true ↔
      (∀ own ∈ firstTime rows, own = first) ∧ ∀ own ∈ lastTime rows, own = last := by
  subst hlength
  cases rows with
  | nil => simp [firstTime, lastTime]
  | cons row rows =>
    rw [if_pos (by exact_mod_cast Nat.zero_lt_succ _)]
    simp [firstTime, lastTime, List.getLast?_cons]

/-- The accumulation finds the coverage complete where the records fill the hours that have elapsed. -/
theorem elapsedCoverageComplete_iff {status : SymbolAccumulationStatus}
    (h : validateAccumulatedSymbol symbol records cutoff = .ok status) :
    (∀ row ∈ records, ∃ moment, row.openTime = .aware moment) ∧
      (status.elapsedCoverageComplete = true ↔ FillsHours records validationStart cutoff) := by
  unfold validateAccumulatedSymbol at h
  split at h
  · cases h
  split at h
  · cases h
  rename_i hrange
  obtain ⟨rows, hsorted, h⟩ := bind_eq_ok_iff.mp h
  obtain ⟨counts, hloop, h⟩ := bind_eq_ok_iff.mp h
  cases h
  have hscanned := scanned_of_foldlM hsorted hloop
  refine ⟨hscanned.aware, ?_⟩
  simp only [Bool.and_eq_true, decide_eq_true_eq]
  constructor
  · rintro ⟨⟨⟨hcount, hspaced⟩, hdistinct⟩, hboundary⟩
    rw [boundaryOk_iff hcount, hscanned.firstTime_rows, hscanned.lastTime_rows] at hboundary
    refine ⟨?_, hscanned.distinct.mp hdistinct, hscanned.spaced.mp hspaced, hboundary.1, hboundary.2⟩
    rw [← hscanned.length_rows, hcount, expectedElapsedCandles_eq (not_not.mp hrange).1]
  · intro hfills
    have hcount : (rows.length : ℤ) = expectedElapsedCandles cutoff := by
      rw [hscanned.length_rows, hfills.count, expectedElapsedCandles_eq (not_not.mp hrange).1]
    refine ⟨⟨⟨hcount, hscanned.spaced.mpr hfills.spaced⟩, hscanned.distinct.mpr hfills.distinct⟩, ?_⟩
    rw [boundaryOk_iff hcount, hscanned.firstTime_rows, hscanned.lastTime_rows]
    exact ⟨hfills.first, hfills.last⟩

end Checks

/-- Both checks find exactly the grid complete, unless the records fill the hours with times that are not
full hours. -/
theorem coverage_exact_iff (symbol : String) (records : List StructuralCandleRecord) :
    (∀ (start finish : Datetime) (preflight : SymbolPreflight),
      validateSymbolRecords symbol records (.aware start) (.aware finish) = .ok preflight →
        ((preflight.coverageComplete = true ↔ OnGrid records start finish) ↔
          (FillsHours records start finish → OnTheHour records finish))) ∧
    ∀ (cutoff : Datetime) (status : SymbolAccumulationStatus),
      validateAccumulatedSymbol symbol records cutoff = .ok status →
        ((status.elapsedCoverageComplete = true ↔ OnGrid records validationStart cutoff) ↔
          (FillsHours records validationStart cutoff → OnTheHour records cutoff)) := by
  refine ⟨fun start finish preflight h => ?_, fun cutoff status h => ?_⟩
  · obtain ⟨haware, haligned, hcomplete⟩ := coverageComplete_iff h
    rw [hcomplete]
    exact fills_iff_onGrid_iff haware haligned
  · obtain ⟨haware, hcomplete⟩ := elapsedCoverageComplete_iff h
    rw [hcomplete]
    exact fills_iff_onGrid_iff haware (by decide +kernel)

/-- A candle with all its inputs. -/
def readyRecord (candleId : ℤ) (openTime : Datetime) : StructuralCandleRecord :=
  ⟨candleId, "BTCUSDT", "1h", .aware openTime, true, true, true, true⟩

/-- Three rows in three hours, of which the second has a time of its own. -/
def threeRecords (second : Datetime) : List StructuralCandleRecord :=
  [readyRecord 0 validationStart, readyRecord 1 (validationStart + second),
    readyRecord 2 (validationStart + 2 * hour)]

theorem sortRows_of_sorted {records : List StructuralCandleRecord}
    (hsorted : records.Pairwise fun a b => decide (a.openTime.key ≤ b.openTime.key) = true)
    (haware : records.all (·.openTime.isAware) = true) : sortRows records = .ok records ∧
      recordTimes records = records.map fun row => row.openTime.key := by
  have hmerge := List.mergeSort_of_pairwise hsorted
  have hnaive : (records.any fun row => !row.openTime.isAware) = false := by
    rw [List.any_eq_false]
    exact fun row hrow => by simp [List.all_eq_true.mp haware row hrow]
  exact ⟨by simp [sortRows, hnaive, hmerge], by rw [recordTimes, hmerge]⟩

/-- The second row is half an hour early, and both checks find the coverage complete. -/
theorem coverage_not_exact : ¬∀ (symbol : String) (records : List StructuralCandleRecord),
    (∀ (start finish : Datetime) (preflight : SymbolPreflight),
      validateSymbolRecords symbol records (.aware start) (.aware finish) = .ok preflight →
        (preflight.coverageComplete = true ↔ OnGrid records start finish)) ∧
    ∀ (cutoff : Datetime) (status : SymbolAccumulationStatus),
      validateAccumulatedSymbol symbol records cutoff = .ok status →
        (status.elapsedCoverageComplete = true ↔ OnGrid records validationStart cutoff) := by
  intro hall
  obtain ⟨hsorted, htimes⟩ := sortRows_of_sorted
    (show (threeRecords (hour / 2)).Pairwise _ by decide +kernel) (by decide +kernel)
  have hcomplete : (validateSymbolRecords "BTCUSDT" (threeRecords (hour / 2)) (.aware validationStart)
      (.aware (validationStart + 3 * hour))).toOption.any SymbolPreflight.coverageComplete = true := by
    unfold validateSymbolRecords
    rw [hsorted]
    decide +kernel
  cases hresult : validateSymbolRecords "BTCUSDT" (threeRecords (hour / 2)) (.aware validationStart)
      (.aware (validationStart + 3 * hour)) with
  | error error =>
    rw [hresult] at hcomplete
    cases hcomplete
  | ok preflight =>
    rw [hresult] at hcomplete
    have hgrid := ((hall _ _).1 _ _ preflight hresult).mp hcomplete
    have hhours := (hgrid.onTheHour (coverageComplete_iff hresult).1 (by decide +kernel)).1
    rw [htimes] at hhours
    revert hhours
    decide +kernel

/-- The checks of rows on the hour, and of a row that is half an hour early. -/
theorem threeRecords_checked :
    (∃ preflight, validateSymbolRecords "BTCUSDT" (threeRecords hour) (.aware validationStart)
      (.aware (validationStart + 3 * hour)) = .ok preflight ∧
      (preflight.coverageComplete = true ↔ OnGrid (threeRecords hour) validationStart
        (validationStart + 3 * hour))) ∧
    ∃ status, validateAccumulatedSymbol "BTCUSDT" (threeRecords (hour / 2))
      (validationStart + 3 * hour) = .ok status ∧
      ¬(status.elapsedCoverageComplete = true ↔ OnGrid (threeRecords (hour / 2)) validationStart
        (validationStart + 3 * hour)) := by
  obtain ⟨hsorted, htimes⟩ := sortRows_of_sorted
    (show (threeRecords hour).Pairwise _ by decide +kernel) (by decide +kernel)
  obtain ⟨hsorted', htimes'⟩ := sortRows_of_sorted
    (show (threeRecords (hour / 2)).Pairwise _ by decide +kernel) (by decide +kernel)
  constructor
  · obtain ⟨preflight, hpreflight⟩ : ∃ preflight, validateSymbolRecords "BTCUSDT" (threeRecords hour)
        (.aware validationStart) (.aware (validationStart + 3 * hour)) = .ok preflight := by
      unfold validateSymbolRecords
      rw [hsorted]
      exact ⟨_, rfl⟩
    refine ⟨preflight, hpreflight, ((coverage_exact_iff "BTCUSDT" (threeRecords hour)).1 _ _ preflight
      hpreflight).mpr fun _ => ⟨?_, by decide +kernel⟩⟩
    rw [htimes]
    decide +kernel
  · obtain ⟨status, hstatus⟩ : ∃ status, validateAccumulatedSymbol "BTCUSDT"
        (threeRecords (hour / 2)) (validationStart + 3 * hour) = .ok status := by
      unfold validateAccumulatedSymbol
      rw [hsorted']
      exact ⟨_, rfl⟩
    refine ⟨status, hstatus, fun hexact => ?_⟩
    have hhours := ((coverage_exact_iff "BTCUSDT" (threeRecords (hour / 2))).2 _ status hstatus).mp hexact
    have hfills : FillsHours (threeRecords (hour / 2)) validationStart (validationStart + 3 * hour) := by
      refine ⟨by decide +kernel, ?_, ?_, ?_, ?_⟩ <;> rw [htimes'] <;> decide +kernel
    have hdvd := (hhours hfills).1
    rw [htimes'] at hdvd
    revert hdvd
    decide +kernel

end CryptoTrading
