import CryptoTrading.Models
import CryptoTrading.Kit.Fallible
import Mathlib.Algebra.Order.Ring.Int
import Mathlib.Tactic.Linarith

/-! The structural checks before the one-shot validation of Breakout Retest V2: the preflight over a whole
period, and the accumulation status over the part of it that has elapsed. -/

namespace CryptoTrading

open Kit

/-- A `datetime`: one without a time zone reads its local time, and an aware one is a moment. -/
inductive Timestamp
  | naive (reading : ℤ)
  | aware (moment : Datetime)
  deriving DecidableEq

/-- What two timestamps of one kind are compared by. -/
def Timestamp.key : Timestamp → ℤ
  | naive reading => reading
  | aware moment => moment

def Timestamp.isAware : Timestamp → Bool
  | naive _ => false
  | aware _ => true

structure StructuralCandleRecord where
  candleId : ℤ
  symbol : String
  interval : String
  openTime : Timestamp
  hasEma20 : Bool
  hasEma50 : Bool
  hasEma200 : Bool
  hasRegime : Bool
  deriving DecidableEq

/-- Which of the two modules checks the records. -/
inductive ValidationScope
  | accumulation
  | preflight
  deriving DecidableEq, Repr

/-- What the checks raise. -/
inductive ValidationError
  /-- `TypeError`: naive and aware timestamps are not compared -/
  | notComparable
  /-- "as_of must be timezone-aware", or "validation timestamps must be timezone-aware UTC" -/
  | naiveTimestamp (scope : ValidationScope)
  /-- "unsupported validation symbol: {symbol}" -/
  | unsupportedSymbol (symbol : String)
  /-- "foreign symbol in {symbol} {accumulation or validation} records: {other}" -/
  | foreignSymbol (scope : ValidationScope) (symbol other : String)
  /-- "unexpected interval for {symbol}: {interval}" -/
  | unexpectedInterval (symbol interval : String)
  /-- "record outside {elapsed validation prefix or validation period} for {symbol}: {moment}" -/
  | outside (scope : ValidationScope) (symbol : String) (moment : Datetime)
  /-- "cutoff must be inside frozen validation range" -/
  | cutoffOutsideRange
  /-- "validation end must be greater than start" -/
  | endNotAfterStart
  /-- "validation period overlaps research-exhausted history: ..." -/
  | overlapsResearch (start : Datetime)
  /-- "validation start must be aligned to an exact UTC hour" -/
  | startNotAligned
  /-- "validation end must be aligned to an exact UTC hour" -/
  | endNotAligned
  /-- "validation period must contain whole 1h intervals" -/
  | partialHours
  deriving DecidableEq

/-- `RESEARCH_EXHAUSTED_END`: the tenth of August 2026. -/
def researchExhaustedEnd : Datetime := 20675 * day

def requiredSymbols : List String := ["BTCUSDT", "ETHUSDT"]

def requiredInterval : String := "1h"

/-- `_utc` of either module. -/
def utc (scope : ValidationScope) : Timestamp → Except ValidationError Datetime
  | .naive _ => .error (.naiveTimestamp scope)
  | .aware moment => .ok moment

/-- `sorted(records, key=lambda row: row.open_time)`. -/
def sortRows (records : List StructuralCandleRecord) :
    Except ValidationError (List StructuralCandleRecord) :=
  if records.any (·.openTime.isAware) && records.any (fun row => !row.openTime.isAware) then
    .error .notComparable
  else .ok (records.mergeSort fun a b => decide (a.openTime.key ≤ b.openTime.key))

/-- The variables of the loop over the rows. -/
structure RowCounts where
  seen : List Datetime := []
  previous : Option Datetime := none
  gaps : ℤ := 0
  duplicates : ℤ := 0
  missingEma20 : ℤ := 0
  missingEma50 : ℤ := 0
  missingEma200 : ℤ := 0
  missingRegime : ℤ := 0
  deriving DecidableEq

/-- `int(not flag)`. -/
def missing (flag : Bool) : ℤ := if flag then 0 else 1

/-- The hours that are skipped between two rows. -/
def skippedHours (previous : Option Datetime) (moment : Datetime) : ℤ :=
  match previous with
  | none => 0
  | some previous => if moment - previous > hour then (moment - previous) / hour - 1 else 0

/-- The variables after a row. -/
def RowCounts.add (counts : RowCounts) (row : StructuralCandleRecord) (moment : Datetime) :
    RowCounts where
  seen := moment :: counts.seen
  previous := some moment
  gaps := counts.gaps + skippedHours counts.previous moment
  duplicates := counts.duplicates + (if moment ∈ counts.seen then 1 else 0)
  missingEma20 := counts.missingEma20 + missing row.hasEma20
  missingEma50 := counts.missingEma50 + missing row.hasEma50
  missingEma200 := counts.missingEma200 + missing row.hasEma200
  missingRegime := counts.missingRegime + missing row.hasRegime

/-- One row of the loop, which both modules have. -/
def scanRow (scope : ValidationScope) (symbol : String) (start finish : Datetime)
    (counts : RowCounts) (row : StructuralCandleRecord) : Except ValidationError RowCounts :=
  match utc scope row.openTime with
  | .error error => .error error
  | .ok moment =>
    if row.symbol ≠ symbol then .error (.foreignSymbol scope symbol row.symbol)
    else if row.interval ≠ requiredInterval then .error (.unexpectedInterval symbol row.interval)
    else if ¬(start ≤ moment ∧ moment < finish) then .error (.outside scope symbol moment)
    else .ok (counts.add row moment)

/-- No row misses an input. -/
def RowCounts.inputsReady (counts : RowCounts) : Bool :=
  [counts.missingEma20, counts.missingEma50, counts.missingEma200, counts.missingRegime].all
    fun value => decide (value = 0)

/-- The moment of the first row. -/
def firstTime (rows : List StructuralCandleRecord) : Option ℤ :=
  rows.head?.map fun row => row.openTime.key

/-- The moment of the last row. -/
def lastTime (rows : List StructuralCandleRecord) : Option ℤ :=
  rows.getLast?.map fun row => row.openTime.key

/-! ### `breakout_retest_v2_validation_preflight.py` -/

structure SymbolPreflight where
  symbol : String
  candleCount : ℤ
  expectedCandleCount : ℤ
  firstOpenTime : Option Datetime
  lastOpenTime : Option Datetime
  counts : RowCounts
  coverageComplete : Bool
  indicatorsReady : Bool
  passed : Bool
  deriving DecidableEq

/-- `validate_period`. -/
def validatePeriod (start finish : Timestamp) : Except ValidationError (Datetime × Datetime) := do
  let start ← utc .preflight start
  let finish ← utc .preflight finish
  if finish ≤ start then throw .endNotAfterStart
  else if start < researchExhaustedEnd then throw (.overlapsResearch start)
  else if start % hour ≠ 0 then throw .startNotAligned
  else if finish % hour ≠ 0 then throw .endNotAligned
  else return (start, finish)

/-- `_expected_hourly_candles`. -/
def expectedHourlyCandles (start finish : Datetime) : Except ValidationError ℤ :=
  if (finish - start) / 1000000 % 3600 ≠ 0 then .error .partialHours
  else .ok ((finish - start) / 1000000 / 3600)

/-- `validate_symbol_records`. -/
def validateSymbolRecords (symbol : String) (records : List StructuralCandleRecord)
    (start finish : Timestamp) : Except ValidationError SymbolPreflight :=
  if symbol ∉ requiredSymbols then .error (.unsupportedSymbol symbol)
  else do
    let (start, finish) ← validatePeriod start finish
    let rows ← sortRows records
    let expected ← expectedHourlyCandles start finish
    let counts ← rows.foldlM (scanRow .preflight symbol start finish) {}
    let coverageComplete := decide (rows.length = expected) && decide (counts.duplicates = 0) &&
      decide (counts.gaps = 0) && (rows.isEmpty || decide (firstTime rows = some start)) &&
      (rows.isEmpty || decide (lastTime rows = some (finish - hour)))
    return {
      symbol
      candleCount := rows.length
      expectedCandleCount := expected
      firstOpenTime := firstTime rows
      lastOpenTime := lastTime rows
      counts
      coverageComplete
      indicatorsReady := counts.inputsReady
      passed := coverageComplete && counts.inputsReady }

/-! ### `breakout_retest_v2_validation_accumulation.py` -/

def validationStart : Datetime := researchExhaustedEnd

/-- `VALIDATION_END`: the sixth of February 2027. -/
def validationEnd : Datetime := 20855 * day

/-- `TARGET_HOURS`. -/
def targetHours : ℤ := (validationEnd - validationStart) / hour

/-- `TARGET_DAYS`. -/
def targetDays : ℤ := (validationEnd - validationStart) / day

/-- The texts of `status`. -/
inductive AccumulationStatus
  | accumulating
  | dataQualityBlocked
  | readyForPreflight
  deriving DecidableEq, Repr

/-- The completion is a percentage, which the text shows with two digits. -/
structure SymbolAccumulationStatus where
  symbol : String
  targetCandles : ℤ
  elapsedExpectedCandles : ℤ
  actualCandles : ℤ
  completionPct : ℚ
  firstOpenTime : Option Datetime
  latestOpenTime : Option Datetime
  counts : RowCounts
  elapsedCoverageComplete : Bool
  frozenInputsReady : Bool
  passedSoFar : Bool
  deriving DecidableEq

/-- The texts of `reasons`. -/
inductive AccumulationReason
  /-- "{symbol}_ELAPSED_COVERAGE_INCOMPLETE" -/
  | elapsedCoverageIncomplete (symbol : String)
  /-- "{symbol}_FROZEN_INPUTS_NOT_READY" -/
  | frozenInputsNotReady (symbol : String)
  deriving DecidableEq

/-- The parts of a row that the fingerprint covers. -/
structure FingerprintPart where
  symbol : String
  candleId : ℤ
  openTime : Datetime
  hasEma20 : Bool
  hasEma50 : Bool
  hasEma200 : Bool
  hasRegime : Bool
  deriving DecidableEq

structure ValidationAccumulationStatus where
  status : AccumulationStatus
  asOf : Datetime
  validationStart : Datetime
  validationEnd : Datetime
  targetDays : ℤ
  elapsedDays : ℤ
  remainingDays : ℤ
  targetCandlesPerSymbol : ℤ
  elapsedExpectedCandlesPerSymbol : ℤ
  symbols : List SymbolAccumulationStatus
  structureFingerprint : String
  performanceOpened : Bool := false
  strategyExecuted : Bool := false
  ohlcLoaded : Bool := false
  reasons : List AccumulationReason
  deriving DecidableEq

/-- `effective_cutoff`, of a moment. -/
def effectiveCutoff (asOf : Datetime) : Datetime :=
  if asOf ≤ validationStart then validationStart
  else if asOf ≥ validationEnd then validationEnd
  else asOf - asOf % hour

/-- `_expected_elapsed_candles`. -/
def expectedElapsedCandles (cutoff : Datetime) : ℤ :=
  if cutoff ≤ validationStart then 0 else (cutoff - validationStart) / hour

/-- `_completion_pct`. -/
def completionPct (actual : ℤ) : ℚ :=
  if targetHours ≤ 0 then 0 else (min (max actual 0) targetHours : ℤ) * 100 / targetHours

/-- `validate_accumulated_symbol`. -/
def validateAccumulatedSymbol (symbol : String) (records : List StructuralCandleRecord)
    (cutoff : Datetime) : Except ValidationError SymbolAccumulationStatus :=
  if symbol ∉ requiredSymbols then .error (.unsupportedSymbol symbol)
  else if ¬(validationStart ≤ cutoff ∧ cutoff ≤ validationEnd) then .error .cutoffOutsideRange
  else do
    let rows ← sortRows records
    let expected := expectedElapsedCandles cutoff
    let counts ← rows.foldlM (scanRow .accumulation symbol validationStart cutoff) {}
    let boundaryOk := if expected > 0 then
        !rows.isEmpty && decide (firstTime rows = some validationStart) &&
          decide (lastTime rows = some (cutoff - hour))
      else true
    let coverage := decide (rows.length = expected) && decide (counts.gaps = 0) &&
      decide (counts.duplicates = 0) && boundaryOk
    return {
      symbol
      targetCandles := targetHours
      elapsedExpectedCandles := expected
      actualCandles := rows.length
      completionPct := completionPct rows.length
      firstOpenTime := firstTime rows
      latestOpenTime := lastTime rows
      counts
      elapsedCoverageComplete := coverage
      frozenInputsReady := counts.inputsReady
      passedSoFar := coverage && counts.inputsReady }

/-- The part of a row that the fingerprint covers. -/
def fingerprintPart (symbol : String) (row : StructuralCandleRecord) :
    Except ValidationError FingerprintPart :=
  (utc .accumulation row.openTime).map fun openTime =>
    ⟨symbol, row.candleId, openTime, row.hasEma20, row.hasEma50, row.hasEma200, row.hasRegime⟩

/-- The parts of the rows of a symbol, in order. -/
def fingerprintParts (symbol : String) (records : List StructuralCandleRecord) :
    Except ValidationError (List FingerprintPart) := do
  let rows ← sortRows records
  rows.mapM (fingerprintPart symbol)

/-- `structure_fingerprint`, where `digest` renders the parts and hashes the text. -/
def structureFingerprint (digest : List FingerprintPart → String)
    (records : Dict String (List StructuralCandleRecord)) : Except ValidationError String := do
  let parts ← records.keys.mergeSort.mapM fun symbol =>
    fingerprintParts symbol ((records.get? symbol).getD [])
  return digest parts.flatten

/-- The reasons that a symbol gives. -/
def reasonsOf (item : SymbolAccumulationStatus) : List AccumulationReason :=
  (if item.elapsedCoverageComplete then [] else [.elapsedCoverageIncomplete item.symbol]) ++
    if item.frozenInputsReady then [] else [.frozenInputsNotReady item.symbol]

/-- `build_accumulation_status`. -/
def buildAccumulationStatus (digest : List FingerprintPart → String)
    (records : Dict String (List StructuralCandleRecord)) (asOf : Timestamp) :
    Except ValidationError ValidationAccumulationStatus := do
  let asOf ← utc .accumulation asOf
  let cutoff := effectiveCutoff asOf
  let symbols ← requiredSymbols.mapM fun symbol =>
    validateAccumulatedSymbol symbol ((records.get? symbol).getD []) cutoff
  let elapsed := max 0 (min cutoff validationEnd - validationStart)
  let elapsedDays := elapsed / day
  let reasons := symbols.flatMap reasonsOf
  let fingerprint ← structureFingerprint digest records
  return {
    status :=
      if !reasons.isEmpty then .dataQualityBlocked
      else if cutoff ≥ validationEnd then .readyForPreflight
      else .accumulating
    asOf
    validationStart
    validationEnd
    targetDays
    elapsedDays
    remainingDays := max 0 (targetDays - elapsedDays)
    targetCandlesPerSymbol := targetHours
    elapsedExpectedCandlesPerSymbol := expectedElapsedCandles cutoff
    symbols
    structureFingerprint := fingerprint
    reasons }

/-! ### What both modules accept -/

section Scan

variable {scope scope' : ValidationScope} {symbol : String} {start finish : Datetime}
  {counts next result : RowCounts} {row : StructuralCandleRecord}
  {rows records : List StructuralCandleRecord}

/-- A row that the loop takes is of the symbol and the interval, at a moment of the period. -/
theorem scanRow_eq_ok_iff : scanRow scope symbol start finish counts row = .ok next ↔
    ∃ moment, row.openTime = .aware moment ∧ row.symbol = symbol ∧
      row.interval = requiredInterval ∧ (start ≤ moment ∧ moment < finish) ∧
      counts.add row moment = next := by
  unfold scanRow
  cases htime : row.openTime with
  | naive reading => simp [utc]
  | aware moment =>
    simp only [utc, ne_eq, ite_not, Timestamp.aware.injEq, exists_eq_left']
    split
    · split
      · split
        · simp_all
        · simp_all
      · simp_all
    · simp_all

theorem foldlM_scanRow_iff :
    rows.foldlM (scanRow scope symbol start finish) counts = .ok result ↔
      rows.foldlM (scanRow scope' symbol start finish) counts = .ok result := by
  induction rows generalizing counts with
  | nil => exact Iff.rfl
  | cons row rows ih =>
    rw [List.foldlM_cons, List.foldlM_cons, bind_eq_ok_iff, bind_eq_ok_iff]
    refine exists_congr fun next => and_congr ?_ ih
    rw [scanRow_eq_ok_iff, scanRow_eq_ok_iff]

/-- The rows that the loop takes have moments. -/
theorem aware_of_foldlM (h : rows.foldlM (scanRow scope symbol start finish) counts = .ok result) :
    ∀ row ∈ rows, ∃ moment, row.openTime = .aware moment := by
  induction rows generalizing counts with
  | nil => exact fun _ hmem => absurd hmem List.not_mem_nil
  | cons row rows ih =>
    rw [List.foldlM_cons, bind_eq_ok_iff] at h
    obtain ⟨next, hrow, hrows⟩ := h
    obtain ⟨moment, htime, -⟩ := scanRow_eq_ok_iff.mp hrow
    intro other hmem
    rcases List.mem_cons.mp hmem with rfl | hmem
    · exact ⟨moment, htime⟩
    · exact ih hrows other hmem

/-- The rows of the whole validation period, in order, with the counts of the loop over them. -/
structure Complete (symbol : String) (records rows : List StructuralCandleRecord)
    (counts : RowCounts) : Prop where
  required : symbol ∈ requiredSymbols
  sorted : sortRows records = .ok rows
  scanned : rows.foldlM (scanRow .preflight symbol validationStart validationEnd) {} = .ok counts
  length : (rows.length : ℤ) = targetHours
  duplicates : counts.duplicates = 0
  gaps : counts.gaps = 0
  first : firstTime rows = some validationStart
  last : lastTime rows = some (validationEnd - hour)
  inputs : counts.inputsReady = true

theorem targetHours_pos : 0 < targetHours := by decide +kernel

/-- The preflight passes on the validation period exactly when its rows are complete. -/
theorem preflight_passes_iff :
    (∃ preflight, validateSymbolRecords symbol records (.aware validationStart)
        (.aware validationEnd) = .ok preflight ∧ preflight.passed = true) ↔
      ∃ rows counts, Complete symbol records rows counts := by
  have hperiod : validatePeriod (.aware validationStart) (.aware validationEnd) =
      .ok (validationStart, validationEnd) := by decide +kernel
  have hexpected : expectedHourlyCandles validationStart validationEnd = .ok targetHours := by
    decide +kernel
  unfold validateSymbolRecords
  constructor
  · rintro ⟨preflight, h, hpassed⟩
    split at h
    · cases h
    rename_i hrequired
    obtain ⟨period, hown, h⟩ := bind_eq_ok_iff.mp h
    cases hperiod.symm.trans hown
    obtain ⟨rows, hsorted, h⟩ := bind_eq_ok_iff.mp h
    obtain ⟨expected, hcount, h⟩ := bind_eq_ok_iff.mp h
    cases hexpected.symm.trans hcount
    obtain ⟨counts, hscanned, h⟩ := bind_eq_ok_iff.mp h
    cases h
    simp only [Bool.and_eq_true, decide_eq_true_eq, Bool.or_eq_true, List.isEmpty_iff] at hpassed
    obtain ⟨⟨⟨⟨⟨hlength, hduplicates⟩, hgaps⟩, hfirst⟩, hlast⟩, hinputs⟩ := hpassed
    have hsome : rows ≠ [] := by
      rintro rfl
      exact absurd hlength (ne_of_lt targetHours_pos)
    exact ⟨rows, counts, not_not.mp hrequired, hsorted, hscanned, hlength, hduplicates, hgaps,
      hfirst.resolve_left hsome, hlast.resolve_left hsome, hinputs⟩
  · rintro ⟨rows, counts, hrequired, hsorted, hscanned, hlength, hduplicates, hgaps, hfirst, hlast,
      hinputs⟩
    rw [if_neg (not_not.mpr hrequired), hperiod]
    refine ⟨_, bind_eq_ok_iff.mpr ⟨_, rfl, bind_eq_ok_iff.mpr ⟨rows, hsorted,
      bind_eq_ok_iff.mpr ⟨_, hexpected, bind_eq_ok_iff.mpr ⟨counts, hscanned, rfl⟩⟩⟩⟩, ?_⟩
    simp only [Bool.and_eq_true, decide_eq_true_eq, Bool.or_eq_true]
    exact ⟨⟨⟨⟨⟨hlength, hduplicates⟩, hgaps⟩, Or.inr hfirst⟩, Or.inr hlast⟩, hinputs⟩

/-- At the end of the validation period a symbol gives no reason against it exactly when its rows are
complete. -/
theorem accumulated_passes_iff :
    (∃ item, validateAccumulatedSymbol symbol records validationEnd = .ok item ∧
        reasonsOf item = []) ↔ ∃ rows counts, Complete symbol records rows counts := by
  have hrange : validationStart ≤ validationEnd ∧ validationEnd ≤ validationEnd := by decide +kernel
  have hexpected : expectedElapsedCandles validationEnd = targetHours := by decide +kernel
  unfold validateAccumulatedSymbol
  have hreasons : ∀ item : SymbolAccumulationStatus, reasonsOf item = [] ↔
      item.elapsedCoverageComplete = true ∧ item.frozenInputsReady = true := by
    intro item
    unfold reasonsOf
    cases item.elapsedCoverageComplete <;> cases item.frozenInputsReady <;> simp
  simp only [hreasons, hexpected, gt_iff_lt, targetHours_pos, if_true, hrange, and_self,
    not_true_eq_false, if_false]
  constructor
  · rintro ⟨item, h, hpassed⟩
    split at h
    · cases h
    rename_i hrequired
    obtain ⟨rows, hsorted, h⟩ := bind_eq_ok_iff.mp h
    obtain ⟨counts, hscanned, h⟩ := bind_eq_ok_iff.mp h
    cases h
    simp only [Bool.and_eq_true, decide_eq_true_eq] at hpassed
    obtain ⟨⟨⟨⟨hlength, hgaps⟩, hduplicates⟩, ⟨-, hfirst⟩, hlast⟩, hinputs⟩ := hpassed
    exact ⟨rows, counts, not_not.mp hrequired, hsorted, foldlM_scanRow_iff.mp hscanned, hlength,
      hduplicates, hgaps, hfirst, hlast, hinputs⟩
  · rintro ⟨rows, counts, hrequired, hsorted, hscanned, hlength, hduplicates, hgaps, hfirst, hlast,
      hinputs⟩
    rw [if_neg (not_not.mpr hrequired)]
    refine ⟨_, bind_eq_ok_iff.mpr ⟨rows, hsorted,
      bind_eq_ok_iff.mpr ⟨counts, foldlM_scanRow_iff.mp hscanned, rfl⟩⟩, ?_⟩
    have hsome : rows.isEmpty = false := by
      cases rows with
      | nil => exact absurd hlength (ne_of_lt targetHours_pos)
      | cons row rows => rfl
    simp only [Bool.and_eq_true, decide_eq_true_eq, hsome, Bool.not_false]
    exact ⟨⟨⟨⟨hlength, hgaps⟩, hduplicates⟩, ⟨trivial, hfirst⟩, hlast⟩, hinputs⟩

theorem Complete.fingerprinted (h : Complete symbol records rows counts) :
    ∃ parts, fingerprintParts symbol records = .ok parts := by
  have hrows : ∀ row ∈ rows, ∃ part, fingerprintPart symbol row = .ok part := by
    intro row hmem
    obtain ⟨moment, htime⟩ := aware_of_foldlM h.scanned row hmem
    rw [fingerprintPart, htime]
    exact ⟨_, rfl⟩
  obtain ⟨parts, hparts⟩ := exists_mapM_eq_ok hrows
  exact ⟨parts, bind_eq_ok_iff.mpr ⟨rows, h.sorted, hparts⟩⟩

end Scan

/-- The cutoff reaches the end of the validation period when the moment does. -/
theorem effectiveCutoff_ge_iff (asOf : Datetime) :
    effectiveCutoff asOf ≥ validationEnd ↔ validationEnd ≤ asOf := by
  have hperiod : validationStart < validationEnd := by decide +kernel
  unfold effectiveCutoff
  split
  · rename_i hearly
    exact iff_of_false (not_le.mpr hperiod) (not_le.mpr (hearly.trans_lt hperiod))
  split
  · rename_i hlate
    exact iff_of_true le_rfl hlate
  · rename_i hbefore
    have hfloor : 0 ≤ asOf % hour := Int.emod_nonneg asOf (by decide)
    refine iff_of_false (not_le.mpr ?_) hbefore
    have hless := not_le.mp hbefore
    linarith

theorem effectiveCutoff_of_end {asOf : Datetime} (h : validationEnd ≤ asOf) :
    effectiveCutoff asOf = validationEnd := by
  have hperiod : validationStart < validationEnd := by decide +kernel
  rw [effectiveCutoff, if_neg (not_le.mpr (hperiod.trans_le h)), if_pos h]

/-- The fingerprint is taken when the rows of every symbol are complete. -/
theorem exists_structureFingerprint (digest : List FingerprintPart → String)
    {records : Dict String (List StructuralCandleRecord)}
    (hcomplete : ∀ symbol ∈ records.keys, ∃ rows counts,
      Complete symbol ((records.get? symbol).getD []) rows counts) :
    ∃ fingerprint, structureFingerprint digest records = .ok fingerprint := by
  have hparts : ∀ symbol ∈ records.keys.mergeSort,
      ∃ parts, fingerprintParts symbol ((records.get? symbol).getD []) = .ok parts := by
    intro symbol hmem
    obtain ⟨rows, counts, h⟩ := hcomplete symbol ((List.mergeSort_perm _ _).mem_iff.mp hmem)
    exact h.fingerprinted
  obtain ⟨parts, hall⟩ := exists_mapM_eq_ok hparts
  exact ⟨_, bind_eq_ok_iff.mpr ⟨parts, hall, rfl⟩⟩

end CryptoTrading
