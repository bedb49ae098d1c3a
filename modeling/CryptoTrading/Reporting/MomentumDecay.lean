import CryptoTrading.Kit.StableSort
import CryptoTrading.Reporting.EntryFilter

/-! The report that compares how the trend had changed before the entries of the trades that the filter
would have kept out.  It reads the candle of an entry and earlier ones, so what comes later changes nothing
about it, and each of its summaries is about all the trades of a cell. -/

namespace CryptoTrading

open Kit Kit.StableSort

/-- A value at an entry and one some hours before it, with their difference. -/
structure Change where
  now : Option Decimal
  past : Option Decimal
  delta : Option Decimal
  deriving DecidableEq

/-- The two values with their `_delta` -/
def Change.between (now past : Option Decimal) : Change :=
  ⟨now, past, now.bind fun now => past.map fun past => now - past⟩

structure MomentumDecayRecord where
  symbol : String
  windowIndex : ℕ
  filterGroup : Bool × OutcomeGroup
  entrySignalTime : Datetime
  realizedPnl : Decimal
  horizonHours : ℤ
  ema20Slope : Change
  ema50Slope : Change
  ema200Slope : Change
  closeToEma20 : Change
  closeToEma50 : Change
  closeToEma200 : Change
  regimeConfidence : Change
  deriving DecidableEq

structure MomentumDecaySummary where
  group : Bool × OutcomeGroup
  horizonHours : ℤ
  trades : ℕ
  averagePnl : Decimal
  averageEma20SlopeDelta : Option Decimal
  medianEma20SlopeDelta : Option Decimal
  ema20DecayCount : ℕ
  averageEma50SlopeDelta : Option Decimal
  medianEma50SlopeDelta : Option Decimal
  ema50DecayCount : ℕ
  averageEma200SlopeDelta : Option Decimal
  medianEma200SlopeDelta : Option Decimal
  ema200DecayCount : ℕ
  averageCloseToEma20Delta : Option Decimal
  averageCloseToEma50Delta : Option Decimal
  averageCloseToEma200Delta : Option Decimal
  averageRegimeConfidenceDelta : Option Decimal
  confidenceDecayCount : ℕ
  deriving DecidableEq

structure TrendMomentumDecayReport where
  symbol : String
  sourceFilteredWinners : ℕ
  sourceFilteredTdLosses : ℕ
  records : List MomentumDecayRecord
  summaries : List MomentumDecaySummary
  deriving DecidableEq

/-- What `build_trend_momentum_decay` raises. -/
inductive MomentumDecayError
  /-- "Horizons must be positive" -/
  | nonPositiveHorizon
  /-- "Entry candle not found: {time}" -/
  | noEntryCandle (time : Datetime)
  /-- "Insufficient causal history for {time} horizon={horizon}h" -/
  | insufficientHistory (time : Datetime) (horizon : ℤ)
  deriving DecidableEq

/-- `TARGET_GROUPS`: "FILTERED_WINNER" and "FILTERED_TD_LOSS" -/
def targetGroups : List (Bool × OutcomeGroup) := [(false, .winner), (false, .tdLoss)]

section Record

variable (ordered : List (BacktestCandle EntryIndicators))

/-- `_distance` of the close at an index to an average -/
def distanceAt (index : ℕ) (ema : EntryIndicators → Option Decimal) : Option Decimal :=
  ordered[index]?.bind fun candle => ratioTo (some candle.close) (ema candle.indicators)

def confidenceAt (index : ℕ) : Option Decimal :=
  ordered[index]?.bind fun candle => candle.indicators.regimeConfidence

/-- `by_time.get`: the index of the last candle that opens at a time -/
def indexAt (time : Datetime) : Option ℕ :=
  (ordered.zipIdx.reverse.find? fun item => decide (item.1.openTime = time)).map Prod.snd

/-- The record of a trade with its entry at an index, for one horizon -/
def decayRecord (trade : FilteredTrade) (entryIndex : ℕ) (horizon : ℤ) :
    Except MomentumDecayError MomentumDecayRecord :=
  if (entryIndex : ℤ) - horizon < 9 then .error (.insufficientHistory trade.entrySignalTime horizon)
  else
    let pastIndex := ((entryIndex : ℤ) - horizon).toNat
    let slope (ema : EntryIndicators → Option Decimal) : Change :=
      .between (slope10 ordered entryIndex ema) (slope10 ordered pastIndex ema)
    let distance (ema : EntryIndicators → Option Decimal) : Change :=
      .between (distanceAt ordered entryIndex ema) (distanceAt ordered pastIndex ema)
    .ok
      { symbol := trade.symbol, windowIndex := trade.windowIndex, filterGroup := trade.filterGroup
        entrySignalTime := trade.entrySignalTime, realizedPnl := trade.realizedPnl, horizonHours := horizon
        ema20Slope := slope fun indicators => indicators.ema20
        ema50Slope := slope fun indicators => indicators.ema50
        ema200Slope := slope fun indicators => indicators.ema200
        closeToEma20 := distance fun indicators => indicators.ema20
        closeToEma50 := distance fun indicators => indicators.ema50
        closeToEma200 := distance fun indicators => indicators.ema200
        regimeConfidence := .between (confidenceAt ordered entryIndex) (confidenceAt ordered pastIndex) }

/-- The turn of the loop over the trades -/
def decayRecords (horizons : List ℤ) (trade : FilteredTrade) :
    Except MomentumDecayError (List MomentumDecayRecord) :=
  match indexAt ordered trade.entrySignalTime with
  | none => .error (.noEntryCandle trade.entrySignalTime)
  | some entryIndex => horizons.mapM (decayRecord ordered trade entryIndex)

end Record

/-- The summary of the records of a group and a horizon. -/
def decaySummary (records : List MomentumDecayRecord) (group : Bool × OutcomeGroup) (horizon : ℤ) :
    MomentumDecaySummary :=
  let items := records.filter fun record =>
    decide (record.filterGroup = group ∧ record.horizonHours = horizon)
  let deltas (change : MomentumDecayRecord → Change) := items.map fun item => (change item).delta
  let decays (change : MomentumDecayRecord → Change) :=
    (deltas change).countP fun delta => delta.any fun value => decide (value < 0)
  { group, horizonHours := horizon, trades := items.length
    averagePnl := (averageGiven (items.map fun item => some item.realizedPnl)).getD 0
    averageEma20SlopeDelta := averageGiven (deltas MomentumDecayRecord.ema20Slope)
    medianEma20SlopeDelta := medianGiven (deltas MomentumDecayRecord.ema20Slope)
    ema20DecayCount := decays MomentumDecayRecord.ema20Slope
    averageEma50SlopeDelta := averageGiven (deltas MomentumDecayRecord.ema50Slope)
    medianEma50SlopeDelta := medianGiven (deltas MomentumDecayRecord.ema50Slope)
    ema50DecayCount := decays MomentumDecayRecord.ema50Slope
    averageEma200SlopeDelta := averageGiven (deltas MomentumDecayRecord.ema200Slope)
    medianEma200SlopeDelta := medianGiven (deltas MomentumDecayRecord.ema200Slope)
    ema200DecayCount := decays MomentumDecayRecord.ema200Slope
    averageCloseToEma20Delta := averageGiven (deltas MomentumDecayRecord.closeToEma20)
    averageCloseToEma50Delta := averageGiven (deltas MomentumDecayRecord.closeToEma50)
    averageCloseToEma200Delta := averageGiven (deltas MomentumDecayRecord.closeToEma200)
    averageRegimeConfidenceDelta := averageGiven (deltas MomentumDecayRecord.regimeConfidence)
    confidenceDecayCount := decays MomentumDecayRecord.regimeConfidence }

/-- `build_trend_momentum_decay` -/
def buildTrendMomentumDecay (candles : List (BacktestCandle EntryIndicators))
    (counterfactual : EntryFilterReport) (horizons : List ℤ) :
    Except MomentumDecayError TrendMomentumDecayReport := do
  if horizons.any fun horizon => decide (horizon ≤ 0) then .error .nonPositiveHorizon
  else
    let selected := counterfactual.trades.filter fun trade => decide (trade.filterGroup ∈ targetGroups)
    let records ← selected.mapM (decayRecords (sortOn BacktestCandle.openTime candles) horizons)
    return {
      symbol := counterfactual.symbol
      sourceFilteredWinners := counterfactual.filteredWinner
      sourceFilteredTdLosses := counterfactual.filteredTdLoss
      records := records.flatten
      summaries := targetGroups.flatMap fun group => horizons.map (decaySummary records.flatten group) }

/-! ### Later candles -/

section Later

variable {before after : List (BacktestCandle EntryIndicators)} {index entryIndex : ℕ} {horizon : ℤ}
  {time moment : Datetime} {trade : FilteredTrade} {horizons : List ℤ}

theorem slope10_append (h : index < before.length) (indicator : EntryIndicators → Option Decimal) :
    slope10 (before ++ after) index indicator = slope10 before index indicator := by
  unfold slope10
  rw [List.getElem?_append_left h, List.getElem?_append_left ((Nat.sub_le index 9).trans_lt h)]

theorem decayRecord_append (h : entryIndex < before.length) (hhorizon : 0 < horizon) (trade : FilteredTrade) :
    decayRecord (before ++ after) trade entryIndex horizon = decayRecord before trade entryIndex horizon := by
  have hpast : ((entryIndex : ℤ) - horizon).toNat < before.length := by omega
  unfold decayRecord
  simp only [slope10_append h, slope10_append hpast, distanceAt, confidenceAt, List.getElem?_append_left h,
    List.getElem?_append_left hpast]

theorem indexAt_append (h : ∀ candle ∈ after, candle.openTime ≠ time) :
    indexAt (before ++ after) time = indexAt before time := by
  have hnone : (after.zipIdx before.length).reverse.find?
      (fun item => decide (item.1.openTime = time)) = none := by
    refine List.find?_eq_none.mpr fun item hitem => ?_
    simpa using h item.1 (List.fst_mem_of_mem_zipIdx (List.mem_reverse.mp hitem))
  unfold indexAt
  rw [List.zipIdx_append, List.reverse_append, List.find?_append, Nat.zero_add, hnone, Option.none_or]

theorem indexAt_lt (h : indexAt before time = some index) : index < before.length := by
  obtain ⟨item, hitem, rfl⟩ := Option.map_eq_some_iff.mp h
  have hmem := List.mem_reverse.mp (List.mem_of_find?_eq_some hitem)
  have hindex := List.snd_lt_add_of_mem_zipIdx hmem
  omega

theorem decayRecords_append (hhorizons : ∀ horizon ∈ horizons, 0 < horizon)
    (h : ∀ candle ∈ after, candle.openTime ≠ trade.entrySignalTime) :
    decayRecords (before ++ after) horizons trade = decayRecords before horizons trade := by
  unfold decayRecords
  rw [indexAt_append h]
  cases hindex : indexAt before trade.entrySignalTime with
  | none => rfl
  | some entryIndex =>
    exact mapM_congr_of_mem fun horizon hhorizon =>
      decayRecord_append (indexAt_lt hindex) (hhorizons horizon hhorizon) trade

/-- What comes before a moment is sorted for itself. -/
theorem filter_sortOn (moment : Datetime) (candles : List (BacktestCandle EntryIndicators)) :
    ((sortOn BacktestCandle.openTime candles).filter fun candle => decide (candle.openTime < moment)) =
      sortOn BacktestCandle.openTime (candles.filter fun candle => decide (candle.openTime < moment)) := by
  have hcomm (k : Datetime) (candles : List (BacktestCandle EntryIndicators)) :
      withKey BacktestCandle.openTime k (candles.filter fun candle => decide (candle.openTime < moment)) =
        (withKey BacktestCandle.openTime k candles).filter fun candle => decide (candle.openTime < moment) := by
    unfold withKey
    rw [List.filter_filter, List.filter_filter]
    simp only [Bool.and_comm]
  refine eq_of_withKey_eq ((sorted_sortOn _ candles).filter _) (sorted_sortOn _ _) fun k => ?_
  rw [withKey_sortOn, hcomm, hcomm, withKey_sortOn]

theorem sortOn_cut (moment : Datetime) (candles : List (BacktestCandle EntryIndicators)) :
    ∃ later, sortOn BacktestCandle.openTime candles =
        sortOn BacktestCandle.openTime (candles.filter fun candle => decide (candle.openTime < moment)) ++
          later ∧ ∀ candle ∈ later, moment ≤ candle.openTime := by
  refine ⟨_, (eq_filter_append_filter BacktestCandle.openTime moment (sorted_sortOn _ candles)).trans
    (congrArg (· ++ _) (filter_sortOn moment candles)), fun candle hcandle => ?_⟩
  simpa using (List.mem_filter.mp hcandle).2

/-- No candle from a moment on counts for trades that are all entered before it. -/
theorem buildTrendMomentumDecay_cut (candles : List (BacktestCandle EntryIndicators))
    (counterfactual : EntryFilterReport) (horizons : List ℤ)
    (hentries : ∀ trade ∈ counterfactual.trades, trade.entrySignalTime < moment) :
    buildTrendMomentumDecay candles counterfactual horizons =
      buildTrendMomentumDecay (candles.filter fun candle => decide (candle.openTime < moment)) counterfactual
        horizons := by
  obtain ⟨later, hsorted, hlater⟩ := sortOn_cut moment candles
  unfold buildTrendMomentumDecay
  split
  · rfl
  rename_i hpositive
  have hhorizons : ∀ horizon ∈ horizons, 0 < horizon := by simpa using hpositive
  dsimp only
  rw [hsorted, mapM_congr_of_mem fun trade htrade => decayRecords_append hhorizons fun candle hcandle => ?_]
  have hentry := hentries trade (List.mem_filter.mp htrade).1
  exact (hentry.trans_le (hlater candle hcandle)).ne'

end Later

/-- Histories that agree on the candles before a moment give one report on the trades that are entered
before it. -/
theorem momentum_decay_causal (candles candles' : List (BacktestCandle EntryIndicators))
    (counterfactual : EntryFilterReport) (horizons : List ℤ) (moment : Datetime)
    (hentries : ∀ trade ∈ counterfactual.trades, trade.entrySignalTime < moment)
    (hagree : (candles.filter fun candle => decide (candle.openTime < moment)) =
      candles'.filter fun candle => decide (candle.openTime < moment)) :
    buildTrendMomentumDecay candles counterfactual horizons =
      buildTrendMomentumDecay candles' counterfactual horizons := by
  rw [buildTrendMomentumDecay_cut candles counterfactual horizons hentries, hagree,
    ← buildTrendMomentumDecay_cut candles' counterfactual horizons hentries]

/-! ### The trades of a cell -/

section Counts

variable {ordered : List (BacktestCandle EntryIndicators)} {horizons : List ℤ} {trade : FilteredTrade}
  {selected : List FilteredTrade} {group : Bool × OutcomeGroup} {horizon : ℤ}

theorem decayRecord_spec {entryIndex : ℕ} {record : MomentumDecayRecord}
    (h : decayRecord ordered trade entryIndex horizon = .ok record) :
    record.horizonHours = horizon ∧ record.filterGroup = trade.filterGroup := by
  unfold decayRecord at h
  split at h
  · cases h
  · cases h
    exact ⟨rfl, rfl⟩

/-- A trade has a record for each horizon, all of its own cell. -/
theorem decayRecords_spec {records : List MomentumDecayRecord}
    (h : decayRecords ordered horizons trade = .ok records) :
    records.map MomentumDecayRecord.horizonHours = horizons ∧
      ∀ record ∈ records, record.filterGroup = trade.filterGroup := by
  unfold decayRecords at h
  split at h
  · cases h
  · refine ⟨map_of_mapM_eq_ok (fun horizon record h => (decayRecord_spec h).1) h, fun record hrecord => ?_⟩
    obtain ⟨horizon, -, hmade⟩ := (mapM_eq_ok h).2 record hrecord
    exact (decayRecord_spec hmade).2

theorem countP_decayRecords {records : List MomentumDecayRecord}
    (h : decayRecords ordered horizons trade = .ok records) (group : Bool × OutcomeGroup) (horizon : ℤ) :
    (records.countP fun record => decide (record.filterGroup = group ∧ record.horizonHours = horizon)) =
      if trade.filterGroup = group then horizons.count horizon else 0 := by
  obtain ⟨hhorizons, hgroups⟩ := decayRecords_spec h
  split
  · rename_i hgroup
    rw [← hhorizons, List.count_eq_countP, List.countP_map]
    refine List.countP_congr fun record hrecord => ?_
    simp [hgroups record hrecord, hgroup]
  · rename_i hgroup
    refine List.countP_eq_zero.mpr fun record hrecord => ?_
    simp [hgroups record hrecord, hgroup]

theorem countP_flatten {records : List (List MomentumDecayRecord)}
    (h : selected.mapM (decayRecords ordered horizons) = .ok records) (group : Bool × OutcomeGroup)
    (horizon : ℤ) :
    (records.flatten.countP fun record =>
        decide (record.filterGroup = group ∧ record.horizonHours = horizon)) =
      (selected.countP fun trade => decide (trade.filterGroup = group)) * horizons.count horizon := by
  induction selected generalizing records with
  | nil =>
    cases h
    simp
  | cons trade rest ih =>
    rw [List.mapM_cons] at h
    obtain ⟨first, hfirst, h⟩ := bind_eq_ok_iff.mp h
    obtain ⟨others, hothers, h⟩ := bind_eq_ok_iff.mp h
    cases h
    rw [List.flatten_cons, List.countP_append, countP_decayRecords hfirst, ih hothers, List.countP_cons,
      add_mul, add_comm]
    congr 1
    split <;> simp [*]

end Counts

/-- Each summary of a report is about all the trades of its cell, once for each time that its horizon is
asked for, and it counts no more decays than it has trades. -/
theorem momentum_decay_counts (symbol : String) (trades : List FilteredTrade) (baselineOosPnl : Decimal)
    (thresholds : List WindowThreshold) (candles : List (BacktestCandle EntryIndicators)) (horizons : List ℤ)
    (report : TrendMomentumDecayReport)
    (h : buildTrendMomentumDecay candles (summarizeCounterfactual symbol trades baselineOosPnl thresholds)
      horizons = .ok report) :
    ∀ summary ∈ report.summaries, summary.horizonHours ∈ horizons ∧
      (summary.group = (false, .winner) ∧ summary.trades =
          report.sourceFilteredWinners * horizons.count summary.horizonHours ∨
        summary.group = (false, .tdLoss) ∧ summary.trades =
          report.sourceFilteredTdLosses * horizons.count summary.horizonHours) ∧
      max (max summary.ema20DecayCount summary.ema50DecayCount)
        (max summary.ema200DecayCount summary.confidenceDecayCount) ≤ summary.trades := by
  unfold buildTrendMomentumDecay at h
  split at h
  · cases h
  obtain ⟨records, hrecords, h⟩ := bind_eq_ok_iff.mp h
  cases h
  intro summary hsummary
  obtain ⟨group, hgroup, hmem⟩ := List.mem_flatMap.mp hsummary
  obtain ⟨horizon, hhorizon, rfl⟩ := List.mem_map.mp hmem
  have hcount : (decaySummary records.flatten group horizon).trades =
      (trades.countP fun trade => decide (trade.filterGroup = group)) * horizons.count horizon := by
    change List.length (List.filter _ _) = _
    rw [← List.countP_eq_length_filter, countP_flatten hrecords, List.countP_filter]
    congr 1
    refine List.countP_congr fun trade _ => ?_
    simp only [Bool.and_eq_true, decide_eq_true_eq]
    exact ⟨fun hboth => hboth.1, fun hsame => ⟨hsame, hsame ▸ hgroup⟩⟩
  have hdecays (change : MomentumDecayRecord → Change) (items : List MomentumDecayRecord) :
      ((items.map fun item => (change item).delta).countP fun delta => delta.any fun value =>
        decide (value < 0)) ≤ items.length :=
    List.countP_le_length.trans_eq (List.length_map _)
  refine ⟨hhorizon, ?_, max_le (max_le (hdecays _ _) (hdecays _ _)) (max_le (hdecays _ _) (hdecays _ _))⟩
  rw [hcount]
  rcases List.mem_cons.mp hgroup with rfl | hgroup
  · exact .inl ⟨rfl, rfl⟩
  · obtain rfl := List.mem_singleton.mp hgroup
    exact .inr ⟨rfl, rfl⟩

/-- A winner that the filter keeps out. -/
def keptOut : FilteredTrade where
  symbol := "BTCUSDT"
  windowIndex := 1
  testStart := day
  testEnd := 2 * day
  trainP75 := 1
  trainOpportunities := 1
  entrySignalTime := 36 * hour
  entryFillTime := 37 * hour
  exitTime := 40 * hour
  exitReason := "Take-profit hit"
  realizedPnl := 5
  outcomeGroup := .winner
  filterGroup := (false, .winner)
  wouldPassP75 := false
  entryEma200Slope10 := 0
  slopeMarginToThreshold := -1
  rsi := some 40
  closeToEma200 := some (1 / 49)
  ema20Slope10 := none
  ema50Slope10 := some 0
  atrPct := none
  volatility := none
  regimeConfidence := none
  trendUpAgeBars := 37

def keptOutReport : EntryFilterReport := summarizeCounterfactual "BTCUSDT" [keptOut] 5 []

theorem keptOut_decays : ∃ report,
    buildTrendMomentumDecay (entryCandles 48) keptOutReport [6, 12, 24] = .ok report ∧
      report.records.length = 3 := by
  have hsorted : sortOn BacktestCandle.openTime (entryCandles 48) = entryCandles 48 := by
    refine sortOn_eq_self ?_
    change List.Pairwise _ _
    decide +kernel
  have hreturns : ([keptOut].mapM (decayRecords (entryCandles 48) [6, 12, 24])).toOption.any
      (fun records => decide (records.flatten.length = 3)) = true := by
    decide +kernel
  obtain ⟨records, hrecords, hlength⟩ := (Option.any_eq_true _ _).mp hreturns
  unfold buildTrendMomentumDecay
  rw [if_neg (by decide), hsorted]
  exact ⟨_, bind_eq_ok_iff.mpr ⟨records, toOption_eq_some_iff.mp hrecords, rfl⟩, of_decide_eq_true hlength⟩

theorem keptOut_causal : ∃ report,
    buildTrendMomentumDecay (entryCandles 48) keptOutReport [6, 12, 24] = .ok report ∧
      buildTrendMomentumDecay (entryCandles 72) keptOutReport [6, 12, 24] = .ok report := by
  obtain ⟨report, hreport, -⟩ := keptOut_decays
  have hagree : ((entryCandles 48).filter fun candle => decide (candle.openTime < 2 * day)) =
      (entryCandles 72).filter fun candle => decide (candle.openTime < 2 * day) := by
    rw [entryCandles, entryCandles, List.filter_map, List.filter_map]
    exact congrArg (List.map entryCandle) (by decide +kernel)
  have hentries : ∀ trade ∈ keptOutReport.trades, trade.entrySignalTime < 2 * day := by
    intro trade htrade
    obtain rfl := List.mem_singleton.mp htrade
    decide
  exact ⟨report, hreport, (momentum_decay_causal _ _ keptOutReport [6, 12, 24] (2 * day) hentries
    hagree).symm.trans hreport⟩

theorem keptOut_counted : ∃ report,
    buildTrendMomentumDecay (entryCandles 48) keptOutReport [6, 12, 24] = .ok report ∧
      ∀ summary ∈ report.summaries, summary.horizonHours ∈ ([6, 12, 24] : List ℤ) := by
  obtain ⟨report, hreport, -⟩ := keptOut_decays
  exact ⟨report, hreport, fun summary hsummary =>
    (momentum_decay_counts _ _ _ _ _ _ report hreport summary hsummary).1⟩

end CryptoTrading
