import CryptoTrading.Reporting.Counterfactuals
import CryptoTrading.Reporting.ExitPath

/-! The attribution of the trades that the failed structure has triggered: what they had shown after a day,
and what the price did between then and their exit. -/

namespace CryptoTrading

open Kit

/-! ### The snapshot after a day -/

inductive SnapshotGroup
  | futureWinner
  | trendDownLoss
  | maxHoldingLoss
  | otherLoss
  deriving DecidableEq, Repr

structure EarlyFailureSnapshot where
  symbol : String
  windowIndex : ℤ
  group : SnapshotGroup
  entryTime : Datetime
  snapshotTime : Datetime
  exitTime : Datetime
  exitReason : String
  realizedPnl : Decimal
  entryPrice : Decimal
  close24h : Decimal
  return24hPct : Decimal
  mfe24hPct : Decimal
  mae24hPct : Decimal
  distanceToEma20Pct : Option Decimal
  distanceToEma50Pct : Option Decimal
  distanceToEma200Pct : Option Decimal
  ema20Slope1barPct : Option Decimal
  ema50Slope1barPct : Option Decimal
  ema200Slope1barPct : Option Decimal
  atr : Option Decimal
  atrToClosePct : Option Decimal
  volatility : Option Decimal
  entryRegime : String
  regime24h : String
  regimeChangedSinceEntry : Bool
  regimeTransitionCount : ℕ
  regimeConfidence24h : Option Decimal
  breakoutLevel : Decimal
  distanceToBreakoutLevelPct : Decimal
  deriving DecidableEq

/-- A quotient of Decimals. -/
def quotient (numerator denominator : Decimal) : Except PathError Decimal :=
  if denominator = 0 then .error .divisionByZero
  else .ok (numerator / denominator)

/-- `_distance` -/
def emaDistance (close : Decimal) : Option Decimal → Except PathError (Option Decimal)
  | none => .ok none
  | some value => if value = 0 then .error .zeroEma else .ok (some ((close - value) / value))

/-- `_slope` -/
def emaSlope : Option Decimal → Option Decimal → Except PathError (Option Decimal)
  | some current, some previous =>
    if previous = 0 then .error .zeroPreviousEma
    else .ok (some ((current - previous) / previous))
  | _, _ => .ok none

/-- `atr / close` -/
def atrToClose (close : Decimal) : Option Decimal → Except PathError (Option Decimal)
  | none => .ok none
  | some atr => (quotient atr close).map some

namespace RetestTrade

variable (trade : RetestTrade)

/-- `_group` of the snapshots: a trade that made nothing has none. -/
def snapshotGroup : Option SnapshotGroup :=
  if trade.realizedPnl > 0 then some .futureWinner
  else if trade.realizedPnl ≥ 0 then none
  else if trade.exitReason = "Regime changed to TREND_DOWN" then some .trendDownLoss
  else if trade.exitReason = "Max holding period reached" then some .maxHoldingLoss
  else some .otherLoss

/-- The open of the candle whose close ends the first day. -/
def dayTime : Datetime := trade.entryFillTime + (24 - 1) * hour

/-- The candles of the first day. -/
def firstDay (ordered : List PathCandle) : List PathCandle :=
  ordered.filter fun candle =>
    decide (trade.entryFillTime ≤ candle.openTime) && decide (candle.openTime ≤ trade.dayTime)

/-- The features of a snapshot, from its candle, the one before it and those of the day. -/
def snapshotOf (group : SnapshotGroup) (snapshot previous : PathCandle) (active : List PathCandle) :
    Except PathError EarlyFailureSnapshot := do
  let close := snapshot.close
  let maximum := (active.map PathCandle.high).foldl max trade.entryPrice
  let minimum := (active.map PathCandle.low).foldl min trade.entryPrice
  let regimes := active.map PathCandle.regimeText
  let regime24h := regimes.getLastD "UNKNOWN"
  return {
    symbol := trade.symbol
    windowIndex := trade.windowIndex
    group
    entryTime := trade.entryFillTime
    snapshotTime := trade.dayTime
    exitTime := trade.exitTime
    exitReason := trade.exitReason
    realizedPnl := trade.realizedPnl
    entryPrice := trade.entryPrice
    close24h := close
    return24hPct := ← quotient (close - trade.entryPrice) trade.entryPrice
    mfe24hPct := ← quotient (maximum - trade.entryPrice) trade.entryPrice
    mae24hPct := ← quotient (minimum - trade.entryPrice) trade.entryPrice
    distanceToEma20Pct := ← emaDistance close snapshot.ema20
    distanceToEma50Pct := ← emaDistance close snapshot.ema50
    distanceToEma200Pct := ← emaDistance close snapshot.ema200
    ema20Slope1barPct := ← emaSlope snapshot.ema20 previous.ema20
    ema50Slope1barPct := ← emaSlope snapshot.ema50 previous.ema50
    ema200Slope1barPct := ← emaSlope snapshot.ema200 previous.ema200
    atr := snapshot.atr
    atrToClosePct := ← atrToClose close snapshot.atr
    volatility := snapshot.volatility
    entryRegime := trade.entryRegime
    regime24h
    regimeChangedSinceEntry := decide (regime24h ≠ trade.entryRegime)
    regimeTransitionCount := (regimes.zip regimes.tail).countP fun pair => decide (pair.1 ≠ pair.2)
    regimeConfidence24h := snapshot.regimeConfidence
    breakoutLevel := trade.breakoutLevel
    distanceToBreakoutLevelPct := ← quotient (close - trade.breakoutLevel) trade.breakoutLevel }

/-- The end of `build_24h_snapshot`, from the candle of the snapshot and the one before it. -/
def grouped (snapshot previous : PathCandle) (active : List PathCandle) :
    Except PathError (Option EarlyFailureSnapshot) :=
  if active.length ≠ 24 then .error (.snapshotLength active.length)
  else if trade.breakoutLevel ≤ 0 then .error .levelNotPositive
  else
    match trade.snapshotGroup with
    | none => .ok none
    | some group => (trade.snapshotOf group snapshot previous active).map some

/-- `build_24h_snapshot`, from the ordered candles on. -/
def snapshotOrdered (ordered : List PathCandle) : Except PathError (Option EarlyFailureSnapshot) :=
  if (candleAt ordered trade.entryFillTime).isNone then .error (.entryMissing trade.entryFillTime)
  else if trade.dayTime ≥ trade.exitTime then .ok none
  else
    match candleAt ordered trade.dayTime with
    | none => .error (.snapshotCandleMissing trade.dayTime)
    | some snapshot =>
      match candleAt ordered (trade.dayTime - hour) with
      | none => .error (.previousCandleMissing (trade.dayTime - hour))
      | some previous => trade.grouped snapshot previous (trade.firstDay ordered)

def build24hSnapshot (candles : List PathCandle) : Except PathError (Option EarlyFailureSnapshot) := do
  trade.snapshotOrdered (← orderedCandles candles)

end RetestTrade

/-! ### The attribution -/

inductive TriggerGroup
  | sacrificedWinner
  | savedLoser
  | otherTrigger
  deriving DecidableEq, Repr

structure FalsePositiveAttributionTrade where
  symbol : String
  windowIndex : ℤ
  group : TriggerGroup
  entryTime : Datetime
  snapshotTime : Datetime
  actualExitTime : Datetime
  actualExitReason : String
  actualPnl : Decimal
  counterfactualPnl : Decimal
  pnlDelta : Decimal
  breakoutStrengthPct : Decimal
  retestDepthPct : Decimal
  barsToRetest : ℤ
  return24hPct : Decimal
  mfe24hPct : Decimal
  mae24hPct : Decimal
  distanceToEma20Pct : Option Decimal
  distanceToEma50Pct : Option Decimal
  distanceToBreakoutLevelPct : Decimal
  ema20Slope1barPct : Option Decimal
  ema50Slope1barPct : Option Decimal
  entryRegime : String
  regime24h : String
  holdingAfter24hBars : ℤ
  futureMfeAfter24hPct : Decimal
  futureMaeAfter24hPct : Decimal
  deriving DecidableEq

/-- `_group` of a triggered result. -/
def CounterfactualTrade.triggerGroup (result : CounterfactualTrade) : Except PathError TriggerGroup :=
  if result.triggered = false then .error .notTriggered
  else if result.sacrificedWinner then .ok .sacrificedWinner
  else if result.savedLoser then .ok .savedLoser
  else .ok .otherTrigger

/-- What `_future_excursions` returns. -/
structure FutureExcursions where
  holdingAfter : ℤ
  mfe : Decimal
  mae : Decimal

namespace RetestTrade

variable (trade : RetestTrade)

/-- The candles after the snapshot, before the exit. -/
def candlesAfter (snapshot : EarlyFailureSnapshot) (ordered : List PathCandle) : List PathCandle :=
  ordered.filter fun candle =>
    decide (snapshot.snapshotTime + hour ≤ candle.openTime) && decide (candle.openTime < trade.exitTime)

/-- `_future_excursions`, from the ordered candles on. -/
def futureExcursions (snapshot : EarlyFailureSnapshot) (ordered : List PathCandle) :
    Except PathError FutureExcursions := do
  let active := trade.candlesAfter snapshot ordered
  let best := max ((active.map PathCandle.high).foldl max snapshot.close24h) trade.exitPrice
  let worst := min ((active.map PathCandle.low).foldl min snapshot.close24h) trade.exitPrice
  return {
    holdingAfter := max 0 ((trade.exitTime - (snapshot.snapshotTime + hour)) / hour)
    mfe := ← quotient (best - snapshot.close24h) snapshot.close24h
    mae := ← quotient (worst - snapshot.close24h) snapshot.close24h }

/-- The checks at the start of the attribution. -/
def checkResult (result : CounterfactualTrade) : Except PathError Unit :=
  if result.symbol ≠ trade.symbol ∨ result.windowIndex ≠ trade.windowIndex then .error .identityMismatch
  else if result.entryFillTime ≠ trade.entryFillTime then .error .entryTimeMismatch
  else if result.triggered = false then .error .notTriggered
  else .ok ()

/-- The snapshot of a triggered trade, at the time of the result. -/
def eligibleSnapshot (result : CounterfactualResult StructureReading) (candles : List PathCandle) :
    Except PathError EarlyFailureSnapshot := do
  match ← trade.build24hSnapshot candles with
  | none => throw .noSnapshot
  | some snapshot =>
    if result.snapshotTime ≠ some snapshot.snapshotTime then throw .snapshotTimeMismatch
    else return snapshot

/-- `build_false_positive_attribution_trade` -/
def falsePositiveAttribution (result : CounterfactualResult StructureReading) (candles : List PathCandle) :
    Except PathError FalsePositiveAttributionTrade := do
  trade.checkResult result.toCounterfactualTrade
  let snapshot ← trade.eligibleSnapshot result candles
  let future ← trade.futureExcursions snapshot (← orderedCandles candles)
  let group ← result.triggerGroup
  return {
    symbol := trade.symbol
    windowIndex := trade.windowIndex
    group
    entryTime := trade.entryFillTime
    snapshotTime := snapshot.snapshotTime
    actualExitTime := trade.exitTime
    actualExitReason := trade.exitReason
    actualPnl := trade.realizedPnl
    counterfactualPnl := result.counterfactualPnl
    pnlDelta := result.pnlDelta
    breakoutStrengthPct := trade.breakoutStrengthPct
    retestDepthPct := trade.retestDepthPct
    barsToRetest := trade.barsToRetest
    return24hPct := snapshot.return24hPct
    mfe24hPct := snapshot.mfe24hPct
    mae24hPct := snapshot.mae24hPct
    distanceToEma20Pct := snapshot.distanceToEma20Pct
    distanceToEma50Pct := snapshot.distanceToEma50Pct
    distanceToBreakoutLevelPct := snapshot.distanceToBreakoutLevelPct
    ema20Slope1barPct := snapshot.ema20Slope1barPct
    ema50Slope1barPct := snapshot.ema50Slope1barPct
    entryRegime := snapshot.entryRegime
    regime24h := snapshot.regime24h
    holdingAfter24hBars := future.holdingAfter
    futureMfeAfter24hPct := future.mfe
    futureMaeAfter24hPct := future.mae }

end RetestTrade

/-! ### What the attribution is made of -/

namespace RetestTrade

variable {trade : RetestTrade} {candles ordered : List PathCandle} {snapshot : EarlyFailureSnapshot}
  {result : CounterfactualResult StructureReading} {item : FalsePositiveAttributionTrade}

theorem quotient_eq_ok_iff {numerator denominator value : Decimal} :
    quotient numerator denominator = .ok value ↔ denominator ≠ 0 ∧ value = numerator / denominator := by
  unfold quotient
  split
  · simp [*]
  · simp [*, eq_comm]

/-- The return of a price is that price over the base. -/
theorem price_of_quotient {price base value : Decimal} (h : quotient (price - base) base = .ok value) :
    base * (1 + value) = price := by
  obtain ⟨hbase, rfl⟩ := quotient_eq_ok_iff.mp h
  rw [mul_add, mul_one, mul_div_cancel₀ _ hbase, add_sub_cancel]

/-- What a snapshot says of the prices of the first day. -/
structure Snapped (trade : RetestTrade) (ordered : List PathCandle) (snapshot : EarlyFailureSnapshot) :
    Prop where
  held : trade.dayTime < trade.exitTime
  time : snapshot.snapshotTime = trade.dayTime
  group : trade.snapshotGroup = some snapshot.group
  candle : ∃ candle, candleAt ordered trade.dayTime = some candle ∧ snapshot.close24h = candle.close
  returned : trade.entryPrice * (1 + snapshot.return24hPct) = snapshot.close24h
  mfe : trade.entryPrice * (1 + snapshot.mfe24hPct) =
    ((trade.firstDay ordered).map PathCandle.high).foldl max trade.entryPrice
  mae : trade.entryPrice * (1 + snapshot.mae24hPct) =
    ((trade.firstDay ordered).map PathCandle.low).foldl min trade.entryPrice

theorem snapped_of_ordered (h : trade.snapshotOrdered ordered = .ok (some snapshot)) :
    trade.Snapped ordered snapshot := by
  unfold snapshotOrdered at h
  split at h
  · cases h
  split at h
  · cases h
  rename_i hheld
  split at h
  · cases h
  rename_i candle hcandle
  split at h
  · cases h
  unfold grouped at h
  split at h
  · cases h
  split at h
  · cases h
  split at h
  · cases h
  rename_i group hgroup
  obtain ⟨own, h, hown⟩ := map_eq_ok_iff.mp h
  cases hown
  unfold snapshotOf at h
  dsimp only at h
  obtain ⟨returned, hreturned, h⟩ := bind_eq_ok_iff.mp h
  obtain ⟨mfe, hmfe, h⟩ := bind_eq_ok_iff.mp h
  obtain ⟨mae, hmae, h⟩ := bind_eq_ok_iff.mp h
  obtain ⟨_, -, h⟩ := bind_eq_ok_iff.mp h
  obtain ⟨_, -, h⟩ := bind_eq_ok_iff.mp h
  obtain ⟨_, -, h⟩ := bind_eq_ok_iff.mp h
  obtain ⟨_, -, h⟩ := bind_eq_ok_iff.mp h
  obtain ⟨_, -, h⟩ := bind_eq_ok_iff.mp h
  obtain ⟨_, -, h⟩ := bind_eq_ok_iff.mp h
  obtain ⟨_, -, h⟩ := bind_eq_ok_iff.mp h
  obtain ⟨_, -, h⟩ := bind_eq_ok_iff.mp h
  cases h
  exact {
    held := not_le.mp hheld
    time := rfl
    group := hgroup
    candle := ⟨candle, hcandle, rfl⟩
    returned := price_of_quotient hreturned
    mfe := price_of_quotient hmfe
    mae := price_of_quotient hmae }

/-- What an attribution says of its snapshot and of the prices after it. -/
structure Attributed (trade : RetestTrade) (result : CounterfactualResult StructureReading)
    (ordered : List PathCandle) (item : FalsePositiveAttributionTrade) (snapshot : EarlyFailureSnapshot) :
    Prop where
  snapped : trade.Snapped ordered snapshot
  group : result.triggerGroup = .ok item.group
  returned : item.return24hPct = snapshot.return24hPct
  mfe : item.mfe24hPct = snapshot.mfe24hPct
  mae : item.mae24hPct = snapshot.mae24hPct
  futureMfe : snapshot.close24h * (1 + item.futureMfeAfter24hPct) =
    max (((trade.candlesAfter snapshot ordered).map PathCandle.high).foldl max snapshot.close24h) trade.exitPrice
  futureMae : snapshot.close24h * (1 + item.futureMaeAfter24hPct) =
    min (((trade.candlesAfter snapshot ordered).map PathCandle.low).foldl min snapshot.close24h) trade.exitPrice

theorem attributed_of_attribution (h : trade.falsePositiveAttribution result candles = .ok item) :
    ∃ ordered snapshot, orderedCandles candles = .ok ordered ∧ trade.Attributed result ordered item snapshot := by
  obtain ⟨_, -, h⟩ := bind_eq_ok_iff.mp h
  obtain ⟨snapshot, heligible, h⟩ := bind_eq_ok_iff.mp h
  obtain ⟨ordered, hordered, h⟩ := bind_eq_ok_iff.mp h
  obtain ⟨future, hfuture, h⟩ := bind_eq_ok_iff.mp h
  obtain ⟨group, hgroup, h⟩ := bind_eq_ok_iff.mp h
  cases h
  obtain ⟨mfe, hmfe, hfuture⟩ := bind_eq_ok_iff.mp hfuture
  obtain ⟨mae, hmae, hfuture⟩ := bind_eq_ok_iff.mp hfuture
  cases hfuture
  obtain ⟨found, hfound, heligible⟩ := bind_eq_ok_iff.mp heligible
  have hsnapshot : found = some snapshot := by
    cases found with
    | none => cases heligible
    | some own =>
      dsimp only at heligible
      split at heligible
      · cases heligible
      · cases heligible
        rfl
  rw [hsnapshot] at hfound
  obtain ⟨own, hown, hfound⟩ := bind_eq_ok_iff.mp hfound
  cases hown.symm.trans hordered
  exact ⟨ordered, snapshot, hordered, {
    snapped := snapped_of_ordered hfound
    group := hgroup
    returned := rfl
    mfe := rfl
    mae := rfl
    futureMfe := price_of_quotient hmfe
    futureMae := price_of_quotient hmae }⟩

/-! ### The excursions of three reports -/

/-- Between entry and exit a candle is of the first day, or it is after the snapshot. -/
theorem mem_activeCandles_iff (hvalid : validateHourlySequence ordered = .ok ())
    (hsnapped : trade.Snapped ordered snapshot) (candle : PathCandle) :
    candle ∈ trade.activeCandles ordered ↔
      candle ∈ trade.firstDay ordered ∨ candle ∈ trade.candlesAfter snapshot ordered := by
  obtain ⟨last, hlast, -⟩ := hsnapped.candle
  obtain ⟨hmemLast, htimeLast⟩ := (candleAt_eq_some_iff (ascending_of_valid hvalid)).mp hlast
  have hhour : (0 : ℤ) < hour := by decide
  have hday : trade.entryFillTime ≤ trade.dayTime := le_add_of_nonneg_right (by decide)
  simp only [activeCandles, firstDay, candlesAfter, List.mem_filter, Bool.and_eq_true, decide_eq_true_eq,
    hsnapped.time]
  constructor
  · rintro ⟨hmem, hentry, hexit⟩
    by_cases hfirst : candle.openTime ≤ trade.dayTime
    · exact .inl ⟨hmem, hentry, hfirst⟩
    · -- Candles are whole hours apart.
      have hafter : last.openTime < candle.openTime := htimeLast ▸ not_le.mp hfirst
      obtain ⟨hours, htime⟩ := exists_hours hvalid hmemLast hmem hafter.le
      have hone : (1 : ℤ) * hour ≤ hours * hour := by
        refine mul_le_mul_of_nonneg_right ?_ hhour.le
        have hpos : (0 : ℤ) * hour < hours * hour := by linarith
        exact_mod_cast lt_of_mul_lt_mul_right hpos hhour.le
      exact .inr ⟨hmem, by linarith, hexit⟩
  · rintro (⟨hmem, hentry, hfirst⟩ | ⟨hmem, hlater, hexit⟩)
    · exact ⟨hmem, hentry, hfirst.trans_lt hsnapped.held⟩
    · exact ⟨hmem, by linarith, hexit⟩

/-- The candle of the snapshot is one of the first day. -/
theorem mem_firstDay (hvalid : validateHourlySequence ordered = .ok ()) {candle : PathCandle}
    (h : candleAt ordered trade.dayTime = some candle) : candle ∈ trade.firstDay ordered := by
  obtain ⟨hmem, htime⟩ := (candleAt_eq_some_iff (ascending_of_valid hvalid)).mp h
  have hday : trade.entryFillTime ≤ trade.dayTime := le_add_of_nonneg_right (by decide)
  simp [firstDay, hmem, htime, hday]

/-- The highest price of a trade is that of its first day or that of the time after it, and so is the lowest:
the path of the exit, the snapshot and the attribution agree on them, where the close of the snapshot is
within its candle. -/
theorem excursions_agree (trade : RetestTrade) (candles : List PathCandle)
    (result : CounterfactualResult StructureReading) (item : FalsePositiveAttributionTrade)
    (path : ExitPathTrade)
    (hclose : ∀ candle ∈ candles, candle.openTime = trade.dayTime →
      candle.low ≤ candle.close ∧ candle.close ≤ candle.high)
    (hitem : trade.falsePositiveAttribution result candles = .ok item)
    (hpath : trade.analyzeExitPath candles = .ok path) :
    trade.entryPrice * (1 + path.mfePct) = max (trade.entryPrice * (1 + item.mfe24hPct))
        (trade.entryPrice * (1 + item.return24hPct) * (1 + item.futureMfeAfter24hPct)) ∧
      trade.entryPrice * (1 + path.maePct) = min (trade.entryPrice * (1 + item.mae24hPct))
        (trade.entryPrice * (1 + item.return24hPct) * (1 + item.futureMaeAfter24hPct)) := by
  obtain ⟨ordered, snapshot, hordered, hattributed⟩ := attributed_of_attribution hitem
  obtain ⟨ordered', hordered', hmfe, hmae, -, -⟩ := excursions_of_path hpath
  cases hordered.symm.trans hordered'
  have hvalid := (orderedCandles_eq_ok_iff.mp hordered).2
  have hsnapped := hattributed.snapped
  obtain ⟨last, hlast, hcloseIs⟩ := hsnapped.candle
  have hfirst := mem_firstDay hvalid hlast
  obtain ⟨hmemLast, htimeLast⟩ := (candleAt_eq_some_iff (ascending_of_valid hvalid)).mp hlast
  obtain ⟨hlow, hhigh⟩ := hclose last ((mem_ordered hordered).mp hmemLast) htimeLast
  have hbest := price_of_quotient (show quotient _ trade.entryPrice = .ok path.mfePct from hmfe)
  have hworst := price_of_quotient (show quotient _ trade.entryPrice = .ok path.maePct from hmae)
  rw [excursion_best, firstBest_lt_fst] at hbest
  rw [excursion_worst, firstBest_gt_fst] at hworst
  rw [hbest, hworst, hattributed.mfe, hattributed.mae, hattributed.returned, hsnapped.mfe, hsnapped.mae,
    hsnapped.returned, hattributed.futureMfe, hattributed.futureMae]
  have hmem := mem_activeCandles_iff hvalid hsnapped
  constructor
  · refine eq_of_forall_ge_iff fun bound => ?_
    simp only [max_le_iff, foldl_max_le_iff, List.forall_mem_append, List.forall_mem_map,
      List.forall_mem_singleton, hmem, or_imp, forall_and]
    constructor
    · rintro ⟨hentry, ⟨hday, hafter⟩, hexit⟩
      exact ⟨⟨hentry, hday⟩, ⟨hcloseIs ▸ hhigh.trans (hday last hfirst), hafter⟩, hexit⟩
    · rintro ⟨⟨hentry, hday⟩, ⟨-, hafter⟩, hexit⟩
      exact ⟨hentry, ⟨hday, hafter⟩, hexit⟩
  · refine eq_of_forall_le_iff fun bound => ?_
    simp only [le_min_iff, le_foldl_min_iff, List.forall_mem_append, List.forall_mem_map,
      List.forall_mem_singleton, hmem, or_imp, forall_and]
    constructor
    · rintro ⟨hentry, ⟨hday, hafter⟩, hexit⟩
      exact ⟨⟨hentry, hday⟩, ⟨hcloseIs ▸ (hday last hfirst).trans hlow, hafter⟩, hexit⟩
    · rintro ⟨⟨hentry, hday⟩, ⟨-, hafter⟩, hexit⟩
      exact ⟨hentry, ⟨hday, hafter⟩, hexit⟩

/-- Hours that go up to 102 and down to 96, and close at 97. -/
def fallingCandle (index : ℕ) : PathCandle where
  openTime := index * hour
  opening := some 100
  high := 102
  low := 96
  close := 97
  ema20 := some 99
  ema50 := some 98

def fallingCandles : List PathCandle := (List.range 26).map fallingCandle

/-- It is sold below all of them. -/
def heldPastDay : RetestTrade :=
  { heldTwoDays with exitTime := 26 * hour, exitPrice := 95, realizedPnl := -5 }

def soldAfterDay : CounterfactualResult StructureReading where
  toCounterfactualTrade := heldPastDay.counterfactual (some
    { time := 24 * hour, referencePrice := 100, executionPrice := 99, commission := 1 / 10 })
  snapshotTime := some (23 * hour)
  reading := none

theorem fallingCandles_agree : ∃ item path,
    heldPastDay.falsePositiveAttribution soldAfterDay fallingCandles = .ok item ∧
      heldPastDay.analyzeExitPath fallingCandles = .ok path ∧
      100 * (1 + path.maePct) = min (100 * (1 + item.mae24hPct))
        (100 * (1 + item.return24hPct) * (1 + item.futureMaeAfter24hPct)) := by
  have hordered : orderedCandles fallingCandles = .ok fallingCandles := orderedCandles_of_perm (.refl _) (by decide)
  have hexists {α : Type} {x : Except PathError α} (h : x.toOption.isSome = true) : ∃ a, x = .ok a := by
    cases x with
    | error error => cases h
    | ok a => exact ⟨a, rfl⟩
  obtain ⟨item, hitem⟩ : ∃ item, heldPastDay.falsePositiveAttribution soldAfterDay fallingCandles = .ok item := by
    unfold falsePositiveAttribution eligibleSnapshot build24hSnapshot
    rw [hordered]
    exact hexists (by decide +kernel)
  obtain ⟨path, hpath⟩ : ∃ path, heldPastDay.analyzeExitPath fallingCandles = .ok path := by
    unfold analyzeExitPath
    rw [hordered]
    exact hexists (by decide +kernel)
  have hwithin : ∀ candle ∈ fallingCandles, candle.openTime = heldPastDay.dayTime →
      candle.low ≤ candle.close ∧ candle.close ≤ candle.high := by
    intro candle hmem _
    obtain ⟨index, -, rfl⟩ := List.mem_map.mp hmem
    have hlow : (96 : Decimal) ≤ 97 := by decide +kernel
    have hhigh : (97 : Decimal) ≤ 102 := by decide +kernel
    exact ⟨hlow, hhigh⟩
  exact ⟨item, path, hitem, hpath,
    (excursions_agree heldPastDay fallingCandles soldAfterDay item path hwithin hitem hpath).2⟩

end RetestTrade

end CryptoTrading
