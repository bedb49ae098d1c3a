import CryptoTrading.Backtest.ExecutionCosts
import CryptoTrading.Reporting.CandlePaths

/-! What closed trades would have made, had they been sold when a rule fails them after a day.  The close of
one candle decides, and the sale is at the open of the next one. -/

namespace CryptoTrading

open Kit

/-- What `_trade_seed` hashes. -/
structure SeedMaterial where
  scheme : Option String
  baseSeed : ℤ
  symbol : String
  windowIndex : ℤ
  entryFillTime : Datetime
  deriving DecidableEq

inductive TradeOutcome
  | winner
  | loser
  | flat
  deriving DecidableEq, Repr

/-- A hypothetical sale, with its commission. -/
structure HypotheticalExit where
  time : Datetime
  referencePrice : Decimal
  executionPrice : Decimal
  commission : Decimal
  deriving DecidableEq

/-- What the results of both reports have. -/
structure CounterfactualTrade where
  symbol : String
  windowIndex : ℤ
  entryFillTime : Datetime
  actualExitTime : Datetime
  actualExitReason : String
  actualPnl : Decimal
  actualOutcome : TradeOutcome
  triggered : Bool
  hypotheticalExitTime : Option Datetime
  hypotheticalReferencePrice : Option Decimal
  hypotheticalExecutionPrice : Option Decimal
  hypotheticalExitCommission : Option Decimal
  counterfactualPnl : Decimal
  pnlDelta : Decimal
  sacrificedWinner : Bool
  savedLoser : Bool
  deriving DecidableEq

namespace RetestTrade

variable (trade : RetestTrade)

def outcome : TradeOutcome :=
  if trade.realizedPnl > 0 then .winner
  else if trade.realizedPnl < 0 then .loser
  else .flat

/-- A sale of the position at market. -/
def sold (slippage : SlippageModel) (time : Datetime) (referencePrice : Decimal) :
    Except PathError HypotheticalExit :=
  match slippage.calculateSlippage referencePrice trade.quantity none false with
  | none => .error .divisionByZero
  | some executionPrice => .ok
    { time, referencePrice, executionPrice
      commission := CommissionConfig.calculateCommission {} trade.quantity executionPrice }

/-- What the trade makes with a sale. -/
def pnlWith (exit : HypotheticalExit) : Decimal :=
  (exit.executionPrice - trade.entryPrice) * trade.quantity - trade.entryCommission - exit.commission

/-- The result for a trade, with its sale if it was triggered. -/
def counterfactual (exit : Option HypotheticalExit) : CounterfactualTrade :=
  let counterfactualPnl := exit.elim trade.realizedPnl trade.pnlWith
  { symbol := trade.symbol
    windowIndex := trade.windowIndex
    entryFillTime := trade.entryFillTime
    actualExitTime := trade.exitTime
    actualExitReason := trade.exitReason
    actualPnl := trade.realizedPnl
    actualOutcome := trade.outcome
    triggered := exit.isSome
    hypotheticalExitTime := exit.map HypotheticalExit.time
    hypotheticalReferencePrice := exit.map HypotheticalExit.referencePrice
    hypotheticalExecutionPrice := exit.map HypotheticalExit.executionPrice
    hypotheticalExitCommission := exit.map HypotheticalExit.commission
    counterfactualPnl
    pnlDelta := counterfactualPnl - trade.realizedPnl
    sacrificedWinner := decide (trade.realizedPnl > 0) && !decide (counterfactualPnl > 0)
    savedLoser := decide (trade.realizedPnl < 0) && decide (counterfactualPnl > trade.realizedPnl) }

end RetestTrade

/-- What the two reports differ in: the candle whose close decides, the seeds, what is read of the candle and
which readings fail the trade. -/
structure CounterfactualRule (ρ : Type) where
  /-- The open of the candle, in hours after the entry. -/
  snapshotHours : ℤ
  scheme : Option String
  reading : RetestTrade → PathCandle → Except PathError ρ
  fails : RetestTrade → ρ → Bool

structure CounterfactualResult (ρ : Type) extends CounterfactualTrade where
  snapshotTime : Option Datetime
  reading : Option ρ
  deriving DecidableEq

/-- `evaluate_early_failure_trade`: a close below the entry fails. -/
def earlyFailure : CounterfactualRule Decimal where
  snapshotHours := 24
  scheme := none
  reading _ candle := .ok candle.close
  fails trade close := decide (close < trade.entryPrice)

/-- What `evaluate_failed_structure_trade` reads of the snapshot. -/
structure StructureReading where
  close : Decimal
  ema20 : Decimal
  ema50 : Decimal
  belowEma20 : Bool
  belowEma50 : Bool
  belowBreakoutLevel : Bool
  deriving DecidableEq

/-- `evaluate_failed_structure_trade`: a close below both averages and the breakout level fails. -/
def failedStructure : CounterfactualRule StructureReading where
  snapshotHours := 24 - 1
  scheme := some "failed-structure-v1"
  reading trade candle :=
    match candle.ema20, candle.ema50 with
    | some ema20, some ema50 => .ok
      { close := candle.close, ema20, ema50
        belowEma20 := decide (candle.close < ema20)
        belowEma50 := decide (candle.close < ema50)
        belowBreakoutLevel := decide (candle.close < trade.breakoutLevel) }
    | _, _ => .error (.emaMissing candle.openTime)
  fails _ reading := reading.belowEma20 && reading.belowEma50 && reading.belowBreakoutLevel

namespace CounterfactualRule

variable {ρ : Type} (rule : CounterfactualRule ρ) (draws : SeedMaterial → ℕ → Decimal) (baseSeed : ℤ)
  (trade : RetestTrade)

def snapshotTime : Datetime := trade.entryFillTime + rule.snapshotHours * hour

def executionTime : Datetime := rule.snapshotTime trade + hour

/-- `SlippageModel(seed=_trade_seed(base_seed, trade))`, where `draws` is what a generator of the seed draws. -/
def slippage : SlippageModel where
  draws := draws
    { scheme := rule.scheme, baseSeed, symbol := trade.symbol, windowIndex := trade.windowIndex
      entryFillTime := trade.entryFillTime }

/-- What is read of the snapshot, where there is one. -/
def read : Option PathCandle → Except PathError (Option ρ)
  | none => .ok none
  | some snapshot => (rule.reading trade snapshot).map some

/-- The hypothetical sale, from what is read of the snapshot and the open of the next candle. -/
def exit : Option ρ → Option Decimal → Except PathError (Option HypotheticalExit)
  | some reading, some opening =>
    if trade.exitTime > rule.executionTime trade ∧ rule.fails trade reading = true then
      (trade.sold (rule.slippage draws baseSeed trade) (rule.executionTime trade) opening).map some
    else .ok none
  | _, _ => .ok none

/-- The evaluation of a trade, from the ordered candles on. -/
def evaluateOrdered (ordered : List PathCandle) : Except PathError (CounterfactualResult ρ) := do
  let snapshot := candleAt ordered (rule.snapshotTime trade)
  let execution := candleAt ordered (rule.executionTime trade)
  let reading ← rule.read trade snapshot
  let exit ← rule.exit draws baseSeed trade reading (execution.map PathCandle.openingPrice)
  return { trade.counterfactual exit with
    snapshotTime := snapshot.map fun _ => rule.snapshotTime trade
    reading }

def evaluate (candles : List PathCandle) : Except PathError (CounterfactualResult ρ) := do
  rule.evaluateOrdered draws baseSeed trade (← orderedCandles candles)

end CounterfactualRule

/-! ### The summaries -/

structure WindowCounterfactual where
  windowIndex : ℤ
  trades : ℕ
  triggered : ℕ
  actualPnl : Decimal
  counterfactualPnl : Decimal
  pnlDelta : Decimal
  sacrificedWinners : ℕ
  savedLosers : ℕ
  deriving DecidableEq

structure CounterfactualSummary (ρ : Type) where
  symbol : String
  trades : ℕ
  triggered : ℕ
  actualPnl : Decimal
  counterfactualPnl : Decimal
  pnlDelta : Decimal
  actualWinners : ℕ
  counterfactualWinners : ℕ
  sacrificedWinners : ℕ
  savedLosers : ℕ
  byWindow : List WindowCounterfactual
  tradesDetail : List (CounterfactualResult ρ)

structure FailedStructureSummary extends CounterfactualSummary StructureReading where
  actualProfitableWindows : ℕ
  counterfactualProfitableWindows : ℕ
  leaveOneWindowOutMinDelta : Decimal
  leaveOneWindowOutAllPositive : Bool

section Summary

variable {ρ : Type} (details : List (CounterfactualResult ρ))

/-- A turn of the loop over the windows. -/
def windowCounterfactual (windowIndex : ℤ) : WindowCounterfactual :=
  let group := StableSort.withKey (fun item => item.windowIndex) windowIndex details
  let actual := (group.map fun item => item.actualPnl).sum
  let counterfactual := (group.map fun item => item.counterfactualPnl).sum
  { windowIndex
    trades := group.length
    triggered := group.countP fun item => item.triggered
    actualPnl := actual
    counterfactualPnl := counterfactual
    pnlDelta := counterfactual - actual
    sacrificedWinners := group.countP fun item => item.sacrificedWinner
    savedLosers := group.countP fun item => item.savedLoser }

/-- The summary that both reports make of their results. -/
def summarize (symbol : String) : CounterfactualSummary ρ :=
  let actualPnl := (details.map fun item => item.actualPnl).sum
  let counterfactualPnl := (details.map fun item => item.counterfactualPnl).sum
  { symbol
    trades := details.length
    triggered := details.countP fun item => item.triggered
    actualPnl
    counterfactualPnl
    pnlDelta := counterfactualPnl - actualPnl
    actualWinners := details.countP fun item => decide (item.actualPnl > 0)
    counterfactualWinners := details.countP fun item => decide (item.counterfactualPnl > 0)
    sacrificedWinners := details.countP fun item => item.sacrificedWinner
    savedLosers := details.countP fun item => item.savedLoser
    byWindow := (StableSort.keys (fun item => item.windowIndex) details).map (windowCounterfactual details)
    tradesDetail := details }

/-- `min(loo_deltas) if loo_deltas else Decimal("0")` -/
def minimumOrZero : List Decimal → Decimal
  | [] => 0
  | first :: rest => rest.foldl min first

variable (trades : List RetestTrade) (candlesByWindow : Dict ℤ (List PathCandle)) (symbol : String)

/-- The results of the trades of a symbol. -/
def CounterfactualRule.results (rule : CounterfactualRule ρ) (draws : SeedMaterial → ℕ → Decimal)
    (baseSeed : ℤ) : Except PathError (List (CounterfactualResult ρ)) :=
  (trades.filter fun trade => trade.symbol = symbol).mapM fun trade =>
    match candlesByWindow.get? trade.windowIndex with
    | none => .error (.windowMissing trade.windowIndex)
    | some candles => rule.evaluate draws baseSeed trade candles

/-- `build_early_failure_counterfactual` -/
def buildEarlyFailureCounterfactual (draws : SeedMaterial → ℕ → Decimal) (baseSeed : ℤ) :
    Except PathError (CounterfactualSummary Decimal) := do
  return summarize (← earlyFailure.results trades candlesByWindow symbol draws baseSeed) symbol

/-- `build_failed_structure_counterfactual` -/
def buildFailedStructureCounterfactual (draws : SeedMaterial → ℕ → Decimal) (baseSeed : ℤ) :
    Except PathError FailedStructureSummary := do
  let details ← failedStructure.results trades candlesByWindow symbol draws baseSeed
  let summary := summarize details symbol
  let looDeltas := summary.byWindow.map fun row => summary.pnlDelta - row.pnlDelta
  return { summary with
    actualProfitableWindows := summary.byWindow.countP fun row => decide (row.actualPnl > 0)
    counterfactualProfitableWindows := summary.byWindow.countP fun row => decide (row.counterfactualPnl > 0)
    leaveOneWindowOutMinDelta := minimumOrZero looDeltas
    leaveOneWindowOutAllPositive := !looDeltas.isEmpty && looDeltas.all fun delta => decide (delta > 0) }

end Summary

/-! ### What decides a trade -/

section Decision

variable {ρ : Type} {rule : CounterfactualRule ρ} {draws : SeedMaterial → ℕ → Decimal} {baseSeed : ℤ}
  {trade : RetestTrade} {candles other ordered ordered' : List PathCandle} {result : CounterfactualResult ρ}

/-- What the candle of a time shows, in ordered candles. -/
theorem map_candleAt_eq_some_iff {α : Type} {f : PathCandle → α} {a : α} {time : Datetime}
    (h : orderedCandles candles = .ok ordered) :
    (candleAt ordered time).map f = some a ↔ ∃ candle ∈ candles, candle.openTime = time ∧ f candle = a := by
  have hascending := ascending_of_valid (orderedCandles_eq_ok_iff.mp h).2
  rw [Option.map_eq_some_iff]
  refine exists_congr fun candle => ?_
  rw [candleAt_eq_some_iff hascending, mem_ordered h, and_assoc]

/-- The evaluation of a trade reads one candle to its close and the open of the next, whatever the other
candles are. -/
theorem counterfactual_no_lookahead (rule : CounterfactualRule ρ) (draws : SeedMaterial → ℕ → Decimal)
    (baseSeed : ℤ) (trade : RetestTrade) (candles other ordered ordered' : List PathCandle)
    (h : orderedCandles candles = .ok ordered) (h' : orderedCandles other = .ok ordered')
    (hsnapshot : ∀ candle : PathCandle, candle.openTime = rule.snapshotTime trade →
      (candle ∈ candles ↔ candle ∈ other))
    (hopening : ∀ price,
      (∃ candle ∈ candles, candle.openTime = rule.executionTime trade ∧ candle.openingPrice = price) ↔
        ∃ candle ∈ other, candle.openTime = rule.executionTime trade ∧ candle.openingPrice = price) :
    rule.evaluate draws baseSeed trade candles = rule.evaluate draws baseSeed trade other := by
  have hread : candleAt ordered (rule.snapshotTime trade) = candleAt ordered' (rule.snapshotTime trade) := by
    refine candleAt_eq_of_mem (ascending_of_valid (orderedCandles_eq_ok_iff.mp h).2)
      (ascending_of_valid (orderedCandles_eq_ok_iff.mp h').2) fun candle htime => ?_
    rw [mem_ordered h, mem_ordered h', hsnapshot candle htime]
  have hsold : (candleAt ordered (rule.executionTime trade)).map PathCandle.openingPrice =
      (candleAt ordered' (rule.executionTime trade)).map PathCandle.openingPrice := by
    refine Option.ext fun price => ?_
    rw [map_candleAt_eq_some_iff h, map_candleAt_eq_some_iff h', hopening]
  have hevaluated : rule.evaluateOrdered draws baseSeed trade ordered =
      rule.evaluateOrdered draws baseSeed trade ordered' := by
    unfold CounterfactualRule.evaluateOrdered
    simp only [hread, hsold]
  unfold CounterfactualRule.evaluate
  rw [h, h']
  exact hevaluated

/-- The close of the first day, below the averages and the level. -/
def fallenHour : PathCandle where
  openTime := 23 * hour
  opening := some 98
  high := 98
  low := 96
  close := 97
  ema20 := some 99
  ema50 := some 98

/-- The hour after it, from its open on. -/
def nextHour (close : Decimal) : PathCandle where
  openTime := 24 * hour
  opening := some 96
  high := 200
  low := 1
  close

def heldTwoDays : RetestTrade where
  symbol := "BTCUSDT"
  windowIndex := 1
  breakoutLevel := 99
  entryFillTime := 0
  entryPrice := 100
  quantity := 1
  exitTime := 48 * hour
  exitPrice := 110
  exitReason := "Take profit reached"
  entryCommission := 1 / 10
  realizedPnl := 9
  holdingBars := 48

theorem failed_before_next_close :
    failedStructure.evaluate (fun _ _ => 1 / 2000) 42 heldTwoDays [fallenHour, nextHour 95] =
      failedStructure.evaluate (fun _ _ => 1 / 2000) 42 heldTwoDays [nextHour 150, fallenHour] := by
  have hapart : (24 * hour : ℤ) ≠ 23 * hour := by decide
  refine counterfactual_no_lookahead failedStructure _ 42 heldTwoDays _ _ [fallenHour, nextHour 95]
    [fallenHour, nextHour 150] (orderedCandles_of_perm (.refl _) (by decide))
    (orderedCandles_of_perm (.swap _ _ _) (by decide)) (fun candle htime => ?_) fun price => ?_
  · have hne (close : Decimal) : candle ≠ nextHour close := by
      rintro rfl
      exact hapart htime
    simp [hne]
  · have htime : failedStructure.executionTime heldTwoDays = 24 * hour := by decide
    simp [htime, fallenHour, nextHour, PathCandle.openingPrice, hapart.symm]

theorem sold_eq_ok_iff {slippage : SlippageModel} {time : Datetime} {price : Decimal} {exit : HypotheticalExit} :
    trade.sold slippage time price = .ok exit ↔
      exit = { time, referencePrice := price
               executionPrice := price * (1 - slippage.slippage trade.quantity none)
               commission := CommissionConfig.calculateCommission {} trade.quantity
                 (price * (1 - slippage.slippage trade.quantity none)) } := by
  have hprice : slippage.calculateSlippage price trade.quantity none false =
      some (price * (1 - slippage.slippage trade.quantity none)) := rfl
  unfold RetestTrade.sold
  rw [hprice]
  constructor
  · rintro ⟨⟩
    rfl
  · rintro rfl
    rfl

/-- A candle of the snapshot fails the trade, which is still held when the next candle opens at the price. -/
structure CounterfactualRule.FailsAt (rule : CounterfactualRule ρ) (trade : RetestTrade)
    (candles : List PathCandle) (opening : Decimal) : Prop where
  snapshot : ∃ candle ∈ candles, candle.openTime = rule.snapshotTime trade ∧
    ∃ reading, rule.reading trade candle = .ok reading ∧ rule.fails trade reading = true
  execution : ∃ candle ∈ candles, candle.openTime = rule.executionTime trade ∧ candle.openingPrice = opening
  held : rule.executionTime trade < trade.exitTime

theorem read_eq_some_iff {snapshot : Option PathCandle} {reading : Option ρ} {value : ρ}
    (h : rule.read trade snapshot = .ok reading) :
    reading = some value ↔ ∃ candle, snapshot = some candle ∧ rule.reading trade candle = .ok value := by
  cases snapshot with
  | none =>
    cases h
    simp
  | some candle =>
    obtain ⟨own, hown, rfl⟩ := map_eq_ok_iff.mp h
    simp [hown]

theorem exit_eq_some_iff {reading : Option ρ} {opening : Option Decimal} {exit : Option HypotheticalExit}
    {sale : HypotheticalExit} (h : rule.exit draws baseSeed trade reading opening = .ok exit) :
    exit = some sale ↔ ∃ value price, reading = some value ∧ opening = some price ∧
      rule.executionTime trade < trade.exitTime ∧ rule.fails trade value = true ∧
        trade.sold (rule.slippage draws baseSeed trade) (rule.executionTime trade) price = .ok sale := by
  unfold CounterfactualRule.exit at h
  split at h
  · split at h
    · rename_i hfails
      obtain ⟨own, hown, rfl⟩ := map_eq_ok_iff.mp h
      simp [hown, hfails.1, hfails.2]
    · rename_i hkept
      cases h
      refine iff_of_false (by simp) ?_
      rintro ⟨value, price, ⟨⟩, ⟨⟩, htime, hfails, -⟩
      exact hkept ⟨htime, hfails⟩
  · rename_i hnone
    cases h
    refine iff_of_false (by simp) ?_
    rintro ⟨value, price, rfl, rfl, -⟩
    exact hnone value price rfl rfl

/-- The result of a trade is that of a sale exactly when a candle fails it. -/
theorem exit_of_evaluate (h : rule.evaluate draws baseSeed trade candles = .ok result) :
    ∃ exit, result.toCounterfactualTrade = trade.counterfactual exit ∧
      ∀ sale, exit = some sale ↔ ∃ opening, rule.FailsAt trade candles opening ∧
        trade.sold (rule.slippage draws baseSeed trade) (rule.executionTime trade) opening = .ok sale := by
  obtain ⟨ordered, hordered, h⟩ := bind_eq_ok_iff.mp h
  unfold CounterfactualRule.evaluateOrdered at h
  obtain ⟨reading, hreading, h⟩ := bind_eq_ok_iff.mp h
  obtain ⟨exit, hexit, h⟩ := bind_eq_ok_iff.mp h
  cases h
  have hascending := ascending_of_valid (orderedCandles_eq_ok_iff.mp hordered).2
  refine ⟨exit, rfl, fun sale => (exit_eq_some_iff hexit).trans ?_⟩
  constructor
  · rintro ⟨value, price, hvalue, hprice, hheld, hfails, hsale⟩
    obtain ⟨candle, hcandle, hread⟩ := (read_eq_some_iff hreading).mp hvalue
    obtain ⟨hmem, htime⟩ := (candleAt_eq_some_iff hascending).mp hcandle
    exact ⟨price, ⟨⟨candle, (mem_ordered hordered).mp hmem, htime, value, hread, hfails⟩,
      (map_candleAt_eq_some_iff hordered).mp hprice, hheld⟩, hsale⟩
  · rintro ⟨price, ⟨⟨candle, hmem, htime, value, hread, hfails⟩, hprice, hheld⟩, hsale⟩
    have hcandle := (candleAt_eq_some_iff hascending).mpr ⟨(mem_ordered hordered).mpr hmem, htime⟩
    exact ⟨value, price, (read_eq_some_iff hreading).mpr ⟨candle, hcandle, hread⟩,
      (map_candleAt_eq_some_iff hordered).mpr hprice, hheld, hfails, hsale⟩

/-- A sale is worth at most the open that it executes at, less the commissions of both orders. -/
theorem pnlWith_le {slippage : SlippageModel} {time : Datetime} {price : Decimal} {sale : HypotheticalExit}
    (h : trade.sold slippage time price = .ok sale) (hslippage : 0 ≤ slippage.slippage trade.quantity none)
    (hquantity : 0 ≤ trade.quantity) (hprice : 0 ≤ price) :
    trade.pnlWith sale ≤ (price - trade.entryPrice) * trade.quantity - trade.entryCommission - 1 / 10000 := by
  rw [sold_eq_ok_iff] at h
  have hexecution : sale.executionPrice ≤ price := by
    rw [h]
    exact mul_le_of_le_one_right hprice (by linarith)
  have hcommission : 1 / 10000 ≤ sale.commission := by
    rw [h]
    exact le_max_right _ _
  have hvalue : (sale.executionPrice - trade.entryPrice) * trade.quantity ≤
      (price - trade.entryPrice) * trade.quantity :=
    mul_le_mul_of_nonneg_right (by linarith) hquantity
  unfold RetestTrade.pnlWith
  linarith

/-- A trade is triggered exactly when a candle fails it while it is held, and then it makes at most what the
next open is worth after the commissions; a trade that is not triggered stays as it was. -/
theorem counterfactual_of_trigger (rule : CounterfactualRule ρ) (draws : SeedMaterial → ℕ → Decimal)
    (baseSeed : ℤ) (trade : RetestTrade) (candles : List PathCandle) (result : CounterfactualResult ρ)
    (hdraws : ∀ material n, 0 ≤ draws material n) (hquantity : 0 ≤ trade.quantity)
    (hprices : ∀ candle ∈ candles, 0 ≤ candle.openingPrice)
    (h : rule.evaluate draws baseSeed trade candles = .ok result) :
    (result.triggered = true ↔ ∃ opening, rule.FailsAt trade candles opening) ∧
      (∀ opening, rule.FailsAt trade candles opening → result.counterfactualPnl ≤
        (opening - trade.entryPrice) * trade.quantity - trade.entryCommission - 1 / 10000) ∧
      (result.triggered = false → result.counterfactualPnl = trade.realizedPnl ∧ result.pnlDelta = 0 ∧
        result.sacrificedWinner = false ∧ result.savedLoser = false) := by
  obtain ⟨exit, hresult, hexit⟩ := exit_of_evaluate h
  have hslippage : 0 ≤ (rule.slippage draws baseSeed trade).slippage trade.quantity none := by
    have hdrawn : 0 ≤ (rule.slippage draws baseSeed trade).draws 0 := hdraws _ 0
    have hfixed : (0 : Decimal) ≤ 5 / 10000 := by norm_num
    change 0 ≤ (5 / 10000 : Decimal) + (if _ then (rule.slippage draws baseSeed trade).draws 0 else 0) + 0
    split
    · linarith
    · linarith
  have hsome : exit.isSome = true ↔ ∃ opening, rule.FailsAt trade candles opening := by
    rw [Option.isSome_iff_exists]
    constructor
    · rintro ⟨sale, hsale⟩
      obtain ⟨opening, hfails, -⟩ := (hexit sale).mp hsale
      exact ⟨opening, hfails⟩
    · rintro ⟨opening, hfails⟩
      exact ⟨_, (hexit _).mpr ⟨opening, hfails, sold_eq_ok_iff.mpr rfl⟩⟩
  refine ⟨?_, fun opening hfails => ?_, fun hkept => ?_⟩
  · rw [hresult]
    exact hsome
  · obtain ⟨candle, hmem, -, hopening⟩ := hfails.execution
    have hsale : trade.sold (rule.slippage draws baseSeed trade) (rule.executionTime trade) opening = .ok _ :=
      sold_eq_ok_iff.mpr rfl
    have hexit := (hexit _).mpr ⟨opening, hfails, hsale⟩
    rw [hresult, hexit]
    exact pnlWith_le hsale hslippage hquantity (hopening ▸ hprices candle hmem)
  · rw [hresult] at hkept ⊢
    have hnone : exit = none := Option.not_isSome_iff_eq_none.mp (Bool.not_eq_true _ ▸ hkept)
    rw [hnone]
    refine ⟨rfl, sub_self _, ?_, ?_⟩
    · simp [RetestTrade.counterfactual]
    · simp [RetestTrade.counterfactual]

theorem falls_after_day : ∃ result,
    failedStructure.evaluate (fun _ _ => 1 / 2000) 42 heldTwoDays [fallenHour, nextHour 95] = .ok result ∧
      result.triggered = true ∧ result.counterfactualPnl ≤ (96 - 100) * 1 - 1 / 10 - 1 / 10000 := by
  have hordered : orderedCandles [fallenHour, nextHour 95] = .ok [fallenHour, nextHour 95] :=
    orderedCandles_of_perm (.refl _) (by decide)
  obtain ⟨result, hresult⟩ : ∃ result, failedStructure.evaluate (fun _ _ => 1 / 2000) 42 heldTwoDays
      [fallenHour, nextHour 95] = .ok result := by
    unfold CounterfactualRule.evaluate
    rw [hordered]
    exact ⟨_, rfl⟩
  have hfails : failedStructure.FailsAt heldTwoDays [fallenHour, nextHour 95] 96 :=
    ⟨⟨fallenHour, by simp, rfl, _, rfl, by decide⟩, ⟨nextHour 95, by simp, rfl, rfl⟩, by decide⟩
  obtain ⟨htriggered, hbound, -⟩ := counterfactual_of_trigger failedStructure _ 42 heldTwoDays _ result
    (fun _ _ => by norm_num) (by decide) (by decide) hresult
  exact ⟨result, hresult, htriggered.mpr ⟨96, hfails⟩, hbound 96 hfails⟩

end Decision

end CryptoTrading
