import CryptoTrading.Kit.Losses
import CryptoTrading.Reporting.MartReturns
import Mathlib.Algebra.Order.Group.MinMax

/-! The two reports on the equity of a paper account that are exported together: the equity curve finds the
drawdowns of its points itself, from the equity of the first, and the summary takes those that the tracker
has left at the points, from the initial capital. -/

namespace CryptoTrading

open Kit

structure TradingMetrics where
  totalRealizedPnl : Decimal := 0
  totalUnrealizedPnl : Decimal := 0
  totalFees : Decimal := 0
  totalSlippage : Decimal := 0
  winCount : ℕ := 0
  lossCount : ℕ := 0
  totalTrades : ℕ := 0
  winRate : Decimal := 0
  avgWin : Decimal := 0
  avgLoss : Decimal := 0
  profitFactor : Decimal := 0
  maxDrawdown : Decimal := 0
  maxDrawdownPct : Decimal := 0
  deriving DecidableEq

structure EquityCurveReport where
  startDate : Datetime
  endDate : Datetime
  startingEquity : Decimal
  endingEquity : Decimal
  peakEquity : Decimal
  troughEquity : Decimal
  totalReturn : Decimal
  totalReturnPct : Decimal
  maxDrawdown : Decimal
  maxDrawdownPct : Decimal
  numPoints : ℕ
  equityPoints : List EquityPoint
  deriving DecidableEq

structure PerformanceSummary where
  periodStart : Datetime
  periodEnd : Datetime
  initialCapital : Decimal
  finalEquity : Decimal
  netPnl : Decimal
  netPnlPct : Decimal
  metrics : TradingMetrics
  sharpeRatio : Option Decimal := none
  deriving DecidableEq

/-- A `PaperMetricsCollector` of the reports and its tracker, of which the fee rate and the results of the
trades stand here. -/
structure MetricsCollector where
  tracker : PaperPnLTracker
  feeRate : Decimal := 1 / 1000
  tradePnl : List Decimal := []
  tradeEvents : List CollectedTrade := []

/-- What is called on a collector or its tracker. -/
inductive CollectorCall
  | recordSnapshot (timestamp : Datetime) (sequence : ℤ) (engine : Option PaperExecutionEngine)
      (realizedPnl unrealizedPnl : Option Decimal)
  | calculateRealizedPnl (fills : List PaperFillState) (orders : List PaperOrderState)
  | calculateFees (fills : List PaperFillState)
  | calculateSlippage (fills : List PaperFillState) (expectedPrices : Dict Identifier Decimal)
  | recordTrade (trade : CollectedTrade)
  | resetTracker
  | reset

namespace MetricsCollector

def new (initialCapital feeRate : Decimal) : MetricsCollector := { tracker := .new initialCapital, feeRate }

variable (collector : MetricsCollector)

/-- A call, which leaves nothing changed when it raises. -/
def call : CollectorCall → MetricsCollector
  | .recordSnapshot timestamp sequence engine realizedPnl unrealizedPnl =>
    { collector with tracker :=
        (collector.tracker.recordSnapshot timestamp sequence engine realizedPnl unrealizedPnl).2 }
  | .calculateRealizedPnl fills orders =>
    match PaperPnLTracker.calculateRealizedPnl fills orders with
    | .error _ => collector
    | .ok ledger => { collector with tradePnl := ledger.tradePnl }
  | .calculateFees fills =>
    { collector with tracker := { collector.tracker with
        feesPaid := (fills.map fun fill => |fill.quantity * fill.price| * collector.feeRate).sum } }
  | .calculateSlippage fills expectedPrices =>
    { collector with tracker := { collector.tracker with
        slippageTotal := (fills.map fun fill =>
          |fill.price - (expectedPrices.get? fill.fillId).getD fill.price| * fill.quantity).sum } }
  | .recordTrade trade =>
    { collector with
      tradeEvents := collector.tradeEvents ++ [trade]
      tracker := { collector.tracker with
        feesPaid := collector.tracker.feesPaid + if trade.fee > 0 then trade.fee else 0
        slippageTotal := collector.tracker.slippageTotal + if trade.slippage > 0 then trade.slippage else 0 } }
  | .resetTracker => { collector with tracker := .new collector.tracker.initialCapital, tradePnl := [] }
  | .reset => .new collector.tracker.initialCapital collector.feeRate

/-- `calculate_metrics`, which returns early where no trade has been closed. -/
def calculateMetrics : TradingMetrics :=
  let totals : TradingMetrics :=
    { totalFees := collector.tracker.feesPaid, totalSlippage := collector.tracker.slippageTotal }
  if collector.tradePnl = [] then totals
  else
    let wins := collector.tradePnl.filter fun pnl => decide (0 < pnl)
    let losses := collector.tradePnl.filter fun pnl => decide (pnl < 0)
    { totals with
      winCount := wins.length, lossCount := losses.length, totalTrades := collector.tradePnl.length
      avgWin := if wins = [] then 0 else wins.sum / wins.length
      avgLoss := if losses = [] then 0 else |losses.sum / losses.length|
      totalRealizedPnl := collector.tradePnl.sum
      winRate := (wins.length : Decimal) / collector.tradePnl.length
      profitFactor := if 0 < |losses.sum| then wins.sum / |losses.sum| else if 0 < wins.sum then 999 else 0
      maxDrawdown := (collector.tracker.equityCurve.map EquityPoint.drawdown).max?.getD 0
      maxDrawdownPct := (collector.tracker.equityCurve.map EquityPoint.drawdownPct).max?.getD 0 }

/-- `drawdown / running_peak * 100` -/
def drawdownShare (peak equity : Decimal) : Decimal := if 0 < peak then (peak - equity) / peak * 100 else 0

/-- The variables of the loop of `generate_equity_curve_report`. -/
structure CurveScan where
  runningPeak : Decimal
  maxDrawdown : Decimal := 0
  maxDrawdownPct : Decimal := 0

def CurveScan.point (scan : CurveScan) (point : EquityPoint) : CurveScan :=
  let runningPeak := if scan.runningPeak < point.equity then point.equity else scan.runningPeak
  let drawdown := runningPeak - point.equity
  let drawdownPct := if 0 < runningPeak then drawdown / runningPeak * 100 else 0
  { runningPeak
    maxDrawdown := if scan.maxDrawdown < drawdown then drawdown else scan.maxDrawdown
    maxDrawdownPct := if scan.maxDrawdownPct < drawdownPct then drawdownPct else scan.maxDrawdownPct }

def generateEquityCurveReport : Option EquityCurveReport :=
  match collector.tracker.equityCurve with
  | [] => none
  | start :: rest =>
    let finish := (start :: rest).getLast (List.cons_ne_nil _ _)
    let equities := (start :: rest).map EquityPoint.equity
    let totalReturn := finish.equity - start.equity
    let scan := (start :: rest).foldl CurveScan.point { runningPeak := start.equity }
    some
      { startDate := start.timestamp, endDate := finish.timestamp
        startingEquity := start.equity, endingEquity := finish.equity
        peakEquity := equities.max?.getD 0, troughEquity := equities.min?.getD 0
        totalReturn, totalReturnPct := if 0 < start.equity then totalReturn / start.equity * 100 else 0
        maxDrawdown := scan.maxDrawdown, maxDrawdownPct := scan.maxDrawdownPct
        numPoints := (start :: rest).length, equityPoints := start :: rest }

def generatePerformanceSummary : Option PerformanceSummary :=
  match collector.tracker.equityCurve with
  | [] => none
  | start :: rest =>
    let finish := (start :: rest).getLast (List.cons_ne_nil _ _)
    let netPnl := finish.equity - collector.tracker.initialCapital
    some
      { periodStart := start.timestamp, periodEnd := finish.timestamp
        initialCapital := collector.tracker.initialCapital, finalEquity := finish.equity, netPnl
        netPnlPct := if 0 < collector.tracker.initialCapital then
          netPnl / collector.tracker.initialCapital * 100 else 0
        metrics := collector.calculateMetrics }

/-- The collector after these calls. -/
def after (initialCapital feeRate : Decimal) (calls : List CollectorCall) : MetricsCollector :=
  calls.foldl call (.new initialCapital feeRate)

end MetricsCollector

/-! ### What the tracker leaves at the points -/

def equitiesOf (points : List EquityPoint) : List Decimal := points.map EquityPoint.equity

def fall (high low : Decimal) : Decimal := high - low

theorem drawdownShare_eq (peak equity : Decimal) :
    MetricsCollector.drawdownShare peak equity = if 0 < peak then fall peak equity / peak * 100 else 0 := rfl

theorem fall_nonneg {peak equity : Decimal} (h : equity ≤ peak) : 0 ≤ fall peak equity := sub_nonneg.mpr h

theorem drawdownShare_nonneg {peak equity : Decimal} (h : equity ≤ peak) :
    0 ≤ MetricsCollector.drawdownShare peak equity := by
  rw [drawdownShare_eq]
  split
  · rename_i hpos
    exact mul_nonneg (div_nonneg (fall_nonneg h) hpos.le) (by norm_num)
  · exact le_rfl

/-- The points carry their losses from the initial capital. -/
structure PaperPnLTracker.Charted (tracker : PaperPnLTracker) : Prop where
  peak : tracker.peakEquity = (equitiesOf tracker.equityCurve).foldl max tracker.initialCapital
  drawdowns : tracker.equityCurve.map EquityPoint.drawdown =
    losses fall tracker.initialCapital (equitiesOf tracker.equityCurve)
  shares : tracker.equityCurve.map EquityPoint.drawdownPct =
    losses MetricsCollector.drawdownShare tracker.initialCapital (equitiesOf tracker.equityCurve)

namespace PaperPnLTracker

variable {tracker : PaperPnLTracker}

theorem charted_new (initialCapital : Decimal) : (new initialCapital).Charted := ⟨rfl, rfl, rfl⟩

theorem Charted.recordSnapshot (h : tracker.Charted) (timestamp : Datetime) (sequence : ℤ)
    (engine : Option PaperExecutionEngine) (realizedPnl unrealizedPnl : Option Decimal) :
    (tracker.recordSnapshot timestamp sequence engine realizedPnl unrealizedPnl).2.Charted := by
  obtain ⟨equity, hcurve, hpeak, hinitial⟩ : ∃ equity : Decimal,
      let peak := max tracker.peakEquity equity
      let drawdown := max 0 (peak - equity)
      let after := (tracker.recordSnapshot timestamp sequence engine realizedPnl unrealizedPnl).2
      after.equityCurve = tracker.equityCurve ++
          [⟨timestamp, sequence, equity, drawdown, if peak > 0 then drawdown / peak * 100 else 0⟩] ∧
        after.peakEquity = peak ∧ after.initialCapital = tracker.initialCapital := ⟨_, rfl, rfl, rfl⟩
  have hfall (peak : Decimal) : max 0 (max peak equity - equity) = fall (max peak equity) equity :=
    max_eq_right (fall_nonneg (le_max_right _ _))
  constructor
  · rw [hpeak, hcurve, hinitial, equitiesOf, List.map_append, List.foldl_append, h.peak]
    rfl
  · rw [hcurve, hinitial, equitiesOf, List.map_append, List.map_append, h.drawdowns]
    simp only [List.map_singleton, losses_concat, hfall, h.peak]
    rfl
  · rw [hcurve, hinitial, equitiesOf, List.map_append, List.map_append, h.shares]
    simp only [List.map_singleton, losses_concat, hfall, h.peak]
    rfl

end PaperPnLTracker

namespace MetricsCollector

variable {collector : MetricsCollector}

theorem charted_call (h : collector.tracker.Charted) (call : CollectorCall) :
    (collector.call call).tracker.Charted := by
  cases call with
  | recordSnapshot timestamp sequence engine realizedPnl unrealizedPnl =>
    exact h.recordSnapshot timestamp sequence engine realizedPnl unrealizedPnl
  | calculateRealizedPnl fills orders =>
    unfold MetricsCollector.call
    dsimp only
    split <;> exact h
  | calculateFees fills => exact ⟨h.peak, h.drawdowns, h.shares⟩
  | calculateSlippage fills expectedPrices => exact ⟨h.peak, h.drawdowns, h.shares⟩
  | recordTrade trade => exact ⟨h.peak, h.drawdowns, h.shares⟩
  | resetTracker => exact PaperPnLTracker.charted_new _
  | reset => exact PaperPnLTracker.charted_new _

theorem initialCapital_call (collector : MetricsCollector) (call : CollectorCall) :
    (collector.call call).tracker.initialCapital = collector.tracker.initialCapital := by
  cases call with
  | calculateRealizedPnl fills orders =>
    unfold MetricsCollector.call
    dsimp only
    split <;> rfl
  | _ => rfl

theorem charted_after (initialCapital feeRate : Decimal) (calls : List CollectorCall) :
    (after initialCapital feeRate calls).tracker.Charted ∧
      (after initialCapital feeRate calls).tracker.initialCapital = initialCapital := by
  induction calls using List.reverseRecOn with
  | nil => exact ⟨PaperPnLTracker.charted_new _, rfl⟩
  | append_singleton calls last ih =>
    rw [after, List.foldl_append]
    exact ⟨charted_call ih.1 last, (initialCapital_call _ last).trans ih.2⟩

/-! ### What the reports make of them -/

theorem point_eq (scan : CurveScan) (point : EquityPoint) : scan.point point =
    { runningPeak := max scan.runningPeak point.equity
      maxDrawdown := max scan.maxDrawdown (fall (max scan.runningPeak point.equity) point.equity)
      maxDrawdownPct :=
        max scan.maxDrawdownPct (drawdownShare (max scan.runningPeak point.equity) point.equity) } := by
  unfold CurveScan.point
  simp only [← max_def_lt]
  rfl

/-- The loop of the report ends with the greatest losses from the running peak. -/
theorem scan_eq (scan : CurveScan) (points : List EquityPoint) (hdrawdown : 0 ≤ scan.maxDrawdown)
    (hpct : 0 ≤ scan.maxDrawdownPct) :
    (points.foldl CurveScan.point scan).maxDrawdown =
        max scan.maxDrawdown (worst fall scan.runningPeak (equitiesOf points)) ∧
      (points.foldl CurveScan.point scan).maxDrawdownPct =
        max scan.maxDrawdownPct (worst drawdownShare scan.runningPeak (equitiesOf points)) := by
  induction points generalizing scan with
  | nil => exact ⟨(max_eq_left hdrawdown).symm, (max_eq_left hpct).symm⟩
  | cons point rest ih =>
    have hstep := point_eq scan point
    have hfall : 0 ≤ (scan.point point).maxDrawdown := by
      rw [hstep]
      exact le_max_of_le_left hdrawdown
    have hshare : 0 ≤ (scan.point point).maxDrawdownPct := by
      rw [hstep]
      exact le_max_of_le_left hpct
    obtain ⟨hfalls, hshares⟩ := ih (scan.point point) hfall hshare
    rw [List.foldl_cons, hfalls, hshares, hstep, max_assoc, max_assoc]
    exact ⟨rfl, rfl⟩

end MetricsCollector

section Losses

variable {initial low : Decimal} {equities : List Decimal}

theorem fall_max (initial peak equity : Decimal) :
    fall (max initial peak) equity = max (fall initial equity) (fall peak equity) :=
  (max_sub_sub_right initial peak equity).symm

theorem drawdownShare_mono {p q equity : Decimal} (hp : 0 < p) (hpq : p ≤ q) (hequity : 0 ≤ equity) :
    MetricsCollector.drawdownShare p equity ≤ MetricsCollector.drawdownShare q equity := by
  have hq := hp.trans_le hpq
  rw [drawdownShare_eq, drawdownShare_eq, if_pos hp, if_pos hq]
  apply mul_le_mul_of_nonneg_right _ (by norm_num)
  rw [div_le_div_iff₀ hp hq, fall, fall]
  nlinarith [mul_le_mul_of_nonneg_left hpq hequity]

theorem drawdownShare_max {peak equity : Decimal} (hinitial : 0 < initial) (hequity : 0 ≤ equity)
    (hpeak : equity ≤ peak) : MetricsCollector.drawdownShare (max initial peak) equity =
      max (MetricsCollector.drawdownShare initial equity) (MetricsCollector.drawdownShare peak equity) := by
  rcases le_total initial peak with hle | hle
  · rw [max_eq_right hle, max_eq_right (drawdownShare_mono hinitial hle hequity)]
  · rw [max_eq_left hle, max_eq_left]
    by_cases hpos : 0 < peak
    · exact drawdownShare_mono hpos hle hequity
    · rw [drawdownShare_eq peak, if_neg hpos]
      exact drawdownShare_nonneg (hpeak.trans hle)

theorem drawdownShare_anti {equity : Decimal} (hinitial : 0 < initial) (hlow : low ≤ equity) :
    MetricsCollector.drawdownShare initial equity ≤ MetricsCollector.drawdownShare initial low := by
  rw [drawdownShare_eq, drawdownShare_eq, if_pos hinitial, if_pos hinitial]
  apply mul_le_mul_of_nonneg_right _ (by norm_num)
  exact div_le_div_of_nonneg_right (sub_le_sub_left hlow initial) hinitial.le

/-- The falls from the initial capital on are those from the first equity on, and the fall below it. -/
theorem worst_fall_initial {first : Decimal} {rest : List Decimal}
    (hlow : low ∈ first :: rest) (hleast : ∀ equity ∈ first :: rest, low ≤ equity) :
    worst fall initial (first :: rest) = max (worst fall first (first :: rest)) (fall initial low) := by
  rw [worst_max_head]
  exact worst_max_low hlow (fun equity hequity => sub_le_sub_left (hleast equity hequity) initial)
    fun equity _ peak _ => fall_max initial peak equity

theorem worst_share_initial {first : Decimal} {rest : List Decimal} (hinitial : 0 < initial)
    (hnonneg : ∀ equity ∈ first :: rest, 0 ≤ equity)
    (hlow : low ∈ first :: rest) (hleast : ∀ equity ∈ first :: rest, low ≤ equity) :
    worst MetricsCollector.drawdownShare initial (first :: rest) =
      max (worst MetricsCollector.drawdownShare first (first :: rest))
        (MetricsCollector.drawdownShare initial low) := by
  rw [worst_max_head]
  exact worst_max_low hlow (fun equity hequity => drawdownShare_anti hinitial (hleast equity hequity))
    fun equity hequity peak hpeak => drawdownShare_max hinitial (hnonneg equity hequity) hpeak

theorem isGreatest_worst_fall (first : Decimal) (rest : List Decimal) :
    IsGreatest {lost | lost = 0 ∨ ∃ high low, [high, low].Sublist (first :: rest) ∧ high - low = lost}
      (worst fall first (first :: rest)) := by
  have hworst : worst fall first (first :: rest) = worst (fun high low => high - low) first rest := by
    rw [worst_cons, max_self, fall, sub_self]
    exact max_eq_right (worst_nonneg _ _ _)
  rw [hworst]
  exact isGreatest_worst_sub first rest

end Losses

/-- How the two reports on one curve stand to each other. -/
structure ReportsReconciled (initialCapital : Decimal) (report : EquityCurveReport)
    (summary : PerformanceSummary) : Prop where
  falls : IsGreatest {lost | lost = 0 ∨ ∃ high low,
    [high, low].Sublist (equitiesOf report.equityPoints) ∧ high - low = lost} report.maxDrawdown
  untraded : summary.metrics.totalTrades = 0 → summary.metrics.maxDrawdown = 0
  traded : summary.metrics.totalTrades ≠ 0 → summary.metrics.maxDrawdown =
    max report.maxDrawdown (initialCapital - report.troughEquity)
  shares : summary.metrics.totalTrades ≠ 0 → 0 < initialCapital →
    (∀ equity ∈ equitiesOf report.equityPoints, 0 ≤ equity) → summary.metrics.maxDrawdownPct =
      max report.maxDrawdownPct ((initialCapital - report.troughEquity) / initialCapital * 100)
  gains : summary.netPnl = report.totalReturn + (report.startingEquity - initialCapital)

namespace MetricsCollector

theorem calculateMetrics_untraded {collector : MetricsCollector}
    (h : collector.calculateMetrics.totalTrades = 0) : collector.calculateMetrics.maxDrawdown = 0 := by
  unfold calculateMetrics at h ⊢
  dsimp only at h ⊢
  split
  · rfl
  · rename_i htraded
    rw [if_neg htraded] at h
    exact absurd (List.length_eq_zero_iff.mp h) htraded

theorem calculateMetrics_traded {collector : MetricsCollector}
    (h : collector.calculateMetrics.totalTrades ≠ 0) :
    collector.calculateMetrics.maxDrawdown =
        (collector.tracker.equityCurve.map EquityPoint.drawdown).max?.getD 0 ∧
      collector.calculateMetrics.maxDrawdownPct =
        (collector.tracker.equityCurve.map EquityPoint.drawdownPct).max?.getD 0 := by
  have htraded : collector.tradePnl ≠ [] := by
    intro hnone
    apply h
    rw [calculateMetrics, if_pos hnone]
  rw [calculateMetrics, if_neg htraded]
  exact ⟨rfl, rfl⟩

/-- The summary keeps the greatest losses from the initial capital on. -/
theorem charted_metrics {collector : MetricsCollector} (h : collector.tracker.Charted)
    (hcurve : collector.tracker.equityCurve ≠ []) (htraded : collector.calculateMetrics.totalTrades ≠ 0) :
    collector.calculateMetrics.maxDrawdown =
        worst fall collector.tracker.initialCapital (equitiesOf collector.tracker.equityCurve) ∧
      collector.calculateMetrics.maxDrawdownPct =
        worst drawdownShare collector.tracker.initialCapital (equitiesOf collector.tracker.equityCurve) := by
  have hne (f : EquityPoint → Decimal) : collector.tracker.equityCurve.map f ≠ [] := by simpa using hcurve
  obtain ⟨hfall, hshare⟩ := calculateMetrics_traded htraded
  rw [hfall, hshare]
  constructor
  · rw [max?_eq_foldr (hne _), h.drawdowns]
    · rfl
    · rw [h.drawdowns]
      exact losses_nonneg fun peak equity => fall_nonneg
  · rw [max?_eq_foldr (hne _), h.shares]
    · rfl
    · rw [h.shares]
      exact losses_nonneg fun peak equity => drawdownShare_nonneg

/-- After any calls, the curve and the summary are reports on the same points.  The greatest drawdown of the
curve is the greatest fall from a point to a later one.  That of the summary is the greater of this one and
of the fall from the initial capital, once a trade has been closed, and zero until then. -/
theorem equity_reports_reconcile (initialCapital feeRate : Decimal) (calls : List CollectorCall) :
    match (after initialCapital feeRate calls).generateEquityCurveReport,
      (after initialCapital feeRate calls).generatePerformanceSummary with
    | some report, some summary => ReportsReconciled initialCapital report summary
    | none, none => (after initialCapital feeRate calls).tracker.equityCurve = []
    | _, _ => False := by
  obtain ⟨hcharted, hinitial⟩ := charted_after initialCapital feeRate calls
  generalize after initialCapital feeRate calls = collector at hcharted hinitial ⊢
  cases hcurve : collector.tracker.equityCurve with
  | nil => simp only [generateEquityCurveReport, generatePerformanceSummary, hcurve]
  | cons start rest =>
    simp only [generateEquityCurveReport, generatePerformanceSummary, hcurve]
    subst hinitial
    have hmetrics := charted_metrics hcharted (by simp [hcurve])
    rw [hcurve] at hmetrics
    obtain ⟨low, hmin⟩ : ∃ low, ((start :: rest).map EquityPoint.equity).min? = some low :=
      Option.ne_none_iff_exists'.mp (by simp)
    obtain ⟨hlow, hleast⟩ := List.min?_eq_some_iff.mp hmin
    obtain ⟨hdrawdown, hpct⟩ := scan_eq { runningPeak := start.equity } (start :: rest) le_rfl le_rfl
    rw [max_eq_right (worst_nonneg _ _ _)] at hdrawdown hpct
    constructor
    · dsimp only
      rw [hdrawdown]
      exact isGreatest_worst_fall start.equity (rest.map EquityPoint.equity)
    · exact calculateMetrics_untraded
    · intro htraded
      dsimp only
      rw [(hmetrics htraded).1, hdrawdown, hmin]
      exact worst_fall_initial hlow hleast
    · intro htraded hpositive hnonneg
      dsimp only
      rw [(hmetrics htraded).2, hpct, hmin]
      refine (worst_share_initial hpositive hnonneg hlow hleast).trans ?_
      rw [drawdownShare_eq, if_pos hpositive]
      rfl
    · dsimp only
      ring

end MetricsCollector

end CryptoTrading
