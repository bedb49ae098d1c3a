import CryptoTrading.Monitoring.HealthCoordinator
import CryptoTrading.Risk.RiskEngine
import Mathlib.Algebra.Order.Field.Rat
import Mathlib.Algebra.Order.Field.Basic

/-! The monitor of the risk engine keeps a list of gates of its own.  It looks at the emergency stop, the
database, the reconciliation, the drawdown and the daily loss as `check_trade` does; the exchange API, the
age of the data and the weekly loss it does not look at. -/

namespace CryptoTrading

/-- The events of the account and of the system's operation, which no order has a part in. -/
def RiskEvent.ofAccount : RiskEvent → Bool
  | .emergencyStop | .databaseUnavailable | .apiUnavailable | .reconciliationFailed | .staleData => true
  | .dailyLossLimit | .weeklyLossLimit | .maxDrawdown => true
  | _ => false

/-- A `RiskHealthResult` with the figures that the coordinator does not read. -/
structure MonitoredRisk extends RiskHealthResult where
  capitalUsage : Decimal
  drawdown : Decimal
  deriving DecidableEq

namespace RiskHealthMonitor

def drawdown (engine : RiskEngine) : Decimal :=
  if engine.peakEquity > 0 then (engine.peakEquity - engine.currentEquity) / engine.peakEquity else 0

/-- The checks of `check`, in the order of the source. -/
def checks (engine : RiskEngine) (capitalUsage : Decimal) : List (Bool × String) :=
  let config := engine.config
  [ (engine.isEmergencyStop, "emergency stop active"),
    (!engine.databaseAvailable, "database unavailable"),
    (!engine.reconciliationOk, "reconciliation failed"),
    (decide (drawdown engine > config.maxDrawdown), "maximum drawdown exceeded"),
    (decide (|min engine.dailyPnl 0| > max engine.currentEquity 0 * config.dailyLossLimit),
      "daily loss exceeded"),
    (decide (capitalUsage > config.maxCapitalUtilization), "capital utilization exceeded") ]

/-- `RiskHealthMonitor.check`. -/
def check (engine : RiskEngine) (capitalUsage : Decimal := 0) : MonitoredRisk :=
  let reasons := ((checks engine capitalUsage).filter Prod.fst).map Prod.snd
  let critical := !reasons.isEmpty
  { riskStatus := if critical then .critical else .ok
    capitalUsage, drawdown := drawdown engine, tradingEnabled := !critical, reasons }

theorem tradingEnabled_iff (engine : RiskEngine) (capitalUsage : Decimal) :
    (check engine capitalUsage).tradingEnabled = true ↔
      ∀ item ∈ checks engine capitalUsage, item.1 = false := by
  simp only [check, Bool.not_not, List.isEmpty_iff, List.map_eq_nil_iff, List.filter_eq_nil_iff,
    Bool.not_eq_true]

end RiskHealthMonitor

namespace RiskEngine

variable (engine : RiskEngine) (args : TradeArguments) (capitalUsage : Decimal)

/-- No rejection of the trade is of the account or of the system's operation. -/
def AccountAllows : Prop :=
  ∀ event ∈ (engine.checkTrade args).events, event.ofAccount = false

/-- A gate is closed that the monitor and the check of the trade both look at. -/
def ClosedForBoth : Prop :=
  engine.isEmergencyStop = true ∨
    (engine.databaseAvailable = false ∧
      args.databaseAvailable.getD engine.databaseAvailable = false) ∨
    (engine.reconciliationOk = false ∧
      args.reconciliationOk.getD engine.reconciliationOk = false) ∨
    (engine.dailyPnl < 0 ∧ |engine.dailyPnl| / args.totalCapital > engine.config.dailyLossLimit) ∨
    (engine.peakEquity > 0 ∧ (engine.peakEquity - engine.currentEquity) / engine.peakEquity >
      engine.config.maxDrawdown)

/-- A gate of the check is closed that the monitor does not look at: the exchange API, the age of the
data, the weekly loss, or what the caller says himself of the database or the reconciliation. -/
def ClosedUnmonitored : Prop :=
  args.apiAvailable.getD engine.apiAvailable = false ∨
    (∃ age, engine.dataAge args.now = some age ∧
      age > (engine.config.staleDataThresholdMinutes : Decimal)) ∨
    (engine.weeklyPnl < 0 ∧
      |engine.weeklyPnl| / args.totalCapital > engine.config.weeklyLossLimit) ∨
    args.databaseAvailable = some false ∨ args.reconciliationOk = some false

/-- A check of the monitor fails that the trade is not refused for: the capital in use, a state that the
caller overrides, or a negative limit that is exceeded without a loss. -/
def MonitoredOnly : Prop :=
  capitalUsage > engine.config.maxCapitalUtilization ∨
    (engine.databaseAvailable = false ∧ args.databaseAvailable = some true) ∨
    (engine.reconciliationOk = false ∧ args.reconciliationOk = some true) ∨
    (0 ≤ engine.dailyPnl ∧ engine.config.dailyLossLimit < 0) ∨
    (engine.peakEquity ≤ 0 ∧ engine.config.maxDrawdown < 0)

variable {engine args capitalUsage}

theorem accountAllows_iff_gates (hvalid : args.valid = true) (hincreases : args.reducing = false) :
    engine.AccountAllows args ↔
      ∀ gate ∈ engine.gates args, gate.1 = true → gate.2.event.ofAccount = false := by
  simp only [AccountAllows, checkTrade, hvalid, if_true, rejections, hincreases, Bool.false_eq_true,
    if_false, List.forall_mem_map, List.mem_filter, and_imp]

theorem accountAllows_iff (hvalid : args.valid = true) (hincreases : args.reducing = false) :
    engine.AccountAllows args ↔ ¬(engine.ClosedForBoth args ∨ engine.ClosedUnmonitored args) := by
  rw [accountAllows_iff_gates hvalid hincreases]
  simp only [gates, List.forall_mem_cons, List.not_mem_nil, false_imp_iff, imp_true_iff,
    RiskEvent.ofAccount, Bool.true_eq_false, imp_false, Bool.not_eq_true]
  unfold ClosedForBoth ClosedUnmonitored
  cases args.databaseAvailable <;> cases args.reconciliationOk <;>
    cases engine.dataAge args.now <;> simp <;> grind

/-- The share that the check compares is the product that the monitor compares, since the denominator is
the equity in both. -/
theorem dailyLossExceeded_iff {equity : Decimal} (pnl limit : Decimal) (hequity : 0 < equity) :
    |min pnl 0| > max equity 0 * limit ↔
      (pnl < 0 ∧ |pnl| / equity > limit) ∨ (0 ≤ pnl ∧ limit < 0) := by
  rw [max_eq_left hequity.le]
  rcases lt_or_ge pnl 0 with hloss | hgain
  · have hnot : ¬ 0 ≤ pnl := not_le.2 hloss
    rw [min_eq_left hloss.le, gt_iff_lt, gt_iff_lt, lt_div_iff₀ hequity, mul_comm]
    simp only [hloss, hnot, true_and, false_and, or_false]
  · have hnot : ¬ pnl < 0 := not_lt.2 hgain
    rw [min_eq_right hgain, abs_zero, gt_iff_lt, mul_neg_iff]
    simp only [hnot, hgain, hequity, not_lt.2 hequity.le, false_and, true_and, or_false,
      false_or]

theorem drawdownExceeded_iff (engine : RiskEngine) (limit : Decimal) :
    RiskHealthMonitor.drawdown engine > limit ↔
      (engine.peakEquity > 0 ∧
        (engine.peakEquity - engine.currentEquity) / engine.peakEquity > limit) ∨
      (engine.peakEquity ≤ 0 ∧ limit < 0) := by
  unfold RiskHealthMonitor.drawdown
  split
  · rename_i hpeak
    simp only [hpeak, true_and, not_le.2 hpeak, false_and, or_false]
  · rename_i hpeak
    simp only [hpeak, false_and, not_lt.1 hpeak, true_and, false_or, gt_iff_lt]

theorem tradingEnabled_iff (hcapital : 0 < args.totalCapital)
    (hequity : engine.currentEquity = args.totalCapital) :
    (RiskHealthMonitor.check engine capitalUsage).tradingEnabled = true ↔
      ¬(engine.ClosedForBoth args ∨ engine.MonitoredOnly args capitalUsage) := by
  have hpositive : 0 < engine.currentEquity := hequity ▸ hcapital
  have hdaily := dailyLossExceeded_iff engine.dailyPnl engine.config.dailyLossLimit hpositive
  have hdrawdown := drawdownExceeded_iff engine engine.config.maxDrawdown
  rw [RiskHealthMonitor.tradingEnabled_iff]
  simp only [RiskHealthMonitor.checks, List.forall_mem_cons, List.not_mem_nil, false_imp_iff,
    imp_true_iff, Bool.not_eq_false', decide_eq_false_iff_not, hdaily, hdrawdown, and_true]
  unfold ClosedForBoth MonitoredOnly
  rw [← hequity]
  cases args.databaseAvailable <;> cases args.reconciliationOk <;> simp <;> grind

end RiskEngine

/-- A purchase of a tenth of a unit at 100 from a capital of 1000. -/
def smallPurchase : TradeArguments where
  symbol := "BTCUSDT"
  side := "buy"
  quantity := 1 / 10
  price := 100
  currentBalance := 1000
  currentPositions := .empty
  totalCapital := 1000
  now := 0

/-- An engine without a loss, at its peak. -/
def quietEngine : RiskEngine where
  peakEquity := 1000
  currentEquity := 1000

end CryptoTrading
