import CryptoTrading.Exchange.PaperExecutionEngine
import Mathlib.Tactic.Linarith
import Mathlib.Tactic.Ring

/-! The PnL tracker's snapshots: how the open positions of the engine are marked, and the equity
that a snapshot reports. -/

namespace CryptoTrading

open Kit

/-- `EnginePriceProvider.get_price`: the close of the engine's last candle, whatever the symbol. -/
def PaperExecutionEngine.getPrice (engine : PaperExecutionEngine) (_symbol : String) :
    Option Decimal :=
  engine.lastCandle.map Candle.close

structure PnLRecord where
  timestamp : Datetime
  equity : Decimal := 0
  realizedPnl : Decimal := 0
  unrealizedPnl : Decimal := 0
  totalPnl : Decimal := 0
  feesPaid : Decimal := 0
  slippage : Decimal := 0
  cashBalance : Decimal := 0
  positionValue : Decimal := 0
  deriving DecidableEq

structure EquityPoint where
  timestamp : Datetime
  sequence : ℤ
  equity : Decimal
  drawdown : Decimal := 0
  drawdownPct : Decimal := 0
  deriving DecidableEq

structure PaperPnLTracker where
  initialCapital : Decimal
  pnlRecords : List PnLRecord := []
  equityCurve : List EquityPoint := []
  feesPaid : Decimal := 0
  slippageTotal : Decimal := 0
  peakEquity : Decimal
  deriving DecidableEq

namespace PaperPnLTracker

/-- `PaperPnLTracker(initial_capital)`. -/
def new (initialCapital : Decimal) : PaperPnLTracker :=
  { initialCapital, peakEquity := initialCapital }

/-- `calculate_unrealized_pnl`: positions without a price or a quantity are skipped. -/
def calculateUnrealizedPnl (positions : Dict String PaperPositionState)
    (getPrice : String → Option Decimal) : Decimal :=
  (positions.entries.map fun (symbol, position) =>
    if position.quantity = 0 then 0
    else (getPrice symbol).elim 0 fun price =>
      (price - position.averagePrice) * position.quantity).sum

/-- The value that a snapshot gives a position: nothing for an empty one, or at a price of zero. -/
def markedValue (getPrice : String → Option Decimal) (symbol : String)
    (position : PaperPositionState) : Decimal :=
  if position.quantity > 0 then
    (getPrice symbol).elim 0 fun price => if price = 0 then 0 else position.quantity * price
  else 0

/-- The sum of the values of the positions. -/
def positionValue (engine : PaperExecutionEngine) : Decimal :=
  (engine.positions.entries.map fun (symbol, position) =>
    markedValue engine.getPrice symbol position).sum

/-- `record_snapshot`, with `timestamp` the time given or the clock's. -/
def recordSnapshot (tracker : PaperPnLTracker) (timestamp : Datetime) (sequence : ℤ)
    (engine : Option PaperExecutionEngine) (realizedPnl unrealizedPnl : Option Decimal) :
    PnLRecord × PaperPnLTracker :=
  let realized := realizedPnl.getD 0
  let unrealized :=
    match engine, unrealizedPnl with
    | some engine, none => calculateUnrealizedPnl engine.positions engine.getPrice
    | _, given => given.getD 0
  let total := realized + unrealized
  let cash := engine.elim tracker.initialCapital PaperExecutionEngine.cashBalance
  let value := engine.elim 0 positionValue
  let equity := engine.elim (tracker.initialCapital + total) fun _ => cash + value
  let peak := max tracker.peakEquity equity
  let drawdown := max 0 (peak - equity)
  let drawdownPct := if peak > 0 then drawdown / peak * 100 else 0
  let record : PnLRecord :=
    { timestamp, equity, realizedPnl := realized, unrealizedPnl := unrealized, totalPnl := total
      feesPaid := tracker.feesPaid, slippage := tracker.slippageTotal, cashBalance := cash
      positionValue := value }
  (record, { tracker with
    peakEquity := peak
    pnlRecords := tracker.pnlRecords ++ [record]
    equityCurve := tracker.equityCurve ++ [⟨timestamp, sequence, equity, drawdown, drawdownPct⟩] })

theorem recordSnapshot_equity (tracker : PaperPnLTracker) (timestamp : Datetime) (sequence : ℤ)
    (engine : PaperExecutionEngine) (realizedPnl unrealizedPnl : Option Decimal) :
    (tracker.recordSnapshot timestamp sequence (some engine) realizedPnl unrealizedPnl).1.equity =
      engine.cashBalance + positionValue engine := rfl

end PaperPnLTracker

namespace PaperExecutionEngine

/-- Cash plus the open positions at the prices of `mark`. -/
def equityAt (engine : PaperExecutionEngine) (mark : String → Decimal) : Decimal :=
  engine.cashBalance +
    (engine.positions.entries.map fun (symbol, position) => position.quantity * mark symbol).sum

/-- Every quantity held is nonnegative. -/
def NonnegativePositions (engine : PaperExecutionEngine) : Prop :=
  ∀ symbol position, engine.positions.get? symbol = some position → 0 ≤ position.quantity

theorem NonnegativePositions.heldQuantity {engine : PaperExecutionEngine}
    (h : engine.NonnegativePositions) (symbol : String) : 0 ≤ engine.heldQuantity symbol := by
  cases hp : engine.positions.get? symbol with
  | none => simp [PaperExecutionEngine.heldQuantity, hp]
  | some old => simpa [PaperExecutionEngine.heldQuantity, hp] using h _ old hp

/-- With no short position, a snapshot's equity is the cash plus every position at the last
close. -/
theorem snapshot_equity_eq (engine : PaperExecutionEngine) (hheld : engine.NonnegativePositions)
    {candle : Candle} (hlast : engine.lastCandle = some candle) :
    engine.cashBalance + PaperPnLTracker.positionValue engine =
      engine.equityAt fun _ => candle.close := by
  have hvalue : ∀ entry ∈ engine.positions.entries,
      PaperPnLTracker.markedValue engine.getPrice entry.1 entry.2 =
        entry.2.quantity * candle.close := by
    intro entry hmem
    have hnonneg := hheld entry.1 entry.2 (Dict.get?_eq_some_iff.mpr hmem)
    simp only [PaperPnLTracker.markedValue, getPrice, hlast, Option.map_some, Option.elim_some]
    by_cases hq : entry.2.quantity > 0
    · by_cases hp : candle.close = 0 <;> simp [hq, hp]
    · have : entry.2.quantity = 0 := le_antisymm (not_lt.mp hq) hnonneg
      simp [this]
  rw [equityAt, PaperPnLTracker.positionValue, List.map_congr_left hvalue]

/-- A fill of `quantity` moves the marked value of the position by that quantity at its mark. -/
theorem equityAt_filledAt (engine : PaperExecutionEngine) (args : ExecuteArguments)
    (price : Decimal) (mark : String → Decimal) :
    (engine.filledAt args price).engine.equityAt mark = engine.equityAt mark +
      match args.request.side with
      | .buy => args.request.quantity * mark args.request.symbol
      | .sell => -(args.request.quantity * mark args.request.symbol) := by
  have hsum := Dict.sum_set (fun entry : String × PaperPositionState =>
    entry.2.quantity * mark entry.1) engine.positions args.request.symbol
    (engine.executionAt args price).position
  have hold : ((engine.positions.get? args.request.symbol).elim 0 fun old =>
      old.quantity * mark args.request.symbol) =
      engine.heldQuantity args.request.symbol * mark args.request.symbol := by
    cases h : engine.positions.get? args.request.symbol <;> simp [heldQuantity, h]
  simp only [hold, executionAt_quantity] at hsum
  simp only [equityAt, filledAt_engine, record, hsum]
  cases args.request.side <;> simp only <;> ring

end PaperExecutionEngine

end CryptoTrading
