import CryptoTrading.Risk.DurableState
import Mathlib.Algebra.Order.Field.Basic

/-! How the verdict on a trade depends on its quantity: what is approved of a quantity is approved of a
smaller one, and what the adjusted quantity of a rejected trade is worth. -/

namespace CryptoTrading

namespace TradeArguments

variable {args : TradeArguments} {quantity : Decimal}

/-! ### A smaller quantity -/

/-- The exposure after a smaller trade lies between the exposures before and after the trade. -/
theorem abs_after_le_max (hprice : 0 < args.price) (hpos : 0 < quantity)
    (hle : quantity ≤ args.quantity) :
    |({ args with quantity } : TradeArguments).after| ≤ max |args.before| |args.after| := by
  have hworth : 0 ≤ quantity * args.price := (mul_pos hpos hprice).le
  have hmore : quantity * args.price ≤ args.quantity * args.price :=
    mul_le_mul_of_nonneg_right hle hprice.le
  show |args.before + if args.side.toLower = "buy" then quantity * args.price
    else -(quantity * args.price)| ≤ _
  unfold after orderValue
  split
  · exact abs_le_max_abs_abs (by linarith) (by linarith)
  · rw [max_comm]
    exact abs_le_max_abs_abs (by linarith) (by linarith)

theorem exposureIncrease_le (hprice : 0 < args.price) (hpos : 0 < quantity)
    (hle : quantity ≤ args.quantity) :
    ({ args with quantity } : TradeArguments).exposureIncrease ≤ args.exposureIncrease := by
  show max (|({ args with quantity } : TradeArguments).after| - |args.before|) 0 ≤ _
  refine max_le ?_ (le_max_right _ _)
  rcases le_max_iff.mp (abs_after_le_max hprice hpos hle) with hbefore | hafter
  · exact (sub_nonpos.mpr hbefore).trans (le_max_right _ _)
  · exact (sub_le_sub_right hafter _).trans (le_max_left _ _)

theorem abs_after_le (hprice : 0 < args.price) (hpos : 0 < quantity) (hle : quantity ≤ args.quantity)
    (hincrease : ({ args with quantity } : TradeArguments).reducing = false) :
    |({ args with quantity } : TradeArguments).after| ≤ |args.after| := by
  rw [reducing, decide_eq_false_iff_not] at hincrease
  refine (le_max_iff.mp (abs_after_le_max hprice hpos hle)).resolve_left fun hbefore => hincrease ?_
  exact max_eq_right (sub_nonpos.mpr hbefore)

theorem reducing_of_le (hprice : 0 < args.price) (hpos : 0 < quantity)
    (hle : quantity ≤ args.quantity) (h : args.reducing = true) :
    ({ args with quantity } : TradeArguments).reducing = true := by
  rw [reducing, decide_eq_true_eq] at h ⊢
  exact le_antisymm ((exposureIncrease_le hprice hpos hle).trans h.le) (le_max_right _ _)

/-- A smaller trade that increases the exposure exceeds no limit that the trade does not exceed. -/
theorem exceedsLimits_of_le {config : RiskConfig} (hprice : 0 < args.price)
    (hcapital : 0 < args.totalCapital) (hpos : 0 < quantity) (hle : quantity ≤ args.quantity)
    (hincrease : ({ args with quantity } : TradeArguments).reducing = false)
    (h : ({ args with quantity } : TradeArguments).ExceedsLimits config) :
    args.ExceedsLimits config := by
  have hafter := abs_after_le hprice hpos hle hincrease
  have hexposure := exposureIncrease_le hprice hpos hle
  have hshare : |({ args with quantity } : TradeArguments).after| / args.totalCapital ≤
      |args.after| / args.totalCapital := div_le_div_of_nonneg_right hafter hcapital.le
  rcases h with hunknown | hsize | hbalance | ⟨stop, hstop, hrisk⟩ | hasset | hutilization
  · exact Or.inl hunknown
  · exact Or.inr (Or.inl (hsize.trans_le hshare))
  · exact Or.inr (Or.inr (Or.inl (lt_of_lt_of_le hbalance hexposure)))
  · refine Or.inr (Or.inr (Or.inr (Or.inl ⟨stop, hstop, hrisk.trans_le ?_⟩)))
    refine div_le_div_of_nonneg_right ?_ hcapital.le
    refine mul_le_mul_of_nonneg_right ?_ (abs_nonneg _)
    exact div_le_div_of_nonneg_right hexposure hprice.le
  · exact Or.inr (Or.inr (Or.inr (Or.inr (Or.inl (hasset.trans_le hshare)))))
  · refine Or.inr (Or.inr (Or.inr (Or.inr (Or.inr (hutilization.trans_le ?_)))))
    exact div_le_div_of_nonneg_right (add_le_add_right hafter _) hcapital.le

end TradeArguments

namespace RiskEngine

/-- What is approved of a quantity is approved of every smaller one. -/
theorem approved_of_le (engine : RiskEngine) (args : TradeArguments) (quantity : Decimal)
    (hpos : 0 < quantity) (hle : quantity ≤ args.quantity)
    (h : (engine.checkTrade args).approved = true) :
    (engine.checkTrade { args with quantity }).approved = true := by
  have hvalid := ((engine.checkTrade_approved_iff args).mp h).1
  simp only [TradeArguments.valid, Bool.and_eq_true, decide_eq_true_eq] at hvalid
  obtain ⟨⟨⟨hside, -⟩, hprice⟩, hcapital⟩ := hvalid
  by_contra hrejected
  rw [Bool.not_eq_true, not_approved_iff] at hrejected
  have hopen : ¬(args.reducing = false ∧
      ((engine.AccountClosed args ∨ args.BringsFailure ∨ engine.Uncertain args) ∨
        args.Refused engine.config)) := by
    intro hclosed
    rw [not_approved_iff.mpr (Or.inr hclosed)] at h
    cases h
  rcases hrejected with hinvalid | ⟨hincrease, hclosed⟩
  · rw [← Bool.not_eq_true] at hinvalid
    refine hinvalid ?_
    simp only [TradeArguments.valid, Bool.and_eq_true, decide_eq_true_eq]
    exact ⟨⟨⟨hside, hpos⟩, hprice⟩, hcapital⟩
  · -- A smaller trade does not increase the exposure unless the trade does.
    have hlarger : args.reducing = false := by
      cases hreducing : args.reducing with
      | false => rfl
      | true =>
        rw [TradeArguments.reducing_of_le hprice hpos hle hreducing] at hincrease
        cases hincrease
    refine hopen ⟨hlarger, ?_⟩
    rcases hclosed with hguard | hexceeds | hmany
    · exact Or.inl hguard
    · exact Or.inr (Or.inl
        (TradeArguments.exceedsLimits_of_le hprice hcapital hpos hle hincrease hexceeds))
    · exact Or.inr (Or.inr hmany)

/-- A sale of nine units of a long position of ten at the emergency stop. -/
def stoppedSale : TradeArguments where
  symbol := "BTCUSDT"
  side := "sell"
  quantity := 9
  price := 10
  currentBalance := 0
  currentPositions := Kit.Dict.empty.set "BTCUSDT"
    { symbol := some "BTCUSDT", value := 100, side := "long" }
  totalCapital := 100
  now := 0

/-- `approved_of_le` for a sale of one unit of them. -/
theorem approved_stoppedSale :
    (RiskEngine.checkTrade { isEmergencyStop := true } { stoppedSale with quantity := 1 }).approved =
      true :=
  approved_of_le { isEmergencyStop := true } stoppedSale 1 (by decide +kernel) (by decide +kernel)
    (by decide +kernel)

end RiskEngine

/-! ### The adjusted quantity -/

/-- A trade of a quantity in the symbol, on the side and at the price of another, with the same positions
and capital. -/
structure TradeArguments.Resubmits (args : TradeArguments) (quantity : Decimal)
    (again : TradeArguments) : Prop where
  symbol : again.symbol = args.symbol
  side : again.side = args.side
  quantity : again.quantity = quantity
  price : again.price = args.price
  currentPositions : again.currentPositions = args.currentPositions
  totalCapital : again.totalCapital = args.totalCapital

theorem TradeArguments.abs_after_le_add (args : TradeArguments) (hworth : 0 < args.orderValue) :
    |args.after| ≤ |args.before| + args.orderValue := by
  rw [after]
  refine (abs_add_le _ _).trans (add_le_add_right ?_ _)
  split
  · exact (abs_of_pos hworth).le
  · rw [abs_neg, abs_of_pos hworth]

namespace RiskEngine

variable {engine : RiskEngine} {args again : TradeArguments} {quantity : Decimal}

/-- The gates that report the position size are that on the share of the capital and that on the number
of open positions. -/
theorem maxPositionSize_mem_iff : .maxPositionSize ∈ (engine.checkTrade args).events ↔
    args.valid = true ∧ args.reducing = false ∧
      (engine.config.maxPositionSize < |args.after| / args.totalCapital ∨
        args.TooManyOpen engine.config) := by
  have hgates : (∃ gate ∈ engine.gates args, gate.1 = true ∧ gate.2.event = .maxPositionSize) ↔
      engine.config.maxPositionSize < |args.after| / args.totalCapital ∨
        args.TooManyOpen engine.config := by
    simp only [gates, List.exists_mem_cons_iff, List.not_mem_nil, false_and, exists_false, or_false,
      and_true, and_false, reduceCtorEq, false_or, decide_eq_true_eq, gt_iff_lt, ge_iff_le,
      TradeArguments.TooManyOpen]
  rw [← hgates]
  unfold checkTrade
  cases hvalid : args.valid with
  | false => simp
  | true =>
    cases hreducing : args.reducing with
    | true => simp [rejections, hreducing]
    | false => simp [rejections, hreducing]

theorem before_eq_zero
    (h : some args.symbol ∉ args.currentPositions.values.map RiskPosition.symbol) :
    args.before = 0 := by
  have hnone : (args.currentPositions.values.filter
      fun p => decide (p.symbol = some args.symbol)) = [] := by
    refine List.filter_eq_nil_iff.mpr fun position hposition => ?_
    rw [decide_eq_true_eq]
    exact fun hown => h (List.mem_map.mpr ⟨position, hposition, hown⟩)
  rw [TradeArguments.before, hnone]
  rfl

/-- A trade in a symbol that is not held increases the exposure. -/
theorem increases_of_not_held (hvalid : args.valid = true)
    (h : some args.symbol ∉ args.currentPositions.values.map RiskPosition.symbol) :
    args.reducing = false := by
  simp only [TradeArguments.valid, Bool.and_eq_true, decide_eq_true_eq] at hvalid
  have hworth : 0 < args.orderValue := mul_pos hvalid.1.1.2 hvalid.1.2
  have hafter : |args.after| = args.orderValue := by
    rw [TradeArguments.after, before_eq_zero h, zero_add]
    split
    · exact abs_of_pos hworth
    · rw [abs_neg, abs_of_pos hworth]
  rw [TradeArguments.reducing, decide_eq_false_iff_not, TradeArguments.exposureIncrease, hafter,
    before_eq_zero h, abs_zero, sub_zero, max_eq_left hworth.le]
  exact hworth.ne'

theorem adjusted_lt (hprice : 0 < args.price) (hcapital : 0 < args.totalCapital)
    (hworth : 0 < args.orderValue)
    (hshare : engine.config.maxPositionSize < |args.after| / args.totalCapital) :
    max (args.totalCapital * engine.config.maxPositionSize - |args.before|) 0 / args.price <
      args.quantity := by
  have hafter := args.abs_after_le_add hworth
  rw [lt_div_iff₀ hcapital] at hshare
  rw [div_lt_iff₀ hprice]
  show _ < args.orderValue
  exact max_lt (by linarith) hworth

/-- At the rest of the limit the share of the capital is within it. -/
theorem share_resubmitted_le (h : args.Resubmits quantity again) (hprice : 0 < args.price)
    (hcapital : 0 < args.totalCapital)
    (hleft : 0 < max (args.totalCapital * engine.config.maxPositionSize - |args.before|) 0)
    (hquantity : max (args.totalCapital * engine.config.maxPositionSize - |args.before|) 0 /
      args.price = quantity) :
    |again.after| / again.totalCapital ≤ engine.config.maxPositionSize := by
  have hbefore : again.before = args.before := by
    rw [TradeArguments.before, h.currentPositions, h.symbol]
    rfl
  have hworth : again.orderValue =
      args.totalCapital * engine.config.maxPositionSize - |args.before| := by
    rw [TradeArguments.orderValue, h.quantity, h.price, ← hquantity, div_mul_cancel₀ _ hprice.ne',
      max_eq_left ((lt_max_iff.mp hleft).resolve_right (lt_irrefl 0)).le]
  have hpositive : 0 < again.orderValue := by
    rw [hworth]
    exact (lt_max_iff.mp hleft).resolve_right (lt_irrefl 0)
  have hafter := again.abs_after_le_add hpositive
  rw [hbefore] at hafter
  rw [h.totalCapital, div_le_iff₀ hcapital]
  linarith

/-- A purchase of twice the position limit. -/
def largePurchase : TradeArguments where
  symbol := "BTCUSDT"
  side := "buy"
  quantity := 1
  price := 1000
  currentBalance := 5000
  currentPositions := .empty
  totalCapital := 5000
  now := 0

/-- A purchase of a tenth of a unit in a sixth symbol. -/
def sixthPurchase : TradeArguments where
  symbol := "BTCUSDT"
  side := "buy"
  quantity := 1 / 10
  price := 1000
  currentBalance := 5000
  currentPositions := ["1", "2", "3", "4", "5"].foldl
    (fun positions symbol => positions.set symbol { symbol := some symbol, value := 100 }) .empty
  totalCapital := 5000
  now := 0

end RiskEngine

end CryptoTrading
