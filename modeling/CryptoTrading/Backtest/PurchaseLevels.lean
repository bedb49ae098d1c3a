import CryptoTrading.Backtest.AuditTrail
import CryptoTrading.Backtest.PortfolioConservation

/-! The levels that the purchases of each position were signalled with, read off the orders and the fills
of a backtest. -/

namespace CryptoTrading

open Kit

/-- The "dca_level" of the signal that led to a fill. -/
def levelOf (orders : List Order) (fill : Fill) : Option ℤ :=
  (orders.find? fun order => decide (order.orderId = fill.orderId)).bind fun order =>
    order.signal.metadata.dcaLevel

/-- The levels of the purchases, by position: of those that are over, and of the one that is open. -/
structure PurchaseLevels where
  ended : List (List (Option ℤ)) := []
  current : List (Option ℤ) := []
  deriving DecidableEq

/-- A purchase belongs to the open position, and a sale ends it. -/
def PurchaseLevels.add (levels : PurchaseLevels) (level : Option ℤ) : OrderSide → PurchaseLevels
  | .buy => { levels with current := levels.current ++ [level] }
  | .sell => ⟨levels.ended ++ [levels.current], []⟩

def purchaseLevels (orders : List Order) (fills : List Fill) : PurchaseLevels :=
  fills.foldl (fun levels fill => levels.add (levelOf orders fill) fill.side) {}

namespace BacktestEngine

variable {engine assessed after : BacktestEngine} {clock : ℕ → Datetime} {call : OrderCall}
  {order : Order} {quote : Quote} {fill : Option Fill}

def levels (engine : BacktestEngine) : PurchaseLevels := purchaseLevels engine.orders engine.fills

theorem levelOf_append (h : engine.Logged) {fill : Fill} (hfill : fill ∈ engine.fills)
    (more : List Order) :
    levelOf (engine.orders ++ more) fill = levelOf engine.orders fill := by
  obtain ⟨order, horder, hid⟩ := h.order_of_fill hfill
  have hfound : (engine.orders.find? fun order => decide (order.orderId = fill.orderId)).isSome :=
    List.find?_isSome.mpr ⟨order, horder, decide_eq_true hid⟩
  rw [levelOf, List.find?_append, Option.or_of_isSome hfound, levelOf]

theorem levels_append (h : engine.Logged) (more : List Order) :
    purchaseLevels (engine.orders ++ more) engine.fills = engine.levels := by
  unfold BacktestEngine.levels purchaseLevels
  refine List.foldl_ext _ _ _ fun levels fill hfill => ?_
  rw [levelOf_append h hfill]

/-- A fill of a new order has the level of the order's signal. -/
theorem levelOf_fillOf (h : engine.Logged)
    (hassessed : Assessed engine clock call order quote assessed) :
    levelOf (engine.orders ++ [order]) (assessed.fillOf order quote) =
      call.signal.metadata.dcaLevel := by
  have hfresh : order.orderId ∉ engine.orders.map Order.orderId := by
    obtain ⟨orders, fills, horders, -, -, -, hle⟩ := h.numbered
    rw [horders, hassessed.orderId]
    intro hmem
    obtain ⟨n, hn, hid⟩ := List.mem_map.mp hmem
    have hlast := hle n (List.mem_append_left _ hn)
    have hnext := backtestId_injective "order" hid
    omega
  have hnone : (engine.orders.find? fun other =>
      decide (other.orderId = (assessed.fillOf order quote).orderId)) = none := by
    refine List.find?_eq_none.mpr fun other hother hid => hfresh ?_
    have hown : other.orderId = order.orderId := of_decide_eq_true hid
    exact hown ▸ List.mem_map_of_mem hother
  rw [levelOf, List.find?_append, hnone, Option.none_or, ← hassessed.signal]
  simp [fillOf]

/-- An order adds its fill to the levels, if it has one. -/
theorem Outcome.levels (h : engine.Logged) (houtcome : Outcome engine clock call fill after) :
    after.levels = fill.elim engine.levels fun fill =>
      engine.levels.add call.signal.metadata.dcaLevel fill.side := by
  have hnew : ∀ {order : Order} {quote : Quote} {assessed : BacktestEngine} (portfolio : Portfolio),
      Assessed engine clock call order quote assessed →
      ((assessed.decided (riskDecision order quote)).filled order quote portfolio).levels =
        engine.levels.add call.signal.metadata.dcaLevel order.side := by
    intro order quote assessed portfolio hassessed
    show purchaseLevels assessed.orders (assessed.fills ++ [assessed.fillOf order quote]) = _
    rw [hassessed.orders, hassessed.fills, purchaseLevels, List.foldl_append]
    change (purchaseLevels (engine.orders ++ [order]) engine.fills).add _ _ = _
    rw [levels_append h, levelOf_fillOf h hassessed]
    rfl
  have hunfilled : ∀ {order : Order} {quote : Quote} {assessed : BacktestEngine},
      Assessed engine clock call order quote assessed →
      (assessed.decided (riskDecision order quote)).levels = engine.levels := by
    intro order quote assessed hassessed
    show purchaseLevels assessed.orders assessed.fills = _
    rw [hassessed.orders, hassessed.fills, levels_append h]
  cases houtcome with
  | noPosition _ _ => rfl
  | rejected hassessed _ => exact hunfilled hassessed
  | refused hassessed _ _ _ => exact hunfilled hassessed
  | bought hassessed _ _ _ => exact hnew _ hassessed
  | sold hassessed _ _ _ => exact hnew _ hassessed

/-- An order creates no order but its own. -/
theorem Outcome.orders (houtcome : Outcome engine clock call fill after) {order : Order}
    (horder : order ∈ after.orders) : order ∈ engine.orders ∨ order.signal = call.signal := by
  have hnew : ∀ {created : Order} {quote : Quote} {assessed : BacktestEngine},
      Assessed engine clock call created quote assessed → order ∈ assessed.orders →
        order ∈ engine.orders ∨ order.signal = call.signal := by
    intro created quote assessed hassessed hmem
    rw [hassessed.orders, List.mem_append, List.mem_singleton] at hmem
    rcases hmem with hmem | rfl
    · exact Or.inl hmem
    · exact Or.inr hassessed.signal
  cases houtcome with
  | noPosition _ _ => exact Or.inl horder
  | rejected hassessed _ => exact hnew hassessed horder
  | refused hassessed _ _ _ => exact hnew hassessed horder
  | bought hassessed _ _ _ => exact hnew hassessed horder
  | sold hassessed _ _ _ => exact hnew hassessed horder

theorem Outcome.holds (h : engine.portfolio.Holds) (houtcome : Outcome engine clock call fill after) :
    after.portfolio.Holds := by
  cases houtcome with
  | noPosition _ _ => exact h
  | rejected hassessed _ => exact hassessed.portfolio ▸ h
  | refused hassessed _ _ _ => exact hassessed.portfolio ▸ h
  | bought hassessed happroved _ haffords =>
    have hpositive := assess_pos hassessed.assess happroved
    exact h.purchased hpositive.2.1 haffords.quantity_pos
  | sold _ _ _ _ => exact h.sold _ _ _ _ _

theorem Outcome.fills (houtcome : Outcome engine clock call fill after) :
    after.fills = engine.fills ++ fill.toList := by
  cases houtcome with
  | noPosition _ _ => exact (List.append_nil _).symm
  | rejected hassessed _ => exact hassessed.fills.trans (List.append_nil _).symm
  | refused hassessed _ _ _ => exact hassessed.fills.trans (List.append_nil _).symm
  | bought hassessed _ _ _ => exact congrArg (· ++ _) hassessed.fills
  | sold hassessed _ _ _ => exact congrArg (· ++ _) hassessed.fills

end BacktestEngine

theorem EngineStep.holds {clock : ℕ → Datetime} {engine after : BacktestEngine}
    {event : EngineEvent} (h : engine.portfolio.Holds)
    (hstep : EngineStep clock engine event after) : after.portfolio.Holds := by
  obtain ⟨fill, happly⟩ := hstep
  cases event with
  | signal index signal => cases happly; exact h
  | mark symbol close high timestamp => cases happly; exact h.updatePositions _ _ _
  | drawdown drawdown => cases happly; exact h
  | order call => exact (BacktestEngine.createAndExecuteOrder_outcome happly).holds h

end CryptoTrading
