import Mathlib.Tactic.FieldSimp
import Mathlib.Tactic.Ring

/-! Average-cost accounting: a holding is a quantity at an average price, a purchase re-averages it,
and a sale realizes the difference between its price and the average. -/

namespace CryptoTrading.Kit

variable {K : Type*} [Field K]

/-- A quantity held at an average price. -/
structure Holding (K : Type*) where
  quantity : K
  average : K

namespace Holding

/-- What the holding has cost. -/
def cost (holding : Holding K) : K := holding.quantity * holding.average

/-- The holding after a purchase of `quantity` at `price`. -/
def buy (holding : Holding K) (quantity price : K) : Holding K :=
  ⟨holding.quantity + quantity,
    (holding.average * holding.quantity + price * quantity) / (holding.quantity + quantity)⟩

/-- The holding after a sale of `quantity`. -/
def sell (holding : Holding K) (quantity : K) : Holding K :=
  ⟨holding.quantity - quantity, holding.average⟩

/-- What a sale of `quantity` at `price` realizes. -/
def realized (holding : Holding K) (quantity price : K) : K := quantity * (price - holding.average)

/-- A purchase adds what is paid to the cost. -/
theorem cost_buy (holding : Holding K) {quantity : K} (price : K)
    (h : holding.quantity + quantity ≠ 0) :
    (holding.buy quantity price).cost = holding.cost + price * quantity := by
  simp only [cost, buy]
  field_simp

/-- The average is the cost of one unit. -/
theorem average_eq {holding : Holding K} (h : holding.quantity ≠ 0) :
    holding.average = holding.cost / holding.quantity := by
  simp only [cost]
  field_simp

/-- A purchase by someone who holds nothing is at its own price. -/
theorem average_buy_of_empty {holding : Holding K} {quantity : K} (price : K)
    (h : holding.quantity = 0) (hquantity : quantity ≠ 0) :
    (holding.buy quantity price).average = price := by
  simp only [buy, h, mul_zero, zero_add]
  field_simp

/-! ### Books that agree

An empty holding has no average of its own: what a book keeps for it does not matter. -/

/-- The same quantity is held, at the same average where something is held. -/
structure Same (holding other : Holding K) : Prop where
  quantity : holding.quantity = other.quantity
  average : holding.quantity ≠ 0 → holding.average = other.average

theorem Same.refl (holding : Holding K) : holding.Same holding := ⟨rfl, fun _ => rfl⟩

theorem Same.symm {holding other : Holding K} (h : holding.Same other) : other.Same holding :=
  ⟨h.quantity.symm, fun hne => (h.average (h.quantity ▸ hne)).symm⟩

theorem Same.trans {first second third : Holding K} (h : first.Same second)
    (h' : second.Same third) : first.Same third :=
  ⟨h.quantity.trans h'.quantity, fun hne => (h.average hne).trans (h'.average (h.quantity ▸ hne))⟩

/-- Agreeing books cost the same. -/
theorem Same.cost {holding other : Holding K} (h : holding.Same other) :
    holding.cost = other.cost := by
  by_cases hzero : holding.quantity = 0
  · simp only [Holding.cost, ← h.quantity, hzero, zero_mul]
  · simp only [Holding.cost, ← h.quantity, h.average hzero]

/-- Books that hold the same at the same cost agree. -/
theorem Same.of_cost {holding other : Holding K} (hquantity : holding.quantity = other.quantity)
    (hcost : holding.cost = other.cost) : holding.Same other := by
  refine ⟨hquantity, fun hne => ?_⟩
  rw [average_eq hne, average_eq (hquantity ▸ hne), hcost, hquantity]

theorem Same.buy {holding other : Holding K} (h : holding.Same other) {quantity : K} (price : K)
    (hne : holding.quantity + quantity ≠ 0) :
    (holding.buy quantity price).Same (other.buy quantity price) := by
  refine .of_cost (congrArg (· + quantity) h.quantity) ?_
  rw [cost_buy _ _ hne, cost_buy _ _ (h.quantity ▸ hne), h.cost]

theorem Same.sell {holding other : Holding K} (h : holding.Same other) (quantity : K)
    (hne : holding.quantity ≠ 0) : (holding.sell quantity).Same (other.sell quantity) :=
  ⟨congrArg (· - quantity) h.quantity, fun _ => h.average hne⟩

theorem Same.realized {holding other : Holding K} (h : holding.Same other) (quantity price : K)
    (hne : holding.quantity ≠ 0) : holding.realized quantity price = other.realized quantity price := by
  simp only [Holding.realized, h.average hne]

end Holding

end CryptoTrading.Kit
