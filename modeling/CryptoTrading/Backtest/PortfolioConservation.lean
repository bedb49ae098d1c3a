import CryptoTrading.Backtest.Portfolio
import CryptoTrading.Kit.AverageCost
import Mathlib.Algebra.Order.BigOperators.Group.List
import Mathlib.Tactic.Linarith

/-! Conservation of the virtual portfolio: its cash and the cost of its positions are the initial
balance and what was realized, and its equity is that marked to the market, unless a price of zero
stands in for a missing one. -/

namespace CryptoTrading

open Kit

/-- The quantity of a position at its average entry price. -/
def Position.holding (position : Position) : Holding Decimal :=
  ⟨position.quantity, position.entryPrice⟩

/-- What a position has cost, with its entry commissions. -/
def Position.bookCost (position : Position) : Decimal :=
  position.entryPrice * position.quantity + position.entryCommission

/-- A position of a positive quantity at a positive average price, which is marked at a price. -/
structure Position.Held (position : Position) : Prop where
  quantity_pos : 0 < position.quantity
  entryPrice_pos : 0 < position.entryPrice
  marked : ∃ mark, position.currentPrice = some mark ∧
    position.unrealizedPnl = (mark - position.entryPrice) * position.quantity

inductive PortfolioOperation
  | openPosition (opening : Portfolio.Opening)
  | closePosition (symbol : String) (price : Decimal) (timestamp : Datetime) (commission : Decimal)
  | updatePositions (prices : Dict String Decimal) (timestamp : Datetime)
      (highs : Dict String Decimal)

namespace Portfolio

/-- The portfolio after an operation. -/
def apply (portfolio : Portfolio) : PortfolioOperation → Portfolio
  | .openPosition opening => (portfolio.openPosition opening).2
  | .closePosition symbol price timestamp commission =>
    (portfolio.closePosition symbol price timestamp commission).2
  | .updatePositions prices timestamp highs => portfolio.updatePositions prices timestamp highs

def applyAll (portfolio : Portfolio) (operations : List PortfolioOperation) : Portfolio :=
  operations.foldl apply portfolio

/-- `balance + sum(entry_price * quantity + entry_commission) = initial_balance + realized_pnl`. -/
def CashLaw (portfolio : Portfolio) : Prop :=
  portfolio.balance + (portfolio.positions.values.map Position.bookCost).sum =
    portfolio.initialBalance + portfolio.realizedPnl

/-- `total_equity = initial_balance + realized_pnl + unrealized_pnl - sum(entry_commission)`. -/
def EquityLaw (portfolio : Portfolio) : Prop :=
  portfolio.totalEquity = portfolio.initialBalance + portfolio.realizedPnl +
    portfolio.unrealizedPnl - (portfolio.positions.values.map Position.entryCommission).sum

/-- The operation marks a position at a price of zero. -/
def MarksAtZero (portfolio : Portfolio) : PortfolioOperation → Prop
  | .updatePositions prices _ _ =>
    ∃ symbol ∈ portfolio.positions.keys, prices.get? symbol = some 0
  | _ => False

/-! ### The cash law -/

theorem sum_values_set (f : Position → Decimal) (positions : Dict String Position)
    (symbol : String) (position : Position) :
    ((positions.set symbol position).values.map f).sum = (positions.values.map f).sum +
      f position - (positions.get? symbol).elim 0 f := by
  simpa [Dict.values, Function.comp_def] using
    Dict.sum_set (fun entry => f entry.2) positions symbol position

theorem sum_values_erase (f : Position → Decimal) (positions : Dict String Position)
    (symbol : String) : ((positions.erase symbol).values.map f).sum =
      (positions.values.map f).sum - (positions.get? symbol).elim 0 f := by
  simpa [Dict.values, Function.comp_def] using
    Dict.sum_erase (fun entry => f entry.2) positions symbol

theorem Opening.holding_addTo (opening : Opening) (position : Position) :
    (opening.addTo position).holding = position.holding.buy opening.quantity opening.price := rfl

/-- A purchase adds its cost to what the position has cost. -/
theorem Opening.bookCost_addTo {opening : Opening} {position : Position} (hheld : position.Held)
    (hquantity : 0 < opening.quantity) :
    (opening.addTo position).bookCost = position.bookCost + opening.cost := by
  have hcost := Holding.cost_buy position.holding opening.price
    (add_pos hheld.quantity_pos hquantity).ne'
  rw [← opening.holding_addTo] at hcost
  have hcommission : (opening.addTo position).entryCommission =
      position.entryCommission + opening.commission := rfl
  simp only [Holding.cost, Position.holding] at hcost
  simp only [Position.bookCost, Opening.cost, hcommission]
  linarith

variable {portfolio : Portfolio}

/-- The positions of a portfolio are held. -/
def Holds (portfolio : Portfolio) : Prop :=
  ∀ symbol position, portfolio.positions.get? symbol = some position → position.Held

theorem CashLaw.purchased (h : portfolio.CashLaw) (hholds : portfolio.Holds) {opening : Opening}
    (hquantity : 0 < opening.quantity) : (portfolio.purchased opening).CashLaw := by
  rw [CashLaw, realizedPnl_purchased]
  simp only [Portfolio.purchased, sum_values_set]
  unfold CashLaw at h
  cases hold : portfolio.positions.get? opening.symbol with
  | none =>
    have hnew : opening.position.bookCost = opening.cost := rfl
    simp only [Option.elim_none, hnew]
    linarith
  | some position =>
    simp only [Option.elim_some, Opening.bookCost_addTo (hholds _ _ hold) hquantity]
    linarith

theorem CashLaw.sold (h : portfolio.CashLaw) {symbol : String} {position : Position}
    (hheld : portfolio.positions.get? symbol = some position) (price commission : Decimal)
    (timestamp : Datetime) :
    (portfolio.sold symbol position price commission timestamp).CashLaw := by
  rw [CashLaw, realizedPnl_sold]
  simp only [Portfolio.sold, sum_values_erase, hheld, Option.elim_some, Position.bookCost, closingPnl]
  unfold CashLaw at h
  linarith

theorem marked_values_map (f : Position → Decimal)
    (hf : ∀ position price high, f (Position.updateMarket position price high) = f position)
    (positions : Dict String Position) (prices highs : Dict String Decimal) :
    (marked positions prices highs).values.map f = positions.values.map f := by
  simp only [marked, Dict.mapValues, Dict.values, List.map_map]
  refine List.map_congr_left fun entry _ => ?_
  simp only [Function.comp_apply]
  cases prices.get? entry.1 with
  | none => rfl
  | some price => exact hf _ _ _

theorem CashLaw.updatePositions (h : portfolio.CashLaw) (prices : Dict String Decimal)
    (timestamp : Datetime) (highs : Dict String Decimal) :
    (portfolio.updatePositions prices timestamp highs).CashLaw := by
  rw [CashLaw, realizedPnl_updatePositions]
  simp only [Portfolio.updatePositions, marked_values_map Position.bookCost fun _ _ _ => rfl]
  exact h

/-! ### The positions are held -/

theorem Opening.held_position {opening : Opening} (hprice : 0 < opening.price)
    (hquantity : 0 < opening.quantity) : opening.position.Held :=
  ⟨hquantity, hprice, opening.price, rfl, by simp [Opening.position]⟩

theorem Opening.held_addTo {opening : Opening} {position : Position} (hheld : position.Held)
    (hprice : 0 < opening.price) (hquantity : 0 < opening.quantity) :
    (opening.addTo position).Held where
  quantity_pos := add_pos hheld.quantity_pos hquantity
  entryPrice_pos := div_pos
    (add_pos (mul_pos hheld.entryPrice_pos hheld.quantity_pos) (mul_pos hprice hquantity))
    (add_pos hheld.quantity_pos hquantity)
  marked := ⟨opening.price, rfl, rfl⟩

theorem Holds.purchased (h : portfolio.Holds) {opening : Opening} (hprice : 0 < opening.price)
    (hquantity : 0 < opening.quantity) : (portfolio.purchased opening).Holds := by
  intro symbol position hposition
  simp only [Portfolio.purchased, Dict.get?_set] at hposition
  split at hposition
  · cases hold : portfolio.positions.get? opening.symbol with
    | none =>
      rw [hold] at hposition
      exact Option.some.inj hposition ▸ Opening.held_position hprice hquantity
    | some old =>
      rw [hold] at hposition
      exact Option.some.inj hposition ▸ Opening.held_addTo (h _ _ hold) hprice hquantity
  · exact h symbol position hposition

theorem Holds.sold (h : portfolio.Holds) (symbol : String) (position : Position)
    (price commission : Decimal) (timestamp : Datetime) :
    (portfolio.sold symbol position price commission timestamp).Holds := by
  intro other held hheld
  simp only [Portfolio.sold, Dict.get?_erase] at hheld
  split at hheld
  · cases hheld
  · exact h other held hheld

theorem Holds.updatePositions (h : portfolio.Holds) (prices : Dict String Decimal)
    (timestamp : Datetime) (highs : Dict String Decimal) :
    (portfolio.updatePositions prices timestamp highs).Holds := by
  intro symbol position hposition
  simp only [Portfolio.updatePositions, get?_marked, Option.map_eq_some_iff] at hposition
  obtain ⟨old, hold, rfl⟩ := hposition
  have hheld := h symbol old hold
  cases prices.get? symbol with
  | none => exact hheld
  | some price => exact ⟨hheld.quantity_pos, hheld.entryPrice_pos, price, rfl, rfl⟩

/-! ### The equity law -/

/-- How far the value of a position is off its cost and its unrealized result. -/
def excess (position : Position) : Decimal :=
  position.positionValue - (position.entryPrice * position.quantity + position.unrealizedPnl)

/-- A held position is valued off its mark exactly when the mark is zero. -/
theorem excess_nonneg {position : Position} (h : position.Held) : 0 ≤ excess position ∧
    (excess position = 0 ↔ position.currentPrice ≠ some 0) := by
  obtain ⟨mark, hmark, hunrealized⟩ := h.marked
  have hcost := mul_pos h.entryPrice_pos h.quantity_pos
  simp only [excess, Position.positionValue, truthyOr, hmark, hunrealized]
  by_cases hzero : mark = 0
  · subst hzero
    simp [hcost.le, h.entryPrice_pos.ne', h.quantity_pos.ne']
  · have hnone : mark * position.quantity - (position.entryPrice * position.quantity +
        (mark - position.entryPrice) * position.quantity) = 0 := by ring
    simp [hzero, hnone]

theorem sum_values_excess (positions : Dict String Position) :
    (positions.values.map excess).sum = (positions.values.map Position.positionValue).sum -
      ((positions.values.map Position.bookCost).sum -
        (positions.values.map Position.entryCommission).sum +
        (positions.values.map Position.unrealizedPnl).sum) := by
  induction positions.values with
  | nil => simp
  | cons position rest ih =>
    simp only [List.map_cons, List.sum_cons, ih, excess, Position.bookCost]
    ring

/-- Under the cash law the equity law holds when no position is marked at zero. -/
theorem CashLaw.equityLaw_iff (h : portfolio.CashLaw) (hholds : portfolio.Holds) :
    portfolio.EquityLaw ↔ ∀ symbol position,
      portfolio.positions.get? symbol = some position → position.currentPrice ≠ some 0 := by
  have hall : ∀ position ∈ portfolio.positions.values, position.Held := fun position hmem => by
    obtain ⟨symbol, hget⟩ := Dict.mem_values_iff.mp hmem
    exact hholds symbol position hget
  have hsum : portfolio.EquityLaw ↔ (portfolio.positions.values.map excess).sum = 0 := by
    rw [sum_values_excess, EquityLaw, totalEquity, unrealizedPnl]
    unfold CashLaw at h
    constructor
    · intro hequity; linarith
    · intro hexcess; linarith
  rw [hsum]
  constructor
  · intro hzero symbol position hget
    have hmem : position ∈ portfolio.positions.values := Dict.mem_values_iff.mpr ⟨symbol, hget⟩
    have hnonneg : ∀ x ∈ portfolio.positions.values.map excess, 0 ≤ x := by
      intro x hx
      obtain ⟨other, hother, rfl⟩ := List.mem_map.mp hx
      exact (excess_nonneg (hall other hother)).1
    exact (excess_nonneg (hall position hmem)).2.mp
      (List.all_zero_of_le_zero_le_of_sum_eq_zero hnonneg hzero (List.mem_map_of_mem hmem))
  · intro hmarks
    refine List.sum_eq_zero fun x hx => ?_
    obtain ⟨position, hmem, rfl⟩ := List.mem_map.mp hx
    obtain ⟨symbol, hget⟩ := Dict.mem_values_iff.mp hmem
    exact (excess_nonneg (hall position hmem)).2.mpr (hmarks symbol position hget)

/-! ### Runs of operations -/

/-- The cash law, and positions that are held and not marked at zero. -/
structure Conserves (portfolio : Portfolio) : Prop where
  cashLaw : portfolio.CashLaw
  holds : portfolio.Holds

/-- The prices of the purchases are positive. -/
def PricedOpenings (operations : List PortfolioOperation) : Prop :=
  ∀ opening, .openPosition opening ∈ operations → 0 < opening.price

theorem Conserves.new (initialBalance : Decimal) : (Portfolio.new initialBalance).Conserves :=
  ⟨by simp [CashLaw, Portfolio.new, realizedPnl, Dict.values, Dict.empty], fun _ _ h => by cases h⟩

theorem Conserves.apply (h : portfolio.Conserves) {operation : PortfolioOperation}
    (hpriced : PricedOpenings [operation]) : (portfolio.apply operation).Conserves := by
  cases operation with
  | openPosition opening =>
    have hprice := hpriced opening (List.mem_singleton_self _)
    rw [Portfolio.apply]
    by_cases haffords : portfolio.Affords opening
    · rw [openPosition_of_affords haffords]
      exact ⟨h.cashLaw.purchased h.holds haffords.quantity_pos,
        h.holds.purchased hprice haffords.quantity_pos⟩
    · rw [openPosition_of_not_affords haffords]
      exact h
  | closePosition symbol price timestamp commission =>
    rw [Portfolio.apply, Portfolio.closePosition]
    cases hheld : portfolio.positions.get? symbol with
    | none => exact h
    | some position =>
      exact ⟨h.cashLaw.sold hheld price commission timestamp, h.holds.sold symbol _ _ _ _⟩
  | updatePositions prices timestamp highs =>
    exact ⟨h.cashLaw.updatePositions prices timestamp highs,
      h.holds.updatePositions prices timestamp highs⟩

theorem Conserves.applyAll (h : portfolio.Conserves) {operations : List PortfolioOperation}
    (hpriced : PricedOpenings operations) : (portfolio.applyAll operations).Conserves := by
  induction operations generalizing portfolio with
  | nil => exact h
  | cons operation rest ih =>
    refine ih (h.apply fun opening hmem => hpriced opening ?_) fun opening hmem =>
      hpriced opening (List.mem_cons_of_mem _ hmem)
    rw [List.mem_singleton.mp hmem]
    exact List.mem_cons_self

/-- A position marked at zero. -/
def Unmarked (portfolio : Portfolio) : Prop :=
  ∃ symbol position, portfolio.positions.get? symbol = some position ∧
    position.currentPrice = some 0

/-- An operation leaves a position marked at zero when it marks one so, or when it does not touch
one that was. -/
theorem Unmarked.of_apply {operation : PortfolioOperation} (hpriced : PricedOpenings [operation])
    (h : (portfolio.apply operation).Unmarked) :
    portfolio.MarksAtZero operation ∨ portfolio.Unmarked := by
  obtain ⟨symbol, position, hget, hzero⟩ := h
  cases operation with
  | openPosition opening =>
    have hprice := hpriced opening (List.mem_singleton_self _)
    right
    rw [Portfolio.apply] at hget
    by_cases haffords : portfolio.Affords opening
    · rw [openPosition_of_affords haffords] at hget
      simp only [Portfolio.purchased, Dict.get?_set] at hget
      split at hget
      · have hmarked : position.currentPrice = some opening.price := by
          cases hold : portfolio.positions.get? opening.symbol <;> rw [hold] at hget <;>
            exact Option.some.inj hget ▸ rfl
        rw [hmarked] at hzero
        exact absurd (Option.some.inj hzero) hprice.ne'
      · exact ⟨symbol, position, hget, hzero⟩
    · rw [openPosition_of_not_affords haffords] at hget
      exact ⟨symbol, position, hget, hzero⟩
  | closePosition closed price timestamp commission =>
    right
    rw [Portfolio.apply, Portfolio.closePosition] at hget
    cases hheld : portfolio.positions.get? closed with
    | none =>
      rw [hheld] at hget
      exact ⟨symbol, position, hget, hzero⟩
    | some old =>
      rw [hheld] at hget
      simp only [Portfolio.sold, Dict.get?_erase] at hget
      split at hget
      · cases hget
      · exact ⟨symbol, position, hget, hzero⟩
  | updatePositions prices timestamp highs =>
    simp only [Portfolio.apply, Portfolio.updatePositions, get?_marked,
      Option.map_eq_some_iff] at hget
    obtain ⟨old, hold, rfl⟩ := hget
    cases hprice : prices.get? symbol with
    | none =>
      rw [hprice] at hzero
      exact Or.inr ⟨symbol, old, hold, hzero⟩
    | some price =>
      rw [hprice] at hzero
      refine Or.inl ⟨symbol, Dict.isSome_get?_iff.mp (by rw [hold]; rfl), ?_⟩
      rw [hprice]
      exact hzero

/-- What an operation marks at zero is marked at zero. -/
theorem MarksAtZero.unmarked {operation : PortfolioOperation}
    (h : portfolio.MarksAtZero operation) : (portfolio.apply operation).Unmarked := by
  cases operation with
  | openPosition opening => exact h.elim
  | closePosition symbol price timestamp commission => exact h.elim
  | updatePositions prices timestamp highs =>
    obtain ⟨symbol, hmem, hprice⟩ := h
    obtain ⟨position, hget⟩ := Option.isSome_iff_exists.mp (Dict.isSome_get?_iff.mpr hmem)
    refine ⟨symbol, position.updateMarket 0 (highs.get? symbol), ?_, rfl⟩
    simp only [Portfolio.apply, Portfolio.updatePositions, get?_marked, hget, hprice,
      Option.map_some]

theorem applyAll_append (portfolio : Portfolio) (before after : List PortfolioOperation) :
    portfolio.applyAll (before ++ after) = (portfolio.applyAll before).applyAll after :=
  List.foldl_append

/-- Without a mark at zero no position comes to be marked at zero. -/
theorem not_unmarked_applyAll (portfolio : Portfolio) (hstart : ¬portfolio.Unmarked)
    {operations : List PortfolioOperation} (hpriced : PricedOpenings operations)
    (h : ∀ before operation after, operations = before ++ operation :: after →
      ¬(portfolio.applyAll before).MarksAtZero operation) :
    ¬(portfolio.applyAll operations).Unmarked := by
  induction operations using List.reverseRecOn with
  | nil => exact hstart
  | append_singleton before operation ih =>
    intro hunmarked
    rw [applyAll_append] at hunmarked
    have hlast : PricedOpenings [operation] := fun opening hmem =>
      hpriced opening (List.mem_append_right _ hmem)
    rcases Unmarked.of_apply hlast hunmarked with hmarks | hbefore
    · exact h before operation [] rfl hmarks
    · refine ih (fun opening hmem => hpriced opening (List.mem_append_left _ hmem)) ?_ hbefore
      intro first other rest hsplit
      exact h first other (rest ++ [operation]) (by simp [hsplit])

/-- Of a run of operations on a new portfolio: the cash law holds all along, and the equity law does
exactly when no position that is held is ever marked at a price of zero. -/
theorem conservation_iff (initialBalance : Decimal) (operations : List PortfolioOperation)
    (hpriced : PricedOpenings operations) :
    (∀ passed, passed <+: operations →
        ((Portfolio.new initialBalance).applyAll passed).CashLaw ∧
          ((Portfolio.new initialBalance).applyAll passed).EquityLaw) ↔
      ∀ before operation after, operations = before ++ operation :: after →
        ¬((Portfolio.new initialBalance).applyAll before).MarksAtZero operation := by
  have hconserves : ∀ passed, passed <+: operations →
      ((Portfolio.new initialBalance).applyAll passed).Conserves := fun passed hpassed =>
    (Conserves.new initialBalance).applyAll fun opening hmem =>
      hpriced opening (hpassed.subset hmem)
  constructor
  · intro hlaws before operation after hsplit hmarks
    have hpassed : before ++ [operation] <+: operations := ⟨after, by simp [hsplit]⟩
    obtain ⟨symbol, position, hget, hzero⟩ := hmarks.unmarked
    have happly : (Portfolio.new initialBalance).applyAll (before ++ [operation]) =
        ((Portfolio.new initialBalance).applyAll before).apply operation := applyAll_append _ _ _
    rw [← happly] at hget
    have hmarked := ((hconserves _ hpassed).cashLaw.equityLaw_iff (hconserves _ hpassed).holds).mp
      (hlaws _ hpassed).2
    exact hmarked symbol position hget hzero
  · intro hmarks passed hpassed
    have hown := hconserves passed hpassed
    refine ⟨hown.cashLaw, (hown.cashLaw.equityLaw_iff hown.holds).mpr ?_⟩
    intro symbol position hget hzero
    refine not_unmarked_applyAll (.new initialBalance) ?_ ?_ ?_
      ⟨symbol, position, hget, hzero⟩
    · rintro ⟨_, _, hnone, -⟩
      cases hnone
    · exact fun opening hmem => hpriced opening (hpassed.subset hmem)
    · obtain ⟨later, rfl⟩ := hpassed
      intro before operation after hsplit
      exact hmarks before operation (after ++ later) (by simp [hsplit])

/-- One unit bought at 100, and marked at zero. -/
def worthless : List PortfolioOperation :=
  [.openPosition { symbol := "BTCUSDT", side := "long", price := 100, quantity := 1, timestamp := 0 },
    .updatePositions (Dict.empty.set "BTCUSDT" 0) hour .empty]

theorem worthless_priced : PricedOpenings worthless := by
  intro opening hmem
  simp only [worthless, List.mem_cons, PortfolioOperation.openPosition.injEq, reduceCtorEq,
    List.not_mem_nil, or_false] at hmem
  rw [hmem]
  decide +kernel

/-- The equity still values the position at its entry price. -/
theorem worthless_breaks_equityLaw : ¬∀ (initialBalance : Decimal)
    (operations : List PortfolioOperation), PricedOpenings operations →
    ((Portfolio.new initialBalance).applyAll operations).CashLaw ∧
      ((Portfolio.new initialBalance).applyAll operations).EquityLaw := by
  intro h
  have hlaw := (h 1000 worthless worthless_priced).2
  revert hlaw
  unfold EquityLaw
  decide +kernel

/-- `conservation_iff` for that run. -/
theorem worthless_breaks_laws : ¬∀ passed, passed <+: worthless →
    ((Portfolio.new 1000).applyAll passed).CashLaw ∧
      ((Portfolio.new 1000).applyAll passed).EquityLaw := by
  rw [conservation_iff 1000 worthless worthless_priced]
  intro h
  have hmarks := h [.openPosition ⟨"BTCUSDT", "long", 100, 1, 0, none, none, 0⟩]
    (.updatePositions (Dict.empty.set "BTCUSDT" 0) hour .empty) [] rfl
  exact hmarks ⟨"BTCUSDT", by decide +kernel, rfl⟩

end Portfolio

end CryptoTrading
