import CryptoTrading.Accounting.PaperCash
import CryptoTrading.Exchange.ExecutedOrders
import CryptoTrading.Reporting.PaperLedgers

/-! The engine's positions, the PnL tracker and the reporting marts keep the books of the same
average-cost holdings: each takes a fill as a purchase or a sale of the holding of its symbol, up to
the average of an empty holding, which none of them uses. -/

namespace CryptoTrading

open Kit

/-! ### One holding a symbol -/

theorem OrderSide.value_toUpper (side : OrderSide) : side.value.toUpper = side.value := by
  cases side <;> decide +kernel

/-- The holding after a fill. -/
def filled (side : OrderSide) (holding : Holding Decimal) (quantity price : Decimal) :
    Holding Decimal :=
  match side with
  | .buy => holding.buy quantity price
  | .sell => holding.sell quantity

/-- A sale of something sells no more than is held. -/
structure Fillable (side : OrderSide) (held quantity : Decimal) : Prop where
  held_nonneg : 0 ≤ held
  quantity_pos : 0 < quantity
  covered : side = .sell → quantity ≤ held

theorem Fillable.filled_same {side : OrderSide} {holding other : Holding Decimal}
    {quantity : Decimal} (h : Fillable side holding.quantity quantity) (price : Decimal)
    (hsame : holding.Same other) :
    (filled side holding quantity price).Same (filled side other quantity price) := by
  cases side with
  | buy => exact hsame.buy price (add_pos_of_nonneg_of_pos h.held_nonneg h.quantity_pos).ne'
  | sell => exact hsame.sell quantity (h.quantity_pos.trans_le (h.covered rfl)).ne'

theorem Fillable.filled_nonneg {side : OrderSide} {holding : Holding Decimal} {quantity : Decimal}
    (h : Fillable side holding.quantity quantity) (price : Decimal) :
    0 ≤ (filled side holding quantity price).quantity := by
  cases side with
  | buy => exact add_nonneg h.held_nonneg h.quantity_pos.le
  | sell => exact sub_nonneg.mpr (h.covered rfl)

namespace PaperExecutionEngine

/-- The holding of a position. -/
def holding (engine : PaperExecutionEngine) (symbol : String) : Holding Decimal :=
  ⟨engine.heldQuantity symbol, engine.heldPrice symbol⟩

theorem holding_of_get? {engine : PaperExecutionEngine} {symbol : String}
    {position : PaperPositionState} (h : engine.positions.get? symbol = some position) :
    engine.holding symbol = ⟨position.quantity, position.averagePrice⟩ := by
  simp [holding, heldQuantity, heldPrice, h]

variable {engine : PaperExecutionEngine} {args : ExecuteArguments} {price : Decimal}

theorem holding_record_of_ne (engine : PaperExecutionEngine) (price : Decimal) {symbol : String}
    (h : args.request.symbol ≠ symbol) :
    (engine.record args (engine.executionAt args price)).holding symbol = engine.holding symbol := by
  simp only [holding, heldQuantity, heldPrice, record, Dict.get?_set_ne _ _ h]

theorem Fills.fillable (h : engine.Fills args price)
    (hheld : 0 ≤ engine.heldQuantity args.request.symbol) :
    Fillable args.request.side (engine.holding args.request.symbol).quantity args.request.quantity :=
  ⟨hheld, h.quantity_pos, h.held⟩

/-- A fill fills the holding of its symbol. -/
theorem holding_record (price : Decimal) (h : Fillable args.request.side
    (engine.holding args.request.symbol).quantity args.request.quantity) :
    ((engine.record args (engine.executionAt args price)).holding args.request.symbol).Same
      (filled args.request.side (engine.holding args.request.symbol) args.request.quantity price) := by
  have hget : (engine.record args (engine.executionAt args price)).positions.get?
      args.request.symbol = some (engine.executionAt args price).position := Dict.get?_set_self _ _ _
  rw [holding_of_get? hget]
  simp only [executionAt, executionOf, positionAfter]
  cases hside : args.request.side with
  | buy =>
    simp only [filled]
    refine ⟨rfl, fun _ => ?_⟩
    by_cases hzero : engine.heldQuantity args.request.symbol = 0
    · rw [Holding.average_buy_of_empty price hzero h.quantity_pos.ne']
      simp only [hzero, if_true]
    · simp only [if_neg hzero]
      rfl
  | sell =>
    simp only [filled]
    refine ⟨rfl, fun hne => ?_⟩
    have hleft : 0 < engine.heldQuantity args.request.symbol - args.request.quantity :=
      lt_of_le_of_ne (sub_nonneg.mpr (h.covered hside)) (Ne.symm hne)
    simp only [if_pos hleft]
    rfl

end PaperExecutionEngine

namespace RealizedLedger

variable {ledger : RealizedLedger} {fill : PaperFillState} {side : OrderSide}

/-- The holding that the tracker keeps. -/
def holding (ledger : RealizedLedger) (symbol : String) : Holding Decimal :=
  ⟨(ledger.tracked symbol).quantity, (ledger.tracked symbol).avgCost⟩

/-- The cost basis of every symbol is the cost of its holding. -/
def Based (ledger : RealizedLedger) : Prop :=
  ∀ symbol, (ledger.tracked symbol).costBasis = (ledger.holding symbol).cost

/-- The ledger after a fill. -/
def after (ledger : RealizedLedger) (side : OrderSide) (fill : PaperFillState) : RealizedLedger :=
  match side with
  | .buy => ledger.bought fill
  | .sell => ledger.sold fill

theorem tracked_after_of_ne {symbol : String} (h : fill.symbol ≠ symbol) :
    (ledger.after side fill).tracked symbol = ledger.tracked symbol := by
  cases side <;> simp only [after, bought, sold, tracked, Dict.get?_set_ne _ _ h]

@[simp] theorem tracked_bought : (ledger.bought fill).tracked fill.symbol =
    let newQty := (ledger.tracked fill.symbol).quantity + fill.quantity
    let newCostBasis := (ledger.tracked fill.symbol).costBasis + fill.quantity * fill.price
    ⟨newQty, if newQty > 0 then newCostBasis / newQty else (ledger.tracked fill.symbol).avgCost,
      newCostBasis⟩ := by
  rw [tracked, bought, Dict.get?_set_self, Option.getD_some]

@[simp] theorem tracked_sold : (ledger.sold fill).tracked fill.symbol =
    let newQty := (ledger.tracked fill.symbol).quantity - fill.quantity
    ⟨newQty, (ledger.tracked fill.symbol).avgCost,
      if newQty > 0 then newQty * (ledger.tracked fill.symbol).avgCost else 0⟩ := by
  rw [tracked, sold, Dict.get?_set_self, Option.getD_some]

theorem take_eq {order : Identifier → Option PaperOrderState} {found : PaperOrderState}
    (horder : order fill.orderId = some found) (hside : found.side = side.value)
    (h : Fillable side (ledger.holding fill.symbol).quantity fill.quantity) :
    ledger.take order fill = .ok (ledger.after side fill) := by
  simp only [take, horder, hside, OrderSide.value_toUpper]
  cases side with
  | buy => rfl
  | sell =>
    have hcovered : ¬fill.quantity > (ledger.tracked fill.symbol).quantity :=
      not_lt.mpr (h.covered rfl)
    rw [if_neg (by decide), if_pos (by decide), if_neg hcovered]
    rfl

/-- A fill fills the tracker's holding of its symbol. -/
theorem holding_after (fill : PaperFillState) (hbased : ledger.Based)
    (h : Fillable side (ledger.holding fill.symbol).quantity fill.quantity) :
    (ledger.after side fill).holding fill.symbol =
      filled side (ledger.holding fill.symbol) fill.quantity fill.price := by
  cases side with
  | buy =>
    have hpos : (ledger.tracked fill.symbol).quantity + fill.quantity > 0 :=
      add_pos_of_nonneg_of_pos h.held_nonneg h.quantity_pos
    have hcost := hbased fill.symbol
    simp only [holding, Holding.cost] at hcost
    simp only [after, holding, tracked_bought, if_pos hpos, filled, Holding.buy, hcost]
    refine congrArg (Holding.mk _) (congrArg (· / _) ?_)
    ring
  | sell => simp only [after, holding, tracked_sold, filled, Holding.sell]

theorem Based.after (hbased : ledger.Based)
    (h : Fillable side (ledger.holding fill.symbol).quantity fill.quantity) :
    (ledger.after side fill).Based := by
  intro symbol
  by_cases hsymbol : fill.symbol = symbol
  · subst hsymbol
    rw [holding_after _ hbased h]
    cases side with
    | buy =>
      have hpos : (ledger.holding fill.symbol).quantity + fill.quantity ≠ 0 :=
        (add_pos_of_nonneg_of_pos h.held_nonneg h.quantity_pos).ne'
      rw [filled, Holding.cost_buy _ _ hpos, ← hbased, RealizedLedger.after, tracked_bought]
      ring
    | sell =>
      simp only [RealizedLedger.after, tracked_sold, filled, Holding.cost, Holding.sell, holding]
      split
      · rfl
      · rename_i hleft
        have hzero : (ledger.tracked fill.symbol).quantity - fill.quantity = 0 :=
          le_antisymm (not_lt.mp hleft) (sub_nonneg.mpr (h.covered rfl))
        rw [hzero, zero_mul]
  · rw [holding, tracked_after_of_ne hsymbol]
    exact hbased symbol

theorem realizedPnl_after : (ledger.after side fill).realizedPnl = ledger.realizedPnl +
    match side with
    | .buy => 0
    | .sell => (ledger.holding fill.symbol).realized fill.quantity fill.price := by
  cases side with
  | buy => exact (add_zero _).symm
  | sell =>
    simp only [after, sold, holding, Holding.realized]
    ring

end RealizedLedger

namespace CollectedLedger

variable {ledger : CollectedLedger} {trade : TradeEvent} {side : OrderSide}

/-- The ledger after a trade. -/
def after (ledger : CollectedLedger) (side : OrderSide) (trade : TradeEvent) : CollectedLedger :=
  match side with
  | .buy => ledger.bought trade
  | .sell => ledger.sold trade

theorem held_after_of_ne {symbol : String} (h : trade.symbol ≠ symbol) :
    (ledger.after side trade).held symbol = ledger.held symbol := by
  cases side <;> simp only [after, bought, sold, held, Dict.get?_set_ne _ _ h]

@[simp] theorem held_bought : (ledger.bought trade).held trade.symbol =
    let held := ledger.held trade.symbol
    ⟨held.quantity + trade.quantity,
      (held.quantity * held.average + trade.quantity * trade.price) /
        (held.quantity + trade.quantity)⟩ := by
  rw [held, bought, Dict.get?_set_self, Option.getD_some]

@[simp] theorem held_sold : (ledger.sold trade).held trade.symbol =
    let held := ledger.held trade.symbol
    ⟨held.quantity - trade.quantity,
      if held.quantity > trade.quantity then held.average else 0⟩ := by
  rw [held, sold, Dict.get?_set_self, Option.getD_some]

theorem take_eq (hside : trade.side = side.value)
    (h : Fillable side (ledger.held trade.symbol).quantity trade.quantity) :
    ledger.take trade = .ok (ledger.after side trade) := by
  simp only [take, hside, OrderSide.value_toUpper]
  cases side with
  | buy =>
    have hpos : (ledger.held trade.symbol).quantity + trade.quantity ≠ 0 :=
      (add_pos_of_nonneg_of_pos h.held_nonneg h.quantity_pos).ne'
    rw [if_pos (by decide), if_neg hpos]
    rfl
  | sell =>
    have hcovered : ¬trade.quantity > (ledger.held trade.symbol).quantity :=
      not_lt.mpr (h.covered rfl)
    rw [if_neg (by decide), if_pos (by decide), if_neg hcovered]
    rfl

/-- A trade fills the collected holding of its symbol. -/
theorem held_after (trade : TradeEvent)
    (h : Fillable side (ledger.held trade.symbol).quantity trade.quantity) :
    ((ledger.after side trade).held trade.symbol).Same
      (filled side (ledger.held trade.symbol) trade.quantity trade.price) := by
  cases side with
  | buy =>
    refine ⟨by simp only [after, held_bought, filled, Holding.buy], fun _ => ?_⟩
    simp only [after, held_bought, filled, Holding.buy]
    ring
  | sell =>
    refine ⟨by simp only [after, held_sold, filled, Holding.sell], fun hne => ?_⟩
    simp only [after, held_sold, filled, Holding.sell] at hne ⊢
    have hleft : (ledger.held trade.symbol).quantity > trade.quantity :=
      lt_of_le_of_ne (h.covered rfl) fun he => hne (sub_eq_zero.mpr he.symm)
    rw [if_pos hleft]

theorem realized_after : ((ledger.after side trade).realized.map Prod.snd).sum =
    (ledger.realized.map Prod.snd).sum +
      match side with
      | .buy => 0
      | .sell => (ledger.held trade.symbol).realized trade.quantity trade.price := by
  cases side with
  | buy => exact (add_zero _).symm
  | sell => simp [after, sold, Holding.realized]

end CollectedLedger

/-! ### The ledgers agree -/

/-- The trade event of an execution. -/
def Execution.trade (execution : Execution) : TradeEvent :=
  { timestamp := execution.fill.executedAt, symbol := execution.fill.symbol
    side := execution.order.side, quantity := execution.fill.quantity
    price := execution.fill.price }

/-- Three ledgers that keep the books of the same holdings. -/
structure Books (engine : PaperExecutionEngine) (ledger : RealizedLedger)
    (marts : CollectedLedger) : Prop where
  held_nonneg : ∀ symbol, 0 ≤ engine.heldQuantity symbol
  based : ledger.Based
  tracked : ∀ symbol, (engine.holding symbol).Same (ledger.holding symbol)
  collected : ∀ symbol, (engine.holding symbol).Same (marts.held symbol)
  realized : ledger.realizedPnl = (marts.realized.map Prod.snd).sum

theorem Books.new (capital : Decimal) : Books (PaperCash.initial capital) {} {} :=
  ⟨fun _ => le_rfl, fun _ => (mul_zero 0).symm, fun _ => .refl _, fun _ => .refl _, rfl⟩

section Fill

variable {engine : PaperExecutionEngine} {args : ExecuteArguments} {price : Decimal}
  {ledger : RealizedLedger} {marts : CollectedLedger}

/-- A fill keeps the books in step. -/
theorem Books.record (h : Books engine ledger marts) (hfills : engine.Fills args price) :
    Books (engine.record args (engine.executionAt args price))
      (ledger.after args.request.side (engine.executionAt args price).fill)
      (marts.after args.request.side (engine.executionAt args price).trade) := by
  have hfillable := hfills.fillable (h.held_nonneg args.request.symbol)
  have htracked := h.tracked args.request.symbol
  have hcollected := h.collected args.request.symbol
  have hrecorded := PaperExecutionEngine.holding_record price hfillable
  have htracks : Fillable args.request.side (ledger.holding args.request.symbol).quantity
      args.request.quantity := htracked.quantity ▸ hfillable
  have hcollects : Fillable args.request.side (marts.held args.request.symbol).quantity
      args.request.quantity := hcollected.quantity ▸ hfillable
  constructor
  · intro symbol
    by_cases hsymbol : args.request.symbol = symbol
    · subst hsymbol
      exact le_of_le_of_eq (hfillable.filled_nonneg price) hrecorded.quantity.symm
    · have hsame := PaperExecutionEngine.holding_record_of_ne engine price hsymbol
      exact le_of_le_of_eq (h.held_nonneg symbol) (congrArg Holding.quantity hsame).symm
  · exact h.based.after htracks
  · intro symbol
    by_cases hsymbol : args.request.symbol = symbol
    · subst hsymbol
      have hafter := RealizedLedger.holding_after (engine.executionAt args price).fill h.based htracks
      exact hrecorded.trans ((hfillable.filled_same price htracked).trans (hafter ▸ .refl _))
    · rw [PaperExecutionEngine.holding_record_of_ne _ _ hsymbol, RealizedLedger.holding,
        RealizedLedger.tracked_after_of_ne hsymbol]
      exact h.tracked symbol
  · intro symbol
    by_cases hsymbol : args.request.symbol = symbol
    · subst hsymbol
      have hafter := CollectedLedger.held_after (engine.executionAt args price).trade hcollects
      exact hrecorded.trans ((hfillable.filled_same price hcollected).trans hafter.symm)
    · rw [PaperExecutionEngine.holding_record_of_ne _ _ hsymbol,
        CollectedLedger.held_after_of_ne hsymbol]
      exact h.collected symbol
  · rw [RealizedLedger.realizedPnl_after, CollectedLedger.realized_after, h.realized]
    cases hside : args.request.side with
    | buy => rfl
    | sell =>
      have hheld : (ledger.holding args.request.symbol).quantity ≠ 0 :=
        (htracks.quantity_pos.trans_le (htracks.covered hside)).ne'
      have hrealized := (htracked.symm.trans hcollected).realized args.request.quantity price hheld
      exact congrArg ((marts.realized.map Prod.snd).sum + ·) hrealized

/-- The two reports take a fill without raising. -/
theorem Books.take (h : Books engine ledger marts) (hfills : engine.Fills args price)
    {order : Identifier → Option PaperOrderState}
    (horder : order (engine.executionAt args price).order.orderId =
      some (engine.executionAt args price).order) :
    ledger.take order (engine.executionAt args price).fill =
        .ok (ledger.after args.request.side (engine.executionAt args price).fill) ∧
      marts.take (engine.executionAt args price).trade =
        .ok (marts.after args.request.side (engine.executionAt args price).trade) := by
  have hfillable := hfills.fillable (h.held_nonneg args.request.symbol)
  constructor
  · refine RealizedLedger.take_eq horder rfl ?_
    exact (h.tracked args.request.symbol).quantity ▸ hfillable
  · refine CollectedLedger.take_eq rfl ?_
    exact (h.collected args.request.symbol).quantity ▸ hfillable

end Fill

theorem foldlM_snoc_of_ok {ε σ α : Type} {body : σ → α → Except ε σ} {items : List α} {item : α}
    {s m t : σ} (h : items.foldlM body s = .ok m) (hlast : body m item = .ok t) :
    (items ++ [item]).foldlM body s = .ok t := by
  rw [List.foldlM_append, h]
  exact congrArg (· >>= pure) hlast

theorem RealizedLedger.foldlM_take_congr {order other : Identifier → Option PaperOrderState}
    {fills : List PaperFillState} (h : ∀ fill ∈ fills, order fill.orderId = other fill.orderId)
    (ledger : RealizedLedger) :
    fills.foldlM (RealizedLedger.take order) ledger =
      fills.foldlM (RealizedLedger.take other) ledger := by
  induction fills generalizing ledger with
  | nil => rfl
  | cons fill rest ih =>
    have hfirst : RealizedLedger.take order ledger fill = RealizedLedger.take other ledger fill := by
      simp only [RealizedLedger.take, h fill List.mem_cons_self]
    have hrest := ih fun fill hmem => h fill (List.mem_cons_of_mem _ hmem)
    simp only [List.foldlM_cons, hfirst, hrest]

/-- What an engine has executed, and the books of the reports over it. -/
structure Reported (engine : PaperExecutionEngine) (executed : List Execution)
    (ledger : RealizedLedger) (marts : CollectedLedger) : Prop where
  linked : engine.Linked
  fills : engine.fills.values = executed.map Execution.fill
  orders : engine.orders.values = executed.map Execution.order
  books : Books engine ledger marts
  tracked : (executed.map Execution.fill).foldlM (RealizedLedger.take engine.orders.get?) {} =
    .ok ledger
  collected : MartETL.realizedTradePnl (executed.map Execution.trade) = .ok marts

section Run

variable {engine : PaperExecutionEngine} {executed : List Execution} {ledger : RealizedLedger}
  {marts : CollectedLedger}

theorem Reported.record {args : ExecuteArguments} {price : Decimal}
    (h : Reported engine executed ledger marts) (hfills : engine.Fills args price) :
    Reported (engine.record args (engine.executionAt args price))
      (executed ++ [engine.executionAt args price])
      (ledger.after args.request.side (engine.executionAt args price).fill)
      (marts.after args.request.side (engine.executionAt args price).trade) := by
  have hnew := h.linked.order_new hfills
  have hfound : (engine.record args (engine.executionAt args price)).orders.get?
      (engine.executionAt args price).order.orderId = some (engine.executionAt args price).order :=
    Dict.get?_set_self _ _ _
  obtain ⟨htakes, hcollects⟩ := h.books.take hfills hfound
  refine ⟨h.linked.record hfills, ?_, ?_, h.books.record hfills, ?_, ?_⟩
  · rw [List.map_append, ← h.fills]
    exact Dict.values_set_of_notMem _
      (Dict.get?_eq_none_iff.mp (h.linked.fill_new args price))
  · rw [List.map_append, ← h.orders]
    exact Dict.values_set_of_notMem _ (Dict.get?_eq_none_iff.mp hnew)
  · -- The new order is none of those of the fills before.
    have hold : ∀ fill ∈ executed.map Execution.fill,
        (engine.record args (engine.executionAt args price)).orders.get? fill.orderId =
          engine.orders.get? fill.orderId := by
      intro fill hfill
      obtain ⟨id, hget⟩ := Dict.mem_values_iff.mp (h.fills ▸ hfill)
      rw [PaperExecutionEngine.record_orders_get?, if_neg]
      intro hid
      have hsome := h.linked.fillOrders id fill hget
      rw [← hid, hnew] at hsome
      cases hsome
    rw [List.map_append]
    exact foldlM_snoc_of_ok ((RealizedLedger.foldlM_take_congr hold {}).trans h.tracked) htakes
  · rw [List.map_append]
    exact foldlM_snoc_of_ok h.collected hcollects

/-- Any call keeps the reports in step. -/
theorem Reported.attempt (h : Reported engine executed ledger marts) (call : EngineCall) :
    ∃ ledger marts, Reported (engine.attempt call).1 (executed ++ engine.executions [call]) ledger
      marts := by
  have hexecutions : engine.executions [call] =
      (engine.attempt call).2.toList.filterMap ScheduledWrite.execution? := by
    simp [PaperExecutionEngine.executions, PaperExecutionEngine.scheduled]
  rcases engine.attempt_cases call with hcall | ⟨event, -, -, hcall⟩ | ⟨args, price, -, hfills, hcall⟩
  · rw [hexecutions, hcall]
    exact ⟨ledger, marts, by simpa using h⟩
  · have hnone : engine.executions [call] = [] := by simp [hexecutions, hcall, ScheduledWrite.execution?]
    rw [hnone, hcall, List.append_nil]
    exact ⟨ledger, marts, h.linked.accept event, h.fills, h.orders,
      ⟨h.books.held_nonneg, h.books.based, h.books.tracked, h.books.collected, h.books.realized⟩,
      h.tracked, h.collected⟩
  · have hone : engine.executions [call] = [engine.executionAt args price] := by
      simp [hexecutions, hcall, ScheduledWrite.execution?]
    rw [hone, hcall]
    exact ⟨_, _, h.record hfills⟩

theorem exists_reported (capital : Decimal) (calls : List EngineCall) : ∃ ledger marts,
    Reported ((PaperCash.initial capital).attemptAll calls)
      ((PaperCash.initial capital).executions calls) ledger marts := by
  induction calls using List.reverseRecOn with
  | nil =>
    exact ⟨{}, {}, PaperExecutionEngine.linked_empty rfl rfl rfl rfl, rfl, rfl, Books.new capital,
      rfl, rfl⟩
  | append_singleton before call ih =>
    obtain ⟨ledger, marts, hbefore⟩ := ih
    rw [PaperExecutionEngine.executions_append, PaperExecutionEngine.attemptAll_append]
    exact hbefore.attempt call

end Run

/-- After any calls of a fresh engine its positions, the tracker's and the marts' are the same, over
the same executions: no report raises, the quantities and average costs agree, and the two realize
the same. -/
theorem paper_ledgers_agree (capital : Decimal) (calls : List EngineCall) :
    let engine := (PaperCash.initial capital).attemptAll calls
    let executed := (PaperCash.initial capital).executions calls
    engine.fills.values = executed.map Execution.fill ∧
      engine.orders.values = executed.map Execution.order ∧
      ∃ ledger marts,
        PaperPnLTracker.calculateRealizedPnl engine.fills.values engine.orders.values =
            .ok ledger ∧
          MartETL.realizedTradePnl (executed.map Execution.trade) = .ok marts ∧
          (∀ symbol position, engine.positions.get? symbol = some position →
            (ledger.tracked symbol).quantity = position.quantity ∧
              (0 < position.quantity →
                (ledger.tracked symbol).avgCost = position.averagePrice)) ∧
          ledger.realizedPnl = (marts.realized.map Prod.snd).sum := by
  intro engine executed
  obtain ⟨ledger, marts, h⟩ := exists_reported capital calls
  refine ⟨h.fills, h.orders, ledger, marts, ?_, h.collected, ?_, h.books.realized⟩
  · have horders := Dict.ofItems_values_agrees h.linked.orderIds
    rw [PaperPnLTracker.calculateRealizedPnl, h.fills,
      RealizedLedger.foldlM_take_congr fun fill _ => horders fill.orderId]
    exact h.tracked
  · intro symbol position hget
    have hsame := h.books.tracked symbol
    rw [PaperExecutionEngine.holding_of_get? hget] at hsame
    exact ⟨hsame.quantity.symm, fun hpos => (hsame.average hpos.ne').symm⟩

end CryptoTrading
