import CryptoTrading.Exchange.EngineRecords
import CryptoTrading.Exchange.PaperStateRepository

/-! The executed orders of an engine, and engines that have executed the same: whatever one of them
executes next, so does the other. -/

namespace CryptoTrading

open Kit

/-- An execution as a client sees it.  The identity of the runtime's orders carries the sequence and
the index of their request. -/
structure ExecutedOrder where
  orderId : Identifier
  symbol : String
  side : String
  quantity : Decimal
  price : Decimal
  deriving DecidableEq

namespace PaperExecutionEngine

/-- The execution that a fill records. -/
def executedOrder? (engine : PaperExecutionEngine) (fill : PaperFillState) : Option ExecutedOrder :=
  (engine.orders.get? fill.orderId).map fun order =>
    ⟨fill.orderId, order.symbol, order.side, fill.quantity, fill.price⟩

/-- The executed orders, one for each fill. -/
def executedOrders (engine : PaperExecutionEngine) : List ExecutedOrder :=
  engine.fills.values.filterMap engine.executedOrder?

/-- The records are linked: a fill's order is there, and client order ids lead to the orders that
have them. -/
structure Linked (engine : PaperExecutionEngine) : Prop extends WellFormed engine where
  fillOrders : ∀ id fill, engine.fills.get? id = some fill →
    (engine.orders.get? fill.orderId).isSome
  clientOf : ∀ id order client, engine.orders.get? id = some order →
    order.clientOrderId = some client → engine.clientOrders.get? client = some id
  clientOrder : ∀ client id, engine.clientOrders.get? client = some id →
    ∃ order, engine.orders.get? id = some order ∧ order.clientOrderId = some client

theorem linked_empty {engine : PaperExecutionEngine} (hpositions : engine.positions = .empty)
    (horders : engine.orders = .empty) (hfills : engine.fills = .empty)
    (hclients : engine.clientOrders = .empty) : engine.Linked := by
  refine ⟨wellFormed_empty hpositions horders hfills, ?_, ?_, ?_⟩ <;>
    simp [horders, hfills, hclients]

section Fill

variable {engine : PaperExecutionEngine} {args : ExecuteArguments} {price : Decimal}

theorem record_orders_get? (id : Identifier) :
    (engine.record args (engine.executionAt args price)).orders.get? id =
      if (engine.executionAt args price).order.orderId = id then
        some (engine.executionAt args price).order
      else engine.orders.get? id :=
  Dict.get?_set _ _ _ _

theorem record_fills_get? (id : Identifier) :
    (engine.record args (engine.executionAt args price)).fills.get? id =
      if (engine.executionAt args price).fill.fillId = id then
        some (engine.executionAt args price).fill
      else engine.fills.get? id :=
  Dict.get?_set _ _ _ _

theorem Linked.record (h : engine.Linked) (hfills : engine.Fills args price) :
    (engine.record args (engine.executionAt args price)).Linked := by
  have hnew := h.order_new hfills
  refine ⟨h.toWellFormed.record, fun id fill hget => ?_, fun id order client hget hclient => ?_,
    fun client id hget => ?_⟩
  · rw [record_fills_get?] at hget
    rw [record_orders_get?]
    split at hget
    · cases hget
      rw [if_pos (executionAt_fill_orderId engine args price).symm]
      rfl
    · split
      · rfl
      · exact h.fillOrders id fill hget
  · rw [record_orders_get?] at hget
    split at hget
    · rename_i hid
      cases hget
      change args.clientOrderId = some client at hclient
      simp only [PaperExecutionEngine.record, hclient, Dict.get?_set_self, hid]
    · have hold := h.clientOf id order client hget hclient
      simp only [PaperExecutionEngine.record]
      cases hargs : args.clientOrderId with
      | none => exact hold
      | some other =>
        have hfree := hfills.new
        simp only [hargs, duplicateOf, Option.bind_some] at hfree
        rw [Dict.get?_set_ne]
        · exact hold
        · rintro rfl
          rw [hfree] at hold
          cases hold
  · simp only [PaperExecutionEngine.record] at hget
    have hold : engine.clientOrders.get? client = some id → ∃ order,
        (engine.record args (engine.executionAt args price)).orders.get? id = some order ∧
          order.clientOrderId = some client := by
      intro hget
      obtain ⟨order, horder, hclient⟩ := h.clientOrder client id hget
      refine ⟨order, ?_, hclient⟩
      rw [record_orders_get?, if_neg]
      · exact horder
      · rintro rfl
        rw [hnew] at horder
        cases horder
    cases hargs : args.clientOrderId with
    | none => rw [hargs] at hget; exact hold hget
    | some other =>
      rw [hargs] at hget
      simp only [Dict.get?_set] at hget
      split at hget
      · rename_i hother
        cases hget
        refine ⟨_, by rw [record_orders_get?, if_pos rfl], ?_⟩
        rw [← hother]
        exact hargs
      · exact hold hget

theorem Linked.accept (h : engine.Linked) (event : MarketEvent) : (engine.accept event).Linked :=
  ⟨h.toWellFormed.accept event, h.fillOrders, h.clientOf, h.clientOrder⟩

theorem Linked.attempt (h : engine.Linked) (call : EngineCall) : (engine.attempt call).1.Linked := by
  rcases engine.attempt_cases call with hcall | ⟨event, -, -, hcall⟩ | ⟨args, price, -, hfills, hcall⟩
  · rw [hcall]; exact h
  · rw [hcall]; exact h.accept event
  · rw [hcall]; exact h.record hfills

theorem Linked.attemptAll (h : engine.Linked) (calls : List EngineCall) :
    (engine.attemptAll calls).Linked := by
  induction calls generalizing engine with
  | nil => exact h
  | cons call rest ih => exact ih (h.attempt call)

/-- A fill appends its execution. -/
theorem executedOrders_record (h : engine.Linked) (hfills : engine.Fills args price) :
    (engine.record args (engine.executionAt args price)).executedOrders =
      engine.executedOrders ++ [⟨(engine.executionAt args price).order.orderId, args.request.symbol,
        args.request.side.value, args.request.quantity, price⟩] := by
  have hnew := h.order_new hfills
  have hvalues : (engine.record args (engine.executionAt args price)).fills.values =
      engine.fills.values ++ [(engine.executionAt args price).fill] :=
    Dict.values_set_of_notMem _ (Dict.get?_eq_none_iff.mp (h.fill_new args price))
  have hold : ∀ fill ∈ engine.fills.values,
      (engine.record args (engine.executionAt args price)).executedOrder? fill =
        engine.executedOrder? fill := by
    intro fill hfill
    obtain ⟨id, hget⟩ := Dict.mem_values_iff.mp hfill
    rw [executedOrder?, record_orders_get?, if_neg, executedOrder?]
    intro hid
    have := h.fillOrders id fill hget
    rw [← hid, hnew] at this
    cases this
  have hown : (engine.record args (engine.executionAt args price)).executedOrder?
      (engine.executionAt args price).fill =
        some ⟨(engine.executionAt args price).order.orderId, args.request.symbol,
          args.request.side.value, args.request.quantity, price⟩ := by
    rw [executedOrder?, record_orders_get?, if_pos (executionAt_fill_orderId engine args price).symm]
    rfl
  rw [executedOrders, hvalues, List.filterMap_append, List.filterMap_congr hold]
  simp [hown, executedOrders]

end Fill

/-- A retry of a known order returns exactly when the order has been executed, on a side that there
is. -/
theorem executeDuplicate_isOk_iff (engine : PaperExecutionEngine) (orderId : Identifier) :
    (∃ result, engine.executeDuplicate orderId = .ok result) ↔
      ∃ executed ∈ engine.executedOrders, executed.orderId = orderId ∧
        (OrderSide.ofValue? executed.side).isSome := by
  unfold executeDuplicate
  constructor
  · rintro ⟨result, h⟩
    cases horder : engine.orders.get? orderId with
    | none => rw [horder] at h; cases h
    | some order =>
      rw [horder] at h
      simp only at h
      cases hfind : engine.fills.values.find? fun item => decide (item.orderId = orderId) with
      | none => rw [hfind] at h; cases h
      | some fill =>
        rw [hfind] at h
        simp only at h
        cases hside : OrderSide.ofValue? order.side with
        | none => rw [hside] at h; cases h
        | some side =>
          have hid : fill.orderId = orderId := by simpa using List.find?_some hfind
          refine ⟨⟨orderId, order.symbol, order.side, fill.quantity, fill.price⟩, ?_, rfl, ?_⟩
          · refine List.mem_filterMap.mpr ⟨fill, List.mem_of_find?_eq_some hfind, ?_⟩
            rw [executedOrder?, hid, horder]
            rfl
          · rw [hside]
            rfl
  · rintro ⟨executed, hmem, rfl, hside⟩
    obtain ⟨fill, hfill, hexecuted⟩ := List.mem_filterMap.mp hmem
    obtain ⟨order, horder, rfl⟩ := Option.map_eq_some_iff.mp hexecuted
    obtain ⟨side, hside⟩ := Option.isSome_iff_exists.mp hside
    obtain ⟨other, hfind⟩ : ∃ other, (engine.fills.values.find? fun item =>
        decide (item.orderId = fill.orderId)) = some other :=
      Option.isSome_iff_exists.mp (List.find?_isSome.mpr ⟨fill, hfill, decide_eq_true rfl⟩)
    refine ⟨⟨.filled, order.symbol, side, other.quantity, other.price⟩, ?_⟩
    simp only [horder, hfind]
    simp only at hside
    rw [hside]

/-- Two engines that have executed the same orders and hold the same positions. -/
structure Similar (first second : PaperExecutionEngine) : Prop where
  linked : first.Linked
  linked' : second.Linked
  state : first.savedState = second.savedState
  positions : first.positions.Agrees second.positions
  clients : first.clientOrders.Agrees second.clientOrders
  executed : first.executedOrders.Perm second.executedOrders

namespace Similar

variable {first second : PaperExecutionEngine} {args args' : ExecuteArguments} {price : Decimal}

theorem lastSequence (h : Similar first second) : first.lastSequence = second.lastSequence :=
  congrArg PaperRuntimeState.lastMarketSequence h.state

theorem lastProcessedTimestamp (h : Similar first second) :
    first.lastProcessedTimestamp = second.lastProcessedTimestamp :=
  congrArg PaperRuntimeState.lastProcessedTimestamp h.state

theorem cashBalance (h : Similar first second) : first.cashBalance = second.cashBalance :=
  congrArg PaperRuntimeState.cashBalance h.state

theorem takes_iff (h : Similar first second) (event : MarketEvent) :
    first.Takes event ↔ second.Takes event := by
  constructor
  · rintro ⟨hvalid, hsequence, htime⟩
    exact ⟨hvalid, h.lastSequence ▸ hsequence, h.lastProcessedTimestamp ▸ htime⟩
  · rintro ⟨hvalid, hsequence, htime⟩
    exact ⟨hvalid, h.lastSequence ▸ hsequence, h.lastProcessedTimestamp ▸ htime⟩

theorem accept (h : Similar first second) (event : MarketEvent) :
    Similar (first.accept event) (second.accept event) where
  linked := h.linked.accept event
  linked' := h.linked'.accept event
  state := by simp only [savedState, PaperExecutionEngine.accept, h.cashBalance]
  positions := h.positions
  clients := h.clients
  executed := h.executed

theorem heldQuantity (h : Similar first second) (symbol : String) :
    first.heldQuantity symbol = second.heldQuantity symbol := by
  rw [PaperExecutionEngine.heldQuantity, h.positions symbol, PaperExecutionEngine.heldQuantity]

theorem heldPrice (h : Similar first second) (symbol : String) :
    first.heldPrice symbol = second.heldPrice symbol := by
  rw [PaperExecutionEngine.heldPrice, h.positions symbol, PaperExecutionEngine.heldPrice]

/-- What one of them fills the other does, at the same price. -/
theorem fills (h : Similar first second) (hcandle : first.lastCandle = second.lastCandle)
    (hrequest : args'.request = args.request) (hprice : args'.marketPrice = args.marketPrice)
    (hclient : args'.clientOrderId = args.clientOrderId) (hfills : second.Fills args price) :
    first.Fills args' price where
  new := by
    have hnew := hfills.new
    rw [hclient]
    cases hid : args.clientOrderId with
    | none => rfl
    | some id =>
      rw [hid] at hnew
      exact (h.clients id).trans hnew
  marketPrice := by
    rw [hprice]
    simpa only [marketPriceOf, hcandle] using hfills.marketPrice
  quantity_pos := hrequest ▸ hfills.quantity_pos
  price_pos := hfills.price_pos
  held := by
    rw [hrequest, h.heldQuantity]
    exact hfills.held

/-- Filling a request of a client keeps two engines similar. -/
theorem record (h : Similar first second) {id : String} (hid : id ≠ "")
    (hrequest : args'.request = args.request) (hclient : args.clientOrderId = some id)
    (hclient' : args'.clientOrderId = some id) (hfills : second.Fills args price)
    (hfills' : first.Fills args' price) :
    Similar (first.record args' (first.executionAt args' price))
      (second.record args (second.executionAt args price)) := by
  have horder : (first.executionAt args' price).order.orderId =
      (second.executionAt args price).order.orderId := by
    show (orderIdentity args'.clientOrderId _).1 = (orderIdentity args.clientOrderId _).1
    rw [hclient, hclient']
    simp [orderIdentity, hid]
  have hposition : (first.executionAt args' price).position =
      (second.executionAt args price).position := by
    simp only [executionAt, executionOf, hrequest, h.heldQuantity, h.heldPrice]
    rfl
  refine ⟨h.linked.record hfills', h.linked'.record hfills, h.state, ?_, ?_, ?_⟩
  · simp only [PaperExecutionEngine.record, hposition, hrequest]
    exact h.positions.set _ _
  · simp only [PaperExecutionEngine.record, hclient, hclient', horder]
    exact h.clients.set _ _
  · rw [executedOrders_record h.linked hfills', executedOrders_record h.linked' hfills, horder,
      hrequest]
    exact h.executed.append_right _

/-- What one of them executes for a client so does the other. -/
theorem execute (h : Similar first second) (hcandle : first.lastCandle = second.lastCandle)
    {id : String} (hid : id ≠ "") (args args' : ExecuteArguments)
    (hrequest : args'.request = args.request) (hprice : args'.marketPrice = args.marketPrice)
    (hclient : args.clientOrderId = some id) (hclient' : args'.clientOrderId = some id)
    {done : Executed} (hdone : second.execute args = .ok done) :
    ∃ done', first.execute args' = .ok done' ∧ Similar done'.engine done.engine ∧
      done'.engine.lastCandle = done.engine.lastCandle := by
  rcases execute_cases hdone with ⟨orderId, hdup, hresult, hsame, -⟩ | ⟨price, hfills, rfl⟩
  · -- The order is known to both, and both have executed it.
    have hdup' : first.duplicateOf args'.clientOrderId = some orderId := by
      rw [hclient']
      rw [hclient] at hdup
      exact (h.clients id).trans hdup
    obtain ⟨executed, hmem, hexecuted⟩ :=
      (second.executeDuplicate_isOk_iff orderId).mp ⟨_, hresult⟩
    obtain ⟨result, hresult'⟩ := (first.executeDuplicate_isOk_iff orderId).mpr
      ⟨executed, h.executed.mem_iff.mpr hmem, hexecuted⟩
    refine ⟨⟨result, first, none⟩, ?_, ?_, ?_⟩
    · rw [PaperExecutionEngine.execute, hdup']
      simp only [hresult']
      rfl
    · rw [hsame]
      exact h
    · rw [hsame]
      exact hcandle
  · have hfills' := h.fills hcandle hrequest hprice (hclient'.trans hclient.symm) hfills
    exact ⟨_, execute_of_fills hfills', h.record hid hrequest hclient hclient' hfills hfills', hcandle⟩

end Similar

end PaperExecutionEngine

end CryptoTrading
