import CryptoTrading.Exchange.EngineCalls
import CryptoTrading.Reporting.PaperPnl

/-! Paper cash accounting: the cash that the fills of an engine account for, and the equity at the
current marks.  No call of the engine moves its cash balance, so the law fails from the first fill
on. -/

namespace CryptoTrading.PaperCash

open Kit PaperExecutionEngine

/-- An engine with `capital` in cash and no state to restore. -/
def initial (capital : Decimal) : PaperExecutionEngine := { cashBalance := capital }

/-- The sum of `quantity * price` over the fills of the orders of one side. -/
def tradedValue (engine : PaperExecutionEngine) (side : OrderSide) : Decimal :=
  ((engine.fills.values.filter fun fill =>
    (engine.orders.get? fill.orderId).any fun order => decide (order.side = side.value)).map
      fun fill => fill.quantity * fill.price).sum

/-- The cash balance is the initial capital less what was bought plus what was sold. -/
def CashLaw (capital : Decimal) (engine : PaperExecutionEngine) : Prop :=
  engine.cashBalance = capital - tradedValue engine .buy + tradedValue engine .sell

def isMarketEvent : EngineCall → Bool
  | .marketEvent _ => true
  | .execute _ => false

theorem call_cashBalance {engine after : PaperExecutionEngine} {call : EngineCall}
    {write : Option ScheduledWrite} (h : engine.call call = .ok (after, write)) :
    after.cashBalance = engine.cashBalance := by
  rcases call_cases h with ⟨rfl, -⟩ | ⟨_, -, -, rfl, -⟩ | ⟨_, _, -, -, rfl, -⟩ <;> rfl

theorem calls_cashBalance {engine after : PaperExecutionEngine} {list : List EngineCall}
    (h : engine.calls list = .ok after) : after.cashBalance = engine.cashBalance :=
  calls_invariant (P := fun e => e.cashBalance = engine.cashBalance)
    (fun _ _ _ _ hp hc => (call_cashBalance hc).trans hp) rfl h

/-- An engine that has filled nothing yet. -/
structure Unfilled (engine : PaperExecutionEngine) : Prop where
  positions : engine.positions = .empty
  orders : engine.orders = .empty
  fills : engine.fills = .empty
  clientOrders : engine.clientOrders = .empty

theorem initial_unfilled (capital : Decimal) : Unfilled (initial capital) := ⟨rfl, rfl, rfl, rfl⟩

theorem Unfilled.cashLaw {engine : PaperExecutionEngine} {capital : Decimal}
    (h : Unfilled engine) (hcash : engine.cashBalance = capital) : CashLaw capital engine := by
  simp [CashLaw, tradedValue, h.fills, hcash, Dict.values, Dict.empty]

theorem Unfilled.marketEvent {engine after : PaperExecutionEngine} {event : MarketEvent}
    {write : Option ScheduledWrite} (h : Unfilled engine)
    (hc : engine.call (.marketEvent event) = .ok (after, write)) : Unfilled after := by
  rcases call_cases hc with ⟨rfl, -⟩ | ⟨_, -, -, rfl, -⟩ | ⟨_, _, hx, -⟩
  · exact h
  · exact ⟨h.positions, h.orders, h.fills, h.clientOrders⟩
  · cases hx

theorem calls_unfilled {engine after : PaperExecutionEngine} {list : List EngineCall}
    (h : Unfilled engine) (hevents : ∀ call ∈ list, isMarketEvent call = true)
    (hc : engine.calls list = .ok after) : Unfilled after := by
  induction list generalizing engine with
  | nil => cases hc; exact h
  | cons call rest ih =>
    cases call with
    | execute args => exact absurd (hevents _ List.mem_cons_self) (by simp [isMarketEvent])
    | marketEvent event =>
      simp only [calls] at hc
      cases hfirst : engine.call (.marketEvent event) with
      | error e => rw [hfirst] at hc; cases hc
      | ok outcome =>
        rw [hfirst] at hc
        exact ih (h.marketEvent hfirst) (fun call hmem => hevents call (List.mem_cons_of_mem _ hmem))
          hc

/-- A first fill at `price` is the whole traded value of its side, and of no other. -/
theorem Unfilled.tradedValue_record {engine : PaperExecutionEngine} (h : Unfilled engine)
    (args : ExecuteArguments) (price : Decimal) (side : OrderSide) :
    tradedValue (engine.record args (engine.executionAt args price)) side =
      if args.request.side = side then args.request.quantity * price else 0 := by
  have hvalues : (engine.record args (engine.executionAt args price)).fills.values =
      [(engine.executionAt args price).fill] := by
    simp only [record, h.fills]
    exact Dict.values_set_of_notMem _ (List.not_mem_nil)
  have horder : (engine.record args (engine.executionAt args price)).orders.get?
      (engine.executionAt args price).fill.orderId = some (engine.executionAt args price).order := by
    rw [executionAt_fill_orderId]
    exact Dict.get?_set_self _ _ _
  have hside : (engine.executionAt args price).order.side = side.value ↔
      args.request.side = side := by
    cases hs : args.request.side <;> cases side <;> simp [executionAt, executionOf, hs,
      OrderSide.value]
  simp only [tradedValue, hvalues, List.filter_cons, horder, Option.any_some, hside,
    decide_eq_true_eq, List.filter_nil]
  split
  · simp [executionAt, executionOf]
  · rfl

/-- The first fill buys, so that the law wants cash that the engine has not paid. -/
theorem Unfilled.execute_breaks {engine after : PaperExecutionEngine} {capital : Decimal}
    {args : ExecuteArguments} {write : Option ScheduledWrite} (h : Unfilled engine)
    (hcash : engine.cashBalance = capital)
    (hc : engine.call (.execute args) = .ok (after, write)) : ¬CashLaw capital after := by
  rcases call_cases hc with ⟨-, -, hdup⟩ | ⟨_, hx, -⟩ | ⟨_, price, hx, hfills, rfl, -⟩
  · cases hid : args.clientOrderId <;> simp [Ignores, duplicateOf, hid, h.clientOrders] at hdup
  · cases hx
  cases hx
  have hheld : engine.heldQuantity args.request.symbol = 0 := by simp [heldQuantity, h.positions]
  have hbuy : args.request.side = .buy := by
    cases hs : args.request.side with
    | buy => rfl
    | sell => exact absurd (hheld ▸ hfills.held hs) (not_le.mpr hfills.quantity_pos)
  have hworth : 0 < args.request.quantity * price := mul_pos hfills.quantity_pos hfills.price_pos
  intro hlaw
  simp only [CashLaw, h.tradedValue_record, hbuy, if_true, reduceCtorEq, if_false, add_zero,
    record_cashBalance, hcash] at hlaw
  linarith

/-- A list that executes something has a first call that does. -/
theorem exists_first_execute {list : List EngineCall}
    (h : ¬∀ call ∈ list, isMarketEvent call = true) : ∃ events args rest,
      list = events ++ .execute args :: rest ∧ ∀ call ∈ events, isMarketEvent call = true := by
  have hfound : (list.find? fun call => !isMarketEvent call).isSome := by
    rw [List.find?_isSome]
    simpa using h
  obtain ⟨first, hfirst⟩ := Option.isSome_iff_exists.mp hfound
  obtain ⟨hexec, events, rest, rfl, hevents⟩ := List.find?_eq_some_iff_append.mp hfirst
  cases first with
  | marketEvent event => simp [isMarketEvent] at hexec
  | execute args => exact ⟨events, args, rest, rfl, fun call hmem => by simpa using hevents call hmem⟩

/-- The law holds in every state of a run exactly when the run executes nothing. -/
theorem cashLaw_run_iff {capital : Decimal} {list : List EngineCall} {engine : PaperExecutionEngine}
    (h : (initial capital).calls list = .ok engine) :
    (∀ pre after, pre <+: list → (initial capital).calls pre = .ok after → CashLaw capital after) ↔
      ∀ call ∈ list, isMarketEvent call = true := by
  constructor
  · intro hlaw
    by_contra hsome
    obtain ⟨events, args, rest, rfl, hevents⟩ := exists_first_execute hsome
    obtain ⟨before, hbefore, hrest⟩ := exists_of_calls_append h
    simp only [calls] at hrest
    cases hcall : before.call (.execute args) with
    | error e => rw [hcall] at hrest; cases hrest
    | ok outcome =>
      have hunfilled := calls_unfilled (initial_unfilled capital) hevents hbefore
      refine hunfilled.execute_breaks (calls_cashBalance hbefore) hcall
        (hlaw (events ++ [.execute args]) outcome.1 ⟨rest, by simp⟩ ?_)
      rw [calls_append_of_ok hbefore]
      simp [calls, hcall]
  · intro hevents pre after hpre hafter
    have hunfilled := calls_unfilled (initial_unfilled capital)
      (fun call hmem => hevents call (hpre.subset hmem)) hafter
    exact hunfilled.cashLaw (calls_cashBalance hafter)

/-- A call at the current mark keeps the equity exactly when it is a retry. -/
theorem equityAt_execute_iff {engine : PaperExecutionEngine} {args : ExecuteArguments}
    {done : Executed} {mark : String → Decimal} (h : engine.execute args = .ok done)
    (hmark : done.result.price = mark args.request.symbol) :
    done.engine.equityAt mark = engine.equityAt mark ↔
      (engine.duplicateOf args.clientOrderId).isSome := by
  rcases execute_cases h with ⟨orderId, hdup, -, hengine, -⟩ | ⟨price, hfills, rfl⟩
  · simp [hdup, hengine]
  · have hworth : 0 < args.request.quantity * mark args.request.symbol := by
      rw [← hmark]
      exact mul_pos hfills.quantity_pos hfills.price_pos
    rw [equityAt_filledAt, hfills.new]
    cases args.request.side <;> simp [hworth.ne']

theorem call_nonnegativePositions {engine after : PaperExecutionEngine} {call : EngineCall}
    {write : Option ScheduledWrite} (h : engine.NonnegativePositions)
    (hc : engine.call call = .ok (after, write)) : after.NonnegativePositions := by
  rcases call_cases hc with ⟨rfl, -⟩ | ⟨_, -, -, rfl, -⟩ | ⟨args, price, -, hfills, rfl, -⟩
  · exact h
  · exact h
  · have hheld : 0 ≤ engine.heldQuantity args.request.symbol := h.heldQuantity _
    intro symbol position hget
    simp only [record, Dict.get?_set] at hget
    split at hget
    · cases hget
      rw [executionAt_quantity]
      cases hs : args.request.side with
      | buy => exact add_nonneg hheld hfills.quantity_pos.le
      | sell => exact sub_nonneg.mpr (hfills.held hs)
    · exact h symbol position hget

theorem calls_nonnegativePositions {capital : Decimal} {list : List EngineCall}
    {engine : PaperExecutionEngine} (h : (initial capital).calls list = .ok engine) :
    engine.NonnegativePositions :=
  calls_invariant (fun _ _ _ _ => call_nonnegativePositions)
    (fun _ _ hget => by simp [initial] at hget) h

/-- The equity of a snapshot before and after a call at the last close is the same exactly when the
call is a retry. -/
theorem snapshot_execute_iff {engine : PaperExecutionEngine} {args : ExecuteArguments}
    {done : Executed} (hheld : engine.NonnegativePositions) (h : engine.execute args = .ok done)
    (hprice : args.marketPrice = none) (tracker : PaperPnLTracker) (timestamp : Datetime)
    (sequence : ℤ) :
    (tracker.recordSnapshot timestamp sequence (some done.engine) none none).1.equity =
        (tracker.recordSnapshot timestamp sequence (some engine) none none).1.equity ↔
      (engine.duplicateOf args.clientOrderId).isSome := by
  simp only [PaperPnLTracker.recordSnapshot_equity]
  rcases execute_cases h with ⟨orderId, hdup, -, hengine, -⟩ | ⟨price, hfills, rfl⟩
  · simp [hdup, hengine]
  · obtain ⟨candle, hlast, rfl⟩ := hfills.lastClose hprice
    have hcall : engine.call (.execute args) =
        .ok ((engine.filledAt args candle.close).engine,
          some (.persistExecution (engine.executionAt args candle.close))) := by
      simp [PaperExecutionEngine.call, h]
    rw [snapshot_equity_eq _ (call_nonnegativePositions hheld hcall) hlast,
      snapshot_equity_eq _ hheld hlast]
    exact equityAt_execute_iff h rfl

/-- The cash law holds throughout a run from a fresh engine exactly when the run executes nothing,
and a call at the current mark keeps the equity, the snapshots' included, exactly when it repeats a
known client order id. -/
theorem paper_cash_accounting (capital : Decimal) (list : List EngineCall)
    (engine : PaperExecutionEngine) (h : (initial capital).calls list = .ok engine) :
    ((∀ pre after, pre <+: list → (initial capital).calls pre = .ok after →
        CashLaw capital after) ↔ ∀ call ∈ list, isMarketEvent call = true) ∧
      (∀ args done mark, engine.execute args = .ok done →
        done.result.price = mark args.request.symbol →
        (done.engine.equityAt mark = engine.equityAt mark ↔
          (engine.duplicateOf args.clientOrderId).isSome)) ∧
      ∀ args done, engine.execute args = .ok done → args.marketPrice = none →
        ∀ (tracker : PaperPnLTracker) (timestamp : Datetime) (sequence : ℤ),
          ((tracker.recordSnapshot timestamp sequence (some done.engine) none none).1.equity =
              (tracker.recordSnapshot timestamp sequence (some engine) none none).1.equity ↔
            (engine.duplicateOf args.clientOrderId).isSome) :=
  ⟨cashLaw_run_iff h, fun _ _ _ hdone hmark => equityAt_execute_iff hdone hmark,
    fun _ _ hdone hprice => snapshot_execute_iff (calls_nonnegativePositions h) hdone hprice⟩

/-- The purchase of one unit at a price of 100. -/
def purchase : EngineCall :=
  .execute { request := ⟨"BTCUSDT", .buy, 1⟩, marketPrice := some 100, now := 0 }

/-- After one purchase the cash is still the capital. -/
theorem cashLaw_fails : ¬∀ (capital : Decimal) (list : List EngineCall)
    (engine : PaperExecutionEngine), (initial capital).calls list = .ok engine →
      CashLaw capital engine := by
  intro h
  have hbought := h 1000 [purchase] _ rfl
  revert hbought
  simp only [CashLaw]
  decide +kernel

/-- `paper_cash_accounting` for a run of one purchase: the law fails in one of its states. -/
theorem purchase_breaks_cashLaw :
    ¬∀ pre after, pre <+: [purchase] → (initial 1000).calls pre = .ok after →
      CashLaw 1000 after :=
  fun h => absurd ((paper_cash_accounting 1000 [purchase] _ rfl).1.mp h) (by decide)

end CryptoTrading.PaperCash
