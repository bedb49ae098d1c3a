import CryptoTrading.Exchange.RestoredEngine

/-! `execute`, statement by statement: what it raises it raises before it changes anything, and a client
order id that it has seen, in this process or in one whose records it has restored, changes nothing. -/

namespace CryptoTrading

open Kit

/-- The engine in the course of a call, and the executions whose persistence it has scheduled. -/
structure EngineMemory where
  engine : PaperExecutionEngine
  scheduled : List Execution := []

/-- What a method of the engine returns or raises; what it has changed before it raises stays changed. -/
abbrev EngineMethod := ExceptT ExecutionError (StateM EngineMemory)

/-- What a method returns or raises, and the memory that it leaves. -/
def EngineMethod.from {α : Type} (x : EngineMethod α) (memory : EngineMemory) :
    Except ExecutionError α × EngineMemory :=
  x.run.run memory

namespace PaperExecutionEngine

/-- What an expression returns or raises. -/
def evaluate {α : Type} (x : Except ExecutionError α) : EngineMethod α := ExceptT.mk (pure x)

/-- `raise error`, when `p` holds. -/
def raiseIf (p : Prop) [Decidable p] (error : ExecutionError) : EngineMethod Unit :=
  evaluate (if p then .error error else .ok ())

/-- An assignment to the engine. -/
def assign (f : PaperExecutionEngine → PaperExecutionEngine) : EngineMethod Unit :=
  modify fun memory => { memory with engine := f memory.engine }

/-- `client_order_id or str(uuid4())`. -/
def drawOrderId (clientOrderId : Option String) : EngineMethod Identifier := do
  let memory ← get
  let (orderId, uuids) := orderIdentity clientOrderId memory.engine.uuids
  assign fun engine => { engine with uuids }
  return orderId

/-- `str(uuid4())`. -/
def drawFillId : EngineMethod Identifier := do
  let memory ← get
  assign fun engine => { engine with uuids := engine.uuids + 1 }
  return .uuid memory.engine.uuids

/-- The statements of `execute` after the duplicate check. -/
def executeNew (args : ExecuteArguments) : EngineMethod ExecutionResult := do
  let request := args.request
  let memory ← get
  let marketPrice ← evaluate (memory.engine.marketPriceOf args.marketPrice)
  let oldQty := memory.engine.heldQuantity request.symbol
  raiseIf (request.side = .sell ∧ request.quantity > oldQty)
    (.sellExceedsPosition request.quantity oldQty request.symbol)
  let fill ← evaluate (FillSimulator.execute request.quantity marketPrice args.now)
  let orderId ← drawOrderId args.clientOrderId
  let fillId ← drawFillId
  let memory ← get
  let oldQty := memory.engine.heldQuantity request.symbol
  let oldPrice := memory.engine.heldPrice request.symbol
  raiseIf (request.side = .sell ∧ fill.quantity > oldQty)
    (.sellExceedsPosition fill.quantity oldQty request.symbol)
  let position := positionAfter request fill oldQty oldPrice
  assign fun engine => { engine with positions := engine.positions.set request.symbol position }
  let order : PaperOrderState :=
    { orderId, symbol := request.symbol, side := request.side.value, quantity := fill.quantity
      status := ExecutionStatus.filled.value, createdAt := args.now
      clientOrderId := args.clientOrderId, runId := args.runId, signalId := args.signalId }
  let fillState : PaperFillState :=
    { fillId, orderId, symbol := request.symbol, quantity := fill.quantity, price := fill.price
      executedAt := args.now, runId := args.runId, signalId := args.signalId }
  assign fun engine => { engine with orders := engine.orders.set orderId order }
  assign fun engine => { engine with fills := engine.fills.set fillId fillState }
  assign fun engine => { engine with
    clientOrders := match args.clientOrderId with
      | none => engine.clientOrders
      | some id => engine.clientOrders.set id orderId }
  modify fun memory =>
    { memory with scheduled := memory.scheduled ++ [⟨order, fillState, position⟩] }
  return ⟨.filled, request.symbol, request.side, fill.quantity, fill.price⟩

/-- The statements of `execute`. -/
def executeStatements (args : ExecuteArguments) : EngineMethod ExecutionResult := do
  let memory ← get
  match memory.engine.duplicateOf args.clientOrderId with
  | some orderId => evaluate (memory.engine.executeDuplicate orderId)
  | none => executeNew args

/-- The statements, run from an engine that has scheduled nothing. -/
def runStatements (engine : PaperExecutionEngine) (args : ExecuteArguments) :
    Except ExecutionError ExecutionResult × EngineMemory :=
  (executeStatements args).from ⟨engine, []⟩

variable {engine : PaperExecutionEngine} {args : ExecuteArguments}

section Methods

variable {α β : Type} {memory after : EngineMemory}

theorem from_bind_ok {x : EngineMethod α} {a : α} (h : x.from memory = (.ok a, after))
    (f : α → EngineMethod β) : (x >>= f).from memory = (f a).from after := by
  have hrun : x.run.run memory = (.ok a, after) := h
  simp only [EngineMethod.from, ExceptT.run_bind, StateT.run_bind, hrun]
  rfl

theorem from_bind_error {x : EngineMethod α} {error : ExecutionError}
    (h : x.from memory = (.error error, after)) (f : α → EngineMethod β) :
    (x >>= f).from memory = (.error error, after) := by
  have hrun : x.run.run memory = (.error error, after) := h
  simp only [EngineMethod.from, ExceptT.run_bind, StateT.run_bind, hrun]
  rfl

theorem from_evaluate {x : Except ExecutionError α} :
    (evaluate x).from memory = (x, memory) := rfl

theorem from_raiseIf_pos {p : Prop} [Decidable p] {error : ExecutionError} (h : p) :
    (raiseIf p error).from memory = (.error error, memory) := by
  rw [raiseIf, from_evaluate, if_pos h]

theorem from_raiseIf_neg {p : Prop} [Decidable p] {error : ExecutionError} (h : ¬p) :
    (raiseIf p error).from memory = (.ok (), memory) := by
  rw [raiseIf, from_evaluate, if_neg h]

theorem from_drawOrderId {clientOrderId : Option String} :
    (drawOrderId clientOrderId).from memory =
      (.ok (orderIdentity clientOrderId memory.engine.uuids).1,
        { memory with engine := { memory.engine with
          uuids := (orderIdentity clientOrderId memory.engine.uuids).2 } }) := rfl

theorem from_drawFillId : drawFillId.from memory = (.ok (.uuid memory.engine.uuids),
    { memory with engine := { memory.engine with uuids := memory.engine.uuids + 1 } }) := rfl

theorem from_get : (get : EngineMethod EngineMemory).from memory = (.ok memory, memory) := rfl

end Methods

/-- The statements after the last check record the execution. -/
theorem executeNew_eq (hnew : engine.duplicateOf args.clientOrderId = none) :
    (executeNew args).from ⟨engine, []⟩ =
      match engine.execute args with
      | .error error => (.error error, ⟨engine, []⟩)
      | .ok done => (.ok done.result, ⟨done.engine, done.scheduled.toList⟩) := by
  simp only [execute, hnew]
  rw [executeNew, from_bind_ok from_get]
  cases hprice : engine.marketPriceOf args.marketPrice with
  | error error => exact from_bind_error from_evaluate _
  | ok price =>
    rw [from_bind_ok from_evaluate]
    simp only
    by_cases hheld : args.request.side = .sell ∧
        args.request.quantity > engine.heldQuantity args.request.symbol
    · rw [if_pos hheld]
      exact from_bind_error (from_raiseIf_pos hheld) _
    rw [if_neg hheld, from_bind_ok (from_raiseIf_neg hheld)]
    cases hfill : FillSimulator.execute args.request.quantity price args.now with
    | error error => exact from_bind_error from_evaluate _
    | ok fill =>
      rw [from_bind_ok from_evaluate]
      -- The simulator fills the whole quantity, and so the second check passes as the first did.
      have hquantity : fill.quantity = args.request.quantity := by
        unfold FillSimulator.execute at hfill
        split at hfill
        · cases hfill
        · split at hfill <;> cases hfill
          rfl
      have hagain : ¬(args.request.side = .sell ∧
          fill.quantity > engine.heldQuantity args.request.symbol) := by rwa [hquantity]
      rw [from_bind_ok from_drawOrderId, from_bind_ok from_drawFillId, from_bind_ok from_get]
      refine (from_bind_ok (from_raiseIf_neg hagain) _).trans ?_
      simp only
      rw [if_neg hagain]
      rfl

/-- The statements return what `execute` does, and leave its engine; where they raise they have changed
nothing. -/
theorem runStatements_eq (engine : PaperExecutionEngine) (args : ExecuteArguments) :
    engine.runStatements args =
      match engine.execute args with
      | .error error => (.error error, ⟨engine, []⟩)
      | .ok done => (.ok done.result, ⟨done.engine, done.scheduled.toList⟩) := by
  rw [runStatements, executeStatements, from_bind_ok from_get]
  cases hdup : engine.duplicateOf args.clientOrderId with
  | none => exact executeNew_eq hdup
  | some orderId =>
    simp only [execute, hdup, from_evaluate]
    cases engine.executeDuplicate orderId <;> rfl

/-! ### The records of a reachable engine -/

/-- Every order has one fill and a side that there is, and no position is negative. -/
structure Settled (engine : PaperExecutionEngine) : Prop extends Linked engine where
  filled : ∀ id, (engine.orders.get? id).isSome → ∃ fillId fill,
    engine.fills.get? fillId = some fill ∧ fill.orderId = id
  once : ∀ id id' fill fill', engine.fills.get? id = some fill → engine.fills.get? id' = some fill' →
    fill.orderId = fill'.orderId → id = id'
  sides : ∀ id order, engine.orders.get? id = some order → (OrderSide.ofValue? order.side).isSome
  nonneg : ∀ symbol position, engine.positions.get? symbol = some position → 0 ≤ position.quantity

/-- An engine that has no records yet. -/
structure Blank (engine : PaperExecutionEngine) : Prop where
  positions : engine.positions = .empty
  orders : engine.orders = .empty
  fills : engine.fills = .empty
  clientOrders : engine.clientOrders = .empty

theorem Blank.settled (h : engine.Blank) : engine.Settled := by
  refine ⟨linked_empty h.positions h.orders h.fills h.clientOrders, ?_, ?_, ?_, ?_⟩ <;>
    simp [h.positions, h.orders, h.fills]

theorem Settled.accept (h : engine.Settled) (event : MarketEvent) : (engine.accept event).Settled :=
  ⟨h.toLinked.accept event, h.filled, h.once, h.sides, h.nonneg⟩

/-- A fill is the only one of its order. -/
theorem Settled.record {price : Decimal} (h : engine.Settled) (hfills : engine.Fills args price) :
    (engine.record args (engine.executionAt args price)).Settled := by
  have hnew := h.toLinked.order_new hfills
  have hfree := h.toLinked.fill_new args price
  have hunfilled : ∀ id fill, engine.fills.get? id = some fill →
      fill.orderId ≠ (engine.executionAt args price).order.orderId := by
    intro id fill hget hid
    have horder := h.fillOrders id fill hget
    rw [hid, hnew] at horder
    cases horder
  refine ⟨h.toLinked.record hfills, fun id hsome => ?_, fun id id' fill fill' hget hget' hsame => ?_,
    fun id order hget => ?_, fun symbol position hget => ?_⟩
  · rw [record_orders_get?] at hsome
    split at hsome
    · rename_i hid
      exact ⟨_, (engine.executionAt args price).fill, by rw [record_fills_get?, if_pos rfl], hid⟩
    · obtain ⟨fillId, fill, hfill, rfl⟩ := h.filled id hsome
      refine ⟨fillId, fill, ?_, rfl⟩
      rw [record_fills_get?, if_neg]
      · exact hfill
      · rintro rfl
        rw [hfree] at hfill
        cases hfill
  · rw [record_fills_get?] at hget hget'
    split at hget <;> split at hget'
    · rename_i hid hid'
      exact hid.symm.trans hid'
    · cases hget
      exact absurd hsame.symm (hunfilled id' fill' hget')
    · cases hget'
      exact absurd hsame (hunfilled id fill hget)
    · exact h.once id id' fill fill' hget hget' hsame
  · rw [record_orders_get?] at hget
    split at hget
    · cases hget
      show (OrderSide.ofValue? args.request.side.value).isSome
      rw [OrderSide.ofValue?_value]
      rfl
    · exact h.sides id order hget
  · simp only [PaperExecutionEngine.record, Dict.get?_set] at hget
    split at hget
    · cases hget
      have hheld : 0 ≤ engine.heldQuantity args.request.symbol := by
        unfold heldQuantity
        cases hposition : engine.positions.get? args.request.symbol with
        | none => exact le_rfl
        | some old => exact h.nonneg _ old hposition
      rw [executionAt_quantity]
      cases hside : args.request.side with
      | buy => exact add_nonneg hheld hfills.quantity_pos.le
      | sell => exact sub_nonneg.mpr (hfills.held hside)
    · exact h.nonneg symbol position hget

/-- The same records in any order are settled too. -/
theorem Settled.of_agrees {other : PaperExecutionEngine} (h : engine.Settled)
    (hlinked : other.Linked) (horders : other.orders.Agrees engine.orders)
    (hfills : other.fills.Agrees engine.fills)
    (hpositions : other.positions.Agrees engine.positions) : other.Settled where
  toLinked := hlinked
  filled id hsome := by
    rw [horders] at hsome
    obtain ⟨fillId, fill, hfill, hid⟩ := h.filled id hsome
    exact ⟨fillId, fill, (hfills fillId).trans hfill, hid⟩
  once id id' fill fill' hget hget' hsame :=
    h.once id id' fill fill' ((hfills id).symm.trans hget) ((hfills id').symm.trans hget') hsame
  sides id order hget := h.sides id order ((horders id).symm.trans hget)
  nonneg symbol position hget := h.nonneg symbol position ((hpositions symbol).symm.trans hget)

/-! ### The steps of an engine -/

/-- A repository that holds the records of an engine. -/
structure Holds (repository : PaperStateRepository) (engine : PaperExecutionEngine) : Prop where
  orders : repository.orders.Agrees engine.orders
  fills : repository.fills.Agrees engine.fills
  positions : repository.positions.Agrees engine.positions

/-- What an engine goes through: a call of `execute`, which may raise; a market event; a restore from a
repository that holds its records, of which some load may raise; and a restore of the engine of another
process, which draws identities of its own, from such a repository. -/
inductive Step : PaperExecutionEngine → PaperExecutionEngine → Prop
  | execute (engine : PaperExecutionEngine) (args : ExecuteArguments) :
      Step engine (engine.runStatements args).2.engine
  | marketEvent (engine : PaperExecutionEngine) (event : MarketEvent) :
      Step engine (engine.attempt (.marketEvent event)).1
  | restore (engine : PaperExecutionEngine) {repository : PaperStateRepository}
      (raises : LoadCall → Bool) (holds : Holds repository engine) :
      Step engine (engine.restoreState repository raises).1
  | restart (engine other : PaperExecutionEngine) {repository : PaperStateRepository}
      (holds : Holds repository engine) (undrawn : Undrawn other.uuids repository) :
      Step engine (other.restoreState repository fun _ => false).1

/-- The records of two engines that agree. -/
structure RecordsAgree (engine other : PaperExecutionEngine) : Prop where
  orders : engine.orders.Agrees other.orders
  fills : engine.fills.Agrees other.fills
  positions : engine.positions.Agrees other.positions
  clientOrders : engine.clientOrders.Agrees other.clientOrders

theorem Settled.of_recordsAgree {other : PaperExecutionEngine} (h : engine.Settled)
    (hsame : RecordsAgree other engine)
    (horderDrawn : ∀ n, (other.orders.get? (.uuid n)).isSome → n < other.uuids)
    (hfillDrawn : ∀ n, (other.fills.get? (.uuid n)).isSome → n < other.uuids) : other.Settled :=
  h.of_agrees (h.toLinked.of_agrees hsame.orders hsame.fills hsame.positions hsame.clientOrders
    horderDrawn hfillDrawn) hsame.orders hsame.fills hsame.positions

section Restore

variable {other : PaperExecutionEngine} {repository : PaperStateRepository}

theorem Holds.synced (holds : Holds repository engine) (h : engine.Settled) :
    System.Synced engine repository :=
  ⟨h.toWellFormed, holds.orders, holds.fills, holds.positions⟩

theorem Holds.recordsAgree_reloaded (holds : Holds repository engine) (h : engine.Settled) :
    RecordsAgree (other.reloaded repository) engine :=
  ⟨reloaded_orders h.toLinked (holds.synced h), reloaded_fills h.toLinked (holds.synced h),
    reloaded_positions h.toLinked (holds.synced h),
    reloaded_clientOrders h.toLinked (holds.synced h)⟩

/-- A restore from its own records leaves an engine with these, whichever load raises. -/
theorem Holds.recordsAgree_restoreState (holds : Holds repository engine) (h : engine.Settled)
    (raises : LoadCall → Bool) :
    RecordsAgree (engine.restoreState repository raises).1 engine ∧
      (engine.restoreState repository raises).1.uuids = engine.uuids := by
  have hreloaded : RecordsAgree (engine.reloaded repository) engine := holds.recordsAgree_reloaded h
  have hstate : RecordsAgree (repository.runtimeState.elim engine engine.withState) engine ∧
      (repository.runtimeState.elim engine engine.withState).uuids = engine.uuids := by
    cases repository.runtimeState <;>
      exact ⟨⟨fun _ => rfl, fun _ => rfl, fun _ => rfl, fun _ => rfl⟩, rfl⟩
  unfold restoreState
  split
  · exact ⟨⟨fun _ => rfl, fun _ => rfl, fun _ => rfl, fun _ => rfl⟩, rfl⟩
  simp only
  split
  · exact hstate
  split
  · exact ⟨⟨hstate.1.orders, hstate.1.fills, hreloaded.positions, hstate.1.clientOrders⟩, hstate.2⟩
  split
  · exact ⟨⟨hstate.1.orders, hstate.1.fills, hreloaded.positions, hstate.1.clientOrders⟩, hstate.2⟩
  · exact ⟨hreloaded, reloaded_uuids⟩

end Restore

/-- What a step leaves: the engine after a call, or one whose records agree. -/
theorem Step.cases {after : PaperExecutionEngine} (h : engine.Settled) (hstep : Step engine after) :
    (∃ call, after = (engine.attempt call).1) ∨ RecordsAgree after engine ∧ after.Settled := by
  cases hstep with
  | execute args =>
    refine Or.inl ⟨.execute args, ?_⟩
    rw [runStatements_eq]
    cases hdone : engine.execute args with
    | error error => rw [attempt_execute_error hdone]
    | ok done => rw [attempt_execute_ok hdone]
  | marketEvent event => exact Or.inl ⟨.marketEvent event, rfl⟩
  | restore raises holds =>
    obtain ⟨hsame, huuids⟩ := holds.recordsAgree_restoreState h raises
    refine Or.inr ⟨hsame, h.of_recordsAgree hsame (fun n hsome => ?_) fun n hsome => ?_⟩
    · rw [hsame.orders] at hsome
      rw [huuids]
      exact h.orderDrawn n hsome
    · rw [hsame.fills] at hsome
      obtain ⟨drawn, hdrawn, hid⟩ := h.fillDrawn _ hsome
      cases hid
      rwa [huuids]
  | @restart other repository holds undrawn =>
    rw [restoreState_eq_reloaded h.toLinked (holds.synced h)]
    have hsame : RecordsAgree (other.reloaded repository) engine := holds.recordsAgree_reloaded h
    refine Or.inr ⟨hsame, h.of_recordsAgree hsame (fun n hsome => ?_) fun n hsome => ?_⟩
    · rw [hsame.orders, ← holds.orders] at hsome
      rw [reloaded_uuids]
      exact undrawn.orders n hsome
    · rw [hsame.fills, ← holds.fills] at hsome
      rw [reloaded_uuids]
      exact undrawn.fills n hsome

theorem Settled.step {after : PaperExecutionEngine} (h : engine.Settled) (hstep : Step engine after) :
    after.Settled := by
  rcases hstep.cases h with ⟨call, rfl⟩ | ⟨-, hsettled⟩
  · rcases engine.attempt_cases call with hcall | ⟨event, -, -, hcall⟩ |
      ⟨args, price, -, hfills, hcall⟩
    · rw [hcall]; exact h
    · rw [hcall]; exact h.accept event
    · rw [hcall]; exact h.record hfills
  · exact hsettled

theorem Settled.reached {start : PaperExecutionEngine} (h : start.Settled)
    (hreach : Relation.ReflTransGen Step start engine) : engine.Settled := by
  induction hreach with
  | refl => exact h
  | tail _ hstep ih => exact ih.step hstep

/-! ### What a client order id recalls -/

/-- The order of a client and its fill give this result. -/
def Recalls (engine : PaperExecutionEngine) (client : String) (result : ExecutionResult) : Prop :=
  ∃ orderId order fillId fill, engine.clientOrders.get? client = some orderId ∧
    engine.orders.get? orderId = some order ∧ engine.fills.get? fillId = some fill ∧
    fill.orderId = orderId ∧ OrderSide.ofValue? order.side = some result.side ∧
    result = ⟨.filled, order.symbol, result.side, fill.quantity, fill.price⟩

theorem Recalls.of_recordsAgree {other : PaperExecutionEngine} {client : String}
    {result : ExecutionResult} (h : engine.Recalls client result)
    (hsame : RecordsAgree other engine) : other.Recalls client result := by
  obtain ⟨orderId, order, fillId, fill, hclient, horder, hfill, hrest⟩ := h
  exact ⟨orderId, order, fillId, fill, (hsame.clientOrders client).trans hclient,
    (hsame.orders orderId).trans horder, (hsame.fills fillId).trans hfill, hrest⟩

theorem Recalls.known {client : String} {result : ExecutionResult}
    (h : engine.Recalls client result) (hclient : args.clientOrderId = some client) :
    engine.duplicateOf args.clientOrderId ≠ none := by
  obtain ⟨orderId, -, -, -, hknown, -⟩ := h
  rw [hclient, duplicateOf, Option.bind_some, hknown]
  exact Option.some_ne_none _

/-- A fill for another client leaves what a client order id recalls. -/
theorem Recalls.record {price : Decimal} {client : String} {result : ExecutionResult}
    (h : engine.Recalls client result) (hsettled : engine.Settled)
    (hfills : engine.Fills args price) :
    (engine.record args (engine.executionAt args price)).Recalls client result := by
  have hother : args.clientOrderId ≠ some client := fun hclient => h.known hclient hfills.new
  have hnew := hsettled.toLinked.order_new hfills
  have hfree := hsettled.toLinked.fill_new args price
  obtain ⟨orderId, order, fillId, fill, hclient, horder, hfill, hrest⟩ := h
  refine ⟨orderId, order, fillId, fill, ?_, ?_, ?_, hrest⟩
  · simp only [PaperExecutionEngine.record]
    cases hid : args.clientOrderId with
    | none => exact hclient
    | some id => rw [Dict.get?_set_ne _ _ fun he => hother (hid.trans (congrArg some he))]; exact hclient
  · rw [record_orders_get?, if_neg]
    · exact horder
    · rintro rfl
      rw [hnew] at horder
      cases horder
  · rw [record_fills_get?, if_neg]
    · exact hfill
    · rintro rfl
      rw [hfree] at hfill
      cases hfill

theorem Recalls.step {after : PaperExecutionEngine} {client : String} {result : ExecutionResult}
    (h : engine.Recalls client result) (hsettled : engine.Settled) (hstep : Step engine after) :
    after.Recalls client result := by
  rcases hstep.cases hsettled with ⟨call, rfl⟩ | ⟨hsame, -⟩
  · rcases engine.attempt_cases call with hcall | ⟨event, -, -, hcall⟩ |
      ⟨args, price, -, hfills, hcall⟩
    · rw [hcall]; exact h
    · rw [hcall]; exact h
    · rw [hcall]; exact h.record hsettled hfills
  · exact h.of_recordsAgree hsame

theorem Recalls.reached {later : PaperExecutionEngine} {client : String} {result : ExecutionResult}
    (h : engine.Recalls client result) (hsettled : engine.Settled)
    (hreach : Relation.ReflTransGen Step engine later) : later.Recalls client result := by
  induction hreach with
  | refl => exact h
  | tail hbefore hstep ih => exact ih.step (hsettled.reached hbefore) hstep

/-- The order of a known client order id has one fill, which a retry finds. -/
theorem Settled.find_fill (h : engine.Settled) {fillId : Identifier} {fill : PaperFillState}
    (hfill : engine.fills.get? fillId = some fill) :
    (engine.fills.values.find? fun item => decide (item.orderId = fill.orderId)) = some fill := by
  obtain ⟨found, hfound⟩ : ∃ found, (engine.fills.values.find? fun item =>
      decide (item.orderId = fill.orderId)) = some found :=
    Option.isSome_iff_exists.mp (List.find?_isSome.mpr
      ⟨fill, Dict.mem_values_iff.mpr ⟨fillId, hfill⟩, decide_eq_true rfl⟩)
  have hown : found.orderId = fill.orderId := by simpa using List.find?_some hfound
  obtain ⟨foundId, hget⟩ := Dict.mem_values_iff.mp (List.mem_of_find?_eq_some hfound)
  cases h.once foundId fillId found fill hget hfill hown
  rw [hfill] at hget
  rw [hfound, Option.some.inj hget]

/-- A retry returns what the client order id recalls, and changes nothing. -/
theorem Recalls.execute {client : String} {result : ExecutionResult}
    (h : engine.Recalls client result) (hsettled : engine.Settled)
    (hclient : args.clientOrderId = some client) :
    engine.execute args = .ok ⟨result, engine, none⟩ := by
  obtain ⟨orderId, order, fillId, fill, hknown, horder, hfill, rfl, hside, hresult⟩ := h
  have hdup : engine.duplicateOf args.clientOrderId = some fill.orderId := by
    rw [hclient, duplicateOf, Option.bind_some, hknown]
  rw [PaperExecutionEngine.execute, hdup]
  simp only [executeDuplicate, horder, hsettled.find_fill hfill, hside]
  rw [hresult]
  rfl

/-- What a client's call returns is what its client order id recalls from then on. -/
theorem Settled.recalls (h : engine.Settled) {done : Executed} {client : String}
    (hdone : engine.execute args = .ok done) (hclient : args.clientOrderId = some client) :
    done.engine.Recalls client done.result := by
  rcases execute_cases hdone with ⟨orderId, hdup, hresult, hsame, -⟩ | ⟨price, hfills, rfl⟩
  · rw [hclient, duplicateOf, Option.bind_some] at hdup
    obtain ⟨order, horder, -⟩ := h.clientOrder client orderId hdup
    obtain ⟨fillId, fill, hfill, rfl⟩ := h.filled orderId (by rw [horder]; rfl)
    obtain ⟨side, hside⟩ := Option.isSome_iff_exists.mp (h.sides fill.orderId order horder)
    simp only [executeDuplicate, horder, h.find_fill hfill, hside] at hresult
    rw [hsame, ← Except.ok.inj hresult]
    exact ⟨fill.orderId, order, fillId, fill, hdup, horder, hfill, rfl, hside, rfl⟩
  · refine ⟨_, (engine.executionAt args price).order, _, (engine.executionAt args price).fill,
      ?_, Dict.get?_set_self _ _ _, Dict.get?_set_self _ _ _, rfl, OrderSide.ofValue?_value _, rfl⟩
    simp only [filledAt_engine, PaperExecutionEngine.record, hclient, Dict.get?_set_self]

/-! ### Atomic and idempotent -/

/-- The positions, orders, fills and client order ids are those that were there before. -/
def KeepsRecords (engine after : PaperExecutionEngine) : Prop :=
  after.positions = engine.positions ∧ after.orders = engine.orders ∧ after.fills = engine.fills ∧
    after.clientOrders = engine.clientOrders

/-- There is one order more, with its fill, and both say what was returned. -/
def RecordsOne (engine after : PaperExecutionEngine) (result : ExecutionResult) : Prop :=
  ∃ order fill, after.orders.entries = engine.orders.entries ++ [(order.orderId, order)] ∧
    after.fills.entries = engine.fills.entries ++ [(fill.fillId, fill)] ∧
    fill.orderId = order.orderId ∧ order.symbol = result.symbol ∧
    order.side = result.side.value ∧ fill.quantity = result.quantity ∧ fill.price = result.price

theorem recordsOne_filledAt {price : Decimal} (h : engine.Settled)
    (hfills : engine.Fills args price) :
    engine.RecordsOne (engine.filledAt args price).engine (engine.filledAt args price).result := by
  refine ⟨(engine.executionAt args price).order, (engine.executionAt args price).fill, ?_, ?_, rfl,
    rfl, rfl, rfl, rfl⟩
  · exact Dict.entries_set_of_notMem _ (Dict.get?_eq_none_iff.mp (h.toLinked.order_new hfills))
  · exact Dict.entries_set_of_notMem _ (Dict.get?_eq_none_iff.mp (h.toLinked.fill_new args price))

/-- An engine that is reached from one without records changes nothing where `execute` raises or the
client order id is known, and records one order with its fill where it returns otherwise; a client's
retry, after whatever steps, returns what the client's call returned and changes nothing; and no position
is negative. -/
theorem execute_atomic_idempotent (start engine : PaperExecutionEngine) (hstart : start.Blank)
    (hreach : Relation.ReflTransGen Step start engine) :
    (∀ args error after, engine.runStatements args = (.error error, after) →
        engine.KeepsRecords after.engine ∧ after.scheduled = []) ∧
      (∀ args result after, engine.runStatements args = (.ok result, after) →
        if engine.duplicateOf args.clientOrderId = none then
          engine.RecordsOne after.engine result
        else engine.KeepsRecords after.engine ∧ after.scheduled = []) ∧
      (∀ args client result after, args.clientOrderId = some client →
        engine.runStatements args = (.ok result, after) → ∀ later,
          Relation.ReflTransGen Step after.engine later → ∀ again,
            again.clientOrderId = some client →
              later.runStatements again = (.ok result, ⟨later, []⟩)) ∧
      ∀ symbol position, engine.positions.get? symbol = some position → 0 ≤ position.quantity := by
  have hsettled : engine.Settled := hstart.settled.reached hreach
  refine ⟨fun args error after hrun => ?_, fun args result after hrun => ?_,
    fun args client result after hclient hrun later hlater again hagain => ?_, hsettled.nonneg⟩
  · rw [runStatements_eq] at hrun
    cases hdone : engine.execute args with
    | error raised =>
      rw [hdone] at hrun
      cases hrun
      exact ⟨⟨rfl, rfl, rfl, rfl⟩, rfl⟩
    | ok done => rw [hdone] at hrun; cases hrun
  · rw [runStatements_eq] at hrun
    cases hdone : engine.execute args with
    | error raised => rw [hdone] at hrun; cases hrun
    | ok done =>
      rw [hdone] at hrun
      cases hrun
      rcases execute_cases hdone with ⟨orderId, hdup, -, hsame, hnone⟩ | ⟨price, hfills, rfl⟩
      · rw [if_neg (by rw [hdup]; exact Option.some_ne_none _)]
        simp only [hsame, hnone]
        exact ⟨⟨rfl, rfl, rfl, rfl⟩, rfl⟩
      · rw [if_pos hfills.new]
        exact recordsOne_filledAt hsettled hfills
  · have hstep : Step engine after.engine := by
      have hexecuted := Step.execute engine args
      rwa [hrun] at hexecuted
    rw [runStatements_eq] at hrun
    cases hdone : engine.execute args with
    | error raised => rw [hdone] at hrun; cases hrun
    | ok done =>
      rw [hdone] at hrun
      cases hrun
      have hafter := hsettled.step hstep
      have hrecalls := (hsettled.recalls hdone hclient).reached hafter hlater
      rw [runStatements_eq, hrecalls.execute (hafter.reached hlater) hagain]
      rfl

/-- A client's purchase of one unit at ten. -/
def clientPurchase : ExecuteArguments where
  request := { symbol := "BTCUSDT", side := .buy, quantity := 1 }
  marketPrice := some 10
  clientOrderId := some "first"
  now := 0

/-- `execute_atomic_idempotent` for a retry of that purchase. -/
theorem clientPurchase_retried :
    (runStatements {} clientPurchase).2.engine.runStatements clientPurchase =
      (.ok ⟨.filled, "BTCUSDT", .buy, 1, 10⟩, ⟨(runStatements {} clientPurchase).2.engine, []⟩) := by
  have hfirst : runStatements {} clientPurchase =
      (.ok ⟨.filled, "BTCUSDT", .buy, 1, 10⟩, (runStatements {} clientPurchase).2) := by
    rw [Prod.ext_iff]
    exact ⟨by decide +kernel, rfl⟩
  exact (execute_atomic_idempotent {} {} ⟨rfl, rfl, rfl, rfl⟩ .refl).2.2.1 clientPurchase "first" _ _
    rfl hfirst _ .refl clientPurchase rfl

end PaperExecutionEngine

end CryptoTrading
