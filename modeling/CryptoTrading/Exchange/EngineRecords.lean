import CryptoTrading.Exchange.EngineCalls

/-! The invariant of the engine's records: how orders, fills, positions and client order ids belong
together, and that a fill draws identities of its own. -/

namespace CryptoTrading.PaperExecutionEngine

open Kit

/-- Records are kept under their own identities, a client's order is found by its client order id,
and the identities drawn so far are below the count. -/
structure WellFormed (engine : PaperExecutionEngine) : Prop where
  orderIds : ∀ id order, engine.orders.get? id = some order → order.orderId = id
  fillIds : ∀ id fill, engine.fills.get? id = some fill → fill.fillId = id
  symbols : ∀ symbol position, engine.positions.get? symbol = some position →
    position.symbol = symbol
  clients : ∀ id, (engine.orders.get? (.client id)).isSome → (engine.clientOrders.get? id).isSome
  orderDrawn : ∀ n, (engine.orders.get? (.uuid n)).isSome → n < engine.uuids
  fillDrawn : ∀ id, (engine.fills.get? id).isSome → ∃ n < engine.uuids, id = .uuid n

theorem wellFormed_empty {engine : PaperExecutionEngine} (hpositions : engine.positions = .empty)
    (horders : engine.orders = .empty) (hfills : engine.fills = .empty) : engine.WellFormed := by
  constructor <;> simp [hpositions, horders, hfills]

section Fill

variable {engine : PaperExecutionEngine} {args : ExecuteArguments} {price : Decimal}

theorem orderIdentity_count (clientOrderId : Option String) (n : ℕ) :
    n ≤ (orderIdentity clientOrderId n).2 := by
  unfold orderIdentity
  split
  · exact Nat.le_succ n
  · split
    · exact Nat.le_succ n
    · exact le_rfl

/-- The order of a fill is new. -/
theorem WellFormed.order_new (h : engine.WellFormed) (hfills : engine.Fills args price) :
    engine.orders.get? (engine.executionAt args price).order.orderId = none := by
  have hdrawn : engine.orders.get? (.uuid engine.uuids) = none := by
    cases hget : engine.orders.get? (.uuid engine.uuids) with
    | none => rfl
    | some order => exact absurd (h.orderDrawn _ (by simp [hget])) (lt_irrefl _)
  show engine.orders.get? (orderIdentity args.clientOrderId engine.uuids).1 = none
  cases hid : args.clientOrderId with
  | none => exact hdrawn
  | some id =>
    by_cases hempty : id = ""
    · simpa [orderIdentity, hempty] using hdrawn
    · have hnew := hfills.new
      simp only [hid, duplicateOf, Option.bind_some] at hnew
      cases hget : engine.orders.get? (.client id) with
      | none => simpa [orderIdentity, hempty] using hget
      | some order =>
        have := h.clients id (by simp [hget])
        simp [hnew] at this

theorem WellFormed.fill_new (h : engine.WellFormed) (args : ExecuteArguments) (price : Decimal) :
    engine.fills.get? (engine.executionAt args price).fill.fillId = none := by
  show engine.fills.get? (.uuid (orderIdentity args.clientOrderId engine.uuids).2) = none
  cases hget : engine.fills.get? (.uuid (orderIdentity args.clientOrderId engine.uuids).2) with
  | none => rfl
  | some fill =>
    obtain ⟨n, hn, heq⟩ := h.fillDrawn _ (by rw [hget]; rfl)
    cases heq
    exact absurd (orderIdentity_count args.clientOrderId engine.uuids) (not_le.mpr hn)

theorem WellFormed.record (h : engine.WellFormed) :
    (engine.record args (engine.executionAt args price)).WellFormed := by
  have hcount : engine.uuids < (orderIdentity args.clientOrderId engine.uuids).2 + 1 :=
    Nat.lt_succ_of_le (orderIdentity_count _ _)
  refine ⟨fun id order hget => ?_, fun id fill hget => ?_, fun symbol position hget => ?_,
    fun id hsome => ?_, fun n hsome => ?_, fun id hsome => ?_⟩
  · simp only [PaperExecutionEngine.record, Dict.get?_set] at hget
    split at hget
    · rename_i hid; cases hget; exact hid
    · exact h.orderIds id order hget
  · simp only [PaperExecutionEngine.record, Dict.get?_set] at hget
    split at hget
    · rename_i hid; cases hget; exact hid
    · exact h.fillIds id fill hget
  · simp only [PaperExecutionEngine.record, Dict.get?_set] at hget
    split at hget
    · rename_i hid; cases hget; rw [executionAt_symbol, hid]
    · exact h.symbols symbol position hget
  · have hold : (engine.orders.get? (.client id)).isSome →
        ((engine.record args (engine.executionAt args price)).clientOrders.get? id).isSome := by
      intro hsome
      simp only [PaperExecutionEngine.record]
      cases args.clientOrderId with
      | none => exact h.clients id hsome
      | some other =>
        simp only [Dict.get?_set]
        split
        · rfl
        · exact h.clients id hsome
    simp only [PaperExecutionEngine.record, Dict.get?_set] at hsome
    split at hsome
    · rename_i hid
      -- The new order is a client's under the id that it was requested with.
      change (orderIdentity args.clientOrderId engine.uuids).1 = .client id at hid
      simp only [PaperExecutionEngine.record]
      cases hclient : args.clientOrderId with
      | none => simp [orderIdentity, hclient] at hid
      | some other =>
        by_cases hempty : other = ""
        · simp [orderIdentity, hclient, hempty] at hid
        · simp only [orderIdentity, hclient, hempty, if_false, Identifier.client.injEq] at hid
          simp [hid]
    · exact hold hsome
  · simp only [PaperExecutionEngine.record, Dict.get?_set] at hsome ⊢
    split at hsome
    · rename_i hid
      change (orderIdentity args.clientOrderId engine.uuids).1 = .uuid n at hid
      have : n = engine.uuids := by
        unfold orderIdentity at hid
        split at hid
        · cases hid; rfl
        · split at hid <;> cases hid
          rfl
      omega
    · exact (h.orderDrawn n hsome).trans hcount
  · simp only [PaperExecutionEngine.record, Dict.get?_set] at hsome ⊢
    split at hsome
    · rename_i hid
      exact ⟨_, Nat.lt_succ_self _, hid.symm⟩
    · obtain ⟨n, hn, rfl⟩ := h.fillDrawn id hsome
      exact ⟨n, hn.trans hcount, rfl⟩

end Fill

theorem WellFormed.accept {engine : PaperExecutionEngine} (h : engine.WellFormed)
    (event : MarketEvent) : (engine.accept event).WellFormed :=
  ⟨h.orderIds, h.fillIds, h.symbols, h.clients, h.orderDrawn, h.fillDrawn⟩

theorem WellFormed.attempt {engine : PaperExecutionEngine} (h : engine.WellFormed)
    (call : EngineCall) : (engine.attempt call).1.WellFormed := by
  rcases engine.attempt_cases call with hcall | ⟨event, -, -, hcall⟩ | ⟨args, price, -, -, hcall⟩
  · rw [hcall]; exact h
  · rw [hcall]; exact h.accept event
  · rw [hcall]; exact h.record

theorem WellFormed.attemptAll {engine : PaperExecutionEngine} (h : engine.WellFormed)
    (calls : List EngineCall) : (engine.attemptAll calls).WellFormed := by
  induction calls generalizing engine with
  | nil => exact h
  | cons call rest ih => exact ih (h.attempt call)

end CryptoTrading.PaperExecutionEngine
