import CryptoTrading.Exchange.CheckpointConvergence
import CryptoTrading.Exchange.ExecutedOrders

/-! What a new engine restores from a store that holds another engine's records: an engine that has
executed the same. -/

namespace CryptoTrading.PaperExecutionEngine

open Kit

section Agreement

variable {first second : PaperExecutionEngine}

/-- The links between records are kept by any order of the records, as long as the identities drawn
are counted. -/
theorem Linked.of_agrees (h : second.Linked) (horders : first.orders.Agrees second.orders)
    (hfills : first.fills.Agrees second.fills) (hpositions : first.positions.Agrees second.positions)
    (hclients : first.clientOrders.Agrees second.clientOrders)
    (horderDrawn : ∀ n, (first.orders.get? (.uuid n)).isSome → n < first.uuids)
    (hfillDrawn : ∀ n, (first.fills.get? (.uuid n)).isSome → n < first.uuids) : first.Linked where
  orderIds id order hget := h.orderIds id order ((horders id).symm.trans hget)
  fillIds id fill hget := h.fillIds id fill ((hfills id).symm.trans hget)
  symbols symbol position hget := h.symbols symbol position ((hpositions symbol).symm.trans hget)
  clients id hsome := by
    rw [horders] at hsome
    rw [hclients]
    exact h.clients id hsome
  orderDrawn := horderDrawn
  fillDrawn id hsome := by
    obtain ⟨n, -, rfl⟩ := h.fillDrawn id (by rwa [← hfills])
    exact ⟨n, hfillDrawn n hsome, rfl⟩
  fillOrders id fill hget := by
    rw [horders]
    exact h.fillOrders id fill ((hfills id).symm.trans hget)
  clientOf id order client hget hclient := by
    rw [hclients]
    exact h.clientOf id order client ((horders id).symm.trans hget) hclient
  clientOrder client id hget := by
    obtain ⟨order, horder, hclient⟩ := h.clientOrder client id ((hclients client).symm.trans hget)
    exact ⟨order, (horders id).trans horder, hclient⟩

theorem Similar.of_agrees (h : second.Linked) (horders : first.orders.Agrees second.orders)
    (hfills : first.fills.Agrees second.fills) (hpositions : first.positions.Agrees second.positions)
    (hclients : first.clientOrders.Agrees second.clientOrders)
    (horderDrawn : ∀ n, (first.orders.get? (.uuid n)).isSome → n < first.uuids)
    (hfillDrawn : ∀ n, (first.fills.get? (.uuid n)).isSome → n < first.uuids)
    (hstate : first.savedState = second.savedState) : Similar first second where
  linked := h.of_agrees horders hfills hpositions hclients horderDrawn hfillDrawn
  linked' := h
  state := hstate
  positions := hpositions
  clients := hclients
  executed := by
    have hsame : first.executedOrder? = second.executedOrder? := funext fun fill => by
      rw [executedOrder?, horders, executedOrder?]
    rw [executedOrders, hsame]
    exact hfills.values_perm.filterMap _

end Agreement

/-- The identities that a new process draws, from the one with number `uuids` on, are not in the
store. -/
structure Undrawn (uuids : ℕ) (repository : PaperStateRepository) : Prop where
  orders : ∀ n, (repository.orders.get? (.uuid n)).isSome → n < uuids
  fills : ∀ n, (repository.fills.get? (.uuid n)).isSome → n < uuids

theorem undrawn_empty (uuids : ℕ) {repository : PaperStateRepository}
    (horders : repository.orders = .empty) (hfills : repository.fills = .empty) :
    Undrawn uuids repository := by
  constructor <;> simp [horders, hfills]

/-- The engine that `restore_state` leaves when no load raises. -/
def reloaded (engine : PaperExecutionEngine) (repository : PaperStateRepository) :
    PaperExecutionEngine :=
  { repository.runtimeState.elim engine engine.withState with
    positions := Dict.ofItems PaperPositionState.symbol id repository.positions.values }.withOrders
    repository.orders.values repository.fills.values

variable {engine other : PaperExecutionEngine} {repository : PaperStateRepository}

theorem reloaded_uuids : (engine.reloaded repository).uuids = engine.uuids := by
  cases h : repository.runtimeState <;> simp [reloaded, withOrders, withState, h]

theorem reloaded_savedState {state : PaperRuntimeState} (h : repository.runtimeState = some state) :
    (engine.reloaded repository).savedState = state := by
  simp [reloaded, withOrders, withState, h, savedState]

section Reloaded

variable (hlinked : other.Linked) (hsynced : System.Synced other repository)

include hlinked hsynced

theorem reloaded_orders : (engine.reloaded repository).orders.Agrees other.orders :=
  (Dict.ofItems_values_agrees fun id order hget =>
    hlinked.orderIds id order ((hsynced.orders id).symm.trans hget)).trans hsynced.orders

theorem reloaded_fills : (engine.reloaded repository).fills.Agrees other.fills :=
  (Dict.ofItems_values_agrees fun id fill hget =>
    hlinked.fillIds id fill ((hsynced.fills id).symm.trans hget)).trans hsynced.fills

theorem reloaded_positions : (engine.reloaded repository).positions.Agrees other.positions :=
  (Dict.ofItems_values_agrees fun symbol position hget =>
    hlinked.symbols symbol position ((hsynced.positions symbol).symm.trans hget)).trans
    hsynced.positions

/-- The client order ids are recovered from the orders. -/
theorem reloaded_clientOrders :
    (engine.reloaded repository).clientOrders.Agrees other.clientOrders := by
  have hitem : ∀ item ∈ repository.orders.values.filterMap (fun order : PaperOrderState =>
      order.clientOrderId.map fun id => (id, order.orderId)),
      other.clientOrders.get? item.1 = some item.2 := by
    intro item hitem
    obtain ⟨order, horder, hmap⟩ := List.mem_filterMap.mp hitem
    obtain ⟨client, hclient, rfl⟩ := Option.map_eq_some_iff.mp hmap
    obtain ⟨id, hget⟩ := Dict.mem_values_iff.mp horder
    have hget := (hsynced.orders id).symm.trans hget
    rw [hlinked.orderIds id order hget]
    exact hlinked.clientOf id order client hget hclient
  intro client
  refine Option.ext fun id => ?_
  refine (Dict.get?_ofItems_iff (fun a ha b hb hab => ?_) client id).trans ?_
  · have := hitem a ha
    rw [hab, hitem b hb] at this
    exact (Option.some.inj this).symm
  · constructor
    · rintro ⟨item, hmem, rfl, rfl⟩
      exact hitem item hmem
    · intro hget
      obtain ⟨order, horder, hclient⟩ := hlinked.clientOrder client id hget
      refine ⟨(client, id), List.mem_filterMap.mpr ⟨order, ?_, ?_⟩, rfl, rfl⟩
      · exact Dict.mem_values_iff.mpr ⟨id, (hsynced.orders id).trans horder⟩
      · rw [hclient, hlinked.orderIds id order horder]
        rfl

/-- No fill is without its order. -/
theorem restoreState_eq_reloaded : engine.restoreState repository (fun _ => false) =
    (engine.reloaded repository, none) := by
  have hknown : ∀ orderId ∈ repository.fills.values.map PaperFillState.orderId,
      orderId ∈ (engine.reloaded repository).orders.keys := by
    intro orderId hmem
    obtain ⟨fill, hfill, rfl⟩ := List.mem_map.mp hmem
    obtain ⟨id, hget⟩ := Dict.mem_values_iff.mp hfill
    rw [← Dict.isSome_get?_iff, reloaded_orders hlinked hsynced]
    exact hlinked.fillOrders id fill ((hsynced.fills id).symm.trans hget)
  have hnone : ((repository.fills.values.map PaperFillState.orderId).filter fun orderId =>
      decide (orderId ∉ (engine.reloaded repository).orders.keys)) = [] := by
    rw [List.filter_eq_nil_iff]
    intro orderId hmem hnot
    exact of_decide_eq_true hnot (hknown orderId hmem)
  simp only [restoreState, Bool.false_eq_true, if_false]
  rw [← reloaded, if_pos hnone]

/-- A new engine restored from the store has executed what the other has. -/
theorem similar_reloaded (hstate : repository.runtimeState = some other.savedState)
    (hundrawn : Undrawn engine.uuids repository) : Similar (engine.reloaded repository) other := by
  refine Similar.of_agrees hlinked (reloaded_orders hlinked hsynced)
    (reloaded_fills hlinked hsynced) (reloaded_positions hlinked hsynced)
    (reloaded_clientOrders hlinked hsynced) (fun n hsome => ?_) (fun n hsome => ?_)
    (reloaded_savedState hstate)
  · rw [reloaded_orders hlinked hsynced, ← hsynced.orders] at hsome
    rw [reloaded_uuids]
    exact hundrawn.orders n hsome
  · rw [reloaded_fills hlinked hsynced, ← hsynced.fills] at hsome
    rw [reloaded_uuids]
    exact hundrawn.fills n hsome

end Reloaded

end CryptoTrading.PaperExecutionEngine
