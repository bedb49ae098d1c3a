import CryptoTrading.Exchange.CheckpointConvergence
import CryptoTrading.Reconciliation.PaperReconciler

/-! The reconciler on the rows of the repository, which are objects: it raises on every order and every
fill, and takes a balance that was never saved for zero.  Where it does neither it accepts what was
restored or checkpointed, and finds what the runtime has lost. -/

namespace CryptoTrading

open Kit

/-- A repository whose positions are under their symbols, which are unique in its table. -/
structure PaperTables where
  rows : PaperStateRepository
  symbols : ∀ symbol position, rows.positions.get? symbol = some position → position.symbol = symbol

/-- What the loads of the repository return. -/
def PaperStateRepository.loads (repository : PaperStateRepository) : DatabaseRows where
  orders := repository.orders.values.map .state
  fills := repository.fills.values.map .state
  positions := repository.positions.values.map .state
  state := repository.runtimeState

/-- The engine has just been restored from the repository. -/
def Restored (engine : PaperExecutionEngine) (repository : PaperStateRepository) : Prop :=
  ∃ earlier : PaperExecutionEngine, earlier.restoreState repository (fun _ => false) = (engine, none)

/-- A checkpoint of the engine has just returned, in a run in which no write of a record raised. -/
def Checkpointed (engine : PaperExecutionEngine) (repository : PaperStateRepository) : Prop :=
  ∃ start stored program labels s t, System.Synced start stored ∧
    Run System.Step (System.initial start stored program) labels s ∧
    (∀ label ∈ labels, System.WritesRecords label) ∧ System.Step s .saved t ∧
    t.engine = engine ∧ t.repository = repository

/-! ### What a restore and a checkpoint leave -/

section Consistent

variable {engine : PaperExecutionEngine} {tables : PaperTables} {repository : PaperStateRepository}

theorem Restored.cash (h : Restored engine repository) {state : PaperRuntimeState}
    (hstored : repository.runtimeState = some state) : engine.cashBalance = state.cashBalance := by
  obtain ⟨earlier, hrestore⟩ := h
  have hstate : (earlier.restoreState repository fun _ => false).1.savedState = state :=
    earlier.restoreState_savedState rfl hstored
  rw [hrestore] at hstate
  rw [← hstate]
  rfl

theorem Restored.positions (h : Restored engine tables.rows) :
    tables.rows.positions.Agrees engine.positions := by
  obtain ⟨earlier, hrestore⟩ := h
  have hpositions : engine.positions =
      Dict.ofItems PaperPositionState.symbol id tables.rows.positions.values := by
    show (engine, (none : Option RestoreError)).1.positions = _
    rw [← hrestore]
    cases hstored : tables.rows.runtimeState <;>
      simp [PaperExecutionEngine.restoreState, PaperExecutionEngine.withOrders, hstored]
  rw [hpositions]
  exact fun symbol => (Dict.ofItems_values_agrees tables.symbols symbol).symm

/-- A call after which the engine has no orders has executed none. -/
theorem no_orders_before_call {engine : PaperExecutionEngine} {call : EngineCall}
    (hnone : (engine.attempt call).1.orders.keys = []) :
    engine.orders.keys = [] ∧
      ∀ execution, (engine.attempt call).2 ≠ some (.persistExecution execution) := by
  rcases engine.attempt_cases call with hcall | ⟨event, -, -, hcall⟩ | ⟨args, price, -, -, hcall⟩
  · rw [hcall] at hnone
    refine ⟨hnone, fun execution hexecution => ?_⟩
    cases (congrArg Prod.snd hcall).symm.trans hexecution
  · rw [hcall] at hnone
    refine ⟨hnone, fun execution hexecution => ?_⟩
    cases (congrArg Prod.snd hcall).symm.trans hexecution
  · have hmem : (engine.executionAt args price).order.orderId ∈
        (engine.record args (engine.executionAt args price)).orders.keys :=
      Dict.isSome_get?_iff.mp (Option.isSome_iff_exists.mpr ⟨_, Dict.get?_set_self ..⟩)
    rw [hcall] at hnone
    dsimp only at hnone
    rw [hnone] at hmem
    exact absurd hmem List.not_mem_nil

theorem no_orders_before {s t : System} {label : Label} (h : System.Step s label t)
    (hnone : t.engine.orders.keys = []) : s.engine.orders.keys = [] ∧ ¬s.Overtakes label := by
  cases h with
  | @operate call rest hidle hprogram =>
    obtain ⟨hbefore, hexecutes⟩ := no_orders_before_call hnone
    refine ⟨hbefore, ?_⟩
    rintro ⟨call', rest', execution, hprogram', hexecution, -⟩
    cases hprogram.symm.trans hprogram'
    exact hexecutes execution hexecution
  | _ => exact ⟨hnone, id⟩

theorem run_without_orders {s t : System} {labels : List Label} (h : Run System.Step s labels t)
    (hnone : t.engine.orders.keys = []) : s.engine.orders.keys = [] ∧
      Run (fun s label t => System.Step s label t ∧ ¬s.Overtakes label) s labels t := by
  induction h with
  | nil => exact ⟨hnone, .nil _⟩
  | cons hfirst _ ih =>
    obtain ⟨hmiddle, hrest⟩ := ih hnone
    obtain ⟨hbefore, hfree⟩ := no_orders_before hfirst hmiddle
    exact ⟨hbefore, .cons ⟨hfirst, hfree⟩ hrest⟩

theorem Checkpointed.positions (h : Checkpointed engine repository)
    (horders : repository.orders = .empty) : repository.positions.Agrees engine.positions := by
  obtain ⟨start, stored, program, labels, s, t, hsynced, hrun, hwrites, hsaved, rfl, rfl⟩ := h
  obtain ⟨hpresent, -, -, hvouches⟩ := System.checkpoint_vouches hsynced hrun hwrites hsaved
  have hnone : t.engine.orders.keys = [] := by
    refine List.eq_nil_iff_forall_not_mem.mpr fun id hid => ?_
    rw [← Dict.isSome_get?_iff, ← hpresent.orders id, horders] at hid
    cases hid
  exact hvouches (run_without_orders hrun (no_orders_before hsaved hnone).1).2

theorem Checkpointed.state (h : Checkpointed engine repository) :
    repository.runtimeState = some engine.savedState := by
  obtain ⟨start, stored, program, labels, s, t, hsynced, hrun, hwrites, hsaved, rfl, rfl⟩ := h
  exact (System.checkpoint_vouches hsynced hrun hwrites hsaved).2.2.1

end Consistent

namespace PaperReconciler

variable {reconciler : PaperReconciler} {engine : PaperExecutionEngine} {tables : PaperTables}
  {repository : PaperStateRepository} {now : Datetime}

/-- An order, a fill or a position quantity above tolerance is in the repository and not in the
engine. -/
def Lost (reconciler : PaperReconciler) (engine : PaperExecutionEngine)
    (repository : PaperStateRepository) : Prop :=
  (∃ order ∈ repository.orders.values, order.orderId ∉ engine.orders.keys) ∨
  (∃ fill ∈ repository.fills.values, fill.fillId ∉ engine.fills.keys) ∨
  ∃ symbol position, repository.positions.get? symbol = some position ∧
    reconciler.positionTolerance < position.quantity - engine.heldQuantity symbol

/-- `reconcile` returns, accepts what is consistent, and finds what is lost. -/
def Reconciles (reconciler : PaperReconciler) (engine : PaperExecutionEngine)
    (repository : PaperStateRepository) (now : Datetime) : Prop :=
  ∃ result, reconciler.reconcile (some engine) (some repository.loads) now = .ok result ∧
    (Restored engine repository ∨ Checkpointed engine repository → result.hasFatal = false) ∧
    (reconciler.Lost engine repository → result.hasFatal = true)

/-! ### The rows of a repository -/

theorem values_eq_nil {κ ν : Type} {d : Dict κ ν} (h : d.values = []) : d = .empty :=
  Dict.eq_empty_of_keys (by simpa [Dict.keys] using List.map_eq_nil_iff.mp h)

theorem reconcile_loads (horders : repository.orders = .empty) (hfills : repository.fills = .empty) :
    reconciler.reconcile (some engine) (some repository.loads) now =
      .ok (reconciler.compare engine .empty .empty
        (Dict.ofItems PositionRow.symbol id repository.loads.positions)
        (repository.runtimeState.elim 0 PaperRuntimeState.cashBalance) now) := by
  unfold reconcile PaperStateRepository.loads
  rw [horders, hfills]
  rfl

/-- It raises on every other. -/
theorem empty_of_reconcile {result : ReconciliationResult}
    (h : reconciler.reconcile (some engine) (some repository.loads) now = .ok result) :
    repository.orders = .empty ∧ repository.fills = .empty := by
  unfold reconcile PaperStateRepository.loads at h
  dsimp only at h
  have horders : repository.orders.values = [] := by
    cases hvalues : repository.orders.values with
    | nil => rfl
    | cons order rest =>
      rw [hvalues] at h
      cases h
  have hfills : repository.fills.values = [] := by
    cases hvalues : repository.fills.values with
    | nil => rfl
    | cons fill rest =>
      rw [horders, hvalues] at h
      cases h
  exact ⟨values_eq_nil horders, values_eq_nil hfills⟩

theorem positions_loads (tables : PaperTables) (symbol : String) :
    (Dict.ofItems PositionRow.symbol id tables.rows.loads.positions).get? symbol =
      (tables.rows.positions.get? symbol).map .state := by
  let loaded := tables.rows.positions.mapValues fun _ position => PositionRow.state position
  have hvalues : tables.rows.loads.positions = loaded.values := by
    simp [PaperStateRepository.loads, loaded, Dict.values, Dict.mapValues]
  have hget : ∀ symbol, loaded.get? symbol = (tables.rows.positions.get? symbol).map .state :=
    fun symbol => Dict.get?_mapValues _ _ _
  rw [hvalues, ← hget symbol]
  refine Dict.ofItems_values_agrees (fun symbol row hrow => ?_) symbol
  rw [hget] at hrow
  obtain ⟨position, hposition, rfl⟩ := Option.map_eq_some_iff.mp hrow
  exact tables.symbols symbol position hposition

/-! ### What is accepted -/

/-- The positions of the engine are those of the repository. -/
theorem not_disagrees (hpositions : tables.rows.positions.Agrees engine.positions) (symbol : String) :
    ¬reconciler.Disagrees (engine.positions.get? symbol)
      ((Dict.ofItems PositionRow.symbol id tables.rows.loads.positions).get? symbol) := by
  rw [positions_loads, hpositions symbol]
  cases engine.positions.get? symbol with
  | none => exact id
  | some position =>
    have hzero : position.quantity - (PositionRow.state position).extractQuantity.getD 0 = 0 :=
      sub_self _
    show ¬reconciler.positionTolerance < |_|
    rw [hzero, abs_zero]
    exact not_lt.mpr reconciler.positionTolerance_nonneg

theorem hasFatal_of_agrees (hpositions : tables.rows.positions.Agrees engine.positions)
    {balance : Decimal} (hbalance : |engine.cashBalance - balance| ≤ reconciler.balanceTolerance) :
    (reconciler.compare engine .empty .empty
      (Dict.ofItems PositionRow.symbol id tables.rows.loads.positions) balance now).hasFatal = false := by
  rw [← Bool.not_eq_true, hasFatal_compare]
  rintro (⟨id, hid, -⟩ | ⟨id, hid, -⟩ | ⟨symbol, hdisagrees⟩ | hdiffers)
  · exact List.not_mem_nil hid
  · exact List.not_mem_nil hid
  · exact not_disagrees hpositions symbol hdisagrees
  · exact absurd hbalance (not_le.mpr hdiffers)

/-! ### What is found -/

/-- A position that is lost disagrees. -/
theorem disagrees_of_lost {symbol : String} {position : PaperPositionState}
    (hrow : tables.rows.positions.get? symbol = some position)
    (hlost : reconciler.positionTolerance < position.quantity - engine.heldQuantity symbol) :
    reconciler.Disagrees (engine.positions.get? symbol)
      ((Dict.ofItems PositionRow.symbol id tables.rows.loads.positions).get? symbol) := by
  rw [positions_loads, hrow]
  unfold PaperExecutionEngine.heldQuantity at hlost
  cases hheld : engine.positions.get? symbol with
  | none =>
    rw [hheld] at hlost
    exact ⟨position.quantity, rfl, by simpa using hlost⟩
  | some held =>
    rw [hheld] at hlost
    show reconciler.positionTolerance < |held.quantity - position.quantity|
    rw [abs_sub_comm]
    exact hlost.trans_le (le_abs_self _)

/-- The balance that a fresh start is compared with. -/
theorem cash_le_of_accepted {result : ReconciliationResult}
    (h : reconciler.reconcile (some engine) (some repository.loads) now = .ok result)
    (haccepted : result.hasFatal = false) (hnone : repository.runtimeState = none) :
    |engine.cashBalance| ≤ reconciler.balanceTolerance := by
  obtain ⟨horders, hfills⟩ := empty_of_reconcile h
  rw [reconcile_loads horders hfills, hnone] at h
  cases h
  by_contra hcash
  rw [← Bool.not_eq_true, hasFatal_compare] at haccepted
  refine haccepted (.inr (.inr (.inr ?_)))
  show reconciler.balanceTolerance < |engine.cashBalance - 0|
  rw [sub_zero]
  exact not_le.mp hcash

/-- `reconcile` does what it is for exactly on a repository without orders and without fills, where an
engine that was restored from no runtime state has no cash. -/
theorem reconciles_iff (reconciler : PaperReconciler) (engine : PaperExecutionEngine)
    (tables : PaperTables) (now : Datetime) :
    reconciler.Reconciles engine tables.rows now ↔
      tables.rows.orders = .empty ∧ tables.rows.fills = .empty ∧
        (Restored engine tables.rows → tables.rows.runtimeState = none →
          |engine.cashBalance| ≤ reconciler.balanceTolerance) := by
  constructor
  · rintro ⟨result, hresult, haccepts, -⟩
    obtain ⟨horders, hfills⟩ := empty_of_reconcile hresult
    refine ⟨horders, hfills, fun hrestored hnone => ?_⟩
    exact cash_le_of_accepted hresult (haccepts (.inl hrestored)) hnone
  · rintro ⟨horders, hfills, hcash⟩
    refine ⟨_, reconcile_loads horders hfills, ?_, ?_⟩
    · rintro (hrestored | hcheckpointed)
      · refine hasFatal_of_agrees hrestored.positions ?_
        cases hstored : tables.rows.runtimeState with
        | none => simpa using hcash hrestored hstored
        | some state =>
          rw [hrestored.cash hstored, Option.elim_some, sub_self, abs_zero]
          exact reconciler.balanceTolerance_nonneg
      · refine hasFatal_of_agrees (hcheckpointed.positions horders) ?_
        rw [hcheckpointed.state, Option.elim_some]
        show |engine.cashBalance - engine.cashBalance| ≤ _
        rw [sub_self, abs_zero]
        exact reconciler.balanceTolerance_nonneg
    · rintro (⟨order, horder, -⟩ | ⟨fill, hfill, -⟩ | ⟨symbol, position, hrow, hlost⟩)
      · rw [horders] at horder
        cases horder
      · rw [hfills] at hfill
        cases hfill
      · exact hasFatal_compare.mpr (.inr (.inr (.inl ⟨symbol, disagrees_of_lost hrow hlost⟩)))

/-- An engine that has bought one unit. -/
def buyer : PaperExecutionEngine :=
  ({} : PaperExecutionEngine).attemptAll [System.openingCandle, System.purchaseOf "1"]

/-- The rows after its checkpoint. -/
def purchased : PaperTables where
  rows := (((PaperStateRepository.saveOrder {} System.firstExecution.order).saveFill
    System.firstExecution.fill).savePosition System.firstExecution.position).saveState buyer.savedState
  symbols symbol position h := by
    have hset : (Dict.empty.set System.firstExecution.position.symbol
        System.firstExecution.position).get? symbol = some position := h
    rw [Dict.get?_set] at hset
    split at hset
    · cases hset
      assumption
    · cases hset

/-- It raises on the order of a purchase, and a fresh start with cash is fatal. -/
theorem not_reconciled :
    ¬Reconciles {} buyer purchased.rows 0 ∧ ¬Reconciles {} { cashBalance := 1000 } {} 0 := by
  constructor
  · rintro ⟨result, hresult, -⟩
    have hkeys := congrArg Dict.keys (empty_of_reconcile hresult).1
    revert hkeys
    decide +kernel
  · rintro ⟨result, hresult, haccepts, -⟩
    have hrestored : Restored { cashBalance := 1000 } {} := ⟨{ cashBalance := 1000 }, rfl⟩
    have hcash := cash_le_of_accepted hresult (haccepts (.inl hrestored)) rfl
    revert hcash
    decide +kernel

end PaperReconciler

end CryptoTrading
