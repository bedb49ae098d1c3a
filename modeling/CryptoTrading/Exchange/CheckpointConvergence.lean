import CryptoTrading.Exchange.PendingWrites

/-! What the store holds when a checkpoint returns: the engine's orders and fills and a row for each
of its positions, as long as no write of a record raises, and the positions themselves as long as no
fill finds an earlier position of its symbol still to be written. -/

namespace CryptoTrading

open Kit

/-! ### The rows that calls are still to write -/

/-- The row of the orders that a call writes. -/
def RepositoryCall.orderRow : RepositoryCall → Option (Identifier × PaperOrderState)
  | saveOrder order => some (order.orderId, order)
  | _ => none

/-- The row of the fills that a call writes. -/
def RepositoryCall.fillRow : RepositoryCall → Option (Identifier × PaperFillState)
  | saveFill fill => some (fill.fillId, fill)
  | _ => none

/-- The row of the positions that a call writes. -/
def RepositoryCall.positionRow : RepositoryCall → Option (String × PaperPositionState)
  | savePosition position => some (position.symbol, position)
  | _ => none

theorem PaperStateRepository.saveOrder_eq {repository : PaperStateRepository}
    {order : PaperOrderState}
    (h : ∀ row, repository.orders.get? order.orderId = some row → row = order) :
    repository.saveOrder order =
      { repository with orders := repository.orders.set order.orderId order } := by
  rw [saveOrder]
  cases hrow : repository.orders.get? order.orderId with
  | none => rfl
  | some row => rw [h row hrow]; rfl

theorem PaperStateRepository.saveFill_eq {repository : PaperStateRepository} {fill : PaperFillState}
    (h : ∀ row, repository.fills.get? fill.fillId = some row → row = fill) :
    repository.saveFill fill =
      { repository with fills := repository.fills.set fill.fillId fill } := by
  rw [saveFill]
  cases hrow : repository.fills.get? fill.fillId with
  | none => rfl
  | some row => rw [h row hrow]; rfl

/-- A task saves the state last. -/
def SavesLast (calls : List RepositoryCall) : Prop :=
  ∀ before after, calls = before ++ .saveState :: after → after = []

theorem SavesLast.tail {call : RepositoryCall} {calls : List RepositoryCall}
    (h : SavesLast (call :: calls)) : SavesLast calls :=
  fun before after heq => h (call :: before) after (by simp [heq])

theorem savesLast_scheduled (write : ScheduledWrite) : SavesLast write.calls := by
  intro before after heq
  cases write with
  | saveState =>
    rcases before with _ | ⟨_, _ | ⟨_, _⟩⟩ <;> simp [ScheduledWrite.calls] at heq
    exact heq
  | persistExecution execution =>
    rcases before with _ | ⟨_, _ | ⟨_, _ | ⟨_, _ | ⟨_, _⟩⟩⟩⟩ <;>
      simp [ScheduledWrite.calls] at heq
    exact heq.2.2.2

/-- The rows of calls of which some may still be to land. -/
theorem mem_rows_iff {α : Type} {row : RepositoryCall → Option α} (hstate : row .saveState = none)
    {calls rest : List RepositoryCall} (first : RepositoryCall)
    (hsame : ∀ call, call ≠ .saveState → (call ∈ calls ↔ call = first ∨ call ∈ rest)) (x : α) :
    x ∈ calls.filterMap row ↔ row first = some x ∨ x ∈ rest.filterMap row := by
  have hne : ∀ {call}, row call = some x → call ≠ .saveState := by
    rintro call hx rfl
    rw [hstate] at hx
    cases hx
  simp only [List.mem_filterMap]
  constructor
  · rintro ⟨call, hcall, hx⟩
    rcases (hsame call (hne hx)).mp hcall with rfl | hcall
    · exact Or.inl hx
    · exact Or.inr ⟨call, hcall, hx⟩
  · rintro (hx | ⟨call, hcall, hx⟩)
    · exact ⟨first, (hsame first (hne hx)).mpr (Or.inl rfl), hx⟩
    · exact ⟨call, (hsame call (hne hx)).mpr (Or.inr hcall), hx⟩

theorem mem_rows_congr {α : Type} {row : RepositoryCall → Option α} (hstate : row .saveState = none)
    {calls rest : List RepositoryCall}
    (hsame : ∀ call, call ≠ .saveState → (call ∈ rest ↔ call ∈ calls)) (x : α) :
    x ∈ rest.filterMap row ↔ x ∈ calls.filterMap row := by
  rw [mem_rows_iff hstate .saveState
    fun call hne => (hsame call hne).trans (or_iff_right hne).symm]
  simp [hstate]

/-- The store and the calls still to land together hold the engine's orders and fills, and have a
row for each of its positions. -/
structure RowsRecorded (engine : PaperExecutionEngine) (repository : PaperStateRepository)
    (calls : List RepositoryCall) : Prop where
  orders : Lags engine.orders repository.orders (calls.filterMap RepositoryCall.orderRow)
  ordersWithin : Within engine.orders repository.orders
  fills : Lags engine.fills repository.fills (calls.filterMap RepositoryCall.fillRow)
  fillsWithin : Within engine.fills repository.fills
  positions : Names engine.positions repository.positions (calls.filterMap RepositoryCall.positionRow)

/-- The store and the calls still to land together hold the engine's positions. -/
def PositionsRecorded (engine : PaperExecutionEngine) (repository : PaperStateRepository)
    (calls : List RepositoryCall) : Prop :=
  Lags engine.positions repository.positions (calls.filterMap RepositoryCall.positionRow)

/-- The symbols whose positions calls are still to write. -/
def pendingSymbols (calls : List RepositoryCall) : List String :=
  (calls.filterMap RepositoryCall.positionRow).map Prod.fst

theorem positionRow_scheduled (execution : Execution) :
    (ScheduledWrite.persistExecution execution).calls.filterMap RepositoryCall.positionRow =
      [(execution.position.symbol, execution.position)] := rfl

section Rows

variable {engine : PaperExecutionEngine} {repository : PaperStateRepository}
  {calls rest : List RepositoryCall}

theorem RowsRecorded.congr (h : RowsRecorded engine repository calls)
    (hsame : ∀ call, call ≠ .saveState → (call ∈ rest ↔ call ∈ calls)) :
    RowsRecorded engine repository rest :=
  ⟨h.orders.congr (mem_rows_congr rfl hsame), h.ordersWithin,
    h.fills.congr (mem_rows_congr rfl hsame), h.fillsWithin,
    h.positions.congr (mem_rows_congr rfl hsame)⟩

/-- The rows that one write is to land, and those that it is not. -/
theorem mem_rows_of_write {α : Type} (row : RepositoryCall → Option α) (hstate : row .saveState = none)
    {write : RepositoryWrite}
    (hsame : ∀ call, call ≠ .saveState → (call ∈ calls ↔ call = write.call ∨ call ∈ rest)) :
    (row write.call = none → ∀ x, x ∈ rest.filterMap row ↔ x ∈ calls.filterMap row) ∧
      ∀ own, row write.call = some own →
        ∀ x, x ∈ calls.filterMap row ↔ x = own ∨ x ∈ rest.filterMap row := by
  constructor
  · intro hnone x
    simp [mem_rows_iff hstate _ hsame x, hnone]
  · intro own hown x
    rw [mem_rows_iff hstate _ hsame x, hown, Option.some_inj, eq_comm]

/-- A write lands. -/
theorem RowsRecorded.land (h : RowsRecorded engine repository calls) {write : RepositoryWrite}
    (hsame : ∀ call, call ≠ .saveState → (call ∈ calls ↔ call = write.call ∨ call ∈ rest)) :
    RowsRecorded engine (write.apply repository) rest := by
  have horders := mem_rows_of_write RepositoryCall.orderRow rfl hsame
  have hfills := mem_rows_of_write RepositoryCall.fillRow rfl hsame
  have hpositions := mem_rows_of_write RepositoryCall.positionRow rfl hsame
  cases write with
  | saveOrder order =>
    have hlands := horders.2 (order.orderId, order) rfl
    have hcurrent : engine.orders.get? order.orderId = some order :=
      h.orders.current (order.orderId, order) ((hlands _).mpr (Or.inl rfl))
    rw [RepositoryWrite.apply, PaperStateRepository.saveOrder_eq fun row hget =>
      Option.some.inj ((h.ordersWithin _ _ hget).symm.trans hcurrent)]
    exact ⟨h.orders.land hlands, h.ordersWithin.land (order.orderId, order) hcurrent,
      h.fills.congr (hfills.1 rfl), h.fillsWithin, h.positions.congr (hpositions.1 rfl)⟩
  | saveFill fill =>
    have hlands := hfills.2 (fill.fillId, fill) rfl
    have hcurrent : engine.fills.get? fill.fillId = some fill :=
      h.fills.current (fill.fillId, fill) ((hlands _).mpr (Or.inl rfl))
    rw [RepositoryWrite.apply, PaperStateRepository.saveFill_eq fun row hget =>
      Option.some.inj ((h.fillsWithin _ _ hget).symm.trans hcurrent)]
    exact ⟨h.orders.congr (horders.1 rfl), h.ordersWithin, h.fills.land hlands,
      h.fillsWithin.land (fill.fillId, fill) hcurrent, h.positions.congr (hpositions.1 rfl)⟩
  | savePosition position =>
    exact ⟨h.orders.congr (horders.1 rfl), h.ordersWithin, h.fills.congr (hfills.1 rfl),
      h.fillsWithin, h.positions.land (hpositions.2 (position.symbol, position) rfl)⟩
  | saveState state =>
    exact ⟨h.orders.congr (horders.1 rfl), h.ordersWithin, h.fills.congr (hfills.1 rfl),
      h.fillsWithin, h.positions.congr (hpositions.1 rfl)⟩

theorem PositionsRecorded.land (h : PositionsRecorded engine repository calls)
    {write : RepositoryWrite}
    (hsame : ∀ call, call ≠ .saveState → (call ∈ calls ↔ call = write.call ∨ call ∈ rest)) :
    PositionsRecorded engine (write.apply repository) rest := by
  have hpositions := mem_rows_of_write RepositoryCall.positionRow rfl hsame
  cases write with
  | savePosition position =>
    exact Lags.land h (hpositions.2 (position.symbol, position) rfl)
  | saveOrder order => exact Lags.congr h (hpositions.1 rfl)
  | saveFill fill => exact Lags.congr h (hpositions.1 rfl)
  | saveState state => exact Lags.congr h (hpositions.1 rfl)

variable {args : ExecuteArguments} {price : Decimal}

theorem row_ne_of_new {κ ν : Type} [DecidableEq κ] {memory table : Dict κ ν} {pending : List (κ × ν)}
    {key : κ} (h : Lags memory table pending) (hnew : memory.get? key = none) :
    ∀ row ∈ pending, row.1 ≠ key := by
  rintro row hrow rfl
  rw [h.current row hrow] at hnew
  cases hnew

/-- The engine fills an order, and the writes of its records become pending. -/
theorem RowsRecorded.record (h : RowsRecorded engine repository calls) (hengine : engine.WellFormed)
    (hfills : engine.Fills args price) :
    RowsRecorded (engine.record args (engine.executionAt args price)) repository
      (calls ++ (ScheduledWrite.persistExecution (engine.executionAt args price)).calls) := by
  have horder := hengine.order_new hfills
  have hfill := hengine.fill_new args price
  refine ⟨?_, h.ordersWithin.schedule horder _, ?_, h.fillsWithin.schedule hfill _, ?_⟩
  · rw [List.filterMap_append]
    exact h.orders.schedule (row_ne_of_new h.orders horder) _
  · rw [List.filterMap_append]
    exact h.fills.schedule (row_ne_of_new h.fills hfill) _
  · rw [List.filterMap_append, positionRow_scheduled, PaperExecutionEngine.executionAt_symbol]
    exact h.positions.schedule _ _

theorem PositionsRecorded.record (h : PositionsRecorded engine repository calls)
    (hfree : args.request.symbol ∉ pendingSymbols calls) :
    PositionsRecorded (engine.record args (engine.executionAt args price)) repository
      (calls ++ (ScheduledWrite.persistExecution (engine.executionAt args price)).calls) := by
  rw [PositionsRecorded, List.filterMap_append, positionRow_scheduled,
    PaperExecutionEngine.executionAt_symbol]
  refine Lags.schedule h (fun row hrow heq => hfree ?_) _
  rw [← heq]
  exact List.mem_map_of_mem hrow

end Rows

namespace System

variable {s t : System}

theorem unlanded_split {before after : List WriteTask} {task : WriteTask}
    (htasks : s.tasks = before ++ task :: after) : s.unlanded =
      before.flatMap WriteTask.unlanded ++ (task.unlanded ++ after.flatMap WriteTask.unlanded) := by
  simp [unlanded, htasks]

/-! ### What a step does to the records -/

/-- Tasks save the state last, and the checkpoint saves the engine's state when no task has anything
left to do. -/
structure Orderly (s : System) : Prop where
  savesLast : ∀ task ∈ s.tasks, SavesLast task.unlanded
  saving : ∀ state, s.main = .saving state →
    state = s.engine.savedState ∧ ∀ task ∈ s.tasks, task = .suspended []

theorem Orderly.not_saving (h : Orderly s) {task : WriteTask} (hmem : task ∈ s.tasks)
    (htask : task ≠ .suspended []) (state : PaperRuntimeState) : s.main ≠ .saving state :=
  fun hsaving => htask ((h.saving state hsaving).2 task hmem)

theorem forall_mem_replace {P : WriteTask → Prop} {before after : List WriteTask}
    {old new : WriteTask} (htasks : s.tasks = before ++ old :: after)
    (h : ∀ task ∈ s.tasks, P task) (hnew : P new) : ∀ task ∈ before ++ new :: after, P task := by
  intro task hmem
  rcases List.mem_append.mp hmem with hmem | hmem
  · exact h task (by rw [htasks]; exact List.mem_append_left _ hmem)
  · rcases List.mem_cons.mp hmem with rfl | hmem
    · exact hnew
    · exact h task (by rw [htasks]; exact List.mem_append_right _ (List.mem_cons_of_mem _ hmem))

theorem taskRaised_ne_saving {main : MainState} (h : ∀ state, main ≠ .saving state)
    (state : PaperRuntimeState) : taskRaised main ≠ .saving state := by
  cases main with
  | idle => exact nofun
  | flushing raised => exact nofun
  | saving other => exact absurd rfl (h other)

theorem Orderly.step (h : Orderly s) {label : Label} (hstep : Step s label t) : Orderly t := by
  cases hstep with
  | operate hidle hprogram =>
    refine ⟨fun task hmem => ?_, fun state hs => ?_⟩
    · rcases List.mem_append.mp hmem with hmem | hmem
      · exact h.savesLast task hmem
      · obtain ⟨write, -, rfl⟩ := List.mem_map.mp hmem
        exact savesLast_scheduled write
    · rw [show s.main = .saving state from hs] at hidle
      cases hidle
  | @start before after call calls htasks =>
    have hmem : WriteTask.suspended (call :: calls) ∈ s.tasks := by simp [htasks]
    refine ⟨forall_mem_replace htasks h.savesLast ?_,
      fun state hs => absurd hs (h.not_saving hmem nofun state)⟩
    simpa [WriteTask.unlanded] using h.savesLast _ hmem
  | @finish before after write calls htasks =>
    have hmem : WriteTask.awaiting write calls ∈ s.tasks := by simp [htasks]
    exact ⟨forall_mem_replace htasks h.savesLast (h.savesLast _ hmem).tail,
      fun state hs => absurd hs (h.not_saving hmem nofun state)⟩
  | @fail before after write calls htasks =>
    have hmem : WriteTask.awaiting write calls ∈ s.tasks := by simp [htasks]
    refine ⟨forall_mem_replace htasks h.savesLast fun before after heq => ?_, fun state hs =>
      absurd hs (taskRaised_ne_saving (h.not_saving hmem nofun) state)⟩
    simp [WriteTask.unlanded] at heq
  | @discard before after task htasks hdone =>
    have hsub : ∀ other ∈ before ++ after, other ∈ s.tasks := by
      intro other hother
      rw [htasks]
      rcases List.mem_append.mp hother with hother | hother
      · exact List.mem_append_left _ hother
      · exact List.mem_append_right _ (List.mem_cons_of_mem _ hother)
    exact ⟨fun other hother => h.savesLast other (hsub other hother),
      fun state hs => ⟨(h.saving state hs).1, fun other hother =>
        (h.saving state hs).2 other (hsub other hother)⟩⟩
  | gathered hflushing hreturned =>
    exact ⟨h.savesLast, fun _ hs => by cases hs; exact ⟨rfl, hreturned⟩⟩
  | beginCheckpoint hidle hprogram => exact ⟨h.savesLast, fun _ hs => by cases hs⟩
  | gatherRaises hflushing => exact ⟨h.savesLast, fun _ hs => by cases hs⟩
  | saved hsaving => exact ⟨h.savesLast, fun _ hs => by cases hs⟩
  | saveRaises hsaving => exact ⟨h.savesLast, fun _ hs => by cases hs⟩

/-- A step in which no write of an order, a fill or a position raises. -/
def WritesRecords : Label → Prop
  | .fail write => write.call = .saveState
  | _ => True

theorem unlanded_created (call : EngineCall) :
    (s.created call).flatMap WriteTask.unlanded =
      (s.engine.attempt call).2.elim [] ScheduledWrite.calls := by
  rw [created]
  cases (s.engine.attempt call).2 <;> simp [WriteTask.unlanded]

/-- What a step does to the engine, to the store and to the writes of records that are still to
land: the engine is called, a write lands, or nothing happens to them. -/
theorem Orderly.step_cases (h : Orderly s) {label : Label} (hstep : Step s label t)
    (hkeeps : WritesRecords label) :
    (∃ call rest, label = .operate ∧ s.program = .call call :: rest ∧ t.program = rest ∧
        t.engine = (s.engine.attempt call).1 ∧ t.repository = s.repository ∧
        t.unlanded = s.unlanded ++ (s.engine.attempt call).2.elim [] ScheduledWrite.calls) ∨
      (t.engine = s.engine ∧ ∃ write : RepositoryWrite, t.repository = write.apply s.repository ∧
        ∀ call, call ≠ .saveState → (call ∈ s.unlanded ↔ call = write.call ∨ call ∈ t.unlanded)) ∨
      (t.engine = s.engine ∧ t.repository = s.repository ∧
        ∀ call, call ≠ .saveState → (call ∈ t.unlanded ↔ call ∈ s.unlanded)) := by
  cases hstep with
  | @operate call rest hidle hprogram =>
    refine Or.inl ⟨call, rest, rfl, hprogram, rfl, rfl, rfl, ?_⟩
    rw [← unlanded_created]
    simp [unlanded]
  | @start before after call calls htasks =>
    refine Or.inr (Or.inr ⟨rfl, rfl, fun other _ => ?_⟩)
    rw [unlanded_split htasks, unlanded_split rfl]
    simp [WriteTask.unlanded]
  | @finish before after write calls htasks =>
    refine Or.inr (Or.inl ⟨rfl, write, rfl, fun other _ => ?_⟩)
    rw [unlanded_split htasks, unlanded_split rfl]
    simp [WriteTask.unlanded, or_left_comm]
  | @fail before after write calls htasks =>
    have hmem : WriteTask.awaiting write calls ∈ s.tasks := by simp [htasks]
    -- Only a save of the state raises, and it is the last call of its task.
    have hstate : write.call = .saveState := hkeeps
    have hcalls : calls = [] := h.savesLast _ hmem [] calls (by simp [WriteTask.unlanded, hstate])
    refine Or.inr (Or.inr ⟨rfl, rfl, fun other hne => ?_⟩)
    rw [unlanded_split htasks, unlanded_split rfl]
    simp [WriteTask.unlanded, hstate, hcalls, hne]
  | @discard before after task htasks hdone =>
    have hnone : task.unlanded = [] := by rcases hdone with rfl | rfl <;> rfl
    refine Or.inr (Or.inr ⟨rfl, rfl, fun other _ => ?_⟩)
    rw [unlanded_split htasks, hnone]
    simp [unlanded]
  | @saved state hsaving =>
    exact Or.inr (Or.inl ⟨rfl, .saveState state, rfl, fun other hne => (or_iff_right hne).symm⟩)
  | beginCheckpoint hidle hprogram => exact Or.inr (Or.inr ⟨rfl, rfl, fun _ _ => Iff.rfl⟩)
  | gathered hflushing hreturned => exact Or.inr (Or.inr ⟨rfl, rfl, fun _ _ => Iff.rfl⟩)
  | gatherRaises hflushing => exact Or.inr (Or.inr ⟨rfl, rfl, fun _ _ => Iff.rfl⟩)
  | saveRaises hsaving => exact Or.inr (Or.inr ⟨rfl, rfl, fun _ _ => Iff.rfl⟩)

/-- The engine's records are in the store or still to be written. -/
structure Recorded (s : System) : Prop extends Orderly s where
  wellFormed : s.engine.WellFormed
  rows : RowsRecorded s.engine s.repository s.unlanded

theorem Recorded.step (h : Recorded s) {label : Label} (hstep : Step s label t)
    (hkeeps : WritesRecords label) : Recorded t := by
  refine ⟨h.toOrderly.step hstep, ?_, ?_⟩
  · rcases h.toOrderly.step_cases hstep hkeeps with ⟨call, rest, -, -, -, hengine, -⟩ |
      ⟨hengine, -⟩ | ⟨hengine, -⟩
    · rw [hengine]
      exact h.wellFormed.attempt call
    · rw [hengine]
      exact h.wellFormed
    · rw [hengine]
      exact h.wellFormed
  · rcases h.toOrderly.step_cases hstep hkeeps with ⟨call, rest, -, -, -, hengine, hrepo, hcalls⟩ |
      ⟨hengine, write, hrepo, hcalls⟩ | ⟨hengine, hrepo, hcalls⟩
    · rw [hengine, hrepo, hcalls]
      rcases s.engine.attempt_cases call with hcall | ⟨event, -, -, hcall⟩ |
        ⟨args, price, -, hfills, hcall⟩
      · simpa [hcall] using h.rows
      · have hrows : RowsRecorded (s.engine.accept event) s.repository s.unlanded :=
          ⟨h.rows.orders, h.rows.ordersWithin, h.rows.fills, h.rows.fillsWithin, h.rows.positions⟩
        simp only [hcall, Option.elim_some]
        exact hrows.congr fun other hne => by simp [ScheduledWrite.calls, hne]
      · simp only [hcall, Option.elim_some]
        exact h.rows.record h.wellFormed hfills
    · rw [hengine, hrepo]
      exact h.rows.land hcalls
    · rw [hengine, hrepo]
      exact h.rows.congr hcalls

/-- A step in which the engine fills an order while an earlier position of its symbol is still to be
written. -/
def Overtakes (s : System) : Label → Prop
  | .operate => ∃ call rest execution, s.program = .call call :: rest ∧
      (s.engine.attempt call).2 = some (.persistExecution execution) ∧
      execution.position.symbol ∈ pendingSymbols s.unlanded
  | _ => False

theorem PositionsRecorded.step (horderly : Orderly s)
    (h : PositionsRecorded s.engine s.repository s.unlanded) {label : Label}
    (hstep : Step s label t) (hkeeps : WritesRecords label) (hfree : ¬s.Overtakes label) :
    PositionsRecorded t.engine t.repository t.unlanded := by
  rcases horderly.step_cases hstep hkeeps with
    ⟨call, rest, rfl, hprogram, -, hengine, hrepo, hcalls⟩ | ⟨hengine, write, hrepo, hcalls⟩ |
    ⟨hengine, hrepo, hcalls⟩
  · rw [hengine, hrepo, hcalls]
    rcases s.engine.attempt_cases call with hcall | ⟨event, -, -, hcall⟩ |
      ⟨args, price, -, hfills, hcall⟩
    · simpa [hcall] using h
    · simp only [hcall, Option.elim_some]
      exact Lags.congr h (mem_rows_congr rfl fun other hne => by simp [ScheduledWrite.calls, hne])
    · simp only [hcall, Option.elim_some]
      refine PositionsRecorded.record h fun hpending => hfree ⟨call, rest,
        s.engine.executionAt args price, hprogram, by rw [hcall], ?_⟩
      rwa [PaperExecutionEngine.executionAt_symbol]
  · rw [hengine, hrepo]
    exact PositionsRecorded.land h hcalls
  · rw [hengine, hrepo]
    exact Lags.congr h (mem_rows_congr rfl hcalls)

/-! ### What a checkpoint vouches for -/

/-- The store has the engine's orders and fills, and a row for each of its positions. -/
structure Present (s : System) : Prop where
  orders : s.repository.orders.Agrees s.engine.orders
  fills : s.repository.fills.Agrees s.engine.fills
  positions : ∀ symbol, (s.repository.positions.get? symbol).isSome ↔
    (s.engine.positions.get? symbol).isSome

/-- The store holds what the engine has. -/
structure Converged (s : System) : Prop where
  orders : s.repository.orders.Agrees s.engine.orders
  fills : s.repository.fills.Agrees s.engine.fills
  positions : s.repository.positions.Agrees s.engine.positions
  state : s.repository.runtimeState = some s.engine.savedState

theorem Orderly.unlanded_of_saved (h : Orderly s) (hstep : Step s .saved t) : t.unlanded = [] := by
  cases hstep with
  | @saved state hsaving =>
    rw [unlanded, List.flatMap_eq_nil_iff]
    intro task hmem
    rw [(h.saving _ hsaving).2 task hmem]
    rfl

theorem Orderly.state_of_saved (h : Orderly s) (hstep : Step s .saved t) :
    t.repository.runtimeState = some t.engine.savedState ∧
      t.lastCheckpointSequence = t.engine.lastSequence := by
  cases hstep with
  | @saved state hsaving =>
    obtain ⟨rfl, -⟩ := h.saving _ hsaving
    exact ⟨rfl, rfl⟩

theorem Recorded.present (h : Recorded s) (hstep : Step s .saved t) : Present t := by
  have hrows := (h.step hstep trivial).rows
  rw [h.toOrderly.unlanded_of_saved hstep] at hrows
  exact ⟨hrows.orders.agrees, hrows.fills.agrees, fun symbol => by
    simpa using (hrows.positions symbol).symm⟩

theorem Recorded.converged (h : Recorded s)
    (hpositions : PositionsRecorded s.engine s.repository s.unlanded) (hstep : Step s .saved t) :
    Converged t := by
  have hpresent := h.present hstep
  have hlags := PositionsRecorded.step h.toOrderly hpositions hstep trivial not_false
  rw [h.toOrderly.unlanded_of_saved hstep] at hlags
  exact ⟨hpresent.orders, hpresent.fills, Lags.agrees hlags,
    (h.toOrderly.state_of_saved hstep).1⟩

/-- An engine whose records are all in the store, and nothing else is. -/
structure Synced (engine : PaperExecutionEngine) (repository : PaperStateRepository) : Prop where
  wellFormed : engine.WellFormed
  orders : repository.orders.Agrees engine.orders
  fills : repository.fills.Agrees engine.fills
  positions : repository.positions.Agrees engine.positions

section Runs

variable {engine : PaperExecutionEngine} {repository : PaperStateRepository}
  {program : List MainStep} {labels : List Label}

theorem Synced.recorded (h : Synced engine repository) :
    Recorded (initial engine repository program) :=
  ⟨⟨fun _ hmem => absurd hmem List.not_mem_nil, fun _ hs => by cases hs⟩, h.wellFormed,
    .of_agrees h.orders, .of_agrees h.orders, .of_agrees h.fills, .of_agrees h.fills,
    .of_agrees h.positions⟩

theorem Synced.positionsRecorded (h : Synced engine repository) :
    PositionsRecorded (initial engine repository program).engine
      (initial engine repository program).repository
      (initial engine repository program).unlanded :=
  Lags.of_agrees h.positions

theorem Synced.run_recorded (h : Synced engine repository)
    (hrun : Run Step (initial engine repository program) labels s)
    (hwrites : ∀ label ∈ labels, WritesRecords label) : Recorded s := by
  refine hrun.invariant (P := fun passed s => (∀ label ∈ passed, WritesRecords label) → Recorded s)
    (fun _ => h.recorded) (fun passed m label m' ih hstep hpassed => ?_) hwrites
  exact (ih fun other hother => hpassed other (List.mem_append_left _ hother)).step hstep
    (hpassed label (by simp))

/-- The positions too are recorded in a run in which no fill overtakes an earlier position of its
symbol. -/
theorem Synced.run_positionsRecorded (h : Synced engine repository)
    (hrun : Run (fun s label t => Step s label t ∧ ¬s.Overtakes label)
      (initial engine repository program) labels s)
    (hwrites : ∀ label ∈ labels, WritesRecords label) :
    PositionsRecorded s.engine s.repository s.unlanded := by
  refine (hrun.invariant (P := fun passed s => (∀ label ∈ passed, WritesRecords label) →
    Orderly s ∧ PositionsRecorded s.engine s.repository s.unlanded)
    (fun _ => ⟨h.recorded.toOrderly, h.positionsRecorded⟩)
    (fun passed m label m' ih hstep hpassed => ?_) hwrites).2
  obtain ⟨hm, hpositions⟩ := ih fun other hother => hpassed other (List.mem_append_left _ hother)
  exact ⟨hm.step hstep.1,
    PositionsRecorded.step hm hpositions hstep.1 (hpassed label (by simp)) hstep.2⟩

/-- In every run in which no write of a record raises a checkpoint that returns vouches for the
engine's orders, fills and positions, and for the positions' values if no fill overtakes an earlier
position of its symbol. -/
theorem checkpoint_vouches (h : Synced engine repository)
    (hrun : Run Step (initial engine repository program) labels s)
    (hwrites : ∀ label ∈ labels, WritesRecords label) (hsaved : Step s .saved t) :
    t.Present ∧ t.lastCheckpointSequence = t.engine.lastSequence ∧
      t.repository.runtimeState = some t.engine.savedState ∧
      (Run (fun s label t => Step s label t ∧ ¬s.Overtakes label)
          (initial engine repository program) labels s →
        t.repository.positions.Agrees t.engine.positions) := by
  have hrecorded := h.run_recorded hrun hwrites
  obtain ⟨hstate, hsequence⟩ := hrecorded.toOrderly.state_of_saved hsaved
  exact ⟨hrecorded.present hsaved, hsequence, hstate, fun hfree =>
    (hrecorded.converged (h.run_positionsRecorded hfree hwrites) hsaved).positions⟩

theorem NothingRaises.writesRecords (h : NothingRaises labels) :
    ∀ label ∈ labels, WritesRecords label := by
  intro label hlabel
  have hraises := h label hlabel
  cases label with
  | fail write => cases hraises
  | _ => trivial

end Runs

/-- The first candle of a run, and the purchase of one unit at its close. -/
def openingCandle : EngineCall :=
  .marketEvent ⟨⟨"BTCUSDT", hour, 2 * hour, 100, 100, 100, 100, 1⟩, 36000, "bybit-rest-dds"⟩

def purchaseOf (clientOrderId : String) : EngineCall :=
  .execute { request := ⟨"BTCUSDT", .buy, 1⟩, clientOrderId := some clientOrderId, now := 2 * hour }

/-- The records of that purchase by a new engine. -/
def firstExecution : Execution :=
  ((({} : PaperExecutionEngine).attempt openingCandle).1).executionAt
    { request := ⟨"BTCUSDT", .buy, 1⟩, clientOrderId := some "1", now := 2 * hour } 100

theorem scheduled_firstExecution :
    ({} : PaperExecutionEngine).scheduled [openingCandle, purchaseOf "1"] =
      [.saveState, .persistExecution firstExecution] := by decide +kernel

theorem synced_new : Synced {} {} :=
  ⟨PaperExecutionEngine.wellFormed_empty rfl rfl rfl, .refl _, .refl _, .refl _⟩

/-- A save of the order that raises is forgotten before the checkpoint, which saves the sequence
without the order. -/
theorem lost_order_vouched_for : ¬∀ (engine : PaperExecutionEngine)
    (repository : PaperStateRepository) (program : List MainStep) (labels : List Label)
    (s t : System), Synced engine repository → Run Step (initial engine repository program) labels s →
      Step s .saved t → t.Present := by
  intro h
  have hcalls := run_calls (s := initial {} {} ([openingCandle, purchaseOf "1"].map .call ++
    [.checkpoint])) [openingCandle, purchaseOf "1"] rfl rfl
  simp only [initial, List.nil_append, scheduled_firstExecution, List.map_cons, List.map_nil] at hcalls
  have hstate := run_task (s :=
      { engine := ({} : PaperExecutionEngine).attemptAll [openingCandle, purchaseOf "1"]
        program := [.checkpoint], repository := {}
        tasks := [.suspended ScheduledWrite.saveState.calls,
          .suspended (ScheduledWrite.persistExecution firstExecution).calls] })
    [] ScheduledWrite.saveState.calls rfl
  have hlost := hstate.append (run_lost [.suspended []] rfl)
  have hpresent := h _ _ _ _ _ _ synced_new
    ((hcalls.append hlost).append (run_flush rfl rfl (by decide) (.nil _) rfl (by decide))) (.saved rfl)
  have horder := hpresent.orders (.client "1")
  revert horder
  decide +kernel

/-- `checkpoint_vouches` for the purchase with nothing raised. -/
theorem purchase_present : ∃ labels s t,
    Run Step (initial {} {} ([openingCandle, purchaseOf "1"].map .call ++ [.checkpoint])) labels s ∧
      Step s .saved t ∧ t.Present ∧ t.lastCheckpointSequence = 36000 := by
  obtain ⟨labels, s, t, hrun, hnone, hsaved, hengine, -⟩ :=
    exists_run_last {} [.saveState] scheduled_firstExecution
  obtain ⟨hpresent, hsequence, -⟩ := checkpoint_vouches synced_new hrun hnone.writesRecords hsaved
  refine ⟨labels, s, t, hrun, hsaved, hpresent, hsequence.trans ?_⟩
  rw [hengine]
  decide +kernel

end System

end CryptoTrading
