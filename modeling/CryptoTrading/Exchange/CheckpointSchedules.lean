import CryptoTrading.Exchange.CheckpointConvergence

/-! For which calls of the engine every schedule of their writes leads a checkpoint to a store that
holds what the engine has. -/

namespace CryptoTrading

open Kit

namespace PaperExecutionEngine

/-- The symbols of the executions of calls. -/
def filledSymbols (engine : PaperExecutionEngine) (calls : List EngineCall) : List String :=
  (engine.executions calls).map fun execution => execution.position.symbol

/-- The execution of one call. -/
def executionBy (engine : PaperExecutionEngine) (call : EngineCall) : Option Execution :=
  (engine.attempt call).2.bind ScheduledWrite.execution?

theorem executions_cons (engine : PaperExecutionEngine) (call : EngineCall)
    (rest : List EngineCall) : engine.executions (call :: rest) =
      (engine.executionBy call).toList ++ (engine.attempt call).1.executions rest := by
  rw [executions, scheduled, List.filterMap_append, executions, executionBy]
  cases (engine.attempt call).2 with
  | none => rfl
  | some write => cases write <;> rfl

/-- A call either leaves the positions alone or sets the one of its execution. -/
theorem attempt_positions (engine : PaperExecutionEngine) (call : EngineCall) :
    (engine.executionBy call = none ∧ (engine.attempt call).1.positions = engine.positions) ∨
      ∃ execution, engine.executionBy call = some execution ∧
        (engine.attempt call).1.positions =
          engine.positions.set execution.position.symbol execution.position ∧
        execution.position.quantity ≠ engine.heldQuantity execution.position.symbol := by
  rcases engine.attempt_cases call with h | ⟨event, -, -, h⟩ | ⟨args, price, -, hfills, h⟩
  · exact Or.inl ⟨by simp [executionBy, h], by rw [h]⟩
  · exact Or.inl ⟨by simp [executionBy, h, ScheduledWrite.execution?], by rw [h]; rfl⟩
  · refine Or.inr ⟨engine.executionAt args price,
      by simp [executionBy, h, ScheduledWrite.execution?], ?_, ?_⟩
    · rw [h, executionAt_symbol]
      rfl
    · have hpos := hfills.quantity_pos
      rw [executionAt_symbol, executionAt_quantity]
      cases args.request.side with
      | buy => exact ne_of_gt (lt_add_of_pos_right _ hpos)
      | sell => exact ne_of_lt (sub_lt_self _ hpos)

/-- The position of a symbol that no call fills stays. -/
theorem attemptAll_positions {engine : PaperExecutionEngine} {calls : List EngineCall}
    {symbol : String} (h : symbol ∉ engine.filledSymbols calls) :
    (engine.attemptAll calls).positions.get? symbol = engine.positions.get? symbol := by
  induction calls generalizing engine with
  | nil => rfl
  | cons call rest ih =>
    simp only [filledSymbols, executions_cons, List.map_append, List.mem_append, not_or] at h
    rw [attemptAll_cons, ih h.2]
    rcases engine.attempt_positions call with ⟨-, hsame⟩ | ⟨execution, hexec, hset, -⟩
    · rw [hsame]
    · rw [hset, Dict.get?_set_ne]
      rintro rfl
      exact h.1 (by simp [hexec])

/-- The first fill of a symbol moves its position. -/
theorem executions_quantity_ne {engine : PaperExecutionEngine} {calls : List EngineCall}
    (hnodup : (engine.filledSymbols calls).Nodup) {execution : Execution}
    (h : execution ∈ engine.executions calls) :
    execution.position.quantity ≠ engine.heldQuantity execution.position.symbol := by
  induction calls generalizing engine with
  | nil => cases h
  | cons call rest ih =>
    rw [filledSymbols, executions_cons] at hnodup
    rw [executions_cons] at h
    rcases engine.attempt_positions call with ⟨hnone, hsame⟩ | ⟨first, hexec, hset, hne⟩
    · simp only [hnone, Option.toList_none, List.nil_append] at hnodup h
      have := ih hnodup h
      simpa only [heldQuantity, hsame] using this
    · simp only [hexec, Option.toList_some, List.singleton_append, List.map_cons,
        List.nodup_cons] at hnodup h
      rcases List.mem_cons.mp h with rfl | h
      · exact hne
      · -- A later fill is of another symbol, whose position the first one left.
        have hother : first.position.symbol ≠ execution.position.symbol := fun heq =>
          hnodup.1 (heq ▸ List.mem_map_of_mem h)
        have := ih hnodup.2 h
        simpa only [heldQuantity, hset, Dict.get?_set_ne _ _ hother] using this

/-- No symbol is filled twice exactly when every position of an execution is still the engine's at
the end. -/
theorem filledSymbols_nodup_iff (engine : PaperExecutionEngine) (calls : List EngineCall) :
    (engine.filledSymbols calls).Nodup ↔ ∀ execution ∈ engine.executions calls,
      (engine.attemptAll calls).positions.get? execution.position.symbol =
        some execution.position := by
  induction calls generalizing engine with
  | nil => simp [filledSymbols, executions, scheduled]
  | cons call rest ih =>
    rw [filledSymbols, executions_cons, attemptAll_cons]
    rcases engine.attempt_positions call with ⟨hnone, -⟩ | ⟨first, hexec, hset, hne⟩
    · simpa [hnone, filledSymbols] using ih (engine.attempt call).1
    · simp only [hexec, Option.toList_some, List.singleton_append, List.map_cons, List.nodup_cons,
        List.forall_mem_cons]
      have hfirst : (engine.attempt call).1.positions.get? first.position.symbol =
          some first.position := by rw [hset, Dict.get?_set_self]
      constructor
      · rintro ⟨hnot, hnodup⟩
        exact ⟨(attemptAll_positions hnot).trans hfirst, (ih _).mp hnodup⟩
      · rintro ⟨hlast, hrest⟩
        have hnodup := (ih _).mpr hrest
        refine ⟨fun hmem => ?_, hnodup⟩
        obtain ⟨second, hsecond, hsymbol⟩ := List.mem_map.mp hmem
        have hsame : second.position = first.position := by
          have := hrest second hsecond
          rw [hsymbol, hlast] at this
          exact (Option.some.inj this).symm
        -- The second fill moved the position that the first one had set.
        refine executions_quantity_ne hnodup hsecond ?_
        rw [heldQuantity, hsame, hfirst, Option.elim_some]

end PaperExecutionEngine

namespace System

variable {s t : System} {engine : PaperExecutionEngine} {repository : PaperStateRepository}
  {calls : List EngineCall}

/-- No symbol has its position to be written twice, by what is pending or by what is still to be
filled. -/
def Distinct (s : System) : Prop :=
  (pendingSymbols s.unlanded ++ s.engine.filledSymbols (programCalls s.program)).Nodup

theorem pendingSymbols_append (first rest : List RepositoryCall) :
    pendingSymbols (first ++ rest) = pendingSymbols first ++ pendingSymbols rest := by
  simp [pendingSymbols]

theorem pendingSymbols_sublist {first rest : List RepositoryCall} (h : first.Sublist rest) :
    (pendingSymbols first).Sublist (pendingSymbols rest) :=
  (h.filterMap _).map _

theorem pendingSymbols_scheduled (call : EngineCall) :
    pendingSymbols ((engine.attempt call).2.elim [] ScheduledWrite.calls) =
      (engine.executionBy call).toList.map fun execution => execution.position.symbol := by
  rw [PaperExecutionEngine.executionBy]
  cases (engine.attempt call).2 with
  | none => rfl
  | some write => cases write <;> rfl

theorem Distinct.step (h : Distinct s) {label : Label} (hstep : Step s label t) : Distinct t := by
  have hless : ∀ {u : System}, u.engine = s.engine → programCalls u.program = programCalls s.program →
      u.unlanded.Sublist s.unlanded → Distinct u := by
    intro u hengine hprogram hsub
    rw [Distinct, hengine, hprogram]
    exact h.sublist ((pendingSymbols_sublist hsub).append_right _)
  cases hstep with
  | @operate call rest hidle hprogram =>
    rw [Distinct, hprogram] at h
    have hcalls : programCalls (.call call :: rest) = call :: programCalls rest := rfl
    rw [hcalls, PaperExecutionEngine.filledSymbols, PaperExecutionEngine.executions_cons,
      List.map_append, ← pendingSymbols_scheduled, ← List.append_assoc, ← pendingSymbols_append,
      ← unlanded_created] at h
    simpa [Distinct, unlanded, PaperExecutionEngine.filledSymbols] using h
  | @start before after call calls htasks =>
    refine hless rfl rfl ?_
    rw [unlanded_split htasks, unlanded_split rfl]
    simp [WriteTask.unlanded]
  | @finish before after write calls htasks =>
    refine hless rfl rfl ?_
    rw [unlanded_split htasks, unlanded_split rfl]
    exact ((List.sublist_cons_self _ _).append_right _).append_left _
  | @fail before after write calls htasks =>
    refine hless rfl rfl ?_
    rw [unlanded_split htasks, unlanded_split rfl]
    exact (List.sublist_append_right _ _).append_left _
  | @discard before after task htasks hdone =>
    refine hless rfl rfl ?_
    rw [unlanded_split htasks]
    simp [unlanded]
  | @beginCheckpoint rest hidle hprogram =>
    exact hless rfl (by rw [hprogram]; rfl) (List.Sublist.refl _)
  | gathered hflushing hreturned => exact hless rfl rfl (List.Sublist.refl _)
  | gatherRaises hflushing => exact hless rfl rfl (List.Sublist.refl _)
  | saved hsaving => exact hless rfl rfl (List.Sublist.refl _)
  | saveRaises hsaving => exact hless rfl rfl (List.Sublist.refl _)

theorem Distinct.not_overtakes (h : Distinct s) (label : Label) : ¬s.Overtakes label := by
  cases label with
  | operate =>
    rintro ⟨call, rest, execution, hprogram, hwrite, hpending⟩
    rw [Distinct, hprogram] at h
    refine (List.disjoint_of_nodup_append h) hpending ?_
    have hcalls : programCalls (.call call :: rest) = call :: programCalls rest := rfl
    rw [hcalls, PaperExecutionEngine.filledSymbols, PaperExecutionEngine.executions_cons]
    simp [PaperExecutionEngine.executionBy, hwrite, ScheduledWrite.execution?]
  | _ => exact id

/-- In a run from synced records without a raised write the records stay recorded, the positions
included, as long as no symbol is to be written twice. -/
theorem Synced.run_distinct (h : Synced engine repository) {program : List MainStep}
    (hdistinct : (engine.filledSymbols (programCalls program)).Nodup) {labels : List Label}
    (hrun : Run Step (initial engine repository program) labels s) (hnone : NothingRaises labels) :
    Recorded s ∧ PositionsRecorded s.engine s.repository s.unlanded := by
  have hall := hrun.invariant
    (P := fun passed s => NothingRaises passed →
      Recorded s ∧ PositionsRecorded s.engine s.repository s.unlanded ∧ Distinct s)
    (fun _ => ⟨h.recorded, h.positionsRecorded, hdistinct⟩)
    (fun passed m label m' ih hstep hpassed => by
      obtain ⟨hm, hpositions, hdistinct⟩ := ih fun other hother =>
        hpassed other (List.mem_append_left _ hother)
      have hwrites := NothingRaises.writesRecords hpassed label (by simp)
      exact ⟨hm.step hstep hwrites, PositionsRecorded.step hm.toOrderly hpositions hstep hwrites
        (hdistinct.not_overtakes label), hdistinct.step hstep⟩)
    hnone
  exact ⟨hall.1, hall.2.1⟩

theorem programCalls_map (calls : List EngineCall) :
    programCalls (calls.map .call ++ [.checkpoint]) = calls := by
  induction calls with
  | nil => rfl
  | cons call rest ih => exact congrArg (call :: ·) ih

theorem landed_persistExecution (engine : PaperExecutionEngine) (repository : PaperStateRepository)
    (execution : Execution) :
    (landed engine repository (ScheduledWrite.persistExecution execution).calls).positions.get?
      execution.position.symbol = some execution.position :=
  Dict.get?_set_self _ _ _

/-- Every schedule of the writes of calls leads the checkpoint after them to a store that holds what
the engine has, exactly when the calls fill no symbol twice. -/
theorem checkpoint_converges_iff (h : Synced engine repository) (calls : List EngineCall) :
    (∀ labels s t, Run Step (initial engine repository (calls.map .call ++ [.checkpoint])) labels s →
        NothingRaises labels → Step s .saved t → t.Converged) ↔
      (engine.filledSymbols calls).Nodup := by
  constructor
  · intro hall
    rw [PaperExecutionEngine.filledSymbols_nodup_iff]
    intro execution hexecution
    obtain ⟨write, hwrite, hsome⟩ := List.mem_filterMap.mp hexecution
    obtain rfl : write = .persistExecution execution := by
      cases write with
      | saveState => cases hsome
      | persistExecution other => cases hsome; rfl
    -- With the writes of this execution made last the store is left with its position.
    obtain ⟨before, after, hsplit⟩ := List.append_of_mem hwrite
    obtain ⟨labels, s, t, hrun, hnone, hsaved, hengine, hrepository⟩ :=
      exists_run_last repository _ hsplit
    have hpositions := (hall labels s t hrun hnone hsaved).positions execution.position.symbol
    rw [← hengine, ← hpositions, hrepository]
    exact landed_persistExecution _ _ execution
  · intro hnodup labels s t hrun hnone hsaved
    obtain ⟨hrecorded, hpositions⟩ := h.run_distinct (by rwa [programCalls_map]) hrun hnone
    exact hrecorded.converged hpositions hsaved

/-- Two purchases of one symbol leave the first one's position in the store when its writes are made
last. -/
theorem second_purchase_lost : ¬∀ (engine : PaperExecutionEngine)
    (repository : PaperStateRepository) (calls : List EngineCall) (labels : List Label)
    (s t : System), Synced engine repository →
      Run Step (initial engine repository (calls.map .call ++ [.checkpoint])) labels s →
      NothingRaises labels → Step s .saved t → t.Converged := by
  intro h
  have hsplit : ({} : PaperExecutionEngine).scheduled [openingCandle, purchaseOf "1", purchaseOf "2"] =
      [.saveState] ++ .persistExecution firstExecution ::
        (({} : PaperExecutionEngine).scheduled
          [openingCandle, purchaseOf "1", purchaseOf "2"]).drop 2 := by decide +kernel
  obtain ⟨labels, s, t, hrun, hnone, hsaved, hengine, hrepository⟩ := exists_run_last {} _ hsplit
  have hposition := (h _ _ _ labels s t synced_new hrun hnone hsaved).positions "BTCUSDT"
  have hstored : t.repository.positions.get? "BTCUSDT" = some firstExecution.position := by
    rw [hrepository]
    exact landed_persistExecution _ _ firstExecution
  rw [hstored, hengine] at hposition
  revert hposition
  decide +kernel

/-- `checkpoint_converges_iff` for one purchase. -/
theorem one_purchase_converges : ∃ labels s t,
    Run Step (initial {} {} ([openingCandle, purchaseOf "1"].map .call ++ [.checkpoint])) labels s ∧
      NothingRaises labels ∧ Step s .saved t ∧ t.Converged := by
  obtain ⟨labels, s, t, hrun, hnone, hsaved, -⟩ :=
    exists_run_last {} [.saveState] scheduled_firstExecution
  have hall := (checkpoint_converges_iff synced_new [openingCandle, purchaseOf "1"]).mpr
    (by decide +kernel)
  exact ⟨labels, s, t, hrun, hnone, hsaved, hall labels s t hrun hnone hsaved⟩

end System

end CryptoTrading
