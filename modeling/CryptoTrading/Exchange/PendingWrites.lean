import CryptoTrading.Exchange.EngineRecords
import CryptoTrading.Exchange.PaperStateRepository
import CryptoTrading.Kit.Run
import CryptoTrading.Kit.WriteBehind

/-! The engine's background writes as a transition system: the calls of the engine and the
checkpoints of one coroutine, in any interleaving with the calls of the repository that the pending
write tasks make. -/

namespace CryptoTrading

open Kit

/-- A repository call that a coroutine is still to make. -/
inductive RepositoryCall
  | saveOrder (order : PaperOrderState)
  | saveFill (fill : PaperFillState)
  | savePosition (position : PaperPositionState)
  | saveState
  deriving DecidableEq

/-- A repository call with its arguments, as it is made. -/
inductive RepositoryWrite
  | saveOrder (order : PaperOrderState)
  | saveFill (fill : PaperFillState)
  | savePosition (position : PaperPositionState)
  | saveState (state : PaperRuntimeState)
  deriving DecidableEq

/-- The write that a call makes; `_save_state` reads the engine when it is made. -/
def RepositoryCall.issue (engine : PaperExecutionEngine) : RepositoryCall → RepositoryWrite
  | saveOrder order => .saveOrder order
  | saveFill fill => .saveFill fill
  | savePosition position => .savePosition position
  | saveState => .saveState engine.savedState

/-- The call that made a write. -/
def RepositoryWrite.call : RepositoryWrite → RepositoryCall
  | saveOrder order => .saveOrder order
  | saveFill fill => .saveFill fill
  | savePosition position => .savePosition position
  | saveState _ => .saveState

@[simp] theorem RepositoryCall.call_issue (engine : PaperExecutionEngine) (call : RepositoryCall) :
    (call.issue engine).call = call := by
  cases call <;> rfl

def RepositoryWrite.apply (repository : PaperStateRepository) :
    RepositoryWrite → PaperStateRepository
  | saveOrder order => repository.saveOrder order
  | saveFill fill => repository.saveFill fill
  | savePosition position => repository.savePosition position
  | saveState state => repository.saveState state

/-- The calls of `_save_state` and of `_persist_execution`. -/
def ScheduledWrite.calls : ScheduledWrite → List RepositoryCall
  | saveState => [.saveState]
  | persistExecution execution =>
    [.saveOrder execution.order, .saveFill execution.fill, .savePosition execution.position,
      .saveState]

/-- A task of `_pending_writes`. -/
inductive WriteTask
  /-- The task is to make these calls; with none left it has returned. -/
  | suspended (calls : List RepositoryCall)
  /-- The task awaits a write, and is then to make these calls. -/
  | awaiting (write : RepositoryWrite) (calls : List RepositoryCall)
  /-- A call of the task has raised. -/
  | raised
  deriving DecidableEq

namespace WriteTask

/-- The calls of a task whose writes have not returned. -/
def unlanded : WriteTask → List RepositoryCall
  | suspended calls => calls
  | awaiting write calls => write.call :: calls
  | raised => []

/-- Whether the task awaits a write. -/
def inProgress : WriteTask → Bool
  | awaiting _ _ => true
  | _ => false

end WriteTask

/-- Where the coroutine that calls the engine is. -/
inductive MainState
  | idle
  /-- `flush` awaits the pending tasks, of which some may have raised. -/
  | flushing (raised : Bool)
  /-- `_checkpoint` awaits its own `save_state`. -/
  | saving (state : PaperRuntimeState)
  deriving DecidableEq

/-- A call of the engine, or a checkpoint. -/
inductive MainStep
  | call (call : EngineCall)
  | checkpoint
  deriving DecidableEq

/-- The calls of the engine in a program. -/
def programCalls (program : List MainStep) : List EngineCall :=
  program.filterMap fun
    | .call call => some call
    | .checkpoint => none

/-- The engine, what its caller is still to do, its pending writes, and the store. -/
structure System where
  engine : PaperExecutionEngine
  program : List MainStep
  main : MainState := .idle
  tasks : List WriteTask := []
  repository : PaperStateRepository
  lastCheckpointSequence : ℤ := 0
  deriving DecidableEq

inductive Label
  | operate
  | start (write : RepositoryWrite)
  | finish (write : RepositoryWrite)
  | fail (write : RepositoryWrite)
  | discard
  | beginCheckpoint
  | gathered
  | gatherRaises
  | saved
  | saveRaises
  deriving DecidableEq

/-- Whether a repository call raises in a step, or `flush` does, which only a repository call that
has raised makes it do. -/
def Label.raises : Label → Bool
  | fail _ => true
  | gatherRaises => true
  | saveRaises => true
  | _ => false

/-- Whether a write lands in a step. -/
def Label.lands : Label → Bool
  | finish _ => true
  | saved => true
  | _ => false

namespace System

/-- The calls of all tasks whose writes have not returned. -/
def unlanded (s : System) : List RepositoryCall := s.tasks.flatMap WriteTask.unlanded

/-- The tasks that a call of the engine creates. -/
def created (s : System) (call : EngineCall) : List WriteTask :=
  (s.engine.attempt call).2.toList.map fun write => .suspended write.calls

/-- `flush` after a task has raised: `gather` raises once it is awaited. -/
def taskRaised : MainState → MainState
  | .flushing _ => .flushing true
  | main => main

/-- One step of the caller or of a pending write. -/
inductive Step : System → Label → System → Prop
  /-- The caller calls the engine. -/
  | operate {s : System} {call : EngineCall} {rest : List MainStep} (hidle : s.main = .idle)
      (hprogram : s.program = .call call :: rest) :
      Step s .operate { s with
        engine := (s.engine.attempt call).1
        program := rest
        tasks := s.tasks ++ s.created call }
  /-- A task makes its next call. -/
  | start {s : System} {before after : List WriteTask} {call : RepositoryCall}
      {calls : List RepositoryCall} (htasks : s.tasks = before ++ .suspended (call :: calls) :: after) :
      Step s (.start (call.issue s.engine)) { s with
        tasks := before ++ .awaiting (call.issue s.engine) calls :: after }
  /-- The write that a task awaits returns. -/
  | finish {s : System} {before after : List WriteTask} {write : RepositoryWrite}
      {calls : List RepositoryCall} (htasks : s.tasks = before ++ .awaiting write calls :: after) :
      Step s (.finish write) { s with
        tasks := before ++ .suspended calls :: after
        repository := write.apply s.repository }
  /-- The write that a task awaits raises, without effect. -/
  | fail {s : System} {before after : List WriteTask} {write : RepositoryWrite}
      {calls : List RepositoryCall} (htasks : s.tasks = before ++ .awaiting write calls :: after) :
      Step s (.fail write) { s with
        tasks := before ++ .raised :: after
        main := taskRaised s.main }
  /-- The callback of a task that is done takes it out of `_pending_writes`. -/
  | discard {s : System} {before after : List WriteTask} {task : WriteTask}
      (htasks : s.tasks = before ++ task :: after) (hdone : task = .suspended [] ∨ task = .raised) :
      Step s .discard { s with tasks := before ++ after }
  /-- `_checkpoint` calls `flush`, which gathers the pending tasks. -/
  | beginCheckpoint {s : System} {rest : List MainStep} (hidle : s.main = .idle)
      (hprogram : s.program = .checkpoint :: rest) :
      Step s .beginCheckpoint { s with
        program := rest
        main := .flushing (decide (WriteTask.raised ∈ s.tasks)) }
  /-- All gathered tasks have returned, and `_checkpoint` calls `_save_state`. -/
  | gathered {s : System} (hflushing : s.main = .flushing false)
      (hreturned : ∀ task ∈ s.tasks, task = .suspended []) :
      Step s .gathered { s with main := .saving s.engine.savedState }
  /-- A gathered task has raised, and so does `_checkpoint`. -/
  | gatherRaises {s : System} (hflushing : s.main = .flushing true) :
      Step s .gatherRaises { s with main := .idle }
  /-- `save_state` returns, and so does `_checkpoint`. -/
  | saved {s : System} {state : PaperRuntimeState} (hsaving : s.main = .saving state) :
      Step s .saved { s with
        main := .idle
        repository := s.repository.saveState state
        lastCheckpointSequence := s.engine.lastSequence }
  /-- `save_state` raises, and so does `_checkpoint`. -/
  | saveRaises {s : System} {state : PaperRuntimeState} (hsaving : s.main = .saving state) :
      Step s .saveRaises { s with main := .idle }

theorem Step.repository_eq {s t : System} {label : Label} (h : Step s label t)
    (hlands : label.lands = false) : t.repository = s.repository := by
  cases h <;> first | rfl | cases hlands

theorem run_repository_eq {s t : System} {labels : List Label} (h : Run Step s labels t)
    (hlands : ∀ label ∈ labels, label.lands = false) : t.repository = s.repository := by
  induction h with
  | nil => rfl
  | cons first _ ih =>
    exact (ih fun label hmem => hlands label (List.mem_cons_of_mem _ hmem)).trans
      (first.repository_eq (hlands _ (List.mem_cons_self ..)))

/-- No repository call raises in the course of these labels. -/
def NothingRaises (labels : List Label) : Prop := ∀ label ∈ labels, label.raises = false

/-- A caller that is to run a program, with nothing pending. -/
def initial (engine : PaperExecutionEngine) (repository : PaperStateRepository)
    (program : List MainStep) : System :=
  { engine, program, repository }

/-! ### Schedules that run the tasks one after the other -/

/-- The store after a task makes its calls. -/
def landed (engine : PaperExecutionEngine) (repository : PaperStateRepository)
    (calls : List RepositoryCall) : PaperStateRepository :=
  calls.foldl (fun repository call => (call.issue engine).apply repository) repository

/-- The labels of a task that makes its calls one after the other. -/
def taskLabels (engine : PaperExecutionEngine) (calls : List RepositoryCall) : List Label :=
  calls.flatMap fun call => [.start (call.issue engine), .finish (call.issue engine)]

theorem run_task {s : System} (before : List WriteTask) (calls : List RepositoryCall)
    {after : List WriteTask}
    (htasks : s.tasks = before ++ .suspended calls :: after) :
    Run Step s (taskLabels s.engine calls)
      { s with tasks := before ++ .suspended [] :: after
               repository := landed s.engine s.repository calls } := by
  induction calls generalizing s with
  | nil =>
    have hsame : { s with tasks := before ++ .suspended [] :: after
                          repository := landed s.engine s.repository [] } = s := by
      rw [← htasks]
      rfl
    rw [hsame]
    exact .nil s
  | cons call calls ih =>
    have hstart := Step.start htasks
    have hfinish := Step.finish (s := { s with
      tasks := before ++ .awaiting (call.issue s.engine) calls :: after }) rfl
    exact .cons hstart (.cons hfinish (ih rfl))

/-- Suspended tasks make their calls one task after the other. -/
theorem run_tasks {s : System} (before : List WriteTask) (pending : List (List RepositoryCall))
    (after : List WriteTask)
    (htasks : s.tasks = before ++ pending.map WriteTask.suspended ++ after) :
    Run Step s (pending.flatMap (taskLabels s.engine))
      { s with tasks := before ++ pending.map (fun _ => .suspended []) ++ after
               repository := landed s.engine s.repository pending.flatten } := by
  induction pending generalizing s before with
  | nil =>
    have hsame : { s with tasks := before ++ ([] : List (List RepositoryCall)).map
                            (fun _ => WriteTask.suspended []) ++ after
                          repository := landed s.engine s.repository [].flatten } = s := by
      rw [List.map_nil, ← List.map_nil (f := WriteTask.suspended), ← htasks]
      rfl
    rw [hsame]
    exact .nil s
  | cons calls pending ih =>
    have htask : s.tasks = before ++ .suspended calls :: (pending.map .suspended ++ after) := by
      simpa using htasks
    have hfirst := run_task before calls htask
    have hrest := ih (s := { s with
        tasks := before ++ .suspended [] :: (pending.map WriteTask.suspended ++ after)
        repository := landed s.engine s.repository calls })
      (before ++ [.suspended []]) (by simp)
    have hall := hfirst.append hrest
    simpa [landed, List.foldl_append] using hall

theorem run_lost {s : System} (before : List WriteTask) {after : List WriteTask}
    {call : RepositoryCall} {calls : List RepositoryCall}
    (htasks : s.tasks = before ++ .suspended (call :: calls) :: after) :
    Run Step s [.start (call.issue s.engine), .fail (call.issue s.engine), .discard]
      { s with tasks := before ++ after, main := taskRaised s.main } :=
  .cons (.start htasks) (.cons (.fail rfl) (.single (.discard rfl (Or.inr rfl))))

/-- The caller makes its calls before any write is made. -/
theorem run_calls {s : System} (calls : List EngineCall) {rest : List MainStep}
    (hidle : s.main = .idle) (hprogram : s.program = calls.map .call ++ rest) :
    Run Step s (calls.map fun _ => .operate)
      { s with engine := s.engine.attemptAll calls
               program := rest
               tasks := s.tasks ++ (s.engine.scheduled calls).map fun write =>
                 .suspended write.calls } := by
  induction calls generalizing s with
  | nil =>
    have hsame : { s with engine := s.engine.attemptAll []
                          program := rest
                          tasks := s.tasks ++ (s.engine.scheduled []).map fun write =>
                            WriteTask.suspended write.calls } = s := by
      simp only [List.map_nil, List.nil_append] at hprogram
      simp [PaperExecutionEngine.scheduled, ← hprogram]
    rw [hsame]
    exact .nil s
  | cons call calls ih =>
    have hrest := ih (s := { s with
        engine := (s.engine.attempt call).1
        program := calls.map .call ++ rest
        tasks := s.tasks ++ s.created call }) hidle rfl
    have hall := Run.cons (Step.operate hidle hprogram) hrest
    simpa [PaperExecutionEngine.scheduled, created] using hall

theorem run_flush {s t : System} {rest : List MainStep} {labels : List Label}
    (hidle : s.main = .idle) (hprogram : s.program = .checkpoint :: rest)
    (hraised : .raised ∉ s.tasks)
    (hflush : Run Step { s with program := rest, main := .flushing false } labels t)
    (hflushing : t.main = .flushing false) (hreturned : ∀ task ∈ t.tasks, task = .suspended []) :
    Run Step s (.beginCheckpoint :: labels ++ [.gathered])
      { t with main := .saving t.engine.savedState } := by
  have hbegin := Step.beginCheckpoint hidle hprogram
  rw [decide_eq_false hraised] at hbegin
  exact (Run.cons hbegin hflush).snoc (.gathered hflushing hreturned)

/-! ### Labels of which none raises -/

theorem NothingRaises.append {first rest : List Label} (h : NothingRaises first)
    (h' : NothingRaises rest) : NothingRaises (first ++ rest) := fun label hlabel =>
  (List.mem_append.mp hlabel).elim (h label) (h' label)

theorem NothingRaises.flatMap {α : Type} {items : List α} {labels : α → List Label}
    (h : ∀ item ∈ items, NothingRaises (labels item)) : NothingRaises (items.flatMap labels) := by
  intro label hlabel
  obtain ⟨item, hitem, hmem⟩ := List.mem_flatMap.mp hlabel
  exact h item hitem label hmem

theorem nothingRaises_operate (calls : List EngineCall) :
    NothingRaises (calls.map fun _ => .operate) := by
  intro label hlabel
  obtain ⟨call, -, rfl⟩ := List.mem_map.mp hlabel
  rfl

theorem nothingRaises_taskLabels (engine : PaperExecutionEngine) (calls : List RepositoryCall) :
    NothingRaises (taskLabels engine calls) := by
  refine NothingRaises.flatMap fun call _ label hlabel => ?_
  rcases List.mem_cons.mp hlabel with rfl | hlabel
  · rfl
  · rw [List.mem_singleton.mp hlabel]
    rfl

theorem nothingRaises_flush {labels : List Label} (h : NothingRaises labels) :
    NothingRaises (.beginCheckpoint :: labels ++ [.gathered]) := by
  intro label hlabel
  simp only [List.cons_append, List.mem_cons, List.mem_append, List.not_mem_nil, or_false] at hlabel
  rcases hlabel with rfl | hlabel | rfl
  · rfl
  · exact h label hlabel
  · rfl

/-- Whichever write its calls have scheduled, a checkpoint may return with that one made last. -/
theorem exists_run_last {engine : PaperExecutionEngine} (repository : PaperStateRepository)
    {calls : List EngineCall} (before : List ScheduledWrite) {after : List ScheduledWrite}
    {last : ScheduledWrite} (h : engine.scheduled calls = before ++ last :: after) :
    ∃ labels s t, Run Step (initial engine repository (calls.map .call ++ [.checkpoint])) labels s ∧
      NothingRaises labels ∧ Step s .saved t ∧ t.engine = engine.attemptAll calls ∧
      t.repository = (landed t.engine
        (landed t.engine repository ((before ++ after).flatMap ScheduledWrite.calls))
        last.calls).saveState t.engine.savedState := by
  have hcalls := run_calls (s := initial engine repository (calls.map .call ++ [.checkpoint]))
    calls rfl rfl
  simp only [initial, List.nil_append, h, List.map_append, List.map_cons] at hcalls
  -- The tasks before, then those after, then the one between.
  have hbefore := run_tasks (s :=
      { engine := engine.attemptAll calls, program := [], main := .flushing false, repository
        tasks := before.map (fun write => .suspended write.calls) ++
          .suspended last.calls :: after.map fun write => .suspended write.calls })
    [] (before.map ScheduledWrite.calls)
    (.suspended last.calls :: after.map fun write => .suspended write.calls)
    (by simp [Function.comp_def])
  have hafter := run_tasks (s :=
      { engine := engine.attemptAll calls, program := [], main := .flushing false
        repository := landed (engine.attemptAll calls) repository
          (before.map ScheduledWrite.calls).flatten
        tasks := before.map (fun _ => .suspended []) ++
          .suspended last.calls :: after.map fun write => .suspended write.calls })
    (before.map (fun _ => .suspended []) ++ [.suspended last.calls])
    (after.map ScheduledWrite.calls) [] (by simp [Function.comp_def])
  have hlast := run_task (s :=
      { engine := engine.attemptAll calls, program := [], main := .flushing false
        repository := landed (engine.attemptAll calls) repository
          ((before ++ after).flatMap ScheduledWrite.calls)
        tasks := before.map (fun _ => .suspended []) ++
          .suspended last.calls :: after.map fun _ => .suspended [] })
    (before.map fun _ => .suspended []) last.calls rfl
  simp only [List.map_map, List.nil_append, Function.comp_def] at hbefore
  simp only [List.map_map, List.append_nil, Function.comp_def, List.append_assoc,
    List.singleton_append] at hafter
  rw [show landed (engine.attemptAll calls) (landed (engine.attemptAll calls) repository
      (before.map ScheduledWrite.calls).flatten) (after.map ScheduledWrite.calls).flatten =
      landed (engine.attemptAll calls) repository ((before ++ after).flatMap ScheduledWrite.calls) by
    simp [landed, List.flatMap_def]] at hafter
  have hflush := run_flush (s :=
      { engine := engine.attemptAll calls, program := [.checkpoint], repository
        tasks := before.map (fun write => .suspended write.calls) ++
          .suspended last.calls :: after.map fun write => .suspended write.calls })
    rfl rfl (by simp) (hbefore.append (hafter.append hlast)) rfl (by
      intro task htask
      simp only [List.mem_append, List.mem_map, List.mem_cons] at htask
      rcases htask with ⟨_, _, rfl⟩ | rfl | ⟨_, _, rfl⟩ <;> rfl)
  refine ⟨_, _, _, hcalls.append hflush, ?_, .saved rfl, rfl, rfl⟩
  refine (nothingRaises_operate calls).append (nothingRaises_flush ?_)
  exact (NothingRaises.flatMap fun _ _ => nothingRaises_taskLabels _ _).append
    ((NothingRaises.flatMap fun _ _ => nothingRaises_taskLabels _ _).append
      (nothingRaises_taskLabels _ _))

end System

end CryptoTrading
