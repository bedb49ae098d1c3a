import CryptoTrading.Execution.RuntimeWrites

/-! The operations in progress on the connection that all writes of a run share: never two at a time,
exactly when every write that the run schedules is followed by a checkpoint before the next. -/

namespace CryptoTrading

open Kit

namespace System

/-- The operations in progress: the writes that tasks await, and the checkpoint's own. -/
def operations (s : System) : ℕ :=
  s.tasks.countP WriteTask.inProgress +
    match s.main with
    | .saving _ => 1
    | _ => 0

/-- The tasks with a write to make or to await. -/
def live (s : System) : ℕ := s.tasks.countP fun task => !task.unlanded.isEmpty

/-- Whether a write may be pending when the engine is called next. -/
def pending (s : System) : Bool :=
  match s.main with
  | .idle => decide (0 < s.live)
  | _ => false

end System

/-- A program schedules no write while one may be pending. -/
def oneByOne : PaperExecutionEngine → Bool → List MainStep → Bool
  | _, _, [] => true
  | engine, _, .checkpoint :: rest => oneByOne engine false rest
  | engine, pending, .call call :: rest =>
    match (engine.attempt call).2 with
    | none => oneByOne (engine.attempt call).1 pending rest
    | some _ => !pending && oneByOne (engine.attempt call).1 true rest

@[simp] theorem oneByOne_checkpoint (engine : PaperExecutionEngine) (pending : Bool)
    (rest : List MainStep) :
    oneByOne engine pending (.checkpoint :: rest) = oneByOne engine false rest := rfl

theorem oneByOne_of_pending {engine : PaperExecutionEngine} {program : List MainStep}
    (h : oneByOne engine true program = true) (pending : Bool) :
    oneByOne engine pending program = true := by
  induction program generalizing engine with
  | nil => rfl
  | cons step rest ih =>
    cases step with
    | checkpoint => exact h
    | call call =>
      simp only [oneByOne] at h ⊢
      cases hwrite : (engine.attempt call).2 with
      | none => rw [hwrite] at h; exact ih h
      | some write => rw [hwrite] at h; cases h

/-- Calls of which at most one schedules a write, and none if one may be pending. -/
theorem oneByOne_calls (engine : PaperExecutionEngine) (pending : Bool) (calls : List EngineCall)
    (rest : List MainStep) : oneByOne engine pending (calls.map .call ++ rest) = true ↔
      (engine.scheduled calls).length + pending.toNat ≤ 1 ∧
        oneByOne (engine.attemptAll calls) (pending || !(engine.scheduled calls).isEmpty) rest =
          true := by
  induction calls generalizing engine pending with
  | nil => cases pending <;> simp [PaperExecutionEngine.scheduled]
  | cons call calls ih =>
    simp only [List.map_cons, List.cons_append, oneByOne, PaperExecutionEngine.scheduled,
      PaperExecutionEngine.attemptAll_cons]
    cases (engine.attempt call).2 with
    | none => simpa using ih (engine.attempt call).1 pending
    | some write =>
      cases pending with
      | true => simp
      | false => simpa [add_comm] using ih (engine.attempt call).1 true

/-- A program that schedules one write at most. -/
theorem oneByOne_of_scheduled {engine : PaperExecutionEngine} {pending : Bool}
    {program : List MainStep}
    (h : (engine.scheduled (programCalls program)).length + pending.toNat ≤ 1) :
    oneByOne engine pending program = true := by
  induction program generalizing engine pending with
  | nil => rfl
  | cons step rest ih =>
    cases step with
    | checkpoint => exact ih ((Nat.le_add_right _ _).trans h)
    | call call =>
      have hcalls : programCalls (.call call :: rest) = call :: programCalls rest := rfl
      rw [hcalls, PaperExecutionEngine.scheduled] at h
      simp only [oneByOne]
      cases hwrite : (engine.attempt call).2 with
      | none => exact ih (by simpa [hwrite] using h)
      | some write =>
        simp only [hwrite, Option.toList_some, List.singleton_append, List.length_cons] at h
        cases pending with
        | true => simp at h
        | false => exact ih (by simpa [add_comm] using h)

namespace System

variable {s t : System}

theorem live_split {before after : List WriteTask} {task : WriteTask}
    (htasks : s.tasks = before ++ task :: after) : s.live =
      (before.countP fun task => !task.unlanded.isEmpty) +
        ((after.countP fun task => !task.unlanded.isEmpty) + (!task.unlanded.isEmpty).toNat) := by
  rw [live, htasks, List.countP_append, List.countP_cons]
  cases (!task.unlanded.isEmpty) <;> rfl

/-- At most one task is at work, none while the checkpoint saves, and the rest of the program, which
a checkpoint ends, schedules its writes one by one. -/
structure Serial (s : System) : Prop where
  oneLive : s.live ≤ 1
  saving : ∀ state, s.main = .saving state → s.live = 0
  rest : oneByOne s.engine s.pending s.program = true
  last : ∀ step, s.program.getLast? = some step → step = .checkpoint

/-- A step of a task starts nothing. -/
theorem Serial.of_le (h : Serial s) (hengine : t.engine = s.engine) (hprogram : t.program = s.program)
    (hlive : t.live ≤ s.live) (hidle : t.main = .idle → s.main = .idle)
    (hsaving : ∀ state, t.main = .saving state → s.main = .saving state) : Serial t := by
  refine ⟨hlive.trans h.oneLive, fun state hs => ?_, ?_, by rw [hprogram]; exact h.last⟩
  · exact Nat.le_zero.mp (hlive.trans (h.saving state (hsaving state hs)).le)
  · rw [hengine, hprogram]
    cases hp : t.pending with
    | true =>
      -- A write that is pending after the step was so before it.
      have hs : s.pending = true := by
        unfold pending at hp ⊢
        cases hm : t.main with
        | idle =>
          rw [hm] at hp
          rw [hidle hm]
          exact decide_eq_true ((of_decide_eq_true hp).trans_le hlive)
        | flushing raised => rw [hm] at hp; cases hp
        | saving state => rw [hm] at hp; cases hp
      simpa only [hs] using h.rest
    | false =>
      cases hs : s.pending with
      | true => exact oneByOne_of_pending (by simpa only [hs] using h.rest) false
      | false => simpa only [hs] using h.rest

/-- A call of the engine schedules its write while none is pending. -/
theorem Serial.operate (h : Serial s) {call : EngineCall} {rest : List MainStep}
    (hidle : s.main = .idle) (hprogram : s.program = .call call :: rest) :
    Serial { s with
      engine := (s.engine.attempt call).1, program := rest, tasks := s.tasks ++ s.created call } := by
  have hrest := h.rest
  have hlast : ∀ step, rest.getLast? = some step → step = .checkpoint := fun step hstep =>
    h.last step (by rw [hprogram, List.getLast?_cons, hstep]; rfl)
  simp only [pending, hidle, hprogram, oneByOne] at hrest
  have hcreated : (s.tasks ++ s.created call).countP (fun task => !task.unlanded.isEmpty) =
      s.live + (s.engine.attempt call).2.isSome.toNat := by
    rw [List.countP_append, live, created]
    cases (s.engine.attempt call).2 with
    | none => rfl
    | some write => cases write <;> rfl
  cases hwrite : (s.engine.attempt call).2 with
  | none =>
    rw [hwrite] at hrest hcreated
    refine ⟨hcreated.trans_le h.oneLive, fun state hs => ?_, ?_, hlast⟩
    · rw [show s.main = .saving state from hs] at hidle
      cases hidle
    · simpa [pending, hidle, live, hcreated] using hrest
  | some write =>
    simp only [hwrite, Bool.and_eq_true, Bool.not_eq_true', decide_eq_false_iff_not, not_lt,
      Nat.le_zero] at hrest
    rw [hwrite, hrest.1] at hcreated
    refine ⟨hcreated.le, fun state hs => ?_, ?_, hlast⟩
    · rw [show s.main = .saving state from hs] at hidle
      cases hidle
    · rw [show pending _ = true by simp [pending, hidle, live, hcreated]]
      exact hrest.2

theorem Serial.step (h : Serial s) {label : Label} (hstep : Step s label t)
    (hreturns : label ≠ .gatherRaises ∧ label ≠ .saveRaises) : Serial t := by
  have hless : ∀ {before after : List WriteTask} {old : WriteTask} (new : WriteTask)
      (main : MainState) (repository : PaperStateRepository), s.tasks = before ++ old :: after →
      (!new.unlanded.isEmpty).toNat ≤ (!old.unlanded.isEmpty).toNat →
      System.live { s with tasks := before ++ new :: after, main, repository } ≤ s.live := by
    intro before after old new main repository htasks hle
    rw [live_split htasks, live_split rfl]
    omega
  cases hstep with
  | operate hidle hprogram => exact h.operate hidle hprogram
  | @start before after call calls htasks =>
    exact h.of_le rfl rfl (hless _ _ _ htasks le_rfl) id fun _ => id
  | @finish before after write calls htasks =>
    exact h.of_le rfl rfl (hless _ _ _ htasks (Bool.toNat_le _)) id fun _ => id
  | @fail before after write calls htasks =>
    refine h.of_le rfl rfl (hless .raised _ _ htasks (Nat.zero_le _)) ?_ ?_
    · intro hs
      cases hm : s.main <;> simp_all [taskRaised]
    · intro state hs
      cases hm : s.main <;> simp_all [taskRaised]
  | @discard before after task htasks hdone =>
    refine h.of_le rfl rfl ?_ id fun _ => id
    rw [live_split htasks, live, List.countP_append]
    omega
  | @beginCheckpoint rest hidle hprogram =>
    have hrest := h.rest
    rw [hprogram, oneByOne_checkpoint] at hrest
    exact ⟨h.oneLive, fun _ hs => (by cases hs), hrest, fun step hstep =>
      h.last step (by rw [hprogram, List.getLast?_cons, hstep]; rfl)⟩
  | gathered hflushing hreturned =>
    have hnone : s.live = 0 := by
      rw [live, List.countP_eq_zero]
      intro task hmem
      rw [hreturned task hmem]
      exact Bool.false_ne_true
    have hrest := h.rest
    simp only [pending, hflushing] at hrest
    exact ⟨h.oneLive, fun _ _ => hnone, hrest, h.last⟩
  | @saved state hsaving =>
    have hnone := h.saving state hsaving
    have hrest := h.rest
    simp only [pending, hsaving] at hrest
    refine ⟨h.oneLive, fun _ hs => (by cases hs), ?_, h.last⟩
    show oneByOne s.engine (decide (0 < s.live)) s.program = true
    rwa [decide_eq_false (not_lt.mpr hnone.le)]
  | gatherRaises hflushing => exact absurd rfl hreturns.1
  | saveRaises hsaving => exact absurd rfl hreturns.2

/-- What is left once a checkpoint has raised schedules nothing. -/
theorem Serial.step_raises (h : Serial s) {label : Label} (hstep : Step s label t)
    (hraises : label = .gatherRaises ∨ label = .saveRaises) :
    Serial { t with program := t.program.getLast?.toList } := by
  have hsame : t.engine = s.engine ∧ t.program = s.program ∧ t.main = .idle ∧ t.live = s.live := by
    rcases hraises with rfl | rfl <;> cases hstep <;> exact ⟨rfl, rfl, rfl, rfl⟩
  obtain ⟨-, hprogram, hidle, hlive⟩ := hsame
  have hlast : ∀ step, t.program.getLast? = some step → step = .checkpoint := hprogram ▸ h.last
  refine ⟨hlive.trans_le h.oneLive, fun state hs => ?_, ?_, ?_⟩
  · rw [show t.main = .saving state from hs] at hidle
    cases hidle
  · cases hp : t.program.getLast? with
    | none => rfl
    | some step => rw [hlast step hp]; rfl
  · cases hp : t.program.getLast? with
    | none => exact fun _ hs => by cases hs
    | some step => exact fun other hs => by cases hs; exact hlast step hp

theorem Serial.runtimeStep (h : Serial s) {label : Label} (hstep : RuntimeStep s label t) :
    Serial t := by
  cases hstep with
  | goes hstep hreturns => exact h.step hstep hreturns
  | ends hstep hraises => exact h.step_raises hstep hraises

theorem Serial.operations_le (h : Serial s) : s.operations ≤ 1 := by
  have hle : s.tasks.countP WriteTask.inProgress ≤ s.live :=
    List.countP_mono_left fun task _ hprogress => by
      cases task with
      | awaiting write calls => rfl
      | suspended calls => cases hprogress
      | raised => cases hprogress
  have hlive := h.oneLive
  unfold operations
  cases hm : s.main with
  | saving state =>
    have := h.saving state hm
    simp only
    omega
  | idle => exact hle.trans hlive
  | flushing raised => exact hle.trans hlive

/-! ### A schedule with two operations in progress -/

/-- Two tasks that have a write to make may both start it. -/
theorem start_two (before between after : List WriteTask) {first second : RepositoryCall}
    {firsts seconds : List RepositoryCall}
    (htasks : s.tasks = before ++ .suspended (first :: firsts) :: between ++
      .suspended (second :: seconds) :: after) :
    ∃ labels t, Run Step s labels t ∧ NothingRaises labels ∧ 2 ≤ t.operations := by
  have hsuspended : s.tasks = before ++ .suspended (first :: firsts) ::
      (between ++ .suspended (second :: seconds) :: after) := by simpa using htasks
  have hfirst := Step.start hsuspended
  have hboth : before ++ .awaiting (first.issue s.engine) firsts ::
      (between ++ .suspended (second :: seconds) :: after) =
      before ++ .awaiting (first.issue s.engine) firsts :: between ++
        .suspended (second :: seconds) :: after := by simp
  have hsecond := Step.start (s := { s with
    tasks := before ++ .awaiting (first.issue s.engine) firsts ::
      (between ++ .suspended (second :: seconds) :: after) }) hboth
  refine ⟨_, _, .cons hfirst (.single hsecond), ?_, ?_⟩
  · intro label hlabel
    simp only [List.mem_cons, List.not_mem_nil, or_false] at hlabel
    rcases hlabel with rfl | rfl <;> rfl
  · simp only [operations, List.countP_append, List.countP_cons, WriteTask.inProgress, if_true]
    omega

theorem exists_append_of_ne_nil {α : Type} {lists : List (List α)} (h : ∃ list ∈ lists, list ≠ []) :
    ∃ before first rest after, lists = before ++ (first :: rest) :: after := by
  obtain ⟨list, hmem, hne⟩ := h
  obtain ⟨before, after, rfl⟩ := List.append_of_mem hmem
  obtain ⟨first, rest, rfl⟩ := List.exists_cons_of_ne_nil hne
  exact ⟨before, first, rest, after, rfl⟩

/-- A program that does not schedule its writes one by one has a schedule with two operations in
progress. -/
theorem exists_two {program : List MainStep} (pending : Bool)
    (waiting : List (List RepositoryCall)) (hprogram : s.program = program) (hidle : s.main = .idle)
    (htasks : s.tasks = waiting.map .suspended)
    (hpending : pending = true → ∃ calls ∈ waiting, calls ≠ [])
    (h : oneByOne s.engine pending program = false) :
    ∃ labels t, Run Step s labels t ∧ NothingRaises labels ∧ 2 ≤ t.operations := by
  induction program generalizing s pending waiting with
  | nil => cases h
  | cons step rest ih =>
    cases step with
    | checkpoint =>
      -- The checkpoint makes the waiting writes and returns.
      have hall := run_tasks (s := { s with program := rest, main := .flushing false }) []
        waiting [] (by simpa using htasks)
      have hflush := run_flush hidle hprogram (by simp [htasks]) hall rfl (by simp)
      obtain ⟨labels, t, hrun, hnone, htwo⟩ := ih
        (s := { s with program := rest, main := .idle
                       tasks := [] ++ waiting.map (fun _ => .suspended []) ++ []
                       repository := (landed s.engine s.repository waiting.flatten).saveState
                         s.engine.savedState
                       lastCheckpointSequence := s.engine.lastSequence })
        false (waiting.map fun _ => []) rfl rfl (by simp) nofun h
      refine ⟨_, t, hflush.append (.cons (.saved rfl) hrun), ?_, htwo⟩
      refine (nothingRaises_flush (NothingRaises.flatMap fun _ _ => nothingRaises_taskLabels _ _)).append
        fun label hlabel => ?_
      rcases List.mem_cons.mp hlabel with rfl | hlabel
      · rfl
      · exact hnone label hlabel
    | call call =>
      have hoperate := Step.operate hidle hprogram
      have hlabels : ∀ labels, NothingRaises labels → NothingRaises (.operate :: labels) :=
        fun labels hnone label hlabel => (List.mem_cons.mp hlabel).elim (fun he => he ▸ rfl) (hnone label)
      simp only [oneByOne] at h
      cases hwrite : (s.engine.attempt call).2 with
      | none =>
        rw [hwrite] at h
        obtain ⟨labels, t, hrun, hnone, htwo⟩ := ih (s := { s with
            engine := (s.engine.attempt call).1, program := rest, tasks := s.tasks ++ s.created call })
          pending waiting rfl hidle (by simp [created, hwrite, htasks]) hpending h
        exact ⟨_, t, .cons hoperate hrun, hlabels labels hnone, htwo⟩
      | some write =>
        rw [hwrite] at h
        obtain ⟨first, firsts, hcalls⟩ : ∃ first firsts, write.calls = first :: firsts := by
          cases write <;> exact ⟨_, _, rfl⟩
        cases pending with
        | true =>
          obtain ⟨before, other, others, after, rfl⟩ := exists_append_of_ne_nil (hpending rfl)
          have hboth : s.tasks ++ s.created call =
              before.map .suspended ++ .suspended (other :: others) :: after.map .suspended ++
                .suspended (first :: firsts) :: [] := by
            simp [created, hwrite, htasks, hcalls]
          obtain ⟨labels, t, hrun, hnone, htwo⟩ := start_two (s := { s with
              engine := (s.engine.attempt call).1, program := rest
              tasks := s.tasks ++ s.created call }) _ _ _ hboth
          exact ⟨_, t, .cons hoperate hrun, hlabels labels hnone, htwo⟩
        | false =>
          obtain ⟨labels, t, hrun, hnone, htwo⟩ := ih (s := { s with
              engine := (s.engine.attempt call).1, program := rest, tasks := s.tasks ++ s.created call })
            true (waiting ++ [write.calls]) rfl hidle (by simp [created, hwrite, htasks])
            (fun _ => ⟨write.calls, by simp, by simp [hcalls]⟩) (by simpa using h)
          exact ⟨_, t, .cons hoperate hrun, hlabels labels hnone, htwo⟩

/-- A program that a checkpoint ends has at most one operation in progress, under any schedule and
whatever raises, exactly when it schedules its writes one by one. -/
theorem operations_le_iff_oneByOne (engine : PaperExecutionEngine) (repository : PaperStateRepository)
    (steps : List MainStep) :
    (∀ labels s, Run RuntimeStep (initial engine repository (steps ++ [.checkpoint])) labels s →
        s.operations ≤ 1) ↔ oneByOne engine false (steps ++ [.checkpoint]) = true := by
  constructor
  · intro h
    by_contra hnot
    obtain ⟨labels, t, hrun, hnone, htwo⟩ := exists_two
      (s := initial engine repository (steps ++ [.checkpoint])) false [] rfl rfl rfl nofun
      (Bool.eq_false_of_not_eq_true hnot)
    have := h labels t (runtimeStep_of_nothingRaises hrun hnone)
    omega
  · intro h labels s hrun
    have hstart : Serial (initial engine repository (steps ++ [.checkpoint])) :=
      ⟨Nat.zero_le _, fun _ _ => rfl, h, fun step hstep => by
        rw [initial, List.getLast?_append, List.getLast?_singleton, Option.some_or] at hstep
        exact (Option.some.inj hstep).symm⟩
    exact (hrun.invariant (P := fun _ s => Serial s) hstart
      fun _ _ _ _ hm hstep => hm.runtimeStep hstep).operations_le

end System

/-! ### The runtime's runs -/

/-- Requests that are executed schedule the writes of their executions alone. -/
theorem Executes.executions_eq_nil_iff {engine : PaperExecutionEngine} {calls : List EngineCall}
    (h : Executes calls) : engine.executions calls = [] ↔ engine.scheduled calls = [] := by
  rw [PaperExecutionEngine.executions]
  induction calls generalizing engine with
  | nil => simp [PaperExecutionEngine.scheduled]
  | cons call rest ih =>
    obtain ⟨args, rfl⟩ := h call (List.mem_cons_self ..)
    have ih := @ih (engine.attempt (.execute args)).1 fun other hother =>
      h other (List.mem_cons_of_mem _ hother)
    rw [PaperExecutionEngine.scheduled, List.filterMap_append]
    rcases engine.attempt_cases (.execute args) with hcall | ⟨_, he, -⟩ | ⟨_, price, he, -, hcall⟩
    · simpa [hcall] using ih
    · cases he
    · simp [hcall, ScheduledWrite.execution?]

theorem scheduled_of_takes {engine : PaperExecutionEngine} {event : MarketEvent}
    (h : engine.Takes event) (rest : List EngineCall) :
    engine.scheduled (.marketEvent event :: rest) =
      .saveState :: (engine.accept event).scheduled rest := by
  have hcall : engine.attempt (.marketEvent event) = (engine.accept event, some .saveState) := by
    simp [PaperExecutionEngine.attempt, PaperExecutionEngine.call,
      PaperExecutionEngine.onMarketEvent_of_takes h]
  simp [PaperExecutionEngine.scheduled, hcall]

namespace RuntimeSettings

variable {σ : Type} (settings : RuntimeSettings σ)

/-- The calls of the engine in the processing of a feed. -/
def feedCalls (state : PaperTradingRuntime σ) (feed : List MarketEvent) : List EngineCall :=
  engineCalls (settings.processFeed state feed).actions

/-- The processing of a feed goes on with the rest of it unless its first event raises. -/
theorem program_cons (state : PaperTradingRuntime σ) (event : MarketEvent)
    (feed : List MarketEvent) :
    ((settings.processCandle state event).raised = none ∧
        settings.program state (event :: feed) =
          mainSteps (settings.processCandle state event).actions ++
            settings.program (settings.processCandle state event).state feed ∧
        settings.feedCalls state (event :: feed) =
          engineCalls (settings.processCandle state event).actions ++
            settings.feedCalls (settings.processCandle state event).state feed) ∨
      ((settings.processCandle state event).raised ≠ none ∧
        settings.program state (event :: feed) =
          mainSteps (settings.processCandle state event).actions ++ [.checkpoint] ∧
        settings.feedCalls state (event :: feed) =
          engineCalls (settings.processCandle state event).actions) := by
  cases hr : (settings.processCandle state event).raised with
  | none =>
    refine Or.inl ⟨rfl, ?_⟩
    simp [program, feedCalls, processFeed, Outcome.andThen_of_returned hr]
  | some error =>
    refine Or.inr ⟨Option.some_ne_none _, ?_⟩
    simp [program, feedCalls, processFeed, Outcome.andThen_of_raised hr]

/-- While a write may be pending the run schedules none, if it schedules its writes one by one. -/
theorem scheduled_of_pending {state : PaperTradingRuntime σ} {feed : List MarketEvent}
    (h : oneByOne state.engine true (settings.program state feed) = true) :
    state.engine.scheduled (settings.feedCalls state feed) = [] := by
  induction feed generalizing state with
  | nil => rfl
  | cons event feed ih =>
    by_cases ht : state.engine.Takes event
    · obtain ⟨executes, -, -, hsteps, -⟩ := settings.processCandle_steps ht
      exfalso
      rcases settings.program_cons state event feed with ⟨-, hprogram, -⟩ | ⟨-, hprogram, -⟩
      all_goals
        rw [hprogram, hsteps, List.append_assoc, oneByOne_calls, scheduled_of_takes ht] at h
        simp at h
    · obtain ⟨hstate, hsteps, hengine, hnone⟩ := settings.processCandle_steps_of_not_takes ht
      rcases settings.program_cons state event feed with ⟨-, hprogram, hcalls⟩ | ⟨-, -, hcalls⟩
      · rw [hprogram, hsteps, oneByOne_calls, hengine, hnone, hstate] at h
        rw [hcalls, PaperExecutionEngine.scheduled_append, hengine, hnone, hstate]
        exact ih (by simpa using h.2)
      · rw [hcalls, hnone]

/-- With a checkpoint after every candle the writes come one by one exactly when nothing is
executed. -/
theorem oneByOne_every_candle (hinterval : settings.checkpointInterval = 1)
    (state : PaperTradingRuntime σ) (feed : List MarketEvent) :
    oneByOne state.engine false (settings.program state feed) = true ↔
      state.engine.executions (settings.feedCalls state feed) = [] := by
  induction feed generalizing state with
  | nil => exact ⟨fun _ => rfl, fun _ => rfl⟩
  | cons event feed ih =>
    by_cases ht : state.engine.Takes event
    · obtain ⟨executes, hexecutes, hcalls, hsteps, -⟩ := settings.processCandle_steps ht
      have hengine := settings.processCandle_engine state event
      have hown : state.engine.executions (.marketEvent event :: executes) =
          (state.engine.accept event).executions executes := by
        rw [PaperExecutionEngine.executions, scheduled_of_takes ht]
        rfl
      rcases settings.program_cons state event feed with ⟨hr, hprogram, hall⟩ | ⟨hr, hprogram, hall⟩
      · rw [hprogram, hsteps, if_pos ⟨hr, by rw [hinterval]; exact Nat.mod_one _⟩, List.append_assoc,
          oneByOne_calls, ← hcalls, ← hengine, List.singleton_append, oneByOne_checkpoint, ih, hall,
          PaperExecutionEngine.executions_append, ← hengine, List.append_eq_nil_iff, hcalls, hown,
          hexecutes.executions_eq_nil_iff, scheduled_of_takes ht]
        simp
      · rw [hprogram, hsteps, if_neg fun hc => hr hc.1, List.append_nil, oneByOne_calls, hall, hcalls,
          hown, hexecutes.executions_eq_nil_iff, scheduled_of_takes ht]
        simp [oneByOne]
    · obtain ⟨hstate, hsteps, hengine, hnone⟩ := settings.processCandle_steps_of_not_takes ht
      rcases settings.program_cons state event feed with ⟨-, hprogram, hall⟩ | ⟨-, hprogram, hall⟩
      · have ih := ih state
        rw [hprogram, hsteps, oneByOne_calls, hall, PaperExecutionEngine.executions_append, hengine,
          hnone, hstate]
        simpa [PaperExecutionEngine.executions, hnone] using ih
      · rw [hprogram, hsteps, oneByOne_calls, hall, hnone, PaperExecutionEngine.executions, hnone]
        simp [oneByOne]

/-- Without a checkpoint after the first candle the writes come one by one only when there is at most
one. -/
theorem scheduled_of_oneByOne (hinterval : settings.checkpointInterval ≠ 1)
    (state : PaperTradingRuntime σ) (hcount : state.candlesProcessed = 0) {feed : List MarketEvent}
    (h : oneByOne state.engine false (settings.program state feed) = true) :
    (state.engine.scheduled (settings.feedCalls state feed)).length ≤ 1 := by
  induction feed generalizing state with
  | nil => exact Nat.zero_le _
  | cons event feed ih =>
    by_cases ht : state.engine.Takes event
    · obtain ⟨executes, -, hcalls, hsteps, -⟩ := settings.processCandle_steps ht
      have hengine := settings.processCandle_engine state event
      have hdue : ¬((settings.processCandle state event).raised = none ∧
          (state.candlesProcessed + 1) % settings.checkpointInterval = 0) := by
        rintro ⟨-, hdue⟩
        rw [hcount, zero_add, Nat.one_mod_eq_zero_iff] at hdue
        exact hinterval hdue
      rw [if_neg hdue, List.append_nil, ← hcalls] at hsteps
      rcases settings.program_cons state event feed with ⟨-, hprogram, hall⟩ | ⟨-, hprogram, hall⟩
      all_goals rw [hprogram, hsteps, oneByOne_calls] at h
      · have hone := h.1
        have hrest := h.2
        have hsome : (state.engine.scheduled
            (engineCalls (settings.processCandle state event).actions)).isEmpty = false := by
          rw [hcalls, scheduled_of_takes ht]
          rfl
        rw [hsome, ← hengine] at hrest
        rw [hall, PaperExecutionEngine.scheduled_append, ← hengine,
          settings.scheduled_of_pending hrest, List.append_nil]
        exact hone
      · rw [hall]
        exact h.1
    · obtain ⟨hstate, hsteps, hengine, hnone⟩ := settings.processCandle_steps_of_not_takes ht
      rcases settings.program_cons state event feed with ⟨-, hprogram, hall⟩ | ⟨-, -, hall⟩
      · rw [hprogram, hsteps, oneByOne_calls, hengine, hnone, hstate] at h
        rw [hall, PaperExecutionEngine.scheduled_append, hengine, hnone, hstate]
        exact ih _ hcount (by simpa using h.2)
      · rw [hall, hnone]
        exact Nat.zero_le _

/-- In the run of a new runtime over a feed there is at most one operation in progress, under any
schedule and whatever raises, exactly when the run schedules at most one write, or executes nothing
and makes a checkpoint after every candle. -/
theorem one_operation_iff (engine : PaperExecutionEngine) (strategyState : σ)
    (feed : List MarketEvent) (repository : PaperStateRepository) :
    (∀ labels s, Run RuntimeStep
        (System.initial engine repository (settings.program { engine, strategyState } feed)) labels s →
      s.operations ≤ 1) ↔
      (engine.scheduled (settings.feedCalls { engine, strategyState } feed)).length ≤ 1 ∨
        (settings.checkpointInterval = 1 ∧
          engine.executions (settings.feedCalls { engine, strategyState } feed) = []) := by
  have hevery := fun hinterval =>
    settings.oneByOne_every_candle hinterval { engine, strategyState } feed
  refine (System.operations_le_iff_oneByOne engine repository _).trans ⟨fun h => ?_, ?_⟩
  · by_cases hinterval : settings.checkpointInterval = 1
    · exact Or.inr ⟨hinterval, (hevery hinterval).mp h⟩
    · exact Or.inl (settings.scheduled_of_oneByOne hinterval { engine, strategyState } rfl h)
  · rintro (hone | ⟨hinterval, hnone⟩)
    · refine oneByOne_of_scheduled ?_
      rw [programCalls, List.filterMap_append, ← programCalls, programCalls_mainSteps]
      simpa [feedCalls] using hone
    · exact (hevery hinterval).mpr hnone

/-- A runtime whose strategy buys one unit on every candle. -/
def buying : RuntimeSettings Unit where
  strategy := some ⟨fun _ candle _ => some ([⟨candle.symbol, .buy, 1⟩], ())⟩
  runId := "run"
  clock event _ := event.candle.closeTime

/-- One candle on which it buys: the save that the candle schedules and the writes of the purchase
are pending together, and each may have an operation in progress. -/
theorem purchase_overlaps : ¬∀ (settings : RuntimeSettings Unit) (engine : PaperExecutionEngine)
    (feed : List MarketEvent) (repository : PaperStateRepository) (labels : List Label) (s : System),
    Run RuntimeStep (System.initial engine repository
      (settings.program { engine, strategyState := () } feed)) labels s → s.operations ≤ 1 := by
  intro h
  obtain ⟨labels, t, hrun, hnone, htwo⟩ := System.exists_two
    (s := System.initial {} {} (buying.program { engine := {}, strategyState := () }
      [⟨⟨"BTCUSDT", hour, 2 * hour, 100, 100, 100, 100, 1⟩, 36000, "bybit-rest-dds"⟩]))
    false [] rfl rfl rfl nofun (by decide +kernel)
  have := h buying {} _ {} labels t (runtimeStep_of_nothingRaises hrun hnone)
  omega

end RuntimeSettings

end CryptoTrading
