import CryptoTrading.Runtime.SoakRuns

/-! How a soak ends.  A session that the runner returns has ended, and it is completed exactly when the
start, every pass of the loop, the shutdown and the report have come through. -/

namespace CryptoTrading

open Kit Kit.Fallible

/-- The lifecycle and the tasks of an application are what they were. -/
structure SameTasks (s t : ApplicationProcess) : Prop where
  state : t.state = s.state
  history : t.history = s.history
  closed : t.closed = s.closed
  runTask : t.runTask = s.runTask
  sessionCloseTask : t.sessionCloseTask = s.sessionCloseTask

theorem SameTasks.rfl {s : ApplicationProcess} : SameTasks s s :=
  ⟨.refl _, .refl _, .refl _, .refl _, .refl _⟩

theorem SameTasks.trans {s m t : ApplicationProcess} (h : SameTasks s m) (h' : SameTasks m t) :
    SameTasks s t where
  state := h'.state.trans h.state
  history := h'.history.trans h.history
  closed := h'.closed.trans h.closed
  runTask := h'.runTask.trans h.runTask
  sessionCloseTask := h'.sessionCloseTask.trans h.sessionCloseTask

namespace Composition

open ApplicationM

variable {composition : Composition} {answers : StartAnswers} {s t : ApplicationProcess}

theorem failPreflight_raises {errors : List String} {result : Except ApplicationError Unit}
    (h : Ends (failPreflight answers errors) s result t) : ∃ error, result = .error error := by
  unfold failPreflight at h
  rcases ends_bind_iff.mp h with ⟨error, -, rfl⟩ | ⟨_, _, -, h⟩
  · exact ⟨error, rfl⟩
  rcases ends_bind_iff.mp h with ⟨error, -, rfl⟩ | ⟨_, _, -, h⟩
  · exact ⟨error, rfl⟩
  rcases ends_bind_iff.mp h with ⟨error, -, rfl⟩ | ⟨_, _, -, h⟩
  · exact ⟨error, rfl⟩
  rcases ends_bind_iff.mp h with ⟨error, -, rfl⟩ | ⟨_, _, -, h⟩
  · exact ⟨error, rfl⟩
  · exact ⟨_, (ends_throw_iff.mp h).1⟩

/-- A start that returns leaves the application open, with the task of its runtime. -/
theorem start_returns (h : Ends (composition.start answers) {} (.ok ()) t) :
    t.runTask = true ∧ t.state ≠ .stopped := by
  unfold start at h
  rw [ends_bind_of_returns (ends_get_iff.mpr ⟨rfl, rfl⟩), if_pos rfl,
    ends_bind_of_returns ((ends_transition_iff (by simp [RuntimeState.next])).mpr ⟨rfl, rfl⟩)] at h
  dsimp only at h
  split at h
  · rename_i hpreflight
    rcases ends_bind_iff.mp h with ⟨error, -, herror⟩ | ⟨_, m, hlaunch, hannounce⟩
    · cases herror
    have hopen : Keeps (fun process => process.state ≠ .stopped) (composition.launch answers) := by
      refine keeps_launch (fun s t hstate _ _ hs => hstate ▸ hs) ?_
      rintro s target htarget - - rfl
      simp at htarget
    have hlaunched := hopen _ _ _ (by simp [ApplicationProcess.turned]) hlaunch
    have hannounced := keeps_announce (P := fun process => process.runTask = m.runTask ∧ process.state = m.state)
      (fun _ _ _ _ hs => hs) _ _ _ ⟨rfl, rfl⟩ hannounce
    rw [hannounced.1, hannounced.2]
    rcases launch_ends rfl rfl hpreflight hlaunch with ⟨htask, -⟩ | ⟨hraised, -⟩
    · exact ⟨htask, hlaunched⟩
    · exact absurd rfl hraised
  · obtain ⟨error, herror⟩ := failPreflight_raises h
    cases herror

end Composition

namespace SoakM

variable {s t : SoakProcess} {result : Except SoakError Unit} {item : SoakTurn}

/-- Sampling the runtime leaves the session alone, and of the application what its shutdown depends on. -/
structure Sampled (s t : SoakProcess) : Prop where
  session : t.session = s.session
  finishes : t.finishes = s.finishes
  application : SameTasks s.application t.application

theorem Sampled.rfl : Sampled s s := ⟨.refl _, .refl _, .rfl⟩

theorem Sampled.trans {m : SoakProcess} (h : Sampled s m) (h' : Sampled m t) : Sampled s t where
  session := h'.session.trans h.session
  finishes := h'.finishes.trans h.finishes
  application := h.application.trans h'.application

theorem checkTask_ends (htask : s.application.runTask = true) (h : Ends (checkTask item.task) s result t) :
    Sampled s t ∧ t.sequence = s.sequence ∧
      (result = .ok () ↔ completedRuntimeError item.task = none) := by
  unfold checkTask at h
  rw [ends_bind_of_returns (ends_get_iff.mpr ⟨rfl, rfl⟩)] at h
  split at h
  · split at h
    · rename_i herror
      obtain ⟨rfl, rfl⟩ := ends_throw_iff.mp h
      simp [herror, Sampled.rfl]
    · rename_i hnone
      split at h
      · obtain ⟨rfl, rfl⟩ := ends_pure_iff.mp h
        simp [hnone, Sampled.rfl]
      · obtain ⟨rfl, rfl⟩ := ends_set_iff.mp h
        exact ⟨⟨rfl, rfl, .rfl⟩, rfl, iff_of_true rfl hnone⟩
  · rename_i hrunning
    obtain ⟨rfl, rfl⟩ := ends_pure_iff.mp h
    have hnone : item.task = none := by simpa [htask] using hrunning
    simp [hnone, completedRuntimeError, Sampled.rfl]

theorem progress_ends {candlesProcessed : ℤ} (h : Ends (progress candlesProcessed) s result t) :
    Sampled s t ∧ t.sequence = s.sequence ∧ t.application = s.application ∧
      (result = .ok () ↔ 0 ≤ candlesProcessed) := by
  unfold progress at h
  rw [ends_bind_of_returns (ends_get_iff.mpr ⟨rfl, rfl⟩)] at h
  rcases ends_bind_iff.mp h with ⟨error, hraises, rfl⟩ | ⟨counted, m, hm, h⟩
  · obtain ⟨herror, rfl⟩ := ends_ofExcept_iff.mp hraises
    unfold SoakMetrics.recordRuntimeProgress at herror
    split at herror
    · simp [Sampled.rfl, *]
    · cases herror
  · obtain ⟨hok, rfl⟩ := ends_ofExcept_iff.mp hm
    obtain ⟨rfl, rfl⟩ := ends_set_iff.mp h
    have hnonneg := (SoakMetrics.count_recorded hok.symm).1
    exact ⟨⟨rfl, rfl, .rfl⟩, rfl, rfl, iff_of_true rfl hnonneg⟩

theorem beat_ends (h : Ends (beat item) s result t) :
    Sampled s t ∧ (result = .ok () ↔ s.sequence ≤ item.lastProcessedSequence ∧ item.save = none) ∧
      (result = .ok () → t.sequence = item.lastProcessedSequence) := by
  unfold beat at h
  rw [ends_bind_of_returns (ends_get_iff.mpr ⟨rfl, rfl⟩)] at h
  split at h
  · rename_i hbackwards
    obtain ⟨rfl, rfl⟩ := ends_throw_iff.mp h
    simp [Sampled.rfl, not_le.mpr hbackwards]
  · rename_i hforwards
    rw [ends_bind_of_returns (ends_set_iff.mpr ⟨rfl, rfl⟩)] at h
    split at h
    · rename_i hsave
      obtain ⟨rfl, rfl⟩ := ends_throw_iff.mp h
      refine ⟨⟨rfl, rfl, .rfl⟩, ?_, by simp⟩
      simp [hsave]
    · rename_i hsave
      obtain ⟨rfl, rfl⟩ := ends_modify_iff.mp h
      exact ⟨⟨rfl, rfl, .rfl⟩, iff_of_true rfl ⟨not_lt.mp hforwards, hsave⟩, fun _ => rfl⟩

theorem sleep_ends (h : Ends (sleep item) s result t) :
    Sampled s t ∧ t.sequence = s.sequence ∧ (result = .ok () ↔ item.cancelled = false) := by
  unfold sleep at h
  split at h
  · obtain ⟨rfl, rfl⟩ := ends_throw_iff.mp h
    simp [Sampled.rfl, *]
  · split at h
    · obtain ⟨rfl, rfl⟩ := ends_modify_iff.mp h
      refine ⟨⟨rfl, rfl, ⟨rfl, rfl, rfl, rfl, rfl⟩⟩, rfl, ?_⟩
      simp [*]
    · obtain ⟨rfl, rfl⟩ := ends_pure_iff.mp h
      simp [Sampled.rfl, *]

end SoakM

/-- A pass of the loop that comes to its end, after a heartbeat with this sequence. -/
structure SoakTurn.Passes (item : SoakTurn) (hasHeartbeat : Bool) (sequence : ℤ) : Prop where
  task : completedRuntimeError item.task = none
  candles : 0 ≤ item.candlesProcessed
  heartbeat : hasHeartbeat = true → sequence ≤ item.lastProcessedSequence ∧ item.save = none
  slept : item.cancelled = false

namespace Soak

open SoakM

variable {soak : Soak} {s t : SoakProcess} {result : Except SoakError Unit} {status : SoakStatus}
  {reason : Option String} {item : SoakTurn} {turns : List SoakTurn}

/-- A running session is told to finish. -/
theorem conclude_ends (hrunning : s.session.status = .running) (hstatus : status ≠ .running)
    (h : Ends (soak.conclude status reason) s result t) :
    t = { s with session := t.session, finishes := s.finishes + 1 } ∧
      ((result = .ok () ∧ t.session.status = status ∧ s.session.startedAt ≤ soak.clock s.finishes) ∨
        (∃ error, result = .error error ∧ t.session.status = .running) ∧
          (soak.clock s.finishes < s.session.startedAt ∨ status = .failed ∧ reason.getD "" = "")) := by
  unfold conclude at h
  rw [ends_bind_of_returns (ends_get_iff.mpr ⟨rfl, rfl⟩),
    ends_bind_of_returns (ends_set_iff.mpr ⟨rfl, rfl⟩)] at h
  obtain ⟨own, session, hfinish, rfl, rfl⟩ := ends_within_iff.mp h
  refine ⟨rfl, ?_⟩
  unfold SoakSession.finish at hfinish
  rw [ends_bind_of_returns (ends_get_iff.mpr ⟨rfl, rfl⟩), if_neg (not_not.mpr hrunning),
    if_neg hstatus] at hfinish
  split at hfinish
  · rename_i hempty
    obtain ⟨rfl, rfl⟩ := ends_throw_iff.mp hfinish
    exact .inr ⟨⟨_, rfl, hrunning⟩, .inr hempty⟩
  · rw [ends_bind_of_returns (ends_set_iff.mpr ⟨rfl, rfl⟩)] at hfinish
    split at hfinish
    · rename_i hearly
      obtain ⟨rfl, rfl⟩ := ends_throw_iff.mp hfinish
      exact .inr ⟨⟨_, rfl, hrunning⟩, .inl hearly⟩
    · rename_i hlate
      obtain ⟨rfl, rfl⟩ := ends_modify_iff.mp hfinish
      exact .inl ⟨rfl, rfl, not_lt.mp hlate⟩

theorem record_ends {f : SoakMetrics → SoakMetrics} (h : Ends (record f) s result t) :
    Sampled s t ∧ t.sequence = s.sequence ∧ result = .ok () := by
  obtain ⟨rfl, rfl⟩ := ends_modify_iff.mp h
  exact ⟨⟨rfl, rfl, .rfl⟩, rfl, rfl⟩

/-- The heartbeat is beaten only where there is one. -/
theorem beats_ends (h : Ends (soak.beats item) s result t) : Sampled s t ∧
    (result = .ok () ↔ (soak.composition.hasHeartbeat = true →
      s.sequence ≤ item.lastProcessedSequence ∧ item.save = none)) ∧
    (result = .ok () → soak.composition.hasHeartbeat = true → t.sequence = item.lastProcessedSequence) := by
  unfold beats at h
  split at h
  · rename_i hheart
    obtain ⟨hsame, hiff, hlast⟩ := beat_ends h
    exact ⟨hsame, by simpa [hheart] using hiff, fun hok _ => hlast hok⟩
  · rename_i hheart
    obtain ⟨rfl, rfl⟩ := ends_pure_iff.mp h
    exact ⟨.rfl, iff_of_true rfl fun hhas => absurd hhas hheart, fun _ hhas => absurd hhas hheart⟩

theorem turn_ends (htask : s.application.runTask = true) (h : Ends (soak.turn item) s result t) :
    Sampled s t ∧ (result = .ok () ↔ item.Passes soak.composition.hasHeartbeat s.sequence) ∧
      (result = .ok () → soak.composition.hasHeartbeat = true → t.sequence = item.lastProcessedSequence) := by
  unfold turn at h
  rcases ends_bind_iff.mp h with ⟨error, hraises, rfl⟩ | ⟨_, checked, hchecked, h⟩
  · obtain ⟨hsampled, -, hiff⟩ := checkTask_ends htask hraises
    refine ⟨hsampled, iff_of_false (by simp) fun hpasses => ?_, by simp⟩
    cases hiff.mpr hpasses.task
  obtain ⟨hsampled, hsequence, hiff⟩ := checkTask_ends htask hchecked
  have htaskReturned := hiff.mp rfl
  rcases ends_bind_iff.mp h with ⟨error, hraises, rfl⟩ | ⟨_, counted, hcounted, h⟩
  · obtain ⟨hsame, -, -, hiff⟩ := progress_ends hraises
    refine ⟨hsampled.trans hsame, iff_of_false (by simp) fun hpasses => ?_, by simp⟩
    cases hiff.mpr hpasses.candles
  obtain ⟨hsame, hsequence', -, hiff⟩ := progress_ends hcounted
  have hsampled := hsampled.trans hsame
  have hcandles := hiff.mp rfl
  have hbefore : counted.sequence = s.sequence := hsequence'.trans hsequence
  rcases ends_bind_iff.mp h with ⟨error, hraises, rfl⟩ | ⟨_, beaten, hbeaten, h⟩
  · obtain ⟨hsame, hiff, -⟩ := beats_ends hraises
    refine ⟨hsampled.trans hsame, iff_of_false (by simp) fun hpasses => ?_, by simp⟩
    cases hiff.mpr (hbefore ▸ hpasses.heartbeat)
  obtain ⟨hsame, hiff, hlast⟩ := beats_ends hbeaten
  have hsampled := hsampled.trans hsame
  have hheartbeat := hbefore ▸ hiff.mp rfl
  rcases ends_bind_iff.mp h with ⟨error, hraises, -⟩ | ⟨_, piped, hpiped, h⟩
  · cases (record_ends hraises).2.2
  rcases ends_bind_iff.mp h with ⟨error, hraises, -⟩ | ⟨_, assessed, hassessed, h⟩
  · cases (record_ends hraises).2.2
  obtain ⟨hpipe, hpipeSequence, -⟩ := record_ends hpiped
  obtain ⟨hrisk, hriskSequence, -⟩ := record_ends hassessed
  obtain ⟨hsleep, hsleepSequence, hiff⟩ := sleep_ends h
  refine ⟨((hsampled.trans hpipe).trans hrisk).trans hsleep, ?_, fun _ hheart => ?_⟩
  · rw [hiff]
    exact ⟨fun hslept => ⟨htaskReturned, hcandles, hheartbeat, hslept⟩, fun hpasses => hpasses.slept⟩
  · rw [hsleepSequence, hriskSequence, hpipeSequence]
    exact hlast rfl hheart

/-! ### The loop -/

/-- Every pass comes to its end, the heartbeats in order. -/
structure PassesAll (hasHeartbeat : Bool) (sequence : ℤ) (turns : List SoakTurn) : Prop where
  each : ∀ item ∈ turns, item.stopRequested = false ∧ completedRuntimeError item.task = none ∧
    0 ≤ item.candlesProcessed ∧ item.cancelled = false
  heartbeats : hasHeartbeat = true → (∀ item ∈ turns, item.save = none) ∧
    (sequence :: turns.map SoakTurn.lastProcessedSequence).IsChain (· ≤ ·)

theorem passesAll_nil {hasHeartbeat : Bool} {sequence : ℤ} : PassesAll hasHeartbeat sequence [] :=
  ⟨by simp, fun _ => ⟨by simp, List.isChain_singleton _⟩⟩

theorem passesAll_cons {hasHeartbeat : Bool} {sequence next : ℤ}
    (hnext : hasHeartbeat = true → next = item.lastProcessedSequence) :
    PassesAll hasHeartbeat sequence (item :: turns) ↔ item.stopRequested = false ∧
      item.Passes hasHeartbeat sequence ∧ PassesAll hasHeartbeat next turns := by
  constructor
  · rintro ⟨heach, hbeats⟩
    obtain ⟨⟨hstop, htask, hcandles, hslept⟩, hrest⟩ := List.forall_mem_cons.mp heach
    refine ⟨hstop, ⟨htask, hcandles, fun hheart => ?_, hslept⟩, ⟨hrest, fun hheart => ?_⟩⟩
    all_goals
      obtain ⟨hsaves, hchain⟩ := hbeats hheart
      obtain ⟨hsave, hsaves⟩ := List.forall_mem_cons.mp hsaves
      rw [List.map_cons, List.isChain_cons_cons] at hchain
    · exact ⟨hchain.1, hsave⟩
    · exact ⟨hsaves, hnext hheart ▸ hchain.2⟩
  · rintro ⟨hstop, ⟨htask, hcandles, hbeat, hslept⟩, ⟨hrest, hbeats⟩⟩
    refine ⟨List.forall_mem_cons.mpr ⟨⟨hstop, htask, hcandles, hslept⟩, hrest⟩, fun hheart => ?_⟩
    obtain ⟨hle, hsave⟩ := hbeat hheart
    obtain ⟨hsaves, hchain⟩ := hbeats hheart
    refine ⟨List.forall_mem_cons.mpr ⟨hsave, hsaves⟩, ?_⟩
    rw [List.map_cons, List.isChain_cons_cons]
    exact ⟨hle, hnext hheart ▸ hchain⟩

/-- A loop passes every turn, or it is stopped by a signal, or it raises. -/
theorem loop_ends (htask : s.application.runTask = true) (hrunning : s.session.status = .running)
    (h : Ends (soak.loop turns) s result t) : SameTasks s.application t.application ∧
      ((result = .ok () ∧ Sampled s t ∧ PassesAll soak.composition.hasHeartbeat s.sequence turns) ∨
        ¬PassesAll soak.composition.hasHeartbeat s.sequence turns ∧
          (result = .ok () ∧ t.session.status = .aborted ∨
            (∃ error, result = .error error) ∧ t.session.status = .running)) := by
  induction turns generalizing s with
  | nil =>
    obtain ⟨rfl, rfl⟩ := ends_pure_iff.mp h
    exact ⟨.rfl, .inl ⟨rfl, .rfl, passesAll_nil⟩⟩
  | cons item rest ih =>
    unfold loop at h
    split at h
    · rename_i hstop
      obtain ⟨hframe, hends⟩ := conclude_ends hrunning (by simp) h
      have hnot : ¬PassesAll soak.composition.hasHeartbeat s.sequence (item :: rest) := fun hall => by
        simp [(hall.each item List.mem_cons_self).1] at hstop
      refine ⟨by rw [hframe]; exact .rfl, .inr ⟨hnot, ?_⟩⟩
      rcases hends with ⟨hok, hstatus, -⟩ | ⟨⟨error, herror, hstatus⟩, -⟩
      · exact .inl ⟨hok, hstatus⟩
      · exact .inr ⟨⟨error, herror⟩, hstatus⟩
    · rename_i hgo
      rcases ends_bind_iff.mp h with ⟨error, hraises, rfl⟩ | ⟨_, m, hturn, h⟩
      · obtain ⟨hsampled, hiff, -⟩ := turn_ends htask hraises
        refine ⟨hsampled.application, .inr ⟨fun hall => ?_, .inr ⟨⟨error, rfl⟩, ?_⟩⟩⟩
        · cases hiff.mpr ((passesAll_cons fun _ => rfl).mp hall).2.1
        · rw [hsampled.session, hrunning]
      · obtain ⟨hsampled, hiff, hsequence⟩ := turn_ends htask hturn
        have hall : PassesAll _ s.sequence (item :: rest) ↔ _ := passesAll_cons (hsequence rfl)
        obtain ⟨happlication, hends⟩ := ih (by rw [hsampled.application.runTask, htask])
          (by rw [hsampled.session, hrunning]) h
        refine ⟨hsampled.application.trans happlication, ?_⟩
        rcases hends with ⟨hok, hrest, hpasses⟩ | ⟨hnot, hends⟩
        · exact .inl ⟨hok, hsampled.trans hrest, hall.mpr ⟨by simpa using hgo, hiff.mp rfl, hpasses⟩⟩
        · exact .inr ⟨fun hpasses => hnot (hall.mp hpasses).2.2, hends⟩

/-! ### The whole of a soak -/

/-- The application starts, every pass comes to its end, and then the soak is over. -/
structure Serves (soak : Soak) : Prop where
  starts : ∃ started, Ends (soak.composition.start soak.start) {} (.ok ()) started
  passes : PassesAll soak.composition.hasHeartbeat soak.startSequence soak.turns
  onTime : soak.startedAt ≤ soak.clock 0

/-- The session before its soak. -/
def session (soak : Soak) : SoakSession where
  startedAt := soak.startedAt

/-- What the start has left of the application is there until it is stopped. -/
def Started (soak : Soak) (application : ApplicationProcess) : Prop :=
  ∃ outcome started, Ends (soak.composition.start soak.start) {} outcome started ∧
    SameTasks started application

theorem serve_ends (h : Ends soak.serve { session := soak.session } result t) :
    Started soak t.application ∧ ((result = .ok () ∧ t.session.status = .completed ∧ Serves soak) ∨
      ¬Serves soak ∧ (result = .ok () ∧ t.session.status = .aborted ∨
        (∃ error, result = .error error) ∧ t.session.status = .running)) := by
  unfold serve at h
  rcases ends_bind_iff.mp h with ⟨error, hraises, rfl⟩ | ⟨_, m, hstart, h⟩
  · obtain ⟨own, application, hstart, hown, rfl⟩ := ends_within_iff.mp hraises
    refine ⟨⟨own, application, hstart, .rfl⟩, .inr ⟨fun hserves => ?_, .inr ⟨⟨error, rfl⟩, rfl⟩⟩⟩
    obtain ⟨started, hreturns⟩ := hserves.starts
    cases (Prod.mk.inj (hstart.symm.trans hreturns)).1
    cases hown
  obtain ⟨own, started, hstarts, hown, rfl⟩ := ends_within_iff.mp hstart
  obtain rfl : own = .ok () := mapError_eq_ok_iff.mp hown.symm
  rw [ends_bind_of_returns (ends_modify_iff.mpr ⟨rfl, rfl⟩)] at h
  have htask := (Composition.start_returns hstarts).1
  rcases ends_bind_iff.mp h with ⟨error, hraises, rfl⟩ | ⟨_, looped, hlooped, h⟩
  · obtain ⟨hsame, ⟨hok, -⟩ | ⟨hnot, ⟨hok, -⟩ | ⟨-, hrunning⟩⟩⟩ := loop_ends htask rfl hraises
    · cases hok
    · cases hok
    · refine ⟨⟨_, started, hstarts, hsame⟩, .inr ⟨fun hserves => hnot hserves.passes, .inr ⟨⟨error, rfl⟩, ?_⟩⟩⟩
      exact hrunning
  rw [ends_bind_of_returns (ends_get_iff.mpr ⟨rfl, rfl⟩)] at h
  obtain ⟨hsame, ⟨-, hsampled, hpasses⟩ | ⟨hnot, ⟨-, haborted⟩ | ⟨⟨error, herror⟩, -⟩⟩⟩ := loop_ends htask rfl hlooped
  · have hrunning : looped.session.status = .running := by rw [hsampled.session]; rfl
    rw [if_pos hrunning] at h
    obtain ⟨hframe, hends⟩ := conclude_ends hrunning (by simp) h
    have hstarted : Started soak t.application := ⟨_, started, hstarts, by rw [hframe]; exact hsame⟩
    rw [hsampled.session, hsampled.finishes] at hends
    rcases hends with ⟨hok, hcompleted, hle⟩ | ⟨⟨error, herror, hstill⟩, hearly | ⟨hfailed, -⟩⟩
    · exact ⟨hstarted, .inl ⟨hok, hcompleted, ⟨started, hstarts⟩, hpasses, hle⟩⟩
    · refine ⟨hstarted, .inr ⟨fun hserves => ?_, .inr ⟨⟨error, herror⟩, hstill⟩⟩⟩
      exact absurd hserves.onTime (not_le.mpr hearly)
    · cases hfailed
  · rw [if_neg (by simp [haborted])] at h
    obtain ⟨rfl, rfl⟩ := ends_pure_iff.mp h
    exact ⟨⟨_, started, hstarts, hsame⟩, .inr ⟨fun hserves => hnot hserves.passes, .inl ⟨rfl, haborted⟩⟩⟩
  · cases herror

theorem fail_ends {text : String} (h : Ends (soak.fail text) s result t) : t.application = s.application ∧
    if s.session.status = .running then
      (result = .ok () ∧ t.session.status = .failed ∨ (∃ error, result = .error error) ∧ t.session.status = .running)
    else result = .ok () ∧ t = s := by
  unfold fail at h
  rw [ends_bind_of_returns (ends_get_iff.mpr ⟨rfl, rfl⟩)] at h
  split at h
  · rename_i hrunning
    rw [if_pos hrunning]
    obtain ⟨hframe, hends⟩ := conclude_ends hrunning (by simp) h
    refine ⟨by rw [hframe], ?_⟩
    rcases hends with ⟨hok, hfailed, -⟩ | ⟨⟨error, herror, hstill⟩, -⟩
    · exact .inl ⟨hok, hfailed⟩
    · exact .inr ⟨⟨error, herror⟩, hstill⟩
  · rename_i hended
    rw [if_neg hended]
    obtain ⟨rfl, rfl⟩ := ends_pure_iff.mp h
    exact ⟨rfl, rfl, rfl⟩

/-- Where the soak does not come through, its session is not completed, and it has ended if nothing is
raised. -/
theorem guarded_ends (h : Ends soak.guarded { session := soak.session } result t) :
    Started soak t.application ∧ ((result = .ok () ∧ t.session.status = .completed ∧ Serves soak) ∨
      ¬Serves soak ∧ t.session.status ≠ .completed ∧ (result = .ok () → t.session.status ≠ .running)) := by
  unfold guarded at h
  rcases ends_tryCatch_iff.mp h with ⟨_, hserve, rfl⟩ | ⟨error, m, hserve, hhandler⟩
  · obtain ⟨hstarted, hcompleted | ⟨hnot, ⟨-, haborted⟩ | ⟨⟨error, herror⟩, -⟩⟩⟩ := serve_ends hserve
    · exact ⟨hstarted, .inl hcompleted⟩
    · exact ⟨hstarted, .inr ⟨hnot, by simp [haborted]⟩⟩
    · cases herror
  obtain ⟨⟨outcome, started, hstarts, hsame⟩, ⟨herror, -⟩ | ⟨hnot, ⟨herror, -⟩ | ⟨-, hrunning⟩⟩⟩ := serve_ends hserve
  · cases herror
  · cases herror
  split at hhandler
  · have hconcluded {own : Except SoakError Unit} {concluded : SoakProcess}
        (hconclude : Ends (soak.conclude .aborted (some "runner cancelled")) m own concluded) :
        Started soak concluded.application ∧ (concluded.session.status = .aborted ∨
          (∃ error, own = .error error) ∧ concluded.session.status = .running) := by
      obtain ⟨hframe, hends⟩ := conclude_ends hrunning (by simp) hconclude
      refine ⟨⟨_, started, hstarts, by rw [hframe]; exact hsame⟩, ?_⟩
      exact hends.imp (fun h => h.2.1) fun ⟨⟨error, herror, hstill⟩, _⟩ => ⟨⟨error, herror⟩, hstill⟩
    rcases ends_bind_iff.mp hhandler with ⟨error, hconclude, rfl⟩ | ⟨_, concluded, hconclude, hthrow⟩
    · obtain ⟨hstarted, haborted | ⟨-, hstill⟩⟩ := hconcluded hconclude
      · exact ⟨hstarted, .inr ⟨hnot, by simp [haborted]⟩⟩
      · exact ⟨hstarted, .inr ⟨hnot, by simp [hstill]⟩⟩
    · obtain ⟨rfl, rfl⟩ := ends_throw_iff.mp hthrow
      obtain ⟨hstarted, haborted | ⟨⟨_, herror⟩, -⟩⟩ := hconcluded hconclude
      · exact ⟨hstarted, .inr ⟨hnot, by simp [haborted]⟩⟩
      · cases herror
  · rcases ends_bind_iff.mp hhandler with ⟨error, hfail, rfl⟩ | ⟨_, failed, hfail, hrecord⟩
    · obtain ⟨happlication, hfailed⟩ := fail_ends hfail
      rw [if_pos hrunning] at hfailed
      refine ⟨⟨_, started, hstarts, happlication ▸ hsame⟩, .inr ⟨hnot, ?_⟩⟩
      rcases hfailed with ⟨hok, -⟩ | ⟨-, hstill⟩
      · cases hok
      · simp [hstill]
    · obtain ⟨happlication, hfailed⟩ := fail_ends hfail
      have hsampled := (record_ends hrecord).1
      rw [if_pos hrunning] at hfailed
      refine ⟨⟨_, started, hstarts, (happlication ▸ hsame).trans hsampled.application⟩, .inr ⟨hnot, ?_⟩⟩
      rw [hsampled.session]
      rcases hfailed with ⟨-, hstatus⟩ | ⟨⟨error, herror⟩, -⟩
      · simp [hstatus]
      · cases herror

/-- The application stops, and its candles are counted. -/
def Halts (soak : Soak) (application : ApplicationProcess) : Prop :=
  (∃ stopped, Ends (soak.composition.stop soak.raises) application (.ok ()) stopped) ∧ 0 ≤ soak.candlesAfter

theorem stop_ends (h : Ends soak.stop s result t) :
    t.session = s.session ∧ (result = .ok () ↔ Halts soak s.application) ∧
      ∃ own, Ends (soak.composition.stop soak.raises) s.application own t.application := by
  unfold stop at h
  rcases ends_bind_iff.mp h with ⟨error, hraises, rfl⟩ | ⟨_, stopped, hstop, hprogress⟩
  · obtain ⟨outcome, application, hstop, herror, rfl⟩ := ends_within_iff.mp hraises
    refine ⟨rfl, iff_of_false (by simp) fun hhalts => ?_, outcome, hstop⟩
    obtain ⟨stopped, hreturns⟩ := hhalts.1
    cases (Prod.mk.inj (hstop.symm.trans hreturns)).1
    cases herror
  · obtain ⟨outcome, application, hstop, hok, rfl⟩ := ends_within_iff.mp hstop
    obtain rfl : outcome = .ok () := mapError_eq_ok_iff.mp hok.symm
    obtain ⟨hsampled, -, happlication, hiff⟩ := progress_ends hprogress
    refine ⟨hsampled.session, hiff.trans ⟨fun hcandles => ⟨⟨_, hstop⟩, hcandles⟩, fun hhalts => hhalts.2⟩, ?_⟩
    rw [happlication]
    exact ⟨_, hstop⟩

/-- A stop that raises fails a session that is completed or still running, and no other. -/
theorem halt_ends (h : Ends soak.halt s result t) :
    (t.session.status = .completed ↔ s.session.status = .completed ∧ Halts soak s.application) ∧
      (s.session.status ≠ .running → result = .ok () ∧ t.session.status ≠ .running) ∧
      ∃ own, Ends (soak.composition.stop soak.raises) s.application own t.application := by
  unfold halt at h
  rcases ends_tryCatch_iff.mp h with ⟨_, hreturns, rfl⟩ | ⟨error, m, hraises, hhandler⟩
  · obtain ⟨hsession, hiff, hstop⟩ := stop_ends hreturns
    simp [hsession, hiff.mp rfl, hstop]
  obtain ⟨hsession, hiff, hstop⟩ := stop_ends hraises
  have hnot : ¬Halts soak s.application := fun hhalts => by simpa using hiff.mpr hhalts
  rw [ends_bind_of_returns (ends_get_iff.mpr ⟨rfl, rfl⟩)] at hhandler
  dsimp only at hhandler
  simp only [hnot, and_false, iff_false, ← hsession]
  split at hhandler
  · rename_i hrunning
    obtain ⟨hframe, hends⟩ := conclude_ends hrunning (by simp) hhandler
    have happlication : t.application = m.application := by rw [hframe]
    rw [happlication]
    rcases hends with ⟨-, hfailed, -⟩ | ⟨⟨_, -, hstill⟩, -⟩
    · simp [hfailed, hrunning, hstop]
    · simp [hstill, hrunning, hstop]
  · rename_i hended
    split at hhandler
    · obtain ⟨rfl, rfl⟩ := ends_set_iff.mp hhandler
      simp [hstop]
    · rename_i hother
      obtain ⟨rfl, rfl⟩ := ends_pure_iff.mp hhandler
      exact ⟨hother, fun hended => ⟨rfl, hended⟩, hstop⟩

theorem SameTasks.shutdownCalls {composition : Composition} {s t : ApplicationProcess} (h : SameTasks s t) :
    composition.shutdownCalls t = composition.shutdownCalls s := by
  unfold Composition.shutdownCalls
  rw [h.runTask, h.sessionCloseTask]

theorem halts_iff {application : ApplicationProcess} (hopen : application.state ≠ .stopped) :
    Halts soak application ↔ (∀ call ∈ soak.composition.shutdownCalls application ++
      soak.composition.closingCalls, soak.raises call = false) ∧ 0 ≤ soak.candlesAfter := by
  refine and_congr_left fun _ => ?_
  rw [← ApplicationM.outcome_eq_ok_iff]
  constructor
  · rintro ⟨stopped, hstop⟩
    exact (Composition.stop_shuts_down hopen hstop).result.symm
  · intro hok
    obtain ⟨outcome, stopped, hstop⟩ : ∃ outcome stopped,
        Ends (soak.composition.stop soak.raises) application outcome stopped := ⟨_, _, rfl⟩
    obtain rfl : outcome = .ok () := (Composition.stop_shuts_down hopen hstop).result.trans hok
    exact ⟨stopped, hstop⟩

theorem shutDown_ends (h : Ends soak.shutDown s result t) :
    ∃ own halted, Ends soak.halt s own halted ∧ t.session = halted.session ∧
      t.application = halted.application ∧ (result = .ok () ↔ own = .ok () ∧ soak.write = none) := by
  unfold shutDown at h
  rcases ends_bind_iff.mp h with ⟨error, hraises, rfl⟩ | ⟨_, halted, hhalt, h⟩
  · exact ⟨_, t, hraises, rfl, rfl, by simp⟩
  rw [ends_bind_of_returns (ends_modify_iff.mpr ⟨rfl, rfl⟩),
    ends_bind_of_returns (ends_modify_iff.mpr ⟨rfl, rfl⟩)] at h
  refine ⟨_, halted, hhalt, ?_⟩
  split at h
  · rename_i hwrite
    obtain ⟨rfl, rfl⟩ := ends_throw_iff.mp h
    simp [hwrite]
  · rename_i hwrite
    obtain ⟨rfl, rfl⟩ := ends_pure_iff.mp h
    simp [hwrite]

/-- All that a soak has to come through. -/
structure Succeeds (soak : Soak) : Prop extends Serves soak where
  stops : ∀ started, Ends (soak.composition.start soak.start) {} (.ok ()) started →
    ∀ call ∈ soak.composition.shutdownCalls started ++ soak.composition.closingCalls, soak.raises call = false
  counted : 0 ≤ soak.candlesAfter
  written : soak.write = none

/-- The `finally` clause of the runner always runs, and it returns the session that this leaves. -/
theorem runSoak_ends {result : Except SoakError SoakSession} (h : Ends soak.runSoak s result t) :
    ∃ outcome served finished, Ends soak.guarded s outcome served ∧ Ends soak.shutDown served finished t ∧
      ∀ session, result = .ok session ↔ finished = .ok () ∧ outcome = .ok () ∧ session = t.session := by
  unfold runSoak at h
  rcases ends_bind_iff.mp h with ⟨error, hraises, rfl⟩ | ⟨_, m, hreturns, h⟩
  · obtain ⟨outcome, served, hguarded, ⟨raised, hshut, -⟩ | ⟨hshut, rfl⟩⟩ := ends_andFinally_iff.mp hraises
    · exact ⟨outcome, served, _, hguarded, hshut, by simp⟩
    · exact ⟨_, served, _, hguarded, hshut, by simp⟩
  · obtain ⟨outcome, served, hguarded, ⟨raised, -, herror⟩ | ⟨hshut, rfl⟩⟩ := ends_andFinally_iff.mp hreturns
    · cases herror
    rw [ends_bind_of_returns (ends_get_iff.mpr ⟨rfl, rfl⟩)] at h
    obtain ⟨rfl, rfl⟩ := ends_pure_iff.mp h
    exact ⟨_, served, _, hguarded, hshut, fun session => by simp [eq_comm]⟩

/-- A soak that has served comes through when the application that it has started halts. -/
theorem succeeds_iff {started application : ApplicationProcess} (hserves : Serves soak)
    (hstarts : Ends (soak.composition.start soak.start) {} (.ok ()) started) (hsame : SameTasks started application) :
    Succeeds soak ↔ Halts soak application ∧ soak.write = none := by
  have hopen : application.state ≠ .stopped := by
    rw [hsame.state]
    exact (Composition.start_returns hstarts).2
  rw [halts_iff hopen, SameTasks.shutdownCalls hsame]
  constructor
  · intro hall
    exact ⟨⟨hall.stops started hstarts, hall.counted⟩, hall.written⟩
  · rintro ⟨⟨hstops, hcounted⟩, hwritten⟩
    refine ⟨hserves, fun other hother => ?_, hcounted, hwritten⟩
    cases (Prod.mk.inj (hstarts.symm.trans hother)).2
    exact hstops

/-- The stop of a soak that comes through leaves nothing running. -/
theorem Succeeds.stopped (h : Succeeds soak) {started application stopped : ApplicationProcess}
    {own : Except ApplicationError Unit}
    (hstarts : Ends (soak.composition.start soak.start) {} (.ok ()) started) (hsame : SameTasks started application)
    (hstop : Ends (soak.composition.stop soak.raises) application own stopped) :
    stopped.state = .stopped ∧ stopped.closed = true ∧ stopped.tradingEnabled = false := by
  have hopen : application.state ≠ .stopped := by
    rw [hsame.state]
    exact (Composition.start_returns hstarts).2
  have hshutDown := Composition.stop_shuts_down hopen hstop
  have hstops := h.stops started hstarts
  refine ⟨hshutDown.stopped.mpr ?_, hshutDown.closed.mpr (.inr ?_), hshutDown.trading.1⟩
  · rw [SameTasks.shutdownCalls hsame]
    exact fun call hmem => hstops call (List.mem_append_left _ hmem)
  · rwa [SameTasks.shutdownCalls hsame]

/-- A session that the runner returns has ended.  It is completed exactly when the soak has come through,
and then the application is stopped and closed, and does not trade. -/
theorem completed_iff (soak : Soak) (result : Except SoakError SoakSession) (t : SoakProcess)
    (h : Ends soak.runSoak { session := soak.session } result t) :
    (∀ session, result = .ok session → session = t.session ∧ session.status ≠ .running) ∧
      ((∃ session, result = .ok session ∧ session.status = .completed) ↔ Succeeds soak) ∧
      (Succeeds soak → t.application.state = .stopped ∧ t.application.closed = true ∧
        t.application.tradingEnabled = false) := by
  obtain ⟨outcome, served, finished, hguarded, hshut, hresult⟩ := runSoak_ends h
  obtain ⟨own, halted, hhalt, hsession, happlication, hfinished⟩ := shutDown_ends hshut
  obtain ⟨hcompleted, hended, stopping, hstop⟩ := halt_ends hhalt
  rw [← happlication] at hstop
  rw [← hsession] at hcompleted hended
  obtain ⟨⟨outcome, started, hstarts, hsame⟩, ⟨rfl, hstatus, hserves⟩ | ⟨hnot, hstatus, hrunning⟩⟩ :=
    guarded_ends hguarded
  · obtain ⟨_, hreturns⟩ := hserves.starts
    obtain ⟨rfl, rfl⟩ := Prod.mk.inj (hstarts.symm.trans hreturns)
    obtain ⟨rfl, hhalted⟩ := hended (by simp [hstatus])
    refine ⟨fun session hok => ?_, ?_, fun hall => hall.stopped hstarts hsame hstop⟩
    · obtain ⟨-, -, rfl⟩ := (hresult session).mp hok
      exact ⟨rfl, hhalted⟩
    · rw [succeeds_iff hserves hstarts hsame]
      constructor
      · rintro ⟨session, hok, hstill⟩
        obtain ⟨hshutDown, -, rfl⟩ := (hresult session).mp hok
        exact ⟨(hcompleted.mp hstill).2, (hfinished.mp hshutDown).2⟩
      · rintro ⟨hhalts, hwritten⟩
        exact ⟨t.session, (hresult _).mpr ⟨hfinished.mpr ⟨rfl, hwritten⟩, rfl, rfl⟩,
          hcompleted.mpr ⟨hstatus, hhalts⟩⟩
  · refine ⟨fun session hok => ?_, ?_, fun hall => absurd hall.toServes hnot⟩
    · obtain ⟨-, houtcome, rfl⟩ := (hresult session).mp hok
      exact ⟨rfl, (hended (hrunning houtcome)).2⟩
    · refine iff_of_false ?_ fun hall => hnot hall.toServes
      rintro ⟨session, hok, hstill⟩
      obtain ⟨-, -, rfl⟩ := (hresult session).mp hok
      exact hstatus (hcompleted.mp hstill).1

end Soak

def soakTurn (candles : ℤ) : SoakTurn where
  candlesProcessed := candles
  lastProcessedSequence := candles
  riskEngine := quietEngine

def btcSoak : Soak where
  composition := btcApplication
  startedAt := 0
  start := goodAnswers
  turns := [soakTurn 2, soakTurn 5]
  clock _ := hour
  candlesAfter := 6

theorem btcSoak_ends : ∃ session t, Ends btcSoak.runSoak { session := btcSoak.session } (.ok session) t ∧
    session.status = .completed := by
  have hcompleted : (ending (btcSoak.runSoak { session := btcSoak.session })).1.toOption.any
      (fun session => decide (session.status = .completed)) = true := by decide +kernel
  cases hrun : ending (btcSoak.runSoak { session := btcSoak.session }) with
  | mk result t =>
    rw [hrun] at hcompleted
    cases result with
    | error error => cases hcompleted
    | ok session => exact ⟨session, t, hrun, of_decide_eq_true hcompleted⟩

theorem btcSoak_succeeds : Soak.Succeeds btcSoak := by
  obtain ⟨session, t, hends, hcompleted⟩ := btcSoak_ends
  exact (Soak.completed_iff btcSoak _ _ hends).2.1.mp ⟨session, rfl, hcompleted⟩

end CryptoTrading
