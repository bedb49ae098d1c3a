import CryptoTrading.Pipeline.PipelineSteps

/-! Which events a checkpoint vouches for.  The checkpoint of an event that has failed is written too,
and the guard of a restarted pipeline trusts it. -/

namespace CryptoTrading

open Kit

/-- A call of `persistence.checkpoint`, made on either path. -/
def ServiceCall.IsCheckpoint : ServiceCall → Prop
  | .checkpoint => True
  | .bestEffortCheckpoint _ => True
  | _ => False

/-- What is seen of a checkpoint: its call, or its answer. -/
def PipelineEvent.OfCheckpoint (seen : PipelineEvent) (event : MarketEvent) : Prop :=
  ∃ call : ServiceCall, call.IsCheckpoint ∧
    (seen = .called call event ∨ seen = .returned call event ∨ seen = .raised call event)

/-- The checkpoints that can be recorded after the events.  A checkpoint takes effect between its call
and its answer: always when it returns, and perhaps when it raises. -/
inductive Recorded (restored : Dict String ℤ) : List PipelineEvent → Dict String ℤ → Prop
  | start : Recorded restored [] restored
  | skip {events : List PipelineEvent} {recorded : Dict String ℤ} {seen : PipelineEvent}
      (h : Recorded restored events recorded)
      (hseen : ∀ call : ServiceCall, call.IsCheckpoint → ∀ event, seen ≠ .returned call event) :
      Recorded restored (events ++ [seen]) recorded
  | effect {events : List PipelineEvent} {recorded : Dict String ℤ} {seen : PipelineEvent}
      {event : MarketEvent} (h : Recorded restored events recorded) (hseen : seen.OfCheckpoint event) :
      Recorded restored (events ++ [seen]) (recorded.set event.candle.symbol event.sequence)

/-- A checkpoint is called for events alone that `persist` has returned for. -/
def PersistedFirst (events : List PipelineEvent) : Prop :=
  ∀ earlier call event later, events = earlier ++ .called call event :: later → call.IsCheckpoint →
    ∃ persisted, .returned .persist persisted ∈ earlier ∧ persisted.key = event.key

/-- Wherever the process stops, a pipeline that restarts from the recorded checkpoints ignores none of
the events that have failed. -/
def FailuresRetried (restored : Dict String ℤ) (events : List PipelineEvent) : Prop :=
  ∀ earlier later, events = earlier ++ later → ∀ recorded, Recorded restored earlier recorded →
    ∀ restarted : MarketPipeline, restarted.tracker.lastSequences = .empty →
      ∀ event result, .finished event result ∈ earlier → result.status = .failed →
        (restarted.restoreCheckpoint recorded).ignores event = false

namespace MarketPipeline

/-- What follows the call that returns is the `except` branch. -/
def failsAfter (pipeline : MarketPipeline) (processing : Processing) :
    ServiceCall → Returned → Bool
  | .save, .saved now =>
    decide (processing.event.candle.closeTime > now) || !pipeline.services.ddsTransformer
  | .normalize, .candle candle =>
    decide (candle.validate ≠ .ok ()) ||
      (!ServiceCall.onMarketEvent.providedBy pipeline.services && !pipeline.services.indicatorService)
  | .onMarketEvent, .nothing => !pipeline.services.indicatorService
  | .calculate, .indicators _ => !pipeline.services.regimeService
  | .detect, .regime regime =>
    (pipeline.observe { processing with regime }).isTradingReady processing.event.candle.symbol &&
      !pipeline.services.strategy
  | .evaluateStrategy, .signal signal => signal.isSome && !pipeline.services.riskEngine
  | .evaluateRisk, .decision approved => approved && !pipeline.services.executionEngine
  | .checkpoint, .checkpointed martError =>
    martError.isSome && pipeline.services.martRefresh && !pipeline.martPending
  | _, _ => false

/-- The calls whose exception is caught by the `except` branch. -/
def raisesOut : ServiceCall → Bool
  | .recordRejection => false
  | .recordFailure _ => false
  | .bestEffortCheckpoint _ => false
  | _ => true

/-- At the step the event that has the lock is given up: a call raises, the candle is open or not
valid, the service that is next is missing, or the MART refresh raises.  Persistence is not missing. -/
def givesUp (pipeline : MarketPipeline) : PipelineStep → Bool
  | .lock event => !pipeline.ignores event && !pipeline.services.rawStore
  | .returns value => pipeline.inFlight.any fun awaited =>
    pipeline.failsAfter awaited.processing awaited.call value
  | .raises _ => pipeline.inFlight.any fun awaited => raisesOut awaited.call
  | .stop => false
  | .martEnds => false

/-- No call of the `except` branch is in flight, and no event has ended as failed. -/
structure Unfailed (pipeline : MarketPipeline) (events : List PipelineEvent) : Prop where
  inFlight : ∀ awaited, pipeline.inFlight = some awaited → ServiceCall.Sound (some awaited.call)
  finished : ∀ event result, .finished event result ∈ events → result.status ≠ .failed

variable {pipeline : MarketPipeline} {processing : Processing} {call : ServiceCall}
  {value : Returned} {segment : Segment}

theorem unfailed_await (at_ : MarketPipeline) (processing : Processing)
    (hcall : ServiceCall.Sound (some call)) :
    Unfailed (at_.await processing call).1 (at_.await processing call).2 := by
  refine ⟨fun awaited h => ?_, fun event result h => ?_⟩
  · cases h
    exact hcall
  · cases List.mem_singleton.mp h

theorem not_unfailed_fail {at_ : MarketPipeline} {reason : PipelineError}
    (hpersistence : at_.services.persistence = true) :
    ¬Unfailed (at_.fail processing reason).1 (at_.fail processing reason).2 := by
  intro h
  unfold fail at h
  split at h
  · exact h.inFlight _ rfl
  · have hpersistence : (at_.withState .degraded).services.persistence = true := hpersistence
    unfold bestEffortCheckpoint at h
    rw [if_pos hpersistence] at h
    exact h.inFlight _ rfl

theorem unfailed_call_iff {at_ : MarketPipeline} (call : ServiceCall)
    (hpersistence : at_.services.persistence = true) (hcall : ServiceCall.Sound (some call)) :
    Unfailed (at_.call processing call).1 (at_.call processing call).2 ↔
      call.providedBy at_.services = true := by
  unfold MarketPipeline.call
  split
  · rename_i hprovided
    exact iff_of_true (unfailed_await _ _ hcall) hprovided
  · rename_i hprovided
    exact iff_of_false (not_unfailed_fail hpersistence) hprovided

theorem unfailed_finish (at_ : MarketPipeline) (event : MarketEvent) {result : PipelineResult}
    (hstatus : result.status ≠ .failed) :
    Unfailed (at_.finish event result).1 (at_.finish event result).2 := by
  refine ⟨fun awaited h => ?_, fun event' result' h => ?_⟩
  · cases h
  · cases List.mem_singleton.mp h
    exact hstatus

theorem unfailed_persist {at_ : MarketPipeline} (hpersistence : at_.services.persistence = true) :
    Unfailed (at_.call processing .persist).1 (at_.call processing .persist).2 :=
  (unfailed_call_iff .persist hpersistence trivial).mpr hpersistence

theorem unfailed_callOnMarketEvent_iff {at_ : MarketPipeline}
    (hpersistence : at_.services.persistence = true) :
    Unfailed (at_.callOnMarketEvent processing).1 (at_.callOnMarketEvent processing).2 ↔
      ServiceCall.onMarketEvent.providedBy at_.services = true ∨
        at_.services.indicatorService = true := by
  unfold callOnMarketEvent
  split
  · rename_i hprovided
    exact iff_of_true (unfailed_await _ _ trivial) (.inl hprovided)
  · rename_i hprovided
    exact (unfailed_call_iff .calculate hpersistence trivial).trans (or_iff_right hprovided).symm

theorem unfailed_complete_iff {martError : Option String}
    (hpersistence : pipeline.services.persistence = true) :
    Unfailed (pipeline.complete processing martError).1 (pipeline.complete processing martError).2 ↔
      pipeline.failsAfter processing .checkpoint (.checkpointed martError) = false := by
  unfold complete
  dsimp only
  split
  · rename_i hdue
    rw [Bool.and_eq_true, Bool.not_eq_true'] at hdue
    split
    · exact iff_of_false (not_unfailed_fail hpersistence) (by simp [failsAfter, hdue])
    · exact iff_of_true (unfailed_finish _ _ (processedResult_status _ _)) (by simp [failsAfter])
  · rename_i hdue
    refine iff_of_true (unfailed_finish _ _ (processedResult_status _ _)) ?_
    rw [Bool.and_eq_true, Bool.not_eq_true', not_and_or] at hdue
    rcases hdue with hdue | hdue <;> simp [failsAfter, hdue]

/-- What follows a call that returns is unfailed exactly when none of the reasons to fail is there. -/
theorem unfailed_resume_iff (hpersistence : pipeline.services.persistence = true)
    (hsound : ServiceCall.Sound (some call))
    (h : pipeline.resume processing call value = some segment) :
    Unfailed segment.1 segment.2 ↔ pipeline.failsAfter processing call value = false := by
  unfold resume at h
  split at h
  case h_1 now =>
    dsimp only at h
    split at h <;> cases h
    · rename_i hopen
      exact iff_of_false (not_unfailed_fail hpersistence) (by simp [failsAfter, hopen])
    · rename_i hclosed
      exact (unfailed_call_iff .normalize hpersistence trivial).trans
        (by simp [failsAfter, not_lt.mp hclosed, ServiceCall.providedBy])
  case h_2 candle =>
    split at h
    · rename_i error herror
      cases h
      exact iff_of_false (not_unfailed_fail hpersistence) (by simp [failsAfter, herror])
    · rename_i hvalid
      cases h
      refine (unfailed_callOnMarketEvent_iff hpersistence).trans ?_
      simp [failsAfter, hvalid, or_iff_not_imp_left]
  case h_3 =>
    cases h
    exact (unfailed_call_iff .calculate hpersistence trivial).trans
      (by simp [failsAfter, ServiceCall.providedBy])
  case h_4 names =>
    cases h
    exact (unfailed_call_iff .detect hpersistence trivial).trans (by simp [failsAfter, ServiceCall.providedBy])
  case h_5 regime =>
    have hobserved : ∀ processing, (pipeline.observe processing).services.persistence = true :=
      fun _ => hpersistence
    dsimp only at h
    split at h <;> cases h
    · rename_i hready
      refine (unfailed_call_iff .evaluateStrategy (hobserved _) trivial).trans ?_
      have hready : (pipeline.observe { processing with regime }).isTradingReady
          processing.event.candle.symbol = true := hready
      simp only [failsAfter, hready, Bool.true_and, Bool.not_eq_false']
      rfl
    · rename_i hready
      have hready : ¬(pipeline.observe { processing with regime }).isTradingReady
          processing.event.candle.symbol = true := hready
      exact iff_of_true (unfailed_persist (hobserved _)) (by simp [failsAfter, hready])
  case h_6 =>
    cases h
    exact iff_of_true (unfailed_persist hpersistence) rfl
  case h_7 signal =>
    cases h
    exact (unfailed_call_iff .evaluateRisk hpersistence trivial).trans
      (by simp [failsAfter, ServiceCall.providedBy])
  case h_8 approved =>
    dsimp only at h
    split at h
    · rename_i happroved
      cases h
      exact (unfailed_call_iff .execute hpersistence trivial).trans
        (by simp [failsAfter, happroved, ServiceCall.providedBy])
    · rename_i hrejected
      have hgoes : pipeline.failsAfter processing .evaluateRisk (.decision approved) = false := by
        simp [failsAfter, hrejected]
      split at h <;> cases h
      · exact iff_of_true (unfailed_await _ _ trivial) hgoes
      · exact iff_of_true (unfailed_persist hpersistence) hgoes
  case h_9 result =>
    cases h
    exact iff_of_true (unfailed_persist hpersistence) rfl
  case h_10 =>
    cases h
    exact iff_of_true (unfailed_persist hpersistence) rfl
  case h_11 =>
    cases h
    exact (unfailed_call_iff .checkpoint hpersistence trivial).trans (iff_of_true hpersistence rfl)
  case h_12 martError =>
    cases h
    exact unfailed_complete_iff hpersistence
  case h_13 => exact hsound.elim
  case h_14 => exact hsound.elim
  case h_15 => cases h

theorem unfailed_recover_iff (hpersistence : pipeline.services.persistence = true)
    (hsound : ServiceCall.Sound (some call)) (text : String) :
    Unfailed (pipeline.recover processing text call).1 (pipeline.recover processing text call).2 ↔
      raisesOut call = false := by
  cases call with
  | recordRejection =>
    exact iff_of_true (unfailed_persist hpersistence) rfl
  | recordFailure => exact hsound.elim
  | bestEffortCheckpoint => exact hsound.elim
  | _ => exact iff_of_false (not_unfailed_fail hpersistence) nofun

theorem not_unfailed_goes {event : MarketEvent} {made : Option ServiceCall} {answer : Option Returned}
    (h : pipeline.Goes event made answer segment) (hmade : ¬ServiceCall.Sound made) :
    ¬Unfailed segment.1 segment.2 := by
  intro hunfailed
  cases h with
  | on _ hnext => exact hmade hnext.sound.1
  | fails _ hnext => exact hnext.not_sound (hunfailed.inFlight _ rfl)
  | completes hcall => exact hmade (hcall ▸ trivial)
  | failed _ hstatus => exact hunfailed.finished _ _ (List.mem_singleton_self _) hstatus

theorem unfailed_append_iff {events new : List PipelineEvent} :
    Unfailed pipeline (events ++ new) ↔
      (∀ event result, .finished event result ∈ events → result.status ≠ .failed) ∧
        Unfailed pipeline new := by
  constructor
  · intro h
    exact ⟨fun event result hmem => h.finished event result (List.mem_append_left _ hmem), h.inFlight,
      fun event result hmem => h.finished event result (List.mem_append_right _ hmem)⟩
  · rintro ⟨hold, hflight, hnew⟩
    refine ⟨hflight, fun event result hmem => ?_⟩
    rcases List.mem_append.mp hmem with hmem | hmem
    · exact hold event result hmem
    · exact hnew event result hmem

theorem unfailed_cons_iff {seen : PipelineEvent} {events : List PipelineEvent}
    (hseen : ∀ event result, seen ≠ .finished event result) :
    Unfailed pipeline (seen :: events) ↔ Unfailed pipeline events := by
  rw [← List.singleton_append, unfailed_append_iff]
  refine and_iff_right fun event result hmem => ?_
  exact absurd (List.mem_singleton.mp hmem).symm (hseen event result)

/-- A step is unfailed exactly when the event in flight has not failed before, and is not given up. -/
theorem unfailed_segment_iff {step : PipelineStep} (hpersistence : pipeline.services.persistence = true)
    (hstep : pipeline.step? step = some segment) :
    Unfailed segment.1 segment.2 ↔
      (∀ awaited, pipeline.inFlight = some awaited → ServiceCall.Sound (some awaited.call)) ∧
        pipeline.givesUp step = false := by
  cases step with
  | lock event =>
    simp only [step?] at hstep
    split at hstep
    · cases hstep
    rename_i hfree
    cases hstep
    have hfree := Option.not_isSome_iff_eq_none.mp hfree
    have hidle : ∀ awaited, pipeline.inFlight = some awaited →
        ServiceCall.Sound (some awaited.call) := by
      intro awaited hawaited
      rw [hfree] at hawaited
      cases hawaited
    refine Iff.trans ?_ (and_iff_right hidle).symm
    unfold processMarketEvent
    split
    · rename_i hignores
      exact iff_of_true (unfailed_finish _ _ fun h => PipelineStatus.noConfusion h)
        (by simp [givesUp, hignores])
    · rename_i hnew
      exact (unfailed_call_iff .save hpersistence trivial).trans
        (by simp [givesUp, hnew, ServiceCall.providedBy])
  | returns value =>
    obtain ⟨awaited, hawaited, hstep⟩ := Option.bind_eq_some_iff.mp hstep
    obtain ⟨segment, hsegment, rfl⟩ := Option.map_eq_some_iff.mp hstep
    rw [unfailed_cons_iff fun _ _ h => PipelineEvent.noConfusion h]
    have hgives : pipeline.givesUp (.returns value) =
        pipeline.failsAfter awaited.processing awaited.call value := by
      unfold givesUp
      rw [hawaited]
      rfl
    rw [hgives]
    by_cases hsound : ServiceCall.Sound (some awaited.call)
    · rw [unfailed_resume_iff hpersistence hsound hsegment]
      exact (and_iff_right fun other h => Option.some.inj (hawaited.symm.trans h) ▸ hsound).symm
    · exact iff_of_false (not_unfailed_goes (goes_of_resume hsegment) hsound)
        fun h => hsound (h.1 _ hawaited)
  | raises text =>
    obtain ⟨awaited, hawaited, rfl⟩ := Option.map_eq_some_iff.mp hstep
    rw [unfailed_cons_iff fun _ _ h => PipelineEvent.noConfusion h]
    have hgives : pipeline.givesUp (.raises text) = raisesOut awaited.call := by
      unfold givesUp
      rw [hawaited]
      rfl
    rw [hgives]
    by_cases hsound : ServiceCall.Sound (some awaited.call)
    · rw [unfailed_recover_iff hpersistence hsound text]
      exact (and_iff_right fun other h => Option.some.inj (hawaited.symm.trans h) ▸ hsound).symm
    · exact iff_of_false (not_unfailed_goes (goes_of_recover _ _ text _) hsound)
        fun h => hsound (h.1 _ hawaited)
  | stop =>
    cases hstep
    refine ⟨fun h => ⟨h.inFlight, rfl⟩, fun h => ⟨h.1, fun event result hmem => ?_⟩⟩
    cases List.mem_singleton.mp hmem
  | martEnds =>
    cases hstep
    exact ⟨fun h => ⟨h.inFlight, rfl⟩, fun h => ⟨h.1, fun _ _ hmem => absurd hmem List.not_mem_nil⟩⟩

/-- A step keeps a history unfailed exactly when it gives no event up. -/
theorem unfailed_step_iff {step : PipelineStep} {events : List PipelineEvent}
    (hpersistence : pipeline.services.persistence = true)
    (hstep : pipeline.step? step = some segment) :
    Unfailed segment.1 (events ++ segment.2) ↔
      Unfailed pipeline events ∧ pipeline.givesUp step = false := by
  rw [unfailed_append_iff, unfailed_segment_iff hpersistence hstep]
  constructor
  · rintro ⟨hfinished, hflight, hgives⟩
    exact ⟨⟨hflight, hfinished⟩, hgives⟩
  · rintro ⟨⟨hflight, hfinished⟩, hgives⟩
    exact ⟨hfinished, hflight, hgives⟩

theorem Heard.not_finished {step : PipelineStep} {event other : MarketEvent}
    {made : Option ServiceCall} {answer : Option Returned} {heard : List PipelineEvent}
    {result : PipelineResult} (h : pipeline.Heard step event made answer heard) :
    .finished other result ∉ heard := by
  intro hmem
  cases h with
  | locked => cases hmem
  | returned => cases List.mem_singleton.mp hmem
  | raised => cases List.mem_singleton.mp hmem

theorem step_services {step : PipelineStep} (hstep : pipeline.step? step = some segment) :
    segment.1.services = pipeline.services := by
  cases transition_of_step hstep with
  | ignored => rfl
  | goes _ hgoes => exact hgoes.services
  | stop => rfl
  | martEnds => rfl

/-- Where there is persistence, an event fails at the answer to its last checkpoint. -/
theorem checkpointed_of_failed {step : PipelineStep} {event : MarketEvent} {result : PipelineResult}
    (hpersistence : pipeline.services.persistence = true)
    (hstep : pipeline.step? step = some segment) (hmem : .finished event result ∈ segment.2)
    (hstatus : result.status = .failed) :
    ∃ seen : PipelineEvent, seen.OfCheckpoint event ∧ segment.2 = [seen, .finished event result] := by
  cases transition_of_step hstep with
  | ignored _ _ hignored =>
    cases List.mem_singleton.mp hmem
    exact absurd (hignored.symm.trans hstatus) nofun
  | stop => cases List.mem_singleton.mp hmem
  | martEnds => cases hmem
  | goes hheard hgoes =>
    have hnew := (List.mem_append.mp hmem).resolve_left hheard.not_finished
    cases hgoes with
    | on => cases List.mem_singleton.mp hnew
    | fails => cases List.mem_singleton.mp hnew
    | completes _ _ hcompleted =>
      cases List.mem_singleton.mp hnew
      exact absurd hstatus hcompleted
    | failed _ _ hlast =>
      cases List.mem_singleton.mp hnew
      obtain ⟨reason, rfl⟩ := hlast hpersistence
      generalize hmade : some (ServiceCall.bestEffortCheckpoint reason) = made at hheard
      cases hheard with
      | locked => cases hmade
      | returned hawaited =>
        exact ⟨_, ⟨_, Option.some.inj hmade ▸ trivial, .inr (.inl rfl)⟩, rfl⟩
      | raised hawaited =>
        exact ⟨_, ⟨_, Option.some.inj hmade ▸ trivial, .inr (.inr rfl)⟩, rfl⟩

end MarketPipeline

theorem exists_recorded (restored : Dict String ℤ) (events : List PipelineEvent) :
    ∃ recorded, Recorded restored events recorded := by
  induction events using List.reverseRecOn with
  | nil => exact ⟨restored, .start⟩
  | append_singleton events seen ih =>
    obtain ⟨recorded, h⟩ := ih
    by_cases hseen : ∃ event, seen.OfCheckpoint event
    · obtain ⟨event, hseen⟩ := hseen
      exact ⟨_, h.effect hseen⟩
    · refine ⟨recorded, h.skip fun call hcall event heq => hseen ⟨event, call, hcall, ?_⟩⟩
      exact .inr (.inl heq)

/-- Every event that has failed has been recorded as checkpointed. -/
structure Attested (restored : Dict String ℤ) (history : PipelineHistory) : Prop where
  persistence : history.pipeline.services.persistence = true
  attests : ∀ event result, .finished event result ∈ history.events → result.status = .failed →
    ∃ earlier later recorded, history.events = earlier ++ later ∧ .finished event result ∈ earlier ∧
      Recorded restored earlier recorded ∧ recorded.get? event.candle.symbol = some event.sequence

theorem Attested.step {restored : Dict String ℤ} {before next : PipelineHistory} {label : PipelineStep}
    (h : Attested restored before) (hstep : before.Step label next) : Attested restored next := by
  obtain ⟨new, hstep, hevents⟩ := hstep
  have hservices := MarketPipeline.step_services hstep
  refine ⟨?_, fun event result hmem hstatus => ?_⟩
  · rw [show next.pipeline.services = _ from hservices]
    exact h.persistence
  · rw [hevents] at hmem ⊢
    rcases List.mem_append.mp hmem with hmem | hmem
    · obtain ⟨earlier, later, recorded, hsplit, hrest⟩ := h.attests event result hmem hstatus
      exact ⟨earlier, later ++ new, recorded, by rw [hsplit, List.append_assoc], hrest⟩
    · obtain ⟨seen, hseen, hnew⟩ :=
        MarketPipeline.checkpointed_of_failed h.persistence hstep hmem hstatus
      obtain ⟨recorded, hrecorded⟩ := exists_recorded restored before.events
      have hfinished : Recorded restored (before.events ++ [seen] ++ [.finished event result])
          (recorded.set event.candle.symbol event.sequence) :=
        (hrecorded.effect hseen).skip fun _ _ _ h => PipelineEvent.noConfusion h
      rw [List.append_assoc] at hfinished
      have hnew : new = [seen] ++ [.finished event result] := hnew
      exact ⟨before.events ++ new, [], recorded.set event.candle.symbol event.sequence,
        (List.append_nil _).symm, List.mem_append_right _ hmem, by rwa [hnew],
        Dict.get?_set_self _ _ _⟩

theorem Attested.of_run {pipeline : MarketPipeline} {steps : List PipelineStep}
    {after : PipelineHistory} (hrun : Run PipelineHistory.Step { pipeline } steps after)
    (hpersistence : pipeline.services.persistence = true) :
    Attested pipeline.tracker.lastSequences after := by
  refine hrun.invariant (P := fun _ => Attested pipeline.tracker.lastSequences) ?_
    fun _ _ _ _ h hstep => h.step hstep
  exact ⟨hpersistence, fun _ _ h => absurd h List.not_mem_nil⟩

theorem Attested.not_retried {restored : Dict String ℤ} {history : PipelineHistory}
    {event : MarketEvent} {result : PipelineResult} (h : Attested restored history)
    (hmem : .finished event result ∈ history.events) (hstatus : result.status = .failed) :
    ¬FailuresRetried restored history.events := by
  intro hretried
  obtain ⟨earlier, later, recorded, hsplit, hfinished, hrecorded, hget⟩ :=
    h.attests event result hmem hstatus
  have hnew := hretried earlier later hsplit recorded hrecorded { runId := "" } rfl event result
    hfinished hstatus
  have hlast := MarketPipeline.lt_of_ignores hnew
  rw [MarketPipeline.lastSequence_restoreCheckpoint, hget] at hlast
  exact lt_irrefl _ hlast

/-- Nothing is checkpointed without persistence. -/
structure Unpersisted (restored : Dict String ℤ) (history : PipelineHistory) : Prop where
  missing : history.pipeline.services.persistence = false
  sequences : history.pipeline.tracker.lastSequences = restored
  seen : ∀ seen ∈ history.events, ∀ event, ¬seen.OfCheckpoint event
  inFlight : ∀ awaited, history.pipeline.inFlight = some awaited → ¬awaited.call.IsCheckpoint ∧
    (restored.get? awaited.processing.event.candle.symbol).getD 0 <
      awaited.processing.event.sequence
  failed : ∀ event result, .finished event result ∈ history.events → result.status = .failed →
    (restored.get? event.candle.symbol).getD 0 < event.sequence

theorem ServiceCall.IsCheckpoint.persistence {call : ServiceCall} {services : PipelineServices}
    (h : call.IsCheckpoint) (hprovided : call.providedBy services = true) :
    services.persistence = true := by
  cases call <;> first | exact hprovided | exact h.elim

namespace Unpersisted

variable {restored : Dict String ℤ} {pipeline after : MarketPipeline} {events new : List PipelineEvent}
  {label : PipelineStep}

theorem goes {event : MarketEvent} {call : Option ServiceCall} {answer : Option Returned}
    {heard : List PipelineEvent} (h : Unpersisted restored ⟨pipeline, events⟩)
    (hheard : pipeline.Heard label event call answer heard)
    (hgoes : pipeline.Goes event call answer (after, new)) :
    Unpersisted restored ⟨after, events ++ (heard ++ new)⟩ := by
  have hfresh : (restored.get? event.candle.symbol).getD 0 < event.sequence := by
    cases hheard with
    | locked _ hnew => exact h.sequences ▸ MarketPipeline.lt_of_ignores hnew
    | returned hawaited => exact (h.inFlight _ hawaited).2
    | raised hawaited => exact (h.inFlight _ hawaited).2
  have hcall : call ≠ some .checkpoint := by
    rintro rfl
    generalize hmade : some ServiceCall.checkpoint = made at hheard
    cases hheard with
    | locked => cases hmade
    | returned hawaited => exact (h.inFlight _ hawaited).1 (Option.some.inj hmade ▸ trivial)
    | raised hawaited => exact (h.inFlight _ hawaited).1 (Option.some.inj hmade ▸ trivial)
  have hunseen : ∀ seen ∈ heard, ∀ other, ¬seen.OfCheckpoint other := by
    rintro seen hmem other ⟨made, hcheckpoint, hseen⟩
    cases hheard with
    | locked => cases hmem
    | returned hawaited =>
      cases List.mem_singleton.mp hmem
      rcases hseen with hseen | hseen | hseen <;> cases hseen
      exact (h.inFlight _ hawaited).1 hcheckpoint
    | raised hawaited =>
      cases List.mem_singleton.mp hmem
      rcases hseen with hseen | hseen | hseen <;> cases hseen
      exact (h.inFlight _ hawaited).1 hcheckpoint
  have hnotCheckpoint : ∀ awaited, after.inFlight = some awaited → ¬awaited.call.IsCheckpoint := by
    intro awaited hawaited hcheckpoint
    have hpersistence := hcheckpoint.persistence (hgoes.inFlight hawaited).2.2.2
    rw [show pipeline.services.persistence = false from h.missing] at hpersistence
    cases hpersistence
  have hnewEvents : ∀ seen ∈ new, (∃ awaited, after.inFlight = some awaited ∧
      seen = .called awaited.call event) ∨ ∃ result, seen = .finished event result := by
    intro seen hmem
    cases hflight : after.inFlight with
    | none =>
      obtain ⟨result, hone⟩ := hgoes.inFlight_none hflight
      exact .inr ⟨result, List.mem_singleton.mp (hone ▸ hmem)⟩
    | some awaited =>
      obtain ⟨-, hone, -⟩ := hgoes.inFlight hflight
      exact .inl ⟨awaited, rfl, List.mem_singleton.mp (hone ▸ hmem)⟩
  refine ⟨?_, ?_, ?_, ?_, ?_⟩
  · exact (congrArg PipelineServices.persistence hgoes.services).trans h.missing
  · exact (hgoes.unmarked (.inl hcall)).trans h.sequences
  · intro seen hmem other hseen
    rcases List.mem_append.mp hmem with hmem | hmem
    · exact h.seen seen hmem other hseen
    rcases List.mem_append.mp hmem with hmem | hmem
    · exact hunseen seen hmem other hseen
    obtain ⟨made, hcheckpoint, hseen⟩ := hseen
    rcases hnewEvents seen hmem with ⟨awaited, hawaited, rfl⟩ | ⟨result, rfl⟩
    · rcases hseen with hseen | hseen | hseen <;> cases hseen
      exact hnotCheckpoint awaited hawaited hcheckpoint
    · rcases hseen with hseen | hseen | hseen <;> cases hseen
  · intro awaited hawaited
    exact ⟨hnotCheckpoint awaited hawaited, (hgoes.inFlight hawaited).1 ▸ hfresh⟩
  · intro other result hmem hstatus
    rcases List.mem_append.mp hmem with hmem | hmem
    · exact h.failed other result hmem hstatus
    have hmem := (List.mem_append.mp hmem).resolve_left hheard.not_finished
    rcases hnewEvents _ hmem with ⟨awaited, -, hseen⟩ | ⟨result, hseen⟩
    · cases hseen
    · cases hseen
      exact hfresh

/-- A step that changes neither the sequences nor the call in flight, and is seen as no checkpoint and
no failure. -/
theorem of_same (h : Unpersisted restored ⟨pipeline, events⟩)
    (hservices : after.services = pipeline.services)
    (hsequences : after.tracker.lastSequences = pipeline.tracker.lastSequences)
    (hflight : after.inFlight = pipeline.inFlight)
    (hnew : ∀ seen ∈ new, (∀ event, ¬seen.OfCheckpoint event) ∧
      ∀ event result, seen = .finished event result → result.status ≠ .failed) :
    Unpersisted restored ⟨after, events ++ new⟩ := by
  refine ⟨hservices ▸ h.missing, hsequences.trans h.sequences, ?_, ?_, ?_⟩
  · intro seen hmem
    rcases List.mem_append.mp hmem with hmem | hmem
    · exact h.seen seen hmem
    · exact (hnew seen hmem).1
  · intro awaited hawaited
    exact h.inFlight awaited (hflight ▸ hawaited)
  · intro event result hmem hstatus
    rcases List.mem_append.mp hmem with hmem | hmem
    · exact h.failed event result hmem hstatus
    · exact absurd hstatus ((hnew _ hmem).2 event result rfl)

theorem step {before next : PipelineHistory} (h : Unpersisted restored before)
    (hstep : before.Step label next) : Unpersisted restored next := by
  obtain ⟨pipeline, events⟩ := before
  obtain ⟨after, all⟩ := next
  obtain ⟨new, hstep, hall⟩ := hstep
  dsimp only at hstep hall
  subst hall
  have htransition := MarketPipeline.transition_of_step hstep
  generalize hsegment : (after, new) = segment at htransition
  cases htransition with
  | ignored hfree _ hignored =>
    cases hsegment
    refine h.of_same rfl rfl hfree.symm fun seen hmem => ?_
    cases List.mem_singleton.mp hmem
    refine ⟨fun event ⟨call, _, hseen⟩ => ?_, fun event result heq => ?_⟩
    · rcases hseen with hseen | hseen | hseen <;> cases hseen
    · cases heq
      rw [hignored]
      nofun
  | goes hheard hgoes => cases hsegment; exact h.goes hheard hgoes
  | stop =>
    cases hsegment
    refine h.of_same rfl rfl rfl fun seen hmem => ?_
    cases List.mem_singleton.mp hmem
    refine ⟨fun event ⟨call, _, hseen⟩ => ?_, fun event result heq => ?_⟩
    · rcases hseen with hseen | hseen | hseen <;> cases hseen
    · cases heq
  | martEnds =>
    cases hsegment
    exact h.of_same rfl rfl rfl fun seen hmem => absurd hmem List.not_mem_nil

theorem recorded_eq {recorded : Dict String ℤ} (h : Recorded restored events recorded)
    (hseen : ∀ seen ∈ events, ∀ event, ¬seen.OfCheckpoint event) : recorded = restored := by
  induction h with
  | start => rfl
  | skip _ _ ih => exact ih fun seen hmem => hseen seen (List.mem_append_left _ hmem)
  | effect _ hof => exact absurd hof (hseen _ (List.mem_append_right _ (List.mem_singleton_self _)) _)

theorem persistedFirst {history : PipelineHistory} (h : Unpersisted restored history) :
    PersistedFirst history.events := by
  intro earlier call event later hsplit hcall
  have hmem : .called call event ∈ history.events := by simp [hsplit]
  exact absurd ⟨call, hcall, .inl rfl⟩ (h.seen _ hmem event)

theorem failuresRetried {history : PipelineHistory} (h : Unpersisted restored history) :
    FailuresRetried restored history.events := by
  intro earlier later hsplit recorded hrecorded restarted hrestarted event result hmem hstatus
  have hseen : ∀ seen ∈ earlier, ∀ event, ¬seen.OfCheckpoint event := fun seen hmem =>
    h.seen seen (by rw [hsplit]; exact List.mem_append_left _ hmem)
  have hlt := h.failed event result (by rw [hsplit]; exact List.mem_append_left _ hmem) hstatus
  refine decide_eq_false (not_le.mpr ?_)
  rw [MarketPipeline.lastSequence_restoreCheckpoint, recorded_eq hrecorded hseen]
  unfold PipelineStateTracker.lastSequence
  rw [hrestarted]
  exact hlt

end Unpersisted

theorem PersistedFirst.append {events new : List PipelineEvent} (h : PersistedFirst events)
    (hnew : ∀ earlier call event later, new = earlier ++ .called call event :: later →
      call.IsCheckpoint →
      ∃ persisted, .returned .persist persisted ∈ earlier ∧ persisted.key = event.key) :
    PersistedFirst (events ++ new) := by
  intro earlier call event later hsplit hcall
  rcases List.append_eq_append_iff.mp hsplit with ⟨middle, rfl, hmiddle⟩ | ⟨middle, rfl, hmiddle⟩
  · obtain ⟨persisted, hmem, hkey⟩ := hnew middle call event later hmiddle hcall
    exact ⟨persisted, List.mem_append_right _ hmem, hkey⟩
  · cases middle with
    | nil =>
      obtain ⟨persisted, hmem, -⟩ := hnew [] call event later hmiddle.symm hcall
      cases hmem
    | cons first middle =>
      cases hmiddle
      exact h earlier call event middle rfl hcall

theorem eq_of_append_singleton {α : Type*} {heard earlier later : List α} {last x : α}
    (h : heard ++ [last] = earlier ++ x :: later) (hx : x ∉ heard) :
    earlier = heard ∧ x = last ∧ later = [] := by
  rcases List.append_eq_append_iff.mp h with ⟨middle, rfl, hmiddle⟩ | ⟨middle, rfl, hmiddle⟩
  · cases middle with
    | nil =>
      cases hmiddle
      exact ⟨List.append_nil _, rfl, rfl⟩
    | cons first middle => cases middle <;> cases hmiddle
  · cases middle with
    | nil =>
      cases hmiddle
      exact ⟨(List.append_nil _).symm, rfl, rfl⟩
    | cons first middle =>
      cases hmiddle
      exact absurd (by simp) hx

theorem MarketPipeline.Heard.not_called {pipeline : MarketPipeline} {step : PipelineStep}
    {event other : MarketEvent} {made : Option ServiceCall} {answer : Option Returned}
    {heard : List PipelineEvent} {call : ServiceCall}
    (h : pipeline.Heard step event made answer heard) : .called call other ∉ heard := by
  intro hmem
  cases h with
  | locked => cases hmem
  | returned => cases List.mem_singleton.mp hmem
  | raised => cases List.mem_singleton.mp hmem

/-- Where a step calls a checkpoint, and not because the event has failed, `persist` has just
returned. -/
theorem MarketPipeline.persisted_of_checkpoint {pipeline : MarketPipeline} {step : PipelineStep}
    {segment : Segment} {earlier later : List PipelineEvent} {call : ServiceCall} {event : MarketEvent}
    (hstep : pipeline.step? step = some segment)
    (hsplit : segment.2 = earlier ++ .called call event :: later) (hcall : call.IsCheckpoint)
    (hsound : ∀ awaited, segment.1.inFlight = some awaited → ServiceCall.Sound (some awaited.call)) :
    .returned .persist event ∈ earlier := by
  have hmem : .called call event ∈ segment.2 := by simp [hsplit]
  cases transition_of_step hstep with
  | ignored => cases List.mem_singleton.mp hmem
  | stop => cases List.mem_singleton.mp hmem
  | martEnds => cases hmem
  | goes hheard hgoes =>
    rename_i target made answer heard segment
    cases hflight : segment.1.inFlight with
    | none =>
      obtain ⟨result, hone⟩ := hgoes.inFlight_none hflight
      have hmem := (List.mem_append.mp hmem).resolve_left hheard.not_called
      rw [hone] at hmem
      cases List.mem_singleton.mp hmem
    | some awaited =>
      obtain ⟨-, hone, hfollows, -⟩ := hgoes.inFlight hflight
      have hawaited := hsound awaited hflight
      have hfollows := hfollows.resolve_right fun hfails => hfails.not_sound hawaited
      dsimp only at hsplit
      rw [hone] at hsplit
      obtain ⟨rfl, hcalled, -⟩ := eq_of_append_singleton hsplit hheard.not_called
      cases hcalled
      have hcheckpoint : awaited.call = .checkpoint := by
        generalize awaited.call = call at hcall hawaited
        cases call <;> first | rfl | exact hcall.elim | exact hawaited.elim
      obtain ⟨hmade, hanswer⟩ := (hcheckpoint ▸ hfollows).checkpoint
      cases hheard with
      | locked => cases hmade
      | returned => exact Option.some.inj hmade ▸ List.mem_singleton_self _
      | raised => cases hanswer

theorem PersistedFirst.step {before next : PipelineHistory} {label : PipelineStep}
    (h : PersistedFirst before.events) (hstep : before.Step label next)
    (hsound : ∀ awaited, next.pipeline.inFlight = some awaited →
      ServiceCall.Sound (some awaited.call)) : PersistedFirst next.events := by
  obtain ⟨new, hstep, hevents⟩ := hstep
  rw [hevents]
  refine h.append fun earlier call event later hsplit hcall => ?_
  exact ⟨event, MarketPipeline.persisted_of_checkpoint hstep hsplit hcall hsound, rfl⟩

namespace MarketPipeline

/-- In a run, checkpoints vouch for what has been persisted, and failures are retried after a restart,
as long as no event is given up or there is no persistence.  When the run ends between two events, that
is the only case. -/
theorem checkpoints_vouch_iff {pipeline : MarketPipeline} {steps : List PipelineStep}
    {after : PipelineHistory} (hrun : Run PipelineHistory.Step { pipeline } steps after)
    (hidle : pipeline.inFlight = none) :
    ((pipeline.services.persistence = false ∨
        ∀ before label next, Run.Makes PipelineHistory.Step { pipeline } steps before label next →
          before.pipeline.givesUp label = false) →
      PersistedFirst after.events ∧
        FailuresRetried pipeline.tracker.lastSequences after.events) ∧
    (after.pipeline.inFlight = none →
      FailuresRetried pipeline.tracker.lastSequences after.events →
      pipeline.services.persistence = false ∨
        ∀ before label next, Run.Makes PipelineHistory.Step { pipeline } steps before label next →
          before.pipeline.givesUp label = false) := by
  have hnone : ∀ awaited, pipeline.inFlight ≠ some awaited := by
    intro awaited h
    rw [hidle] at h
    cases h
  cases hpersistence : pipeline.services.persistence with
  | false =>
    have hstart : Unpersisted pipeline.tracker.lastSequences { pipeline } :=
      ⟨hpersistence, rfl, fun _ h => absurd h List.not_mem_nil, fun _ h => absurd h (hnone _),
        fun _ _ h => absurd h List.not_mem_nil⟩
    have hend := hrun.invariant (P := fun _ => Unpersisted pipeline.tracker.lastSequences) hstart
      fun _ _ _ _ h hstep => h.step hstep
    exact ⟨fun _ => ⟨hend.persistedFirst, hend.failuresRetried⟩, fun _ _ => .inl rfl⟩
  | true =>
    have hstart : Attested pipeline.tracker.lastSequences { pipeline } :=
      ⟨hpersistence, fun _ _ h => absurd h List.not_mem_nil⟩
    have hunfailed : Unfailed pipeline [] :=
      ⟨fun _ h => absurd h (hnone _), fun _ _ h => absurd h List.not_mem_nil⟩
    have hiff : Unfailed after.pipeline after.events ↔ Unfailed pipeline [] ∧
        ∀ before label next, Run.Makes PipelineHistory.Step { pipeline } steps before label next →
          before.pipeline.givesUp label = false :=
      Run.iff_makes PipelineHistory.deterministic (I := Attested pipeline.tracker.lastSequences)
        (P := fun history => Unfailed history.pipeline history.events) hrun hstart
        (fun _ _ _ h hstep => h.step hstep) fun before label next h hstep => by
          obtain ⟨new, hstep, hevents⟩ := hstep
          rw [hevents]
          exact unfailed_step_iff h.persistence hstep
    refine ⟨fun hcondition => ?_, fun hended hretried => ?_⟩
    · have hnever := hcondition.resolve_left nofun
      have hend := hiff.mpr ⟨hunfailed, hnever⟩
      refine ⟨?_, fun earlier later hsplit _ _ _ _ event result hmem hstatus => ?_⟩
      · exact (Run.invariant_makes (P := fun history => Attested pipeline.tracker.lastSequences history ∧
          Unfailed history.pipeline history.events ∧ PersistedFirst history.events) hrun
          ⟨hstart, hunfailed, fun earlier _ _ _ h => absurd h (by cases earlier <;> nofun)⟩
          fun before label next hmakes ⟨hattested, hbefore, hfirst⟩ => by
            have hgives := hnever before label next hmakes
            obtain ⟨-, -, -, -, hstep⟩ := hmakes
            have hnext : Unfailed next.pipeline next.events := by
              obtain ⟨new, hstep, hevents⟩ := hstep
              rw [hevents]
              exact (unfailed_step_iff hattested.persistence hstep).mpr ⟨hbefore, hgives⟩
            exact ⟨hattested.step hstep, hnext, hfirst.step hstep hnext.inFlight⟩).2.2
      · refine absurd hstatus (hend.finished event result ?_)
        rw [hsplit]
        exact List.mem_append_left _ hmem
    · have hattested := Attested.of_run hrun hpersistence
      refine .inr (hiff.mp ⟨fun awaited h => ?_, fun event result hmem hstatus => ?_⟩).2
      · rw [hended] at h
        cases h
      · exact hattested.not_retried hmem hstatus hretried

/-- The raw store is down. -/
def unsaved : List PipelineStep :=
  [.lock { candle := hourCandle, sequence := 1 }, .raises "raw store is down", .returns .nothing,
    .returns .nothing]

/-- What is seen when the raw store is down: the checkpoint of the event is written. -/
def unsavedEvents : List PipelineEvent :=
  let event : MarketEvent := { candle := hourCandle, sequence := 1 }
  let reason : PipelineError := .service "raw store is down"
  [.called .save event, .raised .save event, .called (.recordFailure reason) event,
    .returned (.recordFailure reason) event, .called (.bestEffortCheckpoint reason) event,
    .returned (.bestEffortCheckpoint reason) event,
    .finished event { status := .failed, sequence := 1, tradingReady := false, reason, runId := "run" }]

theorem unsaved_run :
    ∃ after, Run PipelineHistory.Step { pipeline := eager } unsaved after ∧
      after.pipeline.inFlight = none ∧ after.events = unsavedEvents := by
  have hruns : (PipelineHistory.after? { pipeline := eager } unsaved).map
      (fun after => (after.pipeline.inFlight, after.events)) = some (none, unsavedEvents) := by
    decide +kernel
  obtain ⟨after, hafter, hseen⟩ := Option.map_eq_some_iff.mp hruns
  exact ⟨after, PipelineHistory.run_of_after? hafter, congrArg Prod.fst hseen, congrArg Prod.snd hseen⟩

theorem not_persistedFirst_unsaved : ¬PersistedFirst unsavedEvents := by
  intro hfirst
  obtain ⟨persisted, hmem, -⟩ := hfirst (unsavedEvents.take 4) _ _ (unsavedEvents.drop 5) rfl trivial
  simp [unsavedEvents] at hmem

/-- A checkpoint is written of an event that is not even saved, and after a restart it is ignored. -/
theorem checkpoints_do_not_vouch :
    ∃ after, Run PipelineHistory.Step { pipeline := eager } unsaved after ∧
      ¬PersistedFirst after.events ∧
      ¬FailuresRetried eager.tracker.lastSequences after.events := by
  obtain ⟨after, hrun, -, hevents⟩ := unsaved_run
  refine ⟨after, hrun, hevents ▸ not_persistedFirst_unsaved, ?_⟩
  have hfinished : .finished { candle := hourCandle, sequence := 1 }
      { status := .failed, sequence := 1, tradingReady := false
        reason := some (.service "raw store is down"), runId := "run" } ∈ after.events := by
    rw [hevents]
    exact List.mem_of_getLast? rfl
  exact (Attested.of_run hrun rfl).not_retried hfinished rfl

theorem checkpoints_vouch_iff_unsaved :
    ∃ after, Run PipelineHistory.Step { pipeline := eager } unsaved after ∧
      ¬∀ before label next,
        Run.Makes PipelineHistory.Step { pipeline := eager } unsaved before label next →
          before.pipeline.givesUp label = false := by
  obtain ⟨after, hrun, -, hevents⟩ := unsaved_run
  refine ⟨after, hrun, fun hnever => ?_⟩
  exact not_persistedFirst_unsaved (hevents ▸ ((checkpoints_vouch_iff hrun rfl).1 (.inr hnever)).1)

end MarketPipeline

end CryptoTrading
