import CryptoTrading.Pipeline.CheckpointedEvents

/-! `stop` sets the state alone: it does not take the lock, and no stage looks whether the pipeline has
stopped. -/

namespace CryptoTrading

open Kit

namespace MarketPipeline

variable {pipeline : MarketPipeline} {segment : Segment} {label : PipelineStep}

/-- The answer to the call in flight ends its event as it is: nothing fails and nothing else is
called. -/
def closes (pipeline : MarketPipeline) (step : PipelineStep) : Bool :=
  pipeline.inFlight.all fun awaited =>
    match awaited.call, step with
    | .bestEffortCheckpoint _, _ => true
    | .recordFailure _, _ => !pipeline.services.persistence
    | .checkpoint, .returns _ => !pipeline.givesUp step
    | _, _ => false

/-- Once `stop` has returned only duplicates get the lock, and of an event in flight no more than its
last call is answered. -/
def quiet (pipeline : MarketPipeline) : PipelineStep → Bool
  | .lock event => pipeline.ignores event
  | .returns value => pipeline.closes (.returns value)
  | .raises text => pipeline.closes (.raises text)
  | .stop => true
  | .martEnds => true

/-- The checkpoint of an event returns, and the MART refresh is no hindrance. -/
theorem complete_of_not_failsAfter {processing : Processing} {martError : Option String}
    (h : pipeline.failsAfter processing .checkpoint (.checkpointed martError) = false) :
    (pipeline.complete processing martError).1.tracker.state = pipeline.tracker.state ∧
      ∃ result, (pipeline.complete processing martError).2 = [.finished processing.event result] := by
  unfold complete
  dsimp only
  split
  · rename_i hdue
    rw [Bool.and_eq_true] at hdue
    split
    · simp [failsAfter, hdue] at h
    · exact ⟨rfl, _, rfl⟩
  · exact ⟨rfl, _, rfl⟩

/-- After a call of the `except` branch an event can only end where it stands, or call the checkpoint. -/
theorem Goes.ends {event : MarketEvent} {call : Option ServiceCall} {answer : Option Returned}
    (h : pipeline.Goes event call answer segment) (hcall : ¬ServiceCall.Sound call)
    (hlast : ∀ next : ServiceCall, ServiceCall.FailsTo call next →
      next.providedBy pipeline.services = false) :
    segment.1.tracker.state = pipeline.tracker.state ∧
      ∃ result, segment.2 = [.finished event result] := by
  cases h with
  | on _ hnext => exact absurd hnext.sound.1 hcall
  | fails _ hnext _ hprovided => exact absurd (hprovided.symm.trans (hlast _ hnext)) nofun
  | completes hcheckpoint => exact absurd (hcheckpoint ▸ trivial) hcall
  | failed hfails => exact ⟨hfails.state hcall, _, rfl⟩

/-- The answer to a call that closes its event. -/
theorem closes_segment {awaited : InFlight} {answer : Option Returned} {heard : PipelineEvent}
    (hgoes : pipeline.Goes awaited.processing.event (some awaited.call) answer segment)
    (hlast : (∃ reason, awaited.call = .bestEffortCheckpoint reason) ∨
      (∃ reason, awaited.call = .recordFailure reason) ∧ pipeline.services.persistence = false)
    (hheard : ∀ call event, heard ≠ .called call event) :
    segment.1.tracker.state = pipeline.tracker.state ∧
      ∀ call event, .called call event ∉ heard :: segment.2 := by
  obtain ⟨hstate, result, hone⟩ : segment.1.tracker.state = pipeline.tracker.state ∧
      ∃ result, segment.2 = [.finished awaited.processing.event result] := by
    rcases hlast with ⟨reason, hcall⟩ | ⟨⟨reason, hcall⟩, hmissing⟩
    · rw [hcall] at hgoes
      exact hgoes.ends id fun next hnext => hnext.elim
    · rw [hcall] at hgoes
      refine hgoes.ends id fun next hnext => ?_
      obtain ⟨reason, rfl⟩ := hnext
      exact hmissing
  refine ⟨hstate, fun call event hmem => ?_⟩
  rw [hone] at hmem
  rcases List.mem_cons.mp hmem with hmem | hmem
  · exact hheard call event hmem.symm
  · cases List.mem_singleton.mp hmem

/-- A quiet step leaves the state alone, and calls nothing. -/
theorem quiet_step (hstep : pipeline.step? label = some segment) (hquiet : pipeline.quiet label = true)
    (hstopped : pipeline.tracker.state = .stopped) :
    segment.1.tracker.state = .stopped ∧ ∀ call event, .called call event ∉ segment.2 := by
  rw [← hstopped]
  cases label with
  | lock event =>
    simp only [step?] at hstep
    split at hstep
    · cases hstep
    · cases hstep
      unfold processMarketEvent
      rw [if_pos (show pipeline.ignores event = true from hquiet)]
      exact ⟨rfl, fun call event hmem => by cases List.mem_singleton.mp hmem⟩
  | returns value =>
    obtain ⟨awaited, hawaited, hstep⟩ := Option.bind_eq_some_iff.mp hstep
    obtain ⟨segment, hsegment, rfl⟩ := Option.map_eq_some_iff.mp hstep
    have hheard : ∀ call event,
        PipelineEvent.returned awaited.call awaited.processing.event ≠ .called call event :=
      fun _ _ h => PipelineEvent.noConfusion h
    simp only [quiet, closes, givesUp, hawaited, Option.all_some, Option.any_some] at hquiet
    obtain ⟨made, processing⟩ := awaited
    cases made with
    | bestEffortCheckpoint reason =>
      exact closes_segment (goes_of_resume hsegment) (.inl ⟨reason, rfl⟩) hheard
    | recordFailure reason =>
      exact closes_segment (goes_of_resume hsegment)
        (.inr ⟨⟨reason, rfl⟩, Bool.not_eq_true' _ ▸ hquiet⟩) hheard
    | checkpoint =>
      cases value with
      | checkpointed martError =>
        cases hsegment
        obtain ⟨hstate, result, hone⟩ :=
          complete_of_not_failsAfter (Bool.not_eq_true' _ ▸ hquiet)
        refine ⟨hstate, fun call event hmem => ?_⟩
        dsimp only at hmem
        rw [hone] at hmem
        rcases List.mem_cons.mp hmem with hmem | hmem
        · cases hmem
        · cases List.mem_singleton.mp hmem
      | _ => cases hsegment
    | _ => cases hquiet
  | raises text =>
    obtain ⟨awaited, hawaited, rfl⟩ := Option.map_eq_some_iff.mp hstep
    have hheard : ∀ call event,
        PipelineEvent.raised awaited.call awaited.processing.event ≠ .called call event :=
      fun _ _ h => PipelineEvent.noConfusion h
    simp only [quiet, closes, hawaited, Option.all_some] at hquiet
    obtain ⟨made, processing⟩ := awaited
    cases made with
    | bestEffortCheckpoint reason =>
      exact closes_segment (goes_of_recover _ _ text _) (.inl ⟨reason, rfl⟩) hheard
    | recordFailure reason =>
      exact closes_segment (goes_of_recover _ _ text _)
        (.inr ⟨⟨reason, rfl⟩, Bool.not_eq_true' _ ▸ hquiet⟩) hheard
    | _ => cases hquiet
  | stop =>
    cases hstep
    exact ⟨hstopped.symm, fun call event hmem => by cases List.mem_singleton.mp hmem⟩
  | martEnds =>
    cases hstep
    exact ⟨rfl, fun call event hmem => absurd hmem List.not_mem_nil⟩

/-- `stop` returns in a step of its own. -/
theorem stopped_of_step (hstep : pipeline.step? label = some segment) (hmem : .stopped ∈ segment.2) :
    segment.1.tracker.state = .stopped ∧ segment.2 = [.stopped] := by
  cases transition_of_step hstep with
  | ignored => cases List.mem_singleton.mp hmem
  | stop => exact ⟨rfl, rfl⟩
  | martEnds => cases hmem
  | goes hheard hgoes =>
    rename_i event call answer heard segment
    rcases List.mem_append.mp hmem with hmem | hmem
    · cases hheard with
      | locked => cases hmem
      | returned => cases List.mem_singleton.mp hmem
      | raised => cases List.mem_singleton.mp hmem
    · cases hflight : segment.1.inFlight with
      | none =>
        obtain ⟨result, hone⟩ := hgoes.inFlight_none hflight
        rw [hone] at hmem
        cases List.mem_singleton.mp hmem
      | some awaited =>
        rw [(hgoes.inFlight hflight).2.1] at hmem
        cases List.mem_singleton.mp hmem

end MarketPipeline

/-- Since each return of `stop`, the pipeline has been stopped and has called nothing. -/
def StoppedForGood (history : PipelineHistory) : Prop :=
  ∀ earlier later, history.events = earlier ++ .stopped :: later →
    history.pipeline.tracker.state = .stopped ∧ ∀ call event, .called call event ∉ later

theorem StoppedForGood.step {before next : PipelineHistory} {label : PipelineStep}
    (h : StoppedForGood before) (hstep : before.Step label next)
    (hquiet : .stopped ∈ before.events → before.pipeline.quiet label = true) : StoppedForGood next := by
  obtain ⟨new, hstep, hevents⟩ := hstep
  by_cases hstopped : .stopped ∈ before.events
  · obtain ⟨first, rest, hfirst⟩ := List.append_of_mem hstopped
    have hstate := (h first rest hfirst).1
    obtain ⟨hnext, hcalls⟩ := MarketPipeline.quiet_step hstep (hquiet hstopped) hstate
    intro earlier later hsplit
    refine ⟨hnext, fun call event hmem => ?_⟩
    rw [hevents] at hsplit
    rcases List.append_eq_append_iff.mp hsplit with ⟨middle, rfl, hmiddle⟩ | ⟨middle, hmiddle, hrest⟩
    · refine hcalls call event ?_
      rw [show new = _ from hmiddle]
      exact List.mem_append_right _ (List.mem_cons_of_mem _ hmem)
    · cases middle with
      | nil =>
        refine hcalls call event ?_
        rw [show new = _ from hrest.symm]
        exact List.mem_cons_of_mem _ hmem
      | cons head middle =>
        cases hrest
        rcases List.mem_append.mp hmem with hmem | hmem
        · exact (h earlier middle hmiddle).2 call event hmem
        · exact hcalls call event hmem
  · intro earlier later hsplit
    rw [hevents] at hsplit
    have hnew : .stopped ∈ new := by
      have hmem : .stopped ∈ before.events ++ new := by simp [hsplit]
      exact (List.mem_append.mp hmem).resolve_left hstopped
    obtain ⟨hnext, hone⟩ := MarketPipeline.stopped_of_step hstep hnew
    rw [show new = _ from hone] at hsplit
    obtain ⟨-, -, rfl⟩ := eq_of_append_singleton hsplit hstopped
    exact ⟨hnext, fun call event hmem => absurd hmem List.not_mem_nil⟩

namespace MarketPipeline

/-- In a run in which only quiet steps follow a return of `stop`, the pipeline stays stopped and calls no
service any more. -/
theorem stopped_is_terminal {pipeline : MarketPipeline} {steps : List PipelineStep}
    {after : PipelineHistory} (hrun : Run PipelineHistory.Step { pipeline } steps after)
    (hquiet : ∀ before label next,
      Run.Makes PipelineHistory.Step { pipeline } steps before label next →
        .stopped ∈ before.events → before.pipeline.quiet label = true) : StoppedForGood after := by
  refine hrun.invariant_makes ?_ fun before label next hmakes h => ?_
  · intro earlier later hsplit
    cases earlier <;> cases hsplit
  · have hquiet := hquiet before label next hmakes
    obtain ⟨-, -, -, -, hstep⟩ := hmakes
    exact h.step hstep hquiet

/-- A duplicate is submitted after `stop`. -/
theorem stopped_is_terminal_duplicate :
    ∃ after, Run PipelineHistory.Step { pipeline := eager }
        [.stop, .lock { candle := hourCandle, sequence := 0 }] after ∧ StoppedForGood after := by
  have hstop : PipelineHistory.Step { pipeline := eager } .stop
      ⟨eager.withState .stopped, [.stopped]⟩ := ⟨_, rfl, rfl⟩
  have hignores : (eager.withState .stopped).ignores { candle := hourCandle, sequence := 0 } = true := by
    decide
  have hlock := PipelineHistory.step_of_step? [.stopped] (show (eager.withState .stopped).step?
    (.lock { candle := hourCandle, sequence := 0 }) = some _ from rfl)
  refine ⟨_, .cons hstop (.single hlock), stopped_is_terminal (.cons hstop (.single hlock)) ?_⟩
  intro before label next hmakes _
  rcases (Run.makes_cons_iff PipelineHistory.deterministic hstop).mp hmakes with
    ⟨rfl, rfl, rfl⟩ | hmakes
  · rfl
  rcases (Run.makes_cons_iff PipelineHistory.deterministic hlock).mp hmakes with
    ⟨rfl, rfl, rfl⟩ | ⟨passed, later, hsplit, -⟩
  · exact hignores
  · cases passed <;> cases hsplit

/-- An event that gets the lock after `stop` makes the pipeline ready, and the strategy is called. -/
theorem stopped_not_terminal :
    ∃ after, Run PipelineHistory.Step { pipeline := eager } (.stop :: (approvedSteps 1).take 6) after ∧
      after.pipeline.tracker.state = .ready ∧
      (∃ later, after.events = .stopped :: later ∧
        .called .evaluateStrategy { candle := hourCandle, sequence := 1 } ∈ later) ∧
      ¬StoppedForGood after := by
  have hruns : (PipelineHistory.after? { pipeline := eager }
        (.stop :: (approvedSteps 1).take 6)).map (fun after =>
      (after.pipeline.tracker.state, after.events.head?, after.events.tail.getLast?)) =
      some (.ready, some .stopped,
        some (.called .evaluateStrategy { candle := hourCandle, sequence := 1 })) := by
    decide +kernel
  obtain ⟨after, hafter, hseen⟩ := Option.map_eq_some_iff.mp hruns
  have hstate : after.pipeline.tracker.state = .ready := congrArg Prod.fst hseen
  have hhead : after.events.head? = some .stopped := congrArg (fun seen => seen.2.1) hseen
  have hlast := List.mem_of_getLast? (congrArg (fun seen => seen.2.2) hseen)
  have hevents : after.events = .stopped :: after.events.tail :=
    (List.cons_head?_tail hhead).symm
  refine ⟨after, PipelineHistory.run_of_after? hafter, hstate, ⟨_, hevents, hlast⟩, fun hgood => ?_⟩
  exact absurd ((hgood [] _ hevents).1.symm.trans hstate) nofun

end MarketPipeline

end CryptoTrading
