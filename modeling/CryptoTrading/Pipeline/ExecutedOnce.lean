import CryptoTrading.Pipeline.PipelineSteps

/-! An event is executed once, unless its execution has broken off: the guard against duplicates is set
after the checkpoint, four calls after `execute`. -/

namespace CryptoTrading

open Kit

/-- What a call of `execute` is for. -/
def executedKey : PipelineEvent → Option EventKey
  | .called .execute event => some event.key
  | _ => none

/-- The events that `execute` is called for, call by call. -/
def executions (events : List PipelineEvent) : List EventKey := events.filterMap executedKey

/-- The calls that an execution has to return from before its event is marked. -/
def ServiceCall.Settles (call : ServiceCall) : Prop :=
  call = .execute ∨ call = .persist ∨ call = .checkpoint

/-- After an execution for the event, one of the calls that settle it raised, or it cannot settle for
want of persistence. -/
def BrokeOff (services : PipelineServices) (events : List PipelineEvent) (key : EventKey) : Prop :=
  ∃ earlier later, events = earlier ++ later ∧ key ∈ executions earlier ∧
    (services.persistence = false ∨
      ∃ call event, .raised call event ∈ later ∧ call.Settles ∧ event.key = key)

theorem executions_append (events more : List PipelineEvent) :
    executions (events ++ more) = executions events ++ executions more :=
  List.filterMap_append

namespace BrokeOff

variable {services : PipelineServices} {events : List PipelineEvent} {key : EventKey}

theorem append (h : BrokeOff services events key) (more : List PipelineEvent) :
    BrokeOff services (events ++ more) key := by
  obtain ⟨earlier, later, rfl, hexecuted, hwhy⟩ := h
  refine ⟨earlier, later ++ more, List.append_assoc .., hexecuted, hwhy.imp_right ?_⟩
  rintro ⟨call, event, hraised, hrest⟩
  exact ⟨call, event, List.mem_append_left _ hraised, hrest⟩

theorem of_raised {call : ServiceCall} {event : MarketEvent} {more : List PipelineEvent}
    (hexecuted : key ∈ executions events) (hraised : .raised call event ∈ more) (hcall : call.Settles)
    (hkey : event.key = key) : BrokeOff services (events ++ more) key :=
  ⟨events, more, rfl, hexecuted, .inr ⟨call, event, hraised, hcall, hkey⟩⟩

theorem of_missing (hexecuted : key ∈ executions events) (h : services.persistence = false)
    (more : List PipelineEvent) : BrokeOff services (events ++ more) key :=
  ⟨events, more, rfl, hexecuted, .inl h⟩

theorem executed (h : BrokeOff services events key) : key ∈ executions events := by
  obtain ⟨earlier, later, rfl, hexecuted, -⟩ := h
  rw [executions_append]
  exact List.mem_append_left _ hexecuted

end BrokeOff

namespace MarketPipeline

variable {pipeline : MarketPipeline} {event : MarketEvent} {call : Option ServiceCall}
  {answer : Option Returned} {segment : Segment} {step : PipelineStep} {heard : List PipelineEvent}

theorem Heard.executions (h : pipeline.Heard step event call answer heard) :
    executions heard = [] := by
  cases h <;> rfl

/-- An execution follows a decision of approval. -/
theorem Goes.execution {key : EventKey} (h : pipeline.Goes event call answer segment)
    (hkey : key ∈ executions segment.2) :
    executions segment.2 = [event.key] ∧ call = some .evaluateRisk ∧
      answer = some (.decision true) ∧
      pipeline.services.executionEngine = true ∧
      ∃ awaited, segment.1.inFlight = some awaited ∧ awaited.call = .execute ∧
        awaited.processing.event = event := by
  cases hflight : segment.1.inFlight with
  | none =>
    obtain ⟨result, hevents⟩ := h.inFlight_none hflight
    rw [hevents] at hkey
    cases hkey
  | some awaited =>
    obtain ⟨hevent, hevents, hnext, hprovided⟩ := h.inFlight hflight
    rw [hevents] at hkey
    obtain ⟨made, processing⟩ := awaited
    cases made <;> try cases hkey
    case execute.head =>
      have hnext := hnext.resolve_right fun hfails => hfails.not_sound trivial
      match call, hnext with
      | some .evaluateRisk, .inl hnext =>
        exact ⟨hevents ▸ rfl, rfl, hnext.1, hprovided, _, rfl, rfl, hevent⟩
    case execute.tail h => cases h

/-- An event whose execution is to be settled. -/
theorem Goes.settles {made : ServiceCall} (h : pipeline.Goes event (some made) answer segment)
    (hmade : made.Settles) :
    answer = none ∨ pipeline.services.persistence = false ∨
      segment.1.tracker.lastSequences = (pipeline.marked event).tracker.lastSequences ∨
      ∃ awaited, segment.1.inFlight = some awaited ∧ awaited.call.Settles ∧
        awaited.processing.event = event := by
  by_cases hanswer : answer = none
  · exact .inl hanswer
  refine .inr ?_
  by_cases hcheckpoint : made = .checkpoint
  · exact .inr (.inl (h.marked (congrArg some hcheckpoint) hanswer))
  have hearly : made = .execute ∨ made = .persist := by
    rcases hmade with hmade | hmade | hmade
    · exact .inl hmade
    · exact .inr hmade
    · exact absurd hmade hcheckpoint
  have hmissing := hearly.imp (congrArg some) (congrArg some)
  cases h with
  | on _ hnext hevent =>
    refine .inr (.inr ⟨_, rfl, ?_, hevent⟩)
    rcases hearly with rfl | rfl
    · exact .inr (.inl hnext)
    · exact .inr (.inr hnext.2)
  | fails hfails => exact .inl (hfails.missing hmissing hanswer)
  | completes hcall => exact absurd (Option.some.inj hcall) hcheckpoint
  | failed hfails => exact .inl (hfails.missing hmissing hanswer)

/-- An event in flight that has not failed is not ignored. -/
theorem Goes.fresh {awaited : InFlight} (h : pipeline.Goes event call answer segment)
    (hnew : ServiceCall.Sound call → pipeline.ignores event = false)
    (hawaited : segment.1.inFlight = some awaited) (hsound : ServiceCall.Sound (some awaited.call)) :
    segment.1.ignores awaited.processing.event = false := by
  obtain ⟨hevent, -, hnext, -⟩ := h.inFlight hawaited
  have hcall := (hnext.resolve_right fun hfails => hfails.not_sound hsound).sound
  have hsequences := h.unmarked (.inl hcall.2)
  rw [hevent]
  unfold ignores PipelineStateTracker.lastSequence
  rw [hsequences]
  exact hnew hcall.1

end MarketPipeline

/-- Every execution is accounted for. -/
structure Accounted (history : PipelineHistory) : Prop where
  fresh : ∀ awaited, history.pipeline.inFlight = some awaited → ServiceCall.Sound (some awaited.call) →
    history.pipeline.ignores awaited.processing.event = false
  provided : ∀ key ∈ executions history.events, history.pipeline.services.executionEngine = true
  account : ∀ key ∈ executions history.events,
    key.2 ≤ history.pipeline.tracker.lastSequence key.1 ∨
    BrokeOff history.pipeline.services history.events key ∨
    ∃ awaited, history.pipeline.inFlight = some awaited ∧ awaited.call.Settles ∧
      awaited.processing.event.key = key

namespace Accounted

variable {pipeline after : MarketPipeline} {events new : List PipelineEvent} {label : PipelineStep}
  {before next : PipelineHistory}

/-- An event is accounted for after its call is answered. -/
theorem goes {event : MarketEvent} {call : Option ServiceCall} {answer : Option Returned}
    {heard : List PipelineEvent} (h : Accounted ⟨pipeline, events⟩)
    (hheard : pipeline.Heard label event call answer heard)
    (hgoes : pipeline.Goes event call answer (after, new)) :
    Accounted ⟨after, events ++ (heard ++ new)⟩ := by
  have hnew : ServiceCall.Sound call → pipeline.ignores event = false := by
    intro hsound
    cases hheard with
    | locked _ hnew => exact hnew
    | returned hawaited => exact h.fresh _ hawaited hsound
    | raised hawaited => exact h.fresh _ hawaited hsound
  have hexecutions : executions (events ++ (heard ++ new)) = executions events ++ executions new := by
    rw [executions_append, executions_append, hheard.executions, List.nil_append]
  have hmono : ∀ symbol, pipeline.tracker.lastSequence symbol ≤ after.tracker.lastSequence symbol := by
    intro symbol
    by_cases hmarked : call = some .checkpoint ∧ answer ≠ none
    · obtain ⟨rfl, hanswer⟩ := hmarked
      have hle := MarketPipeline.lastSequence_le_marked (hnew trivial) symbol
      unfold PipelineStateTracker.lastSequence at hle ⊢
      rwa [hgoes.marked rfl hanswer]
    · have hunmarked := hgoes.unmarked (by
        by_cases hanswer : answer = none
        · exact .inr hanswer
        · exact .inl fun hcall => hmarked ⟨hcall, hanswer⟩)
      unfold PipelineStateTracker.lastSequence
      rw [hunmarked]
  refine ⟨fun awaited hawaited hsound => hgoes.fresh hnew hawaited hsound, ?_, ?_⟩
  · intro key hkey
    rw [hexecutions, List.mem_append] at hkey
    show after.services.executionEngine = true
    rw [show after.services = _ from hgoes.services]
    rcases hkey with hkey | hkey
    · exact h.provided key hkey
    · exact (hgoes.execution hkey).2.2.2.1
  · intro key hkey
    rw [hexecutions, List.mem_append] at hkey
    show _ ∨ BrokeOff after.services _ _ ∨ _
    rw [show after.services = _ from hgoes.services]
    rcases hkey with hkey | hkey
    · rcases h.account key hkey with hle | hbroke | ⟨awaited, hawaited, hsettles, hkeyed⟩
      · exact .inl (hle.trans (hmono _))
      · exact .inr (.inl (hbroke.append _))
      · have hcall : call = some awaited.call ∧ event = awaited.processing.event ∧
            (answer = none → .raised awaited.call event ∈ heard) := by
          cases hheard with
          | locked hfree => exact absurd (hfree.symm.trans hawaited) nofun
          | returned hsame =>
            cases hsame.symm.trans hawaited
            exact ⟨rfl, rfl, nofun⟩
          | raised hsame =>
            cases hsame.symm.trans hawaited
            exact ⟨rfl, rfl, fun _ => List.mem_singleton_self _⟩
        obtain ⟨rfl, rfl, hraised⟩ := hcall
        rcases hgoes.settles hsettles with hanswer | hmissing | hmarked | ⟨awaited', hflight, hsettles', hevent⟩
        · refine .inr (.inl (.of_raised hkey (List.mem_append_left _ (hraised hanswer)) hsettles hkeyed))
        · exact .inr (.inl (.of_missing hkey hmissing _))
        · refine .inl ?_
          have hlast := MarketPipeline.lastSequence_marked pipeline awaited.processing.event key.1
          unfold PipelineStateTracker.lastSequence at hlast ⊢
          rw [show after.tracker.lastSequences = _ from hmarked, hlast, ← hkeyed]
          exact le_of_eq (if_pos rfl).symm
        · exact .inr (.inr ⟨awaited', hflight, hsettles', hevent ▸ hkeyed⟩)
    · obtain ⟨hone, -, -, -, awaited, hflight, hexecute, hevent⟩ := hgoes.execution hkey
      rw [hone, List.mem_singleton] at hkey
      exact .inr (.inr ⟨awaited, hflight, .inl hexecute, by rw [hevent, hkey]⟩)

/-- A step that leaves the sequences and the call in flight as they are, and executes nothing. -/
theorem of_same (h : Accounted ⟨pipeline, events⟩) (hservices : after.services = pipeline.services)
    (hsequences : after.tracker.lastSequences = pipeline.tracker.lastSequences)
    (hflight : after.inFlight = pipeline.inFlight) (hnew : executions new = []) :
    Accounted ⟨after, events ++ new⟩ := by
  have hexecutions : executions (events ++ new) = executions events := by
    rw [executions_append, hnew, List.append_nil]
  have hlast : after.tracker.lastSequence = pipeline.tracker.lastSequence := by
    funext symbol
    unfold PipelineStateTracker.lastSequence
    rw [hsequences]
  refine ⟨?_, ?_, ?_⟩
  · intro awaited hawaited hsound
    show decide (_ ≤ after.tracker.lastSequence _) = false
    rw [hlast]
    exact h.fresh awaited (hflight ▸ hawaited) hsound
  · intro key hkey
    show after.services.executionEngine = true
    rw [hservices]
    exact h.provided key (hexecutions ▸ hkey)
  · intro key hkey
    show _ ≤ after.tracker.lastSequence _ ∨ BrokeOff after.services _ _ ∨
      ∃ awaited, after.inFlight = _ ∧ _
    rw [hlast, hservices, hflight]
    exact (h.account key (hexecutions ▸ hkey)).imp_right (.imp_left (.append · _))

theorem step (h : Accounted before) (hstep : before.Step label next) : Accounted next := by
  obtain ⟨pipeline, events⟩ := before
  obtain ⟨after, all⟩ := next
  obtain ⟨new, hstep, hall⟩ := hstep
  dsimp only at hstep hall
  subst hall
  have htransition := MarketPipeline.transition_of_step hstep
  generalize hsegment : (after, new) = segment at htransition
  cases htransition with
  | ignored hfree => cases hsegment; exact h.of_same rfl rfl hfree.symm rfl
  | goes hheard hgoes => cases hsegment; exact h.goes hheard hgoes
  | stop => cases hsegment; exact h.of_same rfl rfl rfl rfl
  | martEnds => cases hsegment; exact h.of_same rfl rfl rfl rfl

end Accounted

/-- Risk approves of a signal for the event. -/
def Approves (pipeline : MarketPipeline) (step : PipelineStep) (event : MarketEvent) : Prop :=
  step = .returns (.decision true) ∧
    ∃ awaited, pipeline.inFlight = some awaited ∧ awaited.call = .evaluateRisk ∧
      awaited.processing.event = event

/-- What is approved is executed, if there is an engine. -/
theorem executions_of_approves {pipeline : MarketPipeline} {step : PipelineStep} {event : MarketEvent}
    {segment : Segment} (h : Approves pipeline step event)
    (hengine : pipeline.services.executionEngine = true) (hstep : pipeline.step? step = some segment) :
    executions segment.2 = [event.key] := by
  obtain ⟨rfl, ⟨call, processing⟩, hawaited, rfl, rfl⟩ := h
  unfold MarketPipeline.step? at hstep
  rw [hawaited] at hstep
  cases hstep
  have hprovided : ServiceCall.execute.providedBy pipeline.services = true := hengine
  unfold MarketPipeline.call
  rw [if_pos hprovided]
  rfl

/-- What is executed has been approved in the same step. -/
theorem approves_of_execution {pipeline : MarketPipeline} {step : PipelineStep} {segment : Segment}
    {key : EventKey} (hstep : pipeline.step? step = some segment) (hkey : key ∈ executions segment.2) :
    ∃ event, Approves pipeline step event ∧ executions segment.2 = [event.key] := by
  cases MarketPipeline.transition_of_step hstep with
  | ignored => cases hkey
  | stop => cases hkey
  | martEnds => cases hkey
  | goes hheard hgoes =>
    dsimp only at hkey ⊢
    rw [executions_append, hheard.executions, List.nil_append] at hkey ⊢
    obtain ⟨hone, rfl, rfl, -⟩ := hgoes.execution hkey
    generalize hcall : some ServiceCall.evaluateRisk = call at hheard
    generalize hanswer : some (Returned.decision true) = answer at hheard
    cases hheard with
    | locked => cases hcall
    | returned hawaited =>
      cases hanswer
      exact ⟨_, ⟨rfl, _, hawaited, (Option.some.inj hcall).symm, rfl⟩, hone⟩
    | raised => cases hanswer

/-- A step executes no event again exactly when it approves of none whose execution has broken off. -/
theorem Accounted.nodup_step {before next : PipelineHistory} {label : PipelineStep}
    (h : Accounted before) (hstep : before.Step label next) :
    (executions next.events).Nodup ↔ (executions before.events).Nodup ∧
      ∀ event, Approves before.pipeline label event →
        ¬BrokeOff before.pipeline.services before.events event.key := by
  obtain ⟨new, hstep, hall⟩ := hstep
  rw [hall, executions_append]
  constructor
  · intro hnodup
    refine ⟨(List.nodup_append.mp hnodup).1, fun event happroves hbroke => ?_⟩
    have hexecuted := hbroke.executed
    rw [executions_of_approves happroves (h.provided _ hexecuted) hstep] at hnodup
    exact (List.nodup_append.mp hnodup).2.2 _ hexecuted _ (List.mem_singleton_self _) rfl
  · rintro ⟨hnodup, hfine⟩
    rcases List.eq_nil_or_concat (executions new) with hkeys | ⟨keys, key, hkeys⟩
    · rwa [hkeys, List.append_nil]
    have hkey : key ∈ executions new := by simp [hkeys]
    obtain ⟨event, happroves, hone⟩ := approves_of_execution hstep hkey
    have hnot : event.key ∉ executions before.events := by
      have ⟨_, awaited, hawaited, hcall, hevent⟩ := happroves
      subst hevent
      intro hmem
      rcases h.account _ hmem with hle | hbroke | ⟨other, hother, hsettles, -⟩
      · have hfresh := h.fresh _ hawaited (hcall ▸ trivial)
        exact (MarketPipeline.lt_of_ignores hfresh).not_ge hle
      · exact hfine _ happroves hbroke
      · cases hother.symm.trans hawaited
        rw [hcall] at hsettles
        rcases hsettles with hsettles | hsettles | hsettles <;> cases hsettles
    rw [hone]
    exact List.nodup_append.mpr ⟨hnodup, List.nodup_singleton _, by
      rintro _ hmem _ hnew rfl
      exact hnot (List.mem_singleton.mp hnew ▸ hmem)⟩

namespace MarketPipeline

/-- In a run, `execute` is called once for each event exactly when risk approves of none again whose
execution has broken off. -/
theorem executed_once_iff {pipeline : MarketPipeline} {steps : List PipelineStep}
    {after : PipelineHistory} (hrun : Run PipelineHistory.Step { pipeline } steps after)
    (hidle : pipeline.inFlight = none) :
    (executions after.events).Nodup ↔
      ∀ before label next, Run.Makes PipelineHistory.Step { pipeline } steps before label next →
        ∀ event, Approves before.pipeline label event →
          ¬BrokeOff before.pipeline.services before.events event.key := by
  have hstart : Accounted { pipeline } := ⟨fun _ h => absurd (hidle.symm.trans h) nofun, nofun, nofun⟩
  have hiff := Run.iff_makes PipelineHistory.deterministic (I := Accounted)
    (P := fun history => (executions history.events).Nodup) hrun hstart
    (fun _ _ _ h hstep => h.step hstep) (fun _ _ _ h hstep => h.nodup_step hstep)
  exact hiff.trans (and_iff_right List.nodup_nil)

/-- An order is executed, `persist` raises, and the event that has failed is submitted again. -/
def resubmitted : List PipelineStep :=
  approvedSteps 1 ++ [.returns (.execution "filled"), .raises "disk full", .returns .nothing,
    .returns .nothing] ++ approvedSteps 1

theorem executed_again :
    ∃ after, Run PipelineHistory.Step { pipeline := eager } resubmitted after ∧
      executions after.events = [("BTCUSDT", 1), ("BTCUSDT", 1)] := by
  have hruns : (PipelineHistory.after? { pipeline := eager } resubmitted).map
      (fun after => executions after.events) = some [("BTCUSDT", 1), ("BTCUSDT", 1)] := by
    decide +kernel
  obtain ⟨after, hafter, hexecutions⟩ := Option.map_eq_some_iff.mp hruns
  exact ⟨after, PipelineHistory.run_of_after? hafter, hexecutions⟩

/-- The event is executed twice. -/
theorem not_executed_once :
    ∃ after, Run PipelineHistory.Step { pipeline := eager } resubmitted after ∧
      ¬(executions after.events).Nodup := by
  obtain ⟨after, hrun, hexecutions⟩ := executed_again
  exact ⟨after, hrun, by rw [hexecutions]; decide⟩

theorem executed_once_iff_resubmitted :
    ∃ after, Run PipelineHistory.Step { pipeline := eager } resubmitted after ∧
      ((executions after.events).Nodup ↔
        ∀ before label next,
          Run.Makes PipelineHistory.Step { pipeline := eager } resubmitted before label next →
          ∀ event, Approves before.pipeline label event →
            ¬BrokeOff before.pipeline.services before.events event.key) := by
  obtain ⟨after, hrun, -⟩ := executed_again
  exact ⟨after, hrun, executed_once_iff hrun rfl⟩

end MarketPipeline

end CryptoTrading
