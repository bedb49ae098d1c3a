import CryptoTrading.Pipeline.MarketPipeline

/-! What a step of the pipeline can do: which call follows which, where an event fails, and where it
ends. -/

namespace CryptoTrading

open Kit

namespace ServiceCall

/-- A call that an event makes after it has failed. -/
def IsFailure : ServiceCall → Prop
  | recordFailure _ => True
  | bestEffortCheckpoint _ => True
  | _ => False

/-- The calls that may follow, within the `try`, a call that is answered: `answer` is `none` for one
that raises.  The first follows no call. -/
def Next : Option ServiceCall → Option Returned → ServiceCall → Prop
  | none, _, next => next = save
  | some save, _, next => next = normalize
  | some normalize, _, next => next = onMarketEvent ∨ next = calculate
  | some onMarketEvent, _, next => next = calculate
  | some calculate, _, next => next = detect
  | some detect, _, next => next = evaluateStrategy ∨ next = persist
  | some evaluateStrategy, _, next => next = evaluateRisk ∨ next = persist
  | some evaluateRisk, answer, next =>
    (answer = some (.decision true) ∧ next = execute) ∨ next = recordRejection ∨ next = persist
  | some execute, _, next => next = persist
  | some recordRejection, _, next => next = persist
  | some persist, answer, next => answer = some .nothing ∧ next = checkpoint
  | some _, _, _ => False

/-- The calls of the `except` branch that may follow. -/
def FailsTo : Option ServiceCall → ServiceCall → Prop
  | some (recordFailure _), next => ∃ reason, next = bestEffortCheckpoint reason
  | some (bestEffortCheckpoint _), _ => False
  | _, next => next.IsFailure

/-- The event has not failed yet. -/
def Sound : Option ServiceCall → Prop
  | some (recordFailure _) => False
  | some (bestEffortCheckpoint _) => False
  | _ => True

variable {call : Option ServiceCall} {answer : Option Returned} {next : ServiceCall}

theorem FailsTo.not_sound (h : FailsTo call next) : ¬Sound (some next) := by
  have hfailure : next.IsFailure := by
    cases call with
    | none => exact h
    | some made =>
      cases made with
      | recordFailure =>
        obtain ⟨reason, rfl⟩ := h
        trivial
      | bestEffortCheckpoint => exact h.elim
      | _ => exact h
  cases next <;> first | exact id | exact hfailure.elim

theorem Next.sound (h : Next call answer next) : Sound call ∧ call ≠ some checkpoint := by
  cases call with
  | none => exact ⟨trivial, nofun⟩
  | some made => cases made <;> first | exact h.elim | exact ⟨trivial, nofun⟩

theorem Next.checkpoint (h : Next call answer checkpoint) :
    call = some persist ∧ answer = some .nothing := by
  cases call with
  | none => cases h
  | some made =>
    cases made with
    | persist => exact ⟨rfl, h.1⟩
    | normalize => rcases h with h | h <;> cases h
    | detect => rcases h with h | h <;> cases h
    | evaluateStrategy => rcases h with h | h <;> cases h
    | evaluateRisk => rcases h with ⟨-, h⟩ | h | h <;> cases h
    | checkpoint => exact h.elim
    | recordFailure => exact h.elim
    | bestEffortCheckpoint => exact h.elim
    | _ => cases h

end ServiceCall

namespace MarketPipeline

variable {pipeline after : MarketPipeline} {processing : Processing} {call : Option ServiceCall}
  {next : ServiceCall} {reason : PipelineError} {segment : Segment} {event : MarketEvent}
  {answer : Option Returned}

/-- `at_` is the pipeline when it goes on after a call: the readiness is observed after `detect`. -/
def Keeps (pipeline : MarketPipeline) (call : Option ServiceCall) (at_ : MarketPipeline) : Prop :=
  at_ = pipeline ∨ call = some .detect ∧ ∃ processing, at_ = pipeline.observe processing

/-- The pipeline after the event of a checkpoint is marked. -/
def marked (pipeline : MarketPipeline) (event : MarketEvent) : MarketPipeline :=
  let tracker := pipeline.tracker.markProcessed event.candle.symbol event.sequence
  { pipeline with tracker }

/-- `at_` is the pipeline when the event has failed.  An event whose checkpoint has returned is marked
before it fails. -/
structure Fails (pipeline : MarketPipeline) (event : MarketEvent) (call : Option ServiceCall)
    (answer : Option Returned) (at_ : MarketPipeline) : Prop where
  services : at_.services = pipeline.services
  unmarked : (call ≠ some .checkpoint ∨ answer = none) →
    at_.tracker.lastSequences = pipeline.tracker.lastSequences
  marked : call = some .checkpoint → answer ≠ none →
    at_.tracker.lastSequences = (pipeline.marked event).tracker.lastSequences
  /-- What follows `execute` and `persist` fails without a call for want of persistence alone. -/
  missing : (call = some .execute ∨ call = some .persist) → answer ≠ none →
    pipeline.services.persistence = false
  state : ¬ServiceCall.Sound call → at_.tracker.state = pipeline.tracker.state

/-- Where an event goes after a call that is answered. -/
inductive Goes (pipeline : MarketPipeline) (event : MarketEvent) (call : Option ServiceCall)
    (answer : Option Returned) : Segment → Prop
  | on {at_ : MarketPipeline} {processing : Processing} {next : ServiceCall}
      (hkeeps : pipeline.Keeps call at_) (hnext : ServiceCall.Next call answer next)
      (hevent : processing.event = event) (hprovided : next.providedBy pipeline.services = true) :
      Goes pipeline event call answer (at_.await processing next)
  | fails {at_ : MarketPipeline} {processing : Processing} {next : ServiceCall}
      (hfails : pipeline.Fails event call answer at_) (hnext : ServiceCall.FailsTo call next)
      (hevent : processing.event = event) (hprovided : next.providedBy pipeline.services = true) :
      Goes pipeline event call answer (at_.await processing next)
  | completes {at_ : MarketPipeline} {result : PipelineResult} (hcall : call = some .checkpoint)
      (hanswer : answer ≠ none) (hstatus : result.status ≠ .failed)
      (hmarked : at_.tracker = (pipeline.marked event).tracker)
      (hservices : at_.services = pipeline.services) :
      Goes pipeline event call answer (at_.finish event result)
  | failed {at_ : MarketPipeline} {result : PipelineResult}
      (hfails : pipeline.Fails event call answer at_) (hstatus : result.status = .failed)
      (hlast : pipeline.services.persistence = true →
        ∃ reason, call = some (.bestEffortCheckpoint reason)) :
      Goes pipeline event call answer (at_.finish event result)

theorem Keeps.refl (pipeline : MarketPipeline) (call : Option ServiceCall) :
    pipeline.Keeps call pipeline :=
  .inl rfl

theorem Keeps.services {at_ : MarketPipeline} (h : pipeline.Keeps call at_) :
    at_.services = pipeline.services := by
  rcases h with rfl | ⟨-, processing, rfl⟩ <;> rfl

theorem Keeps.sequences {at_ : MarketPipeline} (h : pipeline.Keeps call at_) :
    at_.tracker.lastSequences = pipeline.tracker.lastSequences := by
  rcases h with rfl | ⟨-, processing, rfl⟩ <;> rfl

theorem Fails.of_not_sound (hcall : ¬ServiceCall.Sound call) :
    pipeline.Fails event call answer pipeline where
  services := rfl
  unmarked _ := rfl
  marked h := absurd (h ▸ trivial) hcall
  missing h := absurd (by rcases h with rfl | rfl <;> trivial) hcall
  state _ := rfl

theorem Fails.of_sound {at_ : MarketPipeline} {state : PipelineState} (hcall : ServiceCall.Sound call)
    (hservices : at_.services = pipeline.services)
    (hsequences : at_.tracker.lastSequences = pipeline.tracker.lastSequences)
    (hcheckpoint : call = some .checkpoint → answer = none)
    (hmissing : (call = some .execute ∨ call = some .persist) → answer ≠ none →
      pipeline.services.persistence = false) :
    pipeline.Fails event call answer (at_.withState state) where
  services := hservices
  unmarked _ := hsequences
  marked h hanswer := absurd (hcheckpoint h) hanswer
  missing := hmissing
  state h := absurd hcall h

/-- The best-effort checkpoint, or the end where there is no persistence. -/
theorem goes_of_bestEffortCheckpoint {at_ : MarketPipeline}
    (hfails : pipeline.Fails event call answer at_)
    (hnext : ∀ reason, ServiceCall.FailsTo call (.bestEffortCheckpoint reason))
    (hevent : processing.event = event) :
    pipeline.Goes event call answer (at_.bestEffortCheckpoint processing reason) := by
  unfold bestEffortCheckpoint
  split
  · rename_i hpersistence
    exact .fails hfails (hnext reason) hevent (hfails.services ▸ hpersistence)
  · rename_i hpersistence
    unfold finishFailed
    rw [hevent]
    exact .failed hfails rfl fun h => absurd (hfails.services ▸ h) hpersistence

/-- The `except` branch. -/
theorem goes_of_fail {at_ : MarketPipeline} (hcall : ServiceCall.Sound call)
    (hfails : pipeline.Fails event call answer (at_.withState .degraded))
    (hevent : processing.event = event) :
    pipeline.Goes event call answer (at_.fail processing reason) := by
  have hto : ∀ next : ServiceCall, next.IsFailure → ServiceCall.FailsTo call next := by
    intro next hnext
    cases call with
    | none => exact hnext
    | some made =>
      cases made <;> first | exact hnext | exact absurd hcall id
  unfold fail
  split
  · rename_i hstore
    exact .fails hfails (hto _ trivial) hevent (hfails.services ▸ hstore)
  · exact goes_of_bestEffortCheckpoint hfails (fun _ => hto _ trivial) hevent

/-- An event fails in front of its checkpoint. -/
theorem goes_of_fail_early (hcall : ServiceCall.Sound call)
    (hearly : answer ≠ none →
      call ≠ some .execute ∧ call ≠ some .persist ∧ call ≠ some .checkpoint)
    (hevent : processing.event = event) :
    pipeline.Goes event call answer (pipeline.fail processing reason) := by
  refine goes_of_fail hcall (.of_sound hcall rfl rfl ?_ ?_) hevent
  · intro h
    by_contra hanswer
    exact (hearly hanswer).2.2 h
  · intro h hanswer
    obtain ⟨hexecute, hpersist, -⟩ := hearly hanswer
    exact absurd h (not_or.mpr ⟨hexecute, hpersist⟩)

/-- `_call` of the next service. -/
theorem goes_of_call {at_ : MarketPipeline} (hkeeps : pipeline.Keeps call at_)
    (hnext : ServiceCall.Next call answer next) (hcall : ServiceCall.Sound call)
    (hevent : processing.event = event) :
    pipeline.Goes event call answer (at_.call processing next) := by
  unfold MarketPipeline.call
  split
  · rename_i hprovided
    exact .on hkeeps hnext hevent (hkeeps.services ▸ hprovided)
  · rename_i hprovided
    refine goes_of_fail hcall (.of_sound hcall hkeeps.services hkeeps.sequences ?_ ?_) hevent
    · rintro rfl
      exact hnext.elim
    · intro h _
      have hpersistence : next.providedBy at_.services = at_.services.persistence := by
        rcases h with rfl | rfl
        · cases hnext
          rfl
        · cases hnext.2
          rfl
      rw [hpersistence, hkeeps.services] at hprovided
      exact Bool.not_eq_true _ ▸ hprovided

theorem processedResult_status (pipeline : MarketPipeline) (processing : Processing) :
    (pipeline.processedResult processing).status ≠ .failed := by
  simp only [processedResult]
  split <;> nofun

/-- The event is marked also where the MART refresh raises and it fails. -/
theorem goes_of_complete {martError : Option String} :
    pipeline.Goes processing.event (some .checkpoint) (some (.checkpointed martError))
      (pipeline.complete processing martError) := by
  unfold complete
  split
  · split
    · refine goes_of_fail trivial ⟨rfl, ?_, fun _ _ => rfl, ?_, fun h => absurd trivial h⟩ rfl
      · exact fun h => absurd h (not_or.mpr ⟨fun h => h rfl, nofun⟩)
      · exact fun h => absurd h (not_or.mpr ⟨nofun, nofun⟩)
    · exact .completes rfl nofun (processedResult_status _ _) rfl rfl
  · exact .completes rfl nofun (processedResult_status _ _) rfl rfl

/-- What follows a call that returns. -/
theorem goes_of_resume {made : ServiceCall} {value : Returned}
    (h : pipeline.resume processing made value = some segment) :
    pipeline.Goes processing.event (some made) (some value) segment := by
  unfold resume at h
  split at h
  case h_1 now =>
    dsimp only at h
    split at h <;> cases h
    · exact goes_of_fail_early trivial (fun _ => ⟨nofun, nofun, nofun⟩) rfl
    · exact goes_of_call (.refl _ _) rfl trivial rfl
  case h_2 candle =>
    split at h
    · cases h
      exact goes_of_fail_early trivial (fun _ => ⟨nofun, nofun, nofun⟩) rfl
    · cases h
      unfold callOnMarketEvent
      split
      · rename_i hprovided
        exact .on (.refl _ _) (.inl rfl) rfl hprovided
      · exact goes_of_call (.refl _ _) (.inr rfl) trivial rfl
  case h_3 => cases h; exact goes_of_call (.refl _ _) rfl trivial rfl
  case h_4 names => cases h; exact goes_of_call (.refl _ _) rfl trivial rfl
  case h_5 regime =>
    dsimp only at h
    split at h <;> cases h
    · exact goes_of_call (.inr ⟨rfl, _, rfl⟩) (.inl rfl) trivial rfl
    · exact goes_of_call (.inr ⟨rfl, _, rfl⟩) (.inr rfl) trivial rfl
  case h_6 => cases h; exact goes_of_call (.refl _ _) (.inr rfl) trivial rfl
  case h_7 signal => cases h; exact goes_of_call (.refl _ _) (.inl rfl) trivial rfl
  case h_8 approved =>
    dsimp only at h
    split at h
    · rename_i happroved
      cases h
      exact goes_of_call (.refl _ _) (.inl ⟨by rw [happroved], rfl⟩) trivial rfl
    · split at h <;> cases h
      · rename_i hstore
        exact .on (.refl _ _) (.inr (.inl rfl)) rfl hstore
      · exact goes_of_call (.refl _ _) (.inr (.inr rfl)) trivial rfl
  case h_9 result => cases h; exact goes_of_call (.refl _ _) rfl trivial rfl
  case h_10 => cases h; exact goes_of_call (.refl _ _) rfl trivial rfl
  case h_11 => cases h; exact goes_of_call (.refl _ _) ⟨rfl, rfl⟩ trivial rfl
  case h_12 martError => cases h; exact goes_of_complete
  case h_13 reason =>
    cases h
    exact goes_of_bestEffortCheckpoint (.of_not_sound id) (fun reason => ⟨reason, rfl⟩) rfl
  case h_14 reason => cases h; exact .failed (.of_not_sound id) rfl fun _ => ⟨reason, rfl⟩
  case h_15 => cases h

theorem goes_of_recover (pipeline : MarketPipeline) (processing : Processing) (text : String)
    (made : ServiceCall) :
    pipeline.Goes processing.event (some made) none (pipeline.recover processing text made) := by
  cases made with
  | recordRejection => exact goes_of_call (.refl _ _) rfl trivial rfl
  | recordFailure reason =>
    exact goes_of_bestEffortCheckpoint (.of_not_sound id) (fun reason => ⟨reason, rfl⟩) rfl
  | bestEffortCheckpoint reason => exact .failed (.of_not_sound id) rfl fun _ => ⟨reason, rfl⟩
  | _ => exact goes_of_fail_early trivial (absurd rfl) rfl

theorem Goes.services (h : pipeline.Goes event call answer segment) :
    segment.1.services = pipeline.services := by
  cases h with
  | on hkeeps => exact hkeeps.services
  | fails hfails => exact hfails.services
  | completes _ _ _ _ hservices => exact hservices
  | failed hfails => exact hfails.services

/-- The event is marked when its checkpoint has returned, and no other. -/
theorem Goes.unmarked (h : pipeline.Goes event call answer segment)
    (hcall : call ≠ some .checkpoint ∨ answer = none) :
    segment.1.tracker.lastSequences = pipeline.tracker.lastSequences := by
  cases h with
  | on hkeeps => exact hkeeps.sequences
  | fails hfails => exact hfails.unmarked hcall
  | completes hcheckpoint hanswer =>
    rcases hcall with hcall | hcall
    · exact absurd hcheckpoint hcall
    · exact absurd hcall hanswer
  | failed hfails => exact hfails.unmarked hcall

theorem Goes.marked (h : pipeline.Goes event call answer segment) (hcall : call = some .checkpoint)
    (hanswer : answer ≠ none) :
    segment.1.tracker.lastSequences = (pipeline.marked event).tracker.lastSequences := by
  cases h with
  | on _ hnext =>
    subst hcall
    exact hnext.elim
  | fails hfails => exact hfails.marked hcall hanswer
  | completes _ _ _ hmarked => exact congrArg PipelineStateTracker.lastSequences hmarked
  | failed hfails => exact hfails.marked hcall hanswer

/-- A call that is awaited after a step was made in it, for the same event. -/
theorem Goes.inFlight {awaited : InFlight} (h : pipeline.Goes event call answer segment)
    (hawaited : segment.1.inFlight = some awaited) :
    awaited.processing.event = event ∧ segment.2 = [.called awaited.call event] ∧
      (ServiceCall.Next call answer awaited.call ∨ ServiceCall.FailsTo call awaited.call) ∧
      awaited.call.providedBy pipeline.services = true := by
  cases h with
  | on _ hnext hevent hprovided =>
    cases hawaited
    exact ⟨hevent, hevent ▸ rfl, .inl hnext, hprovided⟩
  | fails _ hnext hevent hprovided =>
    cases hawaited
    exact ⟨hevent, hevent ▸ rfl, .inr hnext, hprovided⟩
  | completes => cases hawaited
  | failed => cases hawaited

theorem Goes.inFlight_none (h : pipeline.Goes event call answer segment)
    (hfree : segment.1.inFlight = none) : ∃ result, segment.2 = [.finished event result] := by
  cases h with
  | on => cases hfree
  | fails => cases hfree
  | completes => exact ⟨_, rfl⟩
  | failed => exact ⟨_, rfl⟩

theorem lastSequence_marked (pipeline : MarketPipeline) (event : MarketEvent) (symbol : String) :
    (pipeline.marked event).tracker.lastSequence symbol =
      if event.candle.symbol = symbol then event.sequence
      else pipeline.tracker.lastSequence symbol := by
  unfold marked PipelineStateTracker.markProcessed PipelineStateTracker.lastSequence
  dsimp only
  rw [Dict.get?_set]
  split <;> rfl

/-- A restored checkpoint goes before what was known of its symbol. -/
theorem lastSequence_restoreCheckpoint (pipeline : MarketPipeline) (recorded : Dict String ℤ)
    (symbol : String) :
    (pipeline.restoreCheckpoint recorded).tracker.lastSequence symbol =
      (recorded.get? symbol).getD (pipeline.tracker.lastSequence symbol) := by
  unfold restoreCheckpoint PipelineStateTracker.lastSequence
  dsimp only
  cases hget : recorded.get? symbol with
  | none =>
    have hnot := Dict.get?_eq_none_iff.mp hget
    rw [Dict.get?_foldl_set_of_notMem Prod.fst Prod.snd hnot]
    rfl
  | some sequence =>
    have hmem := Dict.get?_eq_some_iff.mp hget
    have hset := Dict.get?_foldl_set_of_mem Prod.fst Prod.snd recorded.nodup hmem
      pipeline.tracker.lastSequences
    rw [hset]
    rfl

theorem lt_of_ignores (h : pipeline.ignores event = false) :
    pipeline.tracker.lastSequence event.candle.symbol < event.sequence :=
  not_le.mp (of_decide_eq_false h)

theorem lastSequence_le_marked (h : pipeline.ignores event = false) (symbol : String) :
    pipeline.tracker.lastSequence symbol ≤ (pipeline.marked event).tracker.lastSequence symbol := by
  rw [lastSequence_marked]
  split
  · rename_i hsymbol
    exact hsymbol ▸ (lt_of_ignores h).le
  · exact le_rfl

/-- What a step hears of an event that goes on: that it has the lock, or the answer to its call. -/
inductive Heard (pipeline : MarketPipeline) :
    PipelineStep → MarketEvent → Option ServiceCall → Option Returned → List PipelineEvent → Prop
  | locked {event : MarketEvent} (hfree : pipeline.inFlight = none)
      (hnew : pipeline.ignores event = false) : Heard pipeline (.lock event) event none none []
  | returned {awaited : InFlight} {value : Returned} (hawaited : pipeline.inFlight = some awaited) :
      Heard pipeline (.returns value) awaited.processing.event (some awaited.call) (some value)
        [.returned awaited.call awaited.processing.event]
  | raised {awaited : InFlight} {text : String} (hawaited : pipeline.inFlight = some awaited) :
      Heard pipeline (.raises text) awaited.processing.event (some awaited.call) none
        [.raised awaited.call awaited.processing.event]

/-- What a step can do. -/
inductive Transition (pipeline : MarketPipeline) : PipelineStep → Segment → Prop
  | ignored {event : MarketEvent} {result : PipelineResult} (hfree : pipeline.inFlight = none)
      (hignores : pipeline.ignores event = true) (hstatus : result.status = .ignored) :
      Transition pipeline (.lock event) (pipeline.finish event result)
  | goes {step : PipelineStep} {event : MarketEvent} {call : Option ServiceCall}
      {answer : Option Returned} {heard : List PipelineEvent} {segment : Segment}
      (hheard : pipeline.Heard step event call answer heard)
      (hgoes : pipeline.Goes event call answer segment) :
      Transition pipeline step (segment.1, heard ++ segment.2)
  | stop : Transition pipeline .stop (pipeline.withState .stopped, [.stopped])
  | martEnds : Transition pipeline .martEnds ({ pipeline with martPending := false }, [])

theorem transition_of_step {step : PipelineStep} (h : pipeline.step? step = some segment) :
    pipeline.Transition step segment := by
  cases step with
  | lock event =>
    simp only [step?] at h
    split at h
    · cases h
    · rename_i hfree
      cases h
      have hfree := Option.not_isSome_iff_eq_none.mp hfree
      unfold processMarketEvent
      split
      · rename_i hignores
        exact .ignored hfree hignores rfl
      · rename_i hnew
        exact .goes (.locked hfree (Bool.not_eq_true _ ▸ hnew))
          (goes_of_call (.refl _ _) rfl trivial rfl)
  | returns value =>
    obtain ⟨awaited, hawaited, h⟩ := Option.bind_eq_some_iff.mp h
    obtain ⟨segment, hsegment, rfl⟩ := Option.map_eq_some_iff.mp h
    exact .goes (.returned hawaited) (goes_of_resume hsegment)
  | raises text =>
    obtain ⟨awaited, hawaited, rfl⟩ := Option.map_eq_some_iff.mp h
    exact .goes (.raised hawaited) (goes_of_recover _ _ _ _)
  | stop => cases h; exact .stop
  | martEnds => cases h; exact .martEnds

end MarketPipeline

namespace PipelineHistory

theorem deterministic : Run.Deterministic Step := by
  rintro before step ⟨after, events⟩ ⟨after', events'⟩ ⟨new, hstep, hevents⟩ ⟨new', hstep', hevents'⟩
  dsimp only at hstep hevents hstep' hevents'
  cases hstep.symm.trans hstep'
  rw [hevents, hevents']

theorem step_of_step? {pipeline : MarketPipeline} {step : PipelineStep} {segment : Segment}
    (events : List PipelineEvent) (h : pipeline.step? step = some segment) :
    Step ⟨pipeline, events⟩ step ⟨segment.1, events ++ segment.2⟩ :=
  ⟨segment.2, h, rfl⟩

/-- The history after the steps, where all of them can happen. -/
def after? (history : PipelineHistory) : List PipelineStep → Option PipelineHistory
  | [] => some history
  | step :: steps =>
    match history.pipeline.step? step with
    | none => none
    | some segment => after? ⟨segment.1, history.events ++ segment.2⟩ steps

theorem run_of_after? {history after : PipelineHistory} {steps : List PipelineStep}
    (h : history.after? steps = some after) : Run Step history steps after := by
  induction steps generalizing history with
  | nil =>
    cases h
    exact .nil _
  | cons step steps ih =>
    unfold after? at h
    split at h
    · cases h
    · rename_i segment hsegment
      exact .cons (step_of_step? _ hsegment) (ih h)

end PipelineHistory

namespace MarketPipeline

/-- A candle of one hour. -/
def hourCandle : Candle :=
  { symbol := "BTCUSDT", openTime := 0, closeTime := hour, open_ := 100, high := 110, low := 90
    close := 105, volume := 1 }

/-- A pipeline that is ready after a candle. -/
def eager : MarketPipeline :=
  { runId := "run", symbols := ["BTCUSDT"], tracker := { readiness := { requiredCandles := 1 } } }

/-- From the lock to a decision of approval, for a pipeline that is ready. -/
def approvedSteps (sequence : ℤ) : List PipelineStep :=
  [.lock { candle := hourCandle, sequence }, .returns (.saved hour), .returns (.candle hourCandle),
    .returns .nothing, .returns (.indicators ["ema", "rsi", "atr"]), .returns (.regime (some "RANGE")),
    .returns (.signal (some {})), .returns (.decision true)]

end MarketPipeline

end CryptoTrading
