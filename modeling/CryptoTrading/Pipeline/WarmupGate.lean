import CryptoTrading.Pipeline.PipelineSteps
import Mathlib.Data.List.Dedup

/-! The warm-up of the pipeline.  A candle is counted when its regime is detected, and its sequence is
marked at the end, so that one which fails in between is counted again when it is submitted again.  In
a run that counts no candle again, `READY` is a promise about distinct sequences. -/

namespace CryptoTrading

open Kit

/-- The event that passes the DDS, the indicator and the regime stages: the regime is detected last. -/
def passedKey : PipelineEvent → Option EventKey
  | .returned .detect event => some event.key
  | _ => none

def passes (events : List PipelineEvent) : List EventKey := events.filterMap passedKey

/-- The sequences of a symbol that have passed, as often as they have. -/
def passedSequences (events : List PipelineEvent) (symbol : String) : List ℤ :=
  ((passes events).filter fun key => decide (key.1 = symbol)).map Prod.snd

/-- Every symbol that is configured or has passed has as many distinct sequences as are required. -/
def Warm (configured : List String) (required : ℕ) (events : List PipelineEvent) : Prop :=
  ∀ symbol, (symbol ∈ configured ∨ passedSequences events symbol ≠ []) →
    required ≤ (passedSequences events symbol).dedup.length

/-- Every symbol that is configured or has passed has passed as often as is required. -/
def PassedOften (configured : List String) (required : ℕ) (events : List PipelineEvent) : Prop :=
  ∀ symbol, (symbol ∈ configured ∨ passedSequences events symbol ≠ []) →
    required ≤ (passedSequences events symbol).length

theorem passes_append (events more : List PipelineEvent) :
    passes (events ++ more) = passes events ++ passes more :=
  List.filterMap_append

theorem passes_eq_nil {events : List PipelineEvent} (h : ∀ event, .returned .detect event ∉ events) :
    passes events = [] := by
  refine List.filterMap_eq_nil_iff.mpr fun seen hseen => ?_
  unfold passedKey
  split
  · rename_i event
    exact absurd hseen (h event)
  · rfl

theorem nodup_passedSequences {events : List PipelineEvent} (h : (passes events).Nodup)
    (symbol : String) : (passedSequences events symbol).Nodup := by
  refine List.Nodup.map_on ?_ (h.filter _)
  intro first hfirst second hsecond hsequence
  have hsymbols : first.1 = second.1 :=
    (of_decide_eq_true (List.mem_filter.mp hfirst).2).trans
      (of_decide_eq_true (List.mem_filter.mp hsecond).2).symm
  exact Prod.ext hsymbols hsequence

theorem passedSequences_congr {events events' : List PipelineEvent} (h : passes events = passes events')
    (symbol : String) : passedSequences events symbol = passedSequences events' symbol := by
  unfold passedSequences
  rw [h]

theorem PassedOften.congr {configured : List String} {required : ℕ} {events events' : List PipelineEvent}
    (hcounted : PassedOften configured required events) (h : passes events = passes events') :
    PassedOften configured required events' := by
  intro symbol
  rw [← passedSequences_congr h symbol]
  exact hcounted symbol

theorem PassedOften.warm {configured : List String} {required : ℕ} {events : List PipelineEvent}
    (h : PassedOften configured required events) (hnodup : (passes events).Nodup) :
    Warm configured required events := by
  intro symbol hseen
  rw [List.dedup_eq_self.mpr (nodup_passedSequences hnodup symbol)]
  exact h symbol hseen

/-- What passes with the regime of an event. -/
theorem passedSequences_returned (events : List PipelineEvent) (event : MarketEvent) (symbol : String) :
    passedSequences (events ++ [.returned .detect event]) symbol = passedSequences events symbol ++
      if event.candle.symbol = symbol then [event.sequence] else [] := by
  unfold passedSequences
  rw [passes_append, List.filter_append, List.map_append]
  congr 1
  by_cases hsymbol : event.candle.symbol = symbol
  · rw [if_pos hsymbol]
    exact congrArg (List.map Prod.snd) (List.filter_cons_of_pos (decide_eq_true hsymbol))
  · rw [if_neg hsymbol]
    exact congrArg (List.map Prod.snd) (List.filter_cons_of_neg fun h => hsymbol (of_decide_eq_true h))

namespace MarketPipeline

variable {pipeline at_ : MarketPipeline} {processing : Processing} {segment : Segment}
  {reason : PipelineError}

/-- What the pipeline does from `at_` on leaves what is known of the symbols, makes nothing ready, and
calls the strategy only when it is. -/
structure Gated (at_ : MarketPipeline) (segment : Segment) : Prop where
  readiness : segment.1.tracker.readiness = at_.tracker.readiness
  symbols : segment.1.symbols = at_.symbols
  ready : segment.1.tracker.state = .ready → at_.tracker.state = .ready
  evaluated : ∀ event, .called .evaluateStrategy event ∈ segment.2 → at_.tracker.state = .ready
  unpassed : ∀ event, .returned .detect event ∉ segment.2

theorem gated_await {call : ServiceCall}
    (h : call = .evaluateStrategy → at_.tracker.state = .ready) :
    Gated at_ (at_.await processing call) := by
  refine ⟨rfl, rfl, id, fun event hevent => ?_, fun event hevent => ?_⟩
  · cases List.mem_singleton.mp hevent
    exact h rfl
  · cases List.mem_singleton.mp hevent

theorem gated_finish {event : MarketEvent} {result : PipelineResult} :
    Gated at_ (at_.finish event result) := by
  refine ⟨rfl, rfl, id, fun event hevent => ?_, fun event hevent => ?_⟩ <;>
    cases List.mem_singleton.mp hevent

theorem gated_bestEffortCheckpoint : Gated at_ (at_.bestEffortCheckpoint processing reason) := by
  unfold bestEffortCheckpoint
  split
  · exact gated_await nofun
  · exact gated_finish

theorem gated_fail : Gated at_ (at_.fail processing reason) := by
  have hdegraded : Gated (at_.withState .degraded) (at_.fail processing reason) := by
    unfold fail
    dsimp only
    split
    · exact gated_await nofun
    · exact gated_bestEffortCheckpoint
  exact ⟨hdegraded.readiness, hdegraded.symbols, fun h => (by cases hdegraded.ready h),
    fun event h => (by cases hdegraded.evaluated event h), hdegraded.unpassed⟩

theorem gated_call {call : ServiceCall}
    (h : call = .evaluateStrategy → at_.tracker.state = .ready) :
    Gated at_ (at_.call processing call) := by
  unfold MarketPipeline.call
  split
  · exact gated_await h
  · exact gated_fail

theorem Gated.of_marked {event : MarketEvent} (h : Gated (at_.marked event) segment) :
    Gated at_ segment :=
  ⟨h.readiness, h.symbols, h.ready, h.evaluated, h.unpassed⟩

theorem gated_complete {martError : Option String} :
    Gated at_ (at_.complete processing martError) := by
  unfold complete
  dsimp only
  split
  · split
    · exact Gated.of_marked gated_fail
    · refine ⟨rfl, rfl, id, fun event hevent => ?_, fun event hevent => ?_⟩ <;>
        cases List.mem_singleton.mp hevent
  · exact Gated.of_marked gated_finish

/-- What a call that returns does: the regime is counted, and nothing else. -/
theorem gated_resume {call : ServiceCall} {value : Returned}
    (h : pipeline.resume processing call value = some segment) :
    (∃ regime, call = .detect ∧ value = .regime regime ∧
      Gated (pipeline.observe { processing with
        regime, stages := processing.stages ++ ["REGIME"] }) segment) ∨
      call ≠ .detect ∧ Gated pipeline segment := by
  unfold resume at h
  split at h
  case h_1 now =>
    refine .inr ⟨nofun, ?_⟩
    dsimp only at h
    split at h <;> cases h
    · exact gated_fail
    · exact gated_call nofun
  case h_2 candle =>
    refine .inr ⟨nofun, ?_⟩
    split at h <;> cases h
    · exact gated_fail
    · unfold callOnMarketEvent
      split
      · exact gated_await nofun
      · exact gated_call nofun
  case h_3 => cases h; exact .inr ⟨nofun, gated_call nofun⟩
  case h_4 names => cases h; exact .inr ⟨nofun, gated_call nofun⟩
  case h_5 regime =>
    refine .inl ⟨regime, rfl, rfl, ?_⟩
    dsimp only at h
    split at h <;> cases h
    · rename_i hready
      refine gated_call fun _ => ?_
      exact of_decide_eq_true (Bool.and_eq_true_iff.mp hready).1
    · exact gated_call nofun
  case h_6 => cases h; exact .inr ⟨nofun, gated_call nofun⟩
  case h_7 signal => cases h; exact .inr ⟨nofun, gated_call nofun⟩
  case h_8 approved =>
    refine .inr ⟨nofun, ?_⟩
    dsimp only at h
    split at h
    · cases h
      exact gated_call nofun
    · split at h <;> cases h
      · exact gated_await nofun
      · exact gated_call nofun
  case h_9 result => cases h; exact .inr ⟨nofun, gated_call nofun⟩
  case h_10 => cases h; exact .inr ⟨nofun, gated_call nofun⟩
  case h_11 => cases h; exact .inr ⟨nofun, gated_call nofun⟩
  case h_12 martError => cases h; exact .inr ⟨nofun, gated_complete⟩
  case h_13 reason => cases h; exact .inr ⟨nofun, gated_bestEffortCheckpoint⟩
  case h_14 reason => cases h; exact .inr ⟨nofun, gated_finish⟩
  case h_15 => cases h

theorem gated_recover (text : String) (made : ServiceCall) :
    Gated pipeline (pipeline.recover processing text made) := by
  cases made with
  | recordRejection => exact gated_call nofun
  | recordFailure reason => exact gated_bestEffortCheckpoint
  | bestEffortCheckpoint reason => exact gated_finish
  | _ => exact gated_fail

/-- What a step does for the warm-up. -/
inductive Passing (pipeline : MarketPipeline) : PipelineStep → Segment → Prop
  | counts {processing : Processing} {regime : Option String} {segment : Segment}
      (hawaited : pipeline.inFlight = some ⟨.detect, processing⟩)
      (hgated : Gated (pipeline.observe { processing with
        regime, stages := processing.stages ++ ["REGIME"] }) segment) :
      Passing pipeline (.returns (.regime regime))
        (segment.1, [.returned .detect processing.event] ++ segment.2)
  | other {step : PipelineStep} {segment : Segment} (hgated : Gated pipeline segment) :
      Passing pipeline step segment

theorem Gated.cons {first : PipelineEvent} (h : Gated at_ segment)
    (hevaluates : ∀ event, first ≠ .called .evaluateStrategy event)
    (hpasses : ∀ event, first ≠ .returned .detect event) :
    Gated at_ (segment.1, first :: segment.2) := by
  refine ⟨h.readiness, h.symbols, h.ready, fun event hevent => ?_, fun event hevent => ?_⟩
  · rcases List.mem_cons.mp hevent with hfirst | hrest
    · exact absurd hfirst.symm (hevaluates event)
    · exact h.evaluated event hrest
  · rcases List.mem_cons.mp hevent with hfirst | hrest
    · exact hpasses event hfirst.symm
    · exact h.unpassed event hrest

theorem passing_of_step {step : PipelineStep} (h : pipeline.step? step = some segment) :
    pipeline.Passing step segment := by
  cases step with
  | lock event =>
    refine .other ?_
    simp only [step?] at h
    split at h <;> cases h
    unfold processMarketEvent
    split
    · exact gated_finish
    · exact gated_call fun heq => by cases heq
  | returns value =>
    obtain ⟨⟨made, processing⟩, hawaited, h⟩ := Option.bind_eq_some_iff.mp h
    obtain ⟨segment, hsegment, rfl⟩ := Option.map_eq_some_iff.mp h
    rcases gated_resume hsegment with ⟨regime, hdetect, hvalue, hgated⟩ | ⟨hdetect, hgated⟩
    · dsimp only at hdetect
      subst hdetect hvalue
      exact .counts hawaited hgated
    · exact .other (hgated.cons (fun _ heq => by cases heq)
        fun event heq => hdetect (PipelineEvent.returned.inj heq).1)
  | raises text =>
    obtain ⟨awaited, hawaited, rfl⟩ := Option.map_eq_some_iff.mp h
    exact .other ((gated_recover text awaited.call).cons (fun _ heq => by cases heq)
      fun _ heq => by cases heq)
  | stop =>
    cases h
    refine .other ⟨rfl, rfl, (fun hready => by cases hready), fun event hevent => ?_,
      fun event hevent => ?_⟩ <;> cases List.mem_singleton.mp hevent
  | martEnds =>
    cases h
    exact .other ⟨rfl, rfl, id, fun _ hevent => absurd hevent List.not_mem_nil,
      fun _ => List.not_mem_nil⟩

/-- `__init__`. -/
def init (services : PipelineServices) (runId : String) (symbols : List String) (requiredCandles : ℕ) :
    MarketPipeline :=
  { services, runId, symbols, tracker := { readiness := { requiredCandles } } }

end MarketPipeline

/-- What the readiness says of the events, and what the strategy has been called on. -/
structure WarmedUp (configured : List String) (required : ℕ) (history : PipelineHistory) : Prop where
  requires : history.pipeline.tracker.readiness.requiredCandles = required
  counts : ∀ symbol, (history.pipeline.tracker.readiness.candleCounts.get? symbol).getD 0 =
    (passedSequences history.events symbol).length
  symbols : ∀ symbol, (symbol ∈ configured ∨ passedSequences history.events symbol ≠ []) →
    symbol ∈ history.pipeline.symbols
  ready : history.pipeline.tracker.state = .ready →
    history.pipeline.tracker.readiness.allReady history.pipeline.symbols = true
  evaluated : ∀ before event later,
    history.events = before ++ .called .evaluateStrategy event :: later →
    PassedOften configured required before

namespace WarmedUp

variable {pipeline : MarketPipeline} {segment : Segment} {configured : List String} {required : ℕ}
  {events : List PipelineEvent} {history before after : PipelineHistory} {label : PipelineStep}

theorem counted (h : WarmedUp configured required history)
    (hready : history.pipeline.tracker.state = .ready) :
    PassedOften configured required history.events := by
  intro symbol hseen
  have hall := (Bool.and_eq_true_iff.mp (h.ready hready)).2
  have hsymbol := List.all_eq_true.mp hall symbol (h.symbols symbol hseen)
  have hcount := (Bool.and_eq_true_iff.mp (Bool.and_eq_true_iff.mp hsymbol).1).1
  rw [← h.counts symbol, ← h.requires]
  exact of_decide_eq_true hcount

theorem gated (h : WarmedUp configured required ⟨pipeline, events⟩)
    (hgated : pipeline.Gated segment) :
    WarmedUp configured required ⟨segment.1, events ++ segment.2⟩ := by
  have hpasses : passes (events ++ segment.2) = passes events := by
    rw [passes_append, passes_eq_nil hgated.unpassed, List.append_nil]
  have hsequences := passedSequences_congr hpasses
  refine ⟨?_, ?_, ?_, ?_, ?_⟩
  · show segment.1.tracker.readiness.requiredCandles = required
    rw [hgated.readiness]
    exact h.requires
  · intro symbol
    show (segment.1.tracker.readiness.candleCounts.get? symbol).getD 0 = _
    rw [hgated.readiness, hsequences]
    exact h.counts symbol
  · intro symbol hseen
    show symbol ∈ segment.1.symbols
    rw [hgated.symbols]
    exact h.symbols symbol (hsequences symbol ▸ hseen)
  · intro hready
    show segment.1.tracker.readiness.allReady segment.1.symbols = true
    rw [hgated.readiness, hgated.symbols]
    exact h.ready (hgated.ready hready)
  · intro first event later hsplit
    rcases List.append_eq_append_iff.mp hsplit with ⟨new, hfirst, hnew⟩ | ⟨new, hold, hnew⟩
    · -- the call is one of the step
      have hcalled : .called .evaluateStrategy event ∈ segment.2 := by simp [hnew]
      have hstill : passes events = passes first := by
        have hnone : passes new = [] :=
          passes_eq_nil fun other hother => hgated.unpassed other (by simp [hnew, hother])
        rw [hfirst, passes_append, hnone, List.append_nil]
      exact (h.counted (hgated.evaluated event hcalled)).congr hstill
    · cases new with
      | nil =>
        have hcalled : .called .evaluateStrategy event ∈ segment.2 := by
          rw [List.nil_append] at hnew
          simp [← hnew]
        rw [List.append_nil] at hold
        exact hold ▸ h.counted (hgated.evaluated event hcalled)
      | cons head new =>
        cases hnew
        exact h.evaluated first event new hold

/-- The regime of an event is counted. -/
theorem observe (h : WarmedUp configured required ⟨pipeline, events⟩) (processing : Processing) :
    WarmedUp configured required
      ⟨pipeline.observe processing, events ++ [.returned .detect processing.event]⟩ := by
  have hsequences := passedSequences_returned events processing.event
  refine ⟨h.requires, ?_, ?_, ?_, ?_⟩
  · intro symbol
    show ((Dict.set _ _ _).get? symbol).getD 0 = _
    rw [hsequences, List.length_append, ← h.counts symbol, Dict.get?_set]
    split
    · rename_i hsymbol
      rw [hsymbol]
      rfl
    · rfl
  · intro symbol hseen
    show symbol ∈ pipeline.symbols.insert processing.event.candle.symbol
    rw [List.mem_insert_iff]
    by_cases hsymbol : processing.event.candle.symbol = symbol
    · exact .inl hsymbol.symm
    · rw [hsequences, if_neg hsymbol, List.append_nil] at hseen
      exact .inr (h.symbols symbol hseen)
  · intro hready
    unfold MarketPipeline.observe at hready ⊢
    dsimp only at hready ⊢
    split at hready
    · assumption
    · cases hready
  · intro first event later hsplit
    dsimp only at hsplit
    rcases List.eq_nil_or_concat later with rfl | ⟨rest, last, rfl⟩
    · cases (List.append_inj' hsplit rfl).2
    · rw [List.concat_eq_append, ← List.cons_append, ← List.append_assoc] at hsplit
      exact h.evaluated first event rest (List.append_inj' hsplit rfl).1

theorem step (h : WarmedUp configured required before) (hstep : before.Step label after) :
    WarmedUp configured required after := by
  obtain ⟨pipeline, events⟩ := before
  obtain ⟨next, all⟩ := after
  obtain ⟨new, hstep, hall⟩ := hstep
  dsimp only at hstep hall
  subst hall
  have hpassing := MarketPipeline.passing_of_step hstep
  generalize hsegment : (next, new) = segment at hpassing
  cases hpassing with
  | @counts processing regime segment hawaited hgated =>
    cases hsegment
    have hobserved := h.observe { processing with
      regime, stages := processing.stages ++ ["REGIME"] }
    rw [← List.append_assoc]
    exact hobserved.gated hgated
  | other hgated =>
    cases hsegment
    exact h.gated hgated

theorem start (services : PipelineServices) (runId : String) :
    WarmedUp configured required { pipeline := .init services runId configured required } := by
  refine ⟨rfl, fun _ => rfl, ?_, (fun hready => by cases hready), ?_⟩
  · rintro symbol (hconfigured | hpassed)
    · exact hconfigured
    · exact absurd rfl hpassed
  · intro first event later hsplit
    exact absurd hsplit.symm (by simp)

end WarmedUp

/-- The regime is detected of an event that has passed before. -/
def Recounts (before : PipelineHistory) (step : PipelineStep) : Prop :=
  ∃ regime processing, step = .returns (.regime regime) ∧
    before.pipeline.inFlight = some ⟨.detect, processing⟩ ∧
    processing.event.key ∈ passes before.events

/-- An event that is counted again has passed twice. -/
theorem Recounts.not_nodup {before after : PipelineHistory} {label : PipelineStep}
    (h : Recounts before label) (hstep : before.Step label after) : ¬(passes after.events).Nodup := by
  obtain ⟨regime, processing, rfl, hawaited, hmem⟩ := h
  obtain ⟨new, hstep, hall⟩ := hstep
  obtain ⟨awaited, hsame, hstep⟩ := Option.bind_eq_some_iff.mp hstep
  cases hsame.symm.trans hawaited
  obtain ⟨segment, -, hsegment⟩ := Option.map_eq_some_iff.mp hstep
  have hnew : processing.event.key ∈ passes new := by
    rw [← (Prod.mk.inj hsegment).2]
    exact List.mem_cons_self ..
  rw [hall, passes_append]
  exact fun hnodup => (List.nodup_append.mp hnodup).2.2 _ hmem _ hnew rfl

/-- A step keeps what has passed distinct exactly when it counts no event again. -/
theorem nodup_passes_step {before after : PipelineHistory} {label : PipelineStep}
    (hstep : before.Step label after) :
    (passes after.events).Nodup ↔ (passes before.events).Nodup ∧ ¬Recounts before label := by
  constructor
  · intro hnodup
    refine ⟨?_, fun hrecounts => hrecounts.not_nodup hstep hnodup⟩
    obtain ⟨new, -, hall⟩ := hstep
    rw [hall, passes_append] at hnodup
    exact (List.nodup_append.mp hnodup).1
  · rintro ⟨hnodup, hfine⟩
    obtain ⟨next, all⟩ := after
    obtain ⟨new, hstep, hall⟩ := hstep
    dsimp only at hstep hall ⊢
    rw [hall, passes_append]
    have hpassing := MarketPipeline.passing_of_step hstep
    generalize hsegment : (next, new) = segment at hpassing
    cases hpassing with
    | @counts processing regime segment hawaited hgated =>
      cases hsegment
      have hnot : processing.event.key ∉ passes before.events :=
        fun hmem => hfine ⟨regime, processing, rfl, hawaited, hmem⟩
      rw [passes_append, passes_eq_nil hgated.unpassed, List.append_nil]
      refine List.nodup_append.mpr ⟨hnodup, List.nodup_singleton _, ?_⟩
      rintro _ hmem _ hnew rfl
      exact hnot (List.mem_singleton.mp hnew ▸ hmem)
    | other hgated =>
      cases hsegment
      rwa [passes_eq_nil hgated.unpassed, List.append_nil]

namespace MarketPipeline

theorem counted_once_iff {pipeline : MarketPipeline} {steps : List PipelineStep}
    {after : PipelineHistory} (hrun : Run PipelineHistory.Step { pipeline } steps after) :
    (passes after.events).Nodup ↔
      ∀ before label next, Run.Makes PipelineHistory.Step { pipeline } steps before label next →
        ¬Recounts before label := by
  have hiff := Run.iff_makes PipelineHistory.deterministic (I := fun _ => True)
    (P := fun history => (passes history.events).Nodup) hrun trivial
    (fun _ _ _ _ _ => trivial) (fun _ _ _ _ hstep => nodup_passes_step hstep)
  exact hiff.trans (and_iff_right List.nodup_nil)

/-- In a run of a pipeline that starts in which no event is counted again, `READY` and every call of the
strategy come after the distinct sequences that are required. -/
theorem warmup_gate {services : PipelineServices} {runId : String} {configured : List String}
    {required : ℕ} {steps : List PipelineStep} {after : PipelineHistory}
    (hrun : Run PipelineHistory.Step { pipeline := init services runId configured required } steps after)
    (hfine : ∀ before label next,
      Run.Makes PipelineHistory.Step { pipeline := init services runId configured required } steps
        before label next → ¬Recounts before label) :
    (after.pipeline.tracker.state = .ready → Warm configured required after.events) ∧
      ∀ before event later, after.events = before ++ .called .evaluateStrategy event :: later →
        Warm configured required before := by
  have hwarmed : WarmedUp configured required after :=
    hrun.invariant (P := fun _ history => WarmedUp configured required history) (.start _ _)
      fun _ _ _ _ h hstep => h.step hstep
  have hnodup := (counted_once_iff hrun).mpr hfine
  refine ⟨fun hready => (hwarmed.counted hready).warm hnodup, fun before event later hsplit => ?_⟩
  refine (hwarmed.evaluated before event later hsplit).warm ?_
  rw [hsplit, passes_append] at hnodup
  exact (List.nodup_append.mp hnodup).1

/-- From the lock to the regime. -/
def passedSteps (sequence : ℤ) : List PipelineStep :=
  [.lock { candle := hourCandle, sequence }, .returns (.saved hour), .returns (.candle hourCandle),
    .returns .nothing, .returns (.indicators ["ema", "rsi", "atr"]), .returns (.regime (some "RANGE"))]

/-- Two candles are processed up to the decision of the strategy. -/
theorem warmup_gate_two_candles :
    ∃ steps after,
      Run PipelineHistory.Step { pipeline := init {} "run" ["BTCUSDT"] 2 } steps after ∧
      after.pipeline.tracker.state = .ready ∧ Warm ["BTCUSDT"] 2 after.events := by
  let steps := passedSteps 1 ++ [.returns .nothing, .returns (.checkpointed none)] ++ passedSteps 2
  have hruns : (PipelineHistory.after? { pipeline := init {} "run" ["BTCUSDT"] 2 } steps).map (fun after =>
      (after.pipeline.tracker.state, passes after.events)) =
        some (.ready, [("BTCUSDT", 1), ("BTCUSDT", 2)]) := by
    decide +kernel
  obtain ⟨after, hafter, hfacts⟩ := Option.map_eq_some_iff.mp hruns
  obtain ⟨hready, hpasses⟩ := Prod.mk.inj hfacts
  have hrun := PipelineHistory.run_of_after? hafter
  have hfine := (counted_once_iff hrun).mp (by rw [hpasses]; decide)
  exact ⟨steps, after, hrun, hready, (warmup_gate hrun hfine).1 hready⟩

/-- `persist` raises, and the event that has failed is submitted again. -/
def retried : List PipelineStep :=
  passedSteps 1 ++ [.raises "disk full", .returns .nothing, .returns .nothing] ++ passedSteps 1

/-- One candle is counted twice: the strategy is called after a single sequence. -/
theorem retry_warms_up :
    ∃ after, Run PipelineHistory.Step { pipeline := init {} "run" ["BTCUSDT"] 2 } retried after ∧
      ¬((after.pipeline.tracker.state = .ready → Warm ["BTCUSDT"] 2 after.events) ∧
        ∀ before event later, after.events = before ++ .called .evaluateStrategy event :: later →
          Warm ["BTCUSDT"] 2 before) := by
  have hruns : (PipelineHistory.after? { pipeline := init {} "run" ["BTCUSDT"] 2 } retried).map (fun after =>
      (after.pipeline.tracker.state, passedSequences after.events "BTCUSDT")) =
        some (.ready, [1, 1]) := by
    decide +kernel
  obtain ⟨after, hafter, hfacts⟩ := Option.map_eq_some_iff.mp hruns
  obtain ⟨hready, hpassed⟩ := Prod.mk.inj hfacts
  refine ⟨after, PipelineHistory.run_of_after? hafter, fun h => ?_⟩
  have hwarm := h.1 hready "BTCUSDT" (.inl (List.mem_singleton_self _))
  rw [hpassed] at hwarm
  exact absurd hwarm (by decide)

end MarketPipeline

end CryptoTrading
