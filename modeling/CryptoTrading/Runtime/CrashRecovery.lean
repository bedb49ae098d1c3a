import CryptoTrading.Exchange.RestoredEngine
import CryptoTrading.Execution.FeedReplay
import CryptoTrading.Execution.RuntimeWrites
import CryptoTrading.Runtime.PaperApplication

/-! Recovery from an interruption: a runtime that restarts from the store of an interrupted one and
replays its feed ends where the uninterrupted runtime does, when the store was left at the boundary
between two candles. -/

namespace CryptoTrading

open Kit

/-- The engine of a new process, before it restores anything. -/
def newEngine (capital : Decimal) (uuids : ℕ) : PaperExecutionEngine :=
  { cashBalance := capital, uuids }

/-- A restart from a store has the records and the state of an engine. -/
structure Holds (capital : Decimal) (repository : PaperStateRepository)
    (engine : PaperExecutionEngine) : Prop where
  linked : engine.Linked
  synced : System.Synced engine repository
  state : repository.runtimeState = some engine.savedState ∨
    repository = {} ∧ (newEngine capital 0).savedState = engine.savedState

theorem Holds.restored {capital : Decimal} {repository : PaperStateRepository}
    {engine : PaperExecutionEngine} (h : Holds capital repository engine) {uuids : ℕ}
    (hundrawn : PaperExecutionEngine.Undrawn uuids repository) :
    (∃ state, (restoreRuntimeState (newEngine capital uuids) repository fun _ => false).2 =
        .ok state) ∧
      PaperExecutionEngine.Similar
        (restoreRuntimeState (newEngine capital uuids) repository fun _ => false).1 engine := by
  rcases h.state with hstate | ⟨rfl, hstate⟩
  · have hrestore : restoreRuntimeState (newEngine capital uuids) repository (fun _ => false) =
        ((newEngine capital uuids).reloaded repository, .ok (some engine.savedState)) := by
      simp only [restoreRuntimeState, Bool.false_eq_true, if_false, hstate,
        PaperExecutionEngine.restoreState_eq_reloaded h.linked h.synced]
    rw [hrestore]
    exact ⟨⟨_, rfl⟩, PaperExecutionEngine.similar_reloaded h.linked h.synced hstate hundrawn⟩
  · -- Nothing was ever saved, and nothing is restored.
    refine ⟨⟨none, rfl⟩, ?_⟩
    refine PaperExecutionEngine.Similar.of_agrees h.linked h.synced.orders h.synced.fills
      h.synced.positions (fun client => ?_) (fun _ hsome => ?_) (fun _ hsome => ?_) hstate
    · cases hget : engine.clientOrders.get? client with
      | none => rfl
      | some id =>
        obtain ⟨order, horder, -⟩ := h.linked.clientOrder client id hget
        cases (h.synced.orders id).trans horder
    · cases hsome
    · cases hsome

namespace RuntimeSettings

variable {σ : Type} (settings resumed : RuntimeSettings σ)

/-- A restart from a store and the replay of a feed end with the executed orders and the positions of
an engine. -/
def Recovers (capital : Decimal) (uuids : ℕ) (own : σ) (repository : PaperStateRepository)
    (feed : List MarketEvent) (engine : PaperExecutionEngine) : Prop :=
  let restored := restoreRuntimeState (newEngine capital uuids) repository fun _ => false
  let replayed := settings.processFeed { engine := restored.1, strategyState := own } feed
  (∃ state, restored.2 = .ok state) ∧ replayed.raised = none ∧
    replayed.state.engine.executedOrders.Perm engine.executedOrders ∧
    replayed.state.engine.positions.Agrees engine.positions

/-- A store that holds what the runtime's engine has after some of the events of a feed. -/
def AtBoundary (capital : Decimal) (state : PaperTradingRuntime σ) (feed : List MarketEvent)
    (repository : PaperStateRepository) : Prop :=
  ∃ done rest, feed = done ++ rest ∧ (settings.processFeed state done).raised = none ∧
    Holds capital repository (settings.processFeed state done).state.engine

variable {settings resumed} {capital : Decimal} {state : PaperTradingRuntime σ}
  {feed : List MarketEvent} {repository : PaperStateRepository}

/-- From a store at a boundary the replay ends where the uninterrupted run does. -/
theorem AtBoundary.recovers (h : settings.AtBoundary capital state feed repository)
    (hdet : settings.Deterministic) (hresumes : Resumes settings resumed)
    (hcompleted : (settings.processFeed state feed).raised = none) {uuids : ℕ}
    (hundrawn : PaperExecutionEngine.Undrawn uuids repository) (own : σ) :
    resumed.Recovers capital uuids own repository feed
      (settings.processFeed state feed).state.engine := by
  obtain ⟨done, rest, rfl, hdone, hholds⟩ := h
  obtain ⟨hrestored, hsimilar⟩ := hholds.restored hundrawn
  obtain ⟨hraised, hfinal⟩ := hdet.replay hresumes hcompleted hdone
    { engine := (restoreRuntimeState (newEngine capital uuids) repository fun _ => false).1
      strategyState := own } hsimilar
  exact ⟨hrestored, hraised, hfinal.executed, hfinal.positions⟩

/-! ### Which interruptions leave the store at a boundary -/

/-- What the runtime does when its processing of a feed is interrupted after `n` steps: the final
checkpoint is all that is left, if the process lives to make it. -/
def interrupted (settings : RuntimeSettings σ) (state : PaperTradingRuntime σ)
    (feed : List MarketEvent) (n : ℕ) : List MainStep :=
  (mainSteps (settings.processFeed state feed).actions).take n ++ [.checkpoint]

theorem programCalls_append (first rest : List MainStep) :
    programCalls (first ++ rest) = programCalls first ++ programCalls rest :=
  List.filterMap_append

theorem programCalls_calls (calls : List EngineCall) : programCalls (calls.map .call) = calls := by
  induction calls with
  | nil => rfl
  | cons call rest ih => exact congrArg (call :: ·) ih

/-- Calls before a checkpoint. -/
theorem split_checkpoint {calls : List EngineCall} {before after steps : List MainStep}
    (h : calls.map .call ++ steps = before ++ .checkpoint :: after) :
    ∃ before', before = calls.map .call ++ before' ∧ steps = before' ++ .checkpoint :: after := by
  induction calls generalizing before with
  | nil => exact ⟨before, rfl, h⟩
  | cons call rest ih =>
    cases before with
    | nil => cases h
    | cons first before =>
      simp only [List.map_cons, List.cons_append, List.cons.injEq] at h
      obtain ⟨before', rfl, hsteps⟩ := ih h.2
      exact ⟨before', by rw [← h.1]; rfl, hsteps⟩

/-- The processing of an event makes its calls, and then at most one checkpoint, if it does not
raise. -/
theorem processCandle_checkpoints (settings : RuntimeSettings σ) (state : PaperTradingRuntime σ)
    (event : MarketEvent) : ∃ due : Bool,
      mainSteps (settings.processCandle state event).actions =
        (engineCalls (settings.processCandle state event).actions).map .call ++
          (if due then [.checkpoint] else []) ∧
      (due = true → (settings.processCandle state event).raised = none) := by
  by_cases ht : state.engine.Takes event
  · obtain ⟨executes, -, hcalls, hsteps, -⟩ := settings.processCandle_steps ht
    refine ⟨decide ((settings.processCandle state event).raised = none ∧
      (state.candlesProcessed + 1) % settings.checkpointInterval = 0), ?_, fun hdue =>
        (of_decide_eq_true hdue).1⟩
    rw [hcalls, hsteps]
    simp only [decide_eq_true_eq]
  · exact ⟨false, by simpa using (settings.processCandle_steps_of_not_takes ht).2.1, nofun⟩

/-- At each checkpoint that the processing of a feed makes the engine is at a boundary. -/
theorem boundary_of_checkpoint {before after : List MainStep}
    (h : mainSteps (settings.processFeed state feed).actions = before ++ .checkpoint :: after) :
    ∃ done rest, feed = done ++ rest ∧ (settings.processFeed state done).raised = none ∧
      (settings.processFeed state done).state.engine =
        state.engine.attemptAll (programCalls before) := by
  induction feed generalizing state before with
  | nil => cases before <;> cases h
  | cons event feed ih =>
    obtain ⟨due, hsteps, hdue⟩ := settings.processCandle_checkpoints state event
    have hengine := settings.processCandle_engine state event
    -- Past this event the boundary is one of the rest of the feed.
    have hlater : ∀ own before' : List MainStep, programCalls own = [] →
        (settings.processCandle state event).raised = none →
        before = (engineCalls (settings.processCandle state event).actions).map .call ++
          (own ++ before') →
        mainSteps (settings.processFeed (settings.processCandle state event).state feed).actions =
          before' ++ .checkpoint :: after →
        ∃ done rest, event :: feed = done ++ rest ∧ (settings.processFeed state done).raised = none ∧
          (settings.processFeed state done).state.engine =
            state.engine.attemptAll (programCalls before) := by
      intro own before' hown hr hbefore hrest
      obtain ⟨done, rest, rfl, hraised, hdone⟩ := ih hrest
      obtain ⟨hstate, hnone⟩ := processFeed_cons done hr
      refine ⟨event :: done, rest, rfl, hnone.trans hraised, ?_⟩
      rw [hstate, hdone, hengine, hbefore, programCalls_append, programCalls_append, hown,
        programCalls_calls, List.nil_append, PaperExecutionEngine.attemptAll_append]
    rw [processFeed] at h
    cases hr : (settings.processCandle state event).raised with
    | some error =>
      have hnot : due = false := by
        cases due with
        | false => rfl
        | true => rw [hdue rfl] at hr; cases hr
      rw [Outcome.andThen_of_raised hr, hsteps, hnot] at h
      obtain ⟨before', -, hnone⟩ := split_checkpoint h
      cases before' <;> cases hnone
    | none =>
      rw [Outcome.andThen_of_returned hr, Outcome.after_actions, mainSteps_append, hsteps,
        List.append_assoc] at h
      obtain ⟨before', hbefore, hrest⟩ := split_checkpoint h
      cases due with
      | false => exact hlater [] before' rfl hr hbefore hrest
      | true =>
        cases before' with
        | nil =>
          obtain ⟨hstate, hnone⟩ := processFeed_cons [] hr
          refine ⟨[event], feed, rfl, hnone, ?_⟩
          rw [hstate, hbefore, List.append_nil, programCalls_calls, ← hengine]
          rfl
        | cons first before' =>
          simp only [if_true, List.cons_append, List.cons.injEq] at hrest
          obtain ⟨rfl, hrest⟩ := hrest
          exact hlater [.checkpoint] before' rfl hr hbefore hrest

/-- The steps of a program that a run has used: its engine is where their calls lead, and past its
idle state the last of them is a checkpoint. -/
theorem run_used {engine : PaperExecutionEngine} {program : List MainStep} {labels : List Label}
    {s : System} (h : Run System.Step (System.initial engine repository program) labels s) :
    ∃ used, program = used ++ s.program ∧ s.engine = engine.attemptAll (programCalls used) ∧
      (s.main ≠ .idle → ∃ before, used = before ++ [.checkpoint]) := by
  refine h.invariant (P := fun _ s => ∃ used, program = used ++ s.program ∧
    s.engine = engine.attemptAll (programCalls used) ∧
      (s.main ≠ .idle → ∃ before, used = before ++ [.checkpoint]))
    ⟨[], rfl, rfl, fun hmain => absurd rfl hmain⟩ fun _ m label t ih hstep => ?_
  obtain ⟨used, hprogram, hengine, hmain⟩ := ih
  cases hstep with
  | @operate call rest hidle hnext =>
    refine ⟨used ++ [.call call], by simp [hprogram, hnext], ?_, fun hmain => absurd hidle hmain⟩
    show (m.engine.attempt call).1 = _
    rw [programCalls_append, PaperExecutionEngine.attemptAll_append, ← hengine]
    rfl
  | @beginCheckpoint rest hidle hnext =>
    refine ⟨used ++ [.checkpoint], by simp [hprogram, hnext], ?_, fun _ => ⟨used, rfl⟩⟩
    show m.engine = _
    rw [programCalls_append, PaperExecutionEngine.attemptAll_append, ← hengine]
    rfl
  | start htasks => exact ⟨used, hprogram, hengine, hmain⟩
  | finish htasks => exact ⟨used, hprogram, hengine, hmain⟩
  | fail htasks =>
    refine ⟨used, hprogram, hengine, fun hnot => hmain fun hidle => hnot ?_⟩
    simp only [hidle, System.taskRaised]
  | discard htasks hdone => exact ⟨used, hprogram, hengine, hmain⟩
  | gathered hflushing hreturned =>
    exact ⟨used, hprogram, hengine, fun _ => hmain (by rw [hflushing]; exact fun he => by cases he)⟩
  | gatherRaises hflushing => exact ⟨used, hprogram, hengine, fun hnot => absurd rfl hnot⟩
  | saved hsaving => exact ⟨used, hprogram, hengine, fun hnot => absurd rfl hnot⟩
  | saveRaises hsaving => exact ⟨used, hprogram, hengine, fun hnot => absurd rfl hnot⟩

/-- The states of a run that is interrupted after `n` steps in which the store is settled: the first,
and those in which the checkpoint of a candle has just returned, where nothing has raised and no fill
has overtaken an earlier position of its symbol. -/
inductive Settled (settings : RuntimeSettings σ) (state : PaperTradingRuntime σ)
    (feed : List MarketEvent) (repository : PaperStateRepository) (n : ℕ) : System → Prop
  | start : Settled settings state feed repository n
      (System.initial state.engine repository (settings.interrupted state feed n))
  | checkpoint {labels : List Label} {m s : System}
      (hrun : Run (fun s label t => System.Step s label t ∧ ¬s.Overtakes label)
        (System.initial state.engine repository (settings.interrupted state feed n)) labels m)
      (hnone : System.NothingRaises labels) (hsaved : System.Step m .saved s)
      (hmore : m.program ≠ []) : Settled settings state feed repository n s

theorem AtBoundary.settled (hstart : Holds capital repository state.engine) {n : ℕ} {s : System}
    (h : Settled settings state feed repository n s) :
    settings.AtBoundary capital state feed s.repository := by
  cases h with
  | start => exact ⟨[], feed, rfl, rfl, hstart⟩
  | @checkpoint labels m _ hrun hnone hsaved hmore =>
    have hwrites := System.NothingRaises.writesRecords hnone
    have hsteps : Run System.Step (System.initial state.engine repository
        (settings.interrupted state feed n)) labels m := hrun.imp fun _ _ _ _ hstep => hstep.1
    have hrecorded := hstart.synced.run_recorded hsteps hwrites
    have hconverged := hrecorded.converged
      (hstart.synced.run_positionsRecorded hrun hwrites) hsaved
    have hwellFormed := (hrecorded.step hsaved trivial).wellFormed
    obtain ⟨used, hprogram, hengine, hmain⟩ := run_used hsteps
    have hsame : s.engine = m.engine ∧ m.main ≠ .idle := by
      cases hsaved with
      | saved hsaving => exact ⟨rfl, by rw [hsaving]; exact fun he => by cases he⟩
    obtain ⟨before, rfl⟩ := hmain hsame.2
    obtain ⟨more, last, hlast⟩ := List.eq_nil_or_concat m.program |>.resolve_left hmore
    -- The checkpoint is one of the feed's, before the final one.
    rw [interrupted, hlast, List.concat_eq_append, ← List.append_assoc] at hprogram
    have htake := List.append_inj_left' hprogram rfl
    have hfeed : mainSteps (settings.processFeed state feed).actions =
        before ++ .checkpoint ::
          (more ++ (mainSteps (settings.processFeed state feed).actions).drop n) := by
      conv_lhs => rw [← List.take_append_drop n (mainSteps _), htake]
      simp
    obtain ⟨done, rest, hdone, hraised, hboundary⟩ := boundary_of_checkpoint hfeed
    have hat : (settings.processFeed state done).state.engine = s.engine := by
      rw [hboundary, hsame.1, hengine, programCalls_append]
      simp [programCalls]
    refine ⟨done, rest, hdone, hraised, ?_⟩
    rw [hat]
    refine ⟨?_, ⟨hwellFormed, hconverged.orders, hconverged.fills, hconverged.positions⟩,
      Or.inl hconverged.state⟩
    rw [← hat, hboundary]
    exact hstart.linked.attemptAll _

theorem AtBoundary.of_settled (hstart : Holds capital repository state.engine) {n : ℕ}
    {s t : System} (h : Settled settings state feed repository n s) {quiet : List Label}
    (hquiet : Run System.Step s quiet t) (hlands : ∀ label ∈ quiet, label.lands = false) :
    settings.AtBoundary capital state feed t.repository := by
  rw [System.run_repository_eq hquiet hlands]
  exact AtBoundary.settled hstart h

/-- However the processing of a feed is interrupted, and whatever has landed by then: from a store at
a boundary between two candles, a restart that replays the feed ends with the executed orders and the
positions of the uninterrupted run.  The store is there from the start, and from the return of each
candle's checkpoint, until a write lands. -/
theorem crash_recovery (hdet : settings.Deterministic) (hresumes : Resumes settings resumed)
    (hstart : Holds capital repository state.engine)
    (hcompleted : (settings.processFeed state feed).raised = none) (n : ℕ) :
    (∀ labels s, Run System.Step
        (System.initial state.engine repository (settings.interrupted state feed n)) labels s →
      settings.AtBoundary capital state feed s.repository →
      ∀ uuids own, PaperExecutionEngine.Undrawn uuids s.repository →
        resumed.Recovers capital uuids own s.repository feed
          (settings.processFeed state feed).state.engine) ∧
      ∀ s quiet t, Settled settings state feed repository n s → Run System.Step s quiet t →
        (∀ label ∈ quiet, label.lands = false) →
        settings.AtBoundary capital state feed t.repository :=
  ⟨fun _ _ _ hat _ own hundrawn => hat.recovers hdet hresumes hcompleted hundrawn own,
    fun _ _ _ hsettled hquiet hlands => AtBoundary.of_settled hstart hsettled hquiet hlands⟩

/-- A runtime whose strategy buys one unit on every candle of a symbol that is not held, and whose
risk manager allows one. -/
def buysOnce : RuntimeSettings Unit where
  strategy := some ⟨fun _ candle engine => some
    (if (engine.positions.get? candle.symbol).isSome then [] else [⟨candle.symbol, .buy, 1⟩], ())⟩
  riskManager := some fun request engine =>
    some (({ maxPositionSize := some 1 } : DefaultRiskManager).validateRequest request engine)
  runId := "run"
  clock event _ := event.candle.closeTime

theorem buysOnce_deterministic : buysOnce.Deterministic where
  strategy := by
    rintro strategy ⟨⟩ own own' candle engine engine' hpositions
    simp [hpositions candle.symbol]
  riskManager := by
    rintro validateRequest ⟨⟩ request engine engine' hpositions - hcandle
    exact congrArg some (defaultRiskManager_congr _ request hpositions hcandle)

theorem holds_new (capital : Decimal) : Holds capital {} (newEngine capital 0) where
  linked := PaperExecutionEngine.linked_empty rfl rfl rfl rfl
  synced := ⟨PaperExecutionEngine.wellFormed_empty rfl rfl rfl, .refl _, .refl _, .refl _⟩
  state := Or.inr ⟨rfl, rfl⟩

/-- The first candle of a feed. -/
def firstCandle : MarketEvent :=
  ⟨⟨"BTCUSDT", hour, 2 * hour, 100, 100, 100, 100, 1⟩, 36000, "bybit-rest-dds"⟩

/-- The runtime of a new process. -/
def newRuntime : PaperTradingRuntime Unit := { engine := newEngine 1000 0, strategyState := () }

/-- The purchase is lost when the runtime is interrupted after it has accepted the first candle: the
final checkpoint saves the candle's sequence, and the replay skips the candle. -/
theorem interrupted_candle_lost : ¬∀ (settings : RuntimeSettings Unit) (feed : List MarketEvent)
    (n : ℕ) (labels : List Label) (s : System) (uuids : ℕ), settings.Deterministic →
      (settings.processFeed newRuntime feed).raised = none →
      Run System.Step (System.initial newRuntime.engine {} (settings.interrupted newRuntime feed n))
        labels s →
      PaperExecutionEngine.Undrawn uuids s.repository →
      settings.Recovers 1000 uuids () s.repository feed
        (settings.processFeed newRuntime feed).state.engine := by
  intro h
  have hprogram : buysOnce.interrupted newRuntime [firstCandle] 1 =
      [EngineCall.marketEvent firstCandle].map .call ++ [.checkpoint] := by decide +kernel
  have hscheduled : newRuntime.engine.scheduled [.marketEvent firstCandle] =
      [] ++ .saveState :: [] := by decide +kernel
  obtain ⟨labels, s, t, hrun, -, hsaved, hengine, hrepository⟩ :=
    System.exists_run_last {} [] hscheduled
  rw [← hprogram] at hrun
  rw [hengine] at hrepository
  have hrecovers := h buysOnce [firstCandle] 1 _ t 0 buysOnce_deterministic (by decide +kernel)
    (hrun.snoc hsaved) (by rw [hrepository]; exact PaperExecutionEngine.undrawn_empty 0 rfl rfl)
  rw [hrepository] at hrecovers
  have hlength := hrecovers.2.2.1.length_eq
  revert hlength
  decide +kernel

/-- `crash_recovery` for an interruption before anything has landed. -/
theorem interrupted_at_start_recovers : buysOnce.Recovers 1000 1 () {} [firstCandle]
    (buysOnce.processFeed newRuntime [firstCandle]).state.engine :=
  have hstart : Holds 1000 {} newRuntime.engine := holds_new 1000
  have hcompleted : (buysOnce.processFeed newRuntime [firstCandle]).raised = none := by
    decide +kernel
  have hrecovery := crash_recovery buysOnce_deterministic ⟨rfl, rfl, rfl, rfl, rfl⟩ hstart
    hcompleted 1
  have hat := hrecovery.2 _ [] _ .start (.nil _) fun _ hmem => absurd hmem List.not_mem_nil
  hrecovery.1 [] _ (.nil _) hat 1 () (PaperExecutionEngine.undrawn_empty 1 rfl rfl)

end RuntimeSettings

end CryptoTrading
