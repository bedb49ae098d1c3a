import CryptoTrading.Runtime.SoakOutcomes

/-! What the report of a soak says.  However the soak has ended, the report has the whole lifecycle of the
application, heartbeats in order, and each candle of the runtime once. -/

namespace CryptoTrading

open Kit Kit.Fallible

/-- What the runner has collected, before its report. -/
structure Evidence (process : SoakProcess) : Prop where
  lifecycle : process.metrics.lifecycle <+: process.application.history
  market : process.metrics.count "market_events" = process.metrics.runtimeCandlesObserved
  pipeline : process.metrics.count "pipeline_events" = process.metrics.runtimeCandlesObserved
  ordered : process.metrics.heartbeats.Pairwise fun earlier later => earlier.sequence ≤ later.sequence
  beaten : ∀ snapshot ∈ process.metrics.heartbeats, snapshot.sequence ≤ process.sequence
  forwards : "heartbeat sequence moved backwards" ∉ process.metrics.violations
  unreported : process.reports = []

/-- And no more candles than these. -/
def EvidenceUpTo (candles : ℤ) (process : SoakProcess) : Prop :=
  Evidence process ∧ process.metrics.runtimeCandlesObserved ≤ candles

variable {candles : ℤ} {process : SoakProcess}

theorem EvidenceUpTo.mono {more : ℤ} (h : EvidenceUpTo candles process)
    (hle : candles ≤ more) : EvidenceUpTo more process := ⟨h.1, h.2.trans hle⟩

/-- A change of the session is none of the evidence. -/
theorem EvidenceUpTo.session (h : EvidenceUpTo candles process) (session : SoakSession) (finishes : ℕ) :
    EvidenceUpTo candles { process with session, finishes } :=
  ⟨⟨h.1.lifecycle, h.1.market, h.1.pipeline, h.1.ordered, h.1.beaten, h.1.forwards, h.1.unreported⟩, h.2⟩

/-- Nor is a change of the application that keeps its history. -/
theorem EvidenceUpTo.application (h : EvidenceUpTo candles process) {application : ApplicationProcess}
    (hhistory : process.application.history <+: application.history) :
    EvidenceUpTo candles { process with application } :=
  ⟨⟨h.1.lifecycle.trans hhistory, h.1.market, h.1.pipeline, h.1.ordered, h.1.beaten, h.1.forwards,
    h.1.unreported⟩, h.2⟩

/-- Nothing has been collected yet. -/
theorem evidence_fresh (session : SoakSession) (application : ApplicationProcess) :
    Evidence { session, application } where
  lifecycle := List.nil_prefix
  market := rfl
  pipeline := rfl
  ordered := .nil
  beaten := by simp
  forwards := by simp
  unreported := rfl

namespace SoakMetrics

/-- Another counter counts no candles. -/
theorem evidence_increment (h : Evidence process) (name : String) (amount : ℤ)
    (hmarket : name ≠ "market_events") (hpipeline : name ≠ "pipeline_events") :
    Evidence { process with metrics := process.metrics.increment name amount } where
  lifecycle := h.lifecycle
  market := by
    rw [count_increment, if_neg hmarket, add_zero]
    exact h.market
  pipeline := by
    rw [count_increment, if_neg hpipeline, add_zero]
    exact h.pipeline
  ordered := h.ordered
  beaten := h.beaten
  forwards := h.forwards
  unreported := h.unreported

theorem evidence_recorded {counted : SoakMetrics} {candlesProcessed delta : ℤ}
    (h : EvidenceUpTo candlesProcessed process)
    (hcounted : process.metrics.recordRuntimeProgress candlesProcessed = .ok (counted, delta)) :
    Evidence { process with metrics := counted } ∧ counted.runtimeCandlesObserved = candlesProcessed := by
  obtain ⟨hevidence, hle⟩ := h
  obtain ⟨-, hdelta, hobserved, hmarket, hpipeline⟩ := count_recorded hcounted
  obtain ⟨hbeats, hlifecycle, hviolations⟩ := recorded_same hcounted
  -- The runtime has not lost a candle, so that the new ones are the difference.
  rw [max_eq_right (sub_nonneg.mpr hle)] at hdelta
  refine ⟨⟨?_, ?_, ?_, ?_, ?_, ?_, hevidence.unreported⟩, hobserved⟩
  · exact hlifecycle ▸ hevidence.lifecycle
  · rw [hmarket, hobserved, hevidence.market, hdelta]
    omega
  · rw [hpipeline, hobserved, hevidence.pipeline, hdelta]
    omega
  · exact hbeats ▸ hevidence.ordered
  · exact hbeats ▸ hevidence.beaten
  · exact hviolations ▸ hevidence.forwards

/-- The heartbeat has refused a sequence that goes back before the metrics can see it. -/
theorem evidence_heartbeat (h : Evidence process) (snapshot : RuntimeHealth)
    (hle : process.sequence ≤ snapshot.sequence) :
    Evidence { process with
      sequence := snapshot.sequence, metrics := process.metrics.recordHeartbeat snapshot } where
  lifecycle := h.lifecycle
  market := h.market
  pipeline := h.pipeline
  ordered := by
    refine List.pairwise_append.mpr ⟨h.ordered, List.pairwise_singleton _ _, ?_⟩
    intro earlier hearlier later hlater
    rw [List.mem_singleton.mp hlater]
    exact (h.beaten earlier hearlier).trans hle
  beaten := by
    intro other hother
    rcases List.mem_append.mp hother with hother | hother
    · exact (h.beaten other hother).trans hle
    · rw [List.mem_singleton.mp hother]
  forwards := by
    have hforwards : (process.metrics.heartbeats.getLast?.any fun last =>
        decide (snapshot.sequence < last.sequence)) = false := by
      cases hlast : process.metrics.heartbeats.getLast? with
      | none => rfl
      | some last =>
        have hbeaten := h.beaten last (List.mem_of_getLast? hlast)
        simpa using hbeaten.trans hle
    change _ ∉ _ ++ _
    rw [hforwards, if_neg (by simp), List.append_nil]
    exact h.forwards
  unreported := h.unreported

theorem evidence_risk (h : Evidence process) (engine : RiskEngine) :
    Evidence { process with
      metrics := process.metrics.recordRiskStatus (RiskHealthMonitor.check engine).toRiskHealthResult } := by
  unfold recordRiskStatus
  split
  · exact h
  · refine ⟨h.lifecycle, h.market, h.pipeline, h.ordered, h.beaten, ?_, h.unreported⟩
    rw [List.mem_append, not_or]
    refine ⟨h.forwards, fun hreason => ?_⟩
    obtain ⟨item, hitem, hname⟩ := List.mem_map.mp hreason
    have hchecks := (List.mem_filter.mp hitem).1
    simp only [RiskHealthMonitor.checks, List.mem_cons, List.not_mem_nil, or_false] at hchecks
    rcases hchecks with rfl | rfl | rfl | rfl | rfl | rfl <;> simp at hname

end SoakMetrics

namespace SoakM

variable {candles : ℤ} {item : SoakTurn} {s t : SoakProcess} {result : Except SoakError Unit}

theorem keeps_checkTask {task : Option TaskEnd} : Keeps (EvidenceUpTo candles) (checkTask task) := by
  intro s result t hs h
  unfold checkTask at h
  rw [ends_bind_of_returns (ends_get_iff.mpr ⟨rfl, rfl⟩)] at h
  split at h
  · split at h
    · rwa [(ends_throw_iff.mp h).2]
    · split at h
      · rwa [(ends_pure_iff.mp h).2]
      · obtain ⟨-, rfl⟩ := ends_set_iff.mp h
        obtain ⟨hcounted, hle⟩ := hs
        have hmarked := SoakMetrics.evidence_increment hcounted "event_source_exhausted" 1 (by decide) (by decide)
        exact ⟨⟨hmarked.lifecycle, hmarked.market, hmarked.pipeline, hmarked.ordered, hmarked.beaten,
          hmarked.forwards, hmarked.unreported⟩, hle⟩
  · rwa [(ends_pure_iff.mp h).2]

/-- The runtime has processed these candles, and no fewer than the runner has seen before. -/
theorem progress_evidence (hs : EvidenceUpTo candles s) (h : Ends (progress candles) s result t) :
    EvidenceUpTo candles t ∧ (result = .ok () → t.metrics.runtimeCandlesObserved = candles) := by
  unfold progress at h
  rw [ends_bind_of_returns (ends_get_iff.mpr ⟨rfl, rfl⟩)] at h
  rcases ends_bind_iff.mp h with ⟨error, hraises, rfl⟩ | ⟨counted, m, hm, h⟩
  · obtain ⟨-, rfl⟩ := ends_ofExcept_iff.mp hraises
    exact ⟨hs, by simp⟩
  · obtain ⟨hok, rfl⟩ := ends_ofExcept_iff.mp hm
    obtain ⟨-, rfl⟩ := ends_set_iff.mp h
    obtain ⟨hevidence, hobserved⟩ := SoakMetrics.evidence_recorded hs hok.symm
    exact ⟨⟨hevidence, hobserved.le⟩, fun _ => hobserved⟩

theorem keeps_beat : Keeps (EvidenceUpTo candles) (beat item) := by
  intro s result t hs h
  unfold beat at h
  rw [ends_bind_of_returns (ends_get_iff.mpr ⟨rfl, rfl⟩)] at h
  split at h
  · rwa [(ends_throw_iff.mp h).2]
  · rename_i hforwards
    rw [ends_bind_of_returns (ends_set_iff.mpr ⟨rfl, rfl⟩)] at h
    have hle := not_lt.mp hforwards
    split at h
    · obtain ⟨-, rfl⟩ := ends_throw_iff.mp h
      refine ⟨⟨hs.1.lifecycle, hs.1.market, hs.1.pipeline, hs.1.ordered, ?_, hs.1.forwards, hs.1.unreported⟩, hs.2⟩
      exact fun snapshot hmem => (hs.1.beaten snapshot hmem).trans hle
    · obtain ⟨-, rfl⟩ := ends_modify_iff.mp h
      exact ⟨SoakMetrics.evidence_heartbeat hs.1 ⟨"RUNNING", item.lastProcessedSequence⟩ hle, hs.2⟩

theorem keeps_sleep : Keeps (EvidenceUpTo candles) (sleep item) :=
  .ite (fun _ => .throw) fun _ => .ite (fun _ => .modify fun _ hs => hs.application List.prefix_rfl) fun _ => .pure

end SoakM

namespace Soak

open SoakM

variable {soak : Soak} {candles : ℤ} {item : SoakTurn} {turns : List SoakTurn} {s t : SoakProcess}
  {result : Except SoakError Unit} {status : SoakStatus} {reason : Option String}

theorem keeps_conclude : Keeps (EvidenceUpTo candles) (soak.conclude status reason) := by
  intro s result t hs h
  unfold conclude at h
  rw [ends_bind_of_returns (ends_get_iff.mpr ⟨rfl, rfl⟩),
    ends_bind_of_returns (ends_set_iff.mpr ⟨rfl, rfl⟩)] at h
  obtain ⟨-, session, -, -, rfl⟩ := ends_within_iff.mp h
  exact hs.session session _

theorem keeps_turn : Keeps (EvidenceUpTo item.candlesProcessed) (soak.turn item) := by
  refine .bind keeps_checkTask fun _ => .bind (fun _ _ _ hs h => (progress_evidence hs h).1) fun _ =>
    .bind (.ite (fun _ => keeps_beat) fun _ => .pure) fun _ => .bind (.modify fun s hs => ?_) fun _ =>
    .bind (.modify fun s hs => ?_) fun _ => keeps_sleep
  · refine ⟨⟨hs.1.lifecycle, hs.1.market, hs.1.pipeline, hs.1.ordered, hs.1.beaten, ?_, hs.1.unreported⟩, hs.2⟩
    change _ ∉ _ ++ []
    rw [List.append_nil]
    exact hs.1.forwards
  · have hassessed := SoakMetrics.evidence_risk hs.1 item.riskEngine
    refine ⟨hassessed, ?_⟩
    unfold SoakMetrics.recordRiskStatus
    dsimp only
    split <;> exact hs.2

/-- The candles of the passes and those after the shutdown are counted upwards. -/
theorem loop_evidence (hs : Evidence s) (hsorted : (turns.map SoakTurn.candlesProcessed ++ [candles]).Pairwise (· ≤ ·))
    (hle : ∀ count ∈ turns.map SoakTurn.candlesProcessed ++ [candles], s.metrics.runtimeCandlesObserved ≤ count)
    (h : Ends (soak.loop turns) s result t) : EvidenceUpTo candles t := by
  have hlast : EvidenceUpTo candles s := ⟨hs, hle candles (by simp)⟩
  induction turns generalizing s with
  | nil => rwa [(ends_pure_iff.mp h).2]
  | cons item rest ih =>
    unfold loop at h
    split at h
    · exact keeps_conclude _ _ _ hlast h
    · rw [List.map_cons, List.cons_append, List.pairwise_cons] at hsorted
      have hitem : EvidenceUpTo item.candlesProcessed s := ⟨hs, hle _ (by simp)⟩
      rcases ends_bind_iff.mp h with ⟨error, hraises, -⟩ | ⟨_, m, hturn, h⟩
      · exact (keeps_turn _ _ _ hitem hraises).mono (hsorted.1 candles (by simp))
      · obtain ⟨hm, hbound⟩ := keeps_turn _ _ _ hitem hturn
        have hnext : ∀ count ∈ rest.map SoakTurn.candlesProcessed ++ [candles],
            m.metrics.runtimeCandlesObserved ≤ count :=
          fun count hcount => hbound.trans (hsorted.1 count hcount)
        exact ih hm hsorted.2 hnext h ⟨hm, hnext candles (by simp)⟩

theorem serve_evidence
    (hsorted : (0 :: (soak.turns.map SoakTurn.candlesProcessed ++ [soak.candlesAfter])).Pairwise (· ≤ ·))
    (h : Ends soak.serve { session := soak.session } result t) : EvidenceUpTo soak.candlesAfter t := by
  obtain ⟨hnonneg, hsorted⟩ := List.pairwise_cons.mp hsorted
  unfold serve at h
  rcases ends_bind_iff.mp h with ⟨error, hraises, rfl⟩ | ⟨_, m, hstart, h⟩
  · obtain ⟨-, application, -, -, rfl⟩ := ends_within_iff.mp hraises
    exact ⟨evidence_fresh _ application, hnonneg _ (by simp)⟩
  obtain ⟨-, started, -, -, rfl⟩ := ends_within_iff.mp hstart
  rw [ends_bind_of_returns (ends_modify_iff.mpr ⟨rfl, rfl⟩)] at h
  have hopened : Evidence
      { session := soak.session
        application := started
        sequence := soak.startSequence
        metrics := SoakMetrics.recordLifecycle {} started.history } :=
    ⟨List.prefix_rfl, rfl, rfl, .nil, by simp [SoakMetrics.recordLifecycle], by simp [SoakMetrics.recordLifecycle], rfl⟩
  rcases ends_bind_iff.mp h with ⟨error, hraises, -⟩ | ⟨_, looped, hlooped, h⟩
  · exact loop_evidence hopened hsorted hnonneg hraises
  · have hloop : EvidenceUpTo soak.candlesAfter looped := loop_evidence hopened hsorted hnonneg hlooped
    rw [ends_bind_of_returns (ends_get_iff.mpr ⟨rfl, rfl⟩)] at h
    split at h
    · exact keeps_conclude _ _ _ hloop h
    · rwa [(ends_pure_iff.mp h).2]

theorem guarded_evidence
    (hsorted : (0 :: (soak.turns.map SoakTurn.candlesProcessed ++ [soak.candlesAfter])).Pairwise (· ≤ ·))
    (h : Ends soak.guarded { session := soak.session } result t) : EvidenceUpTo soak.candlesAfter t := by
  unfold guarded at h
  rcases ends_tryCatch_iff.mp h with ⟨_, hserve, -⟩ | ⟨error, m, hserve, hhandler⟩
  · exact serve_evidence hsorted hserve
  have hserved := serve_evidence hsorted hserve
  split at hhandler
  · exact Keeps.bind keeps_conclude (fun _ => .throw) _ _ _ hserved hhandler
  · refine Keeps.bind (.bind .get fun _ => .ite (fun _ => keeps_conclude) fun _ => .pure) (fun _ => ?_) _ _ _
      hserved hhandler
    exact .modify fun s hs => ⟨SoakMetrics.evidence_increment hs.1 "failures" 1 (by decide) (by decide), hs.2⟩

/-! ### The report -/

theorem stop_evidence (hs : EvidenceUpTo soak.candlesAfter s) (h : Ends soak.stop s result t) :
    EvidenceUpTo soak.candlesAfter t ∧
      (result = .ok () → t.metrics.runtimeCandlesObserved = soak.candlesAfter) := by
  have happlied {own : Except ApplicationError Unit} {application : ApplicationProcess}
      (hstop : Ends (soak.composition.stop soak.raises) s.application own application) :
      EvidenceUpTo soak.candlesAfter { s with application } := by
    refine hs.application (Composition.keeps_stop (P := fun application =>
      s.application.history <+: application.history) ?_ ?_ _ _ _ List.prefix_rfl hstop)
    · exact fun before after _ hhistory hbefore => hhistory ▸ hbefore
    · exact fun before target _ _ hbefore => hbefore.trans (List.prefix_append _ _)
  unfold stop at h
  rcases ends_bind_iff.mp h with ⟨error, hraises, rfl⟩ | ⟨_, stopped, hstop, hprogress⟩
  · obtain ⟨_, application, hstopped, -, rfl⟩ := ends_within_iff.mp hraises
    exact ⟨happlied hstopped, by simp⟩
  · obtain ⟨_, application, hstopped, -, rfl⟩ := ends_within_iff.mp hstop
    exact progress_evidence (happlied hstopped) hprogress

/-- An application that is closed in the end has been stopped without a raise. -/
theorem halts_of_closed {application stopped : ApplicationProcess} {own : Except ApplicationError Unit}
    (hstarted : Started soak application) (hcandles : 0 ≤ soak.candlesAfter)
    (hstop : Ends (soak.composition.stop soak.raises) application own stopped) (hclosed : stopped.closed = true) :
    Halts soak application := by
  obtain ⟨_, started, hstarts, hsame⟩ := hstarted
  rcases (Composition.start_ends hstarts).2 with ⟨hopen, hnot⟩ | ⟨hstopped, -⟩
  · rw [← hsame.state] at hopen
    rw [← hsame.closed] at hnot
    have hcalls := (Composition.stop_shuts_down hopen hstop).closed.mp hclosed
    exact (halts_iff hopen).mpr ⟨hcalls.resolve_left (by simp [hnot]), hcandles⟩
  · refine ⟨⟨application, ?_⟩, hcandles⟩
    unfold Composition.stop
    rw [ends_bind_of_returns (ends_get_iff.mpr ⟨rfl, rfl⟩), if_pos (hsame.state.trans hstopped)]
    exact ends_pure_iff.mpr ⟨rfl, rfl⟩

theorem halt_evidence (hs : EvidenceUpTo soak.candlesAfter s) (hstarted : Started soak s.application)
    (hcandles : 0 ≤ soak.candlesAfter) (h : Ends soak.halt s result t) :
    EvidenceUpTo soak.candlesAfter t ∧
      (t.application.closed = true → t.metrics.runtimeCandlesObserved = soak.candlesAfter) := by
  obtain ⟨-, -, own, hown⟩ := halt_ends h
  unfold halt at h
  rcases ends_tryCatch_iff.mp h with ⟨_, hreturns, -⟩ | ⟨error, m, hraises, hhandler⟩
  · obtain ⟨hevidence, hobserved⟩ := stop_evidence hs hreturns
    exact ⟨hevidence, fun _ => hobserved rfl⟩
  obtain ⟨hevidence, -⟩ := stop_evidence hs hraises
  have hnot : ¬Halts soak s.application := fun hhalts => by simpa using (stop_ends hraises).2.1.mpr hhalts
  refine ⟨?_, fun hclosed => absurd (halts_of_closed hstarted hcandles hown hclosed) hnot⟩
  rw [ends_bind_of_returns (ends_get_iff.mpr ⟨rfl, rfl⟩)] at hhandler
  dsimp only at hhandler
  split at hhandler
  · exact keeps_conclude _ _ _ hevidence hhandler
  · split at hhandler
    · obtain ⟨-, rfl⟩ := ends_set_iff.mp hhandler
      exact hevidence.session _ _
    · rwa [(ends_pure_iff.mp hhandler).2]

/-- The report that a soak leaves. -/
structure Reported (soak : Soak) (process : SoakProcess) : Prop where
  report : process.reports = [(process.session, process.metrics)]
  lifecycle : process.metrics.lifecycle = process.application.history
  market : process.metrics.count "market_events" = process.metrics.runtimeCandlesObserved
  pipeline : process.metrics.count "pipeline_events" = process.metrics.runtimeCandlesObserved
  all : process.application.closed = true → process.metrics.runtimeCandlesObserved = soak.candlesAfter
  ordered : process.metrics.heartbeats.Pairwise fun earlier later => earlier.sequence ≤ later.sequence
  forwards : "heartbeat sequence moved backwards" ∉ process.metrics.violations

/-- However a soak ends, where the runtime's candles only grow: it leaves one report, with the whole
lifecycle of the application and the heartbeats in order.  The report counts each candle once that the
runner has seen, and it has seen all of them when the application is closed.  Without a report, the
runner raises. -/
theorem report_tells (soak : Soak) (result : Except SoakError SoakSession) (t : SoakProcess)
    (hsorted : (0 :: (soak.turns.map SoakTurn.candlesProcessed ++ [soak.candlesAfter])).Pairwise (· ≤ ·))
    (h : Ends soak.runSoak { session := soak.session } result t) :
    Reported soak t ∨ t.reports = [] ∧ ∃ error, result = .error error := by
  have hcandles : 0 ≤ soak.candlesAfter := (List.pairwise_cons.mp hsorted).1 _ (by simp)
  obtain ⟨outcome, served, finished, hguarded, hfinally, hresult⟩ := runSoak_ends h
  have hserved := guarded_evidence hsorted hguarded
  have hstarted := (guarded_ends hguarded).1
  unfold shutDown at hfinally
  rcases ends_bind_iff.mp hfinally with ⟨error, hraises, rfl⟩ | ⟨_, halted, hhalt, hfinally⟩
  · refine .inr ⟨(halt_evidence hserved hstarted hcandles hraises).1.1.unreported, ?_⟩
    cases result with
    | error error => exact ⟨error, rfl⟩
    | ok session => exact absurd ((hresult session).mp rfl).1 (by simp)
  rw [ends_bind_of_returns (ends_modify_iff.mpr ⟨rfl, rfl⟩),
    ends_bind_of_returns (ends_modify_iff.mpr ⟨rfl, rfl⟩)] at hfinally
  obtain ⟨⟨hevidence, -⟩, hall⟩ := halt_evidence hserved hstarted hcandles hhalt
  refine .inl ?_
  obtain rfl : t = _ := by
    split at hfinally
    · exact (ends_throw_iff.mp hfinally).2
    · exact (ends_pure_iff.mp hfinally).2
  refine ⟨?_, List.prefix_iff_eq_append.mp hevidence.lifecycle, hevidence.market, hevidence.pipeline, hall,
    hevidence.ordered, hevidence.forwards⟩
  change halted.reports ++ _ = _
  rw [hevidence.unreported]
  rfl

end Soak

/-- The task of the runtime fails while the soak goes on. -/
def crashedSoak : Soak :=
  { btcSoak with turns := [soakTurn 2, { soakTurn 5 with task := some (.failed "market source crashed") }] }

theorem crashedSoak_reported : ∃ result t, Ends crashedSoak.runSoak { session := crashedSoak.session } result t ∧
    t.session.failureReason = some "paper runtime stopped unexpectedly: market source crashed" ∧
    Soak.Reported crashedSoak t :=
  ⟨_, _, rfl, rfl, (Soak.report_tells crashedSoak _ _ (by decide) rfl).resolve_right (by rintro ⟨⟨⟩⟩)⟩

end CryptoTrading
