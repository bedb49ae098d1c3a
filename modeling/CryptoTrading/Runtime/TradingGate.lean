import CryptoTrading.Runtime.ApplicationShutdown

/-! When a start enables trading.  It does so for the application and its runtime alike, and then alone
that every gate of the start has let it through; a start that has not created the runtime's task has
enabled nothing. -/

namespace CryptoTrading

open Kit Kit.Fallible

namespace Composition

open ApplicationM

variable {composition : Composition} {answers : StartAnswers} {s t : ApplicationProcess}
  {result : Except ApplicationError Unit}

/-- The gates of a start. -/
structure Allows (composition : Composition) (answers : StartAnswers) : Prop where
  preflight : (answers.preflight.run answers.loads).2 = []
  restored : answers.raises .restoreState = false
  bootstrapped : composition.hasBootstrap → answers.raises .bootstrap = false
  warmedUp : answers.raises .warmup = false
  known : ∀ symbol ∈ composition.symbols, ∃ count, answers.available.get? symbol = some count
  enough : ∀ symbol count, answers.available.get? symbol = some count → composition.warmupCandles ≤ count
  ready : answers.marketDataReady
  inWindow : composition.hasSessionManager → answers.raises .openSession = false ∧ answers.session.isSome

theorem keys_foldl_set_eq_nil_iff {symbols : List String} {counts : Dict String ℕ} :
    (symbols.foldl (fun counts symbol => counts.set symbol 0) counts).keys = [] ↔
      symbols = [] ∧ counts.keys = [] := by
  induction symbols generalizing counts with
  | nil => simp
  | cons symbol rest ih =>
    rw [List.foldl_cons, ih]
    refine iff_of_false (fun h => ?_) nofun
    have hset : symbol ∈ (counts.set symbol 0).keys :=
      Dict.isSome_get?_iff.mp (by rw [Dict.get?_set_self]; rfl)
    rw [h.2] at hset
    cases hset

/-- No symbol lacks candles. -/
theorem insufficient_isEmpty_iff {available : Dict String ℕ} :
    (composition.insufficient available).keys.isEmpty ↔
      (∀ symbol ∈ composition.symbols, ∃ count, available.get? symbol = some count) ∧
        ∀ symbol count, available.get? symbol = some count → composition.warmupCandles ≤ count := by
  unfold insufficient
  rw [List.isEmpty_iff, keys_foldl_set_eq_nil_iff, List.filter_eq_nil_iff]
  refine and_congr (forall₂_congr fun symbol _ => ?_) ?_
  · rw [decide_eq_true_iff, not_not, ← Dict.isSome_get?_iff, Option.isSome_iff_exists]
  · constructor
    · intro h symbol count hcount
      by_contra hless
      have hmem : symbol ∈ (available.filter fun _ count => decide (count < composition.warmupCandles)).keys := by
        rw [← Dict.isSome_get?_iff, Dict.get?_filter, hcount]
        simpa using hless
      rw [h] at hmem
      cases hmem
    · intro h
      refine List.eq_nil_iff_forall_not_mem.mpr fun symbol hmem => ?_
      rw [← Dict.isSome_get?_iff, Dict.get?_filter] at hmem
      obtain ⟨count, hcount⟩ := Option.isSome_iff_exists.mp hmem
      obtain ⟨hcount, hless⟩ := Option.filter_eq_some_iff.mp hcount
      exact absurd (h symbol count hcount) (by simpa using hless)

/-- A call and the rest, by whether it raises. -/
theorem ends_attempt_bind_iff {α : Type} {raises : AppCall → Bool} {call : AppCall} {rest : ApplicationM α}
    {result : Except ApplicationError α} :
    Ends (attempt raises call >>= fun _ => rest) s result t ↔
      raises call = true ∧ result = .error (.raised call) ∧ t = s.called [call] ∨
        raises call = false ∧ Ends rest (s.called [call]) result t := by
  cases hraises : raises call with
  | true =>
    have hcall : Ends (attempt raises call) s (.error (.raised call)) (s.called [call]) :=
      ends_attempt_iff.mpr ⟨rfl, by rw [outcome_cons, if_pos hraises]⟩
    rw [ends_bind_of_raises hcall]
    simp
  | false =>
    have hcall : Ends (attempt raises call) s (.ok ()) (s.called [call]) :=
      ends_attempt_iff.mpr ⟨rfl, by rw [outcome_cons, if_neg (by simp [hraises])]; rfl⟩
    rw [ends_bind_of_returns hcall]
    simp

theorem bootstrapped_ends : Ends (composition.bootstrapped answers) s
    (.ok !(composition.hasBootstrap && answers.raises .bootstrap))
    (s.called (if composition.hasBootstrap then [.bootstrap] else [])) := by
  unfold bootstrapped
  cases composition.hasBootstrap with
  | false => exact ends_pure_iff.mpr ⟨rfl, ApplicationProcess.called_nil s⟩
  | true =>
    cases hraises : answers.raises .bootstrap with
    | true =>
      refine ends_tryCatch_iff.mpr (.inr ⟨_, _, ends_attempt_bind_iff.mpr (.inl ⟨hraises, rfl, rfl⟩), ?_⟩)
      exact ends_pure_iff.mpr ⟨rfl, rfl⟩
    | false =>
      refine ends_tryCatch_iff.mpr (.inl ⟨true, ends_attempt_bind_iff.mpr (.inr ⟨hraises, ?_⟩), rfl⟩)
      exact ends_pure_iff.mpr ⟨rfl, rfl⟩

theorem openedSession_bind_iff {rest : Option String → ApplicationM Unit} :
    Ends (composition.openedSession answers >>= rest) s result t ↔
      (composition.hasSessionManager = true ∧ answers.raises .openSession = true ∧
        result = .error (.raised .openSession) ∧ t = s.called [.openSession]) ∨
      (composition.hasSessionManager = true ∧ answers.raises .openSession = false ∧
        Ends (rest answers.session) (s.called [.openSession]) result t) ∨
      composition.hasSessionManager = false ∧ Ends (rest none) s result t := by
  unfold openedSession
  cases composition.hasSessionManager with
  | false => simp
  | true =>
    simp only [if_true, bind_assoc, pure_bind]
    rw [ends_attempt_bind_iff]
    simp

/-- A launch creates the task, and enables what the gates let through, or it ends at a gate. -/
theorem launch_ends (hstate : s.state = .preflight) (hdisabled : s.tradingEnabled = false)
    (hpreflight : (answers.preflight.run answers.loads).2 = [])
    (h : Ends (composition.launch answers) s result t) :
    t.runTask = true ∧ t.runtimeTrading = t.tradingEnabled ∧
        (t.tradingEnabled = true ↔ Allows composition answers) ∨
      result ≠ .ok () ∧ t.runTask = s.runTask ∧ t.tradingEnabled = false ∧ ¬Allows composition answers := by
  have hbootstrap : (!(composition.hasBootstrap && answers.raises .bootstrap)) = true ↔
      (composition.hasBootstrap = true → answers.raises .bootstrap = false) := by
    cases composition.hasBootstrap <;> simp
  unfold launch at h
  rw [ends_bind_of_returns ((ends_transition_iff (by rw [hstate]; simp [RuntimeState.next])).mpr ⟨rfl, rfl⟩),
    ends_attempt_bind_iff] at h
  rcases h with ⟨hraises, rfl, rfl⟩ | ⟨hrestored, h⟩
  · exact .inr ⟨by simp, rfl, hdisabled, fun hallows => by simp [hallows.restored] at hraises⟩
  rw [ends_bind_of_returns ((ends_transition_iff (List.mem_cons_self ..)).mpr ⟨rfl, rfl⟩),
    ends_bind_of_returns bootstrapped_ends, ends_attempt_bind_iff] at h
  rcases h with ⟨hraises, rfl, rfl⟩ | ⟨hwarm, h⟩
  · exact .inr ⟨by simp, rfl, hdisabled, fun hallows => by simp [hallows.warmedUp] at hraises⟩
  rw [openedSession_bind_iff] at h
  rcases h with ⟨hmanager, hraises, rfl, rfl⟩ | ⟨hmanager, hopened, h⟩ | ⟨hmanager, h⟩
  · exact .inr ⟨by simp, rfl, hdisabled, fun hallows => by simp [hallows.inWindow hmanager] at hraises⟩
  all_goals
    rw [ends_bind_of_returns (ends_modify_iff.mpr ⟨rfl, rfl⟩),
      ends_bind_of_returns ((ends_transition_iff (List.mem_cons_self ..)).mpr ⟨rfl, rfl⟩), ends_modify_iff] at h
    obtain ⟨-, rfl⟩ := h
    refine .inl ⟨rfl, rfl, ?_⟩
    change (_ && _ && _ && _) = true ↔ _
    simp only [Bool.and_eq_true, insufficient_isEmpty_iff, hbootstrap, hmanager]
    constructor
    · rintro ⟨⟨⟨hboot, hready⟩, hknown, henough⟩, hwindow⟩
      exact ⟨hpreflight, hrestored, hboot, hwarm, hknown, henough, hready, by simp_all⟩
    · intro hallows
      refine ⟨⟨⟨hallows.bootstrapped, hallows.ready⟩, hallows.known, hallows.enough⟩, ?_⟩
      have hwindow := hallows.inWindow
      simp_all

/-- After a start, however its calls answer, trading is enabled exactly when every gate has let it through;
the runtime, once its task is created, trades exactly when the application does. -/
theorem start_enables_iff (composition : Composition) (answers : StartAnswers)
    (result : Except ApplicationError Unit) (t : ApplicationProcess)
    (h : Ends (composition.start answers) {} result t) :
    (t.tradingEnabled = true ↔ Allows composition answers) ∧
      (t.runTask = true → t.runtimeTrading = t.tradingEnabled) ∧
      (t.tradingEnabled = true → t.runTask = true) := by
  unfold start at h
  rw [ends_bind_of_returns (ends_get_iff.mpr ⟨rfl, rfl⟩), if_pos rfl,
    ends_bind_of_returns ((ends_transition_iff (by simp [RuntimeState.next])).mpr ⟨rfl, rfl⟩)] at h
  dsimp only at h
  split at h
  · rename_i hpreflight
    rcases ends_bind_iff.mp h with ⟨error, hlaunch, rfl⟩ | ⟨_, m, hlaunch, hannounce⟩
    · rcases launch_ends rfl rfl hpreflight hlaunch with ⟨htask, hruntime, hiff⟩ | ⟨-, htask, hdisabled, hnot⟩
      · exact ⟨hiff, fun _ => hruntime, fun _ => htask⟩
      · simp [hdisabled, hnot, htask, ApplicationProcess.turned]
    · rcases launch_ends rfl rfl hpreflight hlaunch with ⟨htask, hruntime, hiff⟩ | ⟨hraised, -⟩
      · have hkept : t.tradingEnabled = m.tradingEnabled ∧ t.runtimeTrading = m.runtimeTrading ∧
            t.runTask = m.runTask :=
          keeps_announce (P := fun s => s.tradingEnabled = m.tradingEnabled ∧
            s.runtimeTrading = m.runtimeTrading ∧ s.runTask = m.runTask) (fun _ _ _ _ hs => hs) _ _ _
            ⟨rfl, rfl, rfl⟩ hannounce
        rw [hkept.1, hkept.2.1, hkept.2.2]
        exact ⟨hiff, fun _ => hruntime, fun _ => htask⟩
      · exact absurd rfl hraised
  · rename_i herrors
    have hnot : ¬Allows composition answers := fun hallows => herrors hallows.preflight
    obtain ⟨_, rfl, ⟨-, rfl⟩ | ⟨-, rfl⟩⟩ := failPreflight_ends rfl h <;>
      simp [hnot, ApplicationProcess.turned, ApplicationProcess.called]

theorem good_start_enables : ∃ t, Ends (btcApplication.start goodAnswers) {} (.ok ()) t ∧
    t.tradingEnabled = true ∧ Allows btcApplication goodAnswers :=
  have h := start_enables_iff btcApplication goodAnswers (.ok ()) _ rfl
  ⟨_, rfl, rfl, h.1.mp rfl⟩

end Composition

end CryptoTrading
