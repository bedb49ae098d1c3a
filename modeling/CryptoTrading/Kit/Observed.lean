import CryptoTrading.Kit.Run

/-! Systems whose steps are computed: a state and a label give the next state and what is seen of the
step, where the step can happen.  A run records all that is seen. -/

namespace CryptoTrading.Kit

/-- What comes before an element of a list with one more at its end. -/
theorem append_singleton_eq_iff {α : Type*} {xs before later : List α} {x y : α} :
    xs ++ [x] = before ++ y :: later ↔
      (before = xs ∧ y = x ∧ later = []) ∨ ∃ init, later = init ++ [x] ∧ xs = before ++ y :: init := by
  constructor
  · intro h
    rcases List.eq_nil_or_concat later with rfl | ⟨init, last, rfl⟩
    · obtain ⟨hxs, hx⟩ := List.append_inj' h rfl
      exact .inl ⟨hxs.symm, (List.singleton_inj.mp hx).symm, rfl⟩
    · rw [List.concat_eq_append, ← List.cons_append, ← List.append_assoc] at h
      obtain ⟨hxs, hx⟩ := List.append_inj' h rfl
      rw [List.concat_eq_append, ← List.singleton_inj.mp hx]
      exact .inr ⟨init, rfl, hxs⟩
  · rintro (⟨rfl, rfl, rfl⟩ | ⟨init, rfl, rfl⟩)
    · rfl
    · simp

/-- A state, and what has been seen up to it. -/
structure Observed (σ ε : Type*) where
  state : σ
  events : List ε := []

namespace Observed

variable {σ ℓ ε : Type*} {step? : σ → ℓ → Option (σ × List ε)}

/-- A step of the system, with what is seen of it. -/
def Step (step? : σ → ℓ → Option (σ × List ε)) (before : Observed σ ε) (label : ℓ)
    (after : Observed σ ε) : Prop :=
  ∃ events, step? before.state label = some (after.state, events) ∧
    after.events = before.events ++ events

theorem deterministic : Run.Deterministic (Step step?) := by
  rintro before label ⟨state, events⟩ ⟨state', events'⟩ ⟨new, hstep, hevents⟩ ⟨new', hstep', hevents'⟩
  cases hstep.symm.trans hstep'
  exact congrArg _ (hevents.trans hevents'.symm)

/-- Where the labels lead, if all of their steps can happen. -/
def after? (step? : σ → ℓ → Option (σ × List ε)) (observed : Observed σ ε) :
    List ℓ → Option (Observed σ ε)
  | [] => some observed
  | label :: labels =>
    match step? observed.state label with
    | none => none
    | some (state, events) => after? step? ⟨state, observed.events ++ events⟩ labels

theorem run_of_after? {observed after : Observed σ ε} {labels : List ℓ}
    (h : after? step? observed labels = some after) : Run (Step step?) observed labels after := by
  induction labels generalizing observed with
  | nil =>
    cases h
    exact .nil _
  | cons label labels ih =>
    unfold after? at h
    split at h
    · cases h
    · rename_i state events hstep
      exact .cons ⟨events, hstep, rfl⟩ (ih h)

theorem after?_of_run {observed after : Observed σ ε} {labels : List ℓ}
    (h : Run (Step step?) observed labels after) : after? step? observed labels = some after := by
  induction h with
  | nil => rfl
  | cons hfirst _ ih =>
    obtain ⟨events, hstep, hevents⟩ := hfirst
    unfold after?
    rw [hstep]
    dsimp only
    rw [← hevents]
    exact ih

/-- What a step keeps of the state and the events exactly when it is fine, holds at the end of a run
exactly when all its steps are fine. -/
theorem iff_makes {I P : σ → List ε → Prop} {Fine : Observed σ ε → ℓ → Prop}
    {observed after : Observed σ ε} {labels : List ℓ} (h : Run (Step step?) observed labels after)
    (hI : I observed.state observed.events) (hP : P observed.state observed.events)
    (next : ∀ state events label state' new, I state events →
      step? state label = some (state', new) → I state' (events ++ new) ∧
        (P state' (events ++ new) ↔ P state events ∧ Fine ⟨state, events⟩ label)) :
    P after.state after.events ↔ ∀ before label next, Run.Makes (Step step?) observed labels before
      label next → Fine before label := by
  have hnext : ∀ (before : Observed σ ε) (label : ℓ) (after : Observed σ ε),
      I before.state before.events → Step step? before label after →
      I after.state after.events ∧ (P after.state after.events ↔
        P before.state before.events ∧ Fine before label) := by
    rintro before label ⟨state, events⟩ hbefore ⟨new, hstep, hevents⟩
    dsimp only at hstep hevents ⊢
    rw [hevents]
    exact next before.state before.events label state new hbefore hstep
  have hiff := Run.iff_makes deterministic (I := fun observed : Observed σ ε =>
      I observed.state observed.events) (P := fun observed => P observed.state observed.events)
    h hI (fun before label after hbefore hstep => (hnext before label after hbefore hstep).1)
    (fun before label after hbefore hstep => (hnext before label after hbefore hstep).2)
  exact hiff.trans (and_iff_right hP)

end Observed

end CryptoTrading.Kit
