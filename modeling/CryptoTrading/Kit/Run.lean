import Mathlib.Data.List.Basic
import Mathlib.Data.List.Induction

/-! Histories of events, and runs of a labelled transition system: how they compose and split, and the
rules that carry an invariant about the labels passed and the state reached along a run. -/

namespace CryptoTrading.Kit

/-- What holds of a history after each of its events exactly when the event is fine holds of all that
it starts with exactly when all its events are. -/
theorem forall_prefix_iff {α : Type*} {P : List α → Prop} {Fine : List α → α → Prop} (start : P [])
    (next : ∀ passed a, P passed → (P (passed ++ [a]) ↔ Fine passed a)) (events : List α) :
    (∀ passed, passed <+: events → P passed) ↔
      ∀ passed a, passed ++ [a] <+: events → Fine passed a := by
  constructor
  · intro h passed a hpassed
    have hbefore : P passed := h passed ((List.prefix_append passed [a]).trans hpassed)
    exact (next passed a hbefore).mp (h _ hpassed)
  · intro h passed
    induction passed using List.reverseRecOn with
    | nil => exact fun _ => start
    | append_singleton passed a ih =>
      intro hpassed
      have hbefore : P passed := ih ((List.prefix_append passed [a]).trans hpassed)
      exact (next passed a hbefore).mpr (h passed a hpassed)

variable {σ ℓ : Type*} {step : σ → ℓ → σ → Prop}

/-- `Run step s labels t`: `labels` lead from `s` to `t`, one step for each label. -/
inductive Run (step : σ → ℓ → σ → Prop) : σ → List ℓ → σ → Prop
  | nil (s : σ) : Run step s [] s
  | cons {s m t : σ} {label : ℓ} {labels : List ℓ} :
      step s label m → Run step m labels t → Run step s (label :: labels) t

namespace Run

theorem single {s t : σ} {label : ℓ} (h : step s label t) : Run step s [label] t :=
  .cons h (.nil t)

theorem append {s m t : σ} {before after : List ℓ} (h : Run step s before m)
    (h' : Run step m after t) : Run step s (before ++ after) t := by
  induction h with
  | nil => exact h'
  | cons first _ ih => exact .cons first (ih h')

theorem snoc {s m t : σ} {labels : List ℓ} {label : ℓ} (h : Run step s labels m)
    (h' : step m label t) : Run step s (labels ++ [label]) t :=
  h.append (single h')

/-- A run is one of another system that makes the same steps with these labels. -/
theorem imp {step' : σ → ℓ → σ → Prop} {s t : σ} {labels : List ℓ} (h : Run step s labels t)
    (himp : ∀ s label t, label ∈ labels → step s label t → step' s label t) :
    Run step' s labels t := by
  induction h with
  | nil => exact .nil _
  | cons first _ ih =>
    exact .cons (himp _ _ _ (List.mem_cons_self ..) first)
      (ih fun s label t hmem => himp s label t (List.mem_cons_of_mem _ hmem))

/-- A property of the labels passed and the state reached that holds at the start and that every
step preserves holds at the end of every run. -/
theorem invariant {P : List ℓ → σ → Prop} {s t : σ} {labels : List ℓ} (h : Run step s labels t)
    (start : P [] s)
    (next : ∀ passed m label m', P passed m → step m label m' → P (passed ++ [label]) m') :
    P labels t := by
  have carried : ∀ passed, P passed s → P (passed ++ labels) t := by
    clear start
    induction h with
    | nil => intro passed hp; simpa using hp
    | @cons s m t label labels first _ ih =>
      intro passed hp
      have hm : P (passed ++ [label]) m := next passed s label m hp first
      simpa using ih (passed ++ [label]) hm
  exact carried [] start

theorem split {s t : σ} {before after : List ℓ} (h : Run step s (before ++ after) t) :
    ∃ m, Run step s before m ∧ Run step m after t := by
  induction before generalizing s with
  | nil => exact ⟨s, .nil s, h⟩
  | cons label before ih =>
    obtain _ | ⟨first, rest⟩ := h
    obtain ⟨m, hbefore, hafter⟩ := ih rest
    exact ⟨m, .cons first hbefore, hafter⟩

/-- The run makes the step by `label` from `before` to `after`. -/
def Makes (step : σ → ℓ → σ → Prop) (s : σ) (labels : List ℓ) (before : σ) (label : ℓ)
    (after : σ) : Prop :=
  ∃ passed later, labels = passed ++ label :: later ∧ Run step s passed before ∧
    step before label after

theorem Makes.append_right {s before after : σ} {label : ℓ} {labels : List ℓ}
    (h : Makes step s labels before label after) (more : List ℓ) :
    Makes step s (labels ++ more) before label after := by
  obtain ⟨passed, later, rfl, hbefore, hstep⟩ := h
  exact ⟨passed, later ++ more, by simp, hbefore, hstep⟩

theorem Makes.append_left {s m before after : σ} {label : ℓ} {labels first : List ℓ}
    (h : Makes step m labels before label after) (hfirst : Run step s first m) :
    Makes step s (first ++ labels) before label after := by
  obtain ⟨passed, later, rfl, hbefore, hstep⟩ := h
  exact ⟨first ++ passed, later, by simp, hfirst.append hbefore, hstep⟩

/-- What the steps of a run preserve holds before each of them, and at the end. -/
theorem invariant_makes {P : σ → Prop} {s t : σ} {labels : List ℓ} (h : Run step s labels t)
    (start : P s) (next : ∀ before label after, Makes step s labels before label after →
      P before → P after) : P t := by
  have hall : ∀ passed later m, labels = passed ++ later → Run step s passed m → P m := by
    intro passed
    induction passed using List.reverseRecOn with
    | nil =>
      intro later m _ hrun
      cases hrun
      exact start
    | append_singleton passed label ih =>
      intro later m hsplit hrun
      obtain ⟨before, hbefore, hlast⟩ := hrun.split
      obtain _ | ⟨hstep, hend⟩ := hlast
      cases hend
      rw [List.append_assoc] at hsplit
      exact next before label m ⟨passed, later, hsplit, hbefore, hstep⟩
        (ih _ before hsplit hbefore)
  exact hall labels [] t (List.append_nil _).symm h

/-- A label leads from a state to one other at most. -/
def Deterministic (step : σ → ℓ → σ → Prop) : Prop :=
  ∀ s label m m', step s label m → step s label m' → m = m'

theorem unique (hdet : Deterministic step) {s t t' : σ} {labels : List ℓ}
    (h : Run step s labels t) (h' : Run step s labels t') : t = t' := by
  induction h with
  | nil => cases h'; rfl
  | cons first _ ih =>
    obtain _ | ⟨first', rest'⟩ := h'
    cases hdet _ _ _ _ first first'
    exact ih rest'

/-- The steps of a run are its first step and those of its rest. -/
theorem makes_cons_iff (hdet : Deterministic step)
    {s m before after : σ} {first label : ℓ} {rest : List ℓ} (h : step s first m) :
    Makes step s (first :: rest) before label after ↔
      (before = s ∧ label = first ∧ after = m) ∨ Makes step m rest before label after := by
  constructor
  · rintro ⟨passed, later, hsplit, hbefore, hstep⟩
    cases passed with
    | nil =>
      cases hsplit
      cases hbefore
      exact Or.inl ⟨rfl, rfl, hdet _ _ _ _ hstep h⟩
    | cons other passed =>
      cases hsplit
      obtain _ | ⟨hfirst, hrest⟩ := hbefore
      cases hdet _ _ _ _ hfirst h
      exact Or.inr ⟨passed, later, rfl, hrest, hstep⟩
  · rintro (⟨rfl, rfl, rfl⟩ | ⟨passed, later, rfl, hbefore, hstep⟩)
    · exact ⟨[], rest, rfl, .nil _, h⟩
    · exact ⟨first :: passed, later, rfl, .cons h hbefore, hstep⟩

/-- The steps of a run that goes one step further are its steps and the further one. -/
theorem makes_snoc_iff (hdet : Deterministic step) {s m m' before after : σ} {last label : ℓ}
    {labels : List ℓ} (h : Run step s labels m) (hlast : step m last m') :
    Makes step s (labels ++ [last]) before label after ↔
      Makes step s labels before label after ∨ (before = m ∧ label = last ∧ after = m') := by
  constructor
  · rintro ⟨passed, later, hsplit, hbefore, hstep⟩
    induction later using List.reverseRecOn with
    | nil =>
      obtain ⟨rfl, hlabel⟩ := List.append_inj' hsplit rfl
      cases hlabel
      cases unique hdet hbefore h
      exact Or.inr ⟨rfl, rfl, hdet _ _ _ _ hstep hlast⟩
    | append_singleton later other _ =>
      rw [← List.cons_append, ← List.append_assoc] at hsplit
      obtain ⟨rfl, -⟩ := List.append_inj' hsplit rfl
      exact Or.inl ⟨passed, later, rfl, hbefore, hstep⟩
  · rintro (hmakes | ⟨rfl, rfl, rfl⟩)
    · exact hmakes.append_right [last]
    · exact ⟨labels, [], rfl, h, hlast⟩

/-- What a step keeps exactly when it is fine holds at the end of a run exactly when all its steps
are. -/
theorem iff_makes (hdet : Deterministic step)
    {I P : σ → Prop} {Fine : σ → ℓ → σ → Prop} {s t : σ} {labels : List ℓ}
    (h : Run step s labels t) (hI : I s)
    (keep : ∀ before label after, I before → step before label after → I after)
    (next : ∀ before label after, I before → step before label after →
      (P after ↔ P before ∧ Fine before label after)) :
    P t ↔ P s ∧ ∀ before label after, Makes step s labels before label after →
      Fine before label after := by
  induction h with
  | nil s =>
    refine ⟨fun hp => ⟨hp, ?_⟩, And.left⟩
    rintro before label after ⟨passed, later, hsplit, -⟩
    simp at hsplit
  | cons hfirst _ ih =>
    rw [ih (keep _ _ _ hI hfirst), next _ _ _ hI hfirst]
    constructor
    · rintro ⟨⟨hp, hfine⟩, hrest⟩
      refine ⟨hp, fun before label after hmakes => ?_⟩
      rcases (makes_cons_iff hdet hfirst).mp hmakes with ⟨rfl, rfl, rfl⟩ | hmakes
      · exact hfine
      · exact hrest _ _ _ hmakes
    · rintro ⟨hp, hall⟩
      refine ⟨⟨hp, hall _ _ _ ((makes_cons_iff hdet hfirst).mpr (Or.inl ⟨rfl, rfl, rfl⟩))⟩, ?_⟩
      intro before label after hmakes
      exact hall _ _ _ ((makes_cons_iff hdet hfirst).mpr (Or.inr hmakes))

end Run

end CryptoTrading.Kit
