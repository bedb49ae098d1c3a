import Mathlib.Algebra.Order.Group.Defs
import Mathlib.Data.List.Induction
import Mathlib.Order.Bounds.Basic
import Mathlib.Order.Lattice
import Mathlib.Tactic.Abel

/-! The losses along a path of values, each from the greatest value so far.  What a loss is, is a parameter:
it may be an amount, or a share of the greatest value. -/

namespace CryptoTrading.Kit

variable {K : Type*} [LinearOrder K]

/-- The losses of a path, of which `peak` is the greatest value before it. -/
def losses (loss : K → K → K) (peak : K) : List K → List K
  | [] => []
  | value :: rest => loss (max peak value) value :: losses loss (max peak value) rest

/-- The greatest loss of a path, and zero where there is none. -/
def worst [Zero K] (loss : K → K → K) (peak : K) (path : List K) : K := (losses loss peak path).foldr max 0

section Losses

variable {loss : K → K → K} {peak value : K} {path : List K}

theorem losses_concat (loss : K → K → K) (peak : K) (path : List K) (value : K) :
    losses loss peak (path ++ [value]) =
      losses loss peak path ++ [loss (max (path.foldl max peak) value) value] := by
  induction path generalizing peak with
  | nil => rfl
  | cons first rest ih => simp [losses, ih]

theorem losses_nonneg [Zero K] (h : ∀ peak value, value ≤ peak → 0 ≤ loss peak value) :
    ∀ lost ∈ losses loss peak path, 0 ≤ lost := by
  induction path generalizing peak with
  | nil => simp [losses]
  | cons first rest ih =>
    intro lost hlost
    rcases List.mem_cons.mp hlost with rfl | hlater
    · exact h _ _ (le_max_right _ _)
    · exact ih lost hlater

/-- The greatest of values that are not negative. -/
theorem max?_eq_foldr [Zero K] {values : List K} (hne : values ≠ []) (h : ∀ value ∈ values, 0 ≤ value) :
    values.max? = some (values.foldr max 0) := by
  induction values with
  | nil => exact absurd rfl hne
  | cons first rest ih =>
    rw [List.max?_cons]
    cases rest with
    | nil => simp [h first]
    | cons second rest =>
      rw [ih (by simp) fun value hvalue => h value (List.mem_cons_of_mem _ hvalue)]
      rfl

end Losses

section Worst

variable [Zero K] {loss : K → K → K} {peak value : K} {path : List K}

@[simp] theorem worst_nil : worst loss peak [] = 0 := rfl

@[simp] theorem worst_cons : worst loss peak (value :: path) =
    max (loss (max peak value) value) (worst loss (max peak value) path) := rfl

theorem worst_nonneg (loss : K → K → K) (peak : K) (path : List K) : 0 ≤ worst loss peak path := by
  induction path generalizing peak with
  | nil => exact le_rfl
  | cons first rest ih => exact (ih _).trans (le_max_right _ _)

theorem worst_max_head (loss : K → K → K) (first : K) :
    worst loss first (value :: path) = worst loss (max first value) (value :: path) := by
  simp

/-- The losses from a greater value before the path are those from that value, where it is not passed. -/
theorem worst_max {first : K} (h : ∀ value ∈ path, ∀ peak, value ≤ peak →
      loss (max first peak) value = max (loss first value) (loss peak value)) :
    worst loss (max first peak) path = max (worst loss peak path) ((path.map (loss first)).foldr max 0) := by
  induction path generalizing peak with
  | nil => simp
  | cons value rest ih =>
    have hrest : ∀ other ∈ rest, ∀ peak, other ≤ peak →
        loss (max first peak) other = max (loss first other) (loss peak other) :=
      fun other hother => h other (List.mem_cons_of_mem _ hother)
    rw [worst_cons, worst_cons, max_assoc, h value (by simp) _ (le_max_right _ _), ih hrest, List.map_cons,
      List.foldr_cons, max_comm (loss first value), max_max_max_comm]

theorem foldr_max_le_iff {values : List K} {bound : K} :
    values.foldr max 0 ≤ bound ↔ 0 ≤ bound ∧ ∀ value ∈ values, value ≤ bound := by
  induction values with
  | nil => simp
  | cons first rest ih =>
    rw [List.foldr_cons, max_le_iff, ih]
    simp [and_left_comm]

/-- The losses from one value are greatest where the path is lowest. -/
theorem worst_max_low {first low : K} (hlow : low ∈ path) (hleast : ∀ value ∈ path, loss first value ≤ loss first low)
    (h : ∀ value ∈ path, ∀ peak, value ≤ peak →
      loss (max first peak) value = max (loss first value) (loss peak value)) :
    worst loss (max first peak) path = max (worst loss peak path) (loss first low) := by
  rw [worst_max h]
  refine eq_of_forall_ge_iff fun bound => ?_
  rw [max_le_iff, max_le_iff, foldr_max_le_iff, List.forall_mem_map]
  constructor
  · exact fun hall => ⟨hall.1, hall.2.2 low hlow⟩
  · rintro ⟨hworst, hfirst⟩
    exact ⟨hworst, (worst_nonneg loss peak path).trans hworst, fun value hvalue => (hleast value hvalue).trans hfirst⟩

end Worst

/-- The greatest fall of a path is from a value of it to a later one, or there is none. -/
theorem isGreatest_worst_sub [AddCommGroup K] [IsOrderedAddMonoid K] (peak : K) (path : List K) :
    IsGreatest {fall | fall = 0 ∨ ∃ high low, [high, low].Sublist (peak :: path) ∧ high - low = fall}
      (worst (fun high low => high - low) peak path) := by
  induction path generalizing peak with
  | nil =>
    refine ⟨.inl rfl, ?_⟩
    rintro fall (rfl | ⟨high, low, hsub, -⟩)
    · exact le_rfl
    · exact absurd hsub.length_le (by simp)
  | cons value rest ih =>
    obtain ⟨hmem, hbound⟩ := ih (max peak value)
    rw [worst_cons]
    constructor
    · -- The running peak is the value before the path, or the first of the path.
      have hhigh : max peak value = peak ∨ max peak value = value := max_choice peak value
      rcases max_choice (max peak value - value) (worst (fun high low => high - low) (max peak value) rest)
        with hmax | hmax
      · rw [hmax]
        rcases hhigh with heq | heq
        · exact .inr ⟨peak, value, by simp, by rw [heq]⟩
        · exact .inl (by rw [heq, sub_self])
      · rw [hmax]
        rcases hmem with hnone | ⟨high, low, hsub, hfall⟩
        · exact .inl hnone
        · refine .inr ⟨high, low, ?_, hfall⟩
          rcases hhigh with heq | heq
          · rw [heq] at hsub
            exact hsub.trans ((List.sublist_cons_self value rest).cons_cons peak)
          · rw [heq] at hsub
            exact hsub.trans (List.sublist_cons_self peak _)
    · have hlater : ∀ high low, high ≤ max peak value → [low].Sublist rest →
          high - low ≤ worst (fun high low => high - low) (max peak value) rest := by
        intro high low hhigh hsub
        apply (sub_le_sub_right hhigh low).trans
        exact hbound (.inr ⟨_, low, hsub.cons_cons _, rfl⟩)
      rintro fall (rfl | ⟨high, low, hsub, rfl⟩)
      · exact (sub_nonneg.mpr (le_max_right peak value)).trans (le_max_left _ _)
      rcases List.sublist_cons_iff.mp hsub with hsub | ⟨tail, heq, hsub⟩
      · rcases List.sublist_cons_iff.mp hsub with hsub | ⟨tail, heq, hsub⟩
        · exact (hbound (.inr ⟨high, low, hsub.cons _, rfl⟩)).trans (le_max_right _ _)
        · cases heq
          exact (hlater value low (le_max_right _ _) hsub).trans (le_max_right _ _)
      · cases heq
        rcases List.sublist_cons_iff.mp hsub with hsub | ⟨tail, heq, hsub⟩
        · exact (hlater peak low (le_max_left _ _) hsub).trans (le_max_right _ _)
        · cases heq
          exact (sub_le_sub_right (le_max_left _ _) _).trans (le_max_left _ _)

example : worst (fun high low : ℤ => high - low) 10 [9, 12, 8, 11] = 4 := by decide

end CryptoTrading.Kit
