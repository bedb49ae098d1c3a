import Mathlib.Algebra.Order.Field.Basic
import Mathlib.Order.Bounds.Basic
import Mathlib.Data.List.GetD
import Mathlib.Data.List.Induction
import Mathlib.Tactic.Linarith

/-! The drawdowns of a path of values: at each of its points, what the value has lost of the greatest one so
far, as a share of that one.  The greatest of them is kept as the path grows. -/

namespace CryptoTrading.Kit

variable {K : Type} [Field K] [LinearOrder K]

/-- The greatest value of a path. -/
def peak (path : List K) : K := path.foldl max (path.headD 0)

/-- The drawdown at a point of a path, from the greatest value up to it. -/
def drawdownAt (path : List K) (i : ℕ) : K :=
  (peak (path.take (i + 1)) - path.getD i 0) / peak (path.take (i + 1))

/-- The greatest drawdown over the points of a path. -/
def IsMaxDrawdown (path : List K) (drawdown : K) : Prop :=
  IsGreatest {value | ∃ i < path.length, drawdownAt path i = value} drawdown

variable {path : List K} {value drawdown : K}

@[simp] theorem peak_singleton (value : K) : peak [value] = value := max_self value

theorem peak_append_singleton (h : path ≠ []) (value : K) :
    peak (path ++ [value]) = max (peak path) value := by
  obtain ⟨first, rest, rfl⟩ := List.exists_cons_of_ne_nil h
  rw [peak, List.foldl_append]
  rfl

theorem drawdownAt_append {i : ℕ} (h : i < path.length) (more : List K) :
    drawdownAt (path ++ more) i = drawdownAt path i := by
  rw [drawdownAt, drawdownAt, List.take_append_of_le_length h, List.getD_append _ _ _ _ h]

theorem drawdownAt_last (path : List K) (value : K) :
    drawdownAt (path ++ [value]) path.length =
      (peak (path ++ [value]) - value) / peak (path ++ [value]) := by
  have hlength : (path ++ [value]).take (path.length + 1) = path ++ [value] :=
    List.take_of_length_le (by simp)
  have hget : (path ++ [value]).getD path.length 0 = value := by simp
  rw [drawdownAt, hlength, hget]

theorem isMaxDrawdown_singleton (value : K) : IsMaxDrawdown [value] 0 := by
  have hzero : drawdownAt [value] 0 = 0 := by simp [drawdownAt]
  refine ⟨⟨0, Nat.one_pos, hzero⟩, ?_⟩
  rintro _ ⟨i, hi, rfl⟩
  cases Nat.lt_one_iff.mp hi
  exact hzero.le

/-- The greatest drawdown of a path that goes on is the greater of that so far and that at its end. -/
theorem IsMaxDrawdown.append_singleton (h : IsMaxDrawdown path drawdown) (value : K) :
    IsMaxDrawdown (path ++ [value])
      (max drawdown ((peak (path ++ [value]) - value) / peak (path ++ [value]))) := by
  have hmem : path.length < (path ++ [value]).length := by simp
  constructor
  · rcases max_choice drawdown ((peak (path ++ [value]) - value) / peak (path ++ [value]))
      with hmax | hmax
    · obtain ⟨i, hi, heq⟩ := h.1
      rw [hmax]
      exact ⟨i, hi.trans hmem, (drawdownAt_append hi _).trans heq⟩
    · rw [hmax]
      exact ⟨path.length, hmem, drawdownAt_last path value⟩
  · rintro _ ⟨i, hi, rfl⟩
    rw [List.length_append, List.length_singleton] at hi
    rcases Nat.lt_or_eq_of_le (Nat.le_of_lt_succ hi) with hlt | rfl
    · rw [drawdownAt_append hlt]
      exact (h.2 ⟨i, hlt, rfl⟩).trans (le_max_left _ _)
    · rw [drawdownAt_last]
      exact le_max_right _ _

/-- A path that goes on keeps its greatest drawdown exactly when that at its end is no greater. -/
theorem IsMaxDrawdown.append_singleton_iff (h : IsMaxDrawdown path drawdown) (value : K) :
    IsMaxDrawdown (path ++ [value]) drawdown ↔
      (peak (path ++ [value]) - value) / peak (path ++ [value]) ≤ drawdown := by
  constructor
  · intro hsame
    exact max_eq_left_iff.mp ((h.append_singleton value).unique hsame)
  · intro hle
    have hgreatest := h.append_singleton value
    rwa [max_eq_left hle] at hgreatest

theorem IsMaxDrawdown.nonneg (h : IsMaxDrawdown (value :: path) drawdown) : 0 ≤ drawdown := by
  have hfirst : drawdownAt (value :: path) 0 = 0 := by simp [drawdownAt]
  exact hfirst.symm.trans_le (h.2 ⟨0, Nat.zero_lt_succ _, rfl⟩)

theorem le_peak_cons (first : K) (rest : List K) : first ≤ peak (first :: rest) := by
  induction rest using List.reverseRecOn with
  | nil => exact (peak_singleton first).ge
  | append_singleton rest last ih =>
    rw [← List.cons_append, peak_append_singleton (List.cons_ne_nil _ _)]
    exact ih.trans (le_max_left _ _)

variable [IsStrictOrderedRing K]

theorem drawdownAt_le_one {first : K} {rest : List K} (hpos : 0 < first)
    (hnonneg : ∀ value ∈ first :: rest, 0 ≤ value) {i : ℕ} (h : i < (first :: rest).length) :
    drawdownAt (first :: rest) i ≤ 1 := by
  have hpeak : 0 < peak ((first :: rest).take (i + 1)) := hpos.trans_le (le_peak_cons _ _)
  rw [drawdownAt, div_le_one hpeak, List.getD_eq_getElem _ _ h]
  exact sub_le_self _ (hnonneg _ (List.getElem_mem h))

theorem IsMaxDrawdown.le_one {first : K} {rest : List K}
    (h : IsMaxDrawdown (first :: rest) drawdown) (hpos : 0 < first)
    (hnonneg : ∀ value ∈ first :: rest, 0 ≤ value) : drawdown ≤ 1 := by
  obtain ⟨i, hi, rfl⟩ := h.1
  exact drawdownAt_le_one hpos hnonneg hi

/-- The drawdown at the end is within a share of the peak when the value is at least the rest of it. -/
theorem drawdown_le_iff (hpeak : 0 < peak path) (hpath : path ≠ []) (hdrawdown : 0 ≤ drawdown)
    (value : K) :
    (peak (path ++ [value]) - value) / peak (path ++ [value]) ≤ drawdown ↔
      (1 - drawdown) * peak path ≤ value := by
  rw [peak_append_singleton hpath]
  rcases le_total (peak path) value with hrise | hfall
  · have hvalue : value ≠ 0 := (hpeak.trans_le hrise).ne'
    rw [max_eq_right hrise, sub_self, zero_div]
    refine iff_of_true hdrawdown ?_
    have hpart : 0 ≤ drawdown * peak path := mul_nonneg hdrawdown hpeak.le
    linarith
  · rw [max_eq_left hfall, div_le_iff₀ hpeak]
    constructor <;> intro h <;> linarith

end CryptoTrading.Kit
