import CryptoTrading.Backtest.WalkForward
import CryptoTrading.Kit.OrderStatistics

/-! `_percentile` interpolates between two order statistics, and never reads beyond the list. -/

namespace CryptoTrading

open Kit

variable {values : List Decimal} {q : Decimal}

/-- `_percentile` with the subscripts of Python, or `none` where one of them is out of range. -/
def percentile? (values : List Decimal) (q : Decimal) : Option (Except WalkForwardError Decimal) :=
  if values.isEmpty then some (.error .emptyPercentile)
  else if q < 0 ∨ q > 1 then some (.error .percentileOutOfRange)
  else
    let ordered := values.mergeSort
    if ordered.length = 1 then ordered[0]?.map .ok
    else do
      let position := ((ordered.length - 1 : ℕ) : Decimal) * q
      let lower := ⌊position⌋.toNat
      let upper := min (lower + 1) (ordered.length - 1)
      let fraction := position - lower
      let low ← ordered[lower]?
      let high ← ordered[upper]?
      some (.ok (low + (high - low) * fraction))

/-- The position of a percentile in the sorted list. -/
def percentilePosition (values : List Decimal) (q : Decimal) : Decimal :=
  ((values.length - 1 : ℕ) : Decimal) * q

theorem inside_percentile (hvalues : values ≠ []) (hq : 0 ≤ q) (hq' : q ≤ 1) :
    Inside values.length (percentilePosition values q) :=
  ⟨mul_nonneg (Nat.cast_nonneg _) hq, mul_le_of_le_one_right (Nat.cast_nonneg _) hq',
    List.length_pos_iff.mpr hvalues⟩

/-- A list of one value is no exception. -/
theorem percentile_eq (hvalues : values ≠ []) (hq : 0 ≤ q) (hq' : q ≤ 1) :
    percentile values q = .ok (interpolated values.mergeSort (percentilePosition values q)) := by
  have hempty : values.isEmpty = false := List.isEmpty_eq_false_iff.mpr hvalues
  have hrange : ¬(q < 0 ∨ q > 1) := not_or.mpr ⟨not_lt.mpr hq, not_lt.mpr hq'⟩
  rw [percentile, hempty, if_neg Bool.false_ne_true, if_neg hrange]
  dsimp only
  split
  · rename_i hone
    have hlength : values.length = 1 := by rwa [List.length_mergeSort] at hone
    simp [interpolated, percentilePosition, lowerPlace, upperPlace, hlength]
  · simp only [interpolated, percentilePosition, lowerPlace, upperPlace, List.length_mergeSort]

theorem percentile?_eq (hvalues : values ≠ []) (hq : 0 ≤ q) (hq' : q ≤ 1) :
    percentile? values q = some (percentile values q) := by
  have hempty : values.isEmpty = false := List.isEmpty_eq_false_iff.mpr hvalues
  have hrange : ¬(q < 0 ∨ q > 1) := not_or.mpr ⟨not_lt.mpr hq, not_lt.mpr hq'⟩
  have hinside := inside_percentile hvalues hq hq'
  have hget : ∀ k < values.length, values.mergeSort[k]? = some (values.mergeSort.getD k 0) := by
    intro k hk
    have hk : k < values.mergeSort.length := by rwa [List.length_mergeSort]
    rw [List.getD_eq_getElem?_getD, List.getElem?_eq_getElem hk]
    rfl
  rw [percentile?, percentile, hempty, if_neg Bool.false_ne_true, if_neg Bool.false_ne_true,
    if_neg hrange, if_neg hrange]
  dsimp only
  split
  · rw [hget 0 hinside.pos]
    rfl
  · simp only [List.length_mergeSort]
    have hlower := hget _ hinside.lower_lt
    have hupper := hget _ hinside.upper_lt
    simp only [lowerPlace, upperPlace, percentilePosition] at hlower hupper
    rw [hlower, hupper]
    rfl

/-! ### The laws of the value -/

variable {value value' : Decimal}

theorem mergeSort_getD_mem {k : ℕ} (hk : k < values.mergeSort.length) : values.mergeSort.getD k 0 ∈ values := by
  rw [List.getD_eq_getElem?_getD, List.getElem?_eq_getElem hk]
  exact List.mem_mergeSort.mp (List.getElem_mem hk)

theorem inside_sorted (hvalues : values ≠ []) (hq : 0 ≤ q) (hq' : q ≤ 1) :
    Inside values.mergeSort.length (percentilePosition values q) :=
  (List.length_mergeSort values).symm ▸ inside_percentile hvalues hq hq'

/-- The value lies between two entries of the list. -/
theorem percentile_between (hvalues : values ≠ []) (hq : 0 ≤ q) (hq' : q ≤ 1)
    (h : percentile values q = .ok value) : ∃ low ∈ values, ∃ high ∈ values, low ≤ value ∧ value ≤ high := by
  rw [percentile_eq hvalues hq hq'] at h
  cases h
  have hinside := inside_sorted hvalues hq hq'
  have hbetween := interpolated_mem_Icc (pairwise_sorted values) hinside
  exact ⟨_, mergeSort_getD_mem hinside.lower_lt, _, mergeSort_getD_mem hinside.upper_lt,
    hbetween.1, hbetween.2⟩

theorem percentile_perm (hvalues : values ≠ []) (hq : 0 ≤ q) (hq' : q ≤ 1) {other : List Decimal}
    (hperm : values.Perm other) : percentile other q = percentile values q := by
  have hother : other ≠ [] := by
    rintro rfl
    exact hvalues hperm.eq_nil
  rw [percentile_eq hother hq hq', percentile_eq hvalues hq hq', percentilePosition, ← hperm.length_eq,
    ← sorted_eq_of_perm hperm]
  rfl

theorem percentile_mono (hvalues : values ≠ []) (hq : 0 ≤ q) {later : Decimal} (hle : q ≤ later)
    (h : percentile values q = .ok value) (hlater : percentile values later = .ok value') :
    value ≤ value' := by
  by_cases hlate : later ≤ 1
  · rw [percentile_eq hvalues hq (hle.trans hlate)] at h
    rw [percentile_eq hvalues (hq.trans hle) hlate] at hlater
    cases h
    cases hlater
    exact interpolated_mono (pairwise_sorted values) (inside_sorted hvalues hq (hle.trans hlate))
      (inside_sorted hvalues (hq.trans hle) hlate) (mul_le_mul_of_nonneg_left hle (Nat.cast_nonneg _))
  · have hempty : values.isEmpty = false := List.isEmpty_eq_false_iff.mpr hvalues
    rw [percentile, hempty, if_neg Bool.false_ne_true, if_pos (.inr (not_le.mp hlate))] at hlater
    cases hlater

theorem percentile_le_of_forall₂ (hvalues : values ≠ []) (hq : 0 ≤ q) (hq' : q ≤ 1)
    {raised : List Decimal} (hraised : List.Forall₂ (· ≤ ·) values raised)
    (h : percentile values q = .ok value) (hvalue' : percentile raised q = .ok value') :
    value ≤ value' := by
  have hsame := hraised.length_eq
  have hne : raised ≠ [] := by
    rintro rfl
    exact hvalues (List.length_eq_zero_iff.mp hsame)
  rw [percentile_eq hvalues hq hq'] at h
  rw [percentile_eq hne hq hq', percentilePosition, ← hsame] at hvalue'
  cases h
  cases hvalue'
  refine interpolated_le (inside_sorted hvalues hq hq') ?_ fun k hk => ?_
  · rw [List.length_mergeSort, List.length_mergeSort, hsame]
  · have hk' : k < raised.mergeSort.length := by
      rw [List.length_mergeSort, ← hsame, ← List.length_mergeSort values]
      exact hk
    rw [List.getD_eq_getElem?_getD, List.getD_eq_getElem?_getD, List.getElem?_eq_getElem hk,
      List.getElem?_eq_getElem hk']
    exact sorted_le_sorted hraised hk hk'

end CryptoTrading
