import Mathlib.Algebra.Order.Floor.Ring
import Mathlib.Algebra.Order.Floor.Semiring
import Mathlib.Data.List.Sort
import Mathlib.Tactic.Linarith

/-! Order statistics: the entries of a sorted list by the numbers of entries that are not beyond a bound,
and the value at a position between two of them. -/

namespace CryptoTrading.Kit

section Order

variable {α : Type} [LinearOrder α]

/-- An entry of a list in order is not beyond a bound when more entries than those before it are not. -/
theorem getElem_le_iff_countP {ordered : List α} (h : ordered.Pairwise (· ≤ ·)) {k : ℕ}
    (hk : k < ordered.length) (bound : α) :
    ordered[k] ≤ bound ↔ k < ordered.countP fun a => decide (a ≤ bound) := by
  induction ordered generalizing k with
  | nil => cases hk
  | cons a rest ih =>
    obtain ⟨hfirst, hrest⟩ := List.pairwise_cons.mp h
    by_cases ha : a ≤ bound
    · have hcount : (a :: rest).countP (fun a => decide (a ≤ bound)) =
          rest.countP (fun a => decide (a ≤ bound)) + 1 := by
        simp [ha]
      rw [hcount]
      cases k with
      | zero => exact iff_of_true ha (Nat.succ_pos _)
      | succ k =>
        rw [List.getElem_cons_succ, ih hrest (Nat.lt_of_succ_lt_succ hk)]
        exact Nat.succ_lt_succ_iff.symm
    · -- No entry after one that is beyond the bound is within it.
      have hnone : (a :: rest).countP (fun a => decide (a ≤ bound)) = 0 := by
        refine List.countP_eq_zero.mpr fun b hb hle => ?_
        have hle := of_decide_eq_true hle
        rcases List.mem_cons.mp hb with rfl | hb
        · exact ha hle
        · exact ha ((hfirst b hb).trans hle)
      rw [hnone]
      refine iff_of_false (fun hle => ?_) (Nat.not_lt_zero k)
      cases k with
      | zero => exact ha hle
      | succ k => exact ha ((hfirst _ (List.getElem_mem _)).trans hle)

theorem getElem_mono {ordered : List α} (h : ordered.Pairwise (· ≤ ·)) {i j : ℕ} (hij : i ≤ j)
    (hj : j < ordered.length) : ordered[i] ≤ ordered[j] := by
  rcases Nat.lt_or_eq_of_le hij with hlt | rfl
  · exact List.pairwise_iff_getElem.mp h i j _ hj hlt
  · exact le_rfl

theorem getD_mono {ordered : List α} (h : ordered.Pairwise (· ≤ ·)) {i j : ℕ} (hij : i ≤ j)
    (hj : j < ordered.length) (missing : α) : ordered.getD i missing ≤ ordered.getD j missing := by
  rw [List.getD_eq_getElem?_getD, List.getD_eq_getElem?_getD,
    List.getElem?_eq_getElem (hij.trans_lt hj), List.getElem?_eq_getElem hj]
  exact getElem_mono h hij hj

theorem pairwise_sorted (values : List α) : (values.mergeSort (· ≤ ·)).Pairwise (· ≤ ·) :=
  List.pairwise_mergeSort' (· ≤ ·) values

theorem sorted_eq_of_perm {values other : List α} (h : values.Perm other) :
    values.mergeSort (· ≤ ·) = other.mergeSort (· ≤ ·) := by
  refine List.Perm.eq_of_pairwise (fun a b _ _ => le_antisymm) (pairwise_sorted _)
    (pairwise_sorted _) ?_
  exact ((List.mergeSort_perm _ _).trans h).trans (List.mergeSort_perm _ _).symm

/-- Entries that are raised raise the entry at every place of the sorted list. -/
theorem sorted_le_sorted {values raised : List α} (h : List.Forall₂ (· ≤ ·) values raised) {k : ℕ}
    (hk : k < (values.mergeSort (· ≤ ·)).length) (hk' : k < (raised.mergeSort (· ≤ ·)).length) :
    (values.mergeSort (· ≤ ·))[k] ≤ (raised.mergeSort (· ≤ ·))[k] := by
  have hcount : ∀ bound : α, raised.countP (fun a => decide (a ≤ bound)) ≤
      values.countP fun a => decide (a ≤ bound) := by
    intro bound
    clear hk hk'
    induction h with
    | nil => exact le_rfl
    | @cons a b rest rest' hab _ ih =>
      simp only [List.countP_cons]
      refine Nat.add_le_add ih ?_
      by_cases hb : b ≤ bound
      · simp [hb, hab.trans hb]
      · simp [hb]
  rw [getElem_le_iff_countP (pairwise_sorted values) hk, (List.mergeSort_perm values _).countP_eq]
  refine Nat.lt_of_lt_of_le ?_ (hcount _)
  rw [← (List.mergeSort_perm raised (· ≤ ·)).countP_eq]
  exact (getElem_le_iff_countP (pairwise_sorted raised) hk' _).mp le_rfl

end Order

section Interpolation

variable {K : Type} [Field K] [LinearOrder K] [FloorRing K]

/-- The place of the entry at or before a position. -/
def lowerPlace (position : K) : ℕ := ⌊position⌋.toNat

/-- The place of the next entry, or of the last one. -/
def upperPlace (length : ℕ) (position : K) : ℕ := min (lowerPlace position + 1) (length - 1)

/-- The value at a position: that of the entry at or before it, and the share of the way to the next. -/
def interpolated (ordered : List K) (position : K) : K :=
  let low := ordered.getD (lowerPlace position) 0
  low + (ordered.getD (upperPlace ordered.length position) 0 - low) *
    (position - lowerPlace position)

/-- A position within a list of that length. -/
structure Inside (length : ℕ) (position : K) : Prop where
  nonneg : 0 ≤ position
  le_last : position ≤ ((length - 1 : ℕ) : K)
  pos : 0 < length

variable {ordered raised : List K} {position other : K} {length : ℕ}

theorem lowerPlace_le (h : 0 ≤ position) : (lowerPlace position : K) ≤ position := by
  rw [lowerPlace, Int.floor_toNat]
  exact Nat.floor_le h

theorem lt_lowerPlace_add_one (position : K) : position < lowerPlace position + 1 := by
  rw [lowerPlace, Int.floor_toNat]
  exact Nat.lt_floor_add_one position

theorem Inside.upper_lt (h : Inside length position) : upperPlace length position < length :=
  (Nat.min_le_right _ _).trans_lt (Nat.sub_lt h.pos Nat.one_pos)

variable [IsStrictOrderedRing K]

theorem lowerPlace_mono (h : position ≤ other) : lowerPlace position ≤ lowerPlace other := by
  rw [lowerPlace, lowerPlace, Int.floor_toNat, Int.floor_toNat]
  exact Nat.floor_mono h

theorem Inside.lower_le (h : Inside length position) : lowerPlace position ≤ length - 1 :=
  Nat.cast_le.mp ((lowerPlace_le h.nonneg).trans h.le_last)

theorem Inside.lower_lt (h : Inside length position) : lowerPlace position < length :=
  h.lower_le.trans_lt (Nat.sub_lt h.pos Nat.one_pos)

theorem Inside.lower_le_upper (h : Inside length position) :
    lowerPlace position ≤ upperPlace length position :=
  le_min (Nat.le_succ _) h.lower_le

theorem interpolated_mem_Icc (hordered : ordered.Pairwise (· ≤ ·))
    (h : Inside ordered.length position) :
    ordered.getD (lowerPlace position) 0 ≤ interpolated ordered position ∧
      interpolated ordered position ≤ ordered.getD (upperPlace ordered.length position) 0 := by
  have hway := sub_nonneg.mpr (getD_mono hordered h.lower_le_upper h.upper_lt 0)
  have hshare := sub_nonneg.mpr (lowerPlace_le h.nonneg)
  have hshare' : position - lowerPlace position ≤ 1 := by
    linarith [lt_lowerPlace_add_one position]
  rw [interpolated]
  constructor
  · exact le_add_of_nonneg_right (mul_nonneg hway hshare)
  · have hpart := mul_le_of_le_one_right hway hshare'
    linarith

/-- The value grows with the position. -/
theorem interpolated_mono (hordered : ordered.Pairwise (· ≤ ·))
    (h : Inside ordered.length position) (h' : Inside ordered.length other)
    (hle : position ≤ other) : interpolated ordered position ≤ interpolated ordered other := by
  rcases Nat.lt_or_eq_of_le (lowerPlace_mono hle) with hlt | heq
  · -- The next entry is no later than the one at or before the later position.
    have hupper : upperPlace ordered.length position ≤ lowerPlace other :=
      (Nat.min_le_left _ _).trans hlt
    calc interpolated ordered position
        ≤ ordered.getD (upperPlace ordered.length position) 0 :=
          (interpolated_mem_Icc hordered h).2
      _ ≤ ordered.getD (lowerPlace other) 0 := getD_mono hordered hupper h'.lower_lt 0
      _ ≤ interpolated ordered other := (interpolated_mem_Icc hordered h').1
  · have hway := sub_nonneg.mpr (getD_mono hordered h.lower_le_upper h.upper_lt 0)
    have hupper : upperPlace ordered.length other = upperPlace ordered.length position := by
      rw [upperPlace, upperPlace, heq]
    have hshare := mul_le_mul_of_nonneg_left (sub_le_sub_right hle (lowerPlace position : K)) hway
    rw [interpolated, interpolated, hupper, ← heq]
    linarith

/-- The value grows with the entries. -/
theorem interpolated_le (h : Inside ordered.length position)
    (hlength : raised.length = ordered.length)
    (hle : ∀ k < ordered.length, ordered.getD k 0 ≤ raised.getD k 0) :
    interpolated ordered position ≤ interpolated raised position := by
  have hshare := sub_nonneg.mpr (lowerPlace_le h.nonneg)
  have hshare' : 0 ≤ 1 - (position - lowerPlace position) := by
    linarith [lt_lowerPlace_add_one position]
  have hlow := mul_le_mul_of_nonneg_right (hle _ h.lower_lt) hshare'
  have hhigh := mul_le_mul_of_nonneg_right (hle _ h.upper_lt) hshare
  rw [interpolated, interpolated, hlength]
  linarith

end Interpolation

end CryptoTrading.Kit
