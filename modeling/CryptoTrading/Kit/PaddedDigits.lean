import Mathlib.Algebra.Order.Ring.Int
import Mathlib.Data.List.Basic
import Mathlib.Tactic.NormNum

/-! Numbers as texts of a fixed number of decimal digits.  Texts of one width are in the order of their
numbers, and so are the joined texts of several parts. -/

namespace CryptoTrading.Kit.PaddedDigits

/-- The last digit of a number. -/
def digit (n : ℤ) : Char := Char.ofNat (48 + (n % 10).toNat)

/-- The last `width` digits of a number. -/
def padded : ℕ → ℤ → List Char
  | 0, _ => []
  | width + 1, n => padded width (n / 10) ++ [digit n]

theorem toNat_digit (n : ℤ) : (digit n).toNat = 48 + (n % 10).toNat := by
  have hvalid : (48 + (n % 10).toNat).isValidChar := Or.inl (by omega)
  rw [digit, Char.ofNat, dif_pos hvalid]
  rfl

theorem digit_lt_digit_iff {m n : ℤ} : digit m < digit n ↔ m % 10 < n % 10 := by
  have h : digit m < digit n ↔ (digit m).toNat < (digit n).toNat := Iff.rfl
  rw [h, toNat_digit, toNat_digit]
  omega

theorem digit_inj {m n : ℤ} : digit m = digit n ↔ m % 10 = n % 10 := by
  rw [← Char.toNat_inj, toNat_digit, toNat_digit]
  omega

@[simp] theorem length_padded (width : ℕ) (n : ℤ) : (padded width n).length = width := by
  induction width generalizing n with
  | zero => rfl
  | succ width ih => simp [padded, ih]

/-- Joined texts whose first parts are of one length are in the order of the parts. -/
theorem append_lt_append_iff {xs ys zs ws : List Char} (h : xs.length = ys.length) :
    xs ++ zs < ys ++ ws ↔ xs < ys ∨ xs = ys ∧ zs < ws := by
  induction xs generalizing ys with
  | nil =>
    rw [List.length_nil, eq_comm, List.length_eq_zero_iff] at h
    simp [h]
  | cons x xs ih =>
    cases ys with
    | nil => simp at h
    | cons y ys =>
      rw [List.cons_append, List.cons_append, List.cons_lt_cons_iff, List.cons_lt_cons_iff,
        ih (Nat.succ.inj h), List.cons.injEq]
      tauto

theorem padded_inj {width : ℕ} {m n : ℤ} (hm : 0 ≤ m ∧ m < 10 ^ width) (hn : 0 ≤ n ∧ n < 10 ^ width) :
    padded width m = padded width n ↔ m = n := by
  induction width generalizing m n with
  | zero =>
    rw [pow_zero] at hm hn
    simp only [padded, true_iff]
    omega
  | succ width ih =>
    rw [pow_succ] at hm hn
    have hrest := ih (m := m / 10) (n := n / 10) (by omega) (by omega)
    have hparts : padded (width + 1) m = padded (width + 1) n ↔
        padded width (m / 10) = padded width (n / 10) ∧ digit m = digit n := by
      simp [padded]
    rw [hparts, hrest, digit_inj]
    omega

/-- Texts of one width are in the order of their numbers. -/
theorem padded_lt_padded_iff {width : ℕ} {m n : ℤ} (hm : 0 ≤ m ∧ m < 10 ^ width)
    (hn : 0 ≤ n ∧ n < 10 ^ width) : padded width m < padded width n ↔ m < n := by
  induction width generalizing m n with
  | zero =>
    rw [pow_zero] at hm hn
    simp only [padded, List.lt_irrefl, false_iff]
    omega
  | succ width ih =>
    rw [pow_succ] at hm hn
    have hrest : (0 ≤ m / 10 ∧ m / 10 < 10 ^ width) ∧ 0 ≤ n / 10 ∧ n / 10 < 10 ^ width := by omega
    have hdigit : [digit m] < [digit n] ↔ m % 10 < n % 10 := by
      rw [List.cons_lt_cons_iff, digit_lt_digit_iff]
      simp
    rw [padded, padded, append_lt_append_iff (by simp), ih hrest.1 hrest.2,
      padded_inj hrest.1 hrest.2, hdigit]
    omega

example : padded 4 2026 = ['2', '0', '2', '6'] := by decide

end CryptoTrading.Kit.PaddedDigits
