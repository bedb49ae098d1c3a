import Mathlib.Algebra.Order.Ring.Int
import Mathlib.Data.List.Nodup
import Mathlib.Data.List.Perm.Subperm
import Mathlib.Data.List.Range
import Mathlib.Tactic.Linarith
import Mathlib.Tactic.Ring

/-! Arithmetic progressions of integers: the moments of a grid from a first one on. -/

namespace CryptoTrading.Kit

/-- `count` integers from `start` on, `step` apart. -/
def progression (start step : ℤ) (count : ℕ) : List ℤ :=
  (List.range count).map fun k : ℕ => start + k * step

variable {start step : ℤ} {count : ℕ} {t : ℤ}

@[simp] theorem length_progression : (progression start step count).length = count := by
  simp [progression]

theorem mem_progression_iff : t ∈ progression start step count ↔ ∃ k < count, t = start + k * step := by
  simp only [progression, List.mem_map, List.mem_range, eq_comm]

theorem progression_succ : progression start step (count + 1) =
    start :: progression (start + step) step count := by
  simp only [progression, List.range_succ_eq_map, List.map_cons, List.map_map, Nat.cast_zero, zero_mul,
    add_zero, List.cons.injEq, true_and]
  apply List.map_congr_left
  intro k _
  simp only [Function.comp_apply, Nat.succ_eq_add_one, Nat.cast_add, Nat.cast_one]
  ring

theorem progression_append (count more : ℕ) : progression start step count ++
    progression (start + count * step) step more = progression start step (count + more) := by
  simp only [progression, List.range_add, List.map_append, List.map_map, List.append_cancel_left_eq]
  apply List.map_congr_left
  intro k _
  simp only [Function.comp_apply, Nat.cast_add]
  ring

theorem nodup_progression (hstep : 0 < step) : (progression start step count).Nodup := by
  apply List.Nodup.map _ List.nodup_range
  intro k k' h
  have hmul : (k : ℤ) * step = k' * step := by linarith
  exact_mod_cast mul_right_cancel₀ hstep.ne' hmul

/-- Multiples of the step from one of them on are a progression. -/
theorem exists_eq_add_mul_iff (hstep : 0 < step) (hstart : step ∣ start) :
    (∃ k : ℕ, t = start + k * step) ↔ step ∣ t ∧ start ≤ t := by
  constructor
  · rintro ⟨k, rfl⟩
    refine ⟨Int.dvd_add hstart (Dvd.intro_left _ rfl), ?_⟩
    have hk : 0 ≤ (k : ℤ) * step := mul_nonneg (Int.natCast_nonneg k) hstep.le
    linarith
  · rintro ⟨hdvd, hle⟩
    obtain ⟨q, hq⟩ := Int.dvd_sub hdvd hstart
    have hq0 : 0 ≤ q := by
      by_contra hneg
      have : step * q < 0 := mul_neg_of_pos_of_neg hstep (not_le.mp hneg)
      linarith
    refine ⟨q.toNat, ?_⟩
    rw [Int.toNat_of_nonneg hq0]
    linarith [mul_comm step q]

/-- Neighbours that are `step` apart, from `start` on. -/
theorem eq_progression {times : List ℤ} (hsteps : ∀ pair ∈ times.zip times.tail, pair.2 - pair.1 = step)
    (hstart : ∀ first ∈ times.head?, first = start) : times = progression start step times.length := by
  induction times generalizing start with
  | nil => rfl
  | cons first rest ih =>
    obtain rfl : first = start := hstart first rfl
    rw [List.length_cons, progression_succ]
    congr 1
    apply ih
    · intro pair hpair
      cases rest with
      | nil => cases hpair
      | cons second rest => exact hsteps pair (List.mem_cons_of_mem _ hpair)
    · intro second hsecond
      cases rest with
      | nil => cases hsecond
      | cons other rest =>
        obtain rfl : other = second := Option.some.inj hsecond
        have h := hsteps (first, other) (List.mem_cons_self ..)
        simp only at h
        linarith

/-- Neighbours are related as any two members in order are. -/
theorem rel_of_mem_zip_tail {R : ℤ → ℤ → Prop} {times : List ℤ} (h : times.Pairwise R) {pair : ℤ × ℤ}
    (hpair : pair ∈ times.zip times.tail) : R pair.1 pair.2 := by
  induction times with
  | nil => cases hpair
  | cons first rest ih =>
    cases rest with
    | nil => cases hpair
    | cons second rest =>
      rw [List.pairwise_cons] at h
      rcases List.mem_cons.mp hpair with rfl | hpair
      · exact h.1 second List.mem_cons_self
      · exact ih h.2 hpair

/-- Increasing multiples of `step` whose neighbours are less than two steps apart, from `start` on. -/
theorem eq_progression_of_lt {times : List ℤ} (hstep : 0 < step) (hsorted : times.Pairwise (· < ·))
    (hdvd : ∀ t ∈ times, step ∣ t)
    (hspaced : ∀ pair ∈ times.zip times.tail, pair.2 - pair.1 < 2 * step)
    (hstart : ∀ first ∈ times.head?, first = start) : times = progression start step times.length := by
  refine eq_progression (fun pair hpair => ?_) hstart
  obtain ⟨hfirst, hsecond⟩ := List.of_mem_zip hpair
  have hlt := rel_of_mem_zip_tail hsorted hpair
  obtain ⟨q, hq⟩ := Int.dvd_sub (hdvd _ (List.mem_of_mem_tail hsecond)) (hdvd _ hfirst)
  have hless := hspaced pair hpair
  have hpos : 0 < q := by
    by_contra hneg
    have hnonpos : step * q ≤ 0 := mul_nonpos_of_nonneg_of_nonpos hstep.le (not_lt.mp hneg)
    linarith
  have hone : q < 2 := by
    by_contra hlarge
    have htwo : step * 2 ≤ step * q := mul_le_mul_of_nonneg_left (not_lt.mp hlarge) hstep.le
    linarith
  rw [hq, show q = 1 by omega, mul_one]

theorem head?_progression : ∀ t ∈ (progression start step count).head?, t = start := by
  cases count with
  | zero => exact fun _ h => by cases h
  | succ count =>
    rw [progression_succ]
    exact fun _ h => (Option.some_inj.mp h).symm

theorem getLast?_progression :
    (progression start step (count + 1)).getLast? = some (start + count * step) := by
  rw [progression, List.range_succ, List.map_append, List.map_singleton, List.getLast?_concat]

theorem sub_eq_of_mem_zip_tail {pair : ℤ × ℤ}
    (h : pair ∈ (progression start step count).zip (progression start step count).tail) :
    pair.2 - pair.1 = step := by
  induction count generalizing start with
  | zero => cases h
  | succ count ih =>
    cases count with
    | zero => cases h
    | succ count =>
      rw [progression_succ, List.tail_cons, progression_succ, List.zip_cons_cons] at h
      rcases List.mem_cons.mp h with rfl | h
      · exact add_sub_cancel_left start step
      · apply ih
        rwa [progression_succ, List.tail_cons]

theorem pairwise_lt_progression (hstep : 0 < step) : (progression start step count).Pairwise (· < ·) := by
  rw [progression, List.pairwise_map]
  refine List.pairwise_lt_range.imp fun {k k'} hlt => ?_
  have hmul : (k : ℤ) * step < k' * step := mul_lt_mul_of_pos_right (by exact_mod_cast hlt) hstep
  linarith

/-- A progression reaches up to any bound. -/
theorem exists_count (hstep : 0 < step) (start bound : ℤ) :
    ∃ count : ℕ, ∀ k : ℕ, k < count ↔ start + k * step < bound := by
  refine ⟨((bound - start + step - 1) / step).toNat, fun k => ?_⟩
  rw [Int.lt_toNat, Int.lt_iff_add_one_le, Int.le_ediv_iff_mul_le hstep, add_mul, one_mul]
  constructor <;> intro h <;> linarith

/-- An increasing list of all multiples of the step from one of them up to a bound. -/
theorem exists_eq_progression {times : List ℤ} {bound : ℤ} (hstep : 0 < step) (hstart : step ∣ start)
    (hsorted : times.Pairwise (· < ·)) (hmem : ∀ t, t ∈ times ↔ step ∣ t ∧ start ≤ t ∧ t < bound) :
    times = progression start step times.length := by
  obtain ⟨count, hcount⟩ := exists_count hstep start bound
  have hperm : times.Perm (progression start step count) := by
    rw [List.perm_ext_iff_of_nodup (hsorted.imp fun h => h.ne) (nodup_progression hstep)]
    intro t
    rw [hmem, mem_progression_iff, ← and_assoc, ← exists_eq_add_mul_iff hstep hstart]
    constructor
    · rintro ⟨⟨k, rfl⟩, hlt⟩
      exact ⟨k, (hcount k).mpr hlt, rfl⟩
    · rintro ⟨k, hk, rfl⟩
      exact ⟨⟨k, rfl⟩, (hcount k).mp hk⟩
  have heq : times = progression start step count :=
    hperm.eq_of_pairwise (fun a b _ _ h h' => absurd h (lt_asymm h')) hsorted
      (pairwise_lt_progression hstep)
  rw [heq, length_progression]

/-- The largest is the last. -/
theorem max?_progression (hstep : 0 < step) :
    (progression start step (count + 1)).max? = some (start + count * step) := by
  rw [List.max?_eq_some_iff]
  refine ⟨mem_progression_iff.mpr ⟨count, Nat.lt_succ_self count, rfl⟩, fun t h => ?_⟩
  obtain ⟨k, hk, rfl⟩ := mem_progression_iff.mp h
  have hle : (k : ℤ) * step ≤ count * step :=
    mul_le_mul_of_nonneg_right (by exact_mod_cast Nat.le_of_lt_succ hk) hstep.le
  linarith

/-- The members of a progression that ends where a bound is passed are those below the bound. -/
theorem mem_progression_iff_lt {bound : ℤ} (hstep : 0 < step)
    (hbelow : ∀ t ∈ progression start step count, t < bound) (hpassed : bound ≤ start + count * step) :
    t ∈ progression start step count ↔ ∃ k : ℕ, t = start + k * step ∧ t < bound := by
  constructor
  · intro h
    obtain ⟨k, -, ht⟩ := mem_progression_iff.mp h
    exact ⟨k, ht, hbelow t h⟩
  · rintro ⟨k, rfl, hlt⟩
    refine mem_progression_iff.mpr ⟨k, ?_, rfl⟩
    by_contra hk
    have hle : (count : ℤ) * step ≤ k * step :=
      mul_le_mul_of_nonneg_right (by exact_mod_cast not_lt.mp hk) hstep.le
    linarith

/-- So many multiples of the step, at most, lie between two that are `count` apart. -/
theorem length_le_of_dvd {times : List ℤ} (hstep : 0 < step) (hnodup : times.Nodup) (hstart : step ∣ start)
    (hdvd : ∀ t ∈ times, step ∣ t) (hlow : ∀ t ∈ times, start ≤ t)
    (hhigh : ∀ t ∈ times, t < start + count * step) : times.length ≤ count := by
  have hsubset : times ⊆ progression start step count := by
    intro t ht
    obtain ⟨k, rfl⟩ := (exists_eq_add_mul_iff hstep hstart).mpr ⟨hdvd t ht, hlow t ht⟩
    refine mem_progression_iff.mpr ⟨k, ?_, rfl⟩
    by_contra hk
    have hle : (count : ℤ) * step ≤ k * step :=
      mul_le_mul_of_nonneg_right (by exact_mod_cast not_lt.mp hk) hstep.le
    linarith [hhigh _ ht]
  simpa using (List.subperm_of_subset hnodup hsubset).length_le

/-- The grid of `start` from its next moment on, up to the last that is a step before `stop`. -/
theorem mem_progression_between {stop : ℤ} (hstep : 0 < step) :
    t ∈ progression (start + step) step ((stop - start).tdiv step - 1).toNat ↔
      step ∣ t - start ∧ start < t ∧ t + step ≤ stop := by
  have hcount : ∀ k : ℕ, k < ((stop - start).tdiv step - 1).toNat ↔ start + step + k * step + step ≤ stop := by
    intro k
    rcases lt_or_ge stop start with hbefore | hafter
    · have hnone : (stop - start).tdiv step ≤ 0 := by
        have h : 0 ≤ (start - stop).tdiv step := Int.tdiv_nonneg (by omega) hstep.le
        rw [show stop - start = -(start - stop) by ring, Int.neg_tdiv]
        omega
      have hk : 0 ≤ (k : ℤ) * step := mul_nonneg (Int.natCast_nonneg k) hstep.le
      constructor <;> intro h <;> omega
    · rw [Int.tdiv_eq_ediv_of_nonneg (by omega), Int.lt_toNat]
      have hle : ((k : ℤ) + 2 ≤ (stop - start) / step) ↔ ((k : ℤ) + 2) * step ≤ stop - start :=
        Int.le_ediv_iff_mul_le hstep
      have hmul : ((k : ℤ) + 2) * step = k * step + 2 * step := by ring
      omega
  rw [mem_progression_iff]
  constructor
  · rintro ⟨k, hk, rfl⟩
    have hnonneg : 0 ≤ (k : ℤ) * step := mul_nonneg (Int.natCast_nonneg k) hstep.le
    refine ⟨⟨k + 1, by ring⟩, by omega, (hcount k).mp hk⟩
  · rintro ⟨hdvd, hlt, hle⟩
    have hmultiple : ∃ k : ℕ, t - start = step + k * step :=
      (exists_eq_add_mul_iff hstep dvd_rfl).mpr ⟨hdvd, Int.le_of_dvd (by omega) hdvd⟩
    obtain ⟨k, hk⟩ := hmultiple
    refine ⟨k, (hcount k).mpr ?_, ?_⟩ <;> omega

end CryptoTrading.Kit
