import Mathlib.Algebra.BigOperators.Ring.List
import Mathlib.Algebra.Order.BigOperators.Group.List
import Mathlib.Algebra.Order.Field.Basic
import Mathlib.Data.List.Basic
import Mathlib.Data.List.Induction
import Mathlib.Tactic.Linarith
import Mathlib.Tactic.Ring

/-! Recursive averages: a smoothing step over a list of values, seeded with the mean of the first of
them.  Such an average depends on everything since its seed. -/

namespace CryptoTrading.Kit

section Average

variable {K : Type*} [DivisionRing K]

/-- The mean of the first `period` values. -/
def seed (period : ℕ) (values : List K) : K := (values.take period).sum / period

/-- The average after all values. -/
def smoothed (step : K → K → K) (period : ℕ) (values : List K) : K :=
  (values.drop period).foldl step (seed period values)

/-- The averages after each value, from the one that completes the seed on. -/
def smoothedSeries (step : K → K → K) (period : ℕ) (values : List K) : List (Option K) :=
  if values.length < period then List.replicate values.length none
  else List.replicate (period - 1) none ++
    ((values.drop period).scanl step (seed period values)).map some

theorem length_smoothedSeries (step : K → K → K) {period : ℕ} (hperiod : 0 < period)
    (values : List K) : (smoothedSeries step period values).length = values.length := by
  unfold smoothedSeries
  split
  · exact List.length_replicate
  · simp only [List.length_append, List.length_replicate, List.length_map, List.length_scanl,
      List.length_drop]
    omega

/-- A series of which the first `period` values are missing, and the others those of a scan. -/
theorem getElem?_padded_scanl {α β γ : Type*} (step : α → β → α) (start : α) (output : α → γ)
    (values : List β) {period index : ℕ} (h : index ≤ period + values.length) :
    (List.replicate period none ++ (values.scanl step start).map fun state => some (output state))[index]? =
      some (if index < period then none
        else some (output ((values.take (index - period)).foldl step start))) := by
  split
  · rename_i hindex
    rw [List.getElem?_append_left (by simpa using hindex), List.getElem?_replicate_of_lt hindex]
  · rename_i hindex
    rw [List.getElem?_append_right (by simpa using hindex), List.length_replicate, List.getElem?_map,
      List.getElem?_scanl, if_pos (by omega)]
    rfl

/-- The average after some of the values goes on from the seed of all of them. -/
theorem smoothed_take (step : K → K → K) {period count : ℕ} (h : period ≤ count) (values : List K) :
    smoothed step period (values.take count) =
      ((values.drop period).take (count - period)).foldl step (seed period values) := by
  rw [smoothed, seed, seed, List.take_take, Nat.min_eq_left h, List.drop_take]

/-- The average goes on with the next value. -/
theorem smoothed_take_succ {step : K → K → K} {period index : ℕ} {values : List K} {value : K}
    (hindex : period ≤ index) (hvalue : values[index]? = some value) :
    smoothed step period (values.take (index + 1)) =
      step (smoothed step period (values.take index)) value := by
  rw [smoothed_take step (by omega), smoothed_take step hindex, Nat.succ_sub hindex,
    List.take_add_one, List.getElem?_drop, Nat.add_sub_cancel' hindex, hvalue, Option.toList_some,
    List.foldl_append, List.foldl_cons, List.foldl_nil]

/-- The series takes each value from those before it alone. -/
theorem getElem?_smoothedSeries (step : K → K → K) {period : ℕ} (hperiod : 0 < period)
    {values : List K} {index : ℕ} (h : index < values.length) :
    (smoothedSeries step period values)[index]? =
      some (if index + 1 < period then none
        else some (smoothed step period (values.take (index + 1)))) := by
  unfold smoothedSeries
  split
  · rw [List.getElem?_replicate_of_lt h, if_pos (by omega)]
  · have hindex : index ≤ period - 1 + (values.drop period).length := by
      rw [List.length_drop]
      omega
    refine (getElem?_padded_scanl step (seed period values) id _ hindex).trans (congrArg some ?_)
    by_cases hshort : index + 1 < period
    · rw [if_pos (by omega), if_pos hshort]
    · rw [if_neg (by omega), if_neg hshort, smoothed_take step (by omega),
        show index - (period - 1) = index + 1 - period by omega]
      rfl

/-- What holds of the seed, and is kept by each step, holds of the average. -/
theorem smoothed_induction {step : K → K → K} {period : ℕ} {values : List K} {P : K → Prop}
    (hseed : P (seed period values))
    (hstep : ∀ average, ∀ value ∈ values.drop period, P average → P (step average value)) :
    P (smoothed step period values) := by
  unfold smoothed
  generalize seed period values = average at hseed
  generalize values.drop period = rest at hstep
  induction rest generalizing average with
  | nil => exact hseed
  | cons value rest ih =>
    exact ih _ (hstep average value List.mem_cons_self hseed) fun average other hmem =>
      hstep average other (List.mem_cons_of_mem _ hmem)

end Average

/-! ### Weights -/

section Weights

variable {K : Type*} [Field K]

/-- The deviations of the values from a base, each decayed by as many steps as come after it. -/
def decayed (decay base : K) (values : List K) : K :=
  (values.reverse.mapIdx fun age value => decay ^ age * (value - base)).sum

theorem decayed_append_singleton (decay base : K) (values : List K) (value : K) :
    decayed decay base (values ++ [value]) = (value - base) + decay * decayed decay base values := by
  have hsteps : (values.reverse.mapIdx fun age value => decay ^ (age + 1) * (value - base)) =
      (values.reverse.mapIdx fun age value => decay ^ age * (value - base)).map (decay * ·) := by
    refine List.ext_getElem? fun age => ?_
    simp only [List.getElem?_mapIdx, List.getElem?_map, Option.map_map]
    refine congrArg (fun f => Option.map f _) (funext fun value => ?_)
    rw [Function.comp_apply, pow_succ']
    ring
  rw [decayed, decayed, List.reverse_append, List.reverse_singleton, List.singleton_append,
    List.mapIdx_cons, List.sum_cons, pow_zero, one_mul, hsteps]
  exact congrArg (value - base + ·) ((List.sum_map_mul_left _ id decay).trans (by rw [List.map_id]))

/-- The average of weighted steps leaves its start by the weight of the decayed deviations. -/
theorem foldl_weighted {step : K → K → K} (weight : K)
    (hstep : ∀ average value, step average value = (1 - weight) * average + weight * value)
    (base : K) (values : List K) :
    values.foldl step base = base + weight * decayed (1 - weight) base values := by
  induction values using List.reverseRecOn with
  | nil => simp [decayed]
  | append_singleton values value ih =>
    rw [List.foldl_append, List.foldl_cons, List.foldl_nil, ih, hstep, decayed_append_singleton]
    ring

/-- The average is at its seed exactly where the deviations of the later values cancel out. -/
theorem smoothed_eq_seed_iff {step : K → K → K} {weight : K} (hweight : weight ≠ 0)
    (hstep : ∀ average value, step average value = (1 - weight) * average + weight * value)
    (period : ℕ) (values : List K) :
    smoothed step period values = seed period values ↔
      decayed (1 - weight) (seed period values) (values.drop period) = 0 := by
  rw [smoothed, foldl_weighted weight hstep, add_eq_left, mul_eq_zero, or_iff_right hweight]

end Weights

/-! ### Bounds -/

section Bounds

variable {K : Type*} [Field K] [LinearOrder K] [IsStrictOrderedRing K]

/-- A step that moves the average towards the value, and not beyond it. -/
structure Averages (step : K → K → K) : Prop where
  lower : ∀ average value, min average value ≤ step average value
  upper : ∀ average value, step average value ≤ max average value

theorem Averages.of_weight {step : K → K → K} (weight : K) (hpos : 0 ≤ weight) (hle : weight ≤ 1)
    (hstep : ∀ average value, step average value = (1 - weight) * average + weight * value) :
    Averages step := by
  constructor
  · intro average value
    have haverage := mul_le_mul_of_nonneg_left (min_le_left average value) (sub_nonneg.mpr hle)
    have hvalue := mul_le_mul_of_nonneg_left (min_le_right average value) hpos
    rw [hstep]
    linarith
  · intro average value
    have haverage := mul_le_mul_of_nonneg_left (le_max_left average value) (sub_nonneg.mpr hle)
    have hvalue := mul_le_mul_of_nonneg_left (le_max_right average value) hpos
    rw [hstep]
    linarith

variable {step : K → K → K} {period : ℕ} {values : List K} {bound : K}

theorem le_seed (hperiod : 0 < period) (hlength : period ≤ values.length)
    (h : ∀ value ∈ values, bound ≤ value) : bound ≤ seed period values := by
  have hsum := List.card_nsmul_le_sum (values.take period) bound fun value hvalue =>
    h value (List.mem_of_mem_take hvalue)
  have hpos : (0 : K) < period := Nat.cast_pos.mpr hperiod
  rw [List.length_take, Nat.min_eq_left hlength, nsmul_eq_mul, mul_comm] at hsum
  rwa [seed, le_div_iff₀ hpos]

theorem seed_le (hperiod : 0 < period) (hlength : period ≤ values.length)
    (h : ∀ value ∈ values, value ≤ bound) : seed period values ≤ bound := by
  have hsum := List.sum_le_card_nsmul (values.take period) bound fun value hvalue =>
    h value (List.mem_of_mem_take hvalue)
  have hpos : (0 : K) < period := Nat.cast_pos.mpr hperiod
  rw [List.length_take, Nat.min_eq_left hlength, nsmul_eq_mul, mul_comm] at hsum
  rwa [seed, div_le_iff₀ hpos]

/-- The average is no less than what no value is less than. -/
theorem Averages.le_smoothed (h : Averages step) (hperiod : 0 < period)
    (hlength : period ≤ values.length) (hbound : ∀ value ∈ values, bound ≤ value) :
    bound ≤ smoothed step period values := by
  refine smoothed_induction (P := fun average => bound ≤ average)
    (le_seed hperiod hlength hbound) fun average value hvalue haverage => ?_
  exact (le_min haverage (hbound value (List.mem_of_mem_drop hvalue))).trans (h.lower average value)

/-- The average is no more than what no value is more than. -/
theorem Averages.smoothed_le (h : Averages step) (hperiod : 0 < period)
    (hlength : period ≤ values.length) (hbound : ∀ value ∈ values, value ≤ bound) :
    smoothed step period values ≤ bound := by
  refine smoothed_induction (P := fun average => average ≤ bound)
    (seed_le hperiod hlength hbound) fun average value hvalue haverage => ?_
  exact (h.upper average value).trans (max_le haverage (hbound value (List.mem_of_mem_drop hvalue)))

end Bounds

end CryptoTrading.Kit
