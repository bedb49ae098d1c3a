import Mathlib.Data.List.Induction
import Mathlib.Order.MinMax

/-! The best of numbered observations, and the first that reached it.  What counts as better is any
relation that is transitive, and whose negation is. -/

namespace CryptoTrading.Kit

variable {α : Type*}

/-- A strict order in which any two observations that are not better than one another are alike. -/
structure Preference (better : α → α → Prop) : Prop where
  trans : ∀ {x y z}, better x y → better y z → better x z
  negTrans : ∀ {x y z}, ¬better x y → ¬better y z → ¬better x z
  irrefl : ∀ x, ¬better x x

theorem preference_lt {α : Type*} [LinearOrder α] : Preference fun x y : α => x < y where
  trans := lt_trans
  negTrans := by
    intro x y z hxy hyz
    exact not_lt.mpr (le_trans (not_lt.mp hyz) (not_lt.mp hxy))
  irrefl := lt_irrefl

theorem preference_gt {α : Type*} [LinearOrder α] : Preference fun x y : α => y < x where
  trans := fun hxy hyz => lt_trans hyz hxy
  negTrans := by
    intro x y z hxy hyz
    exact not_lt.mpr (le_trans (not_lt.mp hxy) (not_lt.mp hyz))
  irrefl := lt_irrefl

variable (better : α → α → Prop) [DecidableRel better]

/-- The best observation and its number, after another. -/
def observe (best observation : α × ℕ) : α × ℕ :=
  if better best.1 observation.1 then observation else best

/-- The best of what is observed, from `start` on; the observations are numbered from one. -/
def firstBest (start : α) (observations : List α) : α × ℕ :=
  (observations.zipIdx 1).foldl (observe better) (start, 0)

variable {better} {start : α} {observations : List α}

theorem firstBest_concat (last : α) : firstBest better start (observations ++ [last]) =
    observe better (firstBest better start observations) (last, observations.length + 1) := by
  unfold firstBest
  rw [List.zipIdx_append, List.foldl_append, Nat.add_comm]
  rfl

/-- Nothing is better than the best.  It is what was there at the start, under number zero, or it is the
first observation that reached it, and better than what was there. -/
theorem firstBest_spec (hbetter : Preference better) (start : α) (observations : List α) :
    (∀ x ∈ start :: observations, ¬better (firstBest better start observations).1 x) ∧
      (firstBest better start observations = (start, 0) ∨
        ∃ before after, observations = before ++ (firstBest better start observations).1 :: after ∧
          (firstBest better start observations).2 = before.length + 1 ∧
          ∀ x ∈ start :: before, better x (firstBest better start observations).1) := by
  induction observations using List.reverseRecOn with
  | nil => exact ⟨by simp [firstBest, hbetter.irrefl], .inl rfl⟩
  | append_singleton observations last ih =>
    obtain ⟨hbest, hfirst⟩ := ih
    rw [firstBest_concat, observe]
    split
    · rename_i hlast
      -- What came before is at most the former best, and that is worse.
      have hworse : ∀ x ∈ start :: observations, better x last := by
        intro x hx
        by_contra hnot
        exact hbetter.negTrans (hbest x hx) hnot hlast
      refine ⟨?_, .inr ⟨observations, [], rfl, rfl, hworse⟩⟩
      intro x hx
      rcases List.mem_append.mp ((List.cons_append ..).symm ▸ hx : x ∈ (start :: observations) ++ [last])
        with hx | hx
      · exact fun hback => hbetter.irrefl x (hbetter.trans (hworse x hx) hback)
      · rw [List.mem_singleton.mp hx]
        exact hbetter.irrefl last
    · rename_i hlast
      refine ⟨?_, ?_⟩
      · intro x hx
        rcases List.mem_append.mp ((List.cons_append ..).symm ▸ hx : x ∈ (start :: observations) ++ [last])
          with hx | hx
        · exact hbest x hx
        · rwa [List.mem_singleton.mp hx]
      · refine hfirst.imp_right ?_
        rintro ⟨before, after, hsplit, hnumber, hbefore⟩
        refine ⟨before, after ++ [last], ?_, hnumber, hbefore⟩
        conv_lhs => rw [hsplit]
        simp

/-! ### The greatest and the least -/

section Extremes

variable {α : Type*} [LinearOrder α]

theorem firstBest_lt_fst (start : α) (observations : List α) :
    (firstBest (· < ·) start observations).1 = observations.foldl max start := by
  induction observations using List.reverseRecOn with
  | nil => rfl
  | append_singleton observations last ih =>
    rw [firstBest_concat, List.foldl_append, List.foldl_cons, List.foldl_nil, observe, ← ih]
    split
    · rename_i hless
      exact (max_eq_right hless.le).symm
    · rename_i hleast
      exact (max_eq_left (not_lt.mp hleast)).symm

theorem firstBest_gt_fst (start : α) (observations : List α) :
    (firstBest (· > ·) start observations).1 = observations.foldl min start := by
  induction observations using List.reverseRecOn with
  | nil => rfl
  | append_singleton observations last ih =>
    rw [firstBest_concat, List.foldl_append, List.foldl_cons, List.foldl_nil, observe, ← ih]
    split
    · rename_i hless
      exact (min_eq_right (le_of_lt hless)).symm
    · rename_i hleast
      exact (min_eq_left (not_lt.mp hleast)).symm

theorem foldl_max_le_iff {start bound : α} {values : List α} :
    values.foldl max start ≤ bound ↔ start ≤ bound ∧ ∀ x ∈ values, x ≤ bound := by
  induction values generalizing start with
  | nil => simp
  | cons x rest ih => simp [ih, and_assoc]

theorem le_foldl_min_iff {start bound : α} {values : List α} :
    bound ≤ values.foldl min start ↔ bound ≤ start ∧ ∀ x ∈ values, bound ≤ x := by
  induction values generalizing start with
  | nil => simp
  | cons x rest ih => simp [ih, and_assoc]

end Extremes

end CryptoTrading.Kit
