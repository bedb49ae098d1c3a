import CryptoTrading.Kit.Observed

/-! Streaks in a list: what is due is answered in the streak of due elements that it ends.  An element
that is not due ends the streak, and the next one needs an answer of its own. -/

namespace CryptoTrading.Kit

variable {α : Type*} {due answers : α → Prop} {xs : List α} {x : α}

/-- The list ends in a streak of due elements that begins with an answer. -/
def Answered (due answers : α → Prop) (xs : List α) : Prop :=
  ∃ earlier answer since, xs = earlier ++ answer :: since ∧ answers answer ∧
    ∀ y ∈ answer :: since, due y

/-- Every due element is answered, by itself or earlier in its streak. -/
def Responsive (due answers : α → Prop) (xs : List α) : Prop :=
  ∀ before x later, xs = before ++ x :: later → due x → Answered due answers (before ++ [x])

theorem answered_concat_iff :
    Answered due answers (xs ++ [x]) ↔ due x ∧ (answers x ∨ Answered due answers xs) := by
  constructor
  · rintro ⟨earlier, answer, since, hsplit, hanswer, hdue⟩
    rcases append_singleton_eq_iff.mp hsplit with ⟨rfl, rfl, rfl⟩ | ⟨init, rfl, hxs⟩
    · exact ⟨hdue answer (List.mem_singleton_self answer), .inl hanswer⟩
    · refine ⟨hdue x (by simp), .inr ⟨earlier, answer, init, hxs, hanswer, fun y hy => hdue y ?_⟩⟩
      rcases List.mem_cons.mp hy with rfl | hy
      · exact List.mem_cons_self ..
      · simp [hy]
  · rintro ⟨hx, hanswer | ⟨earlier, answer, since, rfl, hanswer, hdue⟩⟩
    · exact ⟨xs, x, [], rfl, hanswer, List.forall_mem_singleton.mpr hx⟩
    · refine ⟨earlier, answer, since ++ [x], by simp, hanswer, fun y hy => ?_⟩
      rw [← List.cons_append, List.mem_append, List.mem_singleton] at hy
      rcases hy with hy | rfl
      · exact hdue y hy
      · exact hx

theorem responsive_nil : Responsive due answers [] := by
  intro before x later hsplit
  exact absurd hsplit.symm (by simp)

theorem Responsive.answered (h : Responsive due answers (xs ++ [x])) (hx : due x) :
    Answered due answers (xs ++ [x]) :=
  h xs x [] rfl hx

/-- One more element is answered by itself, or continues a streak that is. -/
theorem responsive_concat_iff :
    Responsive due answers (xs ++ [x]) ↔
      Responsive due answers xs ∧ (due x → answers x ∨ ∃ last ∈ xs.getLast?, due last) := by
  constructor
  · intro h
    constructor
    · intro before y later hsplit
      exact h before y (later ++ [x]) (by rw [hsplit]; simp)
    · intro hx
      obtain ⟨-, hanswer | ⟨earlier, answer, since, hxs, -, hdue⟩⟩ :=
        answered_concat_iff.mp (h.answered hx)
      · exact .inl hanswer
      · have hlast : xs.getLast? = (answer :: since).getLast? := by
          rw [hxs, List.getLast?_append_of_ne_nil _ (List.cons_ne_nil _ _)]
        rw [hlast, List.getLast?_eq_some_getLast (List.cons_ne_nil answer since)]
        exact .inr ⟨_, rfl, hdue _ (List.getLast_mem _)⟩
  · rintro ⟨h, hlast⟩ before y later hsplit hy
    rcases append_singleton_eq_iff.mp hsplit with ⟨rfl, rfl, rfl⟩ | ⟨init, rfl, hxs⟩
    · refine answered_concat_iff.mpr ⟨hy, (hlast hy).imp_right ?_⟩
      rintro ⟨last, hmem, hdue⟩
      obtain ⟨init, rfl⟩ := List.getLast?_eq_some_iff.mp hmem
      exact h.answered hdue
    · exact h before y init hxs hy

end CryptoTrading.Kit
