import CryptoTrading.Kit.Dict
import Mathlib.Data.Set.Lattice
import Mathlib.Order.Defs.LinearOrder

/-! Marks that let the items of each key through in the order of their times: an item passes
when it is later than the mark of its key, which it then becomes. -/

namespace CryptoTrading.Kit

variable {α κ τ : Type*} [DecidableEq κ] [LinearOrder τ] (key : α → κ) (time : α → τ)

/-- An item is due when it is later than the mark of its key, or its key has none. -/
def due (marks : Dict κ τ) (item : α) : Bool :=
  !(marks.get? (key item)).any fun mark => decide (time item ≤ mark)

/-- The items that are due in their turn, and the marks after them. -/
def letThrough (marks : Dict κ τ) : List α → List α × Dict κ τ
  | [] => ([], marks)
  | item :: rest =>
    if due key time marks item then
      let later := letThrough (marks.set (key item) (time item)) rest
      (item :: later.1, later.2)
    else letThrough marks rest

/-- `marks` have gone from `start` to the latest time seen of each key. -/
def Covers (start marks : Dict κ τ) (seen : Set α) : Prop :=
  ∀ k first, start.get? k = some first → ∃ mark, marks.get? k = some mark ∧ first ≤ mark ∧
    (∀ item ∈ seen, key item = k → time item ≤ mark) ∧
    (mark = first ∨ ∃ item ∈ seen, key item = k ∧ time item = mark)

variable {key time} {start marks : Dict κ τ} {seen : Set α}

theorem due_iff {item : α} {mark : τ} (h : marks.get? (key item) = some mark) :
    due key time marks item = true ↔ mark < time item := by
  simp [due, h]

theorem Covers.refl (marks : Dict κ τ) : Covers key time marks marks ∅ :=
  fun _ first h => ⟨first, h, le_rfl, fun _ hmem => hmem.elim, Or.inl rfl⟩

/-- Where the marks cover what was seen, an item is due when it is later than its key's first mark
and than every item of its key that was seen. -/
theorem Covers.due_iff (h : Covers key time start marks seen) {item : α} {first : τ}
    (hfirst : start.get? (key item) = some first) : due key time marks item = true ↔
      first < time item ∧ ∀ other ∈ seen, key other = key item → time other < time item := by
  obtain ⟨mark, hmark, hle, hseen, hat⟩ := h _ _ hfirst
  rw [Kit.due_iff hmark]
  constructor
  · intro hlt
    exact ⟨hle.trans_lt hlt, fun other hmem hkey => (hseen other hmem hkey).trans_lt hlt⟩
  · rintro ⟨hlt, hothers⟩
    rcases hat with rfl | ⟨other, hmem, hkey, rfl⟩
    · exact hlt
    · exact hothers other hmem hkey

/-- Items that are not later than the marks of their keys may be counted as seen. -/
theorem Covers.see (h : Covers key time start marks seen) (more : Set α)
    (hmore : ∀ item ∈ more, ∀ mark, marks.get? (key item) = some mark → time item ≤ mark) :
    Covers key time start marks (seen ∪ more) := by
  intro k first hfirst
  obtain ⟨mark, hmark, hle, hseen, hat⟩ := h k first hfirst
  refine ⟨mark, hmark, hle, ?_, hat.imp_right fun ⟨item, hmem, hitem⟩ => ⟨item, Or.inl hmem, hitem⟩⟩
  rintro item (hmem | hmem) rfl
  · exact hseen item hmem rfl
  · exact hmore item hmem mark hmark

theorem Covers.letThrough (h : Covers key time start marks seen) (items : List α) :
    Covers key time start (letThrough key time marks items).2 (seen ∪ {item | item ∈ items}) := by
  induction items generalizing marks seen with
  | nil => simpa [Kit.letThrough] using h
  | cons item rest ih =>
    have hset : ∀ known : Set α, known ∪ {item} ∪ {later | later ∈ rest} =
        known ∪ {later | later ∈ item :: rest} := by
      intro known
      ext later
      simp only [Set.mem_union, Set.mem_singleton_iff, Set.mem_ofPred_eq, List.mem_cons, or_assoc]
    rw [Kit.letThrough, ← hset]
    split
    · rename_i hdue
      apply ih
      intro k first hfirst
      obtain ⟨mark, hmark, hle, hseen, hat⟩ := h k first hfirst
      rw [Dict.get?_set]
      by_cases hk : key item = k
      · subst hk
        rw [if_pos rfl]
        have hlt : mark < time item := (Kit.due_iff hmark).mp hdue
        refine ⟨time item, rfl, hle.trans hlt.le, ?_, Or.inr ⟨item, Or.inr rfl, rfl, rfl⟩⟩
        rintro other (hmem | rfl) hkey
        · exact (hseen other hmem hkey).trans hlt.le
        · exact le_rfl
      · rw [if_neg hk]
        refine ⟨mark, hmark, hle, ?_, hat.imp_right fun ⟨other, hmem, hother⟩ =>
          ⟨other, Or.inl hmem, hother⟩⟩
        rintro other (hmem | rfl) hkey
        · exact hseen other hmem hkey
        · exact absurd hkey hk
    · rename_i hdue
      refine ih (h.see {item} fun other hmem mark hmark => ?_)
      cases hmem
      exact not_lt.mp fun hlt => hdue ((Kit.due_iff hmark).mpr hlt)

/-- Of items whose times increase within each key, those pass that are due at the start. -/
theorem letThrough_eq_filter (marks : Dict κ τ) {items : List α}
    (h : items.Pairwise fun earlier later => key earlier = key later → time earlier < time later) :
    (letThrough key time marks items).1 = items.filter (due key time marks) := by
  induction items generalizing marks with
  | nil => rfl
  | cons item rest ih =>
    obtain ⟨hlater, hrest⟩ := List.pairwise_cons.mp h
    rw [letThrough]
    split
    · rename_i hdue
      have hsame : ∀ later ∈ rest, due key time (marks.set (key item) (time item)) later =
          due key time marks later := by
        intro later hmem
        by_cases hk : key item = key later
        · -- A later item of the same key passes the old mark and the new one alike.
          have hlt := hlater later hmem hk
          have hnew : due key time (marks.set (key item) (time item)) later = true := by
            simp [due, ← hk, hlt]
          have hold : due key time marks later = true := by
            simp only [due, ← hk] at hdue ⊢
            cases hm : marks.get? (key item) with
            | none => rfl
            | some mark =>
              simp only [hm, Option.any_some, Bool.not_eq_true', decide_eq_false_iff_not,
                not_le] at hdue ⊢
              exact hdue.trans hlt
          rw [hnew, hold]
        · simp [due, Dict.get?_set, hk]
      simp only [List.filter_cons, hdue, if_true, ih _ hrest]
      rw [List.filter_congr hsame]
    · rename_i hdue
      rw [List.filter_cons_of_neg hdue, ih _ hrest]

end CryptoTrading.Kit
