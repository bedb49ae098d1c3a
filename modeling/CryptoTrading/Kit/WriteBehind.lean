import CryptoTrading.Kit.Dict

/-! A table that lags behind a memory by the rows still to be written: writing a row brings them
closer, and when none is left they agree. -/

namespace CryptoTrading.Kit

variable {κ ν : Type*} [DecidableEq κ] {memory table : Dict κ ν} {pending : List (κ × ν)}

/-- Every pending row is the memory's, and wherever the table differs from the memory a row is
pending. -/
structure Lags (memory table : Dict κ ν) (pending : List (κ × ν)) : Prop where
  current : ∀ row ∈ pending, memory.get? row.1 = some row.2
  covered : ∀ key, table.get? key = memory.get? key ∨ ∃ value, (key, value) ∈ pending

theorem Lags.of_agrees (h : table.Agrees memory) : Lags memory table [] :=
  ⟨nofun, fun key => Or.inl (h key)⟩

theorem Lags.agrees (h : Lags memory table []) : table.Agrees memory := fun key =>
  (h.covered key).resolve_right nofun

theorem Lags.congr {pending' : List (κ × ν)} (h : Lags memory table pending)
    (hsame : ∀ row, row ∈ pending' ↔ row ∈ pending) : Lags memory table pending' :=
  ⟨fun row hrow => h.current row ((hsame row).mp hrow),
    fun key => (h.covered key).imp_right fun ⟨value, hrow⟩ => ⟨value, (hsame _).mpr hrow⟩⟩

/-- A pending row is written. -/
theorem Lags.land {pending' : List (κ × ν)} {row : κ × ν} (h : Lags memory table pending)
    (hsame : ∀ other, other ∈ pending ↔ other = row ∨ other ∈ pending') :
    Lags memory (table.set row.1 row.2) pending' := by
  have hcurrent := h.current row ((hsame row).mpr (Or.inl rfl))
  refine ⟨fun other hother => h.current other ((hsame other).mpr (Or.inr hother)), fun key => ?_⟩
  rw [Dict.get?_set]
  by_cases hkey : row.1 = key
  · rw [if_pos hkey, ← hkey, hcurrent]
    exact Or.inl rfl
  · rw [if_neg hkey]
    refine (h.covered key).imp_right fun ⟨value, hrow⟩ => ⟨value, ?_⟩
    exact ((hsame _).mp hrow).resolve_left fun heq => hkey (by rw [← heq])

/-- The memory sets a key without a pending row, and its row becomes pending. -/
theorem Lags.schedule {key : κ} (h : Lags memory table pending)
    (hfree : ∀ row ∈ pending, row.1 ≠ key) (value : ν) :
    Lags (memory.set key value) table (pending ++ [(key, value)]) := by
  constructor
  · intro row hrow
    rcases List.mem_append.mp hrow with hrow | hrow
    · rw [Dict.get?_set_ne _ _ (hfree row hrow).symm]
      exact h.current row hrow
    · rw [List.mem_singleton.mp hrow, Dict.get?_set_self]
  · intro other
    by_cases hkey : key = other
    · subst hkey
      exact Or.inr ⟨value, by simp⟩
    · rw [Dict.get?_set_ne _ _ hkey]
      exact (h.covered other).imp_right fun ⟨v, hrow⟩ => ⟨v, List.mem_append_left _ hrow⟩

/-- The memory's keys are those of the table and of the pending rows. -/
def Names (memory table : Dict κ ν) (pending : List (κ × ν)) : Prop :=
  ∀ key, (memory.get? key).isSome ↔ (table.get? key).isSome ∨ ∃ value, (key, value) ∈ pending

theorem Names.of_agrees (h : table.Agrees memory) : Names memory table [] := fun key => by
  simp [h key]

theorem Names.congr {pending' : List (κ × ν)} (h : Names memory table pending)
    (hsame : ∀ row, row ∈ pending' ↔ row ∈ pending) : Names memory table pending' := fun key => by
  simp only [h key, hsame]

/-- A pending row is written. -/
theorem Names.land {pending' : List (κ × ν)} {row : κ × ν} (h : Names memory table pending)
    (hsame : ∀ other, other ∈ pending ↔ other = row ∨ other ∈ pending') :
    Names memory (table.set row.1 row.2) pending' := by
  intro key
  rw [h key, Dict.get?_set]
  by_cases hkey : row.1 = key
  · subst hkey
    simp only [if_true, Option.isSome_some, true_or, iff_true]
    exact Or.inr ⟨row.2, (hsame _).mpr (Or.inl rfl)⟩
  · have hother : ∀ value, (key, value) ∈ pending ↔ (key, value) ∈ pending' := fun value => by
      rw [hsame, or_iff_right fun heq => hkey (by rw [← heq])]
    simp only [if_neg hkey, hother]

/-- The memory sets a key, and its row becomes pending. -/
theorem Names.schedule (h : Names memory table pending) (key : κ) (value : ν) :
    Names (memory.set key value) table (pending ++ [(key, value)]) := by
  intro other
  rw [Dict.get?_set]
  by_cases hkey : key = other
  · subst hkey
    simp only [if_true, Option.isSome_some, true_iff]
    exact Or.inr ⟨value, by simp⟩
  · have hnot : ∀ v, (other, v) ∈ pending ++ [(key, value)] ↔ (other, v) ∈ pending := fun v => by
      simp only [List.mem_append, List.mem_singleton, Prod.mk.injEq, or_iff_left_iff_imp, and_imp]
      exact fun heq => absurd heq.symm hkey
    simp only [if_neg hkey, hnot, h other]

/-- The table has no row that is not the memory's. -/
def Within (memory table : Dict κ ν) : Prop :=
  ∀ key value, table.get? key = some value → memory.get? key = some value

theorem Within.of_agrees (h : table.Agrees memory) : Within memory table :=
  fun key _ hget => (h key).symm.trans hget

theorem Within.land (h : Within memory table) (row : κ × ν)
    (hcurrent : memory.get? row.1 = some row.2) : Within memory (table.set row.1 row.2) := by
  intro key value hget
  rw [Dict.get?_set] at hget
  split at hget
  · rename_i hkey
    cases hget
    rwa [← hkey]
  · exact h key value hget

/-- The memory sets a key that it did not have. -/
theorem Within.schedule (h : Within memory table) {key : κ} (hnew : memory.get? key = none)
    (value : ν) : Within (memory.set key value) table := by
  intro other v hget
  have hold := h other v hget
  rw [Dict.get?_set_ne]
  · exact hold
  · rintro rfl
    rw [hnew] at hold
    cases hold

end CryptoTrading.Kit
