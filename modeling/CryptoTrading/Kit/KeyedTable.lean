import CryptoTrading.Kit.Dict

/-! Tables as dictionaries by their primary key: the insertion that leaves a row alone that is there,
of one row and of several. -/

namespace CryptoTrading.Kit.Dict

variable {κ ν : Type*} [DecidableEq κ]

/-- `INSERT … ON CONFLICT (key) DO NOTHING`. -/
def insertNew (d : Dict κ ν) (key : κ) (value : ν) : Dict κ ν :=
  if (d.get? key).isSome then d else d.set key value

/-- The rows are inserted one after another, under their keys. -/
def insertAll (key : ν → κ) (d : Dict κ ν) (rows : List ν) : Dict κ ν :=
  rows.foldl (fun d row => d.insertNew (key row) row) d

theorem get?_insertNew (d : Dict κ ν) (key : κ) (value : ν) (k : κ) :
    (d.insertNew key value).get? k = (d.get? k).or (if key = k then some value else none) := by
  unfold insertNew
  split
  · rename_i hthere
    by_cases hk : key = k
    · subst hk
      obtain ⟨other, hother⟩ := Option.isSome_iff_exists.mp hthere
      simp [hother]
    · simp [hk]
  · rename_i hfree
    rw [get?_set]
    by_cases hk : key = k
    · subst hk
      simp [Option.not_isSome_iff_eq_none.mp hfree]
    · simp [hk]

variable {key : ν → κ} {d : Dict κ ν} {rows : List ν} {k : κ} {value : ν}

@[simp] theorem insertAll_nil : d.insertAll key [] = d := rfl

@[simp] theorem insertAll_cons (row : ν) :
    d.insertAll key (row :: rows) = (d.insertNew (key row) row).insertAll key rows := rfl

theorem insertAll_append (more : List ν) :
    d.insertAll key (rows ++ more) = (d.insertAll key rows).insertAll key more := List.foldl_append ..

/-- A key has the row that was there, or else the first of the new ones. -/
theorem get?_insertAll : (d.insertAll key rows).get? k =
    (d.get? k).or (rows.find? fun row => decide (key row = k)) := by
  induction rows generalizing d with
  | nil => simp
  | cons row rows ih =>
    rw [insertAll_cons, ih, get?_insertNew, Option.or_assoc]
    by_cases hk : key row = k <;> simp [hk]

theorem get?_insertAll_of_some (h : d.get? k = some value) :
    (d.insertAll key rows).get? k = some value := by
  rw [get?_insertAll, h, Option.some_or]

theorem isSome_get?_insertAll_iff : ((d.insertAll key rows).get? k).isSome ↔
    (d.get? k).isSome ∨ ∃ row ∈ rows, key row = k := by
  rw [get?_insertAll, Option.isSome_or, Bool.or_eq_true, List.find?_isSome]
  simp only [decide_eq_true_eq]

/-- Every row of the table was there, or is new. -/
theorem get?_insertAll_cases (h : (d.insertAll key rows).get? k = some value) :
    d.get? k = some value ∨ d.get? k = none ∧ value ∈ rows ∧ key value = k := by
  rw [get?_insertAll] at h
  cases hold : d.get? k with
  | some other =>
    rw [hold, Option.some_or] at h
    exact Or.inl h
  | none =>
    rw [hold, Option.none_or] at h
    have hkey := List.find?_some h
    exact Or.inr ⟨rfl, List.mem_of_find?_eq_some h, of_decide_eq_true hkey⟩

/-- A new row stands in the table, where its key is nobody else's. -/
theorem get?_insertAll_of_mem (hfree : d.get? (key value) = none) (hmem : value ∈ rows)
    (hunique : ∀ row ∈ rows, key row = key value → row = value) :
    (d.insertAll key rows).get? (key value) = some value := by
  rw [get?_insertAll, hfree, Option.none_or]
  cases hfind : rows.find? fun row => decide (key row = key value) with
  | none => exact absurd (decide_eq_true rfl) (List.find?_eq_none.mp hfind value hmem)
  | some row =>
    have hkey := List.find?_some hfind
    exact congrArg some
      (hunique row (List.mem_of_find?_eq_some hfind) (of_decide_eq_true hkey))

end CryptoTrading.Kit.Dict
