import CryptoTrading.Kit.Dict
import Mathlib.Data.List.Infix

/-! Tables in which every owner has rows numbered from one, some of them with a name that no other row
of the owner has.  A batch of rows takes the numbers in order, and leaves the rows alone that are there:
what an owner has afterwards is what it had, extended by the rest of the batch. -/

namespace CryptoTrading.Kit

/-- What an owner has of two batches: the first, and what the second has further on. -/
def extendRows {ν : Type*} (old items : List ν) : List ν := old ++ items.drop old.length

section Extension

variable {ν : Type*} {old items : List ν}

theorem length_extendRows : (extendRows old items).length = max old.length items.length := by
  rw [extendRows, List.length_append, List.length_drop]
  omega

theorem extendRows_of_le (h : items.length ≤ old.length) : extendRows old items = old := by
  rw [extendRows, List.drop_of_length_le h, List.append_nil]

theorem extendRows_eq_right_iff : extendRows old items = items ↔ old <+: items := by
  constructor
  · intro h
    exact ⟨items.drop old.length, h⟩
  · rintro ⟨rest, rfl⟩
    rw [extendRows, List.drop_left]

theorem getElem?_extendRows (n : ℕ) : (extendRows old items)[n]? = old[n]?.or items[n]? := by
  rcases lt_or_ge n old.length with hlt | hge
  · rw [extendRows, List.getElem?_append_left hlt, List.getElem?_eq_getElem hlt, Option.some_or]
  · rw [extendRows, List.getElem?_append_right hge, List.getElem?_drop, Nat.add_sub_cancel' hge,
      List.getElem?_eq_none hge, Option.none_or]

end Extension

variable {υ ν μ : Type*} [DecidableEq υ] [DecidableEq μ] {name : ν → Option μ}

/-- A table with the primary key `(owner, number)`, and no two rows of one owner with one name. -/
structure NumberedTable (υ : Type*) [DecidableEq υ] {ν μ : Type*} (name : ν → Option μ) where
  rows : Dict (υ × ℕ) ν
  unique : ∀ owner m n a b, rows.get? (owner, m) = some a → rows.get? (owner, n) = some b →
    (name a).isSome → name a = name b → m = n

namespace NumberedTable

/-- The table with no row. -/
def empty : NumberedTable υ name := ⟨.empty, fun _ _ _ _ _ h => by cases h⟩

variable (t : NumberedTable υ name) (owner : υ)

/-- The rows of an owner that have a name. -/
def named (value : μ) : List ν :=
  (t.rows.entries.filter fun entry =>
    decide (entry.1.1 = owner ∧ name entry.2 = some value)).map Prod.snd

/-- Another row of the owner has the name of this one. -/
def Clashes (row : ν) : Prop :=
  (name row).isSome ∧ ∃ entry ∈ t.rows.entries, entry.1.1 = owner ∧ name entry.2 = name row

instance (row : ν) : Decidable (t.Clashes owner row) := inferInstanceAs (Decidable (_ ∧ _))

variable {t owner}

omit [DecidableEq μ] in
theorem unique_set {row : ν} {number : ℕ} (hclash : ¬t.Clashes owner row) (o : υ) (m n : ℕ) (a b : ν)
    (ha : (t.rows.set (owner, number) row).get? (o, m) = some a)
    (hb : (t.rows.set (owner, number) row).get? (o, n) = some b) (hsome : (name a).isSome)
    (hname : name a = name b) : m = n := by
  have hother : ∀ k c, t.rows.get? (owner, k) = some c → (name row).isSome → name row ≠ name c := by
    intro k c hc hrow heq
    exact hclash ⟨hrow, _, Dict.get?_eq_some_iff.mp hc, rfl, heq.symm⟩
  rw [Dict.get?_set] at ha hb
  split at ha <;> split at hb
  · rename_i hm hn
    cases hm
    cases hn
    rfl
  · rename_i hm _
    cases hm
    cases ha
    exact absurd hname (hother n b hb hsome)
  · rename_i _ hn
    cases hn
    cases hb
    exact absurd hname.symm (hother m a ha (hname ▸ hsome))
  · exact t.unique o m n a b ha hb hsome hname

variable (t owner)

/-- `INSERT … ON CONFLICT (owner, number) DO NOTHING`, which raises for a name that is taken. -/
def insert (number : ℕ) (row : ν) : Option (NumberedTable υ name) :=
  if (t.rows.get? (owner, number)).isSome then some t
  else if h : t.Clashes owner row then none
  else some ⟨t.rows.set (owner, number) row, unique_set h⟩

/-- The rows of a batch are inserted one after another, numbered from `number`. -/
def insertFrom (t : NumberedTable υ name) (number : ℕ) : List ν → Option (NumberedTable υ name)
  | [] => some t
  | row :: rest => (t.insert owner number row).bind fun next => next.insertFrom (number + 1) rest

/-- What an owner has, in order. -/
def Lists (rows : List ν) : Prop :=
  t.rows.get? (owner, 0) = none ∧ ∀ n, t.rows.get? (owner, n + 1) = rows[n]?

variable {t owner} {t' : NumberedTable υ name} {number : ℕ} {row : ν} {old items : List ν}

theorem get?_insert (h : t.insert owner number row = some t') (o : υ) (n : ℕ) :
    t'.rows.get? (o, n) = (t.rows.get? (o, n)).or
      (if o = owner ∧ n = number then some row else none) := by
  unfold insert at h
  split at h
  · rename_i hthere
    cases h
    obtain ⟨other, hother⟩ := Option.isSome_iff_exists.mp hthere
    split
    · rename_i heq
      obtain ⟨rfl, rfl⟩ := heq
      rw [hother, Option.some_or]
    · rw [Option.or_none]
  · rename_i hfree
    split at h
    · cases h
    cases h
    rw [Dict.get?_set]
    by_cases heq : o = owner ∧ n = number
    · obtain ⟨rfl, rfl⟩ := heq
      rw [if_pos rfl, Option.not_isSome_iff_eq_none.mp hfree, Option.none_or, if_pos ⟨rfl, rfl⟩]
    · have hne : (owner, number) ≠ (o, n) := by
        intro e
        exact heq ⟨(Prod.mk.inj e).1.symm, (Prod.mk.inj e).2.symm⟩
      rw [if_neg hne, if_neg heq, Option.or_none]

/-- A number has the row that was there, or else its row of the batch. -/
theorem get?_insertFrom (h : t.insertFrom owner number items = some t') (o : υ) (n : ℕ) :
    t'.rows.get? (o, n) = (t.rows.get? (o, n)).or
      (if o = owner ∧ number ≤ n then items[n - number]? else none) := by
  induction items generalizing t number with
  | nil =>
    cases h
    simp
  | cons row rest ih =>
    obtain ⟨next, hnext, hrest⟩ := Option.bind_eq_some_iff.mp h
    rw [ih hrest, get?_insert hnext, Option.or_assoc]
    congr 1
    by_cases ho : o = owner
    · rcases lt_trichotomy n number with hlt | heq | hgt
      · have hnot : ¬number ≤ n := by omega
        have hnot' : ¬number + 1 ≤ n := by omega
        simp [ho, hnot, hnot', hlt.ne]
      · subst heq
        simp [ho]
      · obtain ⟨k, rfl⟩ : ∃ k, n = number + 1 + k := ⟨n - (number + 1), by omega⟩
        have hne : number + 1 + k ≠ number := by omega
        have hle : number ≤ number + 1 + k := by omega
        have hsub : number + 1 + k - number = k + 1 := by omega
        have hsub' : number + 1 + k - (number + 1) = k := by omega
        simp [ho, hne, hle, hsub, hsub']
    · simp [ho]

omit [DecidableEq μ] in
theorem lists_empty : (empty : NumberedTable υ name).Lists owner [] := ⟨rfl, fun _ => rfl⟩

omit [DecidableEq μ] in
theorem Lists.unique (h : t.Lists owner old) (h' : t.Lists owner items) : old = items :=
  List.ext_getElem? fun n => (h.2 n).symm.trans (h'.2 n)

/-- A batch extends what its owner has. -/
theorem Lists.insertFrom (hold : t.Lists owner old) (h : t.insertFrom owner 1 items = some t') :
    t'.Lists owner (extendRows old items) := by
  constructor
  · rw [get?_insertFrom h, hold.1]
    simp
  · intro n
    rw [get?_insertFrom h, hold.2, getElem?_extendRows]
    simp

/-- A batch leaves what the others have. -/
theorem Lists.insertFrom_other {other : υ} (hold : t.Lists other old) (hne : other ≠ owner)
    (h : t.insertFrom owner number items = some t') : t'.Lists other old := by
  constructor
  · rw [get?_insertFrom h, hold.1]
    simp [hne]
  · intro n
    rw [get?_insertFrom h, hold.2]
    simp [hne]

omit [DecidableEq μ] in
theorem Lists.mem_iff (h : t.Lists owner old) :
    row ∈ old ↔ ∃ n, t.rows.get? (owner, n) = some row := by
  rw [List.mem_iff_getElem?]
  constructor
  · rintro ⟨n, hn⟩
    exact ⟨n + 1, (h.2 n).trans hn⟩
  · rintro ⟨n, hn⟩
    cases n with
    | zero => cases h.1.symm.trans hn
    | succ n => exact ⟨n, (h.2 n).symm.trans hn⟩

/-- An owner has one row of a name, where it has one. -/
theorem named_eq_singleton {value : μ} (h : t.rows.get? (owner, number) = some row)
    (hname : name row = some value) : t.named owner value = [row] := by
  have hfilter : (t.rows.entries.filter fun entry =>
      decide (entry.1.1 = owner ∧ name entry.2 = some value)) =
      t.rows.entries.filter fun entry => decide (entry.1 = (owner, number)) := by
    apply List.filter_congr
    rintro ⟨⟨o, n⟩, other⟩ hmem
    have hother : t.rows.get? (o, n) = some other := Dict.get?_eq_some_iff.mpr hmem
    refine decide_eq_decide.mpr ⟨?_, ?_⟩
    · rintro ⟨rfl, hvalue⟩
      have hsome : (name other).isSome := by rw [hvalue]; rfl
      rw [t.unique o n number other row hother h hsome (hvalue.trans hname.symm)]
    · rintro heq
      obtain ⟨rfl, rfl⟩ := Prod.mk.inj heq
      cases Option.some.inj (hother.symm.trans h)
      exact ⟨rfl, hname⟩
  rw [named, hfilter, Dict.filter_entries_key, h]
  rfl

theorem mem_named {value : μ} (h : row ∈ t.named owner value) :
    name row = some value ∧ ∃ n, t.rows.get? (owner, n) = some row := by
  obtain ⟨⟨⟨o, n⟩, other⟩, hmem, rfl⟩ := List.mem_map.mp h
  obtain ⟨hentry, hmatch⟩ := List.mem_filter.mp hmem
  obtain ⟨rfl, hname⟩ := of_decide_eq_true hmatch
  exact ⟨hname, n, Dict.get?_eq_some_iff.mpr hentry⟩

end NumberedTable

end CryptoTrading.Kit
