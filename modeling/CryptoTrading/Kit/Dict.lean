import Mathlib.Algebra.BigOperators.Group.List.Basic
import Mathlib.Data.List.Induction
import Mathlib.Data.List.Nodup
import Mathlib.Data.Option.Basic
import Mathlib.Tactic.Abel

/-! Dictionaries that keep the order in which their keys were first set: setting a key that is
present replaces its value in place, and setting a new key appends an entry. -/

namespace CryptoTrading.Kit

variable {κ ν β : Type*} [DecidableEq κ]

/-- `entries` with the value of `key` replaced by `value`, or with a new entry at the end. -/
def setEntry (key : κ) (value : ν) : List (κ × ν) → List (κ × ν)
  | [] => [(key, value)]
  | entry :: rest =>
    if entry.1 = key then (key, value) :: rest else entry :: setEntry key value rest

theorem keys_setEntry (key : κ) (value : ν) (entries : List (κ × ν)) :
    (setEntry key value entries).map Prod.fst =
      if key ∈ entries.map Prod.fst then entries.map Prod.fst
      else entries.map Prod.fst ++ [key] := by
  induction entries with
  | nil => simp [setEntry]
  | cons entry rest ih =>
    by_cases h : entry.1 = key
    · simp [setEntry, h]
    · have h' : key ≠ entry.1 := fun e => h e.symm
      simp only [setEntry, h, if_false, List.map_cons, ih, List.mem_cons, h', false_or]
      split <;> simp

theorem nodup_setEntry {key : κ} {value : ν} {entries : List (κ × ν)}
    (h : (entries.map Prod.fst).Nodup) : ((setEntry key value entries).map Prod.fst).Nodup := by
  rw [keys_setEntry]
  split
  · exact h
  · rename_i hk
    exact List.nodup_append.mpr ⟨h, List.nodup_singleton _, fun a ha b hb e => by
      simp only [List.mem_singleton] at hb
      exact hk (hb ▸ e ▸ ha)⟩

/-- A dictionary from `κ` to `ν`, in the order in which its keys were first set. -/
structure Dict (κ ν : Type*) where
  entries : List (κ × ν)
  nodup : (entries.map Prod.fst).Nodup
  deriving DecidableEq

namespace Dict

omit [DecidableEq κ] in
/-- The dictionary with no entry. -/
def empty : Dict κ ν := ⟨[], List.nodup_nil⟩

instance : Inhabited (Dict κ ν) := ⟨empty⟩

/-- The value of `key`, when it is set. -/
def get? (d : Dict κ ν) (key : κ) : Option ν :=
  (d.entries.find? fun entry => decide (entry.1 = key)).map Prod.snd

/-- `d[key] = value`. -/
def set (d : Dict κ ν) (key : κ) (value : ν) : Dict κ ν :=
  ⟨setEntry key value d.entries, nodup_setEntry d.nodup⟩

/-- `del d[key]`, for a key that may be absent. -/
def erase (d : Dict κ ν) (key : κ) : Dict κ ν :=
  ⟨d.entries.filter fun entry => decide (entry.1 ≠ key),
    d.nodup.sublist (List.filter_sublist.map Prod.fst)⟩

/-- The keys, in order. -/
def keys (d : Dict κ ν) : List κ := d.entries.map Prod.fst

/-- The values, in the order of their keys. -/
def values (d : Dict κ ν) : List ν := d.entries.map Prod.snd

/-- `{key: f(key, value) for key, value in d.items()}`. -/
def mapValues {μ : Type*} (f : κ → ν → μ) (d : Dict κ ν) : Dict κ μ :=
  ⟨d.entries.map fun entry => (entry.1, f entry.1 entry.2),
    by simpa [Function.comp_def] using d.nodup⟩

/-- `{key: value for key, value in d.items() if p(key, value)}`. -/
def filter (p : κ → ν → Bool) (d : Dict κ ν) : Dict κ ν :=
  ⟨d.entries.filter fun entry => p entry.1 entry.2,
    d.nodup.sublist (List.filter_sublist.map Prod.fst)⟩

/-- `{key(v): value(v) for v in items}`: later items replace earlier ones with the same key. -/
def ofItems (key : β → κ) (value : β → ν) (items : List β) : Dict κ ν :=
  items.foldl (fun d item => d.set (key item) (value item)) empty

/-- Two dictionaries hold the same value for every key, in whatever order. -/
def Agrees (d e : Dict κ ν) : Prop := ∀ key, d.get? key = e.get? key

/-! ### Lookups -/

theorem get?_mk_cons (entry : κ × ν) (rest : List (κ × ν)) (h) (key : κ) :
    (Dict.mk (entry :: rest) h).get? key =
      if entry.1 = key then some entry.2
      else (Dict.mk rest (List.nodup_cons.mp h).2).get? key := by
  by_cases hk : entry.1 = key <;> simp [get?, hk]

@[simp] theorem get?_empty (key : κ) : (empty : Dict κ ν).get? key = none := rfl

theorem get?_set (d : Dict κ ν) (key : κ) (value : ν) (k : κ) :
    (d.set key value).get? k = if key = k then some value else d.get? k := by
  obtain ⟨entries, h⟩ := d
  simp only [get?, set]
  induction entries with
  | nil => by_cases hk : key = k <;> simp [setEntry, hk]
  | cons entry rest ih =>
    have ih := ih (List.nodup_cons.mp h).2
    by_cases he : entry.1 = key
    · by_cases hk : key = k
      · simp [setEntry, he, hk]
      · simp [setEntry, he, hk]
    · by_cases hk : entry.1 = k
      · subst hk
        have : key ≠ entry.1 := fun e => he e.symm
        simp [setEntry, he, this]
      · simpa [setEntry, he, hk] using ih

@[simp] theorem get?_set_self (d : Dict κ ν) (key : κ) (value : ν) :
    (d.set key value).get? key = some value := by
  simp [get?_set]

theorem get?_set_ne (d : Dict κ ν) {key k : κ} (value : ν) (h : key ≠ k) :
    (d.set key value).get? k = d.get? k := by
  simp [get?_set, h]

theorem get?_eq_none_iff {d : Dict κ ν} {key : κ} : d.get? key = none ↔ key ∉ d.keys := by
  simp only [get?, keys, Option.map_eq_none_iff, List.find?_eq_none, List.mem_map,
    decide_eq_true_eq, not_exists, not_and]

theorem isSome_get?_iff {d : Dict κ ν} {key : κ} : (d.get? key).isSome ↔ key ∈ d.keys := by
  rw [← not_iff_not, Bool.not_eq_true, Option.isSome_eq_false_iff, Option.isNone_iff_eq_none,
    get?_eq_none_iff]

theorem get?_eq_some_iff {d : Dict κ ν} {key : κ} {value : ν} :
    d.get? key = some value ↔ (key, value) ∈ d.entries := by
  obtain ⟨entries, h⟩ := d
  induction entries with
  | nil => simp [get?]
  | cons entry rest ih =>
    obtain ⟨hnot, hrest⟩ := List.nodup_cons.mp h
    rw [get?_mk_cons, List.mem_cons]
    by_cases hk : entry.1 = key
    · rw [if_pos hk]
      constructor
      · intro hv
        exact Or.inl (Prod.ext hk.symm (Option.some.inj hv).symm)
      · rintro (hv | hv)
        · rw [← hv]
        · exact absurd (List.mem_map.mpr ⟨_, hv, hk.symm⟩) hnot
    · rw [if_neg hk, ih hrest]
      refine ⟨Or.inr, fun hv => hv.resolve_left fun e => hk ?_⟩
      rw [← e]

omit [DecidableEq κ] in
theorem eq_empty_of_keys {d : Dict κ ν} (h : d.keys = []) : d = empty := by
  obtain ⟨entries, hd⟩ := d
  cases List.map_eq_nil_iff.mp h
  rfl

theorem mem_values_iff {d : Dict κ ν} {value : ν} :
    value ∈ d.values ↔ ∃ key, d.get? key = some value := by
  simp [values, get?_eq_some_iff]

/-- A new key goes to the end, with its value. -/
theorem entries_set_of_notMem {d : Dict κ ν} {key : κ} (value : ν) (h : key ∉ d.keys) :
    (d.set key value).entries = d.entries ++ [(key, value)] := by
  obtain ⟨entries, hd⟩ := d
  induction entries with
  | nil => rfl
  | cons entry rest ih =>
    simp only [keys, List.map_cons, List.mem_cons, not_or] at h
    have hne : entry.1 ≠ key := fun e => h.1 e.symm
    have := ih (List.nodup_cons.mp hd).2 h.2
    simp only [set] at this
    simp [set, setEntry, hne, this]

theorem values_set_of_notMem {d : Dict κ ν} {key : κ} (value : ν) (h : key ∉ d.keys) :
    (d.set key value).values = d.values ++ [value] := by
  simp [values, entries_set_of_notMem value h]

theorem get?_erase (d : Dict κ ν) (key k : κ) :
    (d.erase key).get? k = if key = k then none else d.get? k := by
  refine Option.ext fun value => ?_
  rw [get?_eq_some_iff, erase, List.mem_filter]
  by_cases hk : key = k
  · simp [hk]
  · have hne : k ≠ key := fun e => hk e.symm
    simp [hk, hne, get?_eq_some_iff]

theorem keys_erase (d : Dict κ ν) (key : κ) :
    (d.erase key).keys = d.keys.filter fun k => decide (k ≠ key) := by
  simp [keys, erase, List.filter_map, Function.comp_def]

theorem get?_mapValues {μ : Type*} (f : κ → ν → μ) (d : Dict κ ν) (key : κ) :
    (d.mapValues f).get? key = (d.get? key).map (f key) := by
  refine Option.ext fun value => ?_
  rw [get?_eq_some_iff, Option.map_eq_some_iff]
  simp only [mapValues, List.mem_map, get?_eq_some_iff]
  constructor
  · rintro ⟨entry, hentry, heq⟩
    cases heq
    exact ⟨entry.2, hentry, rfl⟩
  · rintro ⟨old, hold, rfl⟩
    exact ⟨(key, old), hold, rfl⟩

theorem get?_foldl_set_of_notMem (key : β → κ) (value : β → ν) {items : List β} {k : κ}
    (h : k ∉ items.map key) (d : Dict κ ν) :
    (items.foldl (fun d item => d.set (key item) (value item)) d).get? k = d.get? k := by
  induction items generalizing d with
  | nil => rfl
  | cons item rest ih =>
    simp only [List.map_cons, List.mem_cons, not_or] at h
    rw [List.foldl_cons, ih h.2, get?_set_ne _ _ fun e => h.1 e.symm]

/-- Of items with different keys each gives its key its value. -/
theorem get?_foldl_set_of_mem (key : β → κ) (value : β → ν) {items : List β} {item : β}
    (hnodup : (items.map key).Nodup) (h : item ∈ items) (d : Dict κ ν) :
    (items.foldl (fun d item => d.set (key item) (value item)) d).get? (key item) =
      some (value item) := by
  induction items generalizing d with
  | nil => cases h
  | cons first rest ih =>
    obtain ⟨hnot, hrest⟩ := List.nodup_cons.mp hnodup
    rw [List.foldl_cons]
    rcases List.mem_cons.mp h with rfl | h
    · rw [get?_foldl_set_of_notMem key value hnot, get?_set_self]
    · exact ih hrest h _

/-- Of items that give a key one value each gives it that value. -/
theorem get?_ofItems_iff {key : β → κ} {value : β → ν} {items : List β}
    (hone : ∀ a ∈ items, ∀ b ∈ items, key a = key b → value a = value b) (k : κ) (v : ν) :
    (ofItems key value items).get? k = some v ↔ ∃ item ∈ items, key item = k ∧ value item = v := by
  induction items using List.reverseRecOn with
  | nil => simp [ofItems]
  | append_singleton items last ih =>
    have ih := ih fun a ha b hb => hone a (by simp [ha]) b (by simp [hb])
    rw [ofItems, List.foldl_append, List.foldl_cons, List.foldl_nil, ← ofItems, get?_set]
    by_cases hk : key last = k
    · rw [if_pos hk]
      constructor
      · intro hv
        exact ⟨last, by simp, hk, Option.some.inj hv⟩
      · rintro ⟨item, hitem, hik, rfl⟩
        rw [hone last (by simp) item hitem (hk.trans hik.symm)]
    · rw [if_neg hk, ih]
      constructor
      · rintro ⟨item, hitem, h⟩
        exact ⟨item, by simp [hitem], h⟩
      · rintro ⟨item, hitem, hik, hv⟩
        rcases List.mem_append.mp hitem with hitem | hitem
        · exact ⟨item, hitem, hik, hv⟩
        · rw [List.mem_singleton.mp hitem] at hik
          exact absurd hik hk

/-- The values of a dictionary, each under its own key, are the dictionary's. -/
theorem ofItems_values_agrees {key : ν → κ} {d : Dict κ ν}
    (hkey : ∀ k v, d.get? k = some v → key v = k) : (ofItems key id d.values).Agrees d := by
  intro k
  have hone : ∀ a ∈ d.values, ∀ b ∈ d.values, key a = key b → id a = id b := by
    intro a ha b hb hab
    obtain ⟨i, hi⟩ := mem_values_iff.mp ha
    obtain ⟨j, hj⟩ := mem_values_iff.mp hb
    rw [hkey i a hi, hkey j b hj] at hab
    rw [hab, hj] at hi
    exact (Option.some.inj hi).symm
  refine Option.ext fun v => ?_
  rw [get?_ofItems_iff hone]
  constructor
  · rintro ⟨item, hitem, hik, rfl⟩
    obtain ⟨i, hi⟩ := mem_values_iff.mp hitem
    rwa [← hik, hkey i item hi]
  · intro hv
    exact ⟨v, mem_values_iff.mpr ⟨k, hv⟩, hkey k v hv, rfl⟩

theorem get?_filter (p : κ → ν → Bool) (d : Dict κ ν) (key : κ) :
    (d.filter p).get? key = (d.get? key).filter (p key) := by
  ext value
  rw [get?_eq_some_iff, Option.filter_eq_some_iff, get?_eq_some_iff]
  exact List.mem_filter

theorem erase_filter (p : κ → ν → Bool) (d : Dict κ ν) (key : κ) :
    (d.filter p).erase key = (d.erase key).filter p := by
  simp only [erase, filter, List.filter_filter, Bool.and_comm]

/-- The entries with one key are the entry that a lookup finds. -/
theorem filter_entries_key (d : Dict κ ν) (key : κ) :
    (d.entries.filter fun entry => decide (entry.1 = key)) =
      (d.get? key).elim [] fun value => [(key, value)] := by
  obtain ⟨entries, hd⟩ := d
  induction entries with
  | nil => rfl
  | cons entry rest ih =>
    obtain ⟨hnot, hrest⟩ := List.nodup_cons.mp hd
    rw [get?_mk_cons]
    by_cases h : entry.1 = key
    · subst h
      have hnone : (rest.filter fun other => decide (other.1 = entry.1)) = [] := by
        rw [List.filter_eq_nil_iff]
        intro other hmem heq
        exact hnot (of_decide_eq_true heq ▸ List.mem_map_of_mem hmem)
      simp [hnone]
    · simpa [h] using ih hrest

/-! ### Sums over the values -/

section Sum

variable {M : Type*} [AddCommGroup M]

/-- Setting a key adds its new value to a sum over the values and takes its old value out. -/
theorem sum_set (f : κ × ν → M) (d : Dict κ ν) (key : κ) (value : ν) :
    ((d.set key value).entries.map f).sum =
      (d.entries.map f).sum + f (key, value) - ((d.get? key).elim 0 fun old => f (key, old)) := by
  obtain ⟨entries, hd⟩ := d
  simp only [set, get?]
  induction entries with
  | nil => simp [setEntry]
  | cons entry rest ih =>
    have ih := ih (List.nodup_cons.mp hd).2
    by_cases h : entry.1 = key
    · have he : f (key, entry.2) = f entry := by rw [← h]
      simp only [setEntry, h, if_true, List.map_cons, List.sum_cons, decide_true,
        List.find?_cons_of_pos, Option.map_some, Option.elim_some, he]
      abel
    · simp only [setEntry, h, if_false, List.map_cons, List.sum_cons, ih]
      rw [List.find?_cons_of_neg (by simpa using h)]
      abel

/-- Erasing a key takes its value out of a sum over the values. -/
theorem sum_erase (f : κ × ν → M) (d : Dict κ ν) (key : κ) :
    ((d.erase key).entries.map f).sum =
      (d.entries.map f).sum - ((d.get? key).elim 0 fun old => f (key, old)) := by
  have hsplit := List.sum_map_ite (fun entry : κ × ν => entry.1 = key) f f d.entries
  simp only [ite_self, filter_entries_key] at hsplit
  rw [erase, hsplit]
  cases d.get? key <;> simp

omit [DecidableEq κ] in
/-- A sum over the values does without the entries that count as zero. -/
theorem sum_filter (f : κ × ν → M) (d : Dict κ ν) {p : κ → ν → Bool}
    (h : ∀ entry ∈ d.entries, p entry.1 entry.2 = false → f entry = 0) :
    ((d.filter p).entries.map f).sum = (d.entries.map f).sum := by
  obtain ⟨entries, hd⟩ := d
  show ((entries.filter fun entry => p entry.1 entry.2).map f).sum = (entries.map f).sum
  induction entries with
  | nil => rfl
  | cons entry rest ih =>
    have ih := ih (List.nodup_cons.mp hd).2 fun other hother => h other (List.mem_cons_of_mem _ hother)
    rw [List.filter_cons, List.map_cons, List.sum_cons]
    split
    · rw [List.map_cons, List.sum_cons, ih]
    · rename_i hp
      have hzero : f entry = 0 := h entry (List.mem_cons_self ..) (by simpa using hp)
      rw [ih, hzero, zero_add]

end Sum

/-! ### Agreement -/

theorem Agrees.refl (d : Dict κ ν) : d.Agrees d := fun _ => rfl

theorem Agrees.trans {d e f : Dict κ ν} (h : d.Agrees e) (h' : e.Agrees f) : d.Agrees f :=
  fun key => (h key).trans (h' key)

theorem Agrees.set {d e : Dict κ ν} (h : d.Agrees e) (key : κ) (value : ν) :
    (d.set key value).Agrees (e.set key value) := fun k => by
  rw [get?_set, get?_set, h k]

/-- Dictionaries that agree have the same values, in whatever order. -/
theorem Agrees.values_perm {d e : Dict κ ν} (h : d.Agrees e) : d.values.Perm e.values := by
  refine List.Perm.map Prod.snd ?_
  rw [List.perm_ext_iff_of_nodup (List.Nodup.of_map _ d.nodup) (List.Nodup.of_map _ e.nodup)]
  rintro ⟨key, value⟩
  rw [← get?_eq_some_iff, ← get?_eq_some_iff, h key]

end Dict

end CryptoTrading.Kit
