import Mathlib.Algebra.BigOperators.Group.List.Basic
import Mathlib.Data.List.Dedup
import Mathlib.Data.List.Induction
import Mathlib.Data.List.Sort

/-! Stable sorting by a key.  A stable sort keeps, for each key, the entries with it in their order, and
nothing else about a list decides what it sorts to: two lists sort to the same one exactly when they have
the same entries with each key.  A list is then the sorted groups of its keys, one after the other. -/

namespace CryptoTrading.Kit.StableSort

variable {α κ : Type*} [LinearOrder κ] {key : α → κ} {xs ys : List α}

/-- The entries with a key, in their order. -/
def withKey (key : α → κ) (k : κ) (xs : List α) : List α := xs.filter fun x => key x = k

/-- A stable sort: among entries with one key, the earlier one stays first. -/
def sortOn (key : α → κ) (xs : List α) : List α := xs.mergeSort fun a b => key a ≤ key b

def Sorted (key : α → κ) (xs : List α) : Prop := xs.Pairwise fun a b => key a ≤ key b

@[simp] theorem mem_withKey {k : κ} {x : α} : x ∈ withKey key k xs ↔ x ∈ xs ∧ key x = k := by
  simp [withKey]

theorem withKey_cons (k : κ) (x : α) :
    withKey key k (x :: xs) = if key x = k then x :: withKey key k xs else withKey key k xs := by
  simp [withKey, List.filter_cons]

@[simp] theorem withKey_append (k : κ) :
    withKey key k (xs ++ ys) = withKey key k xs ++ withKey key k ys :=
  List.filter_append ..

theorem withKey_eq_self {k : κ} (h : ∀ x ∈ xs, key x = k) : withKey key k xs = xs :=
  List.filter_eq_self.mpr fun x hx => decide_eq_true (h x hx)

theorem withKey_eq_nil {k : κ} (h : ∀ x ∈ xs, key x ≠ k) : withKey key k xs = [] :=
  List.filter_eq_nil_iff.mpr fun x hx => by simpa using h x hx

theorem sortOn_perm (key : α → κ) (xs : List α) : (sortOn key xs).Perm xs :=
  List.mergeSort_perm ..

@[simp] theorem mem_sortOn {x : α} : x ∈ sortOn key xs ↔ x ∈ xs := (sortOn_perm key xs).mem_iff

theorem key_trans (key : α → κ) (a b c : α) (hab : decide (key a ≤ key b) = true)
    (hbc : decide (key b ≤ key c) = true) : decide (key a ≤ key c) = true := by
  rw [decide_eq_true_eq] at hab hbc ⊢
  exact hab.trans hbc

theorem key_total (key : α → κ) (a b : α) :
    (decide (key a ≤ key b) || decide (key b ≤ key a)) = true := by
  simpa using le_total (key a) (key b)

theorem sorted_sortOn (key : α → κ) (xs : List α) : Sorted key (sortOn key xs) := by
  have h : (sortOn key xs).Pairwise fun a b => decide (key a ≤ key b) = true :=
    List.pairwise_mergeSort (key_trans key) (key_total key) xs
  exact h.imp of_decide_eq_true

/-- A stable sort keeps the entries with a key in their order. -/
theorem withKey_sortOn (k : κ) : withKey key k (sortOn key xs) = withKey key k xs := by
  have hsub : (withKey key k xs).Sublist (sortOn key xs) := by
    refine List.sublist_mergeSort (key_trans key) (key_total key) ?_ List.filter_sublist
    refine List.pairwise_of_forall_mem_list fun a ha b hb => ?_
    rw [mem_withKey] at ha hb
    simp [ha.2, hb.2]
  have hkept : (withKey key k xs).Sublist (withKey key k (sortOn key xs)) := by
    have h := hsub.filter fun x => decide (key x = k)
    rwa [show List.filter (fun x => decide (key x = k)) (withKey key k xs) = withKey key k xs from
      withKey_eq_self fun x hx => (mem_withKey.mp hx).2] at h
  exact (hkept.eq_of_length ((sortOn_perm key xs).symm.filter _).length_eq).symm

/-- Sorted lists with the same entries for each key are one list. -/
theorem eq_of_withKey_eq (hxs : Sorted key xs) (hys : Sorted key ys)
    (h : ∀ k, withKey key k xs = withKey key k ys) : xs = ys := by
  -- An entry at the front has the least key of its list, and so leads the entries with that key.
  induction xs generalizing ys with
  | nil =>
    cases ys with
    | nil => rfl
    | cons y ys => simpa [withKey_cons, withKey] using h (key y)
  | cons x xs ih =>
    cases ys with
    | nil => simpa [withKey_cons, withKey] using h (key x)
    | cons y ys =>
      obtain ⟨hx, hsorted⟩ := List.pairwise_cons.mp hxs
      obtain ⟨hy, hsorted'⟩ := List.pairwise_cons.mp hys
      have hyx : key y ≤ key x := by
        have hmem : x ∈ withKey key (key x) (y :: ys) := by
          rw [← h]
          simp
        rcases List.mem_cons.mp (mem_withKey.mp hmem).1 with rfl | hmem
        · exact le_rfl
        · exact hy _ hmem
      have hxy : key x ≤ key y := by
        have hmem : y ∈ withKey key (key y) (x :: xs) := by
          rw [h]
          simp
        rcases List.mem_cons.mp (mem_withKey.mp hmem).1 with rfl | hmem
        · exact le_rfl
        · exact hx _ hmem
      have hkey := hyx.antisymm hxy
      have hhead := h (key x)
      simp only [withKey_cons, hkey, if_true] at hhead
      obtain ⟨rfl, -⟩ := List.cons.inj hhead
      refine congrArg (x :: ·) (ih hsorted hsorted' fun k => ?_)
      have hk := h k
      simp only [withKey_cons] at hk
      split at hk
      · exact (List.cons.inj hk).2
      · exact hk

/-- Lists sort to the same one exactly when they have the same entries with each key. -/
theorem sortOn_eq_sortOn_iff :
    sortOn key xs = sortOn key ys ↔ ∀ k, withKey key k xs = withKey key k ys := by
  constructor
  · intro h k
    rw [← withKey_sortOn, h, withKey_sortOn]
  · intro h
    refine eq_of_withKey_eq (sorted_sortOn key xs) (sorted_sortOn key ys) fun k => ?_
    rw [withKey_sortOn, withKey_sortOn, h]

/-- Lists with the same entries for each key are permutations of one another. -/
theorem perm_of_withKey_eq (h : ∀ k, withKey key k xs = withKey key k ys) : xs.Perm ys :=
  (sortOn_perm key xs).symm.trans ((sortOn_eq_sortOn_iff.mpr h).symm ▸ sortOn_perm key ys)

/-- Permutations in which no key is shared have the same entries for each key. -/
theorem withKey_eq_of_perm (h : xs.Perm ys) (hnodup : (xs.map key).Nodup) (k : κ) :
    withKey key k xs = withKey key k ys := by
  have hkept : (withKey key k xs).Perm (withKey key k ys) := h.filter _
  have hshort : ((withKey key k xs).map key).Nodup := hnodup.sublist (List.filter_sublist.map key)
  have hkeys : (withKey key k xs).map key = List.replicate (withKey key k xs).length k :=
    List.eq_replicate_iff.mpr ⟨List.length_map .., fun m hm => by
      obtain ⟨x, hx, rfl⟩ := List.mem_map.mp hm
      exact (mem_withKey.mp hx).2⟩
  rw [hkeys, List.nodup_replicate] at hshort
  rcases Nat.le_one_iff_eq_zero_or_eq_one.mp hshort with hzero | hone
  · rw [List.length_eq_zero_iff] at hzero
    rw [hzero] at hkept ⊢
    exact hkept.nil_eq
  · obtain ⟨x, hx⟩ := List.length_eq_one_iff.mp hone
    rw [hx] at hkept ⊢
    exact List.singleton_perm.mp hkept

theorem sortOn_eq_self (h : Sorted key xs) : sortOn key xs = xs :=
  eq_of_withKey_eq (sorted_sortOn key xs) h fun _ => withKey_sortOn _

/-! ### The groups of a list -/

/-- The keys of a list, each once, in order. -/
def keys (key : α → κ) (xs : List α) : List κ := sortOn id (xs.map key).dedup

@[simp] theorem mem_keys {k : κ} : k ∈ keys key xs ↔ ∃ x ∈ xs, key x = k := by
  simp [keys]

theorem nodup_keys (key : α → κ) (xs : List α) : (keys key xs).Nodup :=
  (sortOn_perm id _).symm.nodup (List.nodup_dedup _)

theorem keys_lt (key : α → κ) (xs : List α) : (keys key xs).Pairwise (· < ·) :=
  (sorted_sortOn id (xs.map key).dedup).imp₂ (fun _ _ hle hne => lt_of_le_of_ne hle hne)
    (nodup_keys key xs)

theorem withKey_ne_nil {k : κ} (h : k ∈ keys key xs) : withKey key k xs ≠ [] := by
  obtain ⟨x, hx, hkey⟩ := mem_keys.mp h
  exact List.ne_nil_of_mem (mem_withKey.mpr ⟨hx, hkey⟩)

/-- Of the groups with the keys `ks`, those with one key are its group, where `ks` has it. -/
theorem withKey_flatMap (k : κ) {ks : List κ} (hks : ks.Nodup) :
    withKey key k (ks.flatMap fun k => withKey key k xs) = if k ∈ ks then withKey key k xs else [] := by
  induction ks with
  | nil => rfl
  | cons head ks ih =>
    obtain ⟨hhead, hks⟩ := List.nodup_cons.mp hks
    rw [List.flatMap_cons, withKey_append, ih hks]
    by_cases hk : k = head
    · subst hk
      have hself : withKey key k (withKey key k xs) = withKey key k xs :=
        withKey_eq_self fun x hx => (mem_withKey.mp hx).2
      simp [hself, hhead]
    · have hnil : withKey key k (withKey key head xs) = [] :=
        withKey_eq_nil fun x hx => (mem_withKey.mp hx).2 ▸ Ne.symm hk
      simp [hnil, hk]

/-- The groups of a list, one after the other, are the sorted list. -/
theorem flatMap_keys (key : α → κ) (xs : List α) :
    (keys key xs).flatMap (fun k => withKey key k xs) = sortOn key xs := by
  refine eq_of_withKey_eq ?_ (sorted_sortOn key xs) fun k => ?_
  · refine List.pairwise_flatMap.mpr ⟨fun k _ => ?_, (keys_lt key xs).imp fun hlt a ha b hb => ?_⟩
    · refine List.pairwise_of_forall_mem_list fun a ha b hb => ?_
      rw [mem_withKey] at ha hb
      exact (ha.2.trans hb.2.symm).le
    · rw [mem_withKey] at ha hb
      exact (ha.2.trans_lt (hlt.trans_eq hb.2.symm)).le
  · rw [withKey_flatMap k (nodup_keys key xs), withKey_sortOn]
    by_cases hk : k ∈ keys key xs
    · simp [hk]
    · rw [if_neg hk, withKey_eq_nil fun x hx heq => hk (mem_keys.mpr ⟨x, hx, heq⟩)]

/-- The last entry with each key. -/
def lasts (key : α → κ) (xs : List α) : List α :=
  (keys key xs).filterMap fun k => (withKey key k xs).getLast?

theorem map_lasts (key : α → κ) (xs : List α) : (lasts key xs).map key = keys key xs := by
  have hgroups : ∀ k ∈ keys key xs, withKey key k xs ≠ [] := fun _ => withKey_ne_nil
  rw [lasts]
  generalize keys key xs = ks at hgroups ⊢
  induction ks with
  | nil => rfl
  | cons k ks ih =>
    have hne := hgroups k List.mem_cons_self
    have hlast := mem_withKey.mp (List.getLast_mem hne)
    have hrest := ih fun k hk => hgroups k (List.mem_cons_of_mem _ hk)
    simp [List.getLast?_eq_some_getLast hne, hlast.2, hrest]

theorem getLast?_flatMap_withKey {ks : List κ} (hks : ∀ k ∈ ks, withKey key k xs ≠ []) :
    (ks.flatMap fun k => withKey key k xs).getLast? =
      ks.getLast?.bind fun k => (withKey key k xs).getLast? := by
  cases ks using List.reverseRecOn with
  | nil => rfl
  | append_singleton ks k =>
    rw [List.flatMap_append, List.flatMap_singleton, List.getLast?_append_of_ne_nil _ (hks k (by simp)),
      List.getLast?_concat]
    rfl

/-- The last of these is the last entry in order. -/
theorem getLast?_lasts (key : α → κ) (xs : List α) :
    (lasts key xs).getLast? = (sortOn key xs).getLast? := by
  have hgroups : ∀ k ∈ keys key xs, withKey key k xs ≠ [] := fun _ => withKey_ne_nil
  rw [← flatMap_keys, getLast?_flatMap_withKey hgroups, lasts]
  cases h : keys key xs using List.reverseRecOn with
  | nil => rfl
  | append_singleton ks k =>
    have hk : (withKey key k xs).getLast? = some ((withKey key k xs).getLast (hgroups k (by simp [h]))) :=
      List.getLast?_eq_some_getLast _
    simp [List.filterMap_append, hk]

/-- The sums of the groups are the sum of the list. -/
theorem sum_keys {M : Type*} [AddCommMonoid M] (key : α → κ) (f : α → M) (xs : List α) :
    ((keys key xs).map fun k => ((withKey key k xs).map f).sum).sum = (xs.map f).sum := by
  have hflat : ((keys key xs).map fun k => ((withKey key k xs).map f).sum).sum =
      (((keys key xs).flatMap fun k => withKey key k xs).map f).sum := by
    induction keys key xs with
    | nil => rfl
    | cons k ks ih => simp [ih]
  rw [hflat, flatMap_keys]
  exact ((sortOn_perm key xs).map f).sum_eq

end CryptoTrading.Kit.StableSort
