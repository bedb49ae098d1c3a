import Mathlib.Init

/-! Computations on a state that may raise, and that keep what they did to the state when they do.
`Ends` says how such a computation ends; its rules take a computation apart.  `Raises` says what a
check without a state raises at most. -/

namespace CryptoTrading.Kit

variable {ε σ α β : Type}

/-- What the check raises, if it does, is `P`. -/
def Raises (P : ε → Prop) : Except ε α → Prop
  | .error error => P error
  | .ok _ => True

theorem bind_eq_ok_iff {x : Except ε α} {f : α → Except ε β} {b : β} :
    x >>= f = .ok b ↔ ∃ a, x = .ok a ∧ f a = .ok b := by
  cases x <;> simp [bind, Except.bind]

theorem toOption_eq_some_iff {x : Except ε α} {a : α} : x.toOption = some a ↔ x = .ok a := by
  cases x <;> simp [Except.toOption]

theorem map_eq_ok_iff {x : Except ε α} {f : α → β} {b : β} :
    x.map f = .ok b ↔ ∃ a, x = .ok a ∧ f a = b := by
  cases x <;> simp [Except.map]

theorem bind_eq_error_iff {x : Except ε α} {f : α → Except ε β} {error : ε} :
    x >>= f = .error error ↔ x = .error error ∨ ∃ a, x = .ok a ∧ f a = .error error := by
  cases x <;> simp [bind, Except.bind]

theorem map_eq_error_iff {x : Except ε α} {f : α → β} {error : ε} :
    x.map f = .error error ↔ x = .error error := by
  cases x <;> simp [Except.map]

/-- A computation over a list that returns has a result for each item, and results of items only. -/
theorem mapM_eq_ok {f : α → Except ε β} {items : List α} {results : List β}
    (h : items.mapM f = .ok results) :
    (∀ a ∈ items, ∃ b ∈ results, f a = .ok b) ∧ ∀ b ∈ results, ∃ a ∈ items, f a = .ok b := by
  induction items generalizing results with
  | nil =>
    cases h
    exact ⟨fun _ ha => absurd ha List.not_mem_nil, fun _ hb => absurd hb List.not_mem_nil⟩
  | cons a items ih =>
    rw [List.mapM_cons] at h
    obtain ⟨b, hb, h⟩ := bind_eq_ok_iff.mp h
    obtain ⟨rest, hrest, h⟩ := bind_eq_ok_iff.mp h
    cases h
    obtain ⟨hitems, hresults⟩ := ih hrest
    constructor
    · rintro other hother
      rcases List.mem_cons.mp hother with rfl | hother
      · exact ⟨b, List.mem_cons_self, hb⟩
      · obtain ⟨found, hfound, hgives⟩ := hitems other hother
        exact ⟨found, List.mem_cons_of_mem _ hfound, hgives⟩
    · rintro other hother
      rcases List.mem_cons.mp hother with rfl | hother
      · exact ⟨a, List.mem_cons_self, hb⟩
      · obtain ⟨found, hfound, hgives⟩ := hresults other hother
        exact ⟨found, List.mem_cons_of_mem _ hfound, hgives⟩

/-- A computation over a list, of each result of which another one is told, gives these. -/
theorem mapM_of_mapM {ε' γ : Type} {f : α → Except ε β} {g : α → Except ε' γ} {tell : β → γ}
    (htell : ∀ a b, f a = .ok b → g a = .ok (tell b)) {items : List α} {results : List β}
    (h : items.mapM f = .ok results) : items.mapM g = .ok (results.map tell) := by
  induction items generalizing results with
  | nil =>
    cases h
    rfl
  | cons a items ih =>
    rw [List.mapM_cons] at h
    obtain ⟨b, hb, h⟩ := bind_eq_ok_iff.mp h
    obtain ⟨rest, hrest, h⟩ := bind_eq_ok_iff.mp h
    cases h
    rw [List.mapM_cons, htell a b hb, ih hrest]
    rfl

/-- The results of a computation over a list, where each of them tells its item. -/
theorem map_of_mapM_eq_ok {f : α → Except ε β} {item : β → α} (hitem : ∀ a b, f a = .ok b → item b = a)
    {items : List α} {results : List β} (h : items.mapM f = .ok results) :
    results.map item = items := by
  induction items generalizing results with
  | nil =>
    cases h
    rfl
  | cons a items ih =>
    rw [List.mapM_cons] at h
    obtain ⟨b, hb, h⟩ := bind_eq_ok_iff.mp h
    obtain ⟨rest, hrest, h⟩ := bind_eq_ok_iff.mp h
    cases h
    rw [List.map_cons, hitem a b hb, ih hrest]

theorem mapM_congr_of_mem {f g : α → Except ε β} {items : List α} (h : ∀ a ∈ items, f a = g a) :
    items.mapM f = items.mapM g := by
  induction items with
  | nil => rfl
  | cons a items ih =>
    rw [List.mapM_cons, List.mapM_cons, h a List.mem_cons_self,
      ih fun other hother => h other (List.mem_cons_of_mem _ hother)]

/-- A computation over a list goes on after the part of it that has returned. -/
theorem mapM_append_of_ok {f : α → Except ε β} {items : List α} {results : List β}
    (h : items.mapM f = .ok results) (more : List α) :
    (items ++ more).mapM f = (more.mapM f).map (results ++ ·) := by
  rw [List.mapM_append, h]
  cases more.mapM f with
  | error error => rfl
  | ok later => rfl

/-- A computation over a list raises at one of its items. -/
theorem mapM_eq_error {f : α → Except ε β} {items : List α} {error : ε}
    (h : items.mapM f = .error error) : ∃ a ∈ items, f a = .error error := by
  induction items with
  | nil => cases h
  | cons a items ih =>
    rw [List.mapM_cons] at h
    rcases bind_eq_error_iff.mp h with hraises | ⟨b, -, h⟩
    · exact ⟨a, List.mem_cons_self, hraises⟩
    rcases bind_eq_error_iff.mp h with hraises | ⟨rest, -, h⟩
    · obtain ⟨other, hother, hraises⟩ := ih hraises
      exact ⟨other, List.mem_cons_of_mem _ hother, hraises⟩
    · cases h

theorem exists_mapM_eq_ok {f : α → Except ε β} {items : List α}
    (h : ∀ a ∈ items, ∃ b, f a = .ok b) : ∃ results, items.mapM f = .ok results := by
  induction items with
  | nil => exact ⟨[], rfl⟩
  | cons a items ih =>
    obtain ⟨b, hb⟩ := h a List.mem_cons_self
    obtain ⟨rest, hrest⟩ := ih fun other hother => h other (List.mem_cons_of_mem _ hother)
    rw [List.mapM_cons, hb, hrest]
    exact ⟨_, rfl⟩

/-- The results of a computation over a list, counted where each tells of its item. -/
theorem countP_mapM {f : α → Except ε β} {p : α → Bool} {q : β → Bool}
    (hsame : ∀ a b, f a = .ok b → q b = p a) {items : List α} {results : List β}
    (h : items.mapM f = .ok results) : results.countP q = items.countP p := by
  induction items generalizing results with
  | nil =>
    cases h
    rfl
  | cons a items ih =>
    rw [List.mapM_cons] at h
    obtain ⟨b, hb, h⟩ := bind_eq_ok_iff.mp h
    obtain ⟨rest, hrest, h⟩ := bind_eq_ok_iff.mp h
    cases h
    rw [List.countP_cons, List.countP_cons, ih hrest, hsame a b hb]

theorem mapError_eq_ok_iff {ε' : Type} {x : Except ε α} {f : ε → ε'} {a : α} :
    x.mapError f = .ok a ↔ x = .ok a := by
  cases x with
  | error own =>
    change Except.error (f own) = _ ↔ _
    simp
  | ok b =>
    change Except.ok b = _ ↔ _
    simp

theorem mapError_eq_error_iff {ε' : Type} {x : Except ε α} {f : ε → ε'} {error : ε'} :
    x.mapError f = .error error ↔ ∃ own, x = .error own ∧ f own = error := by
  cases x with
  | error own =>
    change Except.error (f own) = _ ↔ _
    simp
  | ok a =>
    change Except.ok a = _ ↔ _
    simp

/-- What every step of a loop that returns keeps holds at its end. -/
theorem foldlM_invariant {P : σ → Prop} {step : σ → α → Except ε σ} {items : List α} {s t : σ}
    (h : items.foldlM step s = .ok t) (hs : P s)
    (hstep : ∀ s item t, step s item = .ok t → P s → P t) : P t := by
  induction items generalizing s with
  | nil =>
    cases h
    exact hs
  | cons item rest ih =>
    rw [List.foldlM_cons] at h
    obtain ⟨m, hm, hrest⟩ := bind_eq_ok_iff.mp h
    exact ih hrest (hstep s item m hm hs)

/-- What the last step of a loop brings about holds at its end. -/
theorem foldlM_last {P : σ → Prop} {step : σ → α → Except ε σ} {items : List α} {s t : σ}
    (h : items.foldlM step s = .ok t) (hitems : items ≠ [])
    (hstep : ∀ s item t, step s item = .ok t → P t) : P t := by
  rcases List.eq_nil_or_concat items with hnil | ⟨init, last, rfl⟩
  · exact absurd hnil hitems
  · rw [List.concat_eq_append, List.foldlM_append] at h
    obtain ⟨m, -, hlast⟩ := bind_eq_ok_iff.mp h
    obtain ⟨t', ht', hend⟩ := bind_eq_ok_iff.mp hlast
    cases hend
    exact hstep m last t ht'

section Raises

variable {P : ε → Prop}

@[simp] theorem raises_ok {a : α} : Raises P (.ok a : Except ε α) := trivial

@[simp] theorem raises_error_iff {error : ε} :
    Raises P (.error error : Except ε α) ↔ P error := Iff.rfl

theorem Raises.imp {Q : ε → Prop} {x : Except ε α} (h : Raises P x) (himp : ∀ e, P e → Q e) :
    Raises Q x := by
  cases x with
  | error error => exact himp error h
  | ok a => trivial

theorem Raises.bind {x : Except ε α} {f : α → Except ε β} (hx : Raises P x)
    (hf : ∀ a, Raises P (f a)) : Raises P (x >>= f) := by
  cases x with
  | error error => exact hx
  | ok a => exact hf a

theorem Raises.mapError {ε' : Type} {P : ε' → Prop} {f : ε → ε'} {x : Except ε α}
    (h : Raises (fun e => P (f e)) x) : Raises P (x.mapError f) := by
  cases x with
  | error error => exact h
  | ok a => trivial

theorem Raises.ite {p : Prop} [Decidable p] {x y : Except ε α} (hx : p → Raises P x)
    (hy : ¬p → Raises P y) : Raises P (if p then x else y) := by
  split
  · exact hx ‹_›
  · exact hy ‹_›

end Raises

/-- A computation that raises an `ε` or returns an `α`, on a state `σ` that outlives both. -/
abbrev Fallible (ε σ α : Type) := EStateM ε σ α

namespace Fallible

/-- How a computation ends. -/
def ending : EStateM.Result ε σ α → Except ε α × σ
  | .ok value state => (.ok value, state)
  | .error error state => (.error error, state)

/-- From `s`, the computation ends with `result`, in the state `t`. -/
def Ends (x : Fallible ε σ α) (s : σ) (result : Except ε α) (t : σ) : Prop :=
  ending (x s) = (result, t)

variable {s t : σ} {result : Except ε α}

theorem ends_of_returned {x : Fallible ε σ α} {a : α} {m : σ} (hx : x s = .ok a m) :
    Ends x s result t ↔ result = .ok a ∧ t = m := by
  simp [Ends, ending, hx, eq_comm]

theorem ends_of_raised {x : Fallible ε σ α} {error : ε} {m : σ} (hx : x s = .error error m) :
    Ends x s result t ↔ result = .error error ∧ t = m := by
  simp [Ends, ending, hx, eq_comm]

@[simp] theorem ends_pure_iff {a : α} :
    Ends (pure a : Fallible ε σ α) s result t ↔ result = .ok a ∧ t = s := ends_of_returned rfl

@[simp] theorem ends_throw_iff {error : ε} :
    Ends (throw error : Fallible ε σ α) s result t ↔ result = .error error ∧ t = s :=
  ends_of_raised rfl

@[simp] theorem ends_get_iff {result : Except ε σ} :
    Ends (get : Fallible ε σ σ) s result t ↔ result = .ok s ∧ t = s := ends_of_returned rfl

@[simp] theorem ends_set_iff {next : σ} {result : Except ε PUnit} :
    Ends (set next : Fallible ε σ PUnit) s result t ↔ result = .ok () ∧ t = next :=
  ends_of_returned rfl

/-- What a check that leaves the state alone raises or returns. -/
@[simp] theorem ends_ofExcept_iff {x : Except ε α} :
    Ends (MonadExcept.ofExcept x : Fallible ε σ α) s result t ↔ result = x ∧ t = s := by
  cases x with
  | error error => exact ends_throw_iff
  | ok a => exact ends_pure_iff

theorem ends_congr {x y : Fallible ε σ α} {m : σ} (h : x s = y m) :
    Ends x s result t ↔ Ends y m result t := by
  rw [Ends, Ends, h]

section Applied

variable {x : Fallible ε σ α} {f : α → Fallible ε σ β} {handler : ε → Fallible ε σ α} {a : α}
  {error : ε} {m : σ}

theorem bind_of_returned (hx : x s = .ok a m) : (x >>= f) s = f a m := by
  simp [bind, EStateM.bind, hx]

theorem bind_of_raised (hx : x s = .error error m) : (x >>= f) s = .error error m := by
  simp [bind, EStateM.bind, hx]

theorem tryCatch_of_returned (hx : x s = .ok a m) : (tryCatch x handler) s = .ok a m := by
  change EStateM.tryCatch x handler s = _
  delta EStateM.tryCatch
  simp only [hx]

theorem tryCatch_of_raised (hx : x s = .error error m) :
    (tryCatch x handler) s = handler error m := by
  change EStateM.tryCatch x handler s = _
  delta EStateM.tryCatch
  simp only [hx]
  rfl

end Applied

/-- A computation raises, and the next does not start, or it returns, and the next starts there. -/
theorem ends_bind_iff {x : Fallible ε σ α} {f : α → Fallible ε σ β} {result : Except ε β} :
    Ends (x >>= f) s result t ↔ (∃ error, Ends x s (.error error) t ∧ result = .error error) ∨
      ∃ a m, Ends x s (.ok a) m ∧ Ends (f a) m result t := by
  cases hx : x s with
  | ok a m =>
    rw [ends_congr (bind_of_returned hx)]
    simp [ends_of_returned hx, and_assoc]
  | error error m =>
    simp [ends_of_raised hx, ends_of_raised (bind_of_raised (f := f) hx), and_assoc, and_comm]

/-- The rest of a computation starts where its first part returns. -/
theorem ends_bind_of_returns {x : Fallible ε σ α} {f : α → Fallible ε σ β} {a : α} {m : σ}
    {result : Except ε β} (hx : Ends x s (.ok a) m) :
    Ends (x >>= f) s result t ↔ Ends (f a) m result t := by
  cases h : x s with
  | ok b m' =>
    obtain ⟨⟨⟩, rfl⟩ := (ends_of_returned h).mp hx
    exact ends_congr (bind_of_returned h)
  | error error m' => cases ((ends_of_raised h).mp hx).1

/-- The rest of a computation does not start where its first part raises. -/
theorem ends_bind_of_raises {x : Fallible ε σ α} {f : α → Fallible ε σ β} {error : ε} {m : σ}
    {result : Except ε β} (hx : Ends x s (.error error) m) :
    Ends (x >>= f) s result t ↔ result = .error error ∧ t = m := by
  cases h : x s with
  | ok b m' => cases ((ends_of_returned h).mp hx).1
  | error other m' =>
    obtain ⟨⟨⟩, rfl⟩ := (ends_of_raised h).mp hx
    exact ends_of_raised (bind_of_raised h)

/-- A computation returns, or it raises, and the handler starts there. -/
theorem ends_tryCatch_iff {x : Fallible ε σ α} {handler : ε → Fallible ε σ α} :
    Ends (tryCatch x handler) s result t ↔ (∃ a, Ends x s (.ok a) t ∧ result = .ok a) ∨
      ∃ error m, Ends x s (.error error) m ∧ Ends (handler error) m result t := by
  cases hx : x s with
  | ok a m =>
    have hcatch : (tryCatch x handler) s = .ok a m := tryCatch_of_returned hx
    simp [ends_of_returned hx, ends_of_returned hcatch, and_assoc, and_comm]
  | error error m =>
    rw [ends_congr (tryCatch_of_raised hx)]
    simp [ends_of_raised hx, and_assoc]

/-- The handler does not start where the computation returns. -/
theorem ends_tryCatch_of_returns {x : Fallible ε σ α} {handler : ε → Fallible ε σ α} {a : α} {m : σ}
    (hx : Ends x s (.ok a) m) : Ends (tryCatch x handler) s result t ↔ result = .ok a ∧ t = m := by
  cases h : x s with
  | ok b m' =>
    obtain ⟨⟨⟩, rfl⟩ := (ends_of_returned h).mp hx
    exact ends_of_returned (tryCatch_of_returned h)
  | error error m' => cases ((ends_of_raised h).mp hx).1

/-- The handler starts where the computation raises. -/
theorem ends_tryCatch_of_raises {x : Fallible ε σ α} {handler : ε → Fallible ε σ α} {error : ε}
    {m : σ} (hx : Ends x s (.error error) m) :
    Ends (tryCatch x handler) s result t ↔ Ends (handler error) m result t := by
  cases h : x s with
  | ok b m' => cases ((ends_of_returned h).mp hx).1
  | error other m' =>
    obtain ⟨⟨⟩, rfl⟩ := (ends_of_raised h).mp hx
    exact ends_congr (tryCatch_of_raised h)

/-- `try` around a computation that is told apart from its result. -/
def settled (x : Fallible ε σ α) : Fallible ε σ (Except ε α) :=
  tryCatch (Except.ok <$> x) fun error => pure (.error error)

/-- `try: x` with `finally: last`. -/
def andFinally (x : Fallible ε σ α) (last : Fallible ε σ Unit) : Fallible ε σ α := do
  let outcome ← settled x
  last
  MonadExcept.ofExcept outcome

theorem ends_settled_iff {x : Fallible ε σ α} {result : Except ε (Except ε α)} :
    Ends (settled x) s result t ↔ ∃ outcome, Ends x s outcome t ∧ result = .ok outcome := by
  cases hx : x s with
  | ok a m =>
    have hsettled : settled x s = .ok (.ok a) m := by
      refine tryCatch_of_returned ?_
      simp [Functor.map, EStateM.map, hx]
    rw [ends_of_returned hsettled]
    simp [ends_of_returned hx, and_assoc, and_comm]
  | error error m =>
    have hsettled : settled x s = .ok (.error error) m := by
      have hmap : (Except.ok <$> x : Fallible ε σ (Except ε α)) s = .error error m := by
        simp [Functor.map, EStateM.map, hx]
      exact (tryCatch_of_raised hmap).trans rfl
    rw [ends_of_returned hsettled]
    simp [ends_of_raised hx, and_assoc, and_comm]

/-- The last computation starts where the first ends, and what it raises goes before what that raised. -/
theorem ends_andFinally_iff {x : Fallible ε σ α} {last : Fallible ε σ Unit} :
    Ends (andFinally x last) s result t ↔ ∃ outcome m, Ends x s outcome m ∧
      ((∃ error, Ends last m (.error error) t ∧ result = .error error) ∨
        Ends last m (.ok ()) t ∧ result = outcome) := by
  unfold andFinally
  constructor
  · intro h
    obtain ⟨error, hraises, -⟩ | ⟨outcome, m, hx, hrest⟩ := ends_bind_iff.mp h
    · obtain ⟨_, -, ⟨⟩⟩ := ends_settled_iff.mp hraises
    · obtain ⟨_, hx, ⟨⟩⟩ := ends_settled_iff.mp hx
      refine ⟨outcome, m, hx, ?_⟩
      obtain ⟨error, hraises, hresult⟩ | ⟨_, _, hlast, hend⟩ := ends_bind_iff.mp hrest
      · exact .inl ⟨error, hraises, hresult⟩
      · obtain ⟨rfl, rfl⟩ := ends_ofExcept_iff.mp hend
        exact .inr ⟨hlast, rfl⟩
  · rintro ⟨outcome, m, hx, h⟩
    rw [ends_bind_of_returns (ends_settled_iff.mpr ⟨outcome, hx, rfl⟩)]
    rcases h with ⟨error, h, rfl⟩ | ⟨hlast, rfl⟩
    · exact ends_bind_iff.mpr (.inl ⟨error, h, rfl⟩)
    · rw [ends_bind_of_returns hlast]
      exact ends_ofExcept_iff.mpr ⟨rfl, rfl⟩

@[simp] theorem ends_modify_iff {f : σ → σ} {result : Except ε PUnit} :
    Ends (modify f : Fallible ε σ PUnit) s result t ↔ result = .ok () ∧ t = f s :=
  ends_of_returned rfl

section Within

variable {τ ε' : Type} {part : σ → τ} {put : τ → σ → σ} {tell : ε' → ε} {x : Fallible ε' τ α}

/-- A computation on a part of the state, whose errors are told in other words. -/
def within (part : σ → τ) (put : τ → σ → σ) (tell : ε' → ε) (x : Fallible ε' τ α) : Fallible ε σ α := fun s =>
  match x (part s) with
  | .ok a m => .ok a (put m s)
  | .error error m => .error (tell error) (put m s)

theorem ends_within_iff : Ends (within part put tell x) s result t ↔
    ∃ own m, Ends x (part s) own m ∧ result = own.mapError tell ∧ t = put m s := by
  cases hx : x (part s) with
  | ok a m =>
    have hwithin : within part put tell x s = .ok a (put m s) := by simp [within, hx]
    rw [ends_of_returned hwithin]
    constructor
    · rintro ⟨rfl, rfl⟩
      exact ⟨_, m, (ends_of_returned hx).mpr ⟨rfl, rfl⟩, rfl, rfl⟩
    · rintro ⟨own, m', hown, rfl, rfl⟩
      obtain ⟨rfl, rfl⟩ := (ends_of_returned hx).mp hown
      exact ⟨rfl, rfl⟩
  | error error m =>
    have hwithin : within part put tell x s = .error (tell error) (put m s) := by simp [within, hx]
    rw [ends_of_raised hwithin]
    constructor
    · rintro ⟨rfl, rfl⟩
      exact ⟨_, m, (ends_of_raised hx).mpr ⟨rfl, rfl⟩, rfl, rfl⟩
    · rintro ⟨own, m', hown, rfl, rfl⟩
      obtain ⟨rfl, rfl⟩ := (ends_of_raised hx).mp hown
      exact ⟨rfl, rfl⟩

end Within

/-- Wherever the computation starts, and however it ends, it keeps `P`. -/
def Keeps (P : σ → Prop) (x : Fallible ε σ α) : Prop := ∀ s result t, P s → Ends x s result t → P t

section Keeps

variable {P : σ → Prop}

theorem Keeps.pure {a : α} : Keeps P (Pure.pure a : Fallible ε σ α) := fun _ _ _ hs h =>
  (ends_pure_iff.mp h).2 ▸ hs

theorem Keeps.throw {error : ε} : Keeps P (throwThe ε error : Fallible ε σ α) := fun _ _ _ hs h =>
  (ends_throw_iff.mp h).2 ▸ hs

theorem Keeps.get : Keeps P (MonadState.get : Fallible ε σ σ) := fun _ _ _ hs h =>
  (ends_get_iff.mp h).2 ▸ hs

theorem Keeps.modify {f : σ → σ} (h : ∀ s, P s → P (f s)) : Keeps P (modify f : Fallible ε σ PUnit) :=
  fun s _ _ hs hends => (ends_modify_iff.mp hends).2 ▸ h s hs

theorem Keeps.bind {x : Fallible ε σ α} {f : α → Fallible ε σ β} (hx : Keeps P x) (hf : ∀ a, Keeps P (f a)) :
    Keeps P (x >>= f) := by
  intro s result t hs h
  obtain ⟨error, h, -⟩ | ⟨a, m, hm, h⟩ := ends_bind_iff.mp h
  · exact hx s _ t hs h
  · exact hf a m _ t (hx s _ m hs hm) h

theorem Keeps.ite {p : Prop} [Decidable p] {x y : Fallible ε σ α} (hx : p → Keeps P x) (hy : ¬p → Keeps P y) :
    Keeps P (if p then x else y) := by
  split
  · exact hx ‹_›
  · exact hy ‹_›

theorem Keeps.tryCatch {x : Fallible ε σ α} {handler : ε → Fallible ε σ α} (hx : Keeps P x)
    (hhandler : ∀ error, Keeps P (handler error)) : Keeps P (tryCatchThe ε x handler) := by
  intro s result t hs h
  obtain ⟨a, h, -⟩ | ⟨error, m, hm, h⟩ := ends_tryCatch_iff.mp h
  · exact hx s _ t hs h
  · exact hhandler error m _ t (hx s _ m hs hm) h

theorem Keeps.andFinally {x : Fallible ε σ α} {last : Fallible ε σ Unit} (hx : Keeps P x)
    (hlast : Keeps P last) : Keeps P (andFinally x last) := by
  intro s result t hs h
  obtain ⟨outcome, m, hm, ⟨error, h, -⟩ | ⟨h, -⟩⟩ := ends_andFinally_iff.mp h
  · exact hlast m _ t (hx s _ m hs hm) h
  · exact hlast m _ t (hx s _ m hs hm) h

end Keeps

end Fallible

end CryptoTrading.Kit
