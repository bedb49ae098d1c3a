import CryptoTrading.Kit.Run

/-! Computations that may raise and that leave a trace of what they did.  `Returns` says what such a
computation returns and the trace it leaves; its rules take a computation apart.  `Follows` says that
the trace is a run of a transition system, to the state that is returned, `Ensures` what may be raised
and returned, and `Alike` what two computations return whatever their traces. -/

namespace CryptoTrading.Kit

variable {ε τ α β σ : Type}

/-- A computation that raised an `ε`, or returned an `α` and left a trace. -/
inductive Traced (ε τ α : Type)
  | raised (error : ε)
  | returned (value : α) (trace : List τ)

namespace Traced

/-- The computation that leaves `item` in the trace. -/
def emit (item : τ) : Traced ε τ Unit := .returned () [item]

/-- A computation that leaves no trace. -/
def lift : Except ε α → Traced ε τ α
  | .error error => .raised error
  | .ok value => .returned value []

/-- A computation after one that left `first`. -/
def after (first : List τ) : Traced ε τ α → Traced ε τ α
  | .raised error => .raised error
  | .returned value rest => .returned value (first ++ rest)

instance : Monad (Traced ε τ) where
  pure value := .returned value []
  bind x f :=
    match x with
    | .raised error => .raised error
    | .returned value first => (f value).after first

protected theorem map_id (x : Traced ε τ α) : id <$> x = x := by
  cases x <;> simp [Functor.map, after]

protected theorem pure_bind (a : α) (f : α → Traced ε τ β) : pure a >>= f = f a := by
  cases h : f a <;> simp [Pure.pure, Bind.bind, after, h]

protected theorem bind_assoc {γ : Type} (x : Traced ε τ α) (f : α → Traced ε τ β) (g : β → Traced ε τ γ) :
    x >>= f >>= g = x >>= fun a => f a >>= g := by
  cases x with
  | raised error => rfl
  | returned a first =>
    cases hf : f a with
    | raised error => simp [Bind.bind, after, hf]
    | returned b second => cases hg : g b <;> simp [Bind.bind, after, hf, hg]

instance : LawfulMonad (Traced ε τ) :=
  LawfulMonad.mk' _ Traced.map_id Traced.pure_bind Traced.bind_assoc

/-- What is returned, if anything is. -/
def value? : Traced ε τ α → Option α
  | .raised _ => none
  | .returned value _ => some value

theorem value?_bind (x : Traced ε τ α) (f : α → Traced ε τ β) :
    (x >>= f).value? = x.value?.bind fun a => (f a).value? := by
  cases x with
  | raised error => rfl
  | returned a trace => cases h : f a <;> simp [Bind.bind, after, value?, h]

/-- The trace that is left. -/
def trace : Traced ε τ α → List τ
  | .raised _ => []
  | .returned _ trace => trace

/-- `x` returns `a` and leaves `trace`. -/
def Returns (x : Traced ε τ α) (a : α) (trace : List τ) : Prop := x = .returned a trace

theorem returns_of_value? {x : Traced ε τ α} {a : α} (h : x.value? = some a) :
    Returns x a x.trace := by
  cases x with
  | raised error => cases h
  | returned value trace => exact congrArg (returned · trace) (Option.some.inj h)

@[simp] theorem returns_pure_iff {a b : α} {trace : List τ} :
    Returns (pure a : Traced ε τ α) b trace ↔ b = a ∧ trace = [] := by
  simp [Returns, Pure.pure, eq_comm]

@[simp] theorem returns_raised_iff {error : ε} {a : α} {trace : List τ} :
    Returns (.raised error) a trace ↔ False := by
  simp [Returns]

@[simp] theorem returns_emit_iff {item : τ} {a : Unit} {trace : List τ} :
    Returns (emit item : Traced ε τ Unit) a trace ↔ trace = [item] := by
  simp [Returns, emit, eq_comm]

@[simp] theorem returns_lift_iff {x : Except ε α} {a : α} {trace : List τ} :
    Returns (lift x) a trace ↔ x = .ok a ∧ trace = [] := by
  cases x <;> simp [Returns, lift, eq_comm]

theorem returns_after_iff {x : Traced ε τ α} {a : α} {first trace : List τ} :
    Returns (x.after first) a trace ↔ ∃ rest, Returns x a rest ∧ trace = first ++ rest := by
  cases x <;> simp [Returns, after, eq_comm]

theorem returns_bind_iff {x : Traced ε τ α} {f : α → Traced ε τ β} {b : β} {trace : List τ} :
    Returns (x >>= f) b trace ↔
      ∃ a first rest, Returns x a first ∧ Returns (f a) b rest ∧ trace = first ++ rest := by
  cases x with
  | raised error => simp [Returns, Bind.bind]
  | returned a first =>
    refine Iff.trans returns_after_iff ⟨?_, ?_⟩
    · rintro ⟨rest, hrest, rfl⟩
      exact ⟨a, first, rest, rfl, hrest, rfl⟩
    · rintro ⟨_, _, rest, ⟨⟩, hrest, rfl⟩
      exact ⟨rest, hrest, rfl⟩

/-- A loop takes its items one after the other. -/
theorem returns_foldlM_cons_iff {body : σ → α → Traced ε τ σ} {s t : σ} {item : α} {rest : List α}
    {trace : List τ} : Returns ((item :: rest).foldlM body s) t trace ↔
      ∃ m own later, Returns (body s item) m own ∧ Returns (rest.foldlM body m) t later ∧
        trace = own ++ later := by
  rw [List.foldlM_cons, returns_bind_iff]

@[simp] theorem returns_foldlM_nil_iff {body : σ → α → Traced ε τ σ} {s t : σ} {trace : List τ} :
    Returns ([].foldlM body s) t trace ↔ t = s ∧ trace = [] := by
  rw [List.foldlM_nil, returns_pure_iff]

/-! ### Traces that are runs -/

section Follows

variable {γ : Type} {step : γ → τ → γ → Prop} {M : α → γ → Prop} {post : β → γ → Prop} {s : γ}

/-- From `s`, the trace leads to a state that is `post` for what is returned. -/
def Follows (step : γ → τ → γ → Prop) (s : γ) (post : α → γ → Prop) (x : Traced ε τ α) : Prop :=
  ∀ a trace, Returns x a trace → ∃ t, Run step s trace t ∧ post a t

theorem follows_pure {a : α} (h : M a s) :
    Follows step s M (pure a : Traced ε τ α) := by
  intro b trace hreturns
  obtain ⟨rfl, rfl⟩ := returns_pure_iff.mp hreturns
  exact ⟨s, .nil s, h⟩

theorem follows_raised (error : ε) : Follows step s M (.raised error : Traced ε τ α) :=
  fun _ _ h => (returns_raised_iff.mp h).elim

theorem Follows.mono {x : Traced ε τ α} {weaker : α → γ → Prop} (h : Follows step s M x)
    (hweaker : ∀ a t, M a t → weaker a t) : Follows step s weaker x := by
  intro a trace hreturns
  obtain ⟨t, hrun, hmid⟩ := h a trace hreturns
  exact ⟨t, hrun, hweaker a t hmid⟩

theorem Follows.bind {x : Traced ε τ α} {f : α → Traced ε τ β} (h : Follows step s M x)
    (hf : ∀ a m, M a m → Follows step m post (f a)) : Follows step s post (x >>= f) := by
  intro b trace hreturns
  obtain ⟨a, first, rest, hx, hrest, rfl⟩ := returns_bind_iff.mp hreturns
  obtain ⟨m, hfirst, hmid⟩ := h a first hx
  obtain ⟨t, hsecond, hpost⟩ := hf a m hmid b rest hrest
  exact ⟨t, hfirst.append hsecond, hpost⟩

theorem follows_lift_bind {x : Except ε α} {f : α → Traced ε τ β}
    (hf : ∀ a, x = .ok a → Follows step s post (f a)) : Follows step s post (lift x >>= f) := by
  intro b trace hreturns
  obtain ⟨a, first, rest, hx, hrest, rfl⟩ := returns_bind_iff.mp hreturns
  obtain ⟨hok, rfl⟩ := returns_lift_iff.mp hx
  exact hf a hok b rest hrest

/-- A loop whose turns follow the system, and keep what they need, does. -/
theorem follows_foldlM {body : α → β → Traced ε τ α} {items : List β} {a : α} (h : M a s)
    (hbody : ∀ a m item, item ∈ items → M a m → Follows step m M (body a item)) :
    Follows step s M (items.foldlM body a) := by
  induction items generalizing a s with
  | nil => exact follows_pure h
  | cons item rest ih =>
    rw [List.foldlM_cons]
    refine (hbody a s item List.mem_cons_self h).bind fun next m hnext => ih hnext ?_
    exact fun a m other hmem => hbody a m other (List.mem_cons_of_mem _ hmem)

end Follows

/-! ### Computations that are the same -/

section Same

variable {M : α → Prop} {post : β → Prop}

/-- Two computations do the same, and what they return is `post`. -/
def Same (post : α → Prop) (x y : Traced ε τ α) : Prop :=
  x = y ∧ ∀ a trace, Returns x a trace → post a

theorem same_pure {a : α} (h : M a) : Same M (pure a : Traced ε τ α) (pure a) := by
  refine ⟨rfl, fun b trace hreturns => ?_⟩
  rwa [(returns_pure_iff.mp hreturns).1]

theorem same_raised (error : ε) : Same M (.raised error : Traced ε τ α) (.raised error) :=
  ⟨rfl, fun _ _ h => (returns_raised_iff.mp h).elim⟩

theorem Same.bind {x y : Traced ε τ α} {f g : α → Traced ε τ β} (h : Same M x y)
    (hf : ∀ a, M a → Same post (f a) (g a)) : Same post (x >>= f) (y >>= g) := by
  obtain ⟨rfl, hmid⟩ := h
  constructor
  · cases x with
    | raised error => rfl
    | returned a trace => exact congrArg (after trace) (hf a (hmid a trace rfl)).1
  · intro b trace hreturns
    obtain ⟨a, first, rest, hx, hrest, rfl⟩ := returns_bind_iff.mp hreturns
    exact (hf a (hmid a first hx)).2 b rest hrest

theorem same_lift_bind {x : Except ε α} {f g : α → Traced ε τ β}
    (hf : ∀ a, Same post (f a) (g a)) : Same post (lift x >>= f) (lift x >>= g) :=
  Same.bind ⟨rfl, fun _ _ _ => trivial⟩ fun a _ => hf a

/-- Loops whose turns do the same, from states that their turns leave, do. -/
theorem same_foldlM {body body' : α → β → Traced ε τ α} {items : List β} {a : α} (h : M a)
    (hbody : ∀ a item, item ∈ items → M a → Same M (body a item) (body' a item)) :
    Same M (items.foldlM body a) (items.foldlM body' a) := by
  induction items generalizing a with
  | nil => exact same_pure h
  | cons item rest ih =>
    rw [List.foldlM_cons, List.foldlM_cons]
    refine (hbody a item List.mem_cons_self h).bind fun next hnext => ih hnext ?_
    exact fun a other hmem => hbody a other (List.mem_cons_of_mem _ hmem)

end Same

/-! ### What is raised and returned -/

section Ensures

variable {fails : ε → Prop} {M : α → Prop} {post : β → Prop}

/-- What is raised is one of `fails`, and what is returned is `post`. -/
def Ensures (fails : ε → Prop) (post : α → Prop) : Traced ε τ α → Prop
  | .raised error => fails error
  | .returned value _ => post value

theorem Ensures.value {x : Traced ε τ α} {a : α} (h : Ensures fails M x) (hvalue : x.value? = some a) :
    M a := by
  cases x with
  | raised error => cases hvalue
  | returned b trace => exact Option.some.inj hvalue ▸ h

theorem Ensures.and_value {x : Traced ε τ α} (h : Ensures fails M x) :
    Ensures fails (fun a => x.value? = some a ∧ M a) x := by
  cases x with
  | raised error => exact h
  | returned a trace => exact ⟨rfl, h⟩

theorem ensures_pure {a : α} (h : M a) : Ensures fails M (pure a : Traced ε τ α) := h

theorem Ensures.mono {x : Traced ε τ α} {fails' : ε → Prop} {weaker : α → Prop}
    (h : Ensures fails M x) (hfails : ∀ error, fails error → fails' error)
    (hweaker : ∀ a, M a → weaker a) : Ensures fails' weaker x := by
  cases x with
  | raised error => exact hfails error h
  | returned a trace => exact hweaker a h

theorem Ensures.bind {x : Traced ε τ α} {f : α → Traced ε τ β} (h : Ensures fails M x)
    (hf : ∀ a, M a → Ensures fails post (f a)) : Ensures fails post (x >>= f) := by
  cases x with
  | raised error => exact h
  | returned a trace =>
    have hnext := hf a h
    simp only [Bind.bind]
    cases hfa : f a with
    | raised error => rwa [hfa] at hnext
    | returned b rest => rwa [hfa] at hnext

theorem ensures_lift_bind {x : Except ε α} {f : α → Traced ε τ β}
    (herror : ∀ error, x = .error error → fails error)
    (hf : ∀ a, x = .ok a → Ensures fails post (f a)) : Ensures fails post (lift x >>= f) := by
  cases x with
  | error error => exact herror error rfl
  | ok a => exact Ensures.bind (M := (· = a)) rfl fun b hb => hf b (by rw [hb])

theorem ensures_foldlM {body : α → β → Traced ε τ α} {items : List β} {a : α} (h : M a)
    (hbody : ∀ a item, item ∈ items → M a → Ensures fails M (body a item)) :
    Ensures fails M (items.foldlM body a) := by
  induction items generalizing a with
  | nil => exact ensures_pure h
  | cons item rest ih =>
    rw [List.foldlM_cons]
    refine (hbody a item List.mem_cons_self h).bind fun next hnext => ih hnext ?_
    exact fun a other hmem => hbody a other (List.mem_cons_of_mem _ hmem)

end Ensures

/-! ### Computations that return alike -/

section Alike

variable {γ δ : Type} {fails : ε → Prop} {M : α → γ → Prop} {post : β → δ → Prop}

/-- The second computation raises one of `fails`, or both raise the same, or both return what is
related. -/
def Alike (fails : ε → Prop) (M : α → γ → Prop) : Traced ε τ α → Traced ε τ γ → Prop
  | .raised error, .raised error' => error = error' ∨ fails error'
  | .returned _ _, .raised error' => fails error'
  | .returned a _, .returned c _ => M a c
  | .raised _, .returned _ _ => False

theorem alike_pure {a : α} {c : γ} (h : M a c) :
    Alike fails M (pure a : Traced ε τ α) (pure c : Traced ε τ γ) := h

theorem Alike.mono {x : Traced ε τ α} {y : Traced ε τ γ} {weaker : α → γ → Prop}
    (h : Alike fails M x y) (hweaker : ∀ a c, M a c → weaker a c) : Alike fails weaker x y := by
  cases x <;> cases y <;> first | exact h | exact hweaker _ _ h

theorem Alike.and_value {x : Traced ε τ α} {y : Traced ε τ γ} (h : Alike fails M x y) :
    Alike fails (fun a c => y.value? = some c ∧ M a c) x y := by
  cases x <;> cases y <;> first | exact h | exact ⟨rfl, h⟩

/-- Where the second computation cannot raise one of `fails`. -/
theorem Alike.of_ensures {x : Traced ε τ α} {y : Traced ε τ γ} {safe : ε → Prop} {returns : γ → Prop}
    (h : Alike fails M x y) (hensures : Ensures safe returns y)
    (hsafe : ∀ error, safe error → ¬fails error) : Alike (fun _ => False) M x y := by
  cases x <;> cases y
  · exact Or.inl (h.resolve_right (hsafe _ hensures))
  · exact h
  · exact hsafe _ hensures h
  · exact h

/-- What the first computation returns is related to what the second one returns. -/
theorem Alike.exists_value {x : Traced ε τ α} {y : Traced ε τ γ} {a : α}
    (h : Alike (fun _ => False) M x y) (hvalue : x.value? = some a) :
    ∃ c, y.value? = some c ∧ M a c := by
  cases x with
  | raised error => cases hvalue
  | returned b trace =>
    cases y with
    | raised error => exact h.elim
    | returned c trace' => exact ⟨c, rfl, Option.some.inj hvalue ▸ h⟩

theorem Alike.bind {x : Traced ε τ α} {y : Traced ε τ γ} {f : α → Traced ε τ β}
    {g : γ → Traced ε τ δ} (h : Alike fails M x y)
    (hf : ∀ a c, M a c → Alike fails post (f a) (g c)) : Alike fails post (x >>= f) (y >>= g) := by
  cases y with
  | raised error' =>
    cases x with
    | raised error => exact h
    | returned a trace =>
      simp only [Bind.bind]
      cases f a with
      | raised error => exact Or.inr h
      | returned b rest => exact h
  | returned c trace' =>
    cases x with
    | raised error => exact h.elim
    | returned a trace =>
      have hnext := hf a c h
      simp only [Bind.bind]
      cases hfa : f a <;> cases hgc : g c <;> rw [hfa, hgc] at hnext <;> exact hnext

theorem Alike.lift_map {x : Except ε α} {y : Except ε γ} {f : α → β} {g : γ → δ}
    (h : Alike (τ := τ) fails M (lift x) (lift y)) (hf : ∀ a c, M a c → post (f a) (g c)) :
    Alike (τ := τ) fails post (lift (x.map f)) (lift (y.map g)) := by
  cases x <;> cases y <;> first | exact h | exact hf _ _ h

/-- Loops over items that are related, whose turns return alike. -/
theorem alike_foldlM {κ : Type} {R : β → κ → Prop} {body : α → β → Traced ε τ α}
    {body' : γ → κ → Traced ε τ γ} {items : List β} {items' : List κ} {a : α} {c : γ}
    (hitems : List.Forall₂ R items items') (h : M a c)
    (hbody : ∀ a c item item', R item item' → M a c →
      Alike fails M (body a item) (body' c item')) :
    Alike fails M (items.foldlM body a) (items'.foldlM body' c) := by
  induction hitems generalizing a c with
  | nil => exact alike_pure h
  | cons hitem _ ih =>
    rw [List.foldlM_cons, List.foldlM_cons]
    exact (hbody a c _ _ hitem h).bind fun _ _ hnext => ih hnext

end Alike

end Traced

end CryptoTrading.Kit
