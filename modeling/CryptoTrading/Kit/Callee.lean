import Mathlib.Data.List.Basic
import Mathlib.Order.Basic

/-! Components with a state that are called again and again.  A component answers each call, and goes on
from the state that the call leaves. -/

namespace CryptoTrading.Kit

/-- A component with states `σ` that is called with an `α` and answers with a `β`. -/
structure Callee (σ α β : Type*) where
  start : σ
  after : σ → α → σ
  answer : σ → α → β

namespace Callee

variable {σ σ' α β : Type*}

section States

variable (callee : Callee σ α β) (calls : List α)

/-- The state before call `n`. -/
def stateAt (n : ℕ) : σ := (calls.take n).foldl callee.after callee.start

/-- The answer to call `n`, if there is such a call. -/
def answerAt (n : ℕ) : Option β := calls[n]?.map (callee.answer (callee.stateAt calls n))

@[simp] theorem stateAt_zero : callee.stateAt calls 0 = callee.start := rfl

variable {callee calls}

theorem stateAt_succ {n : ℕ} {call : α} (h : calls[n]? = some call) :
    callee.stateAt calls (n + 1) = callee.after (callee.stateAt calls n) call := by
  rw [stateAt, List.take_add_one, h, Option.toList_some, List.foldl_append]
  rfl

theorem answerAt_eq_some_iff {n : ℕ} {answer : β} : callee.answerAt calls n = some answer ↔
    ∃ call, calls[n]? = some call ∧ callee.answer (callee.stateAt calls n) call = answer :=
  Option.map_eq_some_iff

/-- What the start has, and every call keeps, holds before each call and after the last. -/
theorem invariant {P : ℕ → σ → Prop} (start : P 0 callee.start)
    (next : ∀ n call, calls[n]? = some call → P n (callee.stateAt calls n) →
      P (n + 1) (callee.after (callee.stateAt calls n) call)) {n : ℕ} (h : n ≤ calls.length) :
    P n (callee.stateAt calls n) := by
  induction n with
  | zero => exact start
  | succ n ih =>
    have hcall : calls[n]? = some calls[n] := List.getElem?_eq_getElem h
    rw [stateAt_succ hcall]
    exact next n _ hcall (ih (Nat.le_of_succ_le h))

/-- A condition that the start does not meet was entered by a call, and has been met since. -/
theorem exists_entry {Q : σ → Prop} (start : ¬Q callee.start) {n : ℕ}
    (h : Q (callee.stateAt calls n)) : ∃ i < n, ¬Q (callee.stateAt calls i) ∧
      ∀ k, i < k → k ≤ n → Q (callee.stateAt calls k) := by
  induction n with
  | zero => exact absurd h start
  | succ n ih =>
    by_cases hbefore : Q (callee.stateAt calls n)
    · obtain ⟨i, hi, hnot, hsince⟩ := ih hbefore
      refine ⟨i, Nat.lt_succ_of_lt hi, hnot, fun k hk hkn => ?_⟩
      rcases Nat.lt_succ_iff_lt_or_eq.mp (Nat.lt_succ_of_le hkn) with hlt | rfl
      · exact hsince k hk (Nat.le_of_lt_succ hlt)
      · exact h
    · refine ⟨n, Nat.lt_succ_self n, hbefore, fun k hk hkn => ?_⟩
      rwa [Nat.le_antisymm hkn hk]

end States

/-- A component whose states show those of another goes through states that show them. -/
theorem stateAt_map {callee : Callee σ α β} {shown : Callee σ' α β} {calls : List α} (shows : σ → σ')
    (start : shows callee.start = shown.start)
    (after : ∀ state, ∀ call ∈ calls, shows (callee.after state call) = shown.after (shows state) call)
    (n : ℕ) : shows (callee.stateAt calls n) = shown.stateAt calls n := by
  rw [stateAt, stateAt, ← start]
  have hcalls : ∀ call ∈ calls.take n, call ∈ calls := fun call hmem => List.mem_of_mem_take hmem
  revert hcalls
  generalize callee.start = state
  induction calls.take n generalizing state with
  | nil => exact fun _ => rfl
  | cons call rest ih =>
    intro hcalls
    rw [List.foldl_cons, List.foldl_cons, ← after state call (hcalls call List.mem_cons_self)]
    exact ih _ fun other hmem => hcalls other (List.mem_cons_of_mem _ hmem)

end Callee

end CryptoTrading.Kit
