import CryptoTrading.Kit.Fallible
import Mathlib.Data.List.Nodup

/-! Clients that change what they share only while they hold an exclusive lock, each of them once.
Whatever the order of their steps, and wherever a client stops, they leave what they would leave one
after the other, in the order in which they got the lock. -/

namespace CryptoTrading.Kit

variable {ρ α : Type*} {σ ε : Type}

/-- What the clients share, and who of them has held the lock. -/
structure Sections (ρ α : Type*) (σ : Type) where
  shared : σ
  holder : Option ρ
  /-- In the order in which they got the lock. -/
  order : List ρ
  performed : ρ → List α

namespace Sections

/-- The sections of these clients, one after the other. -/
def serially (enter : σ → σ) (perform : σ → α → Except ε σ) (performed : ρ → List α) (shared : σ)
    (order : List ρ) : Except ε σ :=
  order.foldlM (fun shared client => (performed client).foldlM perform (enter shared)) shared

/-- What a step of a client can do to what the clients share. -/
inductive Step (enter : σ → σ) (perform : σ → α → Except ε σ) :
    Sections ρ α σ → Sections ρ α σ → Prop
  | acquire {s t : Sections ρ α σ} {client : ρ} (free : s.holder = none)
      (new : client ∉ s.order) (shared : t.shared = enter s.shared) (holder : t.holder = some client)
      (order : t.order = s.order ++ [client]) (performed : t.performed = s.performed) : Step enter perform s t
  | operate {s t : Sections ρ α σ} {client : ρ} {operation : α} (held : s.holder = some client)
      (shared : perform s.shared operation = .ok t.shared) (holder : t.holder = s.holder)
      (order : t.order = s.order)
      (own : t.performed client = s.performed client ++ [operation])
      (others : ∀ other, other ≠ client → t.performed other = s.performed other) : Step enter perform s t
  | release {s t : Sections ρ α σ} {client : ρ} (held : s.holder = some client)
      (shared : t.shared = s.shared) (holder : t.holder = none) (order : t.order = s.order)
      (performed : t.performed = s.performed) : Step enter perform s t
  /-- A step of a client that leaves what is shared alone. -/
  | elsewhere {s t : Sections ρ α σ} (shared : t.shared = s.shared) (holder : t.holder = s.holder)
      (order : t.order = s.order) (performed : t.performed = s.performed) : Step enter perform s t

/-- The clients have changed what they share as they would one after the other. -/
structure Serial (enter : σ → σ) (perform : σ → α → Except ε σ) (init : σ) (s : Sections ρ α σ) : Prop where
  distinct : s.order.Nodup
  last : ∀ client, s.holder = some client → ∃ before, s.order = before ++ [client]
  unperformed : ∀ client, client ∉ s.order → s.performed client = []
  serial : serially enter perform s.performed init s.order = .ok s.shared

variable {enter : σ → σ} {perform : σ → α → Except ε σ} {init : σ} {performed performed' : ρ → List α}

theorem serially_append (before after : List ρ) :
    serially enter perform performed init (before ++ after) =
      serially enter perform performed init before >>= fun shared =>
        serially enter perform performed shared after := by
  unfold serially
  rw [List.foldlM_append]

theorem serially_single (client : ρ) : serially enter perform performed init [client] =
    (performed client).foldlM perform (enter init) := by
  unfold serially
  rw [List.foldlM_cons]
  cases List.foldlM perform (enter init) (performed client) <;> rfl

/-- Only what the clients of the order have performed counts. -/
theorem serially_congr {order : List ρ} (h : ∀ client ∈ order, performed' client = performed client) :
    serially enter perform performed' init order = serially enter perform performed init order := by
  unfold serially
  induction order generalizing init with
  | nil => rfl
  | cons client order ih =>
    rw [List.foldlM_cons, List.foldlM_cons, h client List.mem_cons_self]
    refine congrArg _ (funext fun shared => ?_)
    exact ih fun other hother => h other (List.mem_cons_of_mem _ hother)

theorem Serial.start (shared : σ) : Serial enter perform shared
    { shared, holder := none, order := ([] : List ρ), performed := fun _ => [] } where
  distinct := List.nodup_nil
  last := by simp
  unperformed := fun _ _ => rfl
  serial := rfl

theorem Serial.next {s t : Sections ρ α σ} (h : Serial enter perform init s) (hstep : Step enter perform s t) :
    Serial enter perform init t := by
  cases hstep with
  | @acquire client free new shared holder order performed =>
    refine ⟨?_, ?_, ?_, ?_⟩
    · rw [order]
      exact List.nodup_append.mpr ⟨h.distinct, List.nodup_singleton _, by
        rintro a ha b hb rfl
        exact new (List.mem_singleton.mp hb ▸ ha)⟩
    · intro other hother
      rw [holder] at hother
      cases hother
      exact ⟨s.order, order⟩
    · intro other hother
      rw [order, List.mem_append, not_or] at hother
      rw [performed]
      exact h.unperformed other hother.1
    · rw [order, performed, serially_append, h.serial, shared]
      change serially enter perform s.performed s.shared [client] = _
      rw [serially_single, h.unperformed client new]
      rfl
  | @operate client operation held shared holder order own others =>
    obtain ⟨before, hbefore⟩ := h.last client held
    have hnew : client ∉ before := by
      have hdistinct := h.distinct
      rw [hbefore, List.nodup_append] at hdistinct
      exact fun hmem => hdistinct.2.2 client hmem client (List.mem_singleton_self client) rfl
    refine ⟨order ▸ h.distinct, ?_, ?_, ?_⟩
    · intro other hother
      rw [order]
      exact h.last other (holder ▸ hother)
    · intro other hother
      rw [order] at hother
      have hne : other ≠ client := by
        rintro rfl
        exact hother (hbefore ▸ List.mem_append_right _ (List.mem_singleton_self _))
      rw [others other hne]
      exact h.unperformed other hother
    · have hserial := h.serial
      rw [hbefore, serially_append] at hserial
      obtain ⟨middle, hmiddle, hlast⟩ := bind_eq_ok_iff.mp hserial
      rw [serially_single] at hlast
      have hunchanged : serially enter perform t.performed init before = .ok middle := by
        rw [← hmiddle]
        refine serially_congr fun other hother => others other ?_
        rintro rfl
        exact hnew hother
      rw [order, hbefore, serially_append, hunchanged]
      change serially enter perform t.performed middle [client] = _
      rw [serially_single, own, List.foldlM_append, hlast]
      change List.foldlM perform s.shared [operation] = _
      rw [List.foldlM_cons, shared]
      rfl
  | release held shared holder order performed =>
    refine ⟨order ▸ h.distinct, ?_, ?_, ?_⟩
    · simp [holder]
    · rw [order, performed]
      exact h.unperformed
    · rw [order, performed, shared]
      exact h.serial
  | elsewhere shared holder order performed =>
    refine ⟨order ▸ h.distinct, ?_, ?_, ?_⟩
    · rw [holder, order]
      exact h.last
    · rw [order, performed]
      exact h.unperformed
    · rw [order, performed, shared]
      exact h.serial

end Sections

end CryptoTrading.Kit
