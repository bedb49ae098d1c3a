import Mathlib.Order.Lattice

/-! Incremental selection by two watermarks: how far items have been ingested, and up to which time
their events have been taken.  A pass takes the items that are due, and selects those that are new to
either mark. -/

namespace CryptoTrading.Kit

/-- The marks that a pass leaves. -/
structure Marks (ι τ : Type*) where
  ingestion : ι
  event : τ
  deriving DecidableEq

variable {α ι τ : Type*} [LinearOrder ι] [LinearOrder τ]

/-- An item has an event, not after the time of the pass. -/
def Due (event : α → Option τ) (asOf : τ) (item : α) : Prop := ∃ t ∈ event item, t ≤ asOf

namespace Marks

variable (ingested : α → ι) (event : α → Option τ)

/-- What a pass selects: what is new, and what has become due. -/
def Selects (marks : Marks ι τ) (upper : ι) (asOf : τ) (item : α) : Prop :=
  ingested item ≤ upper ∧
    (marks.ingestion < ingested item ∨ ∃ t ∈ event item, marks.event < t ∧ t ≤ asOf)

/-- What is below both marks, and is not selected again by a later time. -/
def Passed (marks : Marks ι τ) (item : α) : Prop :=
  ingested item ≤ marks.ingestion ∧ Due event marks.event item

variable {ingested event} {marks : Marks ι τ} {upper : ι} {asOf : τ} {item : α}

/-- A pass selects what is due, or it is passed already. -/
theorem selects_or_passed (hupper : ingested item ≤ upper) (hdue : Due event asOf item) :
    marks.Selects ingested event upper asOf item ∨ marks.Passed ingested event item := by
  obtain ⟨t, ht, hle⟩ := hdue
  rcases lt_or_ge marks.ingestion (ingested item) with hnew | hold
  · exact Or.inl ⟨hupper, Or.inl hnew⟩
  · rcases lt_or_ge marks.event t with hlater | hearlier
    · exact Or.inl ⟨hupper, Or.inr ⟨t, ht, hlater, hle⟩⟩
    · exact Or.inr ⟨hold, t, ht, hearlier⟩

/-- What is passed is not selected. -/
theorem not_selects_of_passed (h : marks.Passed ingested event item) :
    ¬marks.Selects ingested event upper asOf item := by
  obtain ⟨hold, t, ht, hearlier⟩ := h
  rintro ⟨-, hnew | ⟨t', ht', hlater, -⟩⟩
  · exact absurd hold (not_le.mpr hnew)
  · cases Option.some.inj (ht.symm.trans ht')
    exact absurd hearlier (not_le.mpr hlater)

end Marks

end CryptoTrading.Kit
