import CryptoTrading.Kit.AverageCost
import Mathlib.Algebra.Order.Field.Basic

/-! Round trips: a lot is bought in one or several deals, at an average price, and sold in one.  A book
holds the lot, if there is one, and the trips that are over. -/

namespace CryptoTrading.Kit

/-- A holding, the commissions that were paid for it, and the time of its first purchase. -/
structure Lot (K τ : Type*) extends Holding K where
  commission : K
  openedAt : τ

/-- A lot that has been sold. -/
structure Trip (K τ : Type*) where
  quantity : K
  average : K
  pnl : K
  openedAt : τ
  closedAt : τ

/-- A purchase or a sale. -/
structure Deal (K τ : Type*) where
  isBuy : Bool
  quantity : K
  price : K
  commission : K
  time : τ

structure Book (K τ : Type*) where
  lot : Option (Lot K τ) := none
  trips : List (Trip K τ) := []

variable {K τ : Type*} [Field K]

/-- The lot of a first purchase. -/
def Deal.lot (deal : Deal K τ) : Lot K τ :=
  ⟨⟨deal.quantity, deal.price⟩, deal.commission, deal.time⟩

/-- A lot after another purchase. -/
def Lot.add (lot : Lot K τ) (deal : Deal K τ) : Lot K τ :=
  ⟨lot.buy deal.quantity deal.price, lot.commission + deal.commission, lot.openedAt⟩

/-- The trip that the sale of the lot ends. -/
def Lot.close (lot : Lot K τ) (deal : Deal K τ) : Trip K τ :=
  ⟨lot.quantity, lot.average,
    (deal.price - lot.average) * lot.quantity - lot.commission - deal.commission, lot.openedAt,
    deal.time⟩

namespace Book

/-- The book after a deal.  A sale is one of the whole lot. -/
def deal (book : Book K τ) (deal : Deal K τ) : Book K τ :=
  if deal.isBuy then { book with lot := some (book.lot.elim deal.lot (Lot.add · deal)) }
  else match book.lot with
    | none => book
    | some lot => ⟨none, book.trips ++ [lot.close deal]⟩

theorem deal_first {book : Book K τ} {deal : Deal K τ} (h : deal.isBuy = true)
    (hlot : book.lot = none) : book.deal deal = { book with lot := some deal.lot } := by
  simp [Book.deal, h, hlot]

theorem deal_more {book : Book K τ} {deal : Deal K τ} {lot : Lot K τ} (h : deal.isBuy = true)
    (hlot : book.lot = some lot) : book.deal deal = { book with lot := some (lot.add deal) } := by
  simp [Book.deal, h, hlot]

theorem deal_sale {book : Book K τ} {deal : Deal K τ} {lot : Lot K τ} (h : deal.isBuy = false)
    (hlot : book.lot = some lot) : book.deal deal = ⟨none, book.trips ++ [lot.close deal]⟩ := by
  simp [Book.deal, h, hlot]

variable [LinearOrder K]

/-- A deal of a book: a purchase of something, or the sale of the whole lot. -/
inductive Admits (book : Book K τ) (deal : Deal K τ) : Prop
  | buy (isBuy : deal.isBuy = true) (positive : 0 < deal.quantity)
  | sell {lot : Lot K τ} (isSell : deal.isBuy = false) (held : book.lot = some lot)
      (whole : deal.quantity = lot.quantity)

/-- Deals of which each is one of the book that those before it leave. -/
def AdmitsAll (book : Book K τ) : List (Deal K τ) → Prop
  | [] => True
  | deal :: rest => book.Admits deal ∧ (book.deal deal).AdmitsAll rest

theorem admitsAll_concat {book : Book K τ} {deals : List (Deal K τ)} {last : Deal K τ} :
    book.AdmitsAll (deals ++ [last]) ↔
      book.AdmitsAll deals ∧ (deals.foldl Book.deal book).Admits last := by
  induction deals generalizing book with
  | nil => simp [AdmitsAll]
  | cons first rest ih => simp [AdmitsAll, ih, and_assoc]

/-- What is held is positive. -/
def Positive (book : Book K τ) : Prop := ∀ lot, book.lot = some lot → 0 < lot.quantity

theorem positive_empty : ({} : Book K τ).Positive := fun _ h => by cases h

theorem Positive.deal [IsStrictOrderedRing K] {book : Book K τ} {deal : Deal K τ}
    (h : book.Positive) (hadmits : book.Admits deal) : (book.deal deal).Positive := by
  intro lot hlot
  cases hadmits with
  | buy isBuy positive =>
    cases hheld : book.lot with
    | none =>
      rw [deal_first isBuy hheld] at hlot
      cases hlot
      exact positive
    | some old =>
      rw [deal_more isBuy hheld] at hlot
      cases hlot
      exact add_pos (h old hheld) positive
  | sell isSell held whole =>
    rw [deal_sale isSell held] at hlot
    cases hlot

/-- A computation over items that keeps a book, deal by deal, returns and keeps it to the end. -/
theorem simulates [IsStrictOrderedRing K] {σ α ε : Type*} {step : σ → α → Except ε σ}
    {Keeps : σ → Book K τ → Prop} {dealOf : α → Deal K τ} {items : List α}
    (hstep : ∀ s book item, item ∈ items → Keeps s book → book.Positive →
      book.Admits (dealOf item) → ∃ t, step s item = .ok t ∧ Keeps t (book.deal (dealOf item)))
    {s : σ} {book : Book K τ} (h : Keeps s book) (hpositive : book.Positive)
    (hadmits : book.AdmitsAll (items.map dealOf)) :
    ∃ t, items.foldlM step s = .ok t ∧ Keeps t ((items.map dealOf).foldl Book.deal book) := by
  induction items generalizing s book with
  | nil => exact ⟨s, rfl, h⟩
  | cons item rest ih =>
    obtain ⟨hfirst, hrest⟩ := hadmits
    obtain ⟨m, hm, hkeeps⟩ := hstep s book item List.mem_cons_self h hpositive hfirst
    rw [List.foldlM_cons, hm]
    exact ih (fun s book other hmem => hstep s book other (List.mem_cons_of_mem _ hmem)) hkeeps
      (hpositive.deal hfirst) hrest

end Book

end CryptoTrading.Kit
