import CryptoTrading.Reporting.Counterfactuals
import Mathlib.Tactic.Ring

/-! The accounts of a summary: its windows add up to it, and what it says without one of them is what the
trades of the others say. -/

namespace CryptoTrading

open Kit

section Accounts

variable {ρ : Type} {rule : CounterfactualRule ρ} {draws : SeedMaterial → ℕ → Decimal} {baseSeed : ℤ}
  {trades : List RetestTrade} {candlesByWindow : Dict ℤ (List PathCandle)} {symbol : String}
  {details : List (CounterfactualResult ρ)}

/-- The differences of the results that are not in a window. -/
def deltaOutside (details : List (CounterfactualResult ρ)) (windowIndex : ℤ) : Decimal :=
  ((details.filter fun item => decide (item.windowIndex ≠ windowIndex)).map fun item => item.pnlDelta).sum

/-- What the results of a window add up to, and the others. -/
structure AddsUp (summary : CounterfactualSummary ρ) : Prop where
  windows : (summary.byWindow.map WindowCounterfactual.windowIndex).Pairwise (· < ·)
  trades : summary.trades = (summary.byWindow.map WindowCounterfactual.trades).sum
  triggered : summary.triggered = (summary.byWindow.map WindowCounterfactual.triggered).sum
  actualPnl : summary.actualPnl = (summary.byWindow.map WindowCounterfactual.actualPnl).sum
  counterfactualPnl : summary.counterfactualPnl =
    (summary.byWindow.map WindowCounterfactual.counterfactualPnl).sum
  sacrificedWinners : summary.sacrificedWinners =
    (summary.byWindow.map WindowCounterfactual.sacrificedWinners).sum
  savedLosers : summary.savedLosers = (summary.byWindow.map WindowCounterfactual.savedLosers).sum
  outside : ∀ row ∈ summary.byWindow,
    summary.pnlDelta - row.pnlDelta = deltaOutside summary.tradesDetail row.windowIndex

theorem countP_eq_sum {α : Type} (p : α → Bool) (list : List α) :
    list.countP p = (list.map fun a => if p a then 1 else 0).sum := by
  induction list with
  | nil => rfl
  | cons a rest ih => rw [List.countP_cons, List.map_cons, List.sum_cons, ih, Nat.add_comm]

/-- A count over all results is the sum of the counts over the windows. -/
theorem countP_windows (p : CounterfactualResult ρ → Bool) (details : List (CounterfactualResult ρ)) :
    details.countP p = ((StableSort.keys (fun item => item.windowIndex) details).map fun windowIndex =>
      (StableSort.withKey (fun item => item.windowIndex) windowIndex details).countP p).sum := by
  simp only [countP_eq_sum]
  exact (StableSort.sum_keys (fun item : CounterfactualResult ρ => item.windowIndex)
    (fun item => if p item then 1 else 0) details).symm

theorem sum_map_delta {α : Type} {delta counterfactual actual : α → Decimal} {list : List α}
    (h : ∀ a ∈ list, delta a = counterfactual a - actual a) :
    (list.map delta).sum = (list.map counterfactual).sum - (list.map actual).sum := by
  induction list with
  | nil => simp
  | cons a rest ih =>
    rw [List.map_cons, List.sum_cons, List.map_cons, List.sum_cons, List.map_cons, List.sum_cons,
      h a List.mem_cons_self, ih fun b hb => h b (List.mem_cons_of_mem _ hb)]
    ring

theorem addsUp_summarize (hdelta : ∀ item ∈ details, item.pnlDelta = item.counterfactualPnl - item.actualPnl)
    (symbol : String) : AddsUp (summarize details symbol) where
  windows := by
    simp only [summarize, List.map_map]
    exact (List.map_id _).symm ▸ StableSort.keys_lt _ _
  trades := by
    simp only [summarize, List.map_map]
    have hcount := countP_windows (fun _ => true) details
    simp only [List.countP_true] at hcount
    exact hcount
  triggered := by
    simp only [summarize, List.map_map]
    exact countP_windows _ details
  actualPnl := by
    simp only [summarize, List.map_map]
    exact (StableSort.sum_keys _ _ details).symm
  counterfactualPnl := by
    simp only [summarize, List.map_map]
    exact (StableSort.sum_keys _ _ details).symm
  sacrificedWinners := by
    simp only [summarize, List.map_map]
    exact countP_windows _ details
  savedLosers := by
    simp only [summarize, List.map_map]
    exact countP_windows _ details
  outside := by
    intro row hrow
    simp only [summarize, List.mem_map] at hrow ⊢
    obtain ⟨windowIndex, -, rfl⟩ := hrow
    simp only [windowCounterfactual, deltaOutside]
    have hsplit (f : CounterfactualResult ρ → Decimal) : (details.map f).sum =
        ((StableSort.withKey (fun item => item.windowIndex) windowIndex details).map f).sum +
          ((details.filter fun item => decide (item.windowIndex ≠ windowIndex)).map f).sum :=
      (List.sum_map_filter_add_sum_map_filter_not (fun item : CounterfactualResult ρ =>
        item.windowIndex = windowIndex) f details).symm
    rw [sum_map_delta fun item hitem => hdelta item (List.mem_filter.mp hitem).1,
      hsplit fun item => item.counterfactualPnl, hsplit fun item => item.actualPnl, add_sub_add_comm]
    exact add_sub_cancel_left _ _

theorem pnlDelta_of_results (h : rule.results trades candlesByWindow symbol draws baseSeed = .ok details) :
    ∀ item ∈ details, item.pnlDelta = item.counterfactualPnl - item.actualPnl := by
  intro item hitem
  obtain ⟨trade, -, hevaluated⟩ := (mapM_eq_ok h).2 item hitem
  split at hevaluated
  · cases hevaluated
  · obtain ⟨exit, hresult, -⟩ := exit_of_evaluate hevaluated
    rw [hresult]
    rfl

theorem minimumOrZero_spec (values : List Decimal) :
    (∀ value ∈ values, minimumOrZero values ≤ value) ∧ (values ≠ [] → minimumOrZero values ∈ values) := by
  cases values with
  | nil => simp
  | cons first rest =>
    have hfold : ∀ (rest : List Decimal) (first : Decimal),
        (∀ value ∈ first :: rest, rest.foldl min first ≤ value) ∧ rest.foldl min first ∈ first :: rest := by
      intro rest
      induction rest with
      | nil => simp
      | cons second rest ih =>
        intro first
        obtain ⟨hleast, hmem⟩ := ih (min first second)
        have hboth := hleast _ List.mem_cons_self
        refine ⟨fun value hvalue => ?_, ?_⟩
        · rcases List.mem_cons.mp hvalue with rfl | hvalue
          · exact hboth.trans (min_le_left _ _)
          rcases List.mem_cons.mp hvalue with rfl | hvalue
          · exact hboth.trans (min_le_right _ _)
          · exact hleast value (List.mem_cons_of_mem _ hvalue)
        · rcases List.mem_cons.mp hmem with heq | hmem
          · rw [List.foldl_cons, heq]
            rcases min_choice first second with hfirst | hsecond
            · simp [hfirst]
            · simp [hsecond]
          · exact List.mem_cons_of_mem _ (List.mem_cons_of_mem _ hmem)
    exact ⟨(hfold rest first).1, fun _ => (hfold rest first).2⟩

def heldAgain : RetestTrade := { heldTwoDays with windowIndex := 2 }

/-- The second window ends with the day of the snapshot. -/
def twoWindows : Dict ℤ (List PathCandle) :=
  (Dict.empty.set 1 [fallenHour, nextHour 95]).set 2 [fallenHour]

theorem twoWindows_built : ∃ summary, buildFailedStructureCounterfactual [heldTwoDays, heldAgain] twoWindows
    "BTCUSDT" (fun _ _ => 1 / 2000) 42 = .ok summary ∧ summary.trades = 2 := by
  have hevaluates (trade : RetestTrade) (candles : List PathCandle) (hvalid : validateHourlySequence candles = .ok ())
      (hread : (failedStructure.evaluateOrdered (fun _ _ => 1 / 2000) 42 trade candles).toOption.isSome = true) :
      ∃ result, failedStructure.evaluate (fun _ _ => 1 / 2000) 42 trade candles = .ok result := by
    unfold CounterfactualRule.evaluate
    rw [orderedCandles_of_perm (.refl _) hvalid]
    cases hresult : failedStructure.evaluateOrdered (fun _ _ => 1 / 2000) 42 trade candles with
    | error error =>
      rw [hresult] at hread
      cases hread
    | ok result => exact ⟨result, hresult⟩
  obtain ⟨first, hfirst⟩ := hevaluates heldTwoDays [fallenHour, nextHour 95] (by decide) (by decide +kernel)
  obtain ⟨second, hsecond⟩ := hevaluates heldAgain [fallenHour] (by decide)
    (by decide +kernel)
  have hresults : failedStructure.results [heldTwoDays, heldAgain] twoWindows "BTCUSDT"
      (fun _ _ => 1 / 2000) 42 = .ok [first, second] := by
    change ([heldTwoDays, heldAgain].mapM _ : Except PathError _) = _
    rw [List.mapM_cons, List.mapM_cons, List.mapM_nil]
    have hone : twoWindows.get? heldTwoDays.windowIndex = some [fallenHour, nextHour 95] := rfl
    have htwo : twoWindows.get? heldAgain.windowIndex = some [fallenHour] := rfl
    simp only [hone, htwo, hfirst, hsecond]
    rfl
  unfold buildFailedStructureCounterfactual
  rw [hresults]
  exact ⟨_, rfl, rfl⟩

end Accounts

end CryptoTrading
