import CryptoTrading.Reporting.CounterfactualAccounts
import CryptoTrading.Reporting.TriggeredTrades

/-! The attribution of a whole summary, as the script makes it, with its own checks of the counts. -/

namespace CryptoTrading

open Kit

/-- What the script of the attribution raises. -/
inductive TriggerAttributionError
  /-- "Triggered result has no source trade: {key}" -/
  | noSourceTrade (windowIndex : ℤ) (entryFillTime : Datetime)
  | windowMissing (windowIndex : ℤ)
  | path (error : PathError)
  /-- "Triggered attribution reconciliation failed for {symbol}: expected={} actual={}" -/
  | triggeredMismatch (expected actual : ℕ)
  /-- "Outcome group reconciliation failed for {symbol}: {group_counts}" -/
  | groupMismatch (savedLosers sacrificedWinners : ℕ)
  deriving DecidableEq

section Summary

variable (trades : List RetestTrade) (candlesByWindow : Dict ℤ (List PathCandle))

/-- `trades_by_key.get((result.window_index, result.entry_fill_time))` -/
def sourceTrade (result : CounterfactualTrade) : Option RetestTrade :=
  trades.reverse.find? fun trade =>
    decide (trade.windowIndex = result.windowIndex ∧ trade.entryFillTime = result.entryFillTime)

/-- A turn of the loop over the triggered results. -/
def attributeResult (result : CounterfactualResult StructureReading) :
    Except TriggerAttributionError FalsePositiveAttributionTrade :=
  match sourceTrade trades result.toCounterfactualTrade with
  | none => .error (.noSourceTrade result.windowIndex result.entryFillTime)
  | some trade =>
    match candlesByWindow.get? result.windowIndex with
    | none => .error (.windowMissing result.windowIndex)
    | some candles => (trade.falsePositiveAttribution result candles).mapError .path

/-- The items of the triggered results, checked against the summary. -/
def attributeTriggered (summary : FailedStructureSummary) :
    Except TriggerAttributionError (List FalsePositiveAttributionTrade) := do
  let items ← (summary.tradesDetail.filter fun result => result.triggered).mapM
    (attributeResult trades candlesByWindow)
  let savedLosers := items.countP fun item => decide (item.group = .savedLoser)
  let sacrificedWinners := items.countP fun item => decide (item.group = .sacrificedWinner)
  if items.length ≠ summary.triggered then throw (.triggeredMismatch summary.triggered items.length)
  else if savedLosers ≠ summary.savedLosers ∨ sacrificedWinners ≠ summary.sacrificedWinners then
    throw (.groupMismatch savedLosers sacrificedWinners)
  else return items

end Summary

section Reconciled

variable {trades : List RetestTrade} {candlesByWindow : Dict ℤ (List PathCandle)} {symbol : String}
  {draws : SeedMaterial → ℕ → Decimal} {baseSeed : ℤ}

theorem group_of_attributeResult {result : CounterfactualResult StructureReading}
    {item : FalsePositiveAttributionTrade} (h : attributeResult trades candlesByWindow result = .ok item) :
    result.triggerGroup = .ok item.group := by
  unfold attributeResult at h
  split at h
  · cases h
  split at h
  · cases h
  obtain ⟨_, _, -, hattributed⟩ := RetestTrade.attributed_of_attribution (mapError_eq_ok_iff.mp h)
  exact hattributed.group

theorem triggerGroup_saved {result : CounterfactualTrade} {group : TriggerGroup}
    (h : result.triggerGroup = .ok group) :
    decide (group = .savedLoser) = (result.savedLoser && !result.sacrificedWinner) := by
  unfold CounterfactualTrade.triggerGroup at h
  split at h
  · cases h
  split at h
  · cases h
    simp [*]
  split at h
  · cases h
    simp [*]
  · cases h
    simp [*]

theorem triggerGroup_sacrificed {result : CounterfactualTrade} {group : TriggerGroup}
    (h : result.triggerGroup = .ok group) :
    decide (group = .sacrificedWinner) = result.sacrificedWinner := by
  unfold CounterfactualTrade.triggerGroup at h
  split at h
  · cases h
  split at h
  · cases h
    simp [*]
  split at h
  · cases h
    simp [*]
  · cases h
    simp [*]

/-- A result is sacrificed or saved where it is triggered only, and not both. -/
theorem groups_of_counterfactual (trade : RetestTrade) (exit : Option HypotheticalExit) :
    ((trade.counterfactual exit).sacrificedWinner = true → (trade.counterfactual exit).triggered = true) ∧
      ((trade.counterfactual exit).savedLoser = true → (trade.counterfactual exit).triggered = true ∧
        (trade.counterfactual exit).sacrificedWinner = false) := by
  cases exit with
  | none => simp [RetestTrade.counterfactual]
  | some exit =>
    refine ⟨fun _ => rfl, fun hsaved => ⟨rfl, ?_⟩⟩
    have hloser : trade.realizedPnl < 0 := (by simpa [RetestTrade.counterfactual] using hsaved : _ ∧ _).1
    have hwinner : ¬trade.realizedPnl > 0 := not_lt.mpr hloser.le
    simp [RetestTrade.counterfactual, hwinner]

/-- The trade and the candles of a result of the summary. -/
theorem source_of_results {details : List (CounterfactualResult StructureReading)}
    (h : failedStructure.results trades candlesByWindow symbol draws baseSeed = .ok details)
    {result : CounterfactualResult StructureReading} (hresult : result ∈ details) :
    ∃ trade ∈ trades, ∃ candles, candlesByWindow.get? trade.windowIndex = some candles ∧
      failedStructure.evaluate draws baseSeed trade candles = .ok result ∧
      ∃ exit, result.toCounterfactualTrade = trade.counterfactual exit := by
  obtain ⟨trade, htrade, hevaluated⟩ := (mapM_eq_ok h).2 result hresult
  split at hevaluated
  · cases hevaluated
  · rename_i candles hcandles
    obtain ⟨exit, hexit, -⟩ := exit_of_evaluate hevaluated
    exact ⟨trade, (List.mem_filter.mp htrade).1, candles, hcandles, hevaluated, exit, hexit⟩

/-- A result of the summary is not attributed where the attribution of its trade raises, and only there. -/
theorem raised_of_attributeResult {details : List (CounterfactualResult StructureReading)}
    (h : failedStructure.results trades candlesByWindow symbol draws baseSeed = .ok details)
    {result : CounterfactualResult StructureReading} (hresult : result ∈ details) {error : TriggerAttributionError}
    (hraises : attributeResult trades candlesByWindow result = .error error) :
    ∃ trade ∈ trades, trade.windowIndex = result.windowIndex ∧ trade.entryFillTime = result.entryFillTime ∧
      ∃ candles own, candlesByWindow.get? result.windowIndex = some candles ∧
        trade.falsePositiveAttribution result candles = .error own ∧ error = .path own := by
  obtain ⟨own, hown, candles, hcandles, -, exit, hexit⟩ := source_of_results h hresult
  have hwindow : result.windowIndex = own.windowIndex := by rw [hexit]; rfl
  have hentry : result.entryFillTime = own.entryFillTime := by rw [hexit]; rfl
  unfold attributeResult at hraises
  split at hraises
  · rename_i hnone
    have hmissing := List.find?_eq_none.mp hnone own (List.mem_reverse.mpr hown)
    simp [hwindow, hentry] at hmissing
  rename_i trade htrade
  rw [hwindow, hcandles] at hraises
  obtain ⟨error', hattributed, rfl⟩ := mapError_eq_error_iff.mp hraises
  have hkey := List.find?_some htrade
  rw [decide_eq_true_eq] at hkey
  exact ⟨trade, List.mem_reverse.mp (List.mem_of_find?_eq_some htrade), hkey.1, hkey.2, candles, error',
    hwindow ▸ hcandles, hattributed, rfl⟩

/-- The items of the triggered results count what the results count. -/
theorem counts_of_items {details : List (CounterfactualResult StructureReading)}
    (h : failedStructure.results trades candlesByWindow symbol draws baseSeed = .ok details)
    {items : List FalsePositiveAttributionTrade}
    (hitems : (details.filter fun result => result.triggered).mapM (attributeResult trades candlesByWindow) =
      .ok items) :
    items.length = (details.countP fun result => result.triggered) ∧
      items.countP (fun item => decide (item.group = .savedLoser)) =
        (details.countP fun result => result.savedLoser) ∧
      items.countP (fun item => decide (item.group = .sacrificedWinner)) =
        details.countP fun result => result.sacrificedWinner := by
  have hgroups : ∀ result ∈ details,
      (result.sacrificedWinner = true → result.triggered = true) ∧
        (result.savedLoser = true → result.triggered = true ∧ result.sacrificedWinner = false) := by
    intro result hresult
    obtain ⟨trade, -, _, -, -, exit, hexit⟩ := source_of_results h hresult
    rw [hexit]
    exact groups_of_counterfactual trade exit
  refine ⟨?_, ?_, ?_⟩
  · have hcount := countP_mapM (p := fun _ => true) (q := fun _ => true) (fun _ _ _ => rfl) hitems
    rwa [List.countP_true, List.countP_true, ← List.countP_eq_length_filter] at hcount
  · rw [countP_mapM (fun _ _ h => triggerGroup_saved (group_of_attributeResult h)) hitems, List.countP_filter]
    refine List.countP_congr fun result hresult => ?_
    obtain ⟨-, hloser⟩ := hgroups result hresult
    simp only [Bool.and_eq_true, Bool.not_eq_true']
    constructor
    · rintro ⟨⟨hsaved, -⟩, -⟩
      exact hsaved
    · intro hsaved
      exact ⟨⟨hsaved, (hloser hsaved).2⟩, (hloser hsaved).1⟩
  · rw [countP_mapM (fun _ _ h => triggerGroup_sacrificed (group_of_attributeResult h)) hitems,
      List.countP_filter]
    refine List.countP_congr fun result hresult => ?_
    obtain ⟨hwinner, -⟩ := hgroups result hresult
    simp only [Bool.and_eq_true]
    exact ⟨fun hboth => hboth.1, fun hsacrificed => ⟨hsacrificed, hwinner hsacrificed⟩⟩

/-- The attribution of a summary raises only where that of one triggered trade does, of a trade with the
window and the entry of its result; what it returns has as many items, saved losers and sacrificed winners
as the summary says. -/
theorem attribution_reconciles (trades : List RetestTrade) (candlesByWindow : Dict ℤ (List PathCandle))
    (symbol : String) (draws : SeedMaterial → ℕ → Decimal) (baseSeed : ℤ) (summary : FailedStructureSummary)
    (h : buildFailedStructureCounterfactual trades candlesByWindow symbol draws baseSeed = .ok summary) :
    match attributeTriggered trades candlesByWindow summary with
    | .ok items => items.length = summary.triggered ∧
        items.countP (fun item => decide (item.group = .savedLoser)) = summary.savedLosers ∧
        items.countP (fun item => decide (item.group = .sacrificedWinner)) = summary.sacrificedWinners
    | .error error => ∃ result ∈ summary.tradesDetail, result.triggered = true ∧
        ∃ trade ∈ trades, trade.windowIndex = result.windowIndex ∧
          trade.entryFillTime = result.entryFillTime ∧
          ∃ candles own, candlesByWindow.get? result.windowIndex = some candles ∧
            trade.falsePositiveAttribution result candles = .error own ∧ error = .path own := by
  obtain ⟨details, hdetails, h⟩ := bind_eq_ok_iff.mp h
  obtain ⟨hdetail, htriggered, hsavedLosers, hsacrificedWinners⟩ : summary.tradesDetail = details ∧
      summary.triggered = (details.countP fun result => result.triggered) ∧
      summary.savedLosers = (details.countP fun result => result.savedLoser) ∧
      summary.sacrificedWinners = details.countP fun result => result.sacrificedWinner := by
    cases h
    exact ⟨rfl, rfl, rfl, rfl⟩
  cases hitems : (details.filter fun result => result.triggered).mapM
      (attributeResult trades candlesByWindow) with
  | error error =>
    have hraised : attributeTriggered trades candlesByWindow summary = .error error := by
      unfold attributeTriggered
      rw [hdetail]
      exact bind_eq_error_iff.mpr (.inl hitems)
    rw [hraised]
    obtain ⟨result, hmem, hraises⟩ := mapM_eq_error hitems
    obtain ⟨hresult, hfails⟩ := List.mem_filter.mp hmem
    exact ⟨result, hdetail ▸ hresult, hfails, raised_of_attributeResult hdetails hresult hraises⟩
  | ok items =>
    have hcounts := counts_of_items hdetails hitems
    rw [← htriggered, ← hsavedLosers, ← hsacrificedWinners] at hcounts
    obtain ⟨hlength, hsaved, hsacrificed⟩ := hcounts
    have hreturned : attributeTriggered trades candlesByWindow summary = .ok items := by
      unfold attributeTriggered
      rw [hdetail]
      refine bind_eq_ok_iff.mpr ⟨items, hitems, ?_⟩
      dsimp only
      rw [if_neg (not_not.mpr hlength), if_neg (not_or.mpr ⟨not_not.mpr hsaved, not_not.mpr hsacrificed⟩)]
      rfl
    rw [hreturned]
    exact ⟨hlength, hsaved, hsacrificed⟩

theorem two_windows_reconcile : ∃ summary,
    buildFailedStructureCounterfactual [heldTwoDays, heldAgain] twoWindows "BTCUSDT"
      (fun _ _ => 1 / 2000) 42 = .ok summary ∧
        match attributeTriggered [heldTwoDays, heldAgain] twoWindows summary with
        | .ok items => items.length = summary.triggered
        | .error error => ∃ own, error = .path own := by
  obtain ⟨summary, hsummary, -⟩ := twoWindows_built
  have hreconciles := attribution_reconciles _ _ _ _ _ summary hsummary
  refine ⟨summary, hsummary, ?_⟩
  split at hreconciles
  · exact hreconciles.1
  · obtain ⟨_, -, -, _, -, -, -, _, own, -, -, hown⟩ := hreconciles
    exact ⟨own, hown⟩

end Reconciled

end CryptoTrading
