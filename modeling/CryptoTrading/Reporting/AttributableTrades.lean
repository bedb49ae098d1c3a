import CryptoTrading.Reporting.TriggeredTrades

/-! When a triggered trade is attributed, from the candles that it was triggered with.  Nothing else of the
checks of the attribution can fail there. -/

namespace CryptoTrading

open Kit

/-! ### What divides -/

theorem exists_quotient_iff (numerator : Decimal) {denominator : Decimal} :
    (∃ value, quotient numerator denominator = .ok value) ↔ denominator ≠ 0 := by
  unfold quotient
  split
  · simp [*]
  · simp [*]

theorem exists_emaDistance_iff (close : Decimal) {ema : Option Decimal} :
    (∃ value, emaDistance close ema = .ok value) ↔ ema ≠ some 0 := by
  cases ema with
  | none => simp [emaDistance]
  | some value =>
    unfold emaDistance
    dsimp only
    split
    · simp [*]
    · simp [*]

theorem exists_emaSlope_iff {current previous : Option Decimal} :
    (∃ value, emaSlope current previous = .ok value) ↔ (current.isSome = true → previous ≠ some 0) := by
  cases current with
  | none => simp [emaSlope]
  | some current =>
    cases previous with
    | none => simp [emaSlope]
    | some previous =>
      unfold emaSlope
      dsimp only
      split
      · simp [*]
      · simp [*]

theorem exists_atrToClose_iff {close : Decimal} {atr : Option Decimal} :
    (∃ value, atrToClose close atr = .ok value) ↔ (atr.isSome = true → close ≠ 0) := by
  cases atr with
  | none => simp [atrToClose]
  | some atr =>
    unfold atrToClose
    simp only [map_eq_ok_iff, Option.isSome_some, true_imp_iff, ← exists_quotient_iff atr]
    constructor
    · rintro ⟨_, value, hvalue, -⟩
      exact ⟨value, hvalue⟩
    · rintro ⟨value, hvalue⟩
      exact ⟨_, value, hvalue, rfl⟩

namespace RetestTrade

variable {trade : RetestTrade} {candles ordered : List PathCandle}

/-- What the features of a snapshot divide by. -/
structure Divides (trade : RetestTrade) (snapshot previous : PathCandle) : Prop where
  price : trade.entryPrice ≠ 0
  level : trade.breakoutLevel ≠ 0
  close : snapshot.atr.isSome = true → snapshot.close ≠ 0
  ema20 : snapshot.ema20 ≠ some 0
  ema50 : snapshot.ema50 ≠ some 0
  ema200 : snapshot.ema200 ≠ some 0
  previousEma20 : snapshot.ema20.isSome = true → previous.ema20 ≠ some 0
  previousEma50 : snapshot.ema50.isSome = true → previous.ema50 ≠ some 0
  previousEma200 : snapshot.ema200.isSome = true → previous.ema200 ≠ some 0

theorem exists_snapshotOf_iff {group : SnapshotGroup} {snapshot previous : PathCandle}
    {active : List PathCandle} :
    (∃ features, trade.snapshotOf group snapshot previous active = .ok features) ↔
      trade.Divides snapshot previous := by
  unfold snapshotOf
  dsimp only
  constructor
  · rintro ⟨features, h⟩
    obtain ⟨_, hreturned, h⟩ := bind_eq_ok_iff.mp h
    obtain ⟨_, -, h⟩ := bind_eq_ok_iff.mp h
    obtain ⟨_, -, h⟩ := bind_eq_ok_iff.mp h
    obtain ⟨_, hema20, h⟩ := bind_eq_ok_iff.mp h
    obtain ⟨_, hema50, h⟩ := bind_eq_ok_iff.mp h
    obtain ⟨_, hema200, h⟩ := bind_eq_ok_iff.mp h
    obtain ⟨_, hslope20, h⟩ := bind_eq_ok_iff.mp h
    obtain ⟨_, hslope50, h⟩ := bind_eq_ok_iff.mp h
    obtain ⟨_, hslope200, h⟩ := bind_eq_ok_iff.mp h
    obtain ⟨_, hatr, h⟩ := bind_eq_ok_iff.mp h
    obtain ⟨_, hlevel, h⟩ := bind_eq_ok_iff.mp h
    exact {
      price := (exists_quotient_iff _).mp ⟨_, hreturned⟩
      level := (exists_quotient_iff _).mp ⟨_, hlevel⟩
      close := exists_atrToClose_iff.mp ⟨_, hatr⟩
      ema20 := (exists_emaDistance_iff _).mp ⟨_, hema20⟩
      ema50 := (exists_emaDistance_iff _).mp ⟨_, hema50⟩
      ema200 := (exists_emaDistance_iff _).mp ⟨_, hema200⟩
      previousEma20 := exists_emaSlope_iff.mp ⟨_, hslope20⟩
      previousEma50 := exists_emaSlope_iff.mp ⟨_, hslope50⟩
      previousEma200 := exists_emaSlope_iff.mp ⟨_, hslope200⟩ }
  · intro h
    have hquotient (numerator : Decimal) := (exists_quotient_iff numerator).mpr h.price
    obtain ⟨_, hreturned⟩ := hquotient (snapshot.close - trade.entryPrice)
    obtain ⟨_, hmfe⟩ := hquotient ((active.map PathCandle.high).foldl max trade.entryPrice - trade.entryPrice)
    obtain ⟨_, hmae⟩ := hquotient ((active.map PathCandle.low).foldl min trade.entryPrice - trade.entryPrice)
    obtain ⟨_, hema20⟩ := (exists_emaDistance_iff snapshot.close).mpr h.ema20
    obtain ⟨_, hema50⟩ := (exists_emaDistance_iff snapshot.close).mpr h.ema50
    obtain ⟨_, hema200⟩ := (exists_emaDistance_iff snapshot.close).mpr h.ema200
    obtain ⟨_, hslope20⟩ := exists_emaSlope_iff.mpr h.previousEma20
    obtain ⟨_, hslope50⟩ := exists_emaSlope_iff.mpr h.previousEma50
    obtain ⟨_, hslope200⟩ := exists_emaSlope_iff.mpr h.previousEma200
    obtain ⟨_, hatr⟩ := exists_atrToClose_iff.mpr h.close
    obtain ⟨_, hlevel⟩ := (exists_quotient_iff (snapshot.close - trade.breakoutLevel)).mpr h.level
    rw [hreturned, hmfe, hmae, hema20, hema50, hema200, hslope20, hslope50, hslope200, hatr, hlevel]
    exact ⟨_, rfl⟩

/-- The first day has a candle for every hour, where it has one at both of its ends. -/
theorem length_firstDay (hvalid : validateHourlySequence ordered = .ok ()) {entry last : PathCandle}
    (hentry : candleAt ordered trade.entryFillTime = some entry)
    (hlast : candleAt ordered trade.dayTime = some last) : (trade.firstDay ordered).length = 24 := by
  have hascending := ascending_of_valid hvalid
  obtain ⟨hmemEntry, htimeEntry⟩ := (candleAt_eq_some_iff hascending).mp hentry
  obtain ⟨hmemLast, htimeLast⟩ := (candleAt_eq_some_iff hascending).mp hlast
  have hhour : (0 : ℤ) < hour := by decide
  have hday : Ascending (trade.firstDay ordered) := hascending.filter _
  have hperm : ((trade.firstDay ordered).map PathCandle.openTime).Perm
      (progression trade.entryFillTime hour 24) := by
    rw [List.perm_ext_iff_of_nodup (List.pairwise_map.mpr (hday.imp ne_of_lt))
      (nodup_progression hhour)]
    intro time
    simp only [List.mem_map, firstDay, List.mem_filter, Bool.and_eq_true, decide_eq_true_eq,
      mem_progression_iff]
    constructor
    · rintro ⟨candle, ⟨hmem, hfrom, hto⟩, rfl⟩
      obtain ⟨hours, htime⟩ := exists_hours hvalid hmemEntry hmem (htimeEntry ▸ hfrom)
      rw [htimeEntry] at htime
      refine ⟨hours, ?_, htime⟩
      unfold dayTime at hto
      have hbound : (hours : ℤ) * hour ≤ 23 * hour := by linarith
      have hle : (hours : ℤ) ≤ 23 := le_of_mul_le_mul_right hbound hhour
      omega
    · rintro ⟨hours, hlt, rfl⟩
      have hbound : (hours : ℤ) * hour ≤ 23 * hour :=
        mul_le_mul_of_nonneg_right (by omega) hhour.le
      have hnonneg : 0 ≤ (hours : ℤ) * hour := mul_nonneg (by omega) hhour.le
      have hto : trade.entryFillTime + hours * hour ≤ trade.dayTime := by
        unfold dayTime
        linarith
      obtain ⟨candle, hmem, htime⟩ := exists_between hvalid hmemEntry hmemLast _
        (show entry.openTime + hours * hour ≤ last.openTime by rw [htimeEntry, htimeLast]; exact hto)
      rw [htimeEntry] at htime
      exact ⟨candle, ⟨hmem, by linarith, htime ▸ hto⟩, htime⟩
  simpa using hperm.length_eq

/-- The snapshot of a triggered trade can be taken. -/
structure Attributable (trade : RetestTrade) (candles : List PathCandle) : Prop where
  entry : ∃ candle ∈ candles, candle.openTime = trade.entryFillTime
  level : 0 < trade.breakoutLevel
  outcome : trade.realizedPnl ≠ 0
  close : ∀ candle ∈ candles, candle.openTime = trade.dayTime → candle.close ≠ 0
  divides : ∀ candle ∈ candles, candle.openTime = trade.dayTime → ∀ previous ∈ candles,
    previous.openTime = trade.dayTime - hour → trade.Divides candle previous

theorem snapshotGroup_eq_none_iff : trade.snapshotGroup = none ↔ trade.realizedPnl = 0 := by
  unfold snapshotGroup
  split
  · rename_i hwinner
    exact iff_of_false nofun hwinner.ne'
  split
  · rename_i hnot hflat
    exact iff_of_true rfl (le_antisymm (not_lt.mp hnot) hflat)
  rename_i hloser
  have hne : trade.realizedPnl ≠ 0 := fun hzero => hloser hzero.ge
  split
  · exact iff_of_false nofun hne
  split
  · exact iff_of_false nofun hne
  · exact iff_of_false nofun hne

theorem exists_futureExcursions_iff {snapshot : EarlyFailureSnapshot} :
    (∃ future, trade.futureExcursions snapshot ordered = .ok future) ↔ snapshot.close24h ≠ 0 := by
  unfold futureExcursions
  dsimp only
  constructor
  · rintro ⟨future, h⟩
    obtain ⟨_, hmfe, -⟩ := bind_eq_ok_iff.mp h
    exact (exists_quotient_iff _).mp ⟨_, hmfe⟩
  · intro hclose
    have hquotient (numerator : Decimal) := (exists_quotient_iff numerator).mpr hclose
    obtain ⟨_, hmfe⟩ := hquotient
      (max (((trade.candlesAfter snapshot ordered).map PathCandle.high).foldl max snapshot.close24h)
        trade.exitPrice - snapshot.close24h)
    obtain ⟨_, hmae⟩ := hquotient
      (min (((trade.candlesAfter snapshot ordered).map PathCandle.low).foldl min snapshot.close24h)
        trade.exitPrice - snapshot.close24h)
    rw [hmfe, hmae]
    exact ⟨_, rfl⟩

/-- The snapshot of a held trade, where its entry and the end of the day have their candles. -/
theorem exists_snapshotOrdered_iff (hvalid : validateHourlySequence ordered = .ok ()) {last : PathCandle}
    (hlast : candleAt ordered trade.dayTime = some last) (hheld : trade.dayTime < trade.exitTime) :
    (∃ snapshot, trade.snapshotOrdered ordered = .ok (some snapshot)) ↔
      (∃ entry, candleAt ordered trade.entryFillTime = some entry) ∧ 0 < trade.breakoutLevel ∧
        trade.realizedPnl ≠ 0 ∧
        ∀ previous, candleAt ordered (trade.dayTime - hour) = some previous → trade.Divides last previous := by
  have hascending := ascending_of_valid hvalid
  unfold snapshotOrdered
  cases hentry : candleAt ordered trade.entryFillTime with
  | none =>
    refine iff_of_false ?_ ?_
    · rintro ⟨_, h⟩
      cases h
    · rintro ⟨⟨_, h⟩, -⟩
      cases h
  | some entry =>
    obtain ⟨hmemEntry, htimeEntry⟩ := (candleAt_eq_some_iff hascending).mp hentry
    obtain ⟨hmemLast, htimeLast⟩ := (candleAt_eq_some_iff hascending).mp hlast
    have hbefore : trade.entryFillTime + (22 : ℕ) * hour = trade.dayTime - hour := by
      unfold dayTime
      push_cast
      ring
    obtain ⟨previous, hmem, htime⟩ := exists_between hvalid hmemEntry hmemLast 22 (by
      have hhour : (0 : ℤ) < hour := by decide
      rw [htimeEntry, htimeLast, hbefore]
      linarith)
    rw [htimeEntry, hbefore] at htime
    have hprevious := (candleAt_eq_some_iff hascending).mpr ⟨hmem, htime⟩
    rw [if_neg (by simp), if_neg (not_le.mpr hheld), hlast, hprevious]
    dsimp only
    unfold grouped
    rw [if_neg (not_not.mpr (length_firstDay hvalid hentry hlast))]
    by_cases hlevel : trade.breakoutLevel ≤ 0
    · rw [if_pos hlevel]
      refine iff_of_false ?_ fun hall => absurd hall.2.1 (not_lt.mpr hlevel)
      rintro ⟨_, h⟩
      cases h
    rw [if_neg hlevel]
    cases hgroup : trade.snapshotGroup with
    | none =>
      refine iff_of_false ?_ fun hall => hall.2.2.1 (snapshotGroup_eq_none_iff.mp hgroup)
      rintro ⟨_, h⟩
      cases h
    | some group =>
      have houtcome : trade.realizedPnl ≠ 0 := fun hzero => by
        rw [snapshotGroup_eq_none_iff.mpr hzero] at hgroup
        cases hgroup
      have hfeatures : (∃ features, trade.snapshotOf group last previous (trade.firstDay ordered) = .ok features) ↔
          trade.Divides last previous := exists_snapshotOf_iff
      constructor
      · rintro ⟨snapshot, h⟩
        obtain ⟨own, hown, -⟩ := map_eq_ok_iff.mp h
        refine ⟨⟨entry, rfl⟩, not_le.mp hlevel, houtcome, ?_⟩
        rintro other ⟨⟩
        exact hfeatures.mp ⟨own, hown⟩
      · rintro ⟨-, -, -, hdivides⟩
        obtain ⟨own, hown⟩ := hfeatures.mpr (hdivides previous rfl)
        exact ⟨own, map_eq_ok_iff.mpr ⟨own, hown, rfl⟩⟩

theorem snapshotTime_of_evaluate {ρ : Type} {rule : CounterfactualRule ρ} {draws : SeedMaterial → ℕ → Decimal}
    {baseSeed : ℤ} {result : CounterfactualResult ρ} (hordered : orderedCandles candles = .ok ordered)
    (h : rule.evaluate draws baseSeed trade candles = .ok result) :
    result.snapshotTime = (candleAt ordered (rule.snapshotTime trade)).map fun _ => rule.snapshotTime trade := by
  obtain ⟨own, hown, h⟩ := bind_eq_ok_iff.mp h
  cases hown.symm.trans hordered
  obtain ⟨_, -, h⟩ := bind_eq_ok_iff.mp h
  obtain ⟨_, -, h⟩ := bind_eq_ok_iff.mp h
  cases h
  rfl

theorem exists_triggerGroup {result : CounterfactualTrade} (h : result.triggered = true) :
    ∃ group, result.triggerGroup = .ok group := by
  unfold CounterfactualTrade.triggerGroup
  rw [if_neg (by simp [h])]
  split
  · exact ⟨_, rfl⟩
  split
  · exact ⟨_, rfl⟩
  · exact ⟨_, rfl⟩

/-- The attribution of a result that has passed the checks, by its snapshot. -/
theorem exists_attribution_iff {result : CounterfactualResult StructureReading}
    (hordered : orderedCandles candles = .ok ordered)
    (hchecked : trade.checkResult result.toCounterfactualTrade = .ok ())
    (htime : result.snapshotTime = some trade.dayTime) (htriggered : result.triggered = true) :
    (∃ item, trade.falsePositiveAttribution result candles = .ok item) ↔
      ∃ snapshot, trade.snapshotOrdered ordered = .ok (some snapshot) ∧ snapshot.close24h ≠ 0 := by
  have hbuilt : trade.build24hSnapshot candles = trade.snapshotOrdered ordered := by
    unfold build24hSnapshot
    rw [hordered]
    rfl
  unfold falsePositiveAttribution eligibleSnapshot
  rw [hchecked, hordered, hbuilt]
  constructor
  · rintro ⟨item, h⟩
    obtain ⟨_, -, h⟩ := bind_eq_ok_iff.mp h
    obtain ⟨snapshot, heligible, h⟩ := bind_eq_ok_iff.mp h
    obtain ⟨_, ⟨⟩, h⟩ := bind_eq_ok_iff.mp h
    obtain ⟨future, hfuture, -⟩ := bind_eq_ok_iff.mp h
    obtain ⟨found, hfound, heligible⟩ := bind_eq_ok_iff.mp heligible
    cases found with
    | none => cases heligible
    | some own =>
      dsimp only at heligible
      split at heligible
      · cases heligible
      · cases heligible
        exact ⟨snapshot, hfound, exists_futureExcursions_iff.mp ⟨future, hfuture⟩⟩
  · rintro ⟨snapshot, hsnapshot, hclose⟩
    obtain ⟨future, hfuture⟩ : ∃ future, trade.futureExcursions snapshot ordered = .ok future :=
      exists_futureExcursions_iff.mpr hclose
    obtain ⟨group, hgroup⟩ := exists_triggerGroup htriggered
    have hsame : ¬result.snapshotTime ≠ some snapshot.snapshotTime := by
      rw [(snapped_of_ordered hsnapshot).time]
      exact not_not.mpr htime
    simp only [hsnapshot, bind, Except.bind, hsame, if_false, pure, Except.pure, hfuture, hgroup]
    exact ⟨_, rfl⟩

/-- A triggered trade is attributed, from the candles that it was triggered with, exactly when its entry has
a candle, its level is above zero, it has made or lost something, and nothing that is divided by is zero. -/
theorem attributed_iff (trade : RetestTrade) (candles : List PathCandle) (draws : SeedMaterial → ℕ → Decimal)
    (baseSeed : ℤ) (result : CounterfactualResult StructureReading)
    (h : failedStructure.evaluate draws baseSeed trade candles = .ok result)
    (htriggered : result.triggered = true) :
    (∃ item, trade.falsePositiveAttribution result candles = .ok item) ↔ trade.Attributable candles := by
  obtain ⟨exit, hresult, hexit⟩ := exit_of_evaluate h
  obtain ⟨ordered, hordered, -⟩ := bind_eq_ok_iff.mp h
  have hvalid := (orderedCandles_eq_ok_iff.mp hordered).2
  have hascending := ascending_of_valid hvalid
  obtain ⟨sale, hsale⟩ : ∃ sale, exit = some sale := by
    rw [← Option.isSome_iff_exists]
    rwa [hresult] at htriggered
  obtain ⟨opening, hfails, -⟩ := (hexit sale).mp hsale
  obtain ⟨last, hmemLast, htimeLast, -⟩ := hfails.snapshot
  have hday : failedStructure.snapshotTime trade = trade.dayTime := rfl
  rw [hday] at htimeLast
  have hat (time : Datetime) (candle : PathCandle) :
      candleAt ordered time = some candle ↔ candle ∈ candles ∧ candle.openTime = time := by
    rw [candleAt_eq_some_iff hascending, mem_ordered hordered]
  have hlast := (hat trade.dayTime last).mpr ⟨hmemLast, htimeLast⟩
  have hheld : trade.dayTime < trade.exitTime := by
    have hhour : (0 : ℤ) < hour := by decide
    have hlater := hfails.held
    unfold CounterfactualRule.executionTime at hlater
    rw [hday] at hlater
    linarith
  have htime : result.snapshotTime = some trade.dayTime := by
    rw [snapshotTime_of_evaluate hordered h, hday, hlast]
    rfl
  have hchecked : trade.checkResult result.toCounterfactualTrade = .ok () := by
    unfold checkResult
    rw [hresult, hsale]
    simp [counterfactual]
  rw [exists_attribution_iff hordered hchecked htime htriggered]
  have hclose : ∀ snapshot, trade.snapshotOrdered ordered = .ok (some snapshot) →
      snapshot.close24h = last.close := by
    intro snapshot hsnapshot
    obtain ⟨candle, hcandle, hclose⟩ := (snapped_of_ordered hsnapshot).candle
    rw [hlast] at hcandle
    cases hcandle
    exact hclose
  have honly : ∀ candle ∈ candles, candle.openTime = trade.dayTime → candle = last := by
    intro candle hmem hsame
    have hfound := (hat trade.dayTime candle).mpr ⟨hmem, hsame⟩
    rw [hlast] at hfound
    exact (Option.some.inj hfound).symm
  constructor
  · rintro ⟨snapshot, hsnapshot, hnonzero⟩
    obtain ⟨⟨entry, hentry⟩, hlevel, houtcome, hdivides⟩ :=
      (exists_snapshotOrdered_iff hvalid hlast hheld).mp ⟨snapshot, hsnapshot⟩
    refine ⟨⟨entry, (hat _ _).mp hentry⟩, hlevel, houtcome, ?_, ?_⟩
    · intro candle hmem hsame
      rw [honly candle hmem hsame, ← hclose snapshot hsnapshot]
      exact hnonzero
    · intro candle hmem hsame previous hprevious hbefore
      rw [honly candle hmem hsame]
      exact hdivides previous ((hat _ _).mpr ⟨hprevious, hbefore⟩)
  · intro hall
    obtain ⟨entry, hentry⟩ := hall.entry
    obtain ⟨snapshot, hsnapshot⟩ := (exists_snapshotOrdered_iff hvalid hlast hheld).mpr
      ⟨⟨entry, (hat _ _).mpr hentry⟩, hall.level, hall.outcome, fun previous hprevious => by
        obtain ⟨hmem, hbefore⟩ := (hat _ _).mp hprevious
        exact hall.divides last hmemLast htimeLast previous hmem hbefore⟩
    exact ⟨snapshot, hsnapshot, by rw [hclose snapshot hsnapshot]; exact hall.close last hmemLast htimeLast⟩

def flatPastDay : RetestTrade := { heldPastDay with realizedPnl := 0 }

/-- A trade that made nothing is triggered, and has no snapshot. -/
theorem flat_not_attributed : ∃ result,
    failedStructure.evaluate (fun _ _ => 1 / 2000) 42 flatPastDay fallingCandles = .ok result ∧
      result.triggered = true ∧
      ¬∃ item, flatPastDay.falsePositiveAttribution result fallingCandles = .ok item := by
  have hordered : orderedCandles fallingCandles = .ok fallingCandles := orderedCandles_of_perm (.refl _) (by decide)
  have hread : ((failedStructure.evaluateOrdered (fun _ _ => 1 / 2000) 42 flatPastDay
      fallingCandles).toOption.any fun result => result.triggered) = true := by
    decide +kernel
  cases hresult : failedStructure.evaluateOrdered (fun _ _ => 1 / 2000) 42 flatPastDay fallingCandles with
  | error error =>
    rw [hresult] at hread
    cases hread
  | ok result =>
    rw [hresult] at hread
    have hevaluated : failedStructure.evaluate (fun _ _ => 1 / 2000) 42 flatPastDay fallingCandles =
        .ok result := by
      unfold CounterfactualRule.evaluate
      rw [hordered]
      exact hresult
    refine ⟨result, hevaluated, hread, fun hitem => ?_⟩
    exact ((attributed_iff flatPastDay fallingCandles _ 42 result hevaluated hread).mp hitem).outcome rfl

end RetestTrade

end CryptoTrading
