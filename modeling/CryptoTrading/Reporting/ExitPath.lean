import CryptoTrading.Kit.FirstBest
import CryptoTrading.Reporting.CandlePaths

/-! The path of a closed trade between its entry and its exit: how far the price went for it and against
it, when a downtrend began, and where it stood after some hours.  The candle of the exit and those after
it play no part. -/

namespace CryptoTrading

open Kit

def horizonsHours : List ℕ := [6, 12, 24, 48]

structure HorizonSnapshot where
  horizonHours : ℕ
  candleTime : Datetime
  close : Decimal
  returnPct : Decimal
  regime : String
  ema20 : Option Decimal
  ema50 : Option Decimal
  ema200 : Option Decimal
  closeAboveEma20 : Option Bool
  closeAboveEma50 : Option Bool
  closeAboveEma200 : Option Bool
  deriving DecidableEq

/-- The first candle of a downtrend, as the path reports it. -/
structure TrendDownPoint where
  time : Datetime
  bars : ℕ
  maxFavorableBeforePct : Decimal
  returnBeforePct : Decimal
  deriving DecidableEq

structure ExitPathTrade where
  trade : RetestTrade
  mfePct : Decimal
  maePct : Decimal
  barsToMfe : ℕ
  barsToMae : ℕ
  trendDown : Option TrendDownPoint
  horizons : List HorizonSnapshot
  deriving DecidableEq

namespace RetestTrade

variable (trade : RetestTrade)

/-- A price against that of the entry. -/
def returnPct (price : Decimal) : Except PathError Decimal :=
  if trade.entryPrice = 0 then .error .divisionByZero
  else .ok ((price - trade.entryPrice) / trade.entryPrice)

/-- `_build_horizon_snapshot` -/
def horizonSnapshot (ordered : List PathCandle) (horizonHours : ℕ) :
    Except PathError (Option HorizonSnapshot) :=
  let targetTime := trade.entryFillTime + (horizonHours - 1) * hour
  if targetTime ≥ trade.exitTime then .ok none
  else
    match candleAt ordered targetTime with
    | none => .error (.snapshotMissing horizonHours targetTime)
    | some candle => do
      let returned ← trade.returnPct candle.close
      return some
        { horizonHours
          candleTime := targetTime
          close := candle.close
          returnPct := returned
          regime := candle.regimeText
          ema20 := candle.ema20
          ema50 := candle.ema50
          ema200 := candle.ema200
          closeAboveEma20 := candle.ema20.map fun ema => decide (candle.close > ema)
          closeAboveEma50 := candle.ema50.map fun ema => decide (candle.close > ema)
          closeAboveEma200 := candle.ema200.map fun ema => decide (candle.close > ema) }

/-- The best and the worst price so far, each with the number of its bar. -/
structure Excursion where
  best : Decimal × ℕ
  worst : Decimal × ℕ

/-- A turn of the loop over the active candles. -/
def Excursion.bar (excursion : Excursion) (numbered : PathCandle × ℕ) : Excursion where
  best := observe (· < ·) excursion.best (numbered.1.high, numbered.2)
  worst := observe (· > ·) excursion.worst (numbered.1.low, numbered.2)

/-- The loop, and the price of the exit after it. -/
def excursion (active : List PathCandle) : Excursion :=
  let bars := (active.zipIdx 1).foldl Excursion.bar ⟨(trade.entryPrice, 0), (trade.entryPrice, 0)⟩
  { best := observe (· < ·) bars.best (trade.exitPrice, max 1 (active.length + 1))
    worst := observe (· > ·) bars.worst (trade.exitPrice, max 1 (active.length + 1)) }

/-- The loop that looks for a downtrend. -/
def trendDown (runningBest : Decimal) : List (PathCandle × ℕ) → Except PathError (Option TrendDownPoint)
  | [] => .ok none
  | (candle, bars) :: rest =>
    let runningBest := max runningBest candle.high
    if candle.regimeText = "TREND_DOWN" then do
      let returned ← trade.returnPct candle.close
      let favorable ← trade.returnPct runningBest
      return some
        { time := candle.openTime
          bars
          maxFavorableBeforePct := favorable
          returnBeforePct := returned }
    else trendDown runningBest rest

/-- The candles between the entry and the exit. -/
def activeCandles (ordered : List PathCandle) : List PathCandle :=
  ordered.filter fun candle =>
    decide (trade.entryFillTime ≤ candle.openTime) && decide (candle.openTime < trade.exitTime)

/-- `analyze_exit_path`, from the ordered candles on. -/
def analyzeOrdered (ordered : List PathCandle) : Except PathError ExitPathTrade := do
  if (candleAt ordered trade.entryFillTime).isNone then throw (.entryMissing trade.entryFillTime)
  let active := trade.activeCandles ordered
  if active = [] ∧ trade.exitTime > trade.entryFillTime then throw .noActiveCandles
  let excursion := trade.excursion active
  let trendDown ← trade.trendDown trade.entryPrice (active.zipIdx 1)
  let horizons ← horizonsHours.mapM (trade.horizonSnapshot ordered)
  return {
    trade
    mfePct := ← trade.returnPct excursion.best.1
    maePct := ← trade.returnPct excursion.worst.1
    barsToMfe := excursion.best.2
    barsToMae := excursion.worst.2
    trendDown
    horizons := horizons.filterMap id }

def analyzeExitPath (candles : List PathCandle) : Except PathError ExitPathTrade := do
  if trade.exitTime < trade.entryFillTime then throw .exitPrecedesEntry
  trade.analyzeOrdered (← orderedCandles candles)

/-! ### What the path depends on -/

variable {trade} {ordered other candles : List PathCandle}

/-- Ascending candles. -/
abbrev Ascending (ordered : List PathCandle) : Prop :=
  ordered.Pairwise fun earlier later => earlier.openTime < later.openTime

/-- Both lists have these candles in the life of the trade. -/
def SameLife (trade : RetestTrade) (candles other : List PathCandle) : Prop :=
  ∀ candle, trade.entryFillTime ≤ candle.openTime → candle.openTime < trade.exitTime →
    (candle ∈ candles ↔ candle ∈ other)

theorem activeCandles_congr (h : Ascending ordered) (h' : Ascending other)
    (hsame : trade.SameLife ordered other) : trade.activeCandles ordered = trade.activeCandles other := by
  refine eq_of_ascending (h.filter _) (h'.filter _) fun candle => ?_
  simp only [activeCandles, List.mem_filter, Bool.and_eq_true, decide_eq_true_eq]
  constructor
  · rintro ⟨hmem, hentry, hexit⟩
    exact ⟨(hsame candle hentry hexit).mp hmem, hentry, hexit⟩
  · rintro ⟨hmem, hentry, hexit⟩
    exact ⟨(hsame candle hentry hexit).mpr hmem, hentry, hexit⟩

theorem candleAt_congr (h : Ascending ordered) (h' : Ascending other) (hsame : trade.SameLife ordered other)
    {time : Datetime} (hentry : trade.entryFillTime ≤ time) (hexit : time < trade.exitTime) :
    candleAt ordered time = candleAt other time := by
  refine candleAt_eq_of_mem h h' fun candle htime => ?_
  exact hsame candle (htime ▸ hentry) (htime ▸ hexit)

theorem horizonSnapshot_congr (h : Ascending ordered) (h' : Ascending other)
    (hsame : trade.SameLife ordered other) {horizonHours : ℕ} (hhours : 1 ≤ horizonHours) :
    trade.horizonSnapshot ordered horizonHours = trade.horizonSnapshot other horizonHours := by
  unfold horizonSnapshot
  dsimp only
  split
  · rfl
  · rename_i hbefore
    have hentry : trade.entryFillTime ≤ trade.entryFillTime + ((horizonHours : ℤ) - 1) * hour := by
      have hnonneg : 0 ≤ ((horizonHours : ℤ) - 1) * hour :=
        mul_nonneg (by omega) (by decide)
      exact le_add_of_nonneg_right hnonneg
    rw [candleAt_congr h h' hsame hentry (not_le.mp hbefore)]

/-- The path of a trade depends on the candles of its life alone: not on the order in which candles are
given, and on none from the exit on. -/
theorem exit_path_of_life (trade : RetestTrade) (candles other ordered ordered' : List PathCandle)
    (h : orderedCandles candles = .ok ordered) (h' : orderedCandles other = .ok ordered')
    (hentry : (∃ candle ∈ candles, candle.openTime = trade.entryFillTime) ↔
      ∃ candle ∈ other, candle.openTime = trade.entryFillTime)
    (hsame : trade.SameLife candles other) :
    trade.analyzeExitPath candles = trade.analyzeExitPath other := by
  have hascending := ascending_of_valid (orderedCandles_eq_ok_iff.mp h).2
  have hascending' := ascending_of_valid (orderedCandles_eq_ok_iff.mp h').2
  have hlife : trade.SameLife ordered ordered' := by
    intro candle hfrom hto
    rw [mem_ordered h, mem_ordered h']
    exact hsame candle hfrom hto
  have hfound (list sorted : List PathCandle) (hsorted : orderedCandles list = .ok sorted) :
      (candleAt sorted trade.entryFillTime).isNone = true ↔
        ¬∃ candle ∈ list, candle.openTime = trade.entryFillTime := by
    rw [Option.isNone_iff_eq_none, Option.eq_none_iff_forall_ne_some, not_exists]
    refine forall_congr' fun candle => not_congr ?_
    rw [candleAt_eq_some_iff (ascending_of_valid (orderedCandles_eq_ok_iff.mp hsorted).2), mem_ordered hsorted]
  have hmissing : (candleAt ordered trade.entryFillTime).isNone =
      (candleAt ordered' trade.entryFillTime).isNone := by
    rw [Bool.eq_iff_iff, hfound candles ordered h, hfound other ordered' h', hentry]
  have hhorizons : horizonsHours.mapM (trade.horizonSnapshot ordered) =
      horizonsHours.mapM (trade.horizonSnapshot ordered') :=
    mapM_congr_of_mem fun hours hmem => horizonSnapshot_congr hascending hascending' hlife
      ((show ∀ hours ∈ horizonsHours, 1 ≤ hours by decide) hours hmem)
  have hanalyzed : trade.analyzeOrdered ordered = trade.analyzeOrdered ordered' := by
    unfold analyzeOrdered
    rw [hmissing, activeCandles_congr hascending hascending' hlife, hhorizons]
  unfold analyzeExitPath
  rw [h, h']
  dsimp only [bind, Except.bind]
  rw [hanalyzed]

/-- Three hours that go up, and below the entry again before the exit. -/
def threeHours : List PathCandle :=
  [{ openTime := 0, opening := some 100, high := 102, low := 99, close := 101 },
    { openTime := hour, opening := some 101, high := 104, low := 101, close := 103 },
    { openTime := 2 * hour, opening := some 103, high := 104, low := 97, close := 98, regime := some "TREND_DOWN" }]

/-- An hour from the exit on. -/
def fourthHour (close : Decimal) : PathCandle :=
  { openTime := 3 * hour, opening := some 98, high := 120, low := 90, close }

def heldThreeHours : RetestTrade where
  symbol := "BTCUSDT"
  windowIndex := 1
  breakoutLevel := 99
  entryFillTime := 0
  entryPrice := 100
  quantity := 1
  exitTime := 3 * hour
  exitPrice := 98
  exitReason := "Regime changed to TREND_DOWN"
  entryCommission := 1
  realizedPnl := -4
  holdingBars := 3

theorem path_without_fourth_hour :
    heldThreeHours.analyzeExitPath (threeHours ++ [fourthHour 119]) =
      heldThreeHours.analyzeExitPath (fourthHour 91 :: threeHours) := by
  have hperm : ([fourthHour 91] ++ threeHours).Perm (threeHours ++ [fourthHour 91]) := List.perm_append_comm
  refine exit_path_of_life heldThreeHours _ _ (threeHours ++ [fourthHour 119]) (threeHours ++ [fourthHour 91])
    (orderedCandles_of_perm (.refl _) (by decide)) (orderedCandles_of_perm hperm (by decide)) (by decide) ?_
  intro candle _ hbefore
  have hne (close : Decimal) : candle ≠ fourthHour close := by
    rintro rfl
    exact absurd hbefore (lt_irrefl (3 * hour))
  simp [hne]

/-! ### The excursions of the price -/

theorem best_foldl_bar (numbered : List (PathCandle × ℕ)) (excursion : Excursion) :
    (numbered.foldl Excursion.bar excursion).best =
      numbered.foldl (fun best bar => observe (· < ·) best (bar.1.high, bar.2)) excursion.best := by
  induction numbered generalizing excursion with
  | nil => rfl
  | cons bar rest ih => exact ih _

theorem worst_foldl_bar (numbered : List (PathCandle × ℕ)) (excursion : Excursion) :
    (numbered.foldl Excursion.bar excursion).worst =
      numbered.foldl (fun worst bar => observe (· > ·) worst (bar.1.low, bar.2)) excursion.worst := by
  induction numbered generalizing excursion with
  | nil => rfl
  | cons bar rest ih => exact ih _

/-- The highest of the prices that the trade has seen, and the first of them that was. -/
theorem excursion_best (active : List PathCandle) : (trade.excursion active).best =
    firstBest (· < ·) trade.entryPrice (active.map PathCandle.high ++ [trade.exitPrice]) := by
  rw [firstBest_concat, firstBest, List.zipIdx_map, List.foldl_map, List.length_map, excursion]
  dsimp only
  rw [best_foldl_bar, Nat.max_eq_right (Nat.le_add_left 1 active.length)]
  rfl

theorem excursion_worst (active : List PathCandle) : (trade.excursion active).worst =
    firstBest (· > ·) trade.entryPrice (active.map PathCandle.low ++ [trade.exitPrice]) := by
  rw [firstBest_concat, firstBest, List.zipIdx_map, List.foldl_map, List.length_map, excursion]
  dsimp only
  rw [worst_foldl_bar, Nat.max_eq_right (Nat.le_add_left 1 active.length)]
  rfl

/-- `place` is the number of the first of `prices` that is `price`, and `worse` than it all before; or no
price has been better than that of the entry. -/
def FirstReached (trade : RetestTrade) (worse : Decimal → Decimal → Prop) (prices : List Decimal)
    (price : Decimal) (place : ℕ) : Prop :=
  price = trade.entryPrice ∧ place = 0 ∨ ∃ before after, prices = before ++ price :: after ∧
    place = before.length + 1 ∧ ∀ other ∈ trade.entryPrice :: before, worse other price

theorem returnPct_eq_ok_iff {price returned : Decimal} : trade.returnPct price = .ok returned ↔
    trade.entryPrice ≠ 0 ∧ returned = (price - trade.entryPrice) / trade.entryPrice := by
  unfold returnPct
  split
  · simp [*]
  · simp [*, eq_comm]

/-- What a path reports of the excursions. -/
theorem excursions_of_path {path : ExitPathTrade} (h : trade.analyzeExitPath candles = .ok path) :
    ∃ ordered, orderedCandles candles = .ok ordered ∧
      trade.returnPct (trade.excursion (trade.activeCandles ordered)).best.1 = .ok path.mfePct ∧
      trade.returnPct (trade.excursion (trade.activeCandles ordered)).worst.1 = .ok path.maePct ∧
      path.barsToMfe = (trade.excursion (trade.activeCandles ordered)).best.2 ∧
      path.barsToMae = (trade.excursion (trade.activeCandles ordered)).worst.2 := by
  unfold analyzeExitPath at h
  dsimp only at h
  split at h
  · cases h
  · obtain ⟨ordered, hordered, h⟩ := bind_eq_ok_iff.mp h
    refine ⟨ordered, hordered, ?_⟩
    unfold analyzeOrdered at h
    dsimp only at h
    split at h
    · cases h
    · split at h
      · cases h
      · obtain ⟨trendDown, -, h⟩ := bind_eq_ok_iff.mp h
        obtain ⟨horizons, -, h⟩ := bind_eq_ok_iff.mp h
        obtain ⟨mfe, hmfe, h⟩ := bind_eq_ok_iff.mp h
        obtain ⟨mae, hmae, h⟩ := bind_eq_ok_iff.mp h
        cases h
        exact ⟨hmfe, hmae, rfl, rfl⟩

/-- The favourable excursion of a path is that of the highest price between entry and exit, and the adverse
one that of the lowest; each comes with the number of the first bar that reached it. -/
theorem exit_path_excursions (trade : RetestTrade) (candles : List PathCandle) (path : ExitPathTrade)
    (h : trade.analyzeExitPath candles = .ok path) (hprice : 0 < trade.entryPrice) :
    ∃ ordered best worst, orderedCandles candles = .ok ordered ∧
      path.mfePct = (best - trade.entryPrice) / trade.entryPrice ∧ 0 ≤ path.mfePct ∧
      path.maePct = (worst - trade.entryPrice) / trade.entryPrice ∧ path.maePct ≤ 0 ∧
      (∀ candle ∈ trade.activeCandles ordered, worst ≤ candle.low ∧ candle.high ≤ best) ∧
      worst ≤ trade.exitPrice ∧ trade.exitPrice ≤ best ∧
      trade.FirstReached (· < ·) ((trade.activeCandles ordered).map PathCandle.high ++ [trade.exitPrice])
        best path.barsToMfe ∧
      trade.FirstReached (· > ·) ((trade.activeCandles ordered).map PathCandle.low ++ [trade.exitPrice])
        worst path.barsToMae := by
  obtain ⟨ordered, hordered, hmfe, hmae, hbarsMfe, hbarsMae⟩ := excursions_of_path h
  obtain ⟨hhigh, hfirstHigh⟩ := firstBest_spec preference_lt trade.entryPrice
    ((trade.activeCandles ordered).map PathCandle.high ++ [trade.exitPrice])
  obtain ⟨hlow, hfirstLow⟩ := firstBest_spec preference_gt trade.entryPrice
    ((trade.activeCandles ordered).map PathCandle.low ++ [trade.exitPrice])
  rw [excursion_best] at hmfe hbarsMfe
  rw [excursion_worst] at hmae hbarsMae
  generalize firstBest (· < ·) trade.entryPrice _ = best at hmfe hbarsMfe hhigh hfirstHigh
  generalize firstBest (· > ·) trade.entryPrice _ = worst at hmae hbarsMae hlow hfirstLow
  obtain ⟨-, hmfe⟩ := returnPct_eq_ok_iff.mp hmfe
  obtain ⟨-, hmae⟩ := returnPct_eq_ok_iff.mp hmae
  simp only [List.mem_cons, List.mem_append, List.mem_map, not_lt] at hhigh hlow
  have hbest : trade.entryPrice ≤ best.1 := hhigh _ (.inl rfl)
  have hworst : worst.1 ≤ trade.entryPrice := hlow _ (.inl rfl)
  refine ⟨ordered, best.1, worst.1, hordered, hmfe, ?_, hmae, ?_, ?_, ?_, ?_, ?_, ?_⟩
  · rw [hmfe]
    exact div_nonneg (sub_nonneg.mpr hbest) hprice.le
  · rw [hmae]
    exact div_nonpos_of_nonpos_of_nonneg (sub_nonpos.mpr hworst) hprice.le
  · intro candle hcandle
    exact ⟨hlow _ (.inr (.inl ⟨candle, hcandle, rfl⟩)), hhigh _ (.inr (.inl ⟨candle, hcandle, rfl⟩))⟩
  · exact hlow _ (.inr (.inr (.inl rfl)))
  · exact hhigh _ (.inr (.inr (.inl rfl)))
  · rw [FirstReached, hbarsMfe]
    rcases hfirstHigh with rfl | hfirst
    · exact .inl ⟨rfl, rfl⟩
    · exact .inr hfirst
  · rw [FirstReached, hbarsMae]
    rcases hfirstLow with rfl | hfirst
    · exact .inl ⟨rfl, rfl⟩
    · exact .inr hfirst

theorem threeHours_excursions : ∃ path, heldThreeHours.analyzeExitPath threeHours = .ok path ∧
    path.barsToMfe = 2 ∧ 0 ≤ path.mfePct ∧ path.maePct ≤ 0 := by
  have hordered : orderedCandles threeHours = .ok threeHours := orderedCandles_of_perm (.refl _) (by decide)
  have hpath : heldThreeHours.analyzeExitPath threeHours = heldThreeHours.analyzeOrdered threeHours := by
    unfold analyzeExitPath
    rw [hordered]
    rfl
  obtain ⟨path, hanalyzed, hbars⟩ : ∃ path, heldThreeHours.analyzeOrdered threeHours = .ok path ∧
      path.barsToMfe = 2 := ⟨_, rfl, rfl⟩
  obtain ⟨-, -, -, -, -, hmfe, -, hmae, -⟩ :=
    exit_path_excursions heldThreeHours threeHours path (hpath.trans hanalyzed) (by decide)
  exact ⟨path, hpath.trans hanalyzed, hbars, hmfe, hmae⟩

end RetestTrade

end CryptoTrading
