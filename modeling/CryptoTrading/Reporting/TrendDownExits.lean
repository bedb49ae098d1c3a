import CryptoTrading.Kit.Fallible
import CryptoTrading.Reporting.TradeReconstruction

/-! The report on the exits of the baseline at a trend down: it finds them from the audit rows of a run, and
looks at the three candles after the signal.  Its exits are those of the attribution report, which finds all
the trades from the same rows. -/

namespace CryptoTrading

open Kit

/-- A fill joined to its order, with the entries of the signal that the report reads. -/
structure SignalRow extends AuditRow where
  signalTimestamp : Option Datetime
  signalPrice : Option Decimal

structure DiagnosticCandle where
  openTime : Datetime
  closePrice : Decimal
  lowPrice : Decimal
  highPrice : Decimal
  regime : Option String

structure TrendDownDiagnostic where
  entryTime : Datetime
  entryPrice : Decimal
  dcaCount : ℕ
  weightedEntryPrice : Decimal
  quantity : Decimal
  firstTrendDownTime : Datetime
  firstTrendDownPrice : Decimal
  pnlAtFirstTrendDown : Decimal
  /-- The prices, the regimes and the returns after one, two and three bars. -/
  pricesAfter : List (Option Decimal)
  regimesAfter : List (Option String)
  minLowNext3Bars : Option Decimal
  maxHighNext3Bars : Option Decimal
  closeReturns : List (Option Decimal)
  minLowReturnNext3Bars : Option Decimal
  maxHighReturnNext3Bars : Option Decimal
  trendDownContinued3Bars : Bool
  falseSwitchWithin3Bars : Bool
  actualExitTime : Datetime
  actualExitPrice : Decimal
  actualRealizedPnl : Decimal

/-- What `reconstruct_trend_down_exits` raises. -/
inductive TrendDownError
  /-- "Unsupported fill side: {side}" -/
  | unsupportedSide (side : String)
  /-- "Sell fill without an open position in audit" -/
  | sellWithoutPosition
  /-- "Partial/oversized sell is not supported by TREND_DOWN diagnostics: sell={sell} position={position}" -/
  | partialSell (sell position : Decimal)
  /-- "TREND_DOWN exit signal has no timestamp" -/
  | noTimestamp
  /-- The price of the signal is missing. -/
  | noPrice
  /-- `DivisionByZero` of a return, whose reference is the price of the signal -/
  | zeroPrice
  /-- `DivisionByZero` of an average price -/
  | zeroQuantity
  deriving DecidableEq

/-- The error is about the signal of an exit. -/
def TrendDownError.OfSignal (error : TrendDownError) : Prop :=
  error = .noTimestamp ∨ error = .noPrice ∨ error = .zeroPrice

def trendDownExitReason : String := "Regime changed to TREND_DOWN"

/-- `_return_from` -/
def returnFrom (reference : Decimal) : Option Decimal → Except TrendDownError (Option Decimal)
  | none => .ok none
  | some value => if reference = 0 then .error .zeroPrice else .ok (some ((value - reference) / reference))

/-- `candle_by_time.get`, where a later row replaces an earlier one -/
def diagnosticCandle (candles : List DiagnosticCandle) (time : Datetime) : Option DiagnosticCandle :=
  candles.reverse.find? fun candle => decide (candle.openTime = time)

/-- The text of the regime of a candle. -/
def DiagnosticCandle.regimeText (candle : DiagnosticCandle) : String := orUnknown candle.regime

/-- The variables of the loop of `reconstruct_trend_down_exits`. -/
structure TrendDownScan where
  positionQuantity : Decimal := 0
  weightedEntryPrice : Decimal := 0
  entryCommission : Decimal := 0
  entryTime : Option Datetime := none
  firstEntryPrice : Decimal := 0
  buyCount : ℕ := 0
  records : List TrendDownDiagnostic := []

namespace TrendDownScan

/-- A buy of a loop turn. -/
def buy (scan : TrendDownScan) (row : SignalRow) : Except TrendDownError TrendDownScan :=
  if scan.positionQuantity = 0 then
    .ok { scan with
      positionQuantity := row.quantity, weightedEntryPrice := row.price, entryCommission := row.commission
      entryTime := some row.fillTime, firstEntryPrice := row.price, buyCount := 1 }
  else
    let totalQuantity := scan.positionQuantity + row.quantity
    if totalQuantity = 0 then .error .zeroQuantity
    else .ok { scan with
      weightedEntryPrice :=
        (scan.weightedEntryPrice * scan.positionQuantity + row.price * row.quantity) / totalQuantity
      positionQuantity := totalQuantity
      entryCommission := scan.entryCommission + row.commission
      buyCount := scan.buyCount + 1 }

/-- The diagnostic of an exit at a trend down. -/
def diagnose (config : CommissionConfig) (candles : List DiagnosticCandle) (barDelta : ℤ)
    (scan : TrendDownScan) (entryTime : Datetime) (row : SignalRow) :
    Except TrendDownError TrendDownDiagnostic :=
  match row.signalTimestamp, row.signalPrice with
  | none, _ => .error .noTimestamp
  | some _, none => .error .noPrice
  | some signalTime, some signalPrice => do
    let future := [1, 2, 3].map fun offset : ℤ => diagnosticCandle candles (signalTime + barDelta * offset)
    let closes := future.map (Option.map DiagnosticCandle.closePrice)
    let regimes := future.map (Option.map DiagnosticCandle.regimeText)
    let lows := (future.filterMap id).map DiagnosticCandle.lowPrice
    let highs := (future.filterMap id).map DiagnosticCandle.highPrice
    let closeReturns ← closes.mapM (returnFrom signalPrice)
    let minLowReturn ← returnFrom signalPrice lows.min?
    let maxHighReturn ← returnFrom signalPrice highs.max?
    return {
      entryTime, entryPrice := scan.firstEntryPrice, dcaCount := scan.buyCount - 1
      weightedEntryPrice := scan.weightedEntryPrice, quantity := scan.positionQuantity
      firstTrendDownTime := signalTime, firstTrendDownPrice := signalPrice
      pnlAtFirstTrendDown := (signalPrice - scan.weightedEntryPrice) * scan.positionQuantity -
        scan.entryCommission - config.calculateCommission scan.positionQuantity signalPrice
      pricesAfter := closes, regimesAfter := regimes
      minLowNext3Bars := lows.min?, maxHighNext3Bars := highs.max?
      closeReturns, minLowReturnNext3Bars := minLowReturn, maxHighReturnNext3Bars := maxHighReturn
      trendDownContinued3Bars := regimes.all fun regime => decide (regime = some "TREND_DOWN")
      falseSwitchWithin3Bars :=
        regimes.any fun regime => decide (regime ≠ none ∧ regime ≠ some "TREND_DOWN")
      actualExitTime := row.fillTime, actualExitPrice := row.price
      actualRealizedPnl := (row.price - scan.weightedEntryPrice) * scan.positionQuantity -
        scan.entryCommission - row.commission }

/-- A sell of a loop turn. -/
def sell (config : CommissionConfig) (candles : List DiagnosticCandle) (barDelta : ℤ) (scan : TrendDownScan)
    (row : SignalRow) : Except TrendDownError TrendDownScan :=
  if scan.positionQuantity ≤ 0 then .error .sellWithoutPosition
  else
    match scan.entryTime with
    | none => .error .sellWithoutPosition
    | some entryTime =>
      if |row.quantity - scan.positionQuantity| > quantityReconciliationTolerance then
        .error (.partialSell row.quantity scan.positionQuantity)
      else if row.signal.bind RowSignal.reason = some trendDownExitReason then
        (scan.diagnose config candles barDelta entryTime row).map fun record =>
          { records := scan.records ++ [record] }
      else .ok { records := scan.records }

/-- A turn of the loop of `reconstruct_trend_down_exits`. -/
def row (config : CommissionConfig) (candles : List DiagnosticCandle) (barDelta : ℤ) (scan : TrendDownScan)
    (row : SignalRow) : Except TrendDownError TrendDownScan :=
  let side := row.side.toLower
  if side = "buy" then scan.buy row
  else if side ≠ "sell" then .error (.unsupportedSide side)
  else scan.sell config candles barDelta row

end TrendDownScan

/-- `reconstruct_trend_down_exits` -/
def reconstructTrendDownExits (config : CommissionConfig) (candles : List DiagnosticCandle) (barDelta : ℤ)
    (rows : List SignalRow) : Except TrendDownError (List TrendDownDiagnostic) :=
  (rows.foldlM (TrendDownScan.row config candles barDelta) {}).map TrendDownScan.records

structure TrendDownDiagnosticsReport where
  records : List TrendDownDiagnostic
  totalExits : ℕ
  continued3Bars : ℕ
  falseSwitchesWithin3Bars : ℕ
  priceLowerAfter1Bar : ℕ
  priceLowerAfter2Bars : ℕ
  priceLowerAfter3Bars : ℕ
  averageActualPnl : Decimal
  averagePnlAtFirstTrendDown : Decimal

/-- `summarize_trend_down_diagnostics` -/
def summarizeTrendDownDiagnostics (records : List TrendDownDiagnostic) : TrendDownDiagnosticsReport :=
  let lowerAfter (bars : ℕ) := records.countP fun record =>
    (record.closeReturns[bars - 1]?).join.any fun value => decide (value < 0)
  { records, totalExits := records.length
    continued3Bars := records.countP TrendDownDiagnostic.trendDownContinued3Bars
    falseSwitchesWithin3Bars := records.countP TrendDownDiagnostic.falseSwitchWithin3Bars
    priceLowerAfter1Bar := lowerAfter 1, priceLowerAfter2Bars := lowerAfter 2
    priceLowerAfter3Bars := lowerAfter 3
    averageActualPnl := averageOf (records.map TrendDownDiagnostic.actualRealizedPnl)
    averagePnlAtFirstTrendDown := averageOf (records.map TrendDownDiagnostic.pnlAtFirstTrendDown) }

/-- What `build_trend_down_diagnostics` makes of the rows of a run. -/
def buildTrendDownDiagnostics (config : CommissionConfig) (candles : List DiagnosticCandle) (barDelta : ℤ)
    (rows : List SignalRow) : Except TrendDownError TrendDownDiagnosticsReport :=
  (reconstructTrendDownExits config candles barDelta rows).map summarizeTrendDownDiagnostics

/-! ### The trades of the attribution -/

/-- What a diagnostic tells of its trade. -/
structure ExitOutline where
  entryTime : Datetime
  exitTime : Datetime
  quantity : Decimal
  entryPrice : Decimal
  exitPrice : Decimal
  pnl : Decimal

def TrendDownDiagnostic.outline (record : TrendDownDiagnostic) : ExitOutline :=
  ⟨record.entryTime, record.actualExitTime, record.quantity, record.weightedEntryPrice,
    record.actualExitPrice, record.actualRealizedPnl⟩

def ClosedTrade.outline (trade : ClosedTrade) : ExitOutline :=
  ⟨trade.entryTime, trade.exitTime, trade.quantity, trade.entryPrice, trade.exitPrice, trade.pnl⟩

/-- The outlines of the trades that end at a trend down. -/
def trendDownOutlines (trades : List ClosedTrade) : List ExitOutline :=
  (trades.filter fun trade => decide (trade.exitReason = trendDownExitReason)).map ClosedTrade.outline

section Loop

variable {config : CommissionConfig} {candles : List DiagnosticCandle} {barDelta : ℤ}
  {scan next : TrendDownScan} {state after : Attribution} {row : SignalRow} {record : TrendDownDiagnostic}
  {entryTime : Datetime}

theorem TrendDownScan.diagnose_outline
    (h : scan.diagnose config candles barDelta entryTime row = .ok record) :
    record.outline = ⟨entryTime, row.fillTime, scan.positionQuantity, scan.weightedEntryPrice, row.price,
        (row.price - scan.weightedEntryPrice) * scan.positionQuantity - scan.entryCommission -
          row.commission⟩ ∧
      (record.trendDownContinued3Bars = true → record.falseSwitchWithin3Bars = false) := by
  unfold TrendDownScan.diagnose at h
  split at h
  · cases h
  · cases h
  · obtain ⟨returns, -, h⟩ := bind_eq_ok_iff.mp h
    obtain ⟨low, -, h⟩ := bind_eq_ok_iff.mp h
    obtain ⟨high, -, h⟩ := bind_eq_ok_iff.mp h
    cases h
    refine ⟨rfl, fun hcontinued => ?_⟩
    dsimp only at hcontinued ⊢
    rw [List.all_eq_true] at hcontinued
    refine List.any_eq_false.mpr fun regime hregime => ?_
    have hdown := of_decide_eq_true (hcontinued regime hregime)
    simp [hdown]

theorem returnFrom_ofSignal {reference : Decimal} {value : Option Decimal} {error : TrendDownError}
    (h : returnFrom reference value = .error error) : error.OfSignal := by
  unfold returnFrom at h
  split at h
  · cases h
  · split at h
    · cases h
      exact .inr (.inr rfl)
    · cases h

theorem TrendDownScan.diagnose_ofSignal {error : TrendDownError}
    (h : scan.diagnose config candles barDelta entryTime row = .error error) : error.OfSignal := by
  unfold TrendDownScan.diagnose at h
  split at h
  · cases h
    exact .inl rfl
  · cases h
    exact .inr (.inl rfl)
  · rcases bind_eq_error_iff.mp h with hreturns | ⟨_, -, h⟩
    · obtain ⟨_, -, hraises⟩ := mapM_eq_error hreturns
      exact returnFrom_ofSignal hraises
    rcases bind_eq_error_iff.mp h with hlow | ⟨_, -, h⟩
    · exact returnFrom_ofSignal hlow
    rcases bind_eq_error_iff.mp h with hhigh | ⟨_, -, h⟩
    · exact returnFrom_ofSignal hhigh
    · cases h

/-- The loop holds the position of the attribution, and has the diagnostics of its trades so far. -/
structure TrendDownScan.Follows (scan : TrendDownScan) (state : Attribution) : Prop where
  flat : state.position = none → scan.positionQuantity = 0
  held : ∀ position, state.position = some position → 0 < position.quantity ∧
    scan.positionQuantity = position.quantity ∧ scan.weightedEntryPrice = position.entryPrice ∧
    scan.entryCommission = position.entryCommission ∧ scan.entryTime = some position.entryTime
  outlines : scan.records.map TrendDownDiagnostic.outline = trendDownOutlines state.trades
  switches : ∀ record ∈ scan.records,
    record.trendDownContinued3Bars = true → record.falseSwitchWithin3Bars = false

theorem trendDownOutlines_append (trades : List ClosedTrade) (trade : ClosedTrade) :
    trendDownOutlines (trades ++ [trade]) = trendDownOutlines trades ++
      if trade.exitReason = trendDownExitReason then [trade.outline] else [] := by
  unfold trendDownOutlines
  rw [List.filter_append, List.map_append]
  by_cases hreason : trade.exitReason = trendDownExitReason <;> simp [hreason]

theorem TrendDownScan.Follows.buy (h : scan.Follows state) (hpositive : 0 < row.quantity)
    (hside : row.side.toLower = "buy") (hrow : state.row row.toAuditRow = .ok after) :
    ∃ next, scan.buy row = .ok next ∧ next.Follows after := by
  unfold Attribution.row at hrow
  dsimp only at hrow
  rw [if_pos hside] at hrow
  unfold TrendDownScan.buy
  cases hposition : state.position with
  | none =>
    rw [hposition] at hrow
    cases hrow
    rw [if_pos (h.flat hposition)]
    refine ⟨_, rfl, fun hnone => (by cases hnone), ?_, h.outlines, h.switches⟩
    rintro position ⟨⟩
    exact ⟨hpositive, rfl, rfl, rfl, rfl⟩
  | some position =>
    obtain ⟨hheld, hquantity, hprice, hcommission, htime⟩ := h.held position hposition
    have htotal : 0 < position.quantity + row.quantity := add_pos hheld hpositive
    rw [hposition] at hrow
    dsimp only at hrow
    rw [if_neg htotal.not_ge] at hrow
    cases hrow
    rw [hquantity, if_neg hheld.ne']
    dsimp only
    rw [if_neg htotal.ne']
    refine ⟨_, rfl, fun hnone => (by cases hnone), ?_, h.outlines, h.switches⟩
    rintro other ⟨⟩
    refine ⟨htotal, rfl, ?_, ?_, htime⟩
    · simp only [hprice]
      rfl
    · simp only [hcommission]
      rfl

theorem orUnknown_eq_trendDown {text : Option String} :
    orUnknown text = trendDownExitReason ↔ text = some trendDownExitReason := by
  cases text with
  | none => exact iff_of_false (by decide) (by simp)
  | some text =>
    unfold orUnknown
    dsimp only
    split
    · rename_i hempty
      subst hempty
      exact iff_of_false (by decide) (by decide)
    · simp

theorem TrendDownScan.Follows.sell (h : scan.Follows state) (hbuy : row.side.toLower ≠ "buy")
    (hrow : state.row row.toAuditRow = .ok after) :
    match scan.sell config candles barDelta row with
    | .ok next => next.Follows after
    | .error error => error.OfSignal := by
  unfold Attribution.row at hrow
  dsimp only at hrow
  rw [if_neg hbuy] at hrow
  split at hrow
  · cases hrow
  cases hposition : state.position with
  | none =>
    rw [hposition] at hrow
    cases hrow
  | some position =>
    obtain ⟨hheld, hquantity, hprice, hcommission, htime⟩ := h.held position hposition
    rw [hposition] at hrow
    dsimp only at hrow
    split at hrow
    · cases hrow
    rename_i hwhole
    cases hrow
    unfold TrendDownScan.sell
    rw [hquantity, if_neg hheld.not_ge, htime]
    dsimp only
    rw [if_neg hwhole]
    have hreason : (row.toAuditRow.close position).exitReason = trendDownExitReason ↔
        row.signal.bind RowSignal.reason = some trendDownExitReason := orUnknown_eq_trendDown
    by_cases hdown : row.signal.bind RowSignal.reason = some trendDownExitReason
    · rw [if_pos hdown]
      cases hdiagnosed : scan.diagnose config candles barDelta position.entryTime row with
      | error error => exact TrendDownScan.diagnose_ofSignal hdiagnosed
      | ok record =>
        obtain ⟨houtline, hswitch⟩ := TrendDownScan.diagnose_outline hdiagnosed
        refine ⟨fun _ => rfl, fun other hnone => (by cases hnone), ?_, ?_⟩
        · change (scan.records ++ [record]).map _ = _
          rw [List.map_append, h.outlines, trendDownOutlines_append, if_pos (hreason.mpr hdown),
            List.map_singleton, houtline, hquantity, hprice, hcommission]
          rfl
        · intro other hother
          rcases List.mem_append.mp hother with hold | hnew
          · exact h.switches other hold
          · cases List.mem_singleton.mp hnew
            exact hswitch
    · rw [if_neg hdown]
      refine ⟨fun _ => rfl, fun other hnone => (by cases hnone), ?_, h.switches⟩
      rw [trendDownOutlines_append, if_neg fun hsame => hdown (hreason.mp hsame), List.append_nil]
      exact h.outlines

theorem TrendDownScan.Follows.turn (h : scan.Follows state)
    (hpositive : row.side.toLower = "buy" → 0 < row.quantity)
    (hrow : state.row row.toAuditRow = .ok after) :
    match scan.row config candles barDelta row with
    | .ok next => next.Follows after
    | .error error => error.OfSignal := by
  unfold TrendDownScan.row
  dsimp only
  by_cases hbuy : row.side.toLower = "buy"
  · rw [if_pos hbuy]
    obtain ⟨next, hnext, hfollows⟩ := h.buy (hpositive hbuy) hbuy hrow
    rw [hnext]
    exact hfollows
  · rw [if_neg hbuy]
    by_cases hsell : row.side.toLower ≠ "sell"
    · unfold Attribution.row at hrow
      dsimp only at hrow
      rw [if_neg hbuy, if_pos hsell] at hrow
      cases hrow
    · rw [if_neg hsell]
      exact h.sell hbuy hrow

theorem TrendDownScan.Follows.turns {rows : List SignalRow} (h : scan.Follows state)
    (hpositive : ∀ row ∈ rows, row.side.toLower = "buy" → 0 < row.quantity)
    (hrows : (rows.map SignalRow.toAuditRow).foldlM Attribution.row state = .ok after) :
    match rows.foldlM (TrendDownScan.row config candles barDelta) scan with
    | .ok next => next.Follows after
    | .error error => error.OfSignal := by
  induction rows generalizing scan state with
  | nil =>
    cases hrows
    exact h
  | cons row rest ih =>
    rw [List.map_cons, List.foldlM_cons] at hrows
    obtain ⟨middle, hfirst, hrest⟩ := bind_eq_ok_iff.mp hrows
    have hstep := @TrendDownScan.Follows.turn config candles barDelta _ _ _ _ h
      (hpositive row List.mem_cons_self) hfirst
    rw [List.foldlM_cons]
    cases hturn : scan.row config candles barDelta row with
    | error error =>
      rw [hturn] at hstep
      exact hstep
    | ok next =>
      rw [hturn] at hstep
      exact ih hstep (fun other hother => hpositive other (List.mem_cons_of_mem _ hother)) hrest

end Loop

theorem reconstructTrendDownExits_follows (config : CommissionConfig) (candles : List DiagnosticCandle)
    (barDelta : ℤ) {rows : List SignalRow} {trades : List ClosedTrade}
    (hpositive : ∀ row ∈ rows, row.side.toLower = "buy" → 0 < row.quantity)
    (h : reconstructClosedTrades (rows.map SignalRow.toAuditRow) = .ok trades) :
    match reconstructTrendDownExits config candles barDelta rows with
    | .ok records => records.map TrendDownDiagnostic.outline = trendDownOutlines trades ∧
        ∀ record ∈ records,
          record.trendDownContinued3Bars = true → record.falseSwitchWithin3Bars = false
    | .error error => error.OfSignal := by
  obtain ⟨state, hstate, h⟩ := bind_eq_ok_iff.mp h
  have htrades : state.trades = trades := by
    split at h
    · cases h
    · cases h
      rfl
  have hstart : ({} : TrendDownScan).Follows {} :=
    ⟨fun _ => rfl, fun _ hnone => (by cases hnone), rfl, fun _ hnone => absurd hnone List.not_mem_nil⟩
  have hrun := @TrendDownScan.Follows.turns config candles barDelta _ _ _ _ hstart hpositive hstate
  unfold reconstructTrendDownExits
  cases hscan : rows.foldlM (TrendDownScan.row config candles barDelta) {} with
  | error error =>
    rw [hscan] at hrun
    exact hrun
  | ok scan =>
    rw [hscan] at hrun
    subst htrades
    exact ⟨hrun.outlines, hrun.switches⟩

theorem averageOf_mul_length (values : List Decimal) : averageOf values * values.length = values.sum := by
  cases values with
  | nil => simp [averageOf]
  | cons first rest =>
    have hlength : ((first :: rest).length : Decimal) ≠ 0 := Nat.cast_ne_zero.mpr (by simp)
    exact div_mul_cancel₀ _ hlength

/-- Exits of which none is both continued and a false switch are no fewer than both together. -/
theorem countP_add_countP_le {records : List TrendDownDiagnostic}
    (h : ∀ record ∈ records,
      record.trendDownContinued3Bars = true → record.falseSwitchWithin3Bars = false) :
    records.countP TrendDownDiagnostic.trendDownContinued3Bars +
      records.countP TrendDownDiagnostic.falseSwitchWithin3Bars ≤ records.length := by
  induction records with
  | nil => exact le_rfl
  | cons record rest ih =>
    have hfirst := h record List.mem_cons_self
    have hrest := ih fun other hother => h other (List.mem_cons_of_mem _ hother)
    rw [List.countP_cons, List.countP_cons, List.length_cons]
    cases hcontinued : record.trendDownContinued3Bars with
    | false => cases record.falseSwitchWithin3Bars <;> simp <;> omega
    | true => rw [hfirst hcontinued]; simp; omega

/-- Where the attribution finds the trades of a run, the report is about those that end at a trend down, with
their results, and no exit counts as both continued and a false switch.  Nothing but the signal of such an
exit can make it raise. -/
theorem trend_down_exits (config : CommissionConfig) (candles : List DiagnosticCandle) (barDelta : ℤ)
    (rows : List SignalRow) (trades : List ClosedTrade)
    (hpositive : ∀ row ∈ rows, row.side.toLower = "buy" → 0 < row.quantity)
    (h : reconstructClosedTrades (rows.map SignalRow.toAuditRow) = .ok trades) :
    match buildTrendDownDiagnostics config candles barDelta rows with
    | .ok report => report.records.map TrendDownDiagnostic.outline = trendDownOutlines trades ∧
        report.totalExits = (trendDownOutlines trades).length ∧
        report.continued3Bars + report.falseSwitchesWithin3Bars ≤ report.totalExits ∧
        report.averageActualPnl * report.totalExits = ((trendDownOutlines trades).map ExitOutline.pnl).sum
    | .error error => error.OfSignal := by
  have hfollows := reconstructTrendDownExits_follows config candles barDelta hpositive h
  unfold buildTrendDownDiagnostics
  cases hrecords : reconstructTrendDownExits config candles barDelta rows with
  | error error =>
    rw [hrecords] at hfollows
    exact hfollows
  | ok records =>
    rw [hrecords] at hfollows
    obtain ⟨houtlines, hswitches⟩ := hfollows
    refine ⟨houtlines, ?_, countP_add_countP_le hswitches, ?_⟩
    · rw [← houtlines, List.length_map]
      rfl
    · rw [← houtlines, List.map_map]
      change averageOf (records.map TrendDownDiagnostic.actualRealizedPnl) * (records.length : Decimal) = _
      rw [← List.length_map TrendDownDiagnostic.actualRealizedPnl, averageOf_mul_length]
      rfl

def boughtRow : SignalRow where
  symbol := "BTCUSDT"
  side := "buy"
  quantity := 2
  price := 100
  commission := 0
  fillTime := 0
  signal := none
  signalTimestamp := none
  signalPrice := none

/-- A sale at 90, of which the signal came at 95. -/
def downRow : SignalRow where
  symbol := "BTCUSDT"
  side := "sell"
  quantity := 2
  price := 90
  commission := 0
  fillTime := 3 * hour
  signal := some ⟨none, some trendDownExitReason⟩
  signalTimestamp := some (2 * hour)
  signalPrice := some 95

theorem downRow_diagnosed : ∃ trades report,
    reconstructClosedTrades [boughtRow.toAuditRow, downRow.toAuditRow] = .ok trades ∧
      buildTrendDownDiagnostics {} [] hour [boughtRow, downRow] = .ok report ∧
      report.records.map TrendDownDiagnostic.outline = trendDownOutlines trades ∧
      report.averageActualPnl = -20 := by
  have hattributed : (reconstructClosedTrades [boughtRow.toAuditRow, downRow.toAuditRow]).toOption.isSome =
      true := by
    decide +kernel
  have hdiagnosed : (buildTrendDownDiagnostics {} [] hour [boughtRow, downRow]).toOption.any
      (fun report => decide (report.averageActualPnl = -20)) = true := by
    decide +kernel
  obtain ⟨trades, htrades⟩ := Option.isSome_iff_exists.mp hattributed
  obtain ⟨report, hreport, haverage⟩ := (Option.any_eq_true _ _).mp hdiagnosed
  have hbuys : ∀ row ∈ [boughtRow, downRow], row.side.toLower = "buy" → 0 < row.quantity := by
    intro row hrow _
    rcases List.mem_cons.mp hrow with rfl | hrow
    · decide +kernel
    · cases List.mem_singleton.mp hrow
      decide +kernel
  have hexits := trend_down_exits {} [] hour [boughtRow, downRow] trades hbuys (toOption_eq_some_iff.mp htrades)
  rw [toOption_eq_some_iff.mp hreport] at hexits
  exact ⟨trades, report, toOption_eq_some_iff.mp htrades, toOption_eq_some_iff.mp hreport, hexits.1,
    of_decide_eq_true haverage⟩

end CryptoTrading
