import CryptoTrading.Kit.Fallible
import CryptoTrading.Reporting.MartReturns
import Mathlib.Tactic.NormNum
import Mathlib.Tactic.Ring

/-! The marts' rows over a whole history: the days add up to the change from the initial capital to the last
record, the months to their days, and each month starts from the equity that the month before closed with. -/

namespace CryptoTrading

open Kit Kit.Calendar Kit.StableSort

theorem yearMonth_mono {a b : ℤ} (h : a ≤ b) : yearMonth a ≤ yearMonth b := by
  have hindex := monthIndex_mono h
  have ha := civilDate_month_mem a
  have hb := civilDate_month_mem b
  simp only [CivilDate.monthIndex] at hindex
  rw [yearMonth, yearMonth, Prod.Lex.toLex_le_toLex]
  omega

namespace MartETL

section Days

variable (inputs : DailyInputs) (previous : Baseline) (finals : List PnLRecord)

/-- A measure that each row takes as the change of a total adds up to the change over the days. -/
theorem sum_dailyRowsFrom {measure : DailyRow → Decimal} {total : PnLRecord → Decimal}
    {carried : Baseline → Decimal}
    (hrow : ∀ previous final, measure (dailyRow inputs previous final) = total final - carried previous)
    (hcarried : ∀ final, carried (Baseline.of final) = total final) :
    ((dailyRowsFrom inputs previous finals).map measure).sum =
      finals.getLast?.elim (carried previous) total - carried previous := by
  induction finals generalizing previous with
  | nil => simp [dailyRowsFrom]
  | cons final finals ih =>
    have hlast : (final :: finals).getLast?.elim (carried previous) total =
        finals.getLast?.elim (total final) total := by
      rw [List.getLast?_cons]
      cases finals.getLast? <;> rfl
    rw [dailyRowsFrom, List.map_cons, List.sum_cons, ih, hrow, hcarried, hlast]
    ring

theorem map_reportDate :
    (dailyRowsFrom inputs previous finals).map DailyRow.reportDate = finals.map recordDate := by
  induction finals generalizing previous with
  | nil => rfl
  | cons final finals ih => simp [dailyRowsFrom, dailyRow, ih]

/-- Each row starts from the capital that the one before ended with. -/
def Chained : Decimal → List DailyRow → Prop
  | _, [] => True
  | previous, row :: rows => row.totalCapital - row.dailyPnl = previous ∧ Chained row.totalCapital rows

theorem chained_dailyRowsFrom : Chained previous.previousEquity (dailyRowsFrom inputs previous finals) := by
  induction finals generalizing previous with
  | nil => trivial
  | cons final finals ih => exact ⟨sub_sub_cancel .., ih (Baseline.of final)⟩

end Days

/-- The capital after the rows. -/
def closing (initial : Decimal) (rows : List DailyRow) : Decimal :=
  rows.getLast?.elim initial DailyRow.totalCapital

theorem Chained.of_append {previous : Decimal} {rows others : List DailyRow}
    (h : Chained previous (rows ++ others)) : Chained (closing previous rows) others := by
  induction rows generalizing previous with
  | nil => exact h
  | cons row rows ih =>
    have hclosing : closing previous (row :: rows) = closing row.totalCapital rows := by
      rw [closing, closing, List.getLast?_cons]
      cases rows.getLast? <;> rfl
    exact hclosing ▸ ih h.2

theorem Chained.startingEquity {previous : Decimal} {days others : List DailyRow}
    (h : Chained previous (days ++ others)) (hdays : days ≠ []) : startingEquity days = previous := by
  obtain ⟨first, days, rfl⟩ := List.exists_cons_of_ne_nil hdays
  exact h.1

/-- The capital at the end of a month. -/
def closingEquity (daily : List DailyRow) (month : YearMonth) : Decimal :=
  closing 0 (withKey rowMonth month daily)

/-- A month's starting equity is the closing one of the month before, or the capital before the days. -/
theorem startingEquity_eq {initial : Decimal} {daily : List DailyRow} (hchained : Chained initial daily)
    (hsorted : Sorted rowMonth daily) {before after : List YearMonth} {month : YearMonth}
    (hkeys : keys rowMonth daily = before ++ month :: after) :
    startingEquity (withKey rowMonth month daily) =
      before.getLast?.elim initial (closingEquity daily) := by
  have hgroups : ∀ m ∈ keys rowMonth daily, withKey rowMonth m daily ≠ [] := fun _ => withKey_ne_nil
  rw [hkeys] at hgroups
  have hsplit := flatMap_keys rowMonth daily
  rw [sortOn_eq_self hsorted, hkeys, List.flatMap_append, List.flatMap_cons] at hsplit
  rw [← hsplit] at hchained
  rw [hchained.of_append.startingEquity (hgroups month (by simp)), closing,
    getLast?_flatMap_withKey fun m hm => hgroups m (by simp [hm])]
  cases hlast : before.getLast? with
  | none => rfl
  | some last =>
    have hne := hgroups last (List.mem_append_left _ (List.mem_of_getLast? hlast))
    simp [closingEquity, closing, List.getLast?_eq_some_getLast hne]

/-! ### What a load writes -/

variable {etl : MartETL} {rows : MartRows}

theorem load_eq_ok (hload : etl.load = .ok rows) :
    (∃ inputs, rows.daily = dailyRowsFrom inputs { previousEquity := etl.tracker.initialCapital }
      (lasts recordDate etl.records)) ∧ rows.monthly = monthlyRows etl.exchangeName rows.daily := by
  obtain ⟨daily, hdaily, hrows⟩ := bind_eq_ok_iff.mp hload
  obtain ⟨ledger, -, hledger⟩ := bind_eq_ok_iff.mp hdaily
  cases hrows
  cases hledger
  exact ⟨⟨_, rfl⟩, rfl⟩

/-- A load returns unless the trades that it reads have no realized pnl. -/
theorem load_returns_iff : (∃ rows, etl.load = .ok rows) ↔ ∃ ledger, realizedTradePnl
    ((sortOn (fun trade : CollectedTrade => trade.timestamp) etl.tradeEvents).map
      CollectedTrade.toTradeEvent) = .ok ledger := by
  constructor
  · rintro ⟨rows, hload⟩
    obtain ⟨daily, hdaily, -⟩ := bind_eq_ok_iff.mp hload
    obtain ⟨ledger, hledger, -⟩ := bind_eq_ok_iff.mp hdaily
    exact ⟨ledger, hledger⟩
  · rintro ⟨ledger, hledger⟩
    rw [load, dailyRows, hledger]
    exact ⟨_, rfl⟩

/-- The trade statistics of the days add up to those of the trades. -/
theorem sum_tradeStatRows (etl : MartETL) (trades : List CollectedTrade) :
    ((etl.tradeStatRows trades).map TradeStatRow.totalTrades).sum = trades.length ∧
      ((etl.tradeStatRows trades).map TradeStatRow.totalVolume).sum =
        (trades.map fun trade => trade.quantity * trade.price).sum ∧
      ((etl.tradeStatRows trades).map TradeStatRow.totalCommission).sum =
        (trades.map CollectedTrade.fee).sum ∧
      ((etl.tradeStatRows trades).map TradeStatRow.totalSlippage).sum =
        (trades.map CollectedTrade.slippage).sum := by
  simp only [tradeStatRows, List.map_map]
  refine ⟨?_, sum_keys tradeDate (fun trade => trade.quantity * trade.price) trades,
    sum_keys tradeDate CollectedTrade.fee trades, sum_keys tradeDate CollectedTrade.slippage trades⟩
  have hcount := sum_keys tradeDate (fun _ => 1) trades
  simp only [List.map_const', List.sum_replicate_nat, Nat.mul_one] at hcount
  exact hcount

theorem getLast?_records (etl : MartETL) :
    (lasts recordDate etl.records).getLast? = etl.records.getLast? := by
  have hsorted : Sorted recordDate etl.records :=
    (sorted_sortOn PnLRecord.timestamp etl.tracker.pnlRecords).imp fun hle =>
      Int.ediv_le_ediv (by decide) hle
  rw [getLast?_lasts, sortOn_eq_self hsorted]

theorem reportDate_lt (hload : etl.load = .ok rows) :
    (rows.daily.map DailyRow.reportDate).Pairwise (· < ·) := by
  obtain ⟨⟨inputs, hdaily⟩, -⟩ := load_eq_ok hload
  rw [hdaily, map_reportDate, map_lasts]
  exact keys_lt ..

theorem sorted_rowMonth (hload : etl.load = .ok rows) : Sorted rowMonth rows.daily :=
  (List.pairwise_map.mp (reportDate_lt hload)).imp fun hlt => yearMonth_mono hlt.le

/-- A measure of the rows that is the change of a total of the records adds up to the change of it from
the start to the last record. -/
theorem sum_daily (hload : etl.load = .ok rows) (measure : DailyRow → Decimal)
    (total : PnLRecord → Decimal) (carried : Baseline → Decimal)
    (hrow : ∀ inputs previous final,
      measure (dailyRow inputs previous final) = total final - carried previous)
    (hcarried : ∀ final, carried (Baseline.of final) = total final) :
    (rows.daily.map measure).sum =
      etl.records.getLast?.elim (carried { previousEquity := etl.tracker.initialCapital }) total -
        carried { previousEquity := etl.tracker.initialCapital } := by
  obtain ⟨⟨inputs, hdaily⟩, -⟩ := load_eq_ok hload
  rw [hdaily, sum_dailyRowsFrom inputs _ _ (hrow inputs) hcarried, getLast?_records]

theorem sum_monthlyRows (exchangeName : String) (daily : List DailyRow) :
    ((monthlyRows exchangeName daily).map MonthlyRow.totalPnl).sum =
      (daily.map DailyRow.dailyPnl).sum := by
  rw [monthlyRows, List.map_map]
  exact sum_keys rowMonth DailyRow.dailyPnl daily

/-- The row of a month starts from the equity that the reported month before closed with. -/
theorem totalPnlPct_eq (hload : etl.load = .ok rows) {before after : List MonthlyRow} {month : MonthlyRow}
    (hmonths : rows.monthly = before ++ month :: after) :
    month.totalPnlPct = pct month.totalPnl (before.getLast?.elim etl.tracker.initialCapital
      fun previous => closingEquity rows.daily previous.yearMonth) := by
  obtain ⟨⟨inputs, hdaily⟩, hmonthly⟩ := load_eq_ok hload
  have hchained : Chained etl.tracker.initialCapital rows.daily :=
    hdaily ▸ chained_dailyRowsFrom inputs { previousEquity := etl.tracker.initialCapital } _
  rw [hmonthly, monthlyRows, List.map_eq_append_iff] at hmonths
  obtain ⟨earlier, rest, hkeys, rfl, hrest⟩ := hmonths
  obtain ⟨key, later, rfl, rfl, -⟩ := List.map_eq_cons_iff.mp hrest
  have hstart := startingEquity_eq hchained (sorted_rowMonth hload) hkeys
  rw [monthlyRow, hstart, List.getLast?_map]
  cases earlier.getLast? <;> rfl

theorem totalPnl_eq (hload : etl.load = .ok rows) {month : MonthlyRow} (hmonth : month ∈ rows.monthly) :
    month.totalPnl = ((withKey rowMonth month.yearMonth rows.daily).map DailyRow.dailyPnl).sum := by
  rw [(load_eq_ok hload).2] at hmonth
  obtain ⟨key, -, rfl⟩ := List.mem_map.mp hmonth
  rfl

theorem yearMonth_lt (hload : etl.load = .ok rows) :
    (rows.monthly.map MonthlyRow.yearMonth).Pairwise (· < ·) := by
  rw [(load_eq_ok hload).2, monthlyRows, List.map_map, List.pairwise_map]
  exact keys_lt rowMonth rows.daily

end MartETL

/-- The marts' rows telescope: the days add up to what the records changed by, each month to its days and
the months to the same change; the months are in order, and each one's percentage is of the equity that the
reported month before closed with, or of the initial capital. -/
theorem mart_rows_telescope (etl : MartETL) (rows : MartRows) (hload : etl.load = .ok rows) :
    let initial := etl.tracker.initialCapital
    let change := etl.records.getLast?.elim initial PnLRecord.equity - initial
    (rows.daily.map DailyRow.dailyPnl).sum = change ∧
      (rows.daily.map DailyRow.realizedPnl).sum = etl.records.getLast?.elim 0 PnLRecord.realizedPnl ∧
      (rows.daily.map DailyRow.totalCommission).sum = etl.records.getLast?.elim 0 PnLRecord.feesPaid ∧
      (∀ month ∈ rows.monthly, month.totalPnl =
        ((withKey MartETL.rowMonth month.yearMonth rows.daily).map DailyRow.dailyPnl).sum) ∧
      (rows.monthly.map MonthlyRow.totalPnl).sum = change ∧
      (rows.monthly.map MonthlyRow.yearMonth).Pairwise (· < ·) ∧
      ∀ before month after, rows.monthly = before ++ month :: after →
        month.totalPnlPct = MartETL.pct month.totalPnl (before.getLast?.elim initial fun previous =>
          MartETL.closingEquity rows.daily previous.yearMonth) := by
  have hpnl := MartETL.sum_daily hload DailyRow.dailyPnl PnLRecord.equity
    MartETL.Baseline.previousEquity (fun _ _ _ => rfl) fun _ => rfl
  refine ⟨hpnl, ?_, ?_, fun _ => MartETL.totalPnl_eq hload, ?_, MartETL.yearMonth_lt hload,
    fun _ _ _ => MartETL.totalPnlPct_eq hload⟩
  · have h := MartETL.sum_daily hload DailyRow.realizedPnl PnLRecord.realizedPnl
      MartETL.Baseline.previousRealized (fun _ _ _ => rfl) fun _ => rfl
    simpa using h
  · have h := MartETL.sum_daily hload DailyRow.totalCommission PnLRecord.feesPaid
      MartETL.Baseline.previousFees (fun _ _ _ => rfl) fun _ => rfl
    simpa using h
  · rw [(MartETL.load_eq_ok hload).2, MartETL.sum_monthlyRows]
    exact hpnl

/-- Two snapshots on the 30th of January 1970, one on the first of February and one on the tenth. -/
def winterHistory : MartETL where
  tracker :=
    { initialCapital := 1000
      peakEquity := 1100
      pnlRecords :=
        [{ timestamp := 29 * day, equity := 990, feesPaid := 1 },
          { timestamp := 29 * day + hour, equity := 1010, realizedPnl := 10, feesPaid := 2 },
          { timestamp := 31 * day, equity := 1100, realizedPnl := 90, feesPaid := 3 },
          { timestamp := 40 * day, equity := 1050, realizedPnl := 50, feesPaid := 7 }] }
  tradeEvents := []
  exchangeName := "bybit"
  openPositions := 0
  named := by decide

theorem winterHistory_telescopes : ∃ rows, winterHistory.load = .ok rows ∧
    (rows.daily.map DailyRow.dailyPnl).sum = 50 ∧ (rows.monthly.map MonthlyRow.totalPnl).sum = 50 := by
  have hledger : MartETL.realizedTradePnl ((sortOn (fun trade : CollectedTrade => trade.timestamp)
      winterHistory.tradeEvents).map CollectedTrade.toTradeEvent) = .ok {} := by
    rw [show winterHistory.tradeEvents = [] from rfl, sortOn_eq_self List.Pairwise.nil]
    rfl
  obtain ⟨rows, hload⟩ := MartETL.load_returns_iff.mpr ⟨{}, hledger⟩
  have hsorted : winterHistory.records = winterHistory.tracker.pnlRecords :=
    sortOn_eq_self (by unfold Sorted; decide)
  obtain ⟨hdaily, -, -, -, hmonthly, -⟩ := mart_rows_telescope winterHistory rows hload
  rw [hsorted] at hdaily hmonthly
  refine ⟨rows, hload, hdaily.trans ?_, hmonthly.trans ?_⟩ <;> norm_num [winterHistory]

end CryptoTrading
