import CryptoTrading.Kit.Calendar
import CryptoTrading.Kit.PaddedDigits
import CryptoTrading.Kit.StableSort
import CryptoTrading.Reporting.PaperLedgers
import CryptoTrading.Runtime.LossLimits
import CryptoTrading.Runtime.PaperApplication
import Mathlib.Data.Prod.Lex

/-! The reporting marts' rows of the days and the months.  Each day's row is the change of the last record of
the day over that of the day before, so that the rows of a month, and those of all months, add up to the
change over them. -/

namespace CryptoTrading

open Kit Kit.Calendar Kit.PaddedDigits Kit.StableSort

/-- A trade event with what the trade statistics read of it. -/
structure CollectedTrade extends TradeEvent where
  fee : Decimal := 0
  slippage : Decimal := 0
  deriving DecidableEq

/-- The key `%Y-%m` of a month, as its year and month. -/
abbrev YearMonth := ℤ ×ₗ ℤ

/-- `report_date.strftime("%Y-%m")`, of a date counted from the epoch. -/
def yearMonth (date : ℤ) : YearMonth := toLex ((civilDate date).year, (civilDate date).month)

/-- The text of a month of a year of at most four digits. -/
def monthText (month : YearMonth) : List Char :=
  padded 4 (ofLex month).1 ++ '-' :: padded 2 (ofLex month).2

/-- The texts of the months are in the order of the months. -/
theorem monthText_lt_iff {a b : ℤ} (ha : 0 ≤ (civilDate a).year ∧ (civilDate a).year < 10 ^ 4)
    (hb : 0 ≤ (civilDate b).year ∧ (civilDate b).year < 10 ^ 4) :
    monthText (yearMonth a) < monthText (yearMonth b) ↔ yearMonth a < yearMonth b := by
  have hmonth := civilDate_month_mem a
  have hmonth' := civilDate_month_mem b
  have hnumber : padded 2 (civilDate a).month < padded 2 (civilDate b).month ↔
      (civilDate a).month < (civilDate b).month :=
    padded_lt_padded_iff (by omega) (by omega)
  have hdash : '-' :: padded 2 (civilDate a).month < '-' :: padded 2 (civilDate b).month ↔
      padded 2 (civilDate a).month < padded 2 (civilDate b).month := by
    rw [List.cons_lt_cons_iff]
    simp
  simp only [monthText, yearMonth, ofLex_toLex, Prod.Lex.toLex_lt_toLex]
  rw [append_lt_append_iff (by simp), padded_lt_padded_iff ha hb, padded_inj ha hb, hdash, hnumber]

/-- A row of `mart.daily_performance`. -/
structure DailyRow where
  reportDate : ℤ
  exchangeName : String
  totalCapital : Decimal
  dailyPnl : Decimal
  dailyPnlPct : Decimal
  realizedPnl : Decimal
  unrealizedPnl : Decimal
  totalCommission : Decimal
  tradesCount : ℕ
  winningTrades : ℕ
  losingTrades : ℕ
  maxDrawdown : Decimal
  currentDrawdown : Decimal
  openPositions : ℕ
  capitalUtilization : Decimal
  deriving DecidableEq

/-- A row of `mart.trade_statistics`. -/
structure TradeStatRow where
  reportDate : ℤ
  exchangeName : String
  totalTrades : ℕ
  totalVolume : Decimal
  avgTradeSize : Decimal
  totalCommission : Decimal
  totalSlippage : Decimal
  deriving DecidableEq

/-- A row of `mart.drawdown_history`. -/
structure DrawdownRow where
  timestamp : Datetime
  equity : Decimal
  peakEquity : Decimal
  drawdown : Decimal
  drawdownPct : Decimal
  deriving DecidableEq

/-- A row of `mart.monthly_returns`. -/
structure MonthlyRow where
  yearMonth : YearMonth
  exchangeName : String
  totalPnl : Decimal
  totalPnlPct : Decimal
  tradesCount : ℕ
  winRate : Decimal
  maxDrawdown : Decimal
  deriving DecidableEq

/-- The rows of a load, in the order of their upserts. -/
structure MartRows where
  daily : List DailyRow
  tradeStats : List TradeStatRow
  drawdowns : List DrawdownRow
  monthly : List MonthlyRow

/-- `MartETL`, with the trade events of its collector and the open positions that the database counts. -/
structure MartETL where
  tracker : PaperPnLTracker
  tradeEvents : List CollectedTrade
  exchangeName : String
  openPositions : ℕ
  named : StartupPreflight.nonblank exchangeName = true

namespace MartETL

/-- `_pct` -/
def pct (value denominator : Decimal) : Decimal :=
  if denominator = 0 then 0 else value / denominator * 100

/-- The variables that `_daily_rows` carries from a day to the next. -/
structure Baseline where
  previousEquity : Decimal
  previousRealized : Decimal := 0
  previousFees : Decimal := 0

def Baseline.of (final : PnLRecord) : Baseline :=
  ⟨final.equity, final.realizedPnl, final.feesPaid⟩

def recordDate (record : PnLRecord) : ℤ := utcDay record.timestamp

def tradeDate (trade : CollectedTrade) : ℤ := utcDay trade.timestamp

/-- What `_daily_rows` reads besides the records. -/
structure DailyInputs where
  exchangeName : String
  curve : List EquityPoint
  trades : List CollectedTrade
  realized : List (Datetime × Decimal)
  openPositions : ℕ
  lastDate : Option ℤ

/-- The row of a day, from its last record. -/
def dailyRow (inputs : DailyInputs) (previous : Baseline) (final : PnLRecord) : DailyRow :=
  let reportDate := recordDate final
  let dayCurve := withKey (fun point => utcDay point.timestamp) reportDate inputs.curve
  let dayTrades := withKey tradeDate reportDate inputs.trades
  let dayRealized := (withKey (fun entry => utcDay entry.1) reportDate inputs.realized).map Prod.snd
  let pnl := final.equity - previous.previousEquity
  { reportDate
    exchangeName := inputs.exchangeName
    totalCapital := final.equity
    dailyPnl := pnl
    dailyPnlPct := pct pnl previous.previousEquity
    realizedPnl := final.realizedPnl - previous.previousRealized
    unrealizedPnl := final.unrealizedPnl
    totalCommission := final.feesPaid - previous.previousFees
    tradesCount := dayTrades.length
    winningTrades := dayRealized.countP (0 < ·)
    losingTrades := dayRealized.countP (· < 0)
    maxDrawdown := (dayCurve.map EquityPoint.drawdownPct).max?.getD 0
    currentDrawdown := dayCurve.getLast?.elim 0 EquityPoint.drawdownPct
    openPositions := if inputs.lastDate = some reportDate then inputs.openPositions else 0
    capitalUtilization := pct final.positionValue final.equity }

/-- The loop of `_daily_rows`, over the last records of the days. -/
def dailyRowsFrom (inputs : DailyInputs) : Baseline → List PnLRecord → List DailyRow
  | _, [] => []
  | previous, final :: finals =>
    dailyRow inputs previous final :: dailyRowsFrom inputs (Baseline.of final) finals

/-- `_daily_rows`, of the sorted records, curve and trades. -/
def dailyRows (etl : MartETL) (records : List PnLRecord) (curve : List EquityPoint)
    (trades : List CollectedTrade) : Except TradePnlError (List DailyRow) := do
  let ledger ← realizedTradePnl (trades.map CollectedTrade.toTradeEvent)
  let inputs : DailyInputs :=
    { exchangeName := etl.exchangeName, curve, trades, realized := ledger.realized
      openPositions := etl.openPositions, lastDate := records.getLast?.map recordDate }
  return dailyRowsFrom inputs { previousEquity := etl.tracker.initialCapital } (lasts recordDate records)

/-- `_trade_stat_rows` -/
def tradeStatRows (etl : MartETL) (trades : List CollectedTrade) : List TradeStatRow :=
  (keys tradeDate trades).map fun reportDate =>
    let dayTrades := withKey tradeDate reportDate trades
    let volumes := dayTrades.map fun trade => trade.quantity * trade.price
    { reportDate
      exchangeName := etl.exchangeName
      totalTrades := dayTrades.length
      totalVolume := volumes.sum
      avgTradeSize := volumes.sum / volumes.length
      totalCommission := (dayTrades.map CollectedTrade.fee).sum
      totalSlippage := (dayTrades.map CollectedTrade.slippage).sum }

/-- `_drawdown_row` -/
def drawdownRow (point : EquityPoint) : DrawdownRow :=
  { timestamp := point.timestamp
    equity := point.equity
    peakEquity := point.equity + point.drawdown
    drawdown := point.drawdown
    drawdownPct := point.drawdownPct }

/-- The equity before the first of the days. -/
def startingEquity (days : List DailyRow) : Decimal :=
  days.head?.elim 0 fun first => first.totalCapital - first.dailyPnl

def rowMonth (row : DailyRow) : YearMonth := yearMonth row.reportDate

/-- The row of a month, from the rows of its days. -/
def monthlyRow (exchangeName : String) (yearMonth : YearMonth) (days : List DailyRow) : MonthlyRow :=
  let totalPnl := (days.map DailyRow.dailyPnl).sum
  let wins := (days.map DailyRow.winningTrades).sum
  let losses := (days.map DailyRow.losingTrades).sum
  let closed := wins + losses
  { yearMonth
    exchangeName
    totalPnl
    totalPnlPct := pct totalPnl (startingEquity days)
    tradesCount := (days.map DailyRow.tradesCount).sum
    winRate := if closed = 0 then 0 else wins / closed
    maxDrawdown := (days.map DailyRow.maxDrawdown).max?.getD 0 }

/-- `_monthly_rows` -/
def monthlyRows (exchangeName : String) (daily : List DailyRow) : List MonthlyRow :=
  (keys rowMonth daily).map fun month => monthlyRow exchangeName month (withKey rowMonth month daily)

/-- `sorted(self._tracker.pnl_records, key=lambda row: row.timestamp)`. -/
def records (etl : MartETL) : List PnLRecord := sortOn PnLRecord.timestamp etl.tracker.pnlRecords

/-- `load`: the rows that it upserts. -/
def load (etl : MartETL) : Except TradePnlError MartRows := do
  let curve := sortOn EquityPoint.timestamp etl.tracker.equityCurve
  let trades := sortOn (fun trade : CollectedTrade => trade.timestamp) etl.tradeEvents
  let daily ← etl.dailyRows etl.records curve trades
  return {
    daily
    tradeStats := etl.tradeStatRows trades
    drawdowns := curve.map drawdownRow
    monthly := monthlyRows etl.exchangeName daily }

end MartETL

end CryptoTrading
