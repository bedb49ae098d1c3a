import CryptoTrading.Kit.Callee
import CryptoTrading.Strategies.TrendDca

/-! The calls of `should_enter` of a strategy, one after the other. -/

namespace CryptoTrading

open Kit

/-- A call of `should_enter`. -/
structure EntryCall where
  candle : BacktestCandle StrategyIndicators
  indicators : StrategyIndicators
  entry : EntryState

namespace EntryCall

variable (call : EntryCall)

/-- The close is above EMA200, and so is EMA50. -/
def TrendsUp : Prop :=
  ∃ ema50 ema200, call.indicators.ema50 = some ema50 ∧ call.indicators.ema200 = some ema200 ∧
    ema200 < ema50 ∧ ema200 < call.candle.close

end EntryCall

/-- A strategy that is asked for entries.  A call that raises leaves the state that `raised` says. -/
def SignalStrategy.entries {σ : Type} (strategy : SignalStrategy σ StrategyIndicators) (start : σ)
    (raised : σ → EntryCall → σ) :
    Callee σ EntryCall (Except BacktestError (Option Signal)) where
  start
  after state call :=
    (strategy.shouldEnter state call.candle call.indicators call.entry).toOption.elim
      (raised state call) Prod.fst
  answer state call :=
    (strategy.shouldEnter state call.candle call.indicators call.entry).map Prod.snd

/-- A call of `should_enter` on a candle, without a position. -/
def flatCall (candle : BacktestCandle StrategyIndicators) : EntryCall :=
  ⟨candle, candle.indicators, { capital := 1000, availableBalance := 1000 }⟩

theorem SignalStrategy.exists_signal {σ : Type}
    {callee : Callee σ EntryCall (Except BacktestError (Option Signal))} {calls : List EntryCall}
    {j : ℕ} (h : ((callee.answerAt calls j).any fun answer => answer.toOption.any Option.isSome) = true) :
    ∃ signal, callee.answerAt calls j = some (.ok (some signal)) := by
  obtain ⟨answer, hanswer, hsome⟩ := (Option.any_eq_true _ _).mp h
  cases answer with
  | error error => cases hsome
  | ok signal =>
    obtain ⟨signal, rfl⟩ := Option.isSome_iff_exists.mp hsome
    exact ⟨signal, hanswer⟩

end CryptoTrading
