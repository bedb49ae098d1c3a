import CryptoTrading.Execution.FeedAcceptance
import CryptoTrading.Reporting.PaperPnl
import CryptoTrading.Runtime.Dependencies

/-! The prices at which the runtime fills, checks and marks a symbol, against the closes of the
candles that its engine has accepted. -/

namespace CryptoTrading

namespace PaperExecutionEngine

/-- The candle that a call makes the engine accept. -/
def acceptedBy (engine : PaperExecutionEngine) : EngineCall → List Candle
  | .marketEvent event =>
    match engine.onMarketEvent event with
    | .ok (true, _) => [event.candle]
    | _ => []
  | .execute _ => []

/-- The candles that calls make the engine accept, in order. -/
def acceptedCandles (engine : PaperExecutionEngine) : List EngineCall → List Candle
  | [] => []
  | call :: rest => engine.acceptedBy call ++ acceptedCandles (engine.attempt call).1 rest

theorem lastCandle_attempt (engine : PaperExecutionEngine) (call : EngineCall) :
    (engine.attempt call).1.lastCandle = (engine.acceptedBy call).getLast?.or engine.lastCandle := by
  cases call with
  | execute args =>
    rcases engine.attempt_cases (.execute args) with h | ⟨_, he, _⟩ | ⟨_, _, _, _, h⟩
    · simp [h, acceptedBy]
    · cases he
    · simp [h, acceptedBy]
  | marketEvent event =>
    simp only [acceptedBy]
    cases hev : engine.onMarketEvent event with
    | error e => simp [attempt_marketEvent_error hev]
    | ok outcome =>
      obtain ⟨accepted, after⟩ := outcome
      rw [attempt_marketEvent_ok hev]
      rcases onMarketEvent_cases hev with ⟨rfl, rfl, _⟩ | ⟨rfl, rfl, _⟩
      · rfl
      · rfl

/-- The last candle of an engine that started without one is the last that it accepted. -/
theorem lastCandle_attemptAll {engine : PaperExecutionEngine} (h : engine.lastCandle = none)
    (calls : List EngineCall) :
    (engine.attemptAll calls).lastCandle = (engine.acceptedCandles calls).getLast? := by
  have general : ∀ engine : PaperExecutionEngine, (engine.attemptAll calls).lastCandle =
      (engine.acceptedCandles calls).getLast?.or engine.lastCandle := by
    induction calls with
    | nil => intro engine; rfl
    | cons call rest ih =>
      intro engine
      rw [attemptAll_cons, ih, lastCandle_attempt, acceptedCandles, List.getLast?_append,
        Option.or_assoc]
  simpa [h] using general engine

end PaperExecutionEngine

/-- The close of the last of `candles` that is a candle of `symbol`. -/
def ownClose (candles : List Candle) (symbol : String) : Option Decimal :=
  (candles.filter fun candle => decide (candle.symbol = symbol)).getLast?.map Candle.close

/-- In the course of a feed the runtime has the engine `engine`, which has accepted `candles`. -/
def RuntimeSettings.Reaches {σ : Type} (settings : RuntimeSettings σ)
    (start : PaperTradingRuntime σ) (feed : List MarketEvent) (engine : PaperExecutionEngine)
    (candles : List Candle) : Prop :=
  ∃ passed, passed <+: (settings.processFeed start feed).actions ∧
    engine = start.engine.attemptAll (engineCalls passed) ∧
    candles = start.engine.acceptedCandles (engineCalls passed)

theorem RuntimeSettings.reaches_processFeed {σ : Type} (settings : RuntimeSettings σ)
    (start : PaperTradingRuntime σ) (feed : List MarketEvent) :
    settings.Reaches start feed (settings.processFeed start feed).state.engine
      (start.engine.acceptedCandles (engineCalls (settings.processFeed start feed).actions)) :=
  ⟨_, List.prefix_rfl, settings.processFeed_engine start feed, rfl⟩

/-- An order for `symbol` without a price of its own is filled and checked at the close of the last
candle of `symbol` among `candles`, and a position in it is marked there. -/
structure PricedByOwnCandle (engine : PaperExecutionEngine) (candles : List Candle)
    (symbol : String) : Prop where
  filled : ∀ args done, args.request.symbol = symbol → args.marketPrice = none →
    engine.execute args = .ok done → done.scheduled.isSome →
    ownClose candles symbol = some done.result.price
  riskChecked : ownClose candles symbol = some (RiskEngineAdapter.price engine)
  defaultRiskChecked : ownClose candles symbol = some (DefaultRiskManager.price engine)
  marked : ownClose candles symbol = engine.getPrice symbol

/-- A symbol is priced by its own candles exactly while the last candle accepted, whatever its
symbol, closes where the last candle of the symbol does. -/
theorem pricedByOwnCandle_iff {σ : Type} (settings : RuntimeSettings σ)
    (start : PaperTradingRuntime σ) (hstart : start.engine.lastCandle = none)
    (feed : List MarketEvent) (engine : PaperExecutionEngine) (candles : List Candle)
    (h : settings.Reaches start feed engine candles) (symbol : String) :
    PricedByOwnCandle engine candles symbol ↔
      ∃ last, candles.getLast? = some last ∧ ownClose candles symbol = some last.close := by
  obtain ⟨passed, -, rfl, rfl⟩ := h
  have hlast := PaperExecutionEngine.lastCandle_attemptAll hstart (engineCalls passed)
  generalize start.engine.attemptAll (engineCalls passed) = engine at hlast ⊢
  generalize start.engine.acceptedCandles (engineCalls passed) = candles at hlast ⊢
  constructor
  · intro hpriced
    have hrisk := hpriced.riskChecked
    cases hc : candles.getLast? with
    | none =>
      rw [List.getLast?_eq_none_iff.mp hc] at hrisk
      cases hrisk
    | some last =>
      refine ⟨last, rfl, hrisk.trans ?_⟩
      simp [RiskEngineAdapter.price, hlast, hc]
  · rintro ⟨last, hc, hown⟩
    rw [hc] at hlast
    refine ⟨fun args done _ hprice hdone hsome => ?_, ?_, ?_, ?_⟩
    · rcases PaperExecutionEngine.execute_cases hdone with ⟨_, _, _, _, hnone⟩ | ⟨price, hfills, rfl⟩
      · rw [hnone] at hsome
        cases hsome
      · have hat := hfills.marketPrice
        simp only [PaperExecutionEngine.marketPriceOf, hprice, hlast, Except.ok.injEq] at hat
        rw [hown, hat]
        rfl
    · rw [hown, RiskEngineAdapter.price, hlast]; rfl
    · rw [hown, DefaultRiskManager.price, hlast]; rfl
    · rw [hown, PaperExecutionEngine.getPrice, hlast]; rfl

/-- A candle of one symbol closing at 100, and an hour later a candle of another closing at 10. -/
def interleaved : List MarketEvent :=
  [⟨⟨"BTCUSDT", hour, 2 * hour, 100, 100, 100, 100, 1⟩, 36000, "bybit-rest-dds"⟩,
    ⟨⟨"ETHUSDT", 2 * hour, 3 * hour, 10, 10, 10, 10, 1⟩, 72001, "bybit-rest-dds"⟩]

/-- The runtime of `watching` before its first event. -/
def fresh : PaperTradingRuntime Unit := { engine := {}, strategyState := () }

theorem reaches_interleaved : RuntimeSettings.watching.Reaches fresh interleaved
    (RuntimeSettings.watching.processFeed fresh interleaved).state.engine
    (interleaved.map MarketEvent.candle) := by
  refine ⟨_, List.prefix_rfl, RuntimeSettings.processFeed_engine _ _ _, ?_⟩
  decide +kernel

/-- After the second candle an order for the first symbol is filled at the close of the second. -/
theorem foreign_close_fills : ¬∀ (feed : List MarketEvent) (engine : PaperExecutionEngine)
    (candles : List Candle) (symbol : String),
    RuntimeSettings.watching.Reaches fresh feed engine candles →
    (ownClose candles symbol).isSome → PricedByOwnCandle engine candles symbol := by
  intro h
  have hfilled := (h interleaved _ _ "BTCUSDT" reaches_interleaved (by decide +kernel)).filled
    { request := ⟨"BTCUSDT", .buy, 1⟩, now := 3 * hour }
  have hfill := hfilled _ rfl rfl rfl rfl
  revert hfill
  decide +kernel

/-- `pricedByOwnCandle_iff` at the end of `interleaved`. -/
theorem foreign_close_misprices : ¬PricedByOwnCandle
    (RuntimeSettings.watching.processFeed fresh interleaved).state.engine
    (interleaved.map MarketEvent.candle) "BTCUSDT" := by
  rw [pricedByOwnCandle_iff RuntimeSettings.watching fresh rfl interleaved _ _ reaches_interleaved]
  rintro ⟨last, hlast, hclose⟩
  cases hlast
  revert hclose
  decide +kernel

end CryptoTrading
