import CryptoTrading.Risk.DurableState
import CryptoTrading.Runtime.Dependencies

/-! The adapter to the risk engine against positions that have been closed.  The paper engine keeps an
entry for every symbol that it has traded, and the adapter forwards all of them: they are worth nothing,
but the gate on the number of open positions counts them. -/

namespace CryptoTrading

open Kit

/-- The engine without its positions of quantity zero. -/
def PaperExecutionEngine.withoutFlat (engine : PaperExecutionEngine) : PaperExecutionEngine :=
  { engine with positions := engine.positions.filter fun _ position => decide (position.quantity ≠ 0) }

namespace RiskEngineAdapter

variable {engine : RiskEngine} {totalCapital : Decimal} {request : ExecutionRequest}
  {execution : PaperExecutionEngine} {now : Datetime}

/-- The flat positions change what the open-position gate says of the request.  Either there are as many
symbols as are admitted with those that are flat and fewer without, and the symbol is new; or there are as
many without, and the symbol counts as held while it is flat. -/
def Miscounts (config : RiskConfig) (request : ExecutionRequest) (execution : PaperExecutionEngine) :
    Prop :=
  (execution.positions.get? request.symbol = none ∧
    execution.withoutFlat.positions.entries.length < config.maxOpenPositions ∧
    config.maxOpenPositions ≤ execution.positions.entries.length) ∨
  ((∃ position, execution.positions.get? request.symbol = some position ∧ position.quantity = 0) ∧
    config.maxOpenPositions ≤ execution.withoutFlat.positions.entries.length)

/-! ### What the flat positions leave alone -/

theorem withoutFlat_get? (execution : PaperExecutionEngine) (symbol : String) :
    execution.withoutFlat.positions.get? symbol =
      (execution.positions.get? symbol).filter fun position => decide (position.quantity ≠ 0) :=
  Dict.get?_filter _ _ _

/-- A flat position costs nothing. -/
theorem withoutFlat_cost (execution : PaperExecutionEngine) (symbol : String) :
    execution.withoutFlat.heldQuantity symbol * execution.withoutFlat.heldPrice symbol =
      execution.heldQuantity symbol * execution.heldPrice symbol := by
  unfold PaperExecutionEngine.heldQuantity PaperExecutionEngine.heldPrice
  rw [withoutFlat_get?]
  cases execution.positions.get? symbol with
  | none => rfl
  | some position =>
    by_cases hflat : position.quantity = 0
    · rw [Option.filter_some_neg (by simp [hflat])]
      simp [hflat]
    · rw [Option.filter_some_pos (by simp [hflat])]

theorem before_withoutFlat :
    (tradeArguments totalCapital request execution.withoutFlat now).before =
      (tradeArguments totalCapital request execution now).before := by
  rw [tradeArguments_before, tradeArguments_before, withoutFlat_cost]

theorem otherExposure_withoutFlat :
    (tradeArguments totalCapital request execution.withoutFlat now).otherExposure =
      (tradeArguments totalCapital request execution now).otherExposure := by
  rw [tradeArguments_otherExposure, tradeArguments_otherExposure, PaperExecutionEngine.withoutFlat,
    Dict.erase_filter, Dict.values, Dict.values, List.map_map, List.map_map]
  refine Dict.sum_filter _ _ fun entry _ hflat => ?_
  have hzero : entry.2.quantity = 0 := by simpa using hflat
  simp [hzero]

/-- Without the flat positions, a request has the arguments of its own in another dictionary alone. -/
theorem frame_withoutFlat :
    (tradeArguments totalCapital request execution.withoutFlat now).after =
        (tradeArguments totalCapital request execution now).after ∧
      (tradeArguments totalCapital request execution.withoutFlat now).exposureIncrease =
        (tradeArguments totalCapital request execution now).exposureIncrease := by
  have hafter : (tradeArguments totalCapital request execution.withoutFlat now).after =
      (tradeArguments totalCapital request execution now).after := by
    rw [TradeArguments.after, TradeArguments.after, before_withoutFlat]
    rfl
  refine ⟨hafter, ?_⟩
  rw [TradeArguments.exposureIncrease, TradeArguments.exposureIncrease, hafter, before_withoutFlat]

theorem reducing_withoutFlat :
    (tradeArguments totalCapital request execution.withoutFlat now).reducing =
      (tradeArguments totalCapital request execution now).reducing := by
  rw [TradeArguments.reducing, TradeArguments.reducing, frame_withoutFlat.2]

theorem exceedsLimits_withoutFlat {config : RiskConfig} :
    (tradeArguments totalCapital request execution.withoutFlat now).ExceedsLimits config ↔
      (tradeArguments totalCapital request execution now).ExceedsLimits config := by
  unfold TradeArguments.ExceedsLimits
  rw [frame_withoutFlat.1, frame_withoutFlat.2, otherExposure_withoutFlat]
  exact Iff.rfl

/-! ### What they change -/

theorem tooManyOpen_iff {config : RiskConfig} :
    (tradeArguments totalCapital request execution now).TooManyOpen config ↔
      execution.positions.get? request.symbol = none ∧
        config.maxOpenPositions ≤ execution.positions.entries.length := by
  have hcount : (currentPositions execution).entries.length = execution.positions.entries.length :=
    List.length_map _
  have hsymbol : some request.symbol ∉
      (currentPositions execution).values.map RiskPosition.symbol ↔
        execution.positions.get? request.symbol = none := by
    rw [Dict.get?_eq_none_iff, currentPositions_values, List.map_map]
    simp [Dict.keys]
  exact and_congr hsymbol (by rw [← hcount]; exact Iff.rfl)

theorem tooManyOpen_withoutFlat_iff {config : RiskConfig} :
    ((tradeArguments totalCapital request execution now).TooManyOpen config ↔
        (tradeArguments totalCapital request execution.withoutFlat now).TooManyOpen config) ↔
      ¬Miscounts config request execution := by
  have hfewer : execution.withoutFlat.positions.entries.length ≤
      execution.positions.entries.length := List.length_filter_le _ _
  rw [tooManyOpen_iff, tooManyOpen_iff, withoutFlat_get?, Miscounts]
  cases execution.positions.get? request.symbol with
  | none => simp; omega
  | some position => by_cases hflat : position.quantity = 0 <;> simp [hflat]

theorem verdicts_agree_iff {invalid reducing account uncertain exceeds many many' : Prop} :
    ((invalid ∨ ¬reducing ∧ ((account ∨ uncertain) ∨ exceeds ∨ many)) ↔
        (invalid ∨ ¬reducing ∧ ((account ∨ uncertain) ∨ exceeds ∨ many'))) ↔
      (many ↔ many') ∨ invalid ∨ reducing ∨ account ∨ uncertain ∨ exceeds := by
  tauto

/-- The verdict on a request is the same without the flat positions exactly where the number of open
positions is not miscounted, or decides nothing. -/
theorem flat_positions_iff (engine : RiskEngine) (totalCapital : Decimal) (request : ExecutionRequest)
    (execution : PaperExecutionEngine) (now : Datetime) :
    validateRequest engine totalCapital request execution now =
        validateRequest engine totalCapital request execution.withoutFlat now ↔
      ¬Miscounts engine.config request execution ∨
        (tradeArguments totalCapital request execution now).valid = false ∨
        (tradeArguments totalCapital request execution now).reducing = true ∨
        engine.AccountClosed (tradeArguments totalCapital request execution now) ∨
        engine.Uncertain (tradeArguments totalCapital request execution now) ∨
        (tradeArguments totalCapital request execution now).ExceedsLimits engine.config := by
  have hfull : validateRequest engine totalCapital request execution now = false ↔ _ :=
    RiskEngine.not_approved_iff
  have hflat : validateRequest engine totalCapital request execution.withoutFlat now = false ↔ _ :=
    RiskEngine.not_approved_iff
  have hvalid : (tradeArguments totalCapital request execution.withoutFlat now).valid =
      (tradeArguments totalCapital request execution now).valid := rfl
  -- These read nothing of the positions.
  have haccount :
      engine.AccountClosed (tradeArguments totalCapital request execution.withoutFlat now) ↔
        engine.AccountClosed (tradeArguments totalCapital request execution now) := Iff.rfl
  have huncertain :
      engine.Uncertain (tradeArguments totalCapital request execution.withoutFlat now) ↔
        engine.Uncertain (tradeArguments totalCapital request execution now) := Iff.rfl
  have hbrings : ∀ execution, ¬(tradeArguments totalCapital request execution now).BringsFailure := by
    rintro execution (h | h | h) <;> cases h
  have hcount : ((tradeArguments totalCapital request execution now).TooManyOpen engine.config ↔
      (tradeArguments totalCapital request execution.withoutFlat now).TooManyOpen engine.config) ↔
        ¬Miscounts engine.config request execution := tooManyOpen_withoutFlat_iff
  rw [hvalid, haccount, huncertain, reducing_withoutFlat] at hflat
  simp only [TradeArguments.Refused, exceedsLimits_withoutFlat, hbrings, false_or] at hfull hflat
  have hsame : ∀ first second : Bool, first = second ↔ (first = false ↔ second = false) := by decide
  rw [hsame, hfull, hflat, ← hcount, ← Bool.not_eq_true (TradeArguments.reducing _)]
  exact verdicts_agree_iff

/-- One unit is bought and sold. -/
def roundTrip (execution : PaperExecutionEngine) (symbol : String) : Option PaperExecutionEngine := do
  let bought ← (execution.execute { request := ⟨symbol, .buy, 1⟩, now := 0 }).toOption
  let sold ← (bought.engine.execute { request := ⟨symbol, .sell, 1⟩, now := 0 }).toOption
  return sold.engine

/-- A new engine that has taken a candle that closes at 50. -/
def quoted : PaperExecutionEngine :=
  PaperExecutionEngine.accept { cashBalance := 1000 }
    { candle := ⟨"BTCUSDT", 0, hour, 50, 50, 50, 50, 1⟩, sequence := 1 }

/-- After five round trips nothing is held, and a purchase in a sixth symbol is refused. -/
theorem round_trips_close_entry :
    ∃ execution, ["BTCUSDT", "ETHUSDT", "SOLUSDT", "XRPUSDT", "ADAUSDT"].foldlM roundTrip quoted =
        some execution ∧
      (∀ position ∈ execution.positions.values, position.quantity = 0) ∧
      validateRequest {} 1000 ⟨"DOTUSDT", .buy, 1⟩ execution 0 = false ∧
      validateRequest {} 1000 ⟨"DOTUSDT", .buy, 1⟩ execution.withoutFlat 0 = true := by
  have hruns : (["BTCUSDT", "ETHUSDT", "SOLUSDT", "XRPUSDT", "ADAUSDT"].foldlM roundTrip quoted).map
      (fun execution => (decide (∀ position ∈ execution.positions.values, position.quantity = 0),
        validateRequest {} 1000 ⟨"DOTUSDT", .buy, 1⟩ execution 0,
        validateRequest {} 1000 ⟨"DOTUSDT", .buy, 1⟩ execution.withoutFlat 0)) =
      some (true, false, true) := by
    decide +kernel
  obtain ⟨execution, hexecution, hfacts⟩ := Option.map_eq_some_iff.mp hruns
  obtain ⟨hflat, hfacts⟩ := Prod.mk.inj hfacts
  obtain ⟨hrefused, happroved⟩ := Prod.mk.inj hfacts
  exact ⟨execution, hexecution, of_decide_eq_true hflat, hrefused, happroved⟩

end RiskEngineAdapter

end CryptoTrading
