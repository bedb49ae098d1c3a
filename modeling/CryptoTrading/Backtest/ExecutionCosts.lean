import CryptoTrading.Models.Trading

/-! What the execution of an order costs: slippage off the reference price, and commission. -/

namespace CryptoTrading

structure SlippageConfig where
  fixedSlippage : Decimal := 5 / 10000
  randomSlippageMin : Decimal := 0
  randomSlippageMax : Decimal := 1 / 1000
  volumeImpactThreshold : Decimal := 1 / 100
  volumeImpactFactor : Decimal := 1 / 10
  deriving DecidableEq

/-- The random generator is the stream `draws` of the numbers that `uniform` returns for its seed and
range, of which `drawn` have been drawn. -/
structure SlippageModel where
  config : SlippageConfig := {}
  draws : ℕ → Decimal
  drawn : ℕ := 0

namespace SlippageModel

variable (model : SlippageModel)

/-- The slippage is random. -/
def isRandom : Bool := decide (model.config.randomSlippageMax > model.config.randomSlippageMin)

/-- The model after a call of `calculate_slippage`. -/
def next : SlippageModel := if model.isRandom then { model with drawn := model.drawn + 1 } else model

/-- The order is large against the average volume. -/
def impacts (quantity averageVolume : Decimal) : Bool :=
  decide (averageVolume > 0) && decide (quantity / averageVolume > model.config.volumeImpactThreshold)

/-- The slippage that the volume adds. -/
def volumeImpact (quantity : Decimal) (averageVolume : Option Decimal) : Decimal :=
  match averageVolume with
  | none => 0
  | some volume =>
    if model.impacts quantity volume then
      (quantity / volume - model.config.volumeImpactThreshold) / model.config.volumeImpactThreshold *
        model.config.volumeImpactFactor
    else 0

/-- The share of the price that an order slips by. -/
def slippage (quantity : Decimal) (averageVolume : Option Decimal) : Decimal :=
  model.config.fixedSlippage + (if model.isRandom then model.draws model.drawn else 0) +
    model.volumeImpact quantity averageVolume

/-- `calculate_slippage` divides by the threshold when the volume adds to the slippage. -/
def divides (quantity : Decimal) (averageVolume : Option Decimal) : Bool :=
  averageVolume.any fun volume => model.impacts quantity volume

/-- `calculate_slippage`: the execution price, or `none` where it divides by zero. -/
def calculateSlippage (price quantity : Decimal) (averageVolume : Option Decimal) (isBuy : Bool) :
    Option Decimal :=
  if model.divides quantity averageVolume && decide (model.config.volumeImpactThreshold = 0) then none
  else if isBuy then some (price * (1 + model.slippage quantity averageVolume))
  else some (price * (1 - model.slippage quantity averageVolume))

end SlippageModel

structure CommissionConfig where
  makerFee : Decimal := 1 / 1000
  takerFee : Decimal := 1 / 1000
  minimumFee : Decimal := 1 / 10000
  deriving DecidableEq

/-- `calculate_commission`. -/
def CommissionConfig.calculateCommission (config : CommissionConfig) (quantity price : Decimal)
    (isMaker : Bool := false) : Decimal :=
  max (quantity * price * (if isMaker then config.makerFee else config.takerFee)) config.minimumFee

end CryptoTrading
