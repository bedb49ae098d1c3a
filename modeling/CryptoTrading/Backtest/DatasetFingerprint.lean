import CryptoTrading.Kit.Calendar
import CryptoTrading.Kit.Fallible
import CryptoTrading.Kit.PaddedDigits
import CryptoTrading.Kit.StableSort
import CryptoTrading.Reporting.ValidationPreflight
import Mathlib.Data.Prod.Lex
import Mathlib.Data.String.Basic

/-! The fingerprint of a dataset.  The candles are sorted by symbol and open time alone, so that candles
that share both keep the order in which they were supplied, and the fingerprint is one of that order too. -/

namespace CryptoTrading

open Kit Kit.Calendar Kit.PaddedDigits Kit.StableSort

/-! ### Canonical values -/

/-- A `Decimal` as it is written: its sign, its digits and its exponent, or a special value's text. -/
inductive WrittenDecimal
  | finite (negative : Bool) (coefficient : ℕ) (exponent : ℤ)
  | special (text : String)
  deriving DecidableEq

/-- The digits before and after the decimal point, `places` of them after it. -/
def pointed (digits : List Char) (places : ℕ) : List Char :=
  let whole := digits.take (digits.length - places)
  let zeros := List.replicate (places - digits.length) '0'
  (if whole.isEmpty then ['0'] else whole) ++
    if places = 0 then [] else '.' :: (zeros ++ digits.drop (digits.length - places))

/-- `format(value, "f")`. -/
def WrittenDecimal.fixed : WrittenDecimal → String
  | special text => text
  | finite negative coefficient exponent =>
    let digits := Nat.toDigits 10 coefficient
    let zeros := if coefficient = 0 then [] else List.replicate exponent.toNat '0'
    String.ofList ((if negative then ['-'] else []) ++ pointed (digits ++ zeros) (-exponent).toNat)

/-- `value.astimezone(timezone.utc).isoformat()`. -/
def isoformat (moment : Datetime) : String :=
  let date := civilDate (moment / day)
  let micros := moment % day
  let second := micros / 1000000
  let fraction := micros % 1000000
  String.ofList (padded 4 date.year ++ '-' :: padded 2 date.month ++ '-' :: padded 2 date.day ++
    'T' :: padded 2 (second / 3600) ++ ':' :: padded 2 (second / 60 % 60) ++ ':' :: padded 2 (second % 60) ++
    (if fraction = 0 then [] else '.' :: padded 6 fraction) ++ ['+', '0', '0', ':', '0', '0'])

/-- A value of a candle; `other` is any value of JSON but a text or `None`. -/
inductive Scalar (Other : Type)
  | decimal (value : WrittenDecimal)
  | datetime (value : Timestamp)
  | text (value : String)
  | other (value : Other)
  | none

/-- A canonical value. -/
inductive Canonical (Other : Type)
  | text (value : String)
  | other (value : Other)
  | none
  deriving DecidableEq

/-- The `ValueError`s of `build_dataset_fingerprint`. -/
inductive FingerprintError
  /-- "indicator_model_version must be non-empty" -/
  | indicatorModelVersion
  /-- "regime_model_version must be non-empty" -/
  | regimeModelVersion
  /-- "dataset timestamps must be timezone-aware" -/
  | naiveTimestamp
  deriving DecidableEq

variable {Other Encoded Digest : Type}

def canonicalDatetime : Timestamp → Except FingerprintError String
  | .naive _ => .error .naiveTimestamp
  | .aware moment => .ok (isoformat moment)

/-- `_canonical_scalar` -/
def canonicalScalar : Scalar Other → Except FingerprintError (Canonical Other)
  | .decimal value => .ok (.text value.fixed)
  | .datetime value => return .text (← canonicalDatetime value)
  | .text value => .ok (.text value)
  | .other value => .ok (.other value)
  | .none => .ok .none

/-! ### Candles -/

/-- The indicators of a candle; what is missing is `None`. -/
structure IndicatorScalars (Other : Type) where
  ema20 : Scalar Other := .none
  ema50 : Scalar Other := .none
  ema200 : Scalar Other := .none
  rsi : Scalar Other := .none
  atr : Scalar Other := .none
  volatility : Scalar Other := .none
  regime : Option String := none
  regimeConfidence : Scalar Other := .none

structure DatasetCandle (Other : Type) where
  symbol : String
  interval : String
  openTime : Timestamp
  open_ : Scalar Other
  high : Scalar Other
  low : Scalar Other
  close : Scalar Other
  volume : Scalar Other
  indicators : IndicatorScalars Other := {}

structure CanonicalCandle (Other : Type) where
  symbol : String
  interval : String
  openTime : String
  open_ : Canonical Other
  high : Canonical Other
  low : Canonical Other
  close : Canonical Other
  volume : Canonical Other
  ema20 : Canonical Other
  ema50 : Canonical Other
  ema200 : Canonical Other
  rsi : Canonical Other
  atr : Canonical Other
  volatility : Canonical Other
  regime : Option String
  regimeConfidence : Canonical Other
  deriving DecidableEq

/-- `_canonical_candle` -/
def canonicalCandle (candle : DatasetCandle Other) :
    Except FingerprintError (CanonicalCandle Other) := do
  let indicators := candle.indicators
  return {
    symbol := candle.symbol
    interval := candle.interval
    openTime := ← canonicalDatetime candle.openTime
    open_ := ← canonicalScalar candle.open_
    high := ← canonicalScalar candle.high
    low := ← canonicalScalar candle.low
    close := ← canonicalScalar candle.close
    volume := ← canonicalScalar candle.volume
    ema20 := ← canonicalScalar indicators.ema20
    ema50 := ← canonicalScalar indicators.ema50
    ema200 := ← canonicalScalar indicators.ema200
    rsi := ← canonicalScalar indicators.rsi
    atr := ← canonicalScalar indicators.atr
    volatility := ← canonicalScalar indicators.volatility
    regime := indicators.regime
    regimeConfidence := ← canonicalScalar indicators.regimeConfidence }

/-- What the candles are sorted by. -/
def CanonicalCandle.sortKey (candle : CanonicalCandle Other) : String ×ₗ String :=
  toLex (candle.symbol, candle.openTime)

/-- What is encoded and hashed. -/
structure FingerprintPayload (Other : Type) where
  indicatorModelVersion : String
  regimeModelVersion : String
  candles : List (CanonicalCandle Other)

/-- `build_dataset_fingerprint`, with `json.dumps` and `sha256` given. -/
def buildDatasetFingerprint (dumps : FingerprintPayload Other → Encoded) (sha256 : Encoded → Digest)
    (candles : List (DatasetCandle Other)) (indicatorModelVersion regimeModelVersion : String) :
    Except FingerprintError Digest := do
  if indicatorModelVersion = "" then throw .indicatorModelVersion
  if regimeModelVersion = "" then throw .regimeModelVersion
  let canonical ← candles.mapM canonicalCandle
  return sha256 (dumps
    { indicatorModelVersion, regimeModelVersion
      candles := sortOn CanonicalCandle.sortKey canonical })

/-! ### What a fingerprint identifies -/

section Identity

variable {dumps : FingerprintPayload Other → Encoded} {sha256 : Encoded → Digest}
variable {candles others : List (DatasetCandle Other)}
variable {canonical canonical' : List (CanonicalCandle Other)}
variable {indicatorModelVersion regimeModelVersion : String}

theorem buildDatasetFingerprint_eq_ok (hcandles : candles.mapM canonicalCandle = .ok canonical)
    (hindicator : indicatorModelVersion ≠ "") (hregime : regimeModelVersion ≠ "") :
    buildDatasetFingerprint dumps sha256 candles indicatorModelVersion regimeModelVersion =
      .ok (sha256 (dumps ⟨indicatorModelVersion, regimeModelVersion,
        sortOn CanonicalCandle.sortKey canonical⟩)) := by
  rw [buildDatasetFingerprint, if_neg hindicator, if_neg hregime, hcandles]
  rfl

/-- Two fingerprints agree exactly when at every symbol and open time the datasets have the same canonical
candles in the same order. -/
theorem fingerprint_eq_iff (hdumps : dumps.Injective) (hsha256 : sha256.Injective)
    (hcandles : candles.mapM canonicalCandle = .ok canonical)
    (hothers : others.mapM canonicalCandle = .ok canonical')
    (hindicator : indicatorModelVersion ≠ "") (hregime : regimeModelVersion ≠ "") :
    buildDatasetFingerprint dumps sha256 candles indicatorModelVersion regimeModelVersion =
        buildDatasetFingerprint dumps sha256 others indicatorModelVersion regimeModelVersion ↔
      ∀ key, withKey CanonicalCandle.sortKey key canonical =
        withKey CanonicalCandle.sortKey key canonical' := by
  rw [buildDatasetFingerprint_eq_ok hcandles hindicator hregime,
    buildDatasetFingerprint_eq_ok hothers hindicator hregime, Except.ok.injEq, hsha256.eq_iff,
    hdumps.eq_iff, FingerprintPayload.mk.injEq, ← sortOn_eq_sortOn_iff]
  simp

/-- A fingerprint identifies the canonical candles, with their multiplicities, exactly where those that
share a symbol and an open time are supplied in one order. -/
theorem fingerprint_identifies_iff (hdumps : dumps.Injective) (hsha256 : sha256.Injective)
    (hcandles : candles.mapM canonicalCandle = .ok canonical)
    (hothers : others.mapM canonicalCandle = .ok canonical')
    (hindicator : indicatorModelVersion ≠ "") (hregime : regimeModelVersion ≠ "") :
    (buildDatasetFingerprint dumps sha256 candles indicatorModelVersion regimeModelVersion =
        buildDatasetFingerprint dumps sha256 others indicatorModelVersion regimeModelVersion ↔
      canonical.Perm canonical') ↔
    (canonical.Perm canonical' → ∀ key, withKey CanonicalCandle.sortKey key canonical =
      withKey CanonicalCandle.sortKey key canonical') := by
  rw [fingerprint_eq_iff hdumps hsha256 hcandles hothers hindicator hregime]
  exact ⟨fun h => h.mpr, fun h => ⟨perm_of_withKey_eq, h⟩⟩

theorem fingerprint_identifies_distinct (hdumps : dumps.Injective) (hsha256 : sha256.Injective)
    (hcandles : candles.mapM canonicalCandle = .ok canonical)
    (hothers : others.mapM canonicalCandle = .ok canonical')
    (hindicator : indicatorModelVersion ≠ "") (hregime : regimeModelVersion ≠ "")
    (hdistinct : (canonical.map CanonicalCandle.sortKey).Nodup) :
    buildDatasetFingerprint dumps sha256 candles indicatorModelVersion regimeModelVersion =
        buildDatasetFingerprint dumps sha256 others indicatorModelVersion regimeModelVersion ↔
      canonical.Perm canonical' := by
  rw [fingerprint_eq_iff hdumps hsha256 hcandles hothers hindicator hregime]
  exact ⟨perm_of_withKey_eq, fun h => withKey_eq_of_perm h hdistinct⟩

end Identity

/-! ### Candles that open together -/

/-- A candle of midnight on the tenth of August 2026. -/
def midnightCandle (symbol interval : String) : DatasetCandle Empty :=
  let hundred := Scalar.decimal (.finite false 100 0)
  { symbol, interval, openTime := .aware (20675 * day)
    open_ := hundred, high := hundred, low := hundred, close := hundred, volume := hundred }

def midnightCanonical (symbol interval : String) : CanonicalCandle Empty :=
  let hundred := Canonical.text (WrittenDecimal.finite false 100 0).fixed
  { symbol, interval, openTime := isoformat (20675 * day)
    open_ := hundred, high := hundred, low := hundred, close := hundred, volume := hundred
    ema20 := .none, ema50 := .none, ema200 := .none, rsi := .none, atr := .none, volatility := .none
    regime := none, regimeConfidence := .none }

theorem mapM_midnightCandle (symbol interval symbol' interval' : String) :
    [midnightCandle symbol interval, midnightCandle symbol' interval'].mapM canonicalCandle =
      .ok [midnightCanonical symbol interval, midnightCanonical symbol' interval'] := rfl

/-- The candles of two symbols have one fingerprint in either order. -/
theorem symbols_swapped :
    buildDatasetFingerprint id id [midnightCandle "BTCUSDT" "1h", midnightCandle "ETHUSDT" "1h"] "2" "2" =
      buildDatasetFingerprint id id [midnightCandle "ETHUSDT" "1h", midnightCandle "BTCUSDT" "1h"] "2" "2" := by
  have hdistinct : ([midnightCanonical "BTCUSDT" "1h", midnightCanonical "ETHUSDT" "1h"].map
      CanonicalCandle.sortKey).Nodup := by
    simp [CanonicalCandle.sortKey, midnightCanonical]
  refine ((fingerprint_identifies_iff Function.injective_id Function.injective_id
    (mapM_midnightCandle "BTCUSDT" "1h" "ETHUSDT" "1h") (mapM_midnightCandle "ETHUSDT" "1h" "BTCUSDT" "1h")
    (by decide) (by decide)).mpr fun h => withKey_eq_of_perm h hdistinct).mpr ?_
  exact List.Perm.swap ..

/-- The candles of two intervals of a symbol have two fingerprints, by their order. -/
theorem intervals_swapped :
    [midnightCanonical "BTCUSDT" "1h", midnightCanonical "BTCUSDT" "4h"].Perm
        [midnightCanonical "BTCUSDT" "4h", midnightCanonical "BTCUSDT" "1h"] ∧
      [midnightCandle "BTCUSDT" "1h", midnightCandle "BTCUSDT" "4h"].mapM canonicalCandle =
        .ok [midnightCanonical "BTCUSDT" "1h", midnightCanonical "BTCUSDT" "4h"] ∧
      [midnightCandle "BTCUSDT" "4h", midnightCandle "BTCUSDT" "1h"].mapM canonicalCandle =
        .ok [midnightCanonical "BTCUSDT" "4h", midnightCanonical "BTCUSDT" "1h"] ∧
      buildDatasetFingerprint id id
          [midnightCandle "BTCUSDT" "1h", midnightCandle "BTCUSDT" "4h"] "2" "2" ≠
        buildDatasetFingerprint id id
          [midnightCandle "BTCUSDT" "4h", midnightCandle "BTCUSDT" "1h"] "2" "2" := by
  refine ⟨List.Perm.swap .., mapM_midnightCandle .., mapM_midnightCandle .., fun heq => ?_⟩
  have horder := (fingerprint_eq_iff Function.injective_id Function.injective_id
    (mapM_midnightCandle ..) (mapM_midnightCandle ..) (by decide) (by decide)).mp heq
    (midnightCanonical "BTCUSDT" "1h").sortKey
  have hfirst : midnightCanonical "BTCUSDT" "1h" = midnightCanonical "BTCUSDT" "4h" := by
    rw [withKey_eq_self (by simp [CanonicalCandle.sortKey, midnightCanonical]),
      withKey_eq_self (by simp [CanonicalCandle.sortKey, midnightCanonical])] at horder
    exact (List.cons.inj horder).1
  have hinterval := congrArg CanonicalCandle.interval hfirst
  exact absurd hinterval (by decide)

end CryptoTrading
