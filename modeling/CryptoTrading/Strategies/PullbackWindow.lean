import CryptoTrading.Strategies.TrendPullbackConfirmation

/-! The window of a pullback.  A setup ages with the calls that miss none of the indicators: with all of them
at hand it is confirmed or cancelled on the twelfth candle after it at the latest, and without them it
stays. -/

namespace CryptoTrading

open Kit

theorem trendsUp_of_reading {call : EntryCall} {reading : PullbackReading}
    (hread : call.indicators.reading = some reading) (hemas : reading.ema200 < reading.ema50)
    (hclose : reading.ema200 < call.candle.close) : call.TrendsUp := by
  rw [reading_eq_some_iff] at hread
  exact ⟨reading.ema50, reading.ema200, by rw [hread], by rw [hread], hemas, hclose⟩

namespace PullbackSymbolState.Called

variable {symbolState after : PullbackSymbolState} {call : EntryCall}
  {answer : Except BacktestError (Option Signal)}

theorem previousRsi (h : symbolState.Called call after answer) :
    after.previousRsi = call.indicators.rsi.or symbolState.previousRsi := by
  cases h with
  | absent _ => rfl
  | pulledBack _ _ pulledBack => cases pulledBack <;> rfl
  | unconfirmed _ _ _ outcome => cases outcome <;> rfl
  | signalled _ _ _ outcome => cases outcome; rfl
  | raised _ _ _ _ => rfl
  | malformed _ _ => rfl

/-- A setup that is still armed after a call that misses nothing has aged. -/
theorem still_armed {setup : PullbackSetup} {reading : PullbackReading}
    (h : symbolState.Called call after answer) (hread : call.indicators.reading = some reading)
    (hheld : symbolState.setup = some setup) (harmed : symbolState.phase = .pullbackArmed)
    (hafter : after.phase = .pullbackArmed) :
    setup.Withstands call reading ∧ after.setup = some setup.aged := by
  cases h with
  | absent missing => cases missing.symm.trans hread
  | pulledBack _ idle _ => cases idle.symm.trans harmed
  | unconfirmed read _ held outcome =>
    cases read.symm.trans hread
    cases held.symm.trans hheld
    cases outcome with
    | cancelled _ => cases hafter
    | waits withstands _ => exact ⟨withstands, rfl⟩
  | signalled _ _ _ outcome =>
    cases outcome with
    | confirmed _ _ => cases hafter
  | raised read _ held outcome =>
    cases read.symm.trans hread
    cases held.symm.trans hheld
    cases outcome with
    | confirmed withstands _ =>
      exact ⟨withstands, by simp only [raisedAt, remember, hheld, Option.map_some]⟩
  | malformed _ missing => cases missing.symm.trans hheld

/-- A setup that was not armed before a call is armed by it. -/
theorem arms (h : symbolState.Called call after answer)
    (hidle : symbolState.phase ≠ .pullbackArmed) (harmed : after.phase = .pullbackArmed) :
    ∃ reading setup, call.indicators.reading = some reading ∧ after.setup = some setup ∧
      setup.barsSinceSetup = 0 ∧ reading.regime = trendUp ∧ call.TrendsUp := by
  cases h with
  | absent _ => exact absurd harmed hidle
  | pulledBack read _ pulledBack =>
    cases pulledBack with
    | idle => exact absurd harmed hidle
    | armed regime close emas _ _ =>
      exact ⟨_, _, read, rfl, rfl, regime, trendsUp_of_reading read emas close⟩
  | unconfirmed _ armed _ _ => exact absurd armed hidle
  | signalled _ armed _ _ => exact absurd armed hidle
  | raised _ armed _ _ => exact absurd armed hidle
  | malformed armed _ => exact absurd armed hidle

theorem signals {signal : Signal} (h : symbolState.Called call after (.ok (some signal))) :
    symbolState.phase = .pullbackArmed ∧ ∃ setup reading, symbolState.setup = some setup ∧
      call.indicators.reading = some reading ∧ setup.Withstands call reading ∧
      PullbackSymbolState.confirmed call.candle reading symbolState.previousRsi = true := by
  obtain _ | _ | _ | ⟨read, armed, held, outcome⟩ := h
  cases outcome with
  | confirmed withstands confirmed => exact ⟨armed, _, _, held, read, withstands, confirmed⟩

end PullbackSymbolState.Called

/-! ### The sequence of calls -/

/-- The state of the symbol before call `n`. -/
def pullbackStateAt (strategy : StrategyIdentity) (calls : List EntryCall) (symbol : String) (n : ℕ) :
    PullbackSymbolState :=
  ((pullbackEntries strategy).stateAt calls n).symbolState symbol

/-- A setup is armed before call `n`. -/
def SetupArmed (strategy : StrategyIdentity) (calls : List EntryCall) (symbol : String) (n : ℕ) : Prop :=
  (pullbackStateAt strategy calls symbol n).phase = .pullbackArmed

/-- Call `i` arms a setup. -/
def ArmsSetup (strategy : StrategyIdentity) (calls : List EntryCall) (symbol : String) (i : ℕ) : Prop :=
  ¬SetupArmed strategy calls symbol i ∧ SetupArmed strategy calls symbol (i + 1)

/-- The setup of call `i` is confirmed by call `j`, within its window. -/
structure ConfirmedPullback (calls : List EntryCall) (i j : ℕ) (arming confirming : EntryCall) :
    Prop where
  armed : calls[i]? = some arming
  confirmed : calls[j]? = some confirming
  later : 1 ≤ j - i
  inTime : j - i ≤ 11
  below : ∃ previous rsi, calls[j - 1]? = some previous ∧ previous.indicators.rsi = some rsi ∧ rsi ≤ 45
  above : ∃ rsi, confirming.indicators.rsi = some rsi ∧ 45 < rsi
  armingRegime : arming.indicators.regime = some trendUp
  armingTrend : arming.TrendsUp
  confirmingRegime : confirming.indicators.regime = some trendUp
  confirmingTrend : confirming.TrendsUp

/-- Every signal confirms a setup within its window, and every setup ends with the twelfth candle after it
at the latest. -/
structure ObeysWindow (strategy : StrategyIdentity) (calls : List EntryCall) (symbol : String) :
    Prop where
  confirmed : ∀ j signal, (pullbackEntries strategy).answerAt calls j = some (.ok (some signal)) →
    ∃ i arming confirming, ArmsSetup strategy calls symbol i ∧
      ConfirmedPullback calls i j arming confirming
  ended : ∀ i, ArmsSetup strategy calls symbol i → i + 12 < calls.length →
    ∃ k, i < k ∧ k ≤ i + 12 ∧ (∀ m, i < m → m ≤ k → SetupArmed strategy calls symbol m) ∧
      (pullbackStateAt strategy calls symbol (k + 1)).phase = .idle

/-- No call misses an indicator while a setup is armed. -/
def MissesNothingArmed (strategy : StrategyIdentity) (calls : List EntryCall) (symbol : String) : Prop :=
  ∀ n call, calls[n]? = some call → SetupArmed strategy calls symbol n →
    ∃ reading, call.indicators.reading = some reading

section Sequence

variable {strategy : StrategyIdentity} {calls : List EntryCall} {symbol : String}

theorem pullbackStateAt_called (strategy : StrategyIdentity)
    (hsymbol : ∀ call ∈ calls, call.candle.symbol = symbol) {n : ℕ}
    {call : EntryCall} (hcall : calls[n]? = some call) :
    ∃ answer, (pullbackEntries strategy).answerAt calls n = some answer ∧
      (pullbackStateAt strategy calls symbol n).Called call
        (pullbackStateAt strategy calls symbol (n + 1)) answer := by
  obtain rfl := hsymbol call (List.mem_of_getElem? hcall)
  refine ⟨_, Callee.answerAt_eq_some_iff.mpr ⟨call, hcall, rfl⟩, ?_⟩
  rw [pullbackStateAt, pullbackStateAt, Callee.stateAt_succ hcall]
  exact pullbackEntries_called strategy _ call

/-- A setup that has been armed since call `i` is as old as the calls since. -/
theorem setup_ages (hsymbol : ∀ call ∈ calls, call.candle.symbol = symbol)
    (hcomplete : MissesNothingArmed strategy calls symbol) {i j : ℕ}
    (harms : ArmsSetup strategy calls symbol i) (hj : j ≤ calls.length)
    (hsince : ∀ k, i < k → k ≤ j → SetupArmed strategy calls symbol k) {k : ℕ} (hik : i < k)
    (hkj : k ≤ j) : ∃ setup, (pullbackStateAt strategy calls symbol k).setup = some setup ∧
      setup.barsSinceSetup = k - (i + 1) := by
  induction k, hik using Nat.le_induction with
  | base =>
    have hi : i < calls.length := Nat.lt_of_succ_le (hkj.trans hj)
    obtain ⟨answer, -, hcalled⟩ := pullbackStateAt_called strategy hsymbol
      (List.getElem?_eq_getElem hi)
    obtain ⟨reading, setup, -, hsetup, hage, -⟩ := hcalled.arms harms.1 harms.2
    exact ⟨setup, hsetup, by omega⟩
  | succ k hik ih =>
    obtain ⟨setup, hsetup, hage⟩ := ih (Nat.le_of_succ_le hkj)
    have hk : k < calls.length := Nat.lt_of_succ_le (hkj.trans hj)
    have harmed := hsince k hik (Nat.le_of_succ_le hkj)
    obtain ⟨reading, hread⟩ := hcomplete k _ (List.getElem?_eq_getElem hk) harmed
    obtain ⟨answer, -, hcalled⟩ := pullbackStateAt_called strategy hsymbol
      (List.getElem?_eq_getElem hk)
    obtain ⟨-, hafter⟩ := hcalled.still_armed hread hsetup harmed
      (hsince (k + 1) (Nat.lt_succ_of_lt hik) hkj)
    refine ⟨setup.aged, hafter, ?_⟩
    simp only [PullbackSetup.aged]
    omega

theorem previousRsi_eq (strategy : StrategyIdentity)
    (hsymbol : ∀ call ∈ calls, call.candle.symbol = symbol) {n : ℕ}
    {call : EntryCall} {rsi : Decimal} (hcall : calls[n]? = some call)
    (hrsi : call.indicators.rsi = some rsi) :
    (pullbackStateAt strategy calls symbol (n + 1)).previousRsi = some rsi := by
  obtain ⟨answer, -, hcalled⟩ := pullbackStateAt_called strategy hsymbol hcall
  rw [hcalled.previousRsi, hrsi, Option.some_or]

/-- A pullback is confirmed within its window, if no call misses an indicator while a setup is armed. -/
theorem confirmed_in_window (hsymbol : ∀ call ∈ calls, call.candle.symbol = symbol)
    (hcomplete : MissesNothingArmed strategy calls symbol) {j : ℕ} {signal : Signal}
    (hsignal : (pullbackEntries strategy).answerAt calls j = some (.ok (some signal))) :
    ∃ i arming confirming, ArmsSetup strategy calls symbol i ∧
      ConfirmedPullback calls i j arming confirming := by
  obtain ⟨confirming, hconfirming, -⟩ := Callee.answerAt_eq_some_iff.mp hsignal
  have hj : j < calls.length := (List.getElem?_eq_some_iff.mp hconfirming).1
  obtain ⟨answer, hanswer, hcalled⟩ := pullbackStateAt_called strategy hsymbol
    hconfirming
  cases hanswer.symm.trans hsignal
  obtain ⟨harmed, setup, reading, hsetup, hread, hwithstands, hconfirmed⟩ := hcalled.signals
  obtain ⟨i, hi, hidle, hsince⟩ := Callee.exists_entry
    (Q := fun state : PullbackState => (state.symbolState symbol).phase = .pullbackArmed)
    (by rintro ⟨⟩) harmed
  have harms : ArmsSetup strategy calls symbol i := ⟨hidle, hsince (i + 1) (Nat.lt_succ_self i) hi⟩
  have hlt : i < calls.length := hi.trans hj
  have harming : calls[i]? = some calls[i] := List.getElem?_eq_getElem _
  obtain ⟨_, -, harmed_by⟩ := pullbackStateAt_called strategy hsymbol harming
  obtain ⟨first, _, hfirst, -, -, hregime, htrend⟩ := harmed_by.arms harms.1 harms.2
  obtain ⟨_, hheld, hage⟩ := setup_ages hsymbol hcomplete harms hj.le hsince hi le_rfl
  cases hsetup.symm.trans hheld
  obtain ⟨hcrossed, -⟩ : PullbackSymbolState.crossedUp (pullbackStateAt strategy calls symbol
      j).previousRsi reading.rsi = true ∧ _ := by
    rwa [PullbackSymbolState.confirmed, Bool.and_assoc, Bool.and_eq_true] at hconfirmed
  rw [PullbackSymbolState.crossedUp, Bool.and_eq_true, decide_eq_true_eq] at hcrossed
  obtain ⟨hbelow, habove⟩ := hcrossed
  have hlast : j - 1 < calls.length := by omega
  obtain ⟨before, hbefore⟩ : ∃ before, calls[j - 1].indicators.reading = some before := by
    by_cases hfirst_call : j - 1 = i
    · exact ⟨first, by simp only [hfirst_call, hfirst]⟩
    · exact hcomplete (j - 1) _ (List.getElem?_eq_getElem hlast)
        (hsince (j - 1) (by omega) (by omega))
  have hrsi := congrArg StrategyIndicators.rsi (reading_eq_some_iff.mp hbefore)
  have hprevious := previousRsi_eq strategy hsymbol (List.getElem?_eq_getElem hlast) hrsi
  rw [show j - 1 + 1 = j by omega] at hprevious
  rw [hprevious, Option.any_some, decide_eq_true_eq] at hbelow
  have hyoung := hwithstands.young
  rw [hage, setupTimeoutBars] at hyoung
  rw [reading_eq_some_iff] at hfirst
  refine ⟨i, _, confirming, harms, harming, hconfirming, by omega, by omega,
    ⟨_, before.rsi, List.getElem?_eq_getElem hlast, hrsi, hbelow⟩, ⟨reading.rsi, ?_, habove⟩, ?_, htrend,
    ?_, trendsUp_of_reading hread hwithstands.emas hwithstands.close⟩
  · rw [reading_eq_some_iff.mp hread]
  · rw [hfirst, ← hregime]
  · rw [reading_eq_some_iff.mp hread, ← hwithstands.regime]

/-- A setup ends with the twelfth candle after it at the latest, if no call misses an indicator while a
setup is armed. -/
theorem ended_in_window (hsymbol : ∀ call ∈ calls, call.candle.symbol = symbol)
    (hcomplete : MissesNothingArmed strategy calls symbol) {i : ℕ}
    (harms : ArmsSetup strategy calls symbol i) (hi : i + 12 < calls.length) :
    ∃ k, i < k ∧ k ≤ i + 12 ∧ (∀ m, i < m → m ≤ k → SetupArmed strategy calls symbol m) ∧
      (pullbackStateAt strategy calls symbol (k + 1)).phase = .idle := by
  by_contra hnever
  have harmed : ∀ k, i < k → k ≤ i + 13 →
      ∀ m, i < m → m ≤ k → SetupArmed strategy calls symbol m := by
    intro k hik
    induction k, hik using Nat.le_induction with
    | base =>
      intro _ m hm hmk
      rw [Nat.le_antisymm hmk hm]
      exact harms.2
    | succ k hik ih =>
      intro hk m hm hmk
      have hbefore := ih (by omega)
      rcases Nat.lt_succ_iff_lt_or_eq.mp (Nat.lt_succ_of_le hmk) with hlt | rfl
      · exact hbefore m hm (Nat.le_of_lt_succ hlt)
      · cases hphase : (pullbackStateAt strategy calls symbol (k + 1)).phase with
        | pullbackArmed => exact hphase
        | idle => exact absurd ⟨k, hik, by omega, hbefore, hphase⟩ hnever
  have hsince := harmed (i + 13) (by omega) le_rfl
  obtain ⟨setup, hsetup, hage⟩ := setup_ages hsymbol hcomplete harms hi hsince
    (show i < i + 12 by omega) (by omega)
  have hlast := hsince (i + 12) (by omega) (by omega)
  obtain ⟨reading, hread⟩ := hcomplete (i + 12) _ (List.getElem?_eq_getElem hi) hlast
  obtain ⟨_, -, hcalled⟩ := pullbackStateAt_called strategy hsymbol
    (List.getElem?_eq_getElem hi)
  obtain ⟨hwithstands, -⟩ := hcalled.still_armed hread hsetup hlast
    (hsince (i + 12 + 1) (by omega) le_rfl)
  have hyoung := hwithstands.young
  rw [hage, setupTimeoutBars] at hyoung
  omega

/-- The pullback confirmation obeys its window in every sequence of calls that misses no indicator while a
setup is armed. -/
theorem pullback_obeys_window (strategy : StrategyIdentity) {calls : List EntryCall} {symbol : String}
    (hsymbol : ∀ call ∈ calls, call.candle.symbol = symbol)
    (hcomplete : MissesNothingArmed strategy calls symbol) : ObeysWindow strategy calls symbol :=
  ⟨fun _ _ hsignal => confirmed_in_window hsymbol hcomplete hsignal,
    fun _ harms hi => ended_in_window hsymbol hcomplete harms hi⟩

end Sequence

/-! ### Candles without indicators -/

/-- A call on an hourly candle at 105 in an upward trend, with an RSI. -/
def pullbackCall (index : ℕ) (rsi : Decimal) : EntryCall :=
  flatCall {
    symbol := "BTCUSDT", openTime := index * hour, close := 105
    indicators := {
      ema20 := some 104, ema50 := some 102, ema200 := some 100, rsi := some rsi
      regime := some trendUp } }

/-- A call on an hourly candle whose indicators are missing. -/
def missingCall (index : ℕ) : EntryCall :=
  flatCall { symbol := "BTCUSDT", openTime := index * hour, close := 105, indicators := {} }

def pullbackIdentity : StrategyIdentity :=
  { name := "TrendDCA", newSignalId := fun timestamp => .uuid timestamp.toNat }

/-- A pullback, and its confirmation on the next candle. -/
def pullbackCalls : List EntryCall := [pullbackCall 0 44, pullbackCall 1 46]

theorem pullback_calls_obey : ObeysWindow pullbackIdentity pullbackCalls "BTCUSDT" := by
  refine pullback_obeys_window pullbackIdentity (by decide +kernel) fun n call hcall _ => ?_
  obtain _ | _ | n := n
  · cases hcall
    exact ⟨_, rfl⟩
  · cases hcall
    exact ⟨_, rfl⟩
  · cases hcall

/-- A pullback, the indicators missing for 13 candles, and a candle with an RSI above 45. -/
def starvedCalls : List EntryCall :=
  pullbackCall 0 44 :: (List.range 13).map (fun index => missingCall (index + 1)) ++
    [pullbackCall 14 46]

theorem starved_setup_stays : ¬∀ (strategy : StrategyIdentity) (calls : List EntryCall)
    (symbol : String), (∀ call ∈ calls, call.candle.symbol = symbol) →
    ObeysWindow strategy calls symbol := by
  intro h
  have hobeys := h pullbackIdentity starvedCalls "BTCUSDT" (by decide +kernel)
  have harmed : ∀ k < 14, ((pullbackStateAt pullbackIdentity starvedCalls "BTCUSDT" (k + 1)).phase =
      .pullbackArmed) := by decide +kernel
  obtain ⟨k, hk, hend, -, hidle⟩ := hobeys.ended 0
    ⟨by rintro ⟨⟩, harmed 0 (by decide)⟩ (by decide +kernel)
  cases (harmed k (by omega)).symm.trans hidle

end CryptoTrading
