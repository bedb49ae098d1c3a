import CryptoTrading.Strategies.EntryCalls
import CryptoTrading.Strategies.ResistanceWindow

/-! The entries of Breakout Retest.  A signal is the retest of a breakout that an earlier call has armed,
and that every call since has left armed. -/

namespace CryptoTrading

open Kit

/-! ### What a call does -/

/-- A breakout that a call does not cancel: no position is open, the regime is not down, and the time is
not up. -/
structure Breakout.Withstands (breakout : Breakout) (call : EntryCall) : Prop where
  flat : call.entry.hasPosition = false
  notDown : call.indicators.regime ≠ some trendDown
  young : breakout.barsSinceBreakout + 1 < retestTimeoutBars

/-- The breakout after a call that leaves it armed. -/
def Breakout.aged (breakout : Breakout) : Breakout :=
  { breakout with barsSinceBreakout := breakout.barsSinceBreakout + 1 }

namespace BreakoutSymbolState

/-- A call on an armed breakout cancels it, leaves it armed, or finds that its level holds. -/
inductive Retested (symbolState : BreakoutSymbolState) (call : EntryCall) (breakout : Breakout) :
    BreakoutSymbolState × Option Breakout → Prop
  | cancelled : Retested symbolState call breakout (symbolState.clearBreakout, none)
  | waits (withstands : breakout.Withstands call) :
      Retested symbolState call breakout ({ symbolState with breakout := some breakout.aged }, none)
  | holds (withstands : breakout.Withstands call) (trendsUp : call.TrendsUp)
      (low : call.candle.lowPrice ≤ breakout.breakoutLevel)
      (close : breakout.breakoutLevel ≤ call.candle.close) :
      Retested symbolState call breakout (symbolState.clearBreakout, some breakout.aged)

/-- A call without a breakout arms one at the resistance, or none. -/
inductive BrokeOut (symbolState : BreakoutSymbolState) (call : EntryCall)
    (priorResistance : Option Decimal) : BreakoutSymbolState → Prop
  | idle : BrokeOut symbolState call priorResistance symbolState
  | armed {resistance : Decimal} (known : priorResistance = some resistance)
      (flat : call.entry.hasPosition = false) (notDown : call.indicators.regime ≠ some trendDown)
      (trendsUp : call.TrendsUp) (breaksOut : resistance < call.candle.close) :
      BrokeOut symbolState call priorResistance { symbolState with
        phase := .breakoutArmed
        breakout := some ⟨call.candle.openTime, resistance, call.candle.close, 0⟩ }

theorem retest_retested (symbolState : BreakoutSymbolState) (call : EntryCall)
    (breakout : Breakout) : symbolState.Retested call breakout
      (symbolState.retest call.candle call.indicators breakout call.entry.hasPosition) := by
  unfold retest
  simp only
  split
  · exact .cancelled
  rename_i hflat
  split
  · exact .cancelled
  rename_i hregime
  split
  · exact .cancelled
  rename_i hyoung
  have hwithstands : breakout.Withstands call :=
    ⟨Bool.not_eq_true _ ▸ hflat, hregime, not_le.mp hyoung⟩
  split
  · rename_i ema50 ema200 regime hema50 hema200 _
    split
    · exact .cancelled
    rename_i htrend
    rw [not_or, not_le, not_le] at htrend
    split
    · exact .waits hwithstands
    split
    · rename_i hlevel
      exact .holds hwithstands ⟨ema50, ema200, hema50, hema200, htrend.2, htrend.1⟩ hlevel.1 hlevel.2
    · exact .waits hwithstands
  · exact .waits hwithstands

theorem breakOut_brokeOut (symbolState : BreakoutSymbolState) (call : EntryCall)
    (priorResistance : Option Decimal) : symbolState.BrokeOut call priorResistance
      (symbolState.breakOut call.candle call.indicators priorResistance call.entry.hasPosition) := by
  unfold breakOut
  split
  · exact .idle
  rename_i hflat
  split
  · rename_i resistance ema50 ema200 regime hema50 hema200 hregime
    split
    · exact .idle
    rename_i hclose
    split
    · exact .idle
    rename_i hemas
    split
    · exact .idle
    rename_i hdown
    split
    · exact .idle
    split
    · exact .idle
    rename_i hbreaks
    refine .armed rfl (Bool.not_eq_true _ ▸ hflat) ?_ ?_ (not_le.mp hbreaks)
    · rw [hregime]
      exact fun h => hdown (Option.some.inj h)
    · exact ⟨ema50, ema200, hema50, hema200, not_le.mp hemas, not_le.mp hclose⟩
  · exact .idle

/-- What a call that raises leaves: the candle is observed, and the breakout aged. -/
def raisedAt (symbolState : BreakoutSymbolState) (candle : BacktestCandle StrategyIndicators) :
    BreakoutSymbolState :=
  let observed := (symbolState.observeCandle candle).2
  { observed with breakout := observed.breakout.map Breakout.aged }

end BreakoutSymbolState

/-- The calls of `BreakoutRetestStrategy.should_enter`, from a new strategy on. -/
def breakoutRetestEntries (strategy : StrategyIdentity) :
    Callee BreakoutRetestState EntryCall (Except BacktestError (Option Signal)) :=
  (breakoutRetestStrategy strategy).entries {} fun state call =>
    state.withSymbolState call.candle.symbol
      ((state.symbolState call.candle.symbol).raisedAt call.candle)

/-- What a call does to the state of its symbol, and what it answers. -/
inductive BreakoutSymbolState.Called (symbolState : BreakoutSymbolState) (call : EntryCall) :
    BreakoutSymbolState → Except BacktestError (Option Signal) → Prop
  | broken {after : BreakoutSymbolState} (idle : symbolState.phase = .idle)
      (brokeOut : (symbolState.observeCandle call.candle).2.BrokeOut call
        (symbolState.observeCandle call.candle).1 after) :
      Called symbolState call after (.ok none)
  | retested {breakout : Breakout} {after : BreakoutSymbolState}
      (armed : symbolState.phase = .breakoutArmed) (held : symbolState.breakout = some breakout)
      (retested : (symbolState.observeCandle call.candle).2.Retested call breakout (after, none)) :
      Called symbolState call after (.ok none)
  | bought {breakout bought : Breakout} {after : BreakoutSymbolState} {signal : Signal}
      (armed : symbolState.phase = .breakoutArmed) (held : symbolState.breakout = some breakout)
      (retested : (symbolState.observeCandle call.candle).2.Retested call breakout
        (after, some bought)) :
      Called symbolState call after (.ok (some signal))
  | raised {breakout bought : Breakout} {cleared : BreakoutSymbolState} {error : BacktestError}
      (armed : symbolState.phase = .breakoutArmed) (held : symbolState.breakout = some breakout)
      (retested : (symbolState.observeCandle call.candle).2.Retested call breakout
        (cleared, some bought)) :
      Called symbolState call (symbolState.raisedAt call.candle) (.error error)
  | malformed {error : BacktestError} (armed : symbolState.phase = .breakoutArmed)
      (missing : symbolState.breakout = none) :
      Called symbolState call (symbolState.raisedAt call.candle) (.error error)

theorem BreakoutSymbolState.observeCandle_phase (symbolState : BreakoutSymbolState)
    (candle : BacktestCandle StrategyIndicators) :
    (symbolState.observeCandle candle).2.phase = symbolState.phase ∧
      (symbolState.observeCandle candle).2.breakout = symbolState.breakout := by
  unfold observeCandle
  split
  · exact ⟨rfl, rfl⟩
  · exact ⟨rfl, rfl⟩

section Calls

variable (strategy : StrategyIdentity)

theorem breakoutRetestEntries_called (state : BreakoutRetestState) (call : EntryCall) :
    (state.symbolState call.candle.symbol).Called call
      (((breakoutRetestEntries strategy).after state call).symbolState call.candle.symbol)
      ((breakoutRetestEntries strategy).answer state call) := by
  obtain ⟨hphase, hbreakout⟩ :=
    (state.symbolState call.candle.symbol).observeCandle_phase call.candle
  have hretested := fun breakout => ((state.symbolState call.candle.symbol).observeCandle
    call.candle).2.retest_retested call breakout
  simp only [breakoutRetestEntries, SignalStrategy.entries, breakoutRetestStrategy,
    BreakoutRetestState.shouldEnter, BreakoutSymbolState.advance, hphase, hbreakout]
  cases hown : (state.symbolState call.candle.symbol).phase with
  | idle =>
    simp only [bind, Except.bind, pure, Except.pure, Except.toOption, Option.elim_some, Except.map,
      BreakoutRetestState.symbolState_withSymbolState]
    exact .broken hown (BreakoutSymbolState.breakOut_brokeOut _ call _)
  | breakoutArmed =>
    cases hheld : (state.symbolState call.candle.symbol).breakout with
    | none =>
      simp only [bind, Except.bind, Except.toOption, Option.elim_none, Except.map,
        BreakoutRetestState.symbolState_withSymbolState]
      exact .malformed hown hheld
    | some breakout =>
      simp only [bind, Except.bind]
      have hcalled := hretested breakout
      generalize ((state.symbolState call.candle.symbol).observeCandle call.candle).2.retest
        call.candle call.indicators breakout call.entry.hasPosition = outcome at hcalled ⊢
      obtain ⟨after, _ | bought⟩ := outcome
      · simp only [pure, Except.pure, Except.toOption, Option.elim_some, Except.map,
          BreakoutRetestState.symbolState_withSymbolState]
        exact .retested hown hheld hcalled
      · dsimp only
        cases strategy.baseOrder call.candle call.indicators call.entry.capital
            "Breakout retest held" { breakoutLevel := some bought.breakoutLevel } with
        | error error =>
          simp only [Except.toOption, Option.elim_none, Except.map,
            BreakoutRetestState.symbolState_withSymbolState]
          exact .raised hown hheld hcalled
        | ok signal =>
          simp only [pure, Except.pure, Except.toOption, Option.elim_some, Except.map,
            BreakoutRetestState.symbolState_withSymbolState]
          exact .bought hown hheld hcalled

end Calls

namespace BreakoutSymbolState.Called

variable {symbolState after : BreakoutSymbolState} {call : EntryCall}
  {answer : Except BacktestError (Option Signal)}

/-- Every call observes its candle. -/
theorem window (h : symbolState.Called call after answer) :
    after.window = (symbolState.observeCandle call.candle).2.window := by
  cases h with
  | broken _ brokeOut =>
    cases brokeOut with
    | idle => rfl
    | armed _ _ _ _ _ => rfl
  | retested _ _ retested =>
    cases retested with
    | cancelled => rfl
    | waits _ => rfl
  | bought _ _ retested =>
    cases retested with
    | holds _ _ _ _ => rfl
  | raised _ _ _ => rfl
  | malformed _ _ => rfl

/-- A breakout that is still armed after a call has withstood it, and there is no signal. -/
theorem still_armed {breakout : Breakout} (h : symbolState.Called call after answer)
    (hheld : symbolState.breakout = some breakout) (harmed : symbolState.phase = .breakoutArmed)
    (hafter : after.phase = .breakoutArmed) :
    breakout.Withstands call ∧ after.breakout = some breakout.aged ∧
      ∀ signal, answer ≠ .ok (some signal) := by
  cases h with
  | broken idle _ => cases idle.symm.trans harmed
  | retested _ held retested =>
    cases hheld.symm.trans held
    cases retested with
    | cancelled => cases hafter
    | waits withstands => exact ⟨withstands, rfl, fun _ => by rintro ⟨⟩⟩
  | bought _ _ retested =>
    cases retested with
    | holds _ _ _ _ => cases hafter
  | raised _ held retested =>
    cases hheld.symm.trans held
    cases retested with
    | holds withstands _ _ _ =>
      refine ⟨withstands, ?_, fun _ => by rintro ⟨⟩⟩
      simp only [raisedAt, (symbolState.observeCandle_phase call.candle).2, hheld, Option.map_some]
  | malformed _ missing => cases hheld.symm.trans missing

/-- A breakout that was not armed before a call is armed by it, at the resistance. -/
theorem arms (h : symbolState.Called call after answer) (hidle : symbolState.phase ≠ .breakoutArmed)
    (harmed : after.phase = .breakoutArmed) : ∃ resistance,
      (symbolState.observeCandle call.candle).1 = some resistance ∧
      call.entry.hasPosition = false ∧ call.indicators.regime ≠ some trendDown ∧ call.TrendsUp ∧
      resistance < call.candle.close ∧ answer = .ok none ∧
      after.breakout = some ⟨call.candle.openTime, resistance, call.candle.close, 0⟩ := by
  cases h with
  | broken idle brokeOut =>
    cases brokeOut with
    | idle =>
      rw [(symbolState.observeCandle_phase call.candle).1] at harmed
      exact absurd harmed hidle
    | armed known flat notDown trendsUp breaksOut =>
      exact ⟨_, known, flat, notDown, trendsUp, breaksOut, rfl, rfl⟩
  | retested armed _ _ => exact absurd armed hidle
  | bought armed _ _ => exact absurd armed hidle
  | raised armed _ _ => exact absurd armed hidle
  | malformed armed _ => exact absurd armed hidle

theorem signals {signal : Signal} (h : symbolState.Called call after (.ok (some signal))) :
    symbolState.phase = .breakoutArmed ∧ ∃ breakout, symbolState.breakout = some breakout ∧
      breakout.Withstands call ∧ call.TrendsUp ∧
      call.candle.lowPrice ≤ breakout.breakoutLevel ∧ breakout.breakoutLevel ≤ call.candle.close := by
  obtain _ | _ | ⟨armed, held, retested⟩ := h
  cases retested with
  | holds withstands trendsUp low close => exact ⟨armed, _, held, withstands, trendsUp, low, close⟩

end BreakoutSymbolState.Called

/-! ### The sequence of calls -/

/-- The highest of the highs of the 20 calls before call `i`. -/
def resistanceBefore (calls : List EntryCall) (i : ℕ) : Option Decimal :=
  (((calls.take i).drop (i - resistanceLookbackBars)).map fun call => call.candle.highPrice).max?

/-- Call `i` arms the breakout of `level` that call `j` buys. -/
structure ArmedEntry (strategy : StrategyIdentity) (calls : List EntryCall) (i j : ℕ)
    (arming entering : EntryCall) (level : Decimal) : Prop where
  armed : calls[i]? = some arming
  entered : calls[j]? = some entering
  later : 1 ≤ j - i
  inTime : j - i ≤ 23
  preceded : resistanceLookbackBars ≤ i
  resistance : resistanceBefore calls i = some level
  breaksOut : level < arming.candle.close
  touched : entering.candle.lowPrice ≤ level
  held : level ≤ entering.candle.close
  undisturbed : ∀ k call, i ≤ k → k ≤ j → calls[k]? = some call →
    call.indicators.regime ≠ some trendDown ∧ call.entry.hasPosition = false
  armingTrend : arming.TrendsUp
  enteringTrend : entering.TrendsUp
  first : ∀ k, i ≤ k → k < j → ∀ signal,
    (breakoutRetestEntries strategy).answerAt calls k ≠ some (.ok (some signal))

section Sequence

variable {strategy : StrategyIdentity} {calls : List EntryCall} {symbol : String}

/-- The state of the symbol before call `n`. -/
def retestStateAt (strategy : StrategyIdentity) (calls : List EntryCall) (symbol : String) (n : ℕ) :
    BreakoutSymbolState :=
  ((breakoutRetestEntries strategy).stateAt calls n).symbolState symbol

theorem retestStateAt_called (strategy : StrategyIdentity)
    (hsymbol : ∀ call ∈ calls, call.candle.symbol = symbol) {n : ℕ}
    {call : EntryCall} (hcall : calls[n]? = some call) :
    ∃ answer, (breakoutRetestEntries strategy).answerAt calls n = some answer ∧
      (retestStateAt strategy calls symbol n).Called call
        (retestStateAt strategy calls symbol (n + 1)) answer := by
  obtain rfl := hsymbol call (List.mem_of_getElem? hcall)
  refine ⟨_, Callee.answerAt_eq_some_iff.mpr ⟨call, hcall, rfl⟩, ?_⟩
  rw [retestStateAt, retestStateAt, Callee.stateAt_succ hcall]
  exact breakoutRetestEntries_called strategy _ call

/-- The highs that are kept are those of the last calls, and the last candle that was observed is that
of an earlier call. -/
structure ObservesCalls (calls : List EntryCall) (n : ℕ) (symbolState : BreakoutSymbolState) : Prop where
  highs : symbolState.recentHighs =
    ((calls.take n).map fun call => call.candle.highPrice).rtake resistanceLookbackBars
  observed : ∀ timestamp, symbolState.lastObservedTime = some timestamp →
    ∃ earlier < n, ∃ call, calls[earlier]? = some call ∧ call.candle.openTime = timestamp

theorem ObservesCalls.not_observed {n : ℕ} {call : EntryCall} {symbolState : BreakoutSymbolState}
    (h : ObservesCalls calls n symbolState)
    (hordered : calls.Pairwise fun earlier later => earlier.candle.openTime < later.candle.openTime)
    (hcall : calls[n]? = some call) :
    symbolState.lastObservedTime ≠ some call.candle.openTime := by
  intro hlast
  obtain ⟨earlier, hlt, other, hother, htime⟩ := h.observed _ hlast
  obtain ⟨hearlier, rfl⟩ := List.getElem?_eq_some_iff.mp hother
  obtain ⟨hn, rfl⟩ := List.getElem?_eq_some_iff.mp hcall
  have hlater := List.pairwise_iff_getElem.mp hordered earlier n hearlier hn hlt
  rw [htime] at hlater
  exact lt_irrefl _ hlater

theorem rtake_concat_rtake {α : Type} (items : List α) (last : α) (count : ℕ) :
    (items.rtake count ++ [last]).rtake count = (items ++ [last]).rtake count := by
  cases count with
  | zero => simp
  | succ count =>
    rw [List.rtake_concat_succ, List.rtake_concat_succ]
    congr 1
    simp only [List.rtake_eq_reverse_take_reverse, List.reverse_reverse, List.take_take]
    rw [Nat.min_eq_left (Nat.le_succ count)]

theorem observesCalls (hsymbol : ∀ call ∈ calls, call.candle.symbol = symbol)
    (hordered : calls.Pairwise fun earlier later => earlier.candle.openTime < later.candle.openTime)
    {n : ℕ} (hn : n ≤ calls.length) :
    ObservesCalls calls n (retestStateAt strategy calls symbol n) := by
  induction n with
  | zero => exact ⟨rfl, fun timestamp hlast => by cases hlast⟩
  | succ n ih =>
    have hcall : calls[n]? = some calls[n] := List.getElem?_eq_getElem hn
    have hbefore := ih (Nat.le_of_succ_le hn)
    obtain ⟨answer, -, hcalled⟩ := retestStateAt_called strategy hsymbol hcall
    have hwindow := hcalled.window
    have hnew := hbefore.not_observed hordered hcall
    refine ⟨?_, fun timestamp hlast => ?_⟩
    · rw [List.take_add_one, hcall, Option.toList_some, List.map_append, List.map_singleton,
        ← rtake_concat_rtake, ← hbefore.highs, ← (BreakoutSymbolState.observeCandle_new hnew).2]
      exact congrArg Prod.fst hwindow
    · have htime := (congrArg Prod.snd hwindow).symm.trans hlast
      rw [BreakoutSymbolState.window, BreakoutSymbolState.observeCandle_lastObservedTime] at htime
      exact ⟨n, Nat.lt_succ_self n, _, hcall, Option.some.inj htime⟩

/-- The resistance of a call is that of the calls before. -/
theorem ObservesCalls.resistance {n : ℕ} {call : EntryCall} {symbolState : BreakoutSymbolState}
    {resistance : Decimal} (h : ObservesCalls calls n symbolState)
    (hordered : calls.Pairwise fun earlier later => earlier.candle.openTime < later.candle.openTime)
    (hcall : calls[n]? = some call)
    (hresistance : (symbolState.observeCandle call.candle).1 = some resistance) :
    resistanceLookbackBars ≤ n ∧ resistanceBefore calls n = some resistance := by
  have hn : n ≤ calls.length := (List.getElem?_eq_some_iff.mp hcall).1.le
  rw [(BreakoutSymbolState.observeCandle_new (h.not_observed hordered hcall)).1, h.highs] at hresistance
  split at hresistance
  · rename_i hlength
    simp only [List.rtake, List.length_drop, List.length_map, List.length_take,
      Nat.min_eq_left hn] at hlength hresistance
    have hpreceded : resistanceLookbackBars ≤ n := by omega
    refine ⟨hpreceded, ?_⟩
    rw [Nat.sub_sub_self hpreceded, Nat.sub_self, List.drop_zero] at hresistance
    rw [resistanceBefore, List.map_drop, hresistance]
  · cases hresistance

/-- A breakout that has been armed since call `i` is that of call `i`, and ages with every call. -/
theorem armed_since (hsymbol : ∀ call ∈ calls, call.candle.symbol = symbol) {i j : ℕ}
    {breakout : Breakout}
    (harmed : (retestStateAt strategy calls symbol (i + 1)).breakout = some breakout)
    (hsince : ∀ k, i < k → k ≤ j →
      (retestStateAt strategy calls symbol k).phase = .breakoutArmed) (hj : j ≤ calls.length) {k : ℕ}
    (hik : i < k) (hkj : k ≤ j) :
    (retestStateAt strategy calls symbol k).breakout =
        some { breakout with barsSinceBreakout := breakout.barsSinceBreakout + (k - (i + 1)) } ∧
      ∀ m call, i < m → m < k → calls[m]? = some call →
        call.indicators.regime ≠ some trendDown ∧ call.entry.hasPosition = false ∧
        ∀ signal, (breakoutRetestEntries strategy).answerAt calls m ≠ some (.ok (some signal)) := by
  induction k, hik using Nat.le_induction with
  | base =>
    refine ⟨?_, fun m call hm hmk _ => by omega⟩
    rw [Nat.succ_eq_add_one, harmed, Nat.sub_self, Nat.add_zero]
  | succ k hik ih =>
    obtain ⟨hheld, hbefore⟩ := ih (Nat.le_of_succ_le hkj)
    have hlt : k < calls.length := Nat.lt_of_succ_le (hkj.trans hj)
    obtain ⟨answer, hanswer, hcalled⟩ := retestStateAt_called strategy hsymbol
      (List.getElem?_eq_getElem hlt)
    obtain ⟨hwithstands, hafter, hnone⟩ := hcalled.still_armed hheld
      (hsince k hik (Nat.le_of_succ_le hkj)) (hsince (k + 1) (Nat.lt_succ_of_lt hik) hkj)
    refine ⟨?_, fun m call hm hmk hcall => ?_⟩
    · rw [hafter, Breakout.aged]
      congr 2
      simp only
      omega
    · rcases Nat.lt_succ_iff_lt_or_eq.mp hmk with hmk | rfl
      · exact hbefore m call hm hmk hcall
      · rw [List.getElem?_eq_getElem hlt] at hcall
        cases hcall
        refine ⟨hwithstands.notDown, hwithstands.flat, fun signal hsignal => ?_⟩
        exact hnone signal (Option.some.inj (hanswer.symm.trans hsignal))

/-- The entries of Breakout Retest are sound. -/
theorem breakout_retest_entries_sound (strategy : StrategyIdentity) {calls : List EntryCall}
    {symbol : String} (hsymbol : ∀ call ∈ calls, call.candle.symbol = symbol)
    (hordered : calls.Pairwise fun earlier later => earlier.candle.openTime < later.candle.openTime)
    {j : ℕ} {signal : Signal}
    (hsignal : (breakoutRetestEntries strategy).answerAt calls j = some (.ok (some signal))) :
    ∃ i arming entering level, ArmedEntry strategy calls i j arming entering level := by
  obtain ⟨entering, hentering, -⟩ := Callee.answerAt_eq_some_iff.mp hsignal
  have hj : j < calls.length := (List.getElem?_eq_some_iff.mp hentering).1
  obtain ⟨answer, hanswer, hentered⟩ := retestStateAt_called strategy hsymbol hentering
  cases hanswer.symm.trans hsignal
  obtain ⟨harmed, breakout, hbreakout, hwithstands, hentrend, htouched, hheld⟩ := hentered.signals
  obtain ⟨i, hi, hidle, hsince⟩ := Callee.exists_entry
    (Q := fun state : BreakoutRetestState => (state.symbolState symbol).phase = .breakoutArmed)
    (by rintro ⟨⟩) harmed
  have hlt : i < calls.length := hi.trans hj
  have harming : calls[i]? = some calls[i] := List.getElem?_eq_getElem _
  obtain ⟨answer, hnothing, harms⟩ := retestStateAt_called strategy hsymbol harming
  obtain ⟨level, hlevel, hflat, hnotDown, htrend, hbreaks, rfl, hnew⟩ :=
    harms.arms hidle (hsince (i + 1) (Nat.lt_succ_self i) hi)
  obtain ⟨hpreceded, hresistance⟩ :=
    (observesCalls hsymbol hordered (hi.trans hj).le).resistance hordered harming hlevel
  obtain ⟨haged, hbetween⟩ := armed_since hsymbol hnew hsince hj.le hi le_rfl
  cases hbreakout.symm.trans haged
  refine ⟨i, calls[i], entering, level, harming, hentering, by omega, ?_, hpreceded,
    hresistance, hbreaks, htouched, hheld, fun k call hik hkj hcall => ?_, htrend, hentrend,
    fun k hik hkj other => ?_⟩
  · have hyoung := hwithstands.young
    simp only [retestTimeoutBars] at hyoung
    omega
  · rcases Nat.eq_or_lt_of_le hik with rfl | hik
    · cases harming.symm.trans hcall
      exact ⟨hnotDown, hflat⟩
    rcases Nat.eq_or_lt_of_le hkj with rfl | hkj
    · cases hentering.symm.trans hcall
      exact ⟨hwithstands.notDown, hwithstands.flat⟩
    · obtain ⟨hregime, hposition, -⟩ := hbetween k call hik hkj hcall
      exact ⟨hregime, hposition⟩
  · rcases Nat.eq_or_lt_of_le hik with rfl | hik
    · rw [hnothing]
      rintro ⟨⟩
    · exact (hbetween k _ hik hkj (List.getElem?_eq_getElem (hkj.trans hj))).2.2 other

end Sequence

/-- A breakout over 100, and its retest two hours later. -/
def retestCalls : List EntryCall :=
  (List.range 20).map (fun index => flatCall (rangeCandle index 100 99 100)) ++
    [flatCall (rangeCandle 20 101 100 101), flatCall (rangeCandle 21 102 101 102),
      flatCall (rangeCandle 22 102 99 101)]

theorem retest_calls_sound : ∃ i arming entering level,
    ArmedEntry retestIdentity retestCalls i 22 arming entering level := by
  have hsome : (((breakoutRetestEntries retestIdentity).answerAt retestCalls 22).any fun answer =>
      answer.toOption.any Option.isSome) = true := by decide +kernel
  obtain ⟨signal, hsignal⟩ := SignalStrategy.exists_signal hsome
  have hsymbol : ∀ call ∈ retestCalls, call.candle.symbol = "BTCUSDT" := by decide +kernel
  exact breakout_retest_entries_sound retestIdentity hsymbol (by decide +kernel) hsignal

end CryptoTrading
