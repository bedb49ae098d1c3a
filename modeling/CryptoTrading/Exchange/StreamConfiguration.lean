import CryptoTrading.Exchange.StreamSequence
import Mathlib.Tactic.Ring

/-! Configurations and restored boundaries with which the stream numbers hourly candles in the order
in which it reads them. -/

namespace CryptoTrading.BybitPaperMarketData

open Kit

/-- The boundary that a restore gives a configured symbol. -/
theorem restoreBoundary_get? {source : BybitPaperMarketData} (hnodup : source.symbols.Nodup)
    {sequence : ℤ} (hsequence : 0 < sequence) (timestamp : Datetime) (symbol : String)
    (h : symbol ∈ source.symbols) :
    (source.restoreBoundary sequence (some timestamp)).lastEmitted.get? symbol =
      some (if seconds timestamp * 10 + source.symbols.idxOf symbol ≤ sequence then timestamp
        else timestamp - hour) := by
  have hmem : (symbol, source.symbols.idxOf symbol) ∈ source.symbols.zipIdx :=
    List.mem_zipIdx_iff_getElem?.mpr (List.getElem?_idxOf h)
  have hfirst : (source.symbols.zipIdx.map Prod.fst).Nodup := by
    rwa [List.zipIdx_map_fst]
  rw [restoreBoundary, if_neg (not_le.mpr hsequence)]
  exact Dict.get?_foldl_set_of_mem Prod.fst (fun entry : String × ℕ =>
    if seconds timestamp * 10 + entry.2 ≤ sequence then timestamp else timestamp - hour) hfirst hmem
    source.lastEmitted

@[simp] theorem restoreBoundary_symbols (source : BybitPaperMarketData) (sequence : ℤ)
    (timestamp : Option Datetime) :
    (source.restoreBoundary sequence timestamp).symbols = source.symbols := by
  unfold restoreBoundary
  split
  · rfl
  · split <;> rfl

theorem restoreBoundary_complete {source : BybitPaperMarketData} (hnodup : source.symbols.Nodup)
    {sequence : ℤ} (hsequence : 0 < sequence) (timestamp : Datetime) :
    (source.restoreBoundary sequence (some timestamp)).Complete := by
  intro symbol hsymbol
  rw [restoreBoundary_symbols] at hsymbol
  rw [restoreBoundary_get? hnodup hsequence timestamp _ hsymbol, Option.isSome_some]

theorem Due.symbol_mem {source : BybitPaperMarketData} {polls : List Poll} {candle : Candle}
    (h : source.Due polls candle) : candle.symbol ∈ source.symbols := by
  obtain ⟨poll, -, hshown⟩ := h.seen
  unfold shown at hshown
  split at hshown
  · cases hshown
  · split at hshown
    · exact of_decide_eq_true (List.mem_filter.mp hshown).2
    · cases hshown

/-! ### Hourly candles in alphabetical order -/

theorem seconds_hours (k : ℤ) : seconds (hour * k) = 3600 * k := by
  rw [seconds, hour, show (3600000000 : ℤ) * k = 1000000 * (3600 * k) by ring]
  exact Int.mul_tdiv_cancel_left _ (by decide)

theorem idxOf_lt_idxOf {symbols : List String} (hsorted : symbols.Pairwise (· < ·)) {a b : String}
    (ha : a ∈ symbols) (hb : b ∈ symbols) (h : a < b) : symbols.idxOf a < symbols.idxOf b := by
  have hia := List.idxOf_lt_length_iff.mpr ha
  have hib := List.idxOf_lt_length_iff.mpr hb
  rcases lt_trichotomy (symbols.idxOf a) (symbols.idxOf b) with hlt | heq | hgt
  · exact hlt
  · exact absurd ((List.idxOf_inj ha).mp heq) (ne_of_lt h)
  · have hba := List.pairwise_iff_getElem.mp hsorted _ _ hib hia hgt
    rw [List.getElem_idxOf, List.getElem_idxOf] at hba
    exact absurd hba (lt_asymm h)

/-- Up to 36000 symbols in alphabetical order, hourly candles have numbers in the order of their
rows. -/
theorem sequence_lt_of_rowKey_lt {symbols : List String} (hsorted : symbols.Pairwise (· < ·))
    (hfew : symbols.length ≤ 36000) {a b : Candle} (ha : a.symbol ∈ symbols)
    (hb : b.symbol ∈ symbols) (hourA : hour ∣ a.openTime) (hourB : hour ∣ b.openTime)
    (h : rowKey a < rowKey b) : sequenceOf symbols a < sequenceOf symbols b := by
  obtain ⟨ka, hka⟩ := hourA
  obtain ⟨kb, hkb⟩ := hourB
  have hia := List.idxOf_lt_length_iff.mpr ha
  simp only [sequenceOf, hka, hkb, seconds_hours]
  rcases Prod.Lex.lt_iff.mp h with hlt | ⟨heq, hlt⟩
  · have hk : ka < kb := by
      have : hour * ka < hour * kb := hka ▸ hkb ▸ hlt
      simp only [hour] at this
      omega
    omega
  · have hk : ka = kb := by
      have : hour * ka = hour * kb := hka ▸ hkb ▸ heq
      simp only [hour] at this
      omega
    have hidx := idxOf_lt_idxOf hsorted ha hb hlt
    omega

/-- A configuration in alphabetical order, restored from the number of one of its hourly candles,
reads hourly candles in the order of their numbers, as long as none becomes visible after a later
row. -/
theorem inOrder_of_alphabetical {source : BybitPaperMarketData} {timestamp : Datetime} {index : ℕ}
    {polls : List Poll} (hsorted : source.symbols.Pairwise (· < ·))
    (hfew : source.symbols.length ≤ 36000) (hindex : index < source.symbols.length)
    (htimestamp : hour ∣ timestamp) (hsaved : 0 < seconds timestamp * 10 + index)
    (hhours : ∀ candle, (source.restoreBoundary (seconds timestamp * 10 + index)
      (some timestamp)).Seen polls candle → hour ∣ candle.openTime)
    (hintime : ∀ before poll after, polls = before ++ poll :: after → ∀ early late,
      (source.restoreBoundary (seconds timestamp * 10 + index) (some timestamp)).Due before early →
      (source.restoreBoundary (seconds timestamp * 10 + index) (some timestamp)).Due [poll] late →
      ¬(source.restoreBoundary (seconds timestamp * 10 + index) (some timestamp)).Due before late →
      rowKey early < rowKey late) :
    (source.restoreBoundary (seconds timestamp * 10 + index) (some timestamp)).InOrder
      (seconds timestamp * 10 + index) polls := by
  have hnodup : source.symbols.Nodup := hsorted.imp fun h => ne_of_lt h
  have hget := restoreBoundary_get? hnodup hsaved timestamp
  have hsymbols := restoreBoundary_symbols source (seconds timestamp * 10 + index) (some timestamp)
  generalize source.restoreBoundary (seconds timestamp * 10 + index) (some timestamp) = restored at *
  have hnumbers : ∀ a b, restored.Due polls a → restored.Due polls b → rowKey a < rowKey b →
      sequenceOf restored.symbols a < sequenceOf restored.symbols b := by
    intro a b ha hb
    rw [hsymbols]
    exact sequence_lt_of_rowKey_lt hsorted hfew (hsymbols ▸ ha.symbol_mem)
      (hsymbols ▸ hb.symbol_mem) (hhours a ha.seen) (hhours b hb.seen)
  have hbefore : ∀ {before poll after}, polls = before ++ poll :: after → before ⊆ polls :=
    fun h => h ▸ List.subset_append_left _ _
  have hpoll : ∀ {before poll after}, polls = before ++ poll :: after → [poll] ⊆ polls :=
    fun h => by simp [h]
  refine ⟨fun candle hdue => ?_, ?_, ?_⟩
  · have hmem : candle.symbol ∈ source.symbols := hsymbols ▸ hdue.symbol_mem
    have hbeyond := hdue.beyond _ (hget _ hmem)
    obtain ⟨kt, hkt⟩ := htimestamp
    obtain ⟨kc, hkc⟩ := hhours candle hdue.seen
    rw [hsymbols]
    simp only [sequenceOf, hkt, hkc, seconds_hours] at hbeyond ⊢
    split at hbeyond
    · have hlt : hour * kt < hour * kc := hbeyond
      simp only [hour] at hlt
      omega
    · have hlt : hour * kt - hour < hour * kc := hbeyond
      simp only [hour] at hlt
      omega
  · intro before poll after hpolls early late hearly hlate hnot
    exact hnumbers early late (hearly.mono (hbefore hpolls)) (hlate.mono (hpoll hpolls))
      (hintime before poll after hpolls early late hearly hlate hnot)
  · intro before poll after hpolls first second hfirst _ hsecond _ hlt
    exact hnumbers first second (hfirst.mono (hpoll hpolls)) (hsecond.mono (hpoll hpolls)) hlt

end CryptoTrading.BybitPaperMarketData
