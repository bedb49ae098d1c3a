import CryptoTrading.Exchange.BybitPaperMarketData
import Mathlib.Data.List.Induction
import Mathlib.Data.List.Pairwise

/-! In which order of arrival the stream numbers the candles increasingly and emits each of them
once. -/

namespace CryptoTrading.BybitPaperMarketData

open Kit

variable (source : BybitPaperMarketData)

/-- Every configured symbol has an emission boundary. -/
def Complete : Prop := ∀ symbol ∈ source.symbols, (source.lastEmitted.get? symbol).isSome = true

/-- The candles of the configured symbols that a poll shows a source that it finds ready. -/
def shown (poll : Poll) : List Candle :=
  match poll.stats with
  | none => []
  | some stats =>
    if source.isReady poll.boundary stats then
      (poll.visible.getD []).filter fun candle => decide (candle.symbol ∈ source.symbols)
    else []

/-- A candle shown by one of `polls`. -/
def Seen (polls : List Poll) (candle : Candle) : Prop := ∃ poll ∈ polls, candle ∈ source.shown poll

/-- A candle later than the boundary of its symbol at the start that one of `polls` shows. -/
structure Due (polls : List Poll) (candle : Candle) : Prop where
  seen : source.Seen polls candle
  beyond : ∀ first, source.lastEmitted.get? candle.symbol = some first → first < candle.openTime

/-- A poll shows each candle once: `dds.candle` has one row for each symbol and open time. -/
def Unique (polls : List Poll) : Prop := ∀ poll ∈ polls, ((source.shown poll).map rowKey).Nodup

/-- The sequences go up from `saved` on, and every candle due is emitted exactly once. -/
structure InSequence (saved : ℤ) (polls : List Poll) : Prop where
  increasing : (saved :: (source.stream polls).1.map MarketEvent.sequence).Pairwise (· < ·)
  once : ∀ candle, source.Due polls candle →
    ((source.stream polls).1.map MarketEvent.candle).count candle = 1

/-- The candles due arrive in the order of their numbers: beyond the saved one, poll after poll, and
within a poll in the order of its rows. -/
structure InOrder (saved : ℤ) (polls : List Poll) : Prop where
  beyondSaved : ∀ candle, source.Due polls candle → saved < sequenceOf source.symbols candle
  across : ∀ before poll after, polls = before ++ poll :: after → ∀ early late,
    source.Due before early → source.Due [poll] late → ¬source.Due before late →
    sequenceOf source.symbols early < sequenceOf source.symbols late
  within : ∀ before poll after, polls = before ++ poll :: after → ∀ first second,
    source.Due [poll] first → ¬source.Due before first →
    source.Due [poll] second → ¬source.Due before second → rowKey first < rowKey second →
    sequenceOf source.symbols first < sequenceOf source.symbols second

/-! ### One poll -/

variable {source}

/-- `other` differs from `source` in its boundaries only. -/
structure SameSettings (source other : BybitPaperMarketData) : Prop where
  symbols : other.symbols = source.symbols
  warmupCandles : other.warmupCandles = source.warmupCandles
  staleGrace : other.staleGrace = source.staleGrace

theorem SameSettings.shown {other : BybitPaperMarketData} (h : SameSettings source other)
    (poll : Poll) : other.shown poll = source.shown poll := by
  have hready : other.isReady = source.isReady := by
    funext boundary stats
    simp only [isReady, h.symbols, h.warmupCandles, h.staleGrace]
  cases hstats : poll.stats <;> simp [BybitPaperMarketData.shown, hstats, hready, h.symbols]

theorem SameSettings.bootstrap {other : BybitPaperMarketData} (h : SameSettings source other)
    (stats : Dict String SymbolStats) : SameSettings source (other.bootstrap stats) := by
  unfold BybitPaperMarketData.bootstrap
  split <;> exact ⟨h.symbols, h.warmupCandles, h.staleGrace⟩

/-- The boundaries of `current` have gone from those of `source` to the last candles shown. -/
def CoversSeen (source current : BybitPaperMarketData) (seen : Set Candle) : Prop :=
  Covers Candle.symbol Candle.openTime source.lastEmitted current.lastEmitted seen

theorem CoversSeen.bootstrap {current : BybitPaperMarketData} {seen : Set Candle}
    (h : CoversSeen source current seen) (stats : Dict String SymbolStats) :
    CoversSeen source (current.bootstrap stats) seen := by
  unfold BybitPaperMarketData.bootstrap
  split
  · rename_i hempty
    intro symbol first hfirst
    obtain ⟨mark, hmark, -⟩ := h symbol first hfirst
    simp [Dict.get?, hempty] at hmark
  · exact h

theorem openTime_lt_of_rowKey_lt {a b : Candle} (h : rowKey a < rowKey b) (hs : a.symbol = b.symbol) :
    a.openTime < b.openTime := by
  rcases Prod.Lex.lt_iff.mp h with hlt | ⟨-, hlt⟩
  · exact hlt
  · exact absurd hs (ne_of_lt hlt)

theorem bound_le {bound mark : Datetime} {symbol : String}
    (hbound : source.lastEmitted.values.min? = some bound)
    (hmark : source.lastEmitted.get? symbol = some mark) : bound ≤ mark :=
  (List.min?_eq_some_iff.mp hbound).2 mark (Dict.mem_values_iff.mpr ⟨symbol, hmark⟩)

theorem mem_newCandles {visible : List Candle} {candle : Candle} :
    candle ∈ source.newCandles visible ↔ candle ∈ visible ∧ candle.symbol ∈ source.symbols ∧
      ∀ bound, source.lastEmitted.values.min? = some bound → bound < candle.openTime := by
  simp only [newCandles, List.mem_insertionSort, List.mem_filter, Bool.and_eq_true,
    decide_eq_true_eq]
  cases source.lastEmitted.values.min? <;> simp

/-- The rows are strictly in their order. -/
theorem newCandles_pairwise {visible : List Candle}
    (h : ((visible.filter fun candle => decide (candle.symbol ∈ source.symbols)).map rowKey).Nodup) :
    (source.newCandles visible).Pairwise fun a b => rowKey a < rowKey b := by
  have hsorted : (source.newCandles visible).Pairwise fun a b => rowKey a ≤ rowKey b := by
    have : Std.Total fun a b : Candle => rowKey a ≤ rowKey b := ⟨fun a b => le_total _ _⟩
    have : IsTrans Candle fun a b => rowKey a ≤ rowKey b := ⟨fun _ _ _ => le_trans⟩
    exact List.pairwise_insertionSort _ _
  have hdistinct : ((source.newCandles visible).map rowKey).Nodup := by
    rw [newCandles, ((List.perm_insertionSort _ _).map rowKey).nodup_iff]
    refine h.sublist (List.Sublist.map rowKey (List.monotone_filter_right _ fun candle hc => ?_))
    exact (Bool.and_eq_true _ _ ▸ hc).1
  exact hsorted.imp₂ (fun _ _ hle hne => lt_of_le_of_ne hle hne) (List.pairwise_map.mp hdistinct)

/-- What one poll emits: the candles that it shows which are beyond the start of their symbol and
later than every candle of it seen before, in the order of the rows. -/
structure Emits (source : BybitPaperMarketData) (seen : Set Candle) (rows fresh : List Candle) :
    Prop where
  sorted : fresh.Pairwise fun a b => rowKey a < rowKey b
  mem_iff : ∀ candle, candle ∈ fresh ↔ candle ∈ rows ∧
    (∀ first, source.lastEmitted.get? candle.symbol = some first → first < candle.openTime) ∧
    ∀ other ∈ seen, other.symbol = candle.symbol → other.openTime < candle.openTime

theorem CoversSeen.emit {current : BybitPaperMarketData} {seen : Set Candle}
    (hcovers : CoversSeen source current seen) (hsame : SameSettings source current)
    (hcomplete : source.Complete) {visible rows : List Candle}
    (hrows : rows = visible.filter fun candle => decide (candle.symbol ∈ source.symbols))
    (hunique : (rows.map rowKey).Nodup) :
    ∃ fresh, (current.emit visible).1 = fresh.map (eventOf source.symbols) ∧
      Emits source seen rows fresh ∧
      CoversSeen source (current.emit visible).2 (seen ∪ {candle | candle ∈ rows}) := by
  have hmem : ∀ candle, candle ∈ rows ↔ candle ∈ visible ∧ candle.symbol ∈ source.symbols := by
    simp [hrows]
  have hsorted : (current.newCandles visible).Pairwise fun a b => rowKey a < rowKey b :=
    newCandles_pairwise (by rwa [hsame.symbols, ← hrows])
  have hthrough := letThrough_eq_filter current.lastEmitted
    (hsorted.imp fun {a b} h hs => openTime_lt_of_rowKey_lt h hs)
  refine ⟨_, by rw [BybitPaperMarketData.emit, hsame.symbols], ⟨?_, fun candle => ?_⟩, ?_⟩
  · rw [hthrough]
    exact hsorted.sublist List.filter_sublist
  · rw [hthrough, List.mem_filter, mem_newCandles, hmem, hsame.symbols]
    constructor
    · rintro ⟨⟨hvisible, hsymbol, -⟩, hdue⟩
      obtain ⟨first, hfirst⟩ := Option.isSome_iff_exists.mp (hcomplete _ hsymbol)
      obtain ⟨hbeyond, hothers⟩ := (hcovers.due_iff hfirst).mp hdue
      refine ⟨⟨hvisible, hsymbol⟩, fun other hother => ?_, hothers⟩
      rw [hfirst] at hother
      cases hother
      exact hbeyond
    · rintro ⟨⟨hvisible, hsymbol⟩, hbeyond, hothers⟩
      obtain ⟨first, hfirst⟩ := Option.isSome_iff_exists.mp (hcomplete _ hsymbol)
      have hdue := (hcovers.due_iff hfirst).mpr ⟨hbeyond first hfirst, hothers⟩
      obtain ⟨mark, hmark, -⟩ := hcovers _ _ hfirst
      exact ⟨⟨hvisible, hsymbol, fun bound hbound =>
        (bound_le hbound hmark).trans_lt ((Kit.due_iff hmark).mp hdue)⟩, hdue⟩
  · -- Rows that the query leaves out open no later than the earliest boundary.
    have hleft := hcovers.see {candle | candle ∈ rows ∧ candle ∉ current.newCandles visible} (by
      rintro candle ⟨hrow, hnot⟩ mark hmark
      obtain ⟨hvisible, hsymbol⟩ := (hmem candle).mp hrow
      rw [mem_newCandles, hsame.symbols] at hnot
      push Not at hnot
      obtain ⟨bound, hbound, hle⟩ := hnot hvisible hsymbol
      exact hle.trans (bound_le hbound hmark))
    have hall := hleft.letThrough (current.newCandles visible)
    have hset : seen ∪ {candle | candle ∈ rows ∧ candle ∉ current.newCandles visible} ∪
        {candle | candle ∈ current.newCandles visible} = seen ∪ {candle | candle ∈ rows} := by
      ext candle
      have hin : candle ∈ current.newCandles visible → candle ∈ rows := by
        rw [mem_newCandles, hmem, hsame.symbols]
        exact fun h => ⟨h.1, h.2.1⟩
      simp only [Set.mem_union, Set.mem_ofPred_eq]
      tauto
    rw [hset] at hall
    exact hall

/-! ### Many polls -/

theorem stream_append (first rest : List Poll) (source : BybitPaperMarketData) :
    source.stream (first ++ rest) =
      ((source.stream first).1 ++ ((source.stream first).2.stream rest).1,
        ((source.stream first).2.stream rest).2) := by
  induction first generalizing source with
  | nil => rfl
  | cons poll first ih => simp [stream, ih, List.append_assoc]

/-- What a poll emits after others, and what the boundaries cover then. -/
theorem CoversSeen.poll {current : BybitPaperMarketData} {seen : Set Candle}
    (hcovers : CoversSeen source current seen) (hsame : SameSettings source current)
    (hcomplete : source.Complete) (poll : Poll) (hunique : ((source.shown poll).map rowKey).Nodup) :
    ∃ fresh, (current.poll poll).1 = fresh.map (eventOf source.symbols) ∧
      Emits source seen (source.shown poll) fresh ∧ SameSettings source (current.poll poll).2 ∧
      CoversSeen source (current.poll poll).2 (seen ∪ {candle | candle ∈ source.shown poll}) := by
  have silent : ∀ started, CoversSeen source started seen → SameSettings source started →
      source.shown poll = [] → current.poll poll = ([], started) → ∃ fresh,
        (current.poll poll).1 = fresh.map (eventOf source.symbols) ∧
          Emits source seen (source.shown poll) fresh ∧ SameSettings source (current.poll poll).2 ∧
          CoversSeen source (current.poll poll).2 (seen ∪ {candle | candle ∈ source.shown poll}) := by
    intro started hstarted hsettings hshown hpoll
    rw [hpoll, hshown]
    exact ⟨[], rfl, ⟨.nil, by simp⟩, hsettings, by simpa using hstarted⟩
  have hready : current.isReady = source.isReady := by
    funext boundary stats
    simp only [isReady, hsame.symbols, hsame.warmupCandles, hsame.staleGrace]
  cases hstats : poll.stats with
  | none =>
    exact silent current hcovers hsame (by simp [shown, hstats])
      (by simp [BybitPaperMarketData.poll, hstats])
  | some stats =>
    have hstarted : CoversSeen source (current.bootstrap stats) seen := hcovers.bootstrap stats
    have hsettings : SameSettings source (current.bootstrap stats) := hsame.bootstrap stats
    cases hr : source.isReady poll.boundary stats with
    | false =>
      exact silent _ hstarted hsettings (by simp [shown, hstats, hr])
        (by simp [BybitPaperMarketData.poll, hstats, hready, hr])
    | true =>
      cases hvisible : poll.visible with
      | none =>
        exact silent _ hstarted hsettings (by simp [shown, hstats, hr, hvisible])
          (by simp [BybitPaperMarketData.poll, hstats, hready, hr, hvisible])
      | some visible =>
        have hpoll : current.poll poll = (current.bootstrap stats).emit visible := by
          simp [BybitPaperMarketData.poll, hstats, hready, hr, hvisible]
        have hshown : source.shown poll =
            visible.filter fun candle => decide (candle.symbol ∈ source.symbols) := by
          simp [shown, hstats, hr, hvisible]
        obtain ⟨fresh, hevents, hemits, hnext⟩ :=
          hstarted.emit hsettings hcomplete hshown hunique
        rw [hpoll]
        exact ⟨fresh, hevents, hemits, ⟨hsettings.symbols, hsettings.warmupCandles,
          hsettings.staleGrace⟩, hnext⟩

/-- After any polls the boundaries cover what they showed. -/
theorem stream_covers (hcomplete : source.Complete) (polls : List Poll)
    (hunique : source.Unique polls) : SameSettings source (source.stream polls).2 ∧
      CoversSeen source (source.stream polls).2 {candle | source.Seen polls candle} := by
  induction polls using List.reverseRecOn with
  | nil =>
    refine ⟨⟨rfl, rfl, rfl⟩, ?_⟩
    have hempty : {candle | source.Seen [] candle} = (∅ : Set Candle) := by
      ext candle
      simp [Seen]
    rw [hempty]
    exact Covers.refl _
  | append_singleton passed poll ih =>
    obtain ⟨hsame, hcovers⟩ := ih fun p hp => hunique p (List.mem_append_left _ hp)
    obtain ⟨fresh, -, -, hnextSame, hnext⟩ := hcovers.poll hsame hcomplete poll
      (hunique poll (List.mem_append_right _ List.mem_cons_self))
    have hset : {candle | source.Seen (passed ++ [poll]) candle} =
        {candle | source.Seen passed candle} ∪ {candle | candle ∈ source.shown poll} := by
      ext candle
      simp [Seen, or_and_right, exists_or]
    rw [stream_append, hset]
    exact ⟨hnextSame, hnext⟩

/-- The candles emitted by a poll after others: those due now and later than every candle of their
symbol that was due before. -/
theorem stream_snoc (hcomplete : source.Complete) {passed : List Poll} {poll : Poll}
    (hunique : source.Unique (passed ++ [poll])) :
    ∃ fresh : List Candle, (source.stream (passed ++ [poll])).1 =
        (source.stream passed).1 ++ fresh.map (eventOf source.symbols) ∧
      (fresh.Pairwise fun a b => rowKey a < rowKey b) ∧
      ∀ candle, candle ∈ fresh ↔ source.Due [poll] candle ∧ ∀ other, source.Due passed other →
        other.symbol = candle.symbol → other.openTime < candle.openTime := by
  obtain ⟨hsame, hcovers⟩ := stream_covers hcomplete passed
    fun p hp => hunique p (List.mem_append_left _ hp)
  obtain ⟨fresh, hevents, ⟨hsorted, hmem⟩, -⟩ := hcovers.poll hsame hcomplete poll
    (hunique poll (List.mem_append_right _ List.mem_cons_self))
  refine ⟨fresh, by rw [stream_append]; simp [stream, hevents], hsorted, fun candle => ?_⟩
  rw [hmem]
  constructor
  · rintro ⟨hshown, hbeyond, hothers⟩
    exact ⟨⟨⟨poll, List.mem_cons_self, hshown⟩, hbeyond⟩,
      fun other hdue hs => hothers other hdue.seen hs⟩
  · rintro ⟨⟨⟨p, hp, hshown⟩, hbeyond⟩, hothers⟩
    rw [List.mem_singleton.mp hp] at hshown
    refine ⟨hshown, hbeyond, fun other hseen hs => ?_⟩
    by_cases hdue : source.Due passed other
    · exact hothers other hdue hs
    · -- A candle not due is not later than the start of its symbol.
      have hnot : ¬∀ first, source.lastEmitted.get? other.symbol = some first →
          first < other.openTime := fun h => hdue ⟨hseen, h⟩
      push Not at hnot
      obtain ⟨first, hfirst, hle⟩ := hnot
      exact hle.trans_lt (hbeyond first (hs ▸ hfirst))

/-! ### The candles emitted -/

theorem Due.mono {polls more : List Poll} (hsub : polls ⊆ more) {candle : Candle}
    (h : source.Due polls candle) : source.Due more candle :=
  ⟨h.seen.imp fun _ hp => ⟨hsub hp.1, hp.2⟩, h.beyond⟩

theorem due_append {passed : List Poll} {poll : Poll} {candle : Candle} :
    source.Due (passed ++ [poll]) candle ↔ source.Due passed candle ∨ source.Due [poll] candle := by
  constructor
  · rintro ⟨⟨p, hp, hshown⟩, hbeyond⟩
    exact (List.mem_append.mp hp).imp (fun h => ⟨⟨p, h, hshown⟩, hbeyond⟩)
      fun h => ⟨⟨p, h, hshown⟩, hbeyond⟩
  · rintro (h | h)
    · exact h.mono (List.subset_append_left _ _)
    · exact h.mono (List.subset_append_right _ _)

/-- The candles of the events of a stream. -/
def emitted (source : BybitPaperMarketData) (polls : List Poll) : List Candle :=
  (source.stream polls).1.map MarketEvent.candle

theorem emitted_snoc (hcomplete : source.Complete) {passed : List Poll} {poll : Poll}
    (hunique : source.Unique (passed ++ [poll])) :
    ∃ fresh : List Candle, source.emitted (passed ++ [poll]) = source.emitted passed ++ fresh ∧
      (fresh.Pairwise fun a b => rowKey a < rowKey b) ∧
      ∀ candle, candle ∈ fresh ↔ source.Due [poll] candle ∧ ∀ other, source.Due passed other →
        other.symbol = candle.symbol → other.openTime < candle.openTime := by
  obtain ⟨fresh, hevents, hfresh⟩ := stream_snoc hcomplete hunique
  refine ⟨fresh, ?_, hfresh⟩
  simp [emitted, hevents, Function.comp_def, eventOf]

theorem unique_of_passed {passed polls : List Poll} (h : source.Unique polls)
    (hpassed : passed <+: polls) : source.Unique passed :=
  fun poll hp => h poll (hpassed.subset hp)

theorem sequences_eq (hcomplete : source.Complete) {polls : List Poll}
    (hunique : source.Unique polls) : (source.stream polls).1.map MarketEvent.sequence =
      (source.emitted polls).map (sequenceOf source.symbols) := by
  induction polls using List.reverseRecOn with
  | nil => rfl
  | append_singleton passed poll ih =>
    obtain ⟨fresh, hevents, -⟩ := stream_snoc hcomplete hunique
    have hpassed := ih (unique_of_passed hunique (List.prefix_append _ _))
    simp only [emitted, hevents, List.map_append, hpassed, List.map_map]
    rfl

theorem due_of_emitted (hcomplete : source.Complete) {polls : List Poll}
    (hunique : source.Unique polls) {candle : Candle} (h : candle ∈ source.emitted polls) :
    source.Due polls candle := by
  induction polls using List.reverseRecOn with
  | nil => cases h
  | append_singleton passed poll ih =>
    obtain ⟨fresh, hemitted, -, hmem⟩ := emitted_snoc hcomplete hunique
    rw [hemitted, List.mem_append] at h
    rw [due_append]
    exact h.imp (ih (unique_of_passed hunique (List.prefix_append _ _))) fun hf =>
      ((hmem candle).mp hf).1

theorem not_due_of_fresh {passed : List Poll} {candle : Candle}
    (h : ∀ other, source.Due passed other → other.symbol = candle.symbol →
      other.openTime < candle.openTime) : ¬source.Due passed candle :=
  fun hdue => lt_irrefl _ (h candle hdue rfl)

theorem seconds_mono {a b : Datetime} (h : a ≤ b) : seconds a ≤ seconds b :=
  Int.tdiv_le_tdiv (by decide) h

theorem openTime_lt_of_sequence_lt {symbols : List String} {a b : Candle}
    (hs : a.symbol = b.symbol) (h : sequenceOf symbols a < sequenceOf symbols b) :
    a.openTime < b.openTime := by
  by_contra hnot
  have := seconds_mono (not_lt.mp hnot)
  simp only [sequenceOf, hs] at h
  omega

/-- The sequences go up, and no candle due is missing. -/
theorem inSequence_iff (hcomplete : source.Complete) {saved : ℤ} {polls : List Poll}
    (hunique : source.Unique polls) : source.InSequence saved polls ↔
      (saved :: (source.emitted polls).map (sequenceOf source.symbols)).Pairwise (· < ·) ∧
        ∀ candle, source.Due polls candle → candle ∈ source.emitted polls := by
  constructor
  · rintro ⟨hincreasing, honce⟩
    rw [sequences_eq hcomplete hunique] at hincreasing
    exact ⟨hincreasing, fun candle hdue => List.one_le_count_iff.mp (honce candle hdue).ge⟩
  · rintro ⟨hincreasing, hmem⟩
    have hnodup : (source.emitted polls).Nodup :=
      ((List.pairwise_cons.mp hincreasing).2.imp fun h => ne_of_lt h).of_map _
        fun _ _ hne heq => hne (congrArg _ heq)
    refine ⟨by rwa [sequences_eq hcomplete hunique], fun candle hdue => ?_⟩
    exact List.count_eq_one_of_mem hnodup (hmem candle hdue)

/-- In the order of arrival, the candles due are emitted with sequences that go up. -/
theorem inSequence_of_inOrder (hcomplete : source.Complete) {saved : ℤ} {polls passed : List Poll}
    (hunique : source.Unique polls) (horder : source.InOrder saved polls)
    (hpassed : passed <+: polls) : source.InSequence saved passed := by
  rw [inSequence_iff hcomplete (unique_of_passed hunique hpassed)]
  induction passed using List.reverseRecOn with
  | nil => exact ⟨List.pairwise_singleton _ _, fun candle hdue => by
      obtain ⟨⟨_, hp, _⟩, _⟩ := hdue; cases hp⟩
  | append_singleton passed poll ih =>
    obtain ⟨after, hsplit⟩ := hpassed
    have hpolls : polls = passed ++ poll :: after := by simp [← hsplit]
    have hshort : passed <+: polls := ⟨poll :: after, hpolls.symm⟩
    obtain ⟨hincreasing, hcompleteSoFar⟩ := ih hshort
    obtain ⟨fresh, hemitted, hsorted, hmem⟩ := emitted_snoc hcomplete
      (unique_of_passed hunique ⟨after, hsplit⟩)
    have hnew : ∀ candle ∈ fresh, source.Due [poll] candle ∧ ¬source.Due passed candle :=
      fun candle hc => ⟨((hmem candle).mp hc).1, not_due_of_fresh ((hmem candle).mp hc).2⟩
    obtain ⟨hbeyond, hpairs⟩ := List.pairwise_cons.mp hincreasing
    rw [hemitted, List.map_append]
    refine ⟨List.pairwise_cons.mpr ⟨?_, List.pairwise_append.mpr ⟨hpairs, ?_, ?_⟩⟩, ?_⟩
    · intro number hnumber
      rcases List.mem_append.mp hnumber with h | h
      · exact hbeyond number h
      · obtain ⟨candle, hc, rfl⟩ := List.mem_map.mp h
        exact horder.beyondSaved candle ((hnew candle hc).1.mono (by simp [hpolls]))
    · refine List.pairwise_map.mpr (hsorted.imp_of_mem fun {a b} ha hb hlt => ?_)
      exact horder.within passed poll after hpolls a b (hnew a ha).1 (hnew a ha).2 (hnew b hb).1
        (hnew b hb).2 hlt
    · intro early hearly late hlate
      obtain ⟨a, ha, rfl⟩ := List.mem_map.mp hearly
      obtain ⟨b, hb, rfl⟩ := List.mem_map.mp hlate
      exact horder.across passed poll after hpolls a b
        (due_of_emitted hcomplete (unique_of_passed hunique hshort) ha) (hnew b hb).1 (hnew b hb).2
    · intro candle hdue
      rw [List.mem_append]
      by_cases hold : source.Due passed candle
      · exact Or.inl (hcompleteSoFar candle hold)
      · have hnow := (due_append.mp hdue).resolve_left hold
        refine Or.inr ((hmem candle).mpr ⟨hnow, fun other hother hs => ?_⟩)
        exact openTime_lt_of_sequence_lt hs
          (horder.across passed poll after hpolls other candle hother hnow hold)

/-- Sequences that go up throughout the polls show the order in which the candles arrived. -/
theorem inOrder_of_inSequence (hcomplete : source.Complete) {saved : ℤ} {polls : List Poll}
    (hunique : source.Unique polls)
    (h : ∀ passed, passed <+: polls → source.InSequence saved passed) :
    source.InOrder saved polls := by
  have hall := (inSequence_iff hcomplete hunique).mp (h polls List.prefix_rfl)
  -- The candles that a poll adds, with the numbers of all emitted so far going up.
  have step : ∀ before poll after, polls = before ++ poll :: after →
      ∃ fresh : List Candle, (∀ candle, source.Due before candle → candle ∈ source.emitted before) ∧
        (∀ candle, source.Due [poll] candle → ¬source.Due before candle → candle ∈ fresh) ∧
        (fresh.Pairwise fun a b => rowKey a < rowKey b) ∧
        ((source.emitted before ++ fresh).map (sequenceOf source.symbols)).Pairwise (· < ·) := by
    intro before poll after hpolls
    have hlong : before ++ [poll] <+: polls := ⟨after, by simp [hpolls]⟩
    have hshort : before <+: polls := ⟨poll :: after, hpolls.symm⟩
    obtain ⟨-, hbefore⟩ :=
      (inSequence_iff hcomplete (unique_of_passed hunique hshort)).mp (h before hshort)
    obtain ⟨hincreasing, hnow⟩ :=
      (inSequence_iff hcomplete (unique_of_passed hunique hlong)).mp (h _ hlong)
    obtain ⟨fresh, hemitted, hsorted, -⟩ :=
      emitted_snoc hcomplete (unique_of_passed hunique hlong)
    rw [hemitted] at hincreasing hnow
    refine ⟨fresh, hbefore, fun candle hdue hnot => ?_, hsorted, (List.pairwise_cons.mp hincreasing).2⟩
    have hmem := hnow candle (hdue.mono (List.subset_append_right _ _))
    exact (List.mem_append.mp hmem).resolve_left fun hold =>
      hnot (due_of_emitted hcomplete (unique_of_passed hunique hshort) hold)
  refine ⟨fun candle hdue => ?_, ?_, ?_⟩
  · exact (List.pairwise_cons.mp hall.1).1 _ (List.mem_map_of_mem (hall.2 candle hdue))
  · intro before poll after hpolls early late hearly hlate hnot
    obtain ⟨fresh, hbefore, hnew, -, hpairs⟩ := step before poll after hpolls
    rw [List.map_append, List.pairwise_append] at hpairs
    exact hpairs.2.2 _ (List.mem_map_of_mem (hbefore early hearly)) _
      (List.mem_map_of_mem (hnew late hlate hnot))
  · intro before poll after hpolls first second hfirst hnotFirst hsecond hnotSecond hlt
    obtain ⟨fresh, -, hnew, hsorted, hpairs⟩ := step before poll after hpolls
    rw [List.map_append, List.pairwise_append, List.pairwise_map, List.pairwise_map] at hpairs
    have hboth := hsorted.and hpairs.2.1
    have hsymm : fresh.Pairwise fun a b =>
        (rowKey a < rowKey b → sequenceOf source.symbols a < sequenceOf source.symbols b) ∧
          (rowKey b < rowKey a → sequenceOf source.symbols b < sequenceOf source.symbols a) :=
      hboth.imp fun hab => ⟨fun _ => hab.2, fun hba => absurd hab.1 (lt_asymm hba)⟩
    have : Std.Symm fun a b =>
        (rowKey a < rowKey b → sequenceOf source.symbols a < sequenceOf source.symbols b) ∧
          (rowKey b < rowKey a → sequenceOf source.symbols b < sequenceOf source.symbols a) :=
      ⟨fun _ _ hab => ⟨hab.2, hab.1⟩⟩
    have hne : first ≠ second := fun heq => lt_irrefl _ (heq ▸ hlt)
    exact (hsymm.forall (hnew first hfirst hnotFirst) (hnew second hsecond hnotSecond) hne).1 hlt

/-- A configuration out of alphabetical order, restored after the last candle of 01:00. -/
def unsorted : BybitPaperMarketData :=
  ({ symbols := ["ETHUSDT", "BTCUSDT"], warmupCandles := 200, staleGrace := 600000000 } :
    BybitPaperMarketData).restoreBoundary 36001 (some hour)

/-- A poll just after 03:00 that shows the candles of 02:00. -/
def nextHour : Poll where
  boundary := 3 * hour
  stats := some (Dict.ofItems id (fun _ => ⟨250, 2 * hour, 3 * hour, 0, 0⟩) ["BTCUSDT", "ETHUSDT"])
  visible := some
    [⟨"BTCUSDT", 2 * hour, 3 * hour, 100, 100, 100, 100, 1⟩,
      ⟨"ETHUSDT", 2 * hour, 3 * hour, 10, 10, 10, 10, 1⟩]

end CryptoTrading.BybitPaperMarketData
