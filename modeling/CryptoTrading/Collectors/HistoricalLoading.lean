import CryptoTrading.Collectors.CandleCollector
import CryptoTrading.Kit.Fallible
import CryptoTrading.Kit.Run

/-! What a call of the collector stores, whatever the exchange answers: each page starts where the one
before it ended, so that the candles of the call are all the boundaries of its range. -/

namespace CryptoTrading

open Kit

/-! ### A page -/

/-- The candles of a page that is stored: boundaries without a gap, from its start on. -/
structure IsPage (duration : ℤ) (start bound : Datetime) (candles : List ExchangeCandle) : Prop where
  nonempty : candles ≠ []
  times : candles.map (·.openTime) = progression start duration candles.length
  below : ∀ candle ∈ candles, candle.openTime < bound

theorem validateBatch_ok {candles : List ExchangeCandle} {duration : ℤ} {start : Datetime}
    (h : validateBatch candles duration start = .ok ()) :
    candles.map (·.openTime) = progression start duration candles.length := by
  unfold validateBatch at h
  dsimp only at h
  split at h
  · cases h
  split at h
  · cases h
  split at h
  · cases h
  rename_i hsteps
  rw [← List.length_map (f := fun candle : ExchangeCandle => candle.openTime)]
  apply eq_progression
  · intro pair hpair
    by_contra hne
    exact hsteps (List.any_eq_true.mpr ⟨pair, hpair, decide_eq_true hne⟩)
  · intro first hfirst
    split at h
    · cases h
    · rename_i head rest htimes
      rw [htimes] at hfirst
      cases hfirst
      split at h
      · cases h
      · rename_i heq
        exact not_not.mp heq

/-- A progression passes the validation. -/
theorem validateBatch_of_times {candles : List ExchangeCandle} {duration : ℤ} {start : Datetime}
    (hduration : 0 < duration) (hnonempty : candles ≠ [])
    (htimes : candles.map (·.openTime) = progression start duration candles.length) :
    validateBatch candles duration start = .ok () := by
  obtain ⟨count, hcount⟩ := Nat.exists_eq_succ_of_ne_zero (mt List.length_eq_zero_iff.mp hnonempty)
  have hdifference : ∀ pair ∈ (progression start duration (count + 1)).zip
      (progression start duration (count + 1)).tail, pair.2 - pair.1 = duration :=
    fun pair hpair => sub_eq_of_mem_zip_tail hpair
  unfold validateBatch
  dsimp only
  rw [htimes, hcount, if_neg (not_not.mpr (nodup_progression hduration)), if_neg, if_neg]
  · rw [progression_succ]
    exact if_neg (not_not.mpr rfl)
  · rw [List.any_eq_true]
    rintro ⟨pair, hpair, hne⟩
    exact of_decide_eq_true hne (hdifference pair hpair)
  · rw [List.any_eq_true]
    rintro ⟨pair, hpair, hle⟩
    have hstep := hdifference pair hpair
    have hle := of_decide_eq_true hle
    linarith

namespace HistoryLoad

variable {call : HistoryLoad} {environment : LoadEnvironment} {duration : ℤ} {start : Datetime}
  {candles answer : List ExchangeCandle} {state final : Collection} {n fuel : ℕ}
  {result : Except LoadError ℕ} {error : LoadError}

theorem accept_ok (h : call.accept duration start answer = .ok candles) :
    IsPage duration start call.endDate candles := by
  unfold accept at h
  dsimp only at h
  split at h
  · cases h
  rename_i hsome
  obtain ⟨⟨⟩, hvalid, h⟩ := bind_eq_ok_iff.mp h
  cases h
  refine ⟨?_, validateBatch_ok hvalid, ?_⟩
  · intro hnil
    rw [← List.length_eq_zero_iff, List.length_insertionSort, List.length_eq_zero_iff] at hnil
    exact hsome (List.isEmpty_iff.mpr hnil)
  · intro candle hcandle
    rw [List.mem_insertionSort] at hcandle
    exact of_decide_eq_true (List.mem_filter.mp hcandle).2

theorem mem_of_accept (h : call.accept duration start answer = .ok candles) {candle : ExchangeCandle}
    (hcandle : candle ∈ candles) : candle ∈ answer := by
  unfold accept at h
  dsimp only at h
  split at h
  · cases h
  obtain ⟨⟨⟩, -, h⟩ := bind_eq_ok_iff.mp h
  cases h
  rw [List.mem_insertionSort] at hcandle
  exact List.mem_of_mem_filter hcandle

theorem fetch_ok_iff : call.fetch environment duration n start = .ok candles ↔
    ∃ answer, environment.getCandles n (call.request duration start) = .ok answer ∧
      call.accept duration start answer = .ok candles ∧ environment.failure n = none := by
  unfold fetch
  rw [bind_eq_ok_iff]
  constructor
  · rintro ⟨answer, hanswer, h⟩
    obtain ⟨accepted, haccept, h⟩ := bind_eq_ok_iff.mp h
    cases hget : environment.getCandles n (call.request duration start) with
    | error message =>
      rw [hget] at hanswer
      cases hanswer
    | ok _ =>
      rw [hget] at hanswer
      cases hanswer
      split at h
      · cases h
      · rename_i hnone
        cases h
        exact ⟨answer, rfl, haccept, hnone⟩
  · rintro ⟨answer, hget, haccept, hnone⟩
    refine ⟨answer, by rw [hget]; rfl, bind_eq_ok_iff.mpr ⟨candles, haccept, ?_⟩⟩
    rw [hnone]
    rfl

theorem fetch_ok (h : call.fetch environment duration n start = .ok candles) :
    IsPage duration start call.endDate candles :=
  accept_ok (fetch_ok_iff.mp h).choose_spec.2.1

end HistoryLoad

theorem IsPage.next {duration : ℤ} {start bound : Datetime} {candles : List ExchangeCandle}
    (h : IsPage duration start bound candles) (hduration : 0 < duration) :
    HistoryLoad.maxOpenTime start candles + duration = start + candles.length * duration := by
  obtain ⟨count, hcount⟩ := Nat.exists_eq_succ_of_ne_zero (mt List.length_eq_zero_iff.mp h.nonempty)
  rw [HistoryLoad.maxOpenTime, h.times, hcount, max?_progression hduration]
  simp only [Option.getD_some, Nat.succ_eq_add_one, Nat.cast_add, Nat.cast_one]
  ring

namespace HistoryLoad

variable {call : HistoryLoad} {environment : LoadEnvironment} {duration : ℤ} {start : Datetime}
  {candles answer : List ExchangeCandle} {state final : Collection} {n fuel : ℕ}
  {result : Except LoadError ℕ} {error : LoadError}

/-- The state in which a page is awaited. -/
def asked (call : HistoryLoad) (duration : ℤ) (start : Datetime) (state : Collection) : Collection :=
  { state with requests := state.requests ++ [call.request duration start] }

/-- The loop stores a page, and goes on where that ends. -/
def PageStep (call : HistoryLoad) (environment : LoadEnvironment) (duration : ℤ)
    (before : Datetime × Collection) (candles : List ExchangeCandle) (after : Datetime × Collection) :
    Prop :=
  before.1 < call.endDate ∧
    call.fetch environment duration before.2.requests.length before.1 = .ok candles ∧
    after = (before.1 + candles.length * duration,
      call.save before.1 candles (call.asked duration before.1 before.2))

/-- How the loop ends there: the range is passed, or a page raises. -/
inductive LoopEnds (call : HistoryLoad) (environment : LoadEnvironment) (duration : ℤ) :
    Datetime × Collection → Except LoadError ℕ → Collection → Prop
  | passed {start : Datetime} {state : Collection} (hpassed : call.endDate ≤ start) :
      LoopEnds call environment duration (start, state) (.ok state.totalLoaded) state
  | raised {start : Datetime} {state : Collection} {error : LoadError} (hlt : start < call.endDate)
      (hfetch : call.fetch environment duration state.requests.length start = .error error) :
      LoopEnds call environment duration (start, state) (.error error) (call.asked duration start state)

/-- A loop that ends stores pages until it does. -/
theorem run_of_loadFrom (hduration : 0 < duration)
    (h : call.loadFrom environment duration fuel start state = some (result, final)) :
    ∃ pages last, Run (call.PageStep environment duration) (start, state) pages last ∧
      LoopEnds call environment duration last result final := by
  induction fuel generalizing start state with
  | zero => cases h
  | succ fuel ih =>
    rw [loadFrom] at h
    split at h
    · rename_i hlt
      dsimp only at h
      cases hfetch : call.fetch environment duration state.requests.length start with
      | error error =>
        simp only [hfetch] at h
        cases h
        exact ⟨[], _, .nil _, .raised hlt hfetch⟩
      | ok candles =>
        simp only [hfetch] at h
        rw [(fetch_ok hfetch).next hduration] at h
        obtain ⟨pages, last, hrun, hends⟩ := ih h
        exact ⟨candles :: pages, last, .cons ⟨hlt, hfetch, rfl⟩ hrun, hends⟩
    · rename_i hge
      cases h
      exact ⟨[], _, .nil _, .passed (not_lt.mp hge)⟩

/-! ### The loop ends -/

theorem loadFrom_succ (h : call.loadFrom environment duration fuel start state = some (result, final)) :
    call.loadFrom environment duration (fuel + 1) start state = some (result, final) := by
  induction fuel generalizing start state with
  | zero => cases h
  | succ fuel ih =>
    rw [loadFrom] at h ⊢
    split at h
    · rename_i hlt
      rw [if_pos hlt]
      dsimp only at h ⊢
      cases hfetch : call.fetch environment duration state.requests.length start with
      | error error => simpa only [hfetch] using h
      | ok candles =>
        simp only [hfetch] at h
        exact ih h
    · rename_i hge
      rwa [if_neg hge]

theorem loadFrom_mono {more : ℕ} (hle : fuel ≤ more)
    (h : call.loadFrom environment duration fuel start state = some (result, final)) :
    call.loadFrom environment duration more start state = some (result, final) := by
  induction hle with
  | refl => exact h
  | step _ ih => exact loadFrom_succ ih

/-- Every page takes the loop nearer to the end of the range. -/
theorem exists_loadFrom (hduration : 0 < duration) (hfuel : (call.endDate - start).toNat < fuel) :
    ∃ outcome, call.loadFrom environment duration fuel start state = some outcome := by
  induction fuel generalizing start state with
  | zero => exact absurd hfuel (Nat.not_lt_zero _)
  | succ fuel ih =>
    rw [loadFrom]
    split
    · rename_i hlt
      dsimp only
      split
      · exact ⟨_, rfl⟩
      · rename_i candles hfetch
        have hpage := fetch_ok hfetch
        rw [hpage.next hduration]
        apply ih
        have hlength : 1 ≤ (candles.length : ℤ) := by
          exact_mod_cast List.length_pos_iff.mpr hpage.nonempty
        have hadvance : duration ≤ candles.length * duration := le_mul_of_one_le_left hduration.le hlength
        have hnearer : (call.endDate - (start + candles.length * duration)).toNat <
            (call.endDate - start).toNat :=
          (Int.toNat_lt_toNat (by linarith)).mpr (by linarith)
        omega
    · exact ⟨_, rfl⟩

/-! ### What is stored -/

/-- A call on its way, from the first boundary of its range and the table that it found: what it stored
are the boundaries up to where it is. -/
structure Progress (call : HistoryLoad) (duration : ℤ) (first : Datetime)
    (table : Dict CandleKey ExchangeCandle) (at_ : Datetime × Collection) : Prop where
  times : at_.2.stored.map (·.openTime) = progression first duration at_.2.stored.length
  next : at_.1 = first + at_.2.stored.length * duration
  below : ∀ candle ∈ at_.2.stored, candle.openTime < call.endDate
  table : at_.2.store.candles = table.insertAll ExchangeCandle.key at_.2.stored

theorem storeCandles_fst (table : Dict CandleKey ExchangeCandle) (candles : List ExchangeCandle) :
    (storeCandles table candles).1 = table.insertAll ExchangeCandle.key candles := by
  unfold storeCandles
  exact (List.foldl_hom Prod.fst fun _ _ => rfl).symm

theorem Progress.step {first : Datetime} {table : Dict CandleKey ExchangeCandle}
    {before after : Datetime × Collection} (h : Progress call duration first table before)
    (hstep : call.PageStep environment duration before candles after) :
    Progress call duration first table after := by
  obtain ⟨-, hfetch, rfl⟩ := hstep
  have hpage := fetch_ok hfetch
  refine ⟨?_, ?_, ?_, ?_⟩
  · show (before.2.stored ++ candles).map _ = progression _ _ (before.2.stored ++ candles).length
    rw [List.map_append, h.times, hpage.times, h.next, List.length_append, progression_append]
  · show before.1 + _ = first + ((before.2.stored ++ candles).length : ℤ) * duration
    rw [h.next, List.length_append]
    push_cast
    ring
  · intro candle hcandle
    rcases List.mem_append.mp hcandle with hold | hnew
    · exact h.below candle hold
    · exact hpage.below candle hnew
  · show (storeCandles before.2.store.candles candles).1 = table.insertAll _ (before.2.stored ++ candles)
    rw [storeCandles_fst, h.table, Dict.insertAll_append]

theorem Progress.run {first : Datetime} {table : Dict CandleKey ExchangeCandle}
    {before after : Datetime × Collection} {pages : List (List ExchangeCandle)}
    (h : Progress call duration first table before)
    (hrun : Run (call.PageStep environment duration) before pages after) :
    Progress call duration first table after :=
  hrun.invariant (P := fun _ => Progress call duration first table) h
    fun _ _ _ _ hbefore hstep => hbefore.step hstep

/-- What the loop leaves when it has passed the range. -/
theorem stored_of_loadFrom {store : RawStore} {total : ℕ} (hduration : 0 < duration)
    (h : call.loadFrom environment duration fuel start { store } = some (.ok total, final)) :
    (final.stored.map (·.openTime)).Nodup ∧
      (∀ t, t ∈ final.stored.map (·.openTime) ↔ ∃ k : ℕ, t = start + k * duration ∧ t < call.endDate) ∧
      final.store.candles = store.candles.insertAll ExchangeCandle.key final.stored := by
  obtain ⟨pages, last, hrun, hends⟩ := run_of_loadFrom hduration h
  have hstart : Progress call duration start store.candles (start, { store }) :=
    ⟨rfl, by simp, fun candle hcandle => absurd hcandle List.not_mem_nil, rfl⟩
  have hlast := hstart.run hrun
  cases hends with
  | passed hpassed =>
    have htimes := hlast.times
    have hnext := hlast.next
    simp only at htimes hnext
    refine ⟨?_, ?_, hlast.table⟩
    · rw [htimes]
      exact nodup_progression hduration
    · intro t
      rw [htimes]
      apply mem_progression_iff_lt hduration
      · intro t ht
        rw [← htimes] at ht
        obtain ⟨candle, hcandle, rfl⟩ := List.mem_map.mp ht
        exact hlast.below candle hcandle
      · rw [← hnext]
        exact hpassed

end HistoryLoad

/-! ### An exchange that answers every request -/

/-- What an exchange lists of a stream: one candle at most for each boundary, the newest first. -/
structure Listing (duration : ℤ) where
  candles : List ExchangeCandle
  newestFirst : candles.Pairwise fun newer older => older.openTime < newer.openTime
  aligned : ∀ candle ∈ candles, duration ∣ candle.openTime

namespace Listing

variable {duration : ℤ} (listing : Listing duration)

/-- The candles that open in a window, its bounds included. -/
def within (start stop : Datetime) : List ExchangeCandle :=
  listing.candles.filter fun candle =>
    decide (start ≤ candle.openTime) && decide (candle.openTime ≤ stop)

/-- The newest candles of the requested window, as many as the limit allows. -/
def answer (request : CandleRequest) : List ExchangeCandle :=
  (listing.within request.startTime request.endTime).take request.limit.toNat

/-- The boundaries of the listing. -/
def times : List Datetime := listing.candles.map (·.openTime)

variable {listing} {call : HistoryLoad} {start stop : Datetime} {candle : ExchangeCandle}

theorem mem_within_iff : candle ∈ listing.within start stop ↔
    candle ∈ listing.candles ∧ start ≤ candle.openTime ∧ candle.openTime ≤ stop := by
  rw [within, List.mem_filter, Bool.and_eq_true, decide_eq_true_eq, decide_eq_true_eq]

/-- No window that the collector asks for has more candles than its limit. -/
theorem length_within_le (hduration : 0 < duration) (hbatch : 0 < call.batchSize)
    (hstart : duration ∣ start) :
    (listing.within start (call.batchEnd duration start)).length ≤ call.pageSize.toNat := by
  have hpage : 0 < call.pageSize := lt_min hbatch (by decide)
  have hcount : (call.pageSize.toNat : ℤ) = call.pageSize := Int.toNat_of_nonneg hpage.le
  rw [← List.length_map (f := fun candle : ExchangeCandle => candle.openTime)]
  apply length_le_of_dvd hduration _ hstart
  · intro t ht
    obtain ⟨candle, hcandle, rfl⟩ := List.mem_map.mp ht
    exact listing.aligned candle (mem_within_iff.mp hcandle).1
  · intro t ht
    obtain ⟨candle, hcandle, rfl⟩ := List.mem_map.mp ht
    exact (mem_within_iff.mp hcandle).2.1
  · intro t ht
    obtain ⟨candle, hcandle, rfl⟩ := List.mem_map.mp ht
    have hend := (mem_within_iff.mp hcandle).2.2.trans (min_le_right _ _)
    rw [hcount]
    linarith
  · rw [List.Nodup, List.pairwise_map]
    exact (listing.newestFirst.filter _).imp fun h heq => absurd heq h.ne'

theorem answer_request (hduration : 0 < duration) (hbatch : 0 < call.batchSize)
    (hstart : duration ∣ start) :
    listing.answer (call.request duration start) =
      listing.within start (call.batchEnd duration start) :=
  List.take_of_length_le (length_within_le hduration hbatch hstart)

/-- What is kept of a window, in the order of time. -/
def page (listing : Listing duration) (call : HistoryLoad) (start : Datetime) : List ExchangeCandle :=
  ((listing.within start (call.batchEnd duration start)).filter fun candle =>
    decide (candle.openTime < call.endDate)).insertionSort fun a b => a.openTime ≤ b.openTime

theorem mem_page_iff : candle ∈ listing.page call start ↔
    candle ∈ listing.candles ∧ start ≤ candle.openTime ∧
      candle.openTime < min (call.batchEnd duration start + 1) call.endDate := by
  rw [page, List.mem_insertionSort, List.mem_filter, mem_within_iff, decide_eq_true_eq, lt_min_iff,
    Int.lt_add_one_iff, and_assoc, and_assoc]

theorem page_increasing : ((listing.page call start).map (·.openTime)).Pairwise (· < ·) := by
  have hle : (listing.page call start).Pairwise fun a b => a.openTime ≤ b.openTime :=
    List.pairwise_insertionSort _ _
  have hdistinct : ((listing.page call start).map (·.openTime)).Nodup := by
    rw [page, ((List.perm_insertionSort _ _).map _).nodup_iff, List.Nodup, List.pairwise_map]
    exact ((listing.newestFirst.filter _).filter _).imp fun h heq => absurd heq h.ne'
  rw [List.pairwise_map]
  rw [List.Nodup, List.pairwise_map] at hdistinct
  exact (hle.and hdistinct).imp fun h => lt_of_le_of_ne h.1 h.2

/-- A window of which the exchange lists all boundaries is accepted. -/
theorem exists_accept (hduration : 0 < duration) (hbatch : 0 < call.batchSize)
    (hstart : duration ∣ start) (hlt : start < call.endDate)
    (hall : ∀ t, duration ∣ t → start ≤ t → t ≤ call.batchEnd duration start → t < call.endDate →
      t ∈ listing.times) :
    ∃ candles, call.accept duration start (listing.answer (call.request duration start)) =
      .ok candles := by
  have hpage : 0 < call.pageSize := lt_min hbatch (by decide)
  have hmem : ∀ t, t ∈ (listing.page call start).map (·.openTime) ↔
      duration ∣ t ∧ start ≤ t ∧ t < min (call.batchEnd duration start + 1) call.endDate := by
    intro t
    constructor
    · intro ht
      obtain ⟨candle, hcandle, rfl⟩ := List.mem_map.mp ht
      obtain ⟨hlisted, hbounds⟩ := mem_page_iff.mp hcandle
      exact ⟨listing.aligned candle hlisted, hbounds⟩
    · rintro ⟨hdvd, hlow, hbelow⟩
      obtain ⟨hhigh, hend⟩ := lt_min_iff.mp hbelow
      obtain ⟨candle, hlisted, rfl⟩ :=
        List.mem_map.mp (hall t hdvd hlow (Int.lt_add_one_iff.mp hhigh) hend)
      exact List.mem_map.mpr ⟨candle, mem_page_iff.mpr ⟨hlisted, hlow, hbelow⟩, rfl⟩
  have htimes := exists_eq_progression hduration hstart page_increasing hmem
  rw [List.length_map] at htimes
  have hfirst : start ∈ (listing.page call start).map (·.openTime) := by
    refine (hmem start).mpr ⟨hstart, le_rfl, lt_min ?_ hlt⟩
    refine Int.lt_add_one_iff.mpr (le_min hlt.le ?_)
    have hspan : 0 ≤ duration * (call.pageSize - 1) :=
      mul_nonneg hduration.le (Int.le_sub_one_iff.mpr hpage)
    linarith
  have hnonempty : listing.page call start ≠ [] := by
    intro hnil
    rw [hnil] at hfirst
    exact List.not_mem_nil hfirst
  rw [answer_request hduration hbatch hstart]
  refine ⟨listing.page call start, ?_⟩
  unfold HistoryLoad.accept
  dsimp only
  split
  · rename_i hnil
    rw [page, List.isEmpty_iff.mp hnil] at hnonempty
    exact absurd rfl hnonempty
  · exact bind_eq_ok_iff.mpr ⟨(), validateBatch_of_times hduration hnonempty htimes, rfl⟩

end Listing

/-! ### The call -/

/-- The errors that an answer is rejected with. -/
def LoadError.rejectsAnswer : LoadError → Bool
  | .emptyBatch .. | .duplicate | .notMonotonic | .gap | .batchStart .. | .indexError => true
  | .batchSize | .unsupportedInterval _ | .exchange _ | .database _ => false

namespace HistoryLoad

variable {call : HistoryLoad} {environment : LoadEnvironment} {duration : ℤ} {start : Datetime}
  {candles : List ExchangeCandle} {state final : Collection} {n fuel : ℕ}
  {result : Except LoadError ℕ} {error : LoadError}

/-- Every request starts at a boundary. -/
def Aligned (call : HistoryLoad) (duration : ℤ) (requests : List CandleRequest) : Prop :=
  ∀ request ∈ requests, ∃ start, duration ∣ start ∧ request = call.request duration start

theorem Aligned.snoc {requests : List CandleRequest} (h : Aligned call duration requests)
    (hstart : duration ∣ start) : Aligned call duration (requests ++ [call.request duration start]) := by
  intro request hrequest
  rcases List.mem_append.mp hrequest with hold | hnew
  · exact h request hold
  · exact ⟨start, hstart, List.mem_singleton.mp hnew⟩

theorem aligned_run {before after : Datetime × Collection} {pages : List (List ExchangeCandle)}
    (hrun : Run (call.PageStep environment duration) before pages after)
    (hstart : duration ∣ before.1) (h : Aligned call duration before.2.requests) :
    duration ∣ after.1 ∧ Aligned call duration after.2.requests := by
  apply hrun.invariant (P := fun _ at_ => duration ∣ at_.1 ∧ Aligned call duration at_.2.requests)
    ⟨hstart, h⟩
  rintro _ ⟨start, state⟩ candles _ ⟨hdvd, haligned⟩ ⟨-, -, rfl⟩
  exact ⟨Int.dvd_add hdvd (Dvd.intro_left _ rfl), haligned.snoc hdvd⟩

theorem loadFrom_aligned (hduration : 0 < duration) (hstart : duration ∣ start) {store : RawStore}
    (h : call.loadFrom environment duration fuel start { store } = some (result, final)) :
    Aligned call duration final.requests := by
  obtain ⟨pages, last, hrun, hends⟩ := run_of_loadFrom hduration h
  obtain ⟨hdvd, haligned⟩ := aligned_run hrun hstart fun request hmem => absurd hmem List.not_mem_nil
  cases hends with
  | passed => exact haligned
  | raised => exact haligned.snoc hdvd

/-- An answer is rejected only where a boundary is missing that was asked for. -/
theorem missing_of_fetch {listing : Listing duration} (hduration : 0 < duration)
    (hbatch : 0 < call.batchSize) (hstart : duration ∣ start) (hlt : start < call.endDate)
    (hfaithful : environment.getCandles n (call.request duration start) =
      .ok (listing.answer (call.request duration start)))
    (h : call.fetch environment duration n start = .error error) (herror : error.rejectsAnswer) :
    ∃ t, duration ∣ t ∧ start ≤ t ∧ t ≤ call.batchEnd duration start ∧ t < call.endDate ∧
      t ∉ listing.times := by
  by_contra hnone
  have hall : ∀ t, duration ∣ t → start ≤ t → t ≤ call.batchEnd duration start → t < call.endDate →
      t ∈ listing.times := by
    intro t hdvd hlow hhigh hbelow
    by_contra hmissing
    exact hnone ⟨t, hdvd, hlow, hhigh, hbelow, hmissing⟩
  obtain ⟨candles, haccept⟩ := Listing.exists_accept hduration hbatch hstart hlt hall
  unfold fetch at h
  rw [hfaithful, Except.mapError, bind_eq_error_iff] at h
  rcases h with h | ⟨answer, hanswer, h⟩
  · cases h
  cases hanswer
  rw [haccept, bind_eq_error_iff] at h
  rcases h with h | ⟨accepted, -, h⟩
  · cases h
  split at h
  · cases h
    cases herror
  · cases h

/-- A call that raises asked for the page that it raises in. -/
theorem missing_of_loadFrom {listings : ℕ → Listing duration} (hduration : 0 < duration)
    (hbatch : 0 < call.batchSize) (hstart : duration ∣ start) {store : RawStore}
    (hfaithful : ∀ n request, environment.getCandles n request = .ok ((listings n).answer request))
    (h : call.loadFrom environment duration fuel start { store } = some (.error error, final))
    (herror : error.rejectsAnswer) :
    ∃ n request t, final.requests[n]? = some request ∧ duration ∣ t ∧ request.startTime ≤ t ∧
      t ≤ request.endTime ∧ t < call.endDate ∧ t ∉ (listings n).times := by
  obtain ⟨pages, ⟨last, state⟩, hrun, hends⟩ := run_of_loadFrom hduration h
  obtain ⟨hdvd, -⟩ := aligned_run hrun hstart fun request hmem => absurd hmem List.not_mem_nil
  cases hends with
  | raised hlt hfetch =>
    obtain ⟨t, hboundary, hlow, hhigh, hbelow, hmissing⟩ :=
      missing_of_fetch hduration hbatch hdvd hlt (hfaithful _ _) hfetch herror
    exact ⟨state.requests.length, call.request duration last, t, List.getElem?_concat_length, hboundary,
      hlow, hhigh, hbelow, hmissing⟩

end HistoryLoad

/-- A call that returns stored every boundary of its range once, whatever the exchange answered.  Every
call ends.  Where the exchange answers with the newest candles of each window, no window has more of
them than the limit, and an answer is rejected only where the exchange lists no candle for a boundary
that was asked for. -/
theorem load_historical_candles_complete (call : HistoryLoad) {duration : ℤ} (hbatch : 1 ≤ call.batchSize)
    (hinterval : intervalDuration call.interval = .ok duration) (environment : LoadEnvironment)
    (store : RawStore) :
    (∀ fuel total final, call.load environment fuel store = some (.ok total, final) →
      (final.stored.map (·.openTime)).Nodup ∧
        (∀ t, t ∈ final.stored.map (·.openTime) ↔
          ∃ k : ℕ, t = alignToInterval call.startDate duration + k * duration ∧ t < call.endDate) ∧
        ∀ key, (final.store.candles.get? key).isSome ↔
          (store.candles.get? key).isSome ∨ ∃ candle ∈ final.stored, candle.key = key) ∧
    (∃ bound outcome, ∀ fuel, bound ≤ fuel → call.load environment fuel store = some outcome) ∧
    ∀ listings : ℕ → Listing duration,
      (∀ n request, environment.getCandles n request = .ok ((listings n).answer request)) →
      ∀ fuel result final, call.load environment fuel store = some (result, final) →
        (∀ n request, final.requests[n]? = some request →
          (((listings n).within request.startTime request.endTime).length : ℤ) ≤ request.limit) ∧
        ∀ error, result = .error error → error.rejectsAnswer →
          ∃ n request t, final.requests[n]? = some request ∧ duration ∣ t ∧ request.startTime ≤ t ∧
            t ≤ request.endTime ∧ t < call.endDate ∧ t ∉ (listings n).times := by
  obtain ⟨hduration, hwhole⟩ := intervalDuration_spec hinterval
  have hpositive : 0 < call.batchSize := hbatch
  have hload : ∀ fuel, call.load environment fuel store = call.loadFrom environment duration fuel
      (alignToInterval call.startDate duration) { store } := by
    intro fuel
    rw [HistoryLoad.load, if_neg (not_le.mpr hpositive), hinterval]
  have hstart := dvd_alignToInterval hwhole call.startDate
  refine ⟨?_, ?_, ?_⟩
  · intro fuel total final h
    rw [hload] at h
    obtain ⟨hnodup, htimes, htable⟩ := HistoryLoad.stored_of_loadFrom hduration h
    refine ⟨hnodup, htimes, fun key => ?_⟩
    rw [htable]
    exact Dict.isSome_get?_insertAll_iff
  · set first := alignToInterval call.startDate duration
    have hends : ∃ outcome, call.loadFrom environment duration
        ((call.endDate - first).toNat + 1) first { store } = some outcome :=
      HistoryLoad.exists_loadFrom hduration (Nat.lt_succ_self _)
    obtain ⟨outcome, houtcome⟩ := hends
    exact ⟨_, outcome, fun fuel hle => (hload fuel).trans (HistoryLoad.loadFrom_mono hle houtcome)⟩
  · intro listings hfaithful fuel result final h
    rw [hload] at h
    constructor
    · intro n request hrequest
      obtain ⟨start, hdvd, rfl⟩ :=
        HistoryLoad.loadFrom_aligned hduration hstart h request (List.mem_of_getElem? hrequest)
      have hpage : 0 < call.pageSize := lt_min hpositive (by decide)
      have hlength : ((listings n).within start (call.batchEnd duration start)).length ≤
          call.pageSize.toNat := Listing.length_within_le hduration hpositive hdvd
      rw [← Int.ofNat_le, Int.toNat_of_nonneg hpage.le] at hlength
      exact hlength
    · rintro error rfl herror
      exact HistoryLoad.missing_of_loadFrom hduration hpositive hstart hfaithful h herror

/-- The candle of an hour. -/
def hourCandle (k : ℤ) : ExchangeCandle :=
  { symbol := "BTCUSDT", intervalCode := "1h", openTime := k * hour, closeTime := some ((k + 1) * hour)
    openPrice := 100, highPrice := 110, lowPrice := 90, closePrice := 105, volume := 7 }

/-- The first four hours. -/
def hourlyListing : Listing hour where
  candles := [hourCandle 3, hourCandle 2, hourCandle 1, hourCandle 0]
  newestFirst := by decide
  aligned := by decide

def hourlyEnvironment : LoadEnvironment where
  getCandles _ request := .ok (hourlyListing.answer request)

/-- From half past midnight to three o'clock, in pages of two. -/
def hourlyCall : HistoryLoad :=
  { symbol := "BTCUSDT", interval := "1h", startDate := 30 * minute, endDate := 3 * hour, batchSize := 2 }

theorem hourlyCall_complete : 1 ≤ hourlyCall.batchSize ∧ intervalDuration hourlyCall.interval = .ok hour ∧
    (∃ bound outcome, ∀ fuel, bound ≤ fuel →
      hourlyCall.load hourlyEnvironment fuel {} = some outcome) ∧
    (hourlyCall.load hourlyEnvironment 3 {}).map (fun outcome =>
      (outcome.1, outcome.2.stored.map (·.openTime))) = some (.ok 3, [0, hour, 2 * hour]) :=
  ⟨by decide, rfl,
    (load_historical_candles_complete hourlyCall (by decide) rfl hourlyEnvironment {}).2.1, rfl⟩

end CryptoTrading
