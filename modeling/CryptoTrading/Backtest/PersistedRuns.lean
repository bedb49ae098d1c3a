import CryptoTrading.Backtest.Persistence
import CryptoTrading.Kit.Fallible
import CryptoTrading.Kit.Run

/-! What is stored of a run that is persisted more than once.  A call extends what is there: the header
stays, and each table takes the rows of the payload that are further on. -/

namespace CryptoTrading

open Kit

/-- Rows of the four tables. -/
def tableRows {J : Type} (signals : List (BacktestSignal J)) (decisions : List (BacktestRiskDecision J))
    (orders : List (BacktestOrder J)) (fills : List (BacktestFill J)) :
    ∀ table : AuditTable, List (BacktestRow J table)
  | .signal => signals
  | .riskDecision => decisions
  | .order => orders
  | .fill => fills

/-- What a run has: the columns of its header, and its rows of each table, in order. -/
structure RunTrail (J F : Type) where
  columns : RunColumns J F
  rows : ∀ table : AuditTable, List (BacktestRow J table)

section Trails

variable {J F R : Type}

namespace RunTrail

variable (trail stored : RunTrail J F)

def runId (identity : RunIdentity J F R) : R := identity.runId trail.columns.runFingerprint

def orders : List (BacktestOrder J) := trail.rows .order

def fills : List (BacktestFill J) := trail.rows .fill

/-- Each fill is of one of the orders. -/
def FillsOrdered : Prop := ∀ fill ∈ trail.fills, ∃ order ∈ trail.orders, order.orderId = fill.orderId

/-- No table of the trail is longer than what is stored. -/
def CoveredBy : Prop := ∀ table, (trail.rows table).length ≤ (stored.rows table).length

/-- The trail has the header that is stored, and starts with the rows that are. -/
def Continues : Prop :=
  stored.columns = trail.columns ∧ ∀ table, stored.rows table <+: trail.rows table

/-- What is stored after a trail is persisted. -/
def merge (trail : RunTrail J F) : Option (RunTrail J F) → RunTrail J F
  | none => trail
  | some stored => ⟨stored.columns, fun table => extendRows (stored.rows table) (trail.rows table)⟩

/-- A trail adds nothing to what is stored, or it continues it. -/
def Fits (trail : RunTrail J F) : Option (RunTrail J F) → Prop
  | none => trail.FillsOrdered
  | some stored => trail.CoveredBy stored ∨ trail.Continues stored ∧ trail.FillsOrdered

variable {stored trail}

theorem ext' (hcolumns : stored.columns = trail.columns)
    (hrows : ∀ table, stored.rows table = trail.rows table) : stored = trail := by
  obtain ⟨columns, rows⟩ := stored
  obtain ⟨columns', rows'⟩ := trail
  cases hcolumns
  obtain rfl : rows = rows' := funext hrows
  rfl

theorem merge_of_covered (h : trail.CoveredBy stored) : trail.merge (some stored) = stored :=
  ext' rfl fun table => extendRows_of_le (h table)

theorem merge_eq_self_iff : trail.merge (some stored) = trail ↔ trail.Continues stored := by
  constructor
  · intro h
    have hcolumns : (trail.merge (some stored)).columns = trail.columns := congrArg columns h
    have hrows : (trail.merge (some stored)).rows = trail.rows := congrArg rows h
    exact ⟨hcolumns, fun table => extendRows_eq_right_iff.mp (congrFun hrows table)⟩
  · rintro ⟨hcolumns, hrows⟩
    exact ext' hcolumns fun table => extendRows_eq_right_iff.mpr (hrows table)

theorem coveredBy_of_merge (h : (trail.merge (some stored)).CoveredBy stored) :
    trail.CoveredBy stored := by
  intro table
  have hlength : (extendRows (stored.rows table) (trail.rows table)).length ≤
      (stored.rows table).length := h table
  rw [length_extendRows] at hlength
  omega

theorem coveredBy_merge : trail.CoveredBy (trail.merge (some stored)) := by
  intro table
  show _ ≤ (extendRows (stored.rows table) (trail.rows table)).length
  rw [length_extendRows]
  omega

theorem CoveredBy.merge {other : RunTrail J F} (h : other.CoveredBy stored) :
    other.CoveredBy (trail.merge (some stored)) := by
  intro table
  have hlength := h table
  show _ ≤ (extendRows (stored.rows table) (trail.rows table)).length
  rw [length_extendRows]
  omega

end RunTrail

/-- The payload has the trail. -/
def AuditPayload.HasTrail (identity : RunIdentity J F R) (payload : AuditPayload J)
    (trail : RunTrail J F) : Prop :=
  (∃ inputs, payload.inputs = .ok inputs ∧
    payload.columns? (identity.fingerprint inputs) inputs = some trail.columns) ∧
  ∀ table, payload.rows? table = some (trail.rows table)

namespace AuditPayload

variable {identity : RunIdentity J F R} {payload : AuditPayload J} {trail : RunTrail J F}

theorem HasTrail.unique {other : RunTrail J F} (h : payload.HasTrail identity trail)
    (h' : payload.HasTrail identity other) : trail = other := by
  obtain ⟨⟨inputs, hinputs, hcolumns⟩, hrows⟩ := h
  obtain ⟨⟨inputs', hinputs', hcolumns'⟩, hrows'⟩ := h'
  cases Except.ok.inj (hinputs.symm.trans hinputs')
  exact RunTrail.ext' (Option.some.inj (hcolumns.symm.trans hcolumns'))
    fun table => Option.some.inj ((hrows table).symm.trans (hrows' table))

theorem columns?_runFingerprint {fingerprint : F} {inputs : ReproducibilityInputs J}
    {columns : RunColumns J F} (h : payload.columns? fingerprint inputs = some columns) :
    columns.runFingerprint = fingerprint := by
  unfold columns? at h
  dsimp only at h
  split at h
  · cases h
    rfl
  · cases h

theorem runId_eq_iff {other : AuditPayload J} {otherTrail : RunTrail J F}
    (h : payload.HasTrail identity trail) (h' : other.HasTrail identity otherTrail) :
    trail.runId identity = otherTrail.runId identity ↔ payload.inputs = other.inputs := by
  obtain ⟨⟨inputs, hinputs, hcolumns⟩, -⟩ := h
  obtain ⟨⟨inputs', hinputs', hcolumns'⟩, -⟩ := h'
  rw [RunTrail.runId, RunTrail.runId, columns?_runFingerprint hcolumns,
    columns?_runFingerprint hcolumns', identity.runId_injective.eq_iff,
    identity.fingerprint_injective.eq_iff, hinputs, hinputs', Except.ok.injEq]

end AuditPayload

end Trails

namespace AuditDatabase

section Stored

variable {J F R : Type} [DecidableEq R] (db : AuditDatabase J F R) (runId : R)

/-- Nothing is stored of a run, or exactly a trail. -/
def Holds : Option (RunTrail J F) → Prop
  | none => db.runs.get? runId = none ∧ ∀ table, (db.tables table).Lists runId []
  | some trail => (∃ auditFile, db.runs.get? runId = some ⟨trail.columns, auditFile⟩) ∧
    ∀ table, (db.tables table).Lists runId (trail.rows table)

/-- Every stored fill of a run joins exactly one stored order. -/
def Joined : Prop :=
  ∀ n fill, (db.tables .fill).rows.get? (runId, n) = some fill →
    ∃ order, db.joinedOrders runId fill = [order]

/-- The headers have the ids of their fingerprints. -/
def Identified (identity : RunIdentity J F R) : Prop :=
  ∀ runId row, db.runs.get? runId = some row → runId = identity.runId row.columns.runFingerprint

variable {db runId} {trail : RunTrail J F} {stored other : Option (RunTrail J F)}

theorem Holds.unique (h : db.Holds runId stored) (h' : db.Holds runId other) : stored = other := by
  cases stored with
  | none =>
    cases other with
    | none => rfl
    | some other =>
      obtain ⟨⟨auditFile, hrun⟩, -⟩ := h'
      cases h.1.symm.trans hrun
  | some stored =>
    obtain ⟨⟨auditFile, hrun⟩, hrows⟩ := h
    cases other with
    | none => cases h'.1.symm.trans hrun
    | some other =>
      obtain ⟨⟨auditFile', hrun'⟩, hrows'⟩ := h'
      have hrow := Option.some.inj (hrun.symm.trans hrun')
      have htrail : stored = other :=
        RunTrail.ext' (congrArg RunRow.columns hrow) fun table => (hrows table).unique (hrows' table)
      rw [htrail]

theorem joined_iff (h : db.Holds runId (some trail)) : db.Joined runId ↔ trail.FillsOrdered := by
  obtain ⟨-, hrows⟩ := h
  constructor
  · intro hjoined fill hfill
    obtain ⟨n, hn⟩ := (hrows .fill).mem_iff.mp hfill
    obtain ⟨order, horder⟩ := hjoined n fill hn
    have hmem : order ∈ db.joinedOrders runId fill := horder ▸ List.mem_singleton_self order
    obtain ⟨hname, hthere⟩ := NumberedTable.mem_named hmem
    exact ⟨order, (hrows .order).mem_iff.mpr hthere, Option.some.inj hname⟩
  · intro hordered n fill hn
    obtain ⟨order, horder, hid⟩ := hordered fill ((hrows .fill).mem_iff.mpr ⟨n, hn⟩)
    obtain ⟨m, hm⟩ := (hrows .order).mem_iff.mp horder
    exact ⟨order, NumberedTable.named_eq_singleton hm (congrArg some hid)⟩

end Stored

/-! ### One call -/

section Calls

variable {J F R : Type} [DecidableEq F] [DecidableEq R] {db db' : AuditDatabase J F R}
  {identity : RunIdentity J F R} {runId : R} {columns : RunColumns J F} {auditFile : Option String}
  {payload : AuditPayload J} {table : AuditTable}

/-- A header is inserted, or the header of the run keeps its columns. -/
theorem insertRun_eq_ok (hidentified : db.Identified identity)
    (hrunId : runId = identity.runId columns.runFingerprint)
    (h : db.insertRun runId columns auditFile = .ok db') :
    ∃ row : RunRow J F, db' = { db with runs := db.runs.set runId row } ∧
      (db.runs.get? runId = none ∧ row.columns = columns ∨
        ∃ old, db.runs.get? runId = some old ∧ row.columns = old.columns) := by
  unfold insertRun at h
  split at h
  · rename_i key row hfind
    cases h
    have hsame := List.find?_some hfind
    have hget : db.runs.get? key = some row :=
      Dict.get?_eq_some_iff.mpr (List.mem_of_find?_eq_some hfind)
    obtain rfl : key = runId := by
      rw [hidentified key row hget, hrunId]
      exact congrArg identity.runId (of_decide_eq_true hsame)
    exact ⟨_, rfl, Or.inr ⟨row, hget, rfl⟩⟩
  · split at h
    · cases h
    · rename_i hfree
      cases h
      exact ⟨_, rfl, Or.inl ⟨hfree, rfl⟩⟩

omit [DecidableEq F] in
theorem insertRows_eq_ok (h : db.insertRows runId payload table = .ok db') :
    ∃ rows next, payload.rows? table = some rows ∧
      (db.tables table).insertFrom runId 1 rows = some next ∧
      db' = { db with tables := Function.update db.tables table next } := by
  unfold insertRows at h
  split at h
  · cases h
  · rename_i next hnext
    cases h
    obtain ⟨rows, hrows, hinsert⟩ := Option.bind_eq_some_iff.mp hnext
    exact ⟨rows, next, hrows, hinsert, rfl⟩

/-- A call that is committed inserts its header, and its rows of every table. -/
theorem persistBacktestAudit_eq_ok (hidentified : db.Identified identity)
    (h : db.persistBacktestAudit identity payload auditFile = .ok (runId, db')) :
    ∃ (trail : RunTrail J F) (row : RunRow J F), payload.HasTrail identity trail ∧
      runId = trail.runId identity ∧ db'.runs = db.runs.set runId row ∧
      (db.runs.get? runId = none ∧ row.columns = trail.columns ∨
        ∃ old, db.runs.get? runId = some old ∧ row.columns = old.columns) ∧
      ∀ table, (db.tables table).insertFrom runId 1 (trail.rows table) = some (db'.tables table) := by
  unfold persistBacktestAudit at h
  obtain ⟨inputs, hinputs, h⟩ := bind_eq_ok_iff.mp h
  dsimp only at h
  split at h
  · cases h
  rename_i columns hcolumns
  have hfingerprint := AuditPayload.columns?_runFingerprint hcolumns
  obtain ⟨headed, hheaded, h⟩ := bind_eq_ok_iff.mp h
  obtain ⟨signaled, hsignaled, h⟩ := bind_eq_ok_iff.mp h
  obtain ⟨decided, hdecided, h⟩ := bind_eq_ok_iff.mp h
  obtain ⟨ordered, hordered, h⟩ := bind_eq_ok_iff.mp h
  obtain ⟨filled, hfilled, h⟩ := bind_eq_ok_iff.mp h
  obtain ⟨hrunId, rfl⟩ := Prod.mk.inj (Except.ok.inj h)
  rw [hrunId] at hheaded hsignaled hdecided hordered hfilled
  obtain ⟨row, rfl, hrow⟩ := insertRun_eq_ok hidentified (by rw [← hrunId, hfingerprint]) hheaded
  obtain ⟨signals, signalTable, hsignals, hsignal, rfl⟩ := insertRows_eq_ok hsignaled
  obtain ⟨decisions, riskTable, hdecisions, hdecision, rfl⟩ := insertRows_eq_ok hdecided
  obtain ⟨orders, orderTable, horders, horder, rfl⟩ := insertRows_eq_ok hordered
  obtain ⟨fills, fillTable, hfills, hfill, rfl⟩ := insertRows_eq_ok hfilled
  refine ⟨⟨columns, tableRows signals decisions orders fills⟩, row,
    ⟨⟨inputs, hinputs, hcolumns⟩, ?_⟩, ?_, rfl, hrow, ?_⟩
  · intro table
    cases table with
    | signal => exact hsignals
    | riskDecision => exact hdecisions
    | order => exact horders
    | fill => exact hfills
  · rw [← hrunId, RunTrail.runId, hfingerprint]
  · intro table
    cases table with
    | signal => exact hsignal
    | riskDecision => exact hdecision
    | order => exact horder
    | fill => exact hfill

/-- What is stored of the run is merged with the trail of the payload, and the others are left. -/
theorem persistBacktestAudit_holds (hidentified : db.Identified identity)
    (h : db.persistBacktestAudit identity payload auditFile = .ok (runId, db')) :
    ∃ trail : RunTrail J F, payload.HasTrail identity trail ∧ runId = trail.runId identity ∧
      (∀ stored, db.Holds runId stored → db'.Holds runId (some (trail.merge stored))) ∧
      ∀ other stored, other ≠ runId → db.Holds other stored → db'.Holds other stored := by
  obtain ⟨trail, row, htrail, hrunId, hruns, hrow, hinsert⟩ := persistBacktestAudit_eq_ok hidentified h
  refine ⟨trail, htrail, hrunId, ?_, ?_⟩
  · intro stored hstored
    have hset : ∀ columns, row.columns = columns →
        db'.runs.get? runId = some ⟨columns, row.auditFile⟩ := by
      rintro _ rfl
      rw [hruns, Dict.get?_set_self]
    cases stored with
    | none =>
      obtain ⟨hfree, hblank⟩ := hstored
      rcases hrow with ⟨-, hcolumns⟩ | ⟨old, hold, -⟩
      · exact ⟨⟨row.auditFile, hset _ hcolumns⟩,
          fun table => (hblank table).insertFrom (hinsert table)⟩
      · cases hfree.symm.trans hold
    | some stored =>
      obtain ⟨⟨file, hheader⟩, hlists⟩ := hstored
      rcases hrow with ⟨hfree, -⟩ | ⟨old, hold, hcolumns⟩
      · cases hfree.symm.trans hheader
      · cases Option.some.inj (hheader.symm.trans hold)
        exact ⟨⟨row.auditFile, hset _ hcolumns⟩,
          fun table => (hlists table).insertFrom (hinsert table)⟩
  · intro other stored hne hstored
    have hget : db'.runs.get? other = db.runs.get? other := by
      rw [hruns, Dict.get?_set_ne _ _ hne.symm]
    cases stored with
    | none =>
      exact ⟨hget.trans hstored.1, fun table => (hstored.2 table).insertFrom_other hne (hinsert table)⟩
    | some stored =>
      obtain ⟨⟨file, hheader⟩, hlists⟩ := hstored
      exact ⟨⟨file, hget.trans hheader⟩,
        fun table => (hlists table).insertFrom_other hne (hinsert table)⟩

theorem persistBacktestAudit_identified (hidentified : db.Identified identity)
    (h : db.persistBacktestAudit identity payload auditFile = .ok (runId, db')) :
    db'.Identified identity := by
  obtain ⟨trail, row, -, hrunId, hruns, hrow, -⟩ := persistBacktestAudit_eq_ok hidentified h
  intro other found hfound
  rw [hruns, Dict.get?_set] at hfound
  split at hfound
  · rename_i heq
    cases heq
    cases hfound
    rcases hrow with ⟨-, hcolumns⟩ | ⟨old, hold, hcolumns⟩
    · rw [hcolumns]
      exact hrunId
    · rw [hcolumns]
      exact hidentified _ old hold
  · exact hidentified other found hfound

end Calls

end AuditDatabase

/-! ### Histories -/

section Histories

variable {J F R : Type} [DecidableEq F] [DecidableEq R] (identity : RunIdentity J F R)

namespace AuditHistory

/-- What is stored of a run is nothing, or the header and the rows of one of the payloads that were
persisted, and every fill joins exactly one order. -/
def OneOf (history : AuditHistory J F R) (runId : R) : Prop :=
  history.db.Holds runId none ∨
    (∃ payload ∈ history.persisted, ∃ trail, payload.HasTrail identity trail ∧
      trail.runId identity = runId ∧ history.db.Holds runId (some trail)) ∧
    history.db.Joined runId

/-- If the call is committed, its payload fits what is stored of its run. -/
def Accepts (history : AuditHistory J F R) (call : AuditPayload J × Option String) : Prop :=
  ∀ result, history.db.persistBacktestAudit identity call.1 call.2 = .ok result →
    ∀ trail stored, call.1.HasTrail identity trail →
      history.db.Holds (trail.runId identity) stored → trail.Fits stored

/-- What holds after every history: every run has something stored, nothing or a trail, and nothing that
was persisted is longer. -/
structure Merged (history : AuditHistory J F R) : Prop where
  identified : history.db.Identified identity
  held : ∀ runId, ∃ stored, history.db.Holds runId stored
  covered : ∀ payload ∈ history.persisted, ∀ trail, payload.HasTrail identity trail →
    ∃ stored, history.db.Holds (trail.runId identity) (some stored) ∧ trail.CoveredBy stored

variable {identity} {history : AuditHistory J F R} {call : AuditPayload J × Option String}
  {trail : RunTrail J F} {runId : R}

omit [DecidableEq F] in
/-- Where a trail is stored, it has to be one that was persisted. -/
theorem oneOf_iff (hmerged : history.Merged identity) (h : history.db.Holds runId (some trail)) :
    history.OneOf identity runId ↔
      (∃ payload ∈ history.persisted, payload.HasTrail identity trail) ∧ trail.FillsOrdered := by
  rw [← AuditDatabase.joined_iff h]
  constructor
  · rintro (hblank | ⟨⟨payload, hmem, other, hother, -, hholds⟩, hjoined⟩)
    · cases hblank.unique h
    · cases Option.some.inj (h.unique hholds)
      exact ⟨⟨payload, hmem, hother⟩, hjoined⟩
  · rintro ⟨⟨payload, hmem, htrail⟩, hjoined⟩
    obtain ⟨auditFile, hheader⟩ := h.1
    exact Or.inr ⟨⟨payload, hmem, trail, htrail, (hmerged.identified _ _ hheader).symm, h⟩, hjoined⟩

theorem persist_of_ok {db : AuditDatabase J F R}
    (h : history.db.persistBacktestAudit identity call.1 call.2 = .ok (runId, db)) :
    history.persist identity call = ⟨db, history.persisted ++ [call.1]⟩ := by
  rw [persist, h]

theorem persist_of_error {error : AuditError}
    (h : history.db.persistBacktestAudit identity call.1 call.2 = .error error) :
    history.persist identity call = history := by
  rw [persist, h]

omit [DecidableEq F] in
theorem merged_start : (({} : AuditHistory J F R)).Merged identity where
  identified _ _ h := by cases h
  held _ := ⟨none, rfl, fun _ => NumberedTable.lists_empty⟩
  covered _ h := absurd h List.not_mem_nil

theorem Merged.persist (h : history.Merged identity) (call : AuditPayload J × Option String) :
    (history.persist identity call).Merged identity := by
  cases hcall : history.db.persistBacktestAudit identity call.1 call.2 with
  | error error =>
    rw [persist_of_error hcall]
    exact h
  | ok result =>
    obtain ⟨runId, db⟩ := result
    rw [persist_of_ok hcall]
    obtain ⟨trail, htrail, hrunId, hsame, hothers⟩ :=
      AuditDatabase.persistBacktestAudit_holds h.identified hcall
    refine ⟨AuditDatabase.persistBacktestAudit_identified h.identified hcall, ?_, ?_⟩
    · intro other
      obtain ⟨stored, hstored⟩ := h.held other
      by_cases hother : other = runId
      · subst hother
        exact ⟨_, hsame stored hstored⟩
      · exact ⟨stored, hothers other stored hother hstored⟩
    · intro payload hmem found hfound
      rcases List.mem_append.mp hmem with hold | hnew
      · obtain ⟨stored, hstored, hcovered⟩ := h.covered payload hold found hfound
        by_cases hother : found.runId identity = runId
        · rw [hother] at hstored ⊢
          exact ⟨_, hsame _ hstored, hcovered.merge⟩
        · exact ⟨stored, hothers _ _ hother hstored, hcovered⟩
      · cases List.mem_singleton.mp hnew
        cases htrail.unique hfound
        obtain ⟨stored, hstored⟩ := h.held runId
        rw [← hrunId]
        refine ⟨_, hsame stored hstored, ?_⟩
        cases stored with
        | none => exact fun table => le_rfl
        | some stored => exact RunTrail.coveredBy_merge

/-- The run of a committed call is one of the payloads again when its payload fits what was stored. -/
theorem oneOf_iff_fits {db : AuditDatabase J F R} {stored : Option (RunTrail J F)}
    (hmerged : history.Merged identity) (hone : history.OneOf identity runId)
    (hcall : history.db.persistBacktestAudit identity call.1 call.2 = .ok (runId, db))
    (htrail : call.1.HasTrail identity trail) (hstored : history.db.Holds runId stored)
    (hholds : db.Holds runId (some (trail.merge stored))) :
    (history.persist identity call).OneOf identity runId ↔ trail.Fits stored := by
  have hafter : (history.persist identity call).Merged identity := hmerged.persist call
  rw [persist_of_ok hcall] at hafter ⊢
  rw [oneOf_iff hafter hholds]
  simp only [List.mem_append, List.mem_singleton]
  cases stored with
  | none => exact ⟨And.right, fun hordered => ⟨⟨call.1, Or.inr rfl, htrail⟩, hordered⟩⟩
  | some stored =>
    constructor
    · rintro ⟨⟨payload, hold | rfl, hpayload⟩, hordered⟩
      · -- an earlier payload is not longer than what was stored
        obtain ⟨auditFile, hheader⟩ := hstored.1
        obtain ⟨found, hfound, hcovered⟩ := hmerged.covered payload hold _ hpayload
        have hrun : (trail.merge (some stored)).runId identity = runId :=
          (hmerged.identified _ _ hheader).symm
        rw [hrun] at hfound
        cases Option.some.inj (hfound.unique hstored)
        exact Or.inl (RunTrail.coveredBy_of_merge hcovered)
      · have hmerge := hpayload.unique htrail
        rw [hmerge] at hordered
        exact Or.inr ⟨RunTrail.merge_eq_self_iff.mp hmerge, hordered⟩
    · rintro (hcovered | ⟨hcontinues, hordered⟩)
      · rw [RunTrail.merge_of_covered hcovered]
        obtain ⟨⟨payload, hmem, hpayload⟩, hordered⟩ := (oneOf_iff hmerged hstored).mp hone
        exact ⟨⟨payload, Or.inl hmem, hpayload⟩, hordered⟩
      · rw [RunTrail.merge_eq_self_iff.mpr hcontinues]
        exact ⟨⟨call.1, Or.inr rfl, htrail⟩, hordered⟩

omit [DecidableEq F] in
theorem OneOf.of_holds {db : AuditDatabase J F R} (h : history.OneOf identity runId)
    (hheld : ∀ stored, history.db.Holds runId stored → db.Holds runId stored)
    (payload : AuditPayload J) :
    (⟨db, history.persisted ++ [payload]⟩ : AuditHistory J F R).OneOf identity runId := by
  rcases h with hblank | ⟨⟨old, hmem, trail, htrail, hrunId, hholds⟩, hjoined⟩
  · exact Or.inl (hheld none hblank)
  · have hafter := hheld _ hholds
    refine Or.inr ⟨⟨old, List.mem_append_left _ hmem, trail, htrail, hrunId, hafter⟩, ?_⟩
    exact (AuditDatabase.joined_iff hafter).mpr ((AuditDatabase.joined_iff hholds).mp hjoined)

theorem oneOf_persist_iff (hmerged : history.Merged identity)
    (hone : ∀ runId, history.OneOf identity runId) (call : AuditPayload J × Option String) :
    (∀ runId, (history.persist identity call).OneOf identity runId) ↔
      history.Accepts identity call := by
  cases hcall : history.db.persistBacktestAudit identity call.1 call.2 with
  | error error =>
    rw [persist_of_error hcall]
    exact ⟨fun _ result hresult => (by cases hcall.symm.trans hresult), fun _ => hone⟩
  | ok result =>
    obtain ⟨runId, db⟩ := result
    obtain ⟨trail, htrail, rfl, hsame, hothers⟩ :=
      AuditDatabase.persistBacktestAudit_holds hmerged.identified hcall
    constructor
    · intro h _ _ found stored hfound hstored
      cases htrail.unique hfound
      exact (oneOf_iff_fits hmerged (hone _) hcall htrail hstored (hsame stored hstored)).mp (h _)
    · intro haccepts other
      by_cases hother : other = trail.runId identity
      · subst hother
        obtain ⟨stored, hstored⟩ := hmerged.held (trail.runId identity)
        exact (oneOf_iff_fits hmerged (hone _) hcall htrail hstored (hsame stored hstored)).mpr
          (haccepts _ hcall trail stored htrail hstored)
      · rw [persist_of_ok hcall]
        exact (hone other).of_holds (fun stored => hothers other stored hother) call.1

end AuditHistory

theorem auditHistory_snoc (calls : List (AuditPayload J × Option String))
    (call : AuditPayload J × Option String) :
    auditHistory identity (calls ++ [call]) = (auditHistory identity calls).persist identity call :=
  List.foldl_concat ..

theorem auditHistory_merged (calls : List (AuditPayload J × Option String)) :
    (auditHistory identity calls).Merged identity := by
  induction calls using List.reverseRecOn with
  | nil => exact AuditHistory.merged_start
  | append_singleton calls call ih =>
    rw [auditHistory_snoc]
    exact ih.persist call

/-- After every call of a history, what is stored of a run is one of its payloads, when every payload
that is committed adds no row to what is stored of its run, or has its header and starts with its rows;
and the fills of those that add something are of their orders. -/
theorem backtest_audit_is_one_run_iff (calls : List (AuditPayload J × Option String)) :
    (∀ passed, passed <+: calls → ∀ runId, (auditHistory identity passed).OneOf identity runId) ↔
      ∀ passed call, passed ++ [call] <+: calls →
        (auditHistory identity passed).Accepts identity call := by
  apply forall_prefix_iff
    (P := fun passed => ∀ runId, (auditHistory identity passed).OneOf identity runId)
  · exact fun _ => Or.inl ⟨rfl, fun _ => NumberedTable.lists_empty⟩
  · intro passed call hone
    rw [auditHistory_snoc]
    exact AuditHistory.oneOf_persist_iff (auditHistory_merged identity passed) hone call

end Histories

/-! ### Two audits of one run -/

/-- Inputs that are their own fingerprints. -/
def plainIdentity : RunIdentity Unit (ReproducibilityInputs Unit) (ReproducibilityInputs Unit) where
  fingerprint := id
  runId := id
  fingerprint_injective := Function.injective_id
  runId_injective := Function.injective_id

def dayOrder (orderId : String) : OrderItem Unit :=
  { orderId, signalSymbol := "BTCUSDT", side := "buy", createdAt := ⟨"2026-07-01T12:00:00Z", 12⟩
    rest := () }

def dayFill (fillId orderId : String) : FillItem Unit :=
  { fillId, orderId, symbol := "BTCUSDT", side := "buy", quantity := 1, price := 100
    commission := 0, timestamp := ⟨"2026-07-01T12:00:00Z", 12⟩, rest := () }

/-- The audit of a backtest of one day. -/
def dayPayload (orders : List (OrderItem Unit)) (fills : List (FillItem Unit)) : AuditPayload Unit where
  metadata :=
    { createdAt := ⟨"2026-08-10T12:00:00Z", 960⟩, gitCommit := some "abc123", exchange := "bybit"
      symbol := "BTCUSDT", interval := "1h", start := ⟨"2026-07-01T00:00:00Z", 0⟩
      end_ := ⟨"2026-07-02T00:00:00Z", 24⟩, candleCount := 24, randomSeed := 42
      datasetFingerprint := some "dataset-a", indicatorModelVersion := some "indicators-v2"
      regimeModelVersion := some "regime-v2", executionModelVersion := some "engine-v1" }
  strategy := ⟨"TrendDCA", "trend_dca_v1", ()⟩
  configuration := ()
  backtest :=
    { initialBalance := 500, finalEquity := 500, totalPnl := 0, totalTrades := 0, winningTrades := 0
      losingTrades := 0, winRate := 0, profitFactor := 0, averageTrade := 0, averageWin := 0
      averageLoss := 0, maxDrawdown := 0, maxConsecutiveLosses := 0 }
  orders
  fills

/-- A payload with one order, and one with two others. -/
def mixedCalls : List (AuditPayload Unit × Option String) :=
  [(dayPayload [dayOrder "o1"] [dayFill "f1" "o1"], none),
   (dayPayload [dayOrder "o3", dayOrder "o4"] [dayFill "f3" "o3", dayFill "f4" "o3"], none)]

/-- Both are persisted, and their fills are of their orders.  The second fill of the second is stored, and
its order is not: the order of the first has its number. -/
theorem mixed_audit :
    (auditHistory plainIdentity mixedCalls).persisted = mixedCalls.map Prod.fst ∧
      (∀ call ∈ mixedCalls, ∀ fill ∈ call.1.fills, ∃ order ∈ call.1.orders,
        order.orderId = fill.orderId) ∧
      ¬∀ runId, (auditHistory plainIdentity mixedCalls).OneOf plainIdentity runId := by
  refine ⟨by decide +kernel, by decide +kernel, fun h => ?_⟩
  let history := auditHistory plainIdentity mixedCalls
  have hunjoined : ∃ entry ∈ (history.db.tables .fill).rows.entries, entry.1.2 = 2 ∧
      history.db.joinedOrders entry.1.1 entry.2 = [] := by
    decide +kernel
  obtain ⟨⟨⟨runId, number⟩, fill⟩, hmem, rfl, horders⟩ := hunjoined
  have hfill : (history.db.tables .fill).rows.get? (runId, 2) = some fill :=
    Dict.get?_eq_some_iff.mpr hmem
  rcases h runId with ⟨-, hblank⟩ | ⟨-, hjoined⟩
  · have hnone := (hblank .fill).2 1
    cases hnone.symm.trans hfill
  · obtain ⟨order, horder⟩ := hjoined 2 fill hfill
    cases horders.symm.trans horder

end CryptoTrading
