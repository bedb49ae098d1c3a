import CryptoTrading.Exchange.EngineCalls
import CryptoTrading.Exchange.PaperStateRepository
import CryptoTrading.Kit.Relational

/-! The durable paper-trading state in PostgreSQL: the tables as the migrations create them, the
statements that save the records, and the loads that construct them from whole rows. -/

namespace CryptoTrading

open Kit

/-! ### The tables -/

namespace PaperTable

/-- `NUMERIC(20,8)`. -/
def numeric : SqlType := .numeric 20 8

/-- `id BIGSERIAL PRIMARY KEY`. -/
def bigserial : Column := { name := "id", type := .integer 8, notNull := true, default := .serial }

/-- `paper_runtime_state`, of migration 048. -/
def runtimeState : TableSchema where
  columns := [
    { name := "id", type := .integer 4, notNull := true },
    { name := "last_processed_timestamp", type := .timestamptz },
    { name := "last_market_sequence", type := .integer 8, notNull := true
      default := .value (.integer 0) },
    { name := "cash_balance", type := numeric, notNull := true },
    { name := "updated_at", type := .timestamptz, notNull := true, default := .now }]
  uniques := [{ column := "id" }]

/-- `paper_positions`, of migration 048. -/
def positions : TableSchema where
  columns := [
    bigserial,
    { name := "symbol", type := .varchar 20, notNull := true },
    { name := "quantity", type := numeric, notNull := true },
    { name := "average_price", type := numeric, notNull := true },
    { name := "updated_at", type := .timestamptz, notNull := true, default := .now }]
  uniques := [{ column := "id" }, { column := "symbol" }]

/-- `paper_orders`, of migrations 048, 049 and 051. -/
def orders : TableSchema :=
  let created : TableSchema := {
    columns := [
      bigserial,
      { name := "order_id", type := .varchar 64, notNull := true },
      { name := "symbol", type := .varchar 20, notNull := true },
      { name := "status", type := .varchar 32, notNull := true },
      { name := "created_at", type := .timestamptz, notNull := true, default := .now }]
    uniques := [{ column := "id" }, { column := "order_id" }] }
  let idempotent := (created.addColumns [
      { name := "client_order_id", type := .varchar 160 },
      { name := "side", type := .varchar 8, notNull := true, default := .value (.text "BUY") },
      { name := "quantity", type := numeric, notNull := true, default := .value (.numeric 0) }]).addUnique
    { column := "client_order_id", isPartial := true }
  idempotent.addColumns [
    { name := "run_id", type := .varchar 64 }, { name := "signal_id", type := .varchar 64 }]

/-- `paper_fills`, of migrations 048, 049 and 051. -/
def fills : TableSchema :=
  let created : TableSchema := {
    columns := [
      bigserial,
      { name := "order_id", type := .varchar 64, notNull := true },
      { name := "symbol", type := .varchar 20, notNull := true },
      { name := "quantity", type := numeric, notNull := true },
      { name := "price", type := numeric, notNull := true },
      { name := "commission", type := numeric, notNull := true, default := .value (.numeric 0) },
      { name := "executed_at", type := .timestamptz, notNull := true, default := .now }]
    uniques := [{ column := "id" }] }
  let idempotent := (created.addColumns [{ name := "fill_id", type := .varchar 64 }]).addUnique
    { column := "fill_id", isPartial := true }
  idempotent.addColumns [
    { name := "run_id", type := .varchar 64 }, { name := "signal_id", type := .varchar 64 }]

end PaperTable

/-! ### The records -/

/-- A record by its attributes. -/
abbrev Attributes := List (String × SqlValue)

/-- `str | None` as a parameter or an attribute. -/
def optionalText (text : Option String) : SqlValue := text.elim .null .text

section Attributes

variable (uuidText : ℕ → String)

/-- An identity as text: `uuidText` is `str` of the identities that were drawn. -/
def Identifier.toText : Identifier → String
  | client id => id
  | uuid n => uuidText n

def PaperOrderState.attributes (order : PaperOrderState) : Attributes :=
  [("order_id", .text (order.orderId.toText uuidText)), ("symbol", .text order.symbol),
    ("side", .text order.side), ("quantity", .numeric order.quantity),
    ("status", .text order.status), ("created_at", .timestamp order.createdAt),
    ("client_order_id", optionalText order.clientOrderId), ("run_id", optionalText order.runId),
    ("signal_id", optionalText order.signalId)]

def PaperFillState.attributes (fill : PaperFillState) : Attributes :=
  [("fill_id", .text (fill.fillId.toText uuidText)), ("order_id", .text (fill.orderId.toText uuidText)),
    ("symbol", .text fill.symbol), ("quantity", .numeric fill.quantity),
    ("price", .numeric fill.price), ("executed_at", .timestamp fill.executedAt),
    ("run_id", optionalText fill.runId), ("signal_id", optionalText fill.signalId)]

end Attributes

def PaperPositionState.attributes (position : PaperPositionState) : Attributes :=
  [("symbol", .text position.symbol), ("quantity", .numeric position.quantity),
    ("average_price", .numeric position.averagePrice)]

def PaperRuntimeState.attributes (state : PaperRuntimeState) : Attributes :=
  [("last_processed_timestamp", state.lastProcessedTimestamp.elim .null .timestamp),
    ("last_market_sequence", .integer state.lastMarketSequence),
    ("cash_balance", .numeric state.cashBalance)]

namespace RecordClass

/-- The dataclasses, with the defaults of their fields. -/
def paperOrderState : RecordClass where
  fields := [("order_id", none), ("symbol", none), ("side", none), ("quantity", none),
    ("status", none), ("created_at", none), ("client_order_id", some .null), ("run_id", some .null),
    ("signal_id", some .null)]

def paperFillState : RecordClass where
  fields := [("fill_id", none), ("order_id", none), ("symbol", none), ("quantity", none),
    ("price", none), ("executed_at", none), ("run_id", some .null), ("signal_id", some .null)]

def paperPositionState : RecordClass where
  fields := [("symbol", none), ("quantity", none), ("average_price", none)]

def paperRuntimeState : RecordClass where
  fields := [("last_processed_timestamp", some .null), ("last_market_sequence", some (.integer 0)),
    ("cash_balance", some (.numeric 0))]

end RecordClass

/-! ### The repository -/

/-- The four tables. -/
structure PaperDatabase where
  runtimeState : Table := {}
  orders : Table := {}
  fills : Table := {}
  positions : Table := {}

inductive DatabaseError
  | sql (error : SqlError)
  | keyword (error : KeywordError)
  deriving DecidableEq

namespace PaperDatabase

variable (uuidText : ℕ → String) (now : Datetime) (db : PaperDatabase)

def saveState (state : PaperRuntimeState) : Except SqlError PaperDatabase :=
  (PaperTable.runtimeState.insert db.runtimeState now {
    values := [("id", .integer 1),
      ("last_processed_timestamp", state.lastProcessedTimestamp.elim .null .timestamp),
      ("last_market_sequence", .integer state.lastMarketSequence),
      ("cash_balance", .numeric state.cashBalance), ("updated_at", .timestamp now)]
    target := "id"
    action := .doUpdate
      ["last_processed_timestamp", "last_market_sequence", "cash_balance", "updated_at"] }).map
    fun runtimeState => { db with runtimeState }

def saveOrder (order : PaperOrderState) : Except SqlError PaperDatabase :=
  (PaperTable.orders.insert db.orders now {
    values := [("order_id", .text (order.orderId.toText uuidText)), ("symbol", .text order.symbol),
      ("side", .text order.side), ("quantity", .numeric order.quantity),
      ("status", .text order.status), ("created_at", .timestamp order.createdAt),
      ("client_order_id", optionalText order.clientOrderId), ("run_id", optionalText order.runId),
      ("signal_id", optionalText order.signalId)]
    target := "order_id"
    action := .doUpdate ["status"] }).map fun orders => { db with orders }

def saveFill (fill : PaperFillState) : Except SqlError PaperDatabase :=
  (PaperTable.fills.insert db.fills now {
    values := [("fill_id", .text (fill.fillId.toText uuidText)),
      ("order_id", .text (fill.orderId.toText uuidText)), ("symbol", .text fill.symbol),
      ("quantity", .numeric fill.quantity), ("price", .numeric fill.price),
      ("executed_at", .timestamp fill.executedAt), ("run_id", optionalText fill.runId),
      ("signal_id", optionalText fill.signalId)]
    target := "fill_id"
    action := .doNothing }).map fun fills => { db with fills }

def savePosition (position : PaperPositionState) : Except SqlError PaperDatabase :=
  (PaperTable.positions.insert db.positions now {
    values := [("symbol", .text position.symbol), ("quantity", .numeric position.quantity),
      ("average_price", .numeric position.averagePrice)]
    target := "symbol"
    action := .doUpdate ["quantity", "average_price"] }).map fun positions => { db with positions }

/-- `load_state`, which selects the three columns. -/
def loadState : Except KeywordError (Option Attributes) :=
  match db.runtimeState.rows.find? fun row => decide (row "id" = .integer 1) with
  | none => .ok none
  | some row => (RecordClass.paperRuntimeState.construct
      [("last_processed_timestamp", row "last_processed_timestamp"),
        ("last_market_sequence", row "last_market_sequence"),
        ("cash_balance", row "cash_balance")]).map some

def loadOrders : Except KeywordError (List Attributes) :=
  (PaperTable.orders.selectAll db.orders).mapM RecordClass.paperOrderState.construct

def loadFills : Except KeywordError (List Attributes) :=
  (PaperTable.fills.selectAll db.fills).mapM RecordClass.paperFillState.construct

def loadPositions : Except KeywordError (List Attributes) :=
  (PaperTable.positions.selectAll db.positions).mapM RecordClass.paperPositionState.construct

end PaperDatabase

/-- What is loaded of the four kinds of records. -/
structure LoadedRecords where
  orders : List Attributes
  fills : List Attributes
  positions : List Attributes
  state : Option Attributes

namespace PaperExecutionEngine

variable (uuidText : ℕ → String) (now : Datetime) (engine : PaperExecutionEngine)

/-- All records of the engine are saved in new tables. -/
def saveAll : Except SqlError PaperDatabase := do
  let db ← engine.orders.values.foldlM (PaperDatabase.saveOrder uuidText now) {}
  let db ← engine.fills.values.foldlM (PaperDatabase.saveFill uuidText now) db
  let db ← engine.positions.values.foldlM (PaperDatabase.savePosition now) db
  db.saveState now engine.savedState

end PaperExecutionEngine

/-- All records are loaded on another connection. -/
def PaperDatabase.loadAll (db : PaperDatabase) : Except KeywordError LoadedRecords := do
  return ⟨← db.loadOrders, ← db.loadFills, ← db.loadPositions, ← db.loadState⟩

namespace PaperExecutionEngine

variable (uuidText : ℕ → String) (now : Datetime) (engine : PaperExecutionEngine)

/-- Saving and loading succeed, and the records that are loaded are the engine's, in whatever order. -/
def RoundTrips : Prop :=
  ∃ db loaded, engine.saveAll uuidText now = .ok db ∧ db.loadAll = .ok loaded ∧
    loaded.orders.Perm (engine.orders.values.map (PaperOrderState.attributes uuidText)) ∧
    loaded.fills.Perm (engine.fills.values.map (PaperFillState.attributes uuidText)) ∧
    loaded.positions.Perm (engine.positions.values.map PaperPositionState.attributes) ∧
    loaded.state = some engine.savedState.attributes

end PaperExecutionEngine

/-! ### What cannot be saved or loaded -/

namespace PaperDatabase

variable {uuidText : ℕ → String} {now : Datetime} {db after : PaperDatabase}

theorem saveFill_eq_error (fill : PaperFillState) :
    db.saveFill uuidText now fill = .error (.noMatchingConstraint "fill_id") := by
  have hpartial : PaperTable.fills.arbitrates "fill_id" = false := by decide +kernel
  unfold saveFill
  rw [TableSchema.insert_of_not_arbitrates hpartial]
  rfl

theorem fills_of_saves {fills : List PaperFillState}
    (h : fills.foldlM (saveFill uuidText now) db = .ok after) : fills = [] ∧ after = db := by
  cases fills with
  | nil =>
    cases h
    exact ⟨rfl, rfl⟩
  | cons fill rest =>
    rw [List.foldlM_cons, saveFill_eq_error] at h
    cases h

theorem orders_of_saves {orders : List PaperOrderState}
    (h : orders.foldlM (saveOrder uuidText now) db = .ok after) (horders : orders ≠ []) :
    after.orders.rows ≠ [] := by
  refine foldlM_last (P := fun db => db.orders.rows ≠ []) h horders fun db order after hsave => ?_
  obtain ⟨table, htable, rfl⟩ := map_eq_ok_iff.mp hsave
  exact TableSchema.rows_of_insert htable

theorem positions_of_saves {positions : List PaperPositionState}
    (h : positions.foldlM (savePosition now) db = .ok after) (hpositions : positions ≠ []) :
    after.positions.rows ≠ [] := by
  refine foldlM_last (P := fun db => db.positions.rows ≠ []) h hpositions
    fun db position after hsave => ?_
  obtain ⟨table, htable, rfl⟩ := map_eq_ok_iff.mp hsave
  exact TableSchema.rows_of_insert htable

theorem orders_savePositions {positions : List PaperPositionState}
    (h : positions.foldlM (savePosition now) db = .ok after) : after.orders = db.orders := by
  refine foldlM_invariant (P := fun m => m.orders = db.orders) h rfl fun s position t hsave hs => ?_
  obtain ⟨table, -, rfl⟩ := map_eq_ok_iff.mp hsave
  exact hs

theorem saveState_tables {state : PaperRuntimeState} (h : db.saveState now state = .ok after) :
    after.orders = db.orders ∧ after.positions = db.positions := by
  obtain ⟨table, -, rfl⟩ := map_eq_ok_iff.mp h
  exact ⟨rfl, rfl⟩

theorem loadOrders_eq_error (h : db.orders.rows ≠ []) : db.loadOrders = .error (.unexpected "id") := by
  obtain ⟨row, rest, hrows⟩ := List.exists_cons_of_ne_nil h
  have hfield : "id" ∉ RecordClass.paperOrderState.fields.map Prod.fst := by decide +kernel
  unfold loadOrders TableSchema.selectAll
  rw [hrows, List.map_cons, List.mapM_cons]
  exact bind_eq_error_iff.mpr (.inl (RecordClass.construct_unexpected hfield))

theorem loadPositions_eq_error (h : db.positions.rows ≠ []) :
    db.loadPositions = .error (.unexpected "id") := by
  obtain ⟨row, rest, hrows⟩ := List.exists_cons_of_ne_nil h
  have hfield : "id" ∉ RecordClass.paperPositionState.fields.map Prod.fst := by decide +kernel
  unfold loadPositions TableSchema.selectAll
  rw [hrows, List.map_cons, List.mapM_cons]
  exact bind_eq_error_iff.mpr (.inl (RecordClass.construct_unexpected hfield))

end PaperDatabase

namespace PaperExecutionEngine

variable {uuidText : ℕ → String} {now : Datetime} {engine : PaperExecutionEngine}

/-- Of an engine with orders, fills or positions something is not saved or not loaded. -/
theorem RoundTrips.no_records (h : engine.RoundTrips uuidText now) :
    engine.orders.values = [] ∧ engine.fills.values = [] ∧ engine.positions.values = [] := by
  obtain ⟨db, loaded, hsave, hload, -⟩ := h
  obtain ⟨ordered, hordered, hsave⟩ := bind_eq_ok_iff.mp hsave
  obtain ⟨filled, hfilled, hsave⟩ := bind_eq_ok_iff.mp hsave
  obtain ⟨positioned, hpositioned, hsave⟩ := bind_eq_ok_iff.mp hsave
  obtain ⟨hfills, hfilled⟩ := PaperDatabase.fills_of_saves hfilled
  obtain ⟨horders, hpositions⟩ := PaperDatabase.saveState_tables hsave
  obtain ⟨orders, horderRows, hload⟩ := bind_eq_ok_iff.mp hload
  obtain ⟨fills, -, hload⟩ := bind_eq_ok_iff.mp hload
  obtain ⟨positions, hpositionRows, -⟩ := bind_eq_ok_iff.mp hload
  refine ⟨?_, hfills, ?_⟩
  · by_contra hnonempty
    have hrows := PaperDatabase.orders_of_saves hordered hnonempty
    rw [← hfilled, ← PaperDatabase.orders_savePositions hpositioned, ← horders] at hrows
    rw [PaperDatabase.loadOrders_eq_error hrows] at horderRows
    cases horderRows
  · by_contra hnonempty
    have hrows := PaperDatabase.positions_of_saves hpositioned hnonempty
    rw [← hpositions] at hrows
    rw [PaperDatabase.loadPositions_eq_error hrows] at hpositionRows
    cases hpositionRows

end PaperExecutionEngine

/-! ### The runtime state -/

/-- The columns keep the sequence and the cash as they are. -/
def Representable (state : PaperRuntimeState) : Prop :=
  fitsInteger 8 state.lastMarketSequence ∧ |state.cashBalance| < 10 ^ 12 ∧
    roundTo 8 state.cashBalance = state.cashBalance

namespace PaperDatabase

/-- The values that `save_state` gives to its columns. -/
def stateValues (now : Datetime) (state : PaperRuntimeState) : List (String × SqlValue) :=
  [("id", .integer 1),
    ("last_processed_timestamp", state.lastProcessedTimestamp.elim .null .timestamp),
    ("last_market_sequence", .integer state.lastMarketSequence),
    ("cash_balance", .numeric state.cashBalance), ("updated_at", .timestamp now)]

variable {now : Datetime} {db after : PaperDatabase} {state : PaperRuntimeState} {row : Row}

theorem assign_timestamp (moment : Option Datetime) :
    SqlType.assign .timestamptz (moment.elim .null .timestamp) = .ok (moment.elim .null .timestamp) := by
  cases moment <;> rfl

/-- What the columns of the row have, when it is admitted. -/
theorem stateRow_columns
    (h : PaperTable.runtimeState.newRow 1 now (stateValues now state) = .ok row) :
    row "id" = .integer 1 ∧
      row "last_processed_timestamp" = state.lastProcessedTimestamp.elim .null .timestamp ∧
      fitsInteger 8 state.lastMarketSequence ∧
      row "last_market_sequence" = .integer state.lastMarketSequence ∧
      |roundTo 8 state.cashBalance| < 10 ^ 12 ∧
      row "cash_balance" = .numeric (roundTo 8 state.cashBalance) := by
  have hnames : (PaperTable.runtimeState.columns.map Column.name).Nodup := by decide +kernel
  have hcolumn : ∀ column ∈ PaperTable.runtimeState.columns,
      column.type.assign (TableSchema.given 1 now (stateValues now state) column) =
        .ok (row column.name) :=
    fun column hcolumn => TableSchema.newRow_column h hnames hcolumn
  simp only [PaperTable.runtimeState, List.forall_mem_cons] at hcolumn
  obtain ⟨hid, htimestamp, hsequence, hcash, -⟩ := hcolumn
  obtain ⟨-, hid⟩ := SqlType.assign_integer_eq_ok_iff.mp hid
  have htimestamp := (assign_timestamp _).symm.trans htimestamp
  obtain ⟨hfits, hsequence⟩ := SqlType.assign_integer_eq_ok_iff.mp hsequence
  obtain ⟨hbound, hcash⟩ := SqlType.assign_numeric_eq_ok_iff.mp hcash
  exact ⟨hid.symm, (Except.ok.inj htimestamp).symm, hfits, hsequence.symm, hbound, hcash.symm⟩

theorem exists_stateRow (h : Representable state) :
    ∃ row, PaperTable.runtimeState.newRow 1 now (stateValues now state) = .ok row := by
  obtain ⟨hsequence, hbound, hexact⟩ := h
  have hfits : fitsInteger 4 1 := by decide +kernel
  refine TableSchema.exists_newRow (fun entry hentry => ?_) ?_
  · have hnames : (stateValues now state).map Prod.fst =
        PaperTable.runtimeState.columns.map Column.name := rfl
    exact hnames ▸ List.mem_map_of_mem hentry
  · show ∀ column ∈ [_, _, _, _, _], _
    simp only [List.forall_mem_cons, List.not_mem_nil, false_imp_iff, implies_true, and_true]
    refine ⟨⟨_, SqlType.assign_integer_eq_ok_iff.mpr ⟨hfits, rfl⟩, nofun⟩,
      ⟨_, assign_timestamp _, nofun⟩,
      ⟨_, SqlType.assign_integer_eq_ok_iff.mpr ⟨hsequence, rfl⟩, nofun⟩,
      ⟨_, SqlType.assign_numeric_eq_ok_iff.mpr ⟨hexact.symm ▸ hbound, rfl⟩, nofun⟩,
      ⟨.timestamp now, rfl, nofun⟩⟩

theorem loadState_of_row (hrows : db.runtimeState.rows = [row]) (hid : row "id" = .integer 1) :
    db.loadState = .ok (some [("last_processed_timestamp", row "last_processed_timestamp"),
      ("last_market_sequence", row "last_market_sequence"), ("cash_balance", row "cash_balance")]) := by
  have hfind : [row].find? (fun row => decide (row "id" = .integer 1)) = some row :=
    List.find?_cons_of_pos (decide_eq_true hid)
  unfold loadState
  rw [hrows, hfind]
  rfl

end PaperDatabase

namespace PaperExecutionEngine

variable {uuidText : ℕ → String} {now : Datetime} {engine : PaperExecutionEngine}

theorem saveAll_of_no_records (horders : engine.orders.values = []) (hfills : engine.fills.values = [])
    (hpositions : engine.positions.values = []) :
    engine.saveAll uuidText now = PaperDatabase.saveState now {} engine.savedState := by
  unfold saveAll
  rw [horders, hfills, hpositions]
  rfl

/-- The records of an engine come back exactly where it has executed nothing and the columns keep its
sequence and its cash. -/
theorem round_trips_iff (uuidText : ℕ → String) (now : Datetime) (engine : PaperExecutionEngine) :
    engine.RoundTrips uuidText now ↔
      engine.orders.values = [] ∧ engine.fills.values = [] ∧ engine.positions.values = [] ∧
        Representable engine.savedState := by
  constructor
  · intro h
    obtain ⟨horders, hfills, hpositions⟩ := h.no_records
    obtain ⟨db, loaded, hsave, hload, -, -, -, hstate⟩ := h
    refine ⟨horders, hfills, hpositions, ?_⟩
    rw [saveAll_of_no_records horders hfills hpositions] at hsave
    obtain ⟨table, htable, rfl⟩ := map_eq_ok_iff.mp hsave
    obtain ⟨-, row, hrow, rfl⟩ := TableSchema.insert_empty_iff.mp htable
    obtain ⟨hid, -, hfits, -, hbound, hcash⟩ := PaperDatabase.stateRow_columns hrow
    obtain ⟨orders, -, hload⟩ := bind_eq_ok_iff.mp hload
    obtain ⟨fills, -, hload⟩ := bind_eq_ok_iff.mp hload
    obtain ⟨positions, -, hload⟩ := bind_eq_ok_iff.mp hload
    obtain ⟨state, hloaded, hload⟩ := bind_eq_ok_iff.mp hload
    cases hload
    rw [PaperDatabase.loadState_of_row rfl hid, hcash] at hloaded
    cases hloaded
    have hkept := congrArg (Option.map fun attributes => attributes.lookup "cash_balance") hstate
    have hexact : roundTo 8 engine.savedState.cashBalance = engine.savedState.cashBalance :=
      SqlValue.numeric.inj (Option.some.inj (Option.some.inj hkept))
    exact ⟨hfits, hexact ▸ hbound, hexact⟩
  · rintro ⟨horders, hfills, hpositions, hrepresentable⟩
    have hadmitted : ∃ row, PaperTable.runtimeState.newRow 1 now
        (PaperDatabase.stateValues now engine.savedState) = .ok row :=
      PaperDatabase.exists_stateRow hrepresentable
    obtain ⟨row, hrow⟩ := hadmitted
    obtain ⟨hid, htimestamp, -, hsequence, -, hcash⟩ := PaperDatabase.stateRow_columns hrow
    have hid_unique : PaperTable.runtimeState.arbitrates "id" = true := by decide +kernel
    have hsave : engine.saveAll uuidText now =
        .ok { runtimeState := { rows := [row], serial := 2 } } := by
      rw [saveAll_of_no_records horders hfills hpositions]
      exact map_eq_ok_iff.mpr
        ⟨_, TableSchema.insert_empty_iff.mpr ⟨hid_unique, row, hrow, rfl⟩, rfl⟩
    let saved : PaperDatabase := { runtimeState := { rows := [row], serial := 2 } }
    have hrows : saved.runtimeState.rows = [row] := rfl
    have hstate := PaperDatabase.loadState_of_row hrows hid
    rw [htimestamp, hsequence, hcash, hrepresentable.2.2] at hstate
    refine ⟨_, ⟨[], [], [], some engine.savedState.attributes⟩, hsave, ?_, ?_, ?_, ?_, rfl⟩
    · unfold PaperDatabase.loadAll
      rw [hstate]
      rfl
    · rw [horders]
      exact .refl []
    · rw [hfills]
      exact .refl []
    · rw [hpositions]
      exact .refl []

/-- An engine that has bought one unit at 100. -/
def holder : PaperExecutionEngine :=
  ({} : PaperExecutionEngine).attemptAll [.execute {
    request := ⟨"BTCUSDT", .buy, 1⟩, marketPrice := some 100, clientOrderId := some "1", now := hour }]

/-- Its fill is not saved. -/
theorem holder_does_not_round_trip : ¬holder.RoundTrips (fun _ => "4b7d") hour := by
  intro h
  have hfills := congrArg List.length h.no_records.2.1
  revert hfills
  decide +kernel

end PaperExecutionEngine

end CryptoTrading
