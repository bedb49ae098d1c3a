import CryptoTrading.Kit.Fallible
import Mathlib.Algebra.Order.Field.Rat
import Mathlib.Algebra.Order.Floor.Defs
import Mathlib.Data.Rat.Floor

/-! Tables with typed columns and unique indexes: what assignment to a column does to a value, the
insertion that resolves conflicts on one column, the selection of all columns, and the record that is
constructed from a row's keywords. -/

namespace CryptoTrading.Kit

/-! ### Values and columns -/

inductive SqlValue
  | null
  | integer (n : ℤ)
  | numeric (q : ℚ)
  | text (s : String)
  | timestamp (moment : ℤ)
  deriving DecidableEq

inductive SqlType
  | integer (bytes : ℕ)
  | numeric (precision scale : ℕ)
  | varchar (limit : ℕ)
  | timestamptz
  deriving DecidableEq

inductive SqlError
  | undefinedColumn (name : String)
  | typeMismatch
  | integerOutOfRange
  | numericOverflow
  | stringTooLong (limit : ℕ)
  | notNullViolation (column : String)
  /-- "there is no unique or exclusion constraint matching the ON CONFLICT specification" -/
  | noMatchingConstraint (column : String)
  | uniqueViolation (column : String)
  deriving DecidableEq

/-- To `scale` decimals, ties away from zero. -/
def roundTo (scale : ℕ) (q : ℚ) : ℚ :=
  let scaled := q * 10 ^ scale
  let rounded : ℤ := if 0 ≤ scaled then ⌊scaled + 1 / 2⌋ else -⌊-scaled + 1 / 2⌋
  rounded / 10 ^ scale

/-- A value that an integer of that many bytes has. -/
def fitsInteger (bytes : ℕ) (n : ℤ) : Prop := -2 ^ (8 * bytes - 1) ≤ n ∧ n < 2 ^ (8 * bytes - 1)

instance (bytes : ℕ) (n : ℤ) : Decidable (fitsInteger bytes n) := by
  unfold fitsInteger
  infer_instance

/-- What a column keeps of a value that is assigned to it. -/
def SqlType.assign : SqlType → SqlValue → Except SqlError SqlValue
  | _, .null => .ok .null
  | .integer bytes, .integer n =>
    if fitsInteger bytes n then .ok (.integer n) else .error .integerOutOfRange
  | .numeric precision scale, .numeric q =>
    if |roundTo scale q| < 10 ^ (precision - scale) then .ok (.numeric (roundTo scale q))
    else .error .numericOverflow
  | .varchar limit, .text s =>
    -- what is beyond the limit may be blanks
    if (s.toList.drop limit).all (· = ' ') then .ok (.text (String.ofList (s.toList.take limit)))
    else .error (.stringTooLong limit)
  | .timestamptz, .timestamp moment => .ok (.timestamp moment)
  | _, _ => .error .typeMismatch

namespace SqlType

/-- What fits is kept. -/
theorem keep_eq_ok_iff {p : Prop} [Decidable p] {value kept : SqlValue} {e : SqlError} :
    (if p then Except.ok value else .error e) = .ok kept ↔ p ∧ value = kept := by
  split
  · rename_i hfits
    rw [Except.ok.injEq, and_iff_right hfits]
  · rename_i hfits
    exact ⟨nofun, fun h => absurd h.1 hfits⟩

theorem assign_integer_eq_ok_iff {bytes : ℕ} {n : ℤ} {kept : SqlValue} :
    (integer bytes).assign (.integer n) = .ok kept ↔ fitsInteger bytes n ∧ .integer n = kept :=
  keep_eq_ok_iff

theorem assign_numeric_eq_ok_iff {precision scale : ℕ} {q : ℚ} {kept : SqlValue} :
    (numeric precision scale).assign (.numeric q) = .ok kept ↔
      |roundTo scale q| < 10 ^ (precision - scale) ∧ .numeric (roundTo scale q) = kept :=
  keep_eq_ok_iff

end SqlType

inductive ColumnDefault
  | none
  | value (value : SqlValue)
  /-- The next value of the table's sequence. -/
  | serial
  | now

structure Column where
  name : String
  type : SqlType
  notNull : Bool := false
  default : ColumnDefault := .none

/-- `isPartial` is whether the index has a predicate of its own. -/
structure UniqueIndex where
  column : String
  isPartial : Bool := false

structure TableSchema where
  columns : List Column
  uniques : List UniqueIndex

abbrev Row := String → SqlValue

/-- The rows in the order of their insertion, and the next value of the sequence. -/
structure Table where
  rows : List Row := []
  serial : ℤ := 1

/-- What an insertion does where a row has its key: nothing, or an assignment of these columns. -/
inductive ConflictAction
  | doNothing
  | doUpdate (columns : List String)

/-- `INSERT ... ON CONFLICT (target) DO ...`. -/
structure Insert where
  values : List (String × SqlValue)
  target : String
  action : ConflictAction

namespace TableSchema

variable (schema : TableSchema)

/-- `ALTER TABLE ... ADD COLUMN`. -/
def addColumns (columns : List Column) : TableSchema :=
  { schema with columns := schema.columns ++ columns }

/-- `CREATE UNIQUE INDEX`. -/
def addUnique (index : UniqueIndex) : TableSchema :=
  { schema with uniques := schema.uniques ++ [index] }

/-- A unique index on all of the rows has the column. -/
def arbitrates (column : String) : Bool :=
  schema.uniques.any fun index => decide (index.column = column) && !index.isPartial

/-- What a column that is not given gets. -/
def defaultOf (serial now : ℤ) : ColumnDefault → SqlValue
  | .none => .null
  | .value value => value
  | .serial => .integer serial
  | .now => .timestamp now

/-- The value that is assigned to a column of a new row. -/
def given (serial now : ℤ) (values : List (String × SqlValue)) (column : Column) : SqlValue :=
  (values.lookup column.name).getD (defaultOf serial now column.default)

/-- The value that the new row has in a column. -/
def fieldOf (serial now : ℤ) (values : List (String × SqlValue)) (column : Column) :
    Except SqlError (String × SqlValue) := do
  let value ← column.type.assign (given serial now values column)
  if column.notNull && decide (value = .null) then .error (.notNullViolation column.name)
  else .ok (column.name, value)

def newRow (serial now : ℤ) (values : List (String × SqlValue)) : Except SqlError Row :=
  match values.find? fun entry => decide (entry.1 ∉ schema.columns.map Column.name) with
  | some entry => .error (.undefinedColumn entry.1)
  | none => (schema.columns.mapM (fieldOf serial now values)).map fun fields name =>
      (fields.lookup name).getD .null

/-- Two rows have one value, that is not null, in a column. -/
def conflicts (column : String) (row other : Row) : Bool :=
  decide (row column = other column) && decide (row column ≠ .null)

def insert (table : Table) (now : ℤ) (statement : Insert) : Except SqlError Table :=
  if schema.arbitrates statement.target then do
    let row ← schema.newRow table.serial now statement.values
    let serial := table.serial + 1
    if table.rows.any (conflicts statement.target row) then
      match statement.action with
      | .doNothing => return { table with serial }
      | .doUpdate columns =>
        return { rows := table.rows.map fun old =>
                   if conflicts statement.target row old then
                     fun name => if name ∈ columns then row name else old name
                   else old
                 serial }
    else
      match schema.uniques.find? fun index => table.rows.any (conflicts index.column row) with
      | some index => .error (.uniqueViolation index.column)
      | none => return { rows := table.rows ++ [row], serial }
  else .error (.noMatchingConstraint statement.target)

/-- `SELECT *`. -/
def selectAll (table : Table) : List (List (String × SqlValue)) :=
  table.rows.map fun row => schema.columns.map fun column => (column.name, row column.name)

variable {schema} {serial now : ℤ} {values : List (String × SqlValue)} {table after : Table}
  {statement : Insert}

theorem fieldOf_eq_ok_iff {column : Column} {field : String × SqlValue} :
    fieldOf serial now values column = .ok field ↔
      ∃ value, column.type.assign (given serial now values column) = .ok value ∧
        (column.notNull = true → value ≠ .null) ∧ field = (column.name, value) := by
  unfold fieldOf
  rw [bind_eq_ok_iff]
  refine exists_congr fun value => and_congr_right fun _ => ?_
  split
  · rename_i hnull
    obtain ⟨hnotNull, hnull⟩ := Bool.and_eq_true_iff.mp hnull
    exact ⟨nofun, fun h => absurd (of_decide_eq_true hnull) (h.1 hnotNull)⟩
  · rename_i hfine
    constructor
    · intro h
      cases h
      exact ⟨fun hnotNull hnull => hfine (by simp [hnotNull, hnull]), rfl⟩
    · rintro ⟨-, rfl⟩
      rfl

/-- The fields of a new row, one for each column. -/
theorem lookup_fields {columns : List Column} {fields : List (String × SqlValue)}
    (h : columns.mapM (fieldOf serial now values) = .ok fields)
    (hnames : (columns.map Column.name).Nodup) {column : Column} (hcolumn : column ∈ columns) :
    ∃ value, column.type.assign (given serial now values column) = .ok value ∧
      fields.lookup column.name = some value := by
  induction columns generalizing fields with
  | nil => cases hcolumn
  | cons first rest ih =>
    rw [List.mapM_cons] at h
    obtain ⟨field, hfield, h⟩ := bind_eq_ok_iff.mp h
    obtain ⟨later, hlater, h⟩ := bind_eq_ok_iff.mp h
    cases h
    obtain ⟨value, hassign, -, rfl⟩ := fieldOf_eq_ok_iff.mp hfield
    obtain ⟨hfresh, hrest⟩ := List.nodup_cons.mp hnames
    rcases List.mem_cons.mp hcolumn with rfl | hcolumn
    · exact ⟨value, hassign, List.lookup_cons_self⟩
    · obtain ⟨value', hassign', hlookup⟩ := ih hlater hrest hcolumn
      have hne : (column.name == first.name) = false := by
        rw [beq_eq_false_iff_ne]
        rintro heq
        exact hfresh (heq ▸ List.mem_map_of_mem hcolumn)
      exact ⟨value', hassign', by rw [List.lookup_cons, hne, hlookup]⟩

/-- A new row has in each column what the column keeps of the value that is assigned to it. -/
theorem newRow_column {row : Row} (h : schema.newRow serial now values = .ok row)
    (hnames : (schema.columns.map Column.name).Nodup) {column : Column}
    (hcolumn : column ∈ schema.columns) :
    column.type.assign (given serial now values column) = .ok (row column.name) := by
  unfold newRow at h
  split at h
  · cases h
  · obtain ⟨fields, hfields, rfl⟩ := map_eq_ok_iff.mp h
    obtain ⟨value, hassign, hlookup⟩ := lookup_fields hfields hnames hcolumn
    rw [hassign]
    show Except.ok value = Except.ok ((fields.lookup column.name).getD .null)
    rw [hlookup]
    rfl

/-- A row is admitted where its columns are known and admit what they are given. -/
theorem exists_newRow (hknown : ∀ entry ∈ values, entry.1 ∈ schema.columns.map Column.name)
    (hassign : ∀ column ∈ schema.columns, ∃ value,
      column.type.assign (given serial now values column) = .ok value ∧
        (column.notNull = true → value ≠ .null)) :
    ∃ row, schema.newRow serial now values = .ok row := by
  have hfields : ∀ columns : List Column, (∀ column ∈ columns, column ∈ schema.columns) →
      ∃ fields, columns.mapM (fieldOf serial now values) = .ok fields := by
    intro columns hcolumns
    induction columns with
    | nil => exact ⟨[], rfl⟩
    | cons first rest ih =>
      obtain ⟨later, hlater⟩ := ih fun column h => hcolumns column (List.mem_cons_of_mem _ h)
      obtain ⟨value, hvalue, hnotNull⟩ := hassign first (hcolumns first (List.mem_cons_self ..))
      refine ⟨(first.name, value) :: later, ?_⟩
      rw [List.mapM_cons]
      refine bind_eq_ok_iff.mpr ⟨_, fieldOf_eq_ok_iff.mpr ⟨value, hvalue, hnotNull, rfl⟩, ?_⟩
      exact bind_eq_ok_iff.mpr ⟨later, hlater, rfl⟩
  have hnone : (values.find? fun entry => decide (entry.1 ∉ schema.columns.map Column.name)) = none := by
    rw [List.find?_eq_none]
    intro entry hentry hunknown
    exact of_decide_eq_true hunknown (hknown entry hentry)
  obtain ⟨fields, hfields⟩ := hfields schema.columns fun _ h => h
  unfold newRow
  rw [hnone]
  exact ⟨_, map_eq_ok_iff.mpr ⟨fields, hfields, rfl⟩⟩

/-- An index with a predicate of its own resolves no conflict. -/
theorem insert_of_not_arbitrates (h : schema.arbitrates statement.target = false) :
    schema.insert table now statement = .error (.noMatchingConstraint statement.target) := by
  unfold insert
  rw [h]
  rfl

/-- A table that was inserted into has a row. -/
theorem rows_of_insert (h : schema.insert table now statement = .ok after) : after.rows ≠ [] := by
  unfold insert at h
  split at h
  · obtain ⟨row, -, h⟩ := bind_eq_ok_iff.mp h
    dsimp only at h
    split at h
    · rename_i hconflict
      have hrows : table.rows ≠ [] := by
        rintro hnil
        rw [hnil] at hconflict
        cases hconflict
      split at h <;> cases h
      · exact hrows
      · simpa using hrows
    · split at h <;> cases h
      simp
  · cases h

/-- The first row of an empty table. -/
theorem insert_empty_iff : schema.insert {} now statement = .ok after ↔
    schema.arbitrates statement.target = true ∧ ∃ row, schema.newRow 1 now statement.values = .ok row ∧
      after = { rows := [row], serial := 2 } := by
  have hfree : ∀ column row, ¬([] : List Row).any (conflicts column row) = true := by simp
  have hnone : ∀ row,
      (schema.uniques.find? fun index => ([] : List Row).any (conflicts index.column row)) = none :=
    fun row => by simp
  unfold insert
  split
  · rename_i harbitrates
    rw [bind_eq_ok_iff]
    refine ⟨fun ⟨row, hrow, h⟩ => ⟨harbitrates, row, hrow, ?_⟩, fun ⟨_, row, hrow, h⟩ => ⟨row, hrow, ?_⟩⟩
    · dsimp only at h
      rw [if_neg (hfree _ row), hnone] at h
      exact (Except.ok.inj h).symm
    · dsimp only
      rw [if_neg (hfree _ row), hnone, h]
      rfl
  · rename_i harbitrates
    exact ⟨nofun, fun h => absurd h.1 harbitrates⟩

end TableSchema

/-! ### Records -/

/-- A class of records: its fields, with the defaults of those that have one. -/
structure RecordClass where
  fields : List (String × Option SqlValue)

inductive KeywordError
  /-- "got an unexpected keyword argument '{name}'" -/
  | unexpected (name : String)
  /-- "missing required positional argument: '{name}'" -/
  | missing (name : String)
  deriving DecidableEq

/-- The record that is constructed from keyword arguments, by its fields. -/
def RecordClass.construct (cls : RecordClass) (keywords : List (String × SqlValue)) :
    Except KeywordError (List (String × SqlValue)) :=
  match keywords.find? fun keyword => decide (keyword.1 ∉ cls.fields.map Prod.fst) with
  | some keyword => .error (.unexpected keyword.1)
  | none => cls.fields.mapM fun field =>
      match (keywords.lookup field.1).or field.2 with
      | some value => .ok (field.1, value)
      | none => .error (.missing field.1)

/-- A keyword that is no field is not admitted. -/
theorem RecordClass.construct_unexpected {cls : RecordClass} {keyword : String × SqlValue}
    {rest : List (String × SqlValue)} (h : keyword.1 ∉ cls.fields.map Prod.fst) :
    cls.construct (keyword :: rest) = .error (.unexpected keyword.1) := by
  have hfind : (keyword :: rest).find? (fun keyword => decide (keyword.1 ∉ cls.fields.map Prod.fst)) =
      some keyword := List.find?_cons_of_pos (decide_eq_true h)
  unfold construct
  rw [hfind]

end CryptoTrading.Kit
