import DevBrowse.Lib.HashMap
import DevBrowse.Lib.Text
import Mathlib.Data.List.Basic

/-!
# What a database file holds

A file of SQLite has tables, views and indexes, each under a name that no other of them has.
The names are without regard to case, and are in lower case here. The statements are the ones
that the stores' schema is set up with: a table created where there is none of its name, the
first row with a given value in one column read, and a row added.
-/

namespace DevBrowse

namespace Storage

/-- What SQLite says of a failure. -/
structure SqliteError where
  /-- The result code. -/
  code : ℤ
  /-- The text that goes with it. -/
  message : Option Text
  deriving DecidableEq

/-- `SQLITE_ERROR`, with its text. -/
def SqliteError.generic (message : Text) : SqliteError := ⟨1, some message⟩

/-- `SQLITE_CONSTRAINT`, with its text. -/
def SqliteError.constraint (message : Text) : SqliteError := ⟨19, some message⟩

/-! ### Tables and their values -/

/-- A value in a row. -/
inductive SqlValue where
  /-- No value. -/
  | null
  /-- An integer. -/
  | integer (n : Int64)
  /-- A number with a point, as its bits. -/
  | real (bits : UInt64)
  /-- A text. -/
  | text (t : Text)
  /-- Bytes. -/
  | blob (bytes : List UInt8)
  deriving DecidableEq

/-- What kind of value there is. -/
inductive SqlType where
  /-- None. -/
  | null
  /-- An integer. -/
  | integer
  /-- A number with a point. -/
  | real
  /-- A text. -/
  | text
  /-- Bytes. -/
  | blob
  deriving DecidableEq

/-- The kind of a value. -/
def SqlValue.dataType : SqlValue → SqlType
  | null => .null
  | integer _ => .integer
  | real _ => .real
  | text _ => .text
  | blob _ => .blob

/-- A column. -/
structure Column where
  /-- The name. -/
  name : Text
  /-- The type it is declared with. -/
  declaredType : Text
  /-- Whether every row has a value in it. -/
  notNull : Bool := false
  /-- The value where none is given. -/
  default : SqlValue := .null
  /-- Whether it is part of the primary key. -/
  inKey : Bool := false
  deriving DecidableEq

/-- A table: its columns, and the rows, each with a value for every column. -/
structure SqlTable where
  /-- The columns. -/
  columns : List Column
  /-- The rows. -/
  rows : List (List SqlValue)
  deriving DecidableEq

/-- Where a column of a name stands. -/
def SqlTable.column (t : SqlTable) (name : Text) : Option ℕ :=
  t.columns.findIdx? fun c => c.name = name

/-- What there may be of a name. -/
inductive SchemaObject where
  /-- A table. -/
  | table (t : SqlTable)
  /-- A view, with the rows it shows. -/
  | view (t : SqlTable)
  /-- An index. -/
  | index
  deriving DecidableEq

/-- What is in a file, by name. -/
abbrev DatabaseFile := HashMap Text SchemaObject

/-! ### Statements -/

/-- `CREATE TABLE IF NOT EXISTS name (columns)`. A view counts as a table. -/
def createTableIfNotExists (name : Text) (columns : List Column) :
    EStateM SqliteError DatabaseFile Unit := fun db =>
  match db.lookup name with
  | none => .ok () (db.insert name (.table ⟨columns, []⟩))
  | some .index => .error (.generic ("there is already an index named ".toList ++ name)) db
  | some _ => .ok () db

/-- `SELECT result FROM name WHERE column = value`: the first row, if there is one. -/
def selectFirst (name result column : Text) (value : SqlValue) :
    EStateM SqliteError DatabaseFile (Option SqlValue) := fun db =>
  match db.lookup name with
  | some (.table t) | some (.view t) =>
    match t.column result, t.column column with
    | some r, some c =>
      .ok ((t.rows.find? fun row => row[c]? = some value).map fun row => row[r]?.getD .null) db
    | none, _ => .error (.generic ("no such column: ".toList ++ result)) db
    | some _, none => .error (.generic ("no such column: ".toList ++ column)) db
  | some .index | none => .error (.generic ("no such table: ".toList ++ name)) db

/-- The row an `INSERT` that gives some of the columns makes. -/
def SqlTable.newRow (t : SqlTable) (given : List (Text × SqlValue)) : List SqlValue :=
  t.columns.map fun c => ((given.find? fun g => g.1 = c.name).map Prod.snd).getD c.default

/-- Whether two rows have the same primary key; one without a value in it is like no other. -/
def SqlTable.sameKey (t : SqlTable) (row row' : List SqlValue) : Bool :=
  t.columns.any Column.inKey &&
    (t.columns.zip (row.zip row')).all fun e => !e.1.inKey || (e.2.1 = e.2.2 && e.2.1 ≠ .null)

/-- `INSERT INTO name (columns) VALUES (values)`. -/
def insertInto (name : Text) (given : List (Text × SqlValue)) :
    EStateM SqliteError DatabaseFile Unit := fun db =>
  match db.lookup name with
  | some (.table t) =>
    match given.find? fun g => t.column g.1 = none with
    | some g =>
      .error (.generic ("table ".toList ++ name ++ " has no column named ".toList ++ g.1)) db
    | none =>
      let row := t.newRow given
      if (t.columns.zip row).any fun e => e.1.notNull && e.2 = .null then
        .error (.constraint ("NOT NULL constraint failed: ".toList ++ name)) db
      else if t.rows.any (t.sameKey row) then
        .error (.constraint ("UNIQUE constraint failed: ".toList ++ name)) db
      else .ok () (db.insert name (.table ⟨t.columns, t.rows ++ [row]⟩))
  | some (.view _) =>
    .error (.generic ("cannot modify ".toList ++ name ++ " because it is a view".toList)) db
  | some .index | none => .error (.generic ("no such table: ".toList ++ name)) db

/-! ### What they do to the file -/

variable {db db' : DatabaseFile} {name : Text} {columns : List Column}

/-- The file with a table of a name, which is a new one where there was nothing of it. -/
def withTable (db : DatabaseFile) (name : Text) (columns : List Column) : DatabaseFile :=
  match db.lookup name with
  | none => db.insert name (.table ⟨columns, []⟩)
  | some _ => db

theorem withTable_of_mem (h : name ∈ db) : withTable db name columns = db := by
  obtain ⟨o, ho⟩ := HashMap.mem_iff_lookup.mp h
  rw [withTable, ho]

theorem mem_withTable {other : Text} :
    other ∈ withTable db name columns ↔ other = name ∨ other ∈ db := by
  rw [withTable]
  split
  · rw [AList.mem_insert]
  · rename_i o ho
    refine ⟨.inr, fun h => h.elim (fun hname => ?_) id⟩
    rw [hname]
    exact HashMap.mem_iff_lookup.mpr ⟨o, ho⟩

/-- No index comes from creating a table. -/
theorem lookup_withTable_eq_index_iff {other : Text} :
    (withTable db name columns).lookup other = some .index ↔ db.lookup other = some .index := by
  rw [withTable]
  split
  · rename_i hnone
    rw [HashMap.lookup_insert_eq]
    split
    · rename_i hother
      subst hother
      simp [hnone]
    · rfl
  · rfl

/-- Creating a table fails where there is an index of the name, and adds it where there is
nothing of the name. -/
theorem createTableIfNotExists_eq (name : Text) (columns : List Column) (db : DatabaseFile) :
    (db.lookup name = some .index ∧
        ∃ e, createTableIfNotExists name columns db = .error e db) ∨
      (db.lookup name ≠ some .index ∧
        createTableIfNotExists name columns db = .ok () (withTable db name columns)) := by
  rw [createTableIfNotExists, withTable]
  rcases hlookup : db.lookup name with _ | (t | t | _)
  · exact .inr ⟨nofun, rfl⟩
  · exact .inr ⟨nofun, rfl⟩
  · exact .inr ⟨nofun, rfl⟩
  · exact .inl ⟨rfl, _, rfl⟩

/-- Reading changes nothing. -/
theorem selectFirst_eq_ok {result column : Text} {value : SqlValue} {o : Option SqlValue}
    (h : selectFirst name result column value db = .ok o db') : db' = db := by
  rw [selectFirst] at h
  split at h
  · split at h <;> cases h
    rfl
  · split at h <;> cases h
    rfl
  · cases h
  · cases h

end Storage

end DevBrowse
