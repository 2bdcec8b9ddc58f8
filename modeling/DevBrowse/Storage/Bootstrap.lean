import DevBrowse.Lib.Transaction
import DevBrowse.Storage.Sqlite
import Mathlib.Data.List.Infix

/-!
# Setting up the schema

When the database is opened, the tables of the stores are created where they are missing, and
then the version that the file records is compared with the one the program is for. The
statements are executed one after another, without a transaction around them, so that what a
failure leaves is what the statements before it have done.

`initializeSchema_error` says what that is: the tables are there that were created before
the failure (and `initializeSchema_ok` what is there where nothing fails). A file that is
turned away for its version has by then received all the tables it had not
(`initializeSchema_unchanged_iff`).
-/

namespace DevBrowse

namespace Storage

/-- The version of the schema. -/
def storageSchemaVersion : UInt32 := 3

/-- What the library says that the database is reached through. -/
inductive RusqliteError where
  /-- The database failed. -/
  | sqliteFailure (e : SqliteError)
  /-- A value is not of the kind that is asked for. -/
  | invalidColumnType (index : ℕ) (name : Text) (found : SqlType)
  deriving DecidableEq

/-- Why the storage does not start. -/
inductive StorageError where
  /-- The database, or the library that it is reached through. -/
  | sqlite (e : RusqliteError)
  /-- The file is of another version. -/
  | schemaVersion (found expected : UInt32)
  /-- What is in the file is not what should be there. -/
  | validation (message : Text)
  deriving DecidableEq

/-! ### The schema -/

/-- A table of the schema. -/
structure TableSchema where
  /-- The name. -/
  name : Text
  /-- The columns. -/
  columns : List Column
  deriving DecidableEq

/-- A column that has to have a value. -/
def required (name declaredType : String) : Column :=
  { name := name.toList, declaredType := declaredType.toList, notNull := true }

/-- A column of the primary key, which has to have a value. -/
def keyPart (name declaredType : String) : Column :=
  { name := name.toList, declaredType := declaredType.toList, notNull := true, inKey := true }

/-- The tables, in the order in which they are created. -/
def schemaTables : List TableSchema :=
  [⟨"meta".toList,
      [{ name := "key".toList, declaredType := "TEXT".toList, inKey := true },
        required "value" "TEXT"]⟩,
    ⟨"cookies".toList,
      [keyPart "partition_key" "BLOB", keyPart "name" "TEXT", required "value" "TEXT",
        { name := "expires_at".toList, declaredType := "INTEGER".toList },
        { required "http_only" "INTEGER" with default := .integer 0 },
        { required "secure" "INTEGER" with default := .integer 0 },
        { required "same_site" "TEXT" with default := .text "lax".toList }]⟩,
    ⟨"local_storage".toList,
      [keyPart "partition_key" "BLOB", keyPart "key" "TEXT", required "value" "TEXT"]⟩,
    ⟨"session_storage".toList,
      [keyPart "partition_key" "BLOB", keyPart "key" "TEXT", required "value" "TEXT"]⟩,
    ⟨"cache".toList,
      [keyPart "partition_key" "BLOB", keyPart "url" "TEXT", required "body" "BLOB",
        { name := "content_type".toList, declaredType := "TEXT".toList },
        required "fetched_at" "INTEGER"]⟩,
    ⟨"service_workers".toList,
      [keyPart "partition_key" "BLOB", keyPart "scope_url" "TEXT", required "script_url" "TEXT",
        { required "state" "TEXT" with default := .text "installed".toList },
        required "registered_at" "INTEGER"]⟩]

/-- `str::parse` for `u32`: digits, behind a `+` or not. -/
def parseU32 (s : Text) : Option UInt32 :=
  let digits := match s with
    | '+' :: rest => rest
    | s => s
  if digits = [] ∨ !digits.all Char.isDigit then none
  else
    let n := digits.foldl (fun n c => 10 * n + (c.toNat - '0'.toNat)) 0
    if n < UInt32.size then some (.ofNat n) else none

/-! ### Setting it up -/

/-- `row.get(0)`, as a text, of a row with one column of the name. -/
def textOf (name : Text) : SqlValue → Except RusqliteError Text
  | .text t => .ok t
  | v => .error (.invalidColumnType 0 name v.dataType)

/-- `SELECT value FROM meta WHERE key = 'schema_version'`, as a text. -/
def selectSchemaVersion : EStateM RusqliteError DatabaseFile (Option Text) := do
  let found ← (selectFirst "meta".toList "value".toList "key".toList
    (.text "schema_version".toList)).adaptExcept .sqliteFailure
  match found with
  | none => pure none
  | some v =>
    match textOf "value".toList v with
    | .ok t => pure (some t)
    | .error e => throw e

/-- `INSERT INTO meta (key, value) VALUES ('schema_version', version)`. -/
def insertSchemaVersion (version : UInt32) : EStateM SqliteError DatabaseFile Unit :=
  insertInto "meta".toList
    [("key".toList, .text "schema_version".toList),
      ("value".toList, .text (Nat.toDigits 10 version.toNat))]

variable (faults : Faults StorageError) (quoted : Text → Text)

/-- The migration from one version to another, of which there is none yet. -/
def migrate (found expected : UInt32) : Sql StorageError DatabaseFile Unit :=
  throw (.schemaVersion found expected)

/-- A table of the schema created. -/
def createTable (t : TableSchema) : Sql StorageError DatabaseFile Unit :=
  Sql.execute faults ((createTableIfNotExists t.name t.columns).adaptExcept
    fun e => .sqlite (.sqliteFailure e))

/-- Tables of the schema created, one after another. -/
def executeBatch : List TableSchema → Sql StorageError DatabaseFile Unit
  | [] => pure ()
  | t :: tables => do
    createTable faults t
    executeBatch tables

/-- The tables created, and the version looked at or put down. -/
def initializeSchema : Sql StorageError DatabaseFile Unit := do
  executeBatch faults schemaTables
  let existing ← Sql.execute faults (selectSchemaVersion.adaptExcept .sqlite)
  match existing with
  | some v =>
    match parseU32 v with
    | none =>
      throw (.validation ("non-numeric schema_version on disk: ".toList ++ quoted v))
    | some parsed =>
      if parsed ≠ storageSchemaVersion then migrate parsed storageSchemaVersion else pure ()
  | none =>
    Sql.execute faults ((insertSchemaVersion storageSchemaVersion).adaptExcept
      fun e => .sqlite (.sqliteFailure e))

/-! ### What is left where it fails -/

/-- The file with the tables of a schema, those that were missing being new. -/
def withTables (db : DatabaseFile) (tables : List TableSchema) : DatabaseFile :=
  tables.foldl (fun db t => withTable db t.name t.columns) db

/-- The tables whose creation is reached and does not fail, where `n` statements were executed
before. -/
def reached (faults : Faults StorageError) (db : DatabaseFile) : ℕ → List TableSchema →
    List TableSchema
  | _, [] => []
  | n, t :: tables =>
    if (faults n).isNone ∧ db.lookup t.name ≠ some .index then
      t :: reached faults db (n + 1) tables
    else []

variable {faults quoted} {db : DatabaseFile} {c c' : Connection DatabaseFile} {e : StorageError}
  {t : TableSchema} {tables : List TableSchema}

theorem mem_withTables_of_mem {name : Text} (h : name ∈ db) : name ∈ withTables db tables := by
  induction tables generalizing db with
  | nil => exact h
  | cons t tables ih => exact ih (mem_withTable.mpr (.inr h))

theorem mem_withTables (h : t ∈ tables) (db : DatabaseFile) :
    t.name ∈ withTables db tables := by
  induction tables generalizing db with
  | nil => exact absurd h List.not_mem_nil
  | cons t' tables ih =>
    rcases List.mem_cons.mp h with rfl | h
    · show t.name ∈ withTables (withTable db t.name t.columns) tables
      exact mem_withTables_of_mem (mem_withTable.mpr (.inl rfl))
    · exact ih h _

/-- A file is left as it is where it has all the tables. -/
theorem withTables_eq_self_iff : withTables db tables = db ↔ ∀ t ∈ tables, t.name ∈ db := by
  constructor
  · intro h t ht
    rw [← h]
    exact mem_withTables ht db
  · intro h
    induction tables with
    | nil => rfl
    | cons t tables ih =>
      obtain ⟨ht, htables⟩ := List.forall_mem_cons.mp h
      rw [withTables, List.foldl_cons, withTable_of_mem ht]
      exact ih htables

/-- A new table makes no difference to which others can be created. -/
theorem reached_withTable (db : DatabaseFile) (t : TableSchema) (n : ℕ)
    (tables : List TableSchema) :
    reached faults (withTable db t.name t.columns) n tables = reached faults db n tables := by
  induction tables generalizing n with
  | nil => rfl
  | cons t' tables ih => simp only [reached, ne_eq, lookup_withTable_eq_index_iff, ih]

/-- One table created, outside a transaction. -/
theorem createTable_eq (faults : Faults StorageError) (t : TableSchema) (hc : c.pending = none) :
    (¬ ((faults c.executed).isNone ∧ c.committed.lookup t.name ≠ some .index) ∧
        ∃ e c', createTable faults t c = .error e c' ∧ c'.committed = c.committed) ∨
      (((faults c.executed).isNone ∧ c.committed.lookup t.name ≠ some .index) ∧
        createTable faults t c =
          .ok () ⟨withTable c.committed t.name t.columns, none, c.executed + 1⟩) := by
  cases hfault : faults c.executed with
  | some fault =>
    refine .inl ⟨by simp, fault.error, Sql.faulted fault c, ?_, Sql.committed_faulted fault c⟩
    rw [createTable, Sql.execute, hfault]
  | none =>
    rw [createTable, Sql.execute_of_pending_eq_none hc hfault]
    rcases createTableIfNotExists_eq t.name t.columns c.committed with
      ⟨hindex, e, hrun⟩ | ⟨hindex, hrun⟩
    · refine .inl ⟨by simp [hindex], .sqlite (.sqliteFailure e), Sql.counted c, ?_, rfl⟩
      rw [EStateM.adaptExcept, hrun]
    · refine .inr ⟨⟨rfl, hindex⟩, ?_⟩
      rw [EStateM.adaptExcept, hrun, Sql.counted, hc]

/-- **The tables created**, one after another, until one cannot be. -/
theorem executeBatch_eq (faults : Faults StorageError) (tables : List TableSchema)
    (hc : c.pending = none) :
    match executeBatch faults tables c with
    | .ok _ c' => reached faults c.committed c.executed tables = tables ∧
        c'.committed = withTables c.committed tables ∧ c'.pending = none
    | .error _ c' =>
      c'.committed = withTables c.committed (reached faults c.committed c.executed tables) := by
  induction tables generalizing c with
  | nil => exact ⟨rfl, rfl, hc⟩
  | cons t tables ih =>
    rw [executeBatch]
    rcases createTable_eq faults t hc with ⟨hno, e, c', hrun, hfile⟩ | ⟨hyes, hrun⟩
    · rw [EStateM.bind_of_error hrun, reached, if_neg hno]
      exact hfile
    · rw [EStateM.bind_of_ok hrun, reached, if_pos hyes, ← reached_withTable c.committed t]
      have hrest := ih (c := ⟨withTable c.committed t.name t.columns, none, c.executed + 1⟩) rfl
      revert hrest
      cases executeBatch faults tables ⟨_, none, c.executed + 1⟩ with
      | ok _ c' =>
        rintro ⟨hreached, hfile, hpending⟩
        exact ⟨congrArg (t :: ·) hreached, hfile, hpending⟩
      | error _ c' => exact id

/-- Reading the version changes nothing. -/
theorem selectSchemaVersion_eq_ok {o : Option Text} {db' : DatabaseFile}
    (h : selectSchemaVersion db = .ok o db') : db' = db := by
  obtain ⟨found, db₁, hselect, hrest⟩ := EStateM.exists_of_bind_eq_ok h
  obtain rfl := selectFirst_eq_ok (EStateM.of_adaptExcept_eq_ok hselect)
  cases found with
  | none =>
    cases hrest
    rfl
  | some v =>
    cases hv : textOf "value".toList v with
    | ok t =>
      simp only [hv] at hrest
      cases hrest
      rfl
    | error e =>
      simp only [hv] at hrest
      cases hrest

/-- **What is left where setting up the schema fails**: the tables are there whose creation was
reached. -/
theorem initializeSchema_error (hc : c.pending = none)
    (h : initializeSchema faults quoted c = .error e c') :
    c'.committed = withTables c.committed (reached faults c.committed c.executed schemaTables) := by
  rw [initializeSchema] at h
  have hbatch := executeBatch_eq faults schemaTables hc
  rcases EStateM.exists_of_bind_eq_error h with hrun | ⟨u, c₁, hrun, hrest⟩
  · rw [hrun] at hbatch
    exact hbatch
  · rw [hrun] at hbatch
    obtain ⟨hreached, hfile, hpending⟩ := hbatch
    rw [hreached, ← hfile]
    rcases EStateM.exists_of_bind_eq_error hrest with hselect | ⟨existing, c₂, hselect, hrest⟩
    · exact Sql.committed_of_execute_eq_error hselect
    obtain ⟨-, v, hstmt, hfile₂, -, -⟩ := Sql.exists_of_execute_eq_ok_of_none hpending hselect
    have hread : c₂.committed = c₁.committed := by
      rw [hfile₂]
      exact selectSchemaVersion_eq_ok (EStateM.of_adaptExcept_eq_ok hstmt)
    rw [← hread]
    cases existing with
    | none => exact Sql.committed_of_execute_eq_error hrest
    | some v =>
      cases hparsed : parseU32 v with
      | none =>
        simp only [hparsed] at hrest
        cases hrest
        rfl
      | some parsed =>
        simp only [hparsed] at hrest
        split at hrest <;> cases hrest
        rfl

/-- **What is left where it does not fail**: the tables are all there, and the version is the
one there was, which is that of the program, or it is put down. -/
theorem initializeSchema_ok {u : Unit} (hc : c.pending = none)
    (h : initializeSchema faults quoted c = .ok u c') :
    let file := withTables c.committed schemaTables
    (∃ v, selectSchemaVersion file = .ok (some v) file ∧
        parseU32 v = some storageSchemaVersion ∧ c'.committed = file) ∨
      selectSchemaVersion file = .ok none file ∧
        insertSchemaVersion storageSchemaVersion file = .ok () c'.committed := by
  intro file
  rw [initializeSchema] at h
  obtain ⟨_, c₁, hrun, hrest⟩ := EStateM.exists_of_bind_eq_ok h
  have hbatch := executeBatch_eq faults schemaTables hc
  rw [hrun] at hbatch
  obtain ⟨-, hfile, hpending⟩ := hbatch
  obtain ⟨existing, c₂, hselect, hrest⟩ := EStateM.exists_of_bind_eq_ok hrest
  obtain ⟨-, file₂, hstmt, hfile₂, hpending₂, -⟩ :=
    Sql.exists_of_execute_eq_ok_of_none hpending hselect
  have hread := EStateM.of_adaptExcept_eq_ok hstmt
  obtain rfl := selectSchemaVersion_eq_ok hread
  rw [hfile] at hread hfile₂
  cases existing with
  | none =>
    obtain ⟨-, file₃, hinsert, hfile₃, -, -⟩ :=
      Sql.exists_of_execute_eq_ok_of_none hpending₂ hrest
    rw [hfile₂] at hinsert
    rw [hfile₃]
    exact .inr ⟨hread, EStateM.of_adaptExcept_eq_ok hinsert⟩
  | some v =>
    cases hparsed : parseU32 v with
    | none =>
      simp only [hparsed] at hrest
      cases hrest
    | some parsed =>
      simp only [hparsed] at hrest
      split at hrest
      · cases hrest
      · rename_i heq
        cases hrest
        exact .inl ⟨v, hread, hparsed.trans (congrArg some (not_not.mp heq)), hfile₂⟩

/-- **When a file that is turned away is left alone**: when all the tables are in it already
whose creation was reached. -/
theorem initializeSchema_unchanged_iff
    (h : initializeSchema faults quoted (.ofFile db) = .error e c') :
    c'.committed = db ↔ ∀ t ∈ reached faults db 0 schemaTables, t.name ∈ db := by
  rw [initializeSchema_error rfl h]
  exact withTables_eq_self_iff

/-- A file that has no more than the table with the version. -/
def metaOnly (version : String) : DatabaseFile :=
  (∅ : DatabaseFile).insert "meta".toList (.table
    ⟨[{ name := "key".toList, declaredType := "TEXT".toList, inKey := true },
        required "value" "TEXT"],
      [[.text "schema_version".toList, .text version.toList]]⟩)

/-- A file of another version that has all the tables is left alone. -/
theorem initializeSchema_unchanged_iff_complete :
    ∃ c', initializeSchema Faults.none id (.ofFile (withTables (metaOnly "9999") schemaTables)) =
        .error (.schemaVersion 9999 3) c' ∧
      c'.committed = withTables (metaOnly "9999") schemaTables := by
  obtain ⟨c', hrun⟩ : ∃ c', initializeSchema Faults.none id
      (.ofFile (withTables (metaOnly "9999") schemaTables)) =
        .error (.schemaVersion 9999 3) c' := ⟨_, rfl⟩
  exact ⟨c', hrun, (initializeSchema_unchanged_iff hrun).mpr (by decide)⟩

/-- A file of another version that has no other tables is turned away with five new ones. -/
theorem initializeSchema_changed :
    ∃ c', initializeSchema Faults.none id (.ofFile (metaOnly "9999")) =
        .error (.schemaVersion 9999 3) c' ∧
      c'.committed ≠ metaOnly "9999" ∧ c'.committed.keys.length = 6 := by
  refine ⟨_, rfl, fun h => ?_, by decide⟩
  exact absurd (congrArg (fun db => db.keys.length) h) (by decide)

end Storage

end DevBrowse
