import DevBrowse.Lib.Noninterference
import DevBrowse.Lib.Table
import DevBrowse.Network.PartitionKey

/-!
# The gatekeeper and the database behind it

Every request to a store carries the triple it is made for, a site under a profile and a
context, and the key it claims for the triple. The gatekeeper derives the key of the triple
once more and lets the request through under the derived key, or not at all.

Behind it is a database with one table for each store, all of them keyed by a partition and
a name. The database does not fail and executes a statement as the relational algebra has
it; the errors that are left are the gatekeeper's and those of the checks on what is to be
stored. The crates of the network and of storage each have a type of partition keys, with
the same derivation; here there is one.
-/

namespace DevBrowse

open Network (PartitionKey)

namespace Storage

/-- What the stores take from elsewhere. -/
structure Environment where
  /-- The hash function the partition keys are derived with. -/
  sha256 : List UInt8 → Vector UInt8 32
  /-- A text in quotes, as it is put into a message. -/
  quoted : Text → Text

/-! ### Requests -/

/-- What a partition belongs to. -/
structure Triple where
  /-- The site. -/
  siteOrigin : Text
  /-- The profile. -/
  identityProfileId : Uuid
  /-- The context. -/
  contextId : Uuid
  deriving DecidableEq

/-- The key of the partition of a triple. -/
def Triple.key (env : Environment) (t : Triple) : PartitionKey :=
  PartitionKey.derive env.sha256 t.siteOrigin t.identityProfileId t.contextId

/-- A request, as it arrives at the gatekeeper. -/
structure StorageRequest where
  /-- The site it is made for. -/
  siteOrigin : Text
  /-- The profile it is made under. -/
  identityProfileId : Uuid
  /-- The context it is made in. -/
  contextId : Uuid
  /-- The key the caller claims for them. -/
  declaredKey : PartitionKey

/-- The triple a request is made for. -/
def StorageRequest.triple (req : StorageRequest) : Triple :=
  ⟨req.siteOrigin, req.identityProfileId, req.contextId⟩

/-- Why the gatekeeper turns a request away. -/
inductive GatekeeperError where
  /-- The declared key is not the key of the triple. -/
  | keyMismatch
  deriving DecidableEq

/-- Why a store does not do what it is asked. -/
inductive StoreError where
  /-- The gatekeeper turned the request away. -/
  | gatekeeper (e : GatekeeperError)
  /-- The data did not pass a check. -/
  | validation (message : Text)
  deriving DecidableEq

/-- The key a request is let through under. -/
def authorize (env : Environment) (req : StorageRequest) :
    Except GatekeeperError PartitionKey :=
  let expected := PartitionKey.derive env.sha256 req.siteOrigin req.identityProfileId req.contextId
  if expected = req.declaredKey then .ok expected else .error .keyMismatch

/-! ### The database -/

/-- The stores, each with a table of its name. -/
inductive Store where
  /-- Cookies. -/
  | cookies
  /-- Local storage. -/
  | localStorage
  /-- Session storage. -/
  | sessionStorage
  /-- The cache of responses. -/
  | cache
  /-- Registrations of service workers. -/
  | serviceWorker
  deriving DecidableEq

/-- The name of a store, which is the name of its table. -/
def Store.name : Store → Text
  | cookies => "cookies".toList
  | localStorage => "local_storage".toList
  | sessionStorage => "session_storage".toList
  | cache => "cache".toList
  | serviceWorker => "service_workers".toList

/-- A row of `cookies`, next to its key. -/
structure CookieRow where
  /-- The value of the cookie. -/
  value : Text
  /-- When it ends, in seconds, if it is not the cookie of a session. -/
  expiresAt : Option Int64
  /-- Not zero where it is kept from scripts. -/
  httpOnly : Int64
  /-- Not zero where it is for secure connections only. -/
  secure : Int64
  /-- Which sites send it. -/
  sameSite : Text
  deriving DecidableEq

/-- A row of `cache`, next to its key. -/
structure CacheRow where
  /-- The bytes of the response. -/
  body : List UInt8
  /-- Their type. -/
  contentType : Option Text
  /-- When they were stored, in seconds. -/
  fetchedAt : Int64
  deriving DecidableEq

/-- A row of `service_workers`, next to its key. -/
structure ServiceWorkerRow where
  /-- Where the script is. -/
  scriptUrl : Text
  /-- The state of its life cycle. -/
  state : Text
  /-- When it was registered, in seconds. -/
  registeredAt : Int64
  deriving DecidableEq

/-- What a row of a store's table holds next to its key. -/
def Store.Row : Store → Type
  | cookies => CookieRow
  | localStorage => Text
  | sessionStorage => Text
  | cache => CacheRow
  | serviceWorker => ServiceWorkerRow

/-- A table for each store. -/
abbrev Database := (s : Store) → Table PartitionKey Text s.Row

/-- A database without rows. -/
def Database.empty : Database := fun _ => ∅

/-- The database with another table for one of the stores. -/
def Database.withTable (db : Database) (s : Store) (t : Table PartitionKey Text s.Row) :
    Database :=
  Function.update db s t

/-- What a database holds of a partition, store by store. -/
def Database.rows (p : PartitionKey) (db : Database) (s : Store) : List (Text × s.Row) :=
  Table.rows p (db s)

/-- The order of names in the database: the order of their bytes. -/
def bytesLe : List UInt8 → List UInt8 → Bool
  | [], _ => true
  | _ :: _, [] => false
  | a :: s, b :: t => a < b || (a == b && bytesLe s t)

/-- The order of names. -/
def nameLe (a b : Text) : Bool := bytesLe a.utf8Bytes b.utf8Bytes

/-- A program over the database. -/
abbrev StoreM (α : Type) := EStateM StoreError Database α

/-- The gatekeeper's answer, as the first step of a program. -/
def gate (env : Environment) (req : StorageRequest) : StoreM PartitionKey :=
  match authorize env req with
  | .ok key => pure key
  | .error e => throw (.gatekeeper e)

/-! ### Statements

A statement is about the table of one store and names one partition. -/

/-- `INSERT OR REPLACE INTO s VALUES (p, name, r)`. -/
def insertOrReplace (s : Store) (p : PartitionKey) (name : Text) (r : s.Row) : StoreM Unit :=
  modify fun db => db.withTable s ((db s).insertOrReplace p name r)

/-- `SELECT … FROM s WHERE partition_key = p AND name = name`. -/
def select (s : Store) (p : PartitionKey) (name : Text) : StoreM (Option s.Row) := do
  let db ← get
  pure ((db s).select p name)

/-- `SELECT … FROM s WHERE partition_key = p ORDER BY name`. -/
def selectAll (s : Store) (p : PartitionKey) : StoreM (List (Text × s.Row)) := do
  let db ← get
  pure ((db s).selectAll nameLe p)

/-- `DELETE FROM s WHERE partition_key = p AND name = name`: how many rows were removed. -/
def deleteRow (s : Store) (p : PartitionKey) (name : Text) : StoreM ℕ := do
  let db ← get
  set (db.withTable s ((db s).delete p name))
  pure (if ((db s).select p name).isSome then 1 else 0)

/-- `DELETE FROM s WHERE partition_key = p`: how many rows were removed. -/
def deletePartition (s : Store) (p : PartitionKey) : StoreM ℕ := do
  let db ← get
  set (db.withTable s ((db s).deletePartition p))
  pure ((db s).rows p).length

/-! ### A statement concerns one partition -/

variable {db db' : Database} {s : Store} {p q : PartitionKey}

theorem Database.withTable_self (db : Database) (t : Table PartitionKey Text s.Row) :
    db.withTable s t s = t := by
  rw [Database.withTable, Function.update_self]

theorem Database.withTable_of_ne {s' : Store} (db : Database)
    (t : Table PartitionKey Text s.Row) (h : s' ≠ s) : db.withTable s t s' = db s' := by
  rw [Database.withTable, Function.update_of_ne h]

theorem Database.rows_withTable (db : Database) (s : Store) (t : Table PartitionKey Text s.Row)
    (p : PartitionKey) :
    (db.withTable s t).rows p = Function.update (db.rows p) s (Table.rows p t) := by
  funext s'
  by_cases h : s' = s
  · subst h
    rw [Function.update_self, Database.rows, Database.withTable_self]
  · rw [Function.update_of_ne h, Database.rows, Database.withTable_of_ne db t h]
    rfl

/-- Replacing a table by one with the same rows in a partition does not show there. -/
theorem Database.rows_withTable_of_eq {t : Table PartitionKey Text s.Row}
    (h : Table.rows p t = Table.rows p (db s)) : (db.withTable s t).rows p = db.rows p := by
  rw [Database.rows_withTable, h]
  exact Function.update_eq_self s (db.rows p)

theorem confined_insertOrReplace (s : Store) (p : PartitionKey) (name : Text) (r : s.Row) :
    Confined Database.rows p (insertOrReplace s p name r) where
  reply _ _ _ := rfl
  after db db' h := by
    show (db.withTable s _).rows p = (db'.withTable s _).rows p
    have hs : Table.rows p (db s) = Table.rows p (db' s) := congrFun h s
    rw [Database.rows_withTable, Database.rows_withTable, Table.rows_insertOrReplace,
      Table.rows_insertOrReplace, h, hs]
  frame q hq db :=
    Database.rows_withTable_of_eq (Table.rows_insertOrReplace_of_ne hq name r (db s))

theorem confined_select (s : Store) (p : PartitionKey) (name : Text) :
    Confined Database.rows p (select s p name) where
  reply db db' h := by
    have hs : Table.rows p (db s) = Table.rows p (db' s) := congrFun h s
    exact congrArg Except.ok (Table.select_congr hs name)
  after _ _ h := h
  frame _ _ _ := rfl

theorem confined_selectAll (s : Store) (p : PartitionKey) :
    Confined Database.rows p (selectAll s p) where
  reply db db' h := by
    have hs : Table.rows p (db s) = Table.rows p (db' s) := congrFun h s
    exact congrArg (fun l => Except.ok (List.insertionSort _ l)) hs
  after _ _ h := h
  frame _ _ _ := rfl

theorem confined_deleteRow (s : Store) (p : PartitionKey) (name : Text) :
    Confined Database.rows p (deleteRow s p name) where
  reply db db' h := by
    have hs : Table.rows p (db s) = Table.rows p (db' s) := congrFun h s
    exact congrArg (fun r => Except.ok (if r.isSome then 1 else 0)) (Table.select_congr hs name)
  after db db' h := by
    show (db.withTable s _).rows p = (db'.withTable s _).rows p
    have hs : Table.rows p (db s) = Table.rows p (db' s) := congrFun h s
    rw [Database.rows_withTable, Database.rows_withTable, Table.rows_delete,
      Table.rows_delete, h, hs]
  frame q hq db := Database.rows_withTable_of_eq (Table.rows_delete_of_ne hq name (db s))

/-! ### The gate -/

variable {env : Environment} {req : StorageRequest}

theorem authorize_of_eq (h : req.declaredKey = req.triple.key env) :
    authorize env req = .ok req.declaredKey := by
  show (if req.triple.key env = req.declaredKey then _ else _) = _
  rw [if_pos h.symm, h]
  rfl

theorem authorize_of_ne (h : req.declaredKey ≠ req.triple.key env) :
    authorize env req = .error .keyMismatch := by
  show (if req.triple.key env = req.declaredKey then _ else _) = _
  rw [if_neg (Ne.symm h)]

theorem gate_of_eq (h : req.declaredKey = req.triple.key env) :
    gate env req = pure req.declaredKey := by
  rw [gate, authorize_of_eq h]

theorem gate_of_ne (h : req.declaredKey ≠ req.triple.key env) :
    gate env req = throw (.gatekeeper .keyMismatch) := by
  rw [gate, authorize_of_ne h]

end Storage

end DevBrowse
