import DevBrowse.Storage.Gatekeeper

/-!
# The five stores

Cookies, local storage, session storage, the cache and the registrations of service workers
are thin layers over one table each. A request first passes the gatekeeper, then, where it
stores something, a few checks on what is to be stored, and then becomes one statement about
the partition it was let through for.

`Operation` lists what can be asked of the stores. All of them have one shape, the gate and a
program confined to the key that comes out of it (`gated_perform`).
-/

namespace DevBrowse

open Network (PartitionKey)

namespace Storage

variable (env : Environment)

/-- Removing a row by its name, the same in every store: whether there was one. -/
def deleteNamed (s : Store) (req : StorageRequest) (name : Text) : StoreM Bool := do
  let key ← gate env req
  let n ← deleteRow s key name
  pure (0 < n)

/-! ### Cookies -/

/-- Which sites a cookie is sent along from. -/
inductive SameSite where
  /-- Its own. -/
  | strict
  /-- Its own, and others that link to it. -/
  | lax
  /-- All. -/
  | none
  deriving DecidableEq

/-- The text a `SameSite` is stored as. -/
def SameSite.asDbStr : SameSite → Text
  | strict => "strict".toList
  | lax => "lax".toList
  | none => "none".toList

/-- The `SameSite` a text was stored for. -/
def SameSite.fromDbStr (s : Text) : Except StoreError SameSite :=
  if s = "strict".toList then .ok strict
  else if s = "lax".toList then .ok lax
  else if s = "none".toList then .ok none
  else .error (.validation ("unknown same_site value in cookies row: ".toList ++ env.quoted s))

/-- A cookie. -/
structure CookieRecord where
  /-- The name. -/
  name : Text
  /-- The value. -/
  value : Text
  /-- When it ends, in seconds, if it is not the cookie of a session. -/
  expiresAt : Option Int64
  /-- Whether it is kept from scripts. -/
  httpOnly : Bool
  /-- Whether it is for secure connections only. -/
  secure : Bool
  /-- Which sites send it. -/
  sameSite : SameSite
  deriving DecidableEq

namespace Cookies

/-- A cookie, from the row it is stored as. -/
def rowToCookie (name : Text) (row : CookieRow) : Except StoreError CookieRecord := do
  let sameSite ← SameSite.fromDbStr env row.sameSite
  pure ⟨name, row.value, row.expiresAt, row.httpOnly ≠ 0, row.secure ≠ 0, sameSite⟩

/-- The row a cookie is stored as. -/
def cookieToRow (cookie : CookieRecord) : CookieRow where
  value := cookie.value
  expiresAt := cookie.expiresAt
  httpOnly := if cookie.httpOnly then 1 else 0
  secure := if cookie.secure then 1 else 0
  sameSite := cookie.sameSite.asDbStr

/-- A cookie added, or replaced. -/
def put (req : StorageRequest) (cookie : CookieRecord) : StoreM Unit := do
  let key ← gate env req
  if cookie.name = [] then
    throw (.validation "cookie name must not be empty".toList)
  else
    insertOrReplace .cookies key cookie.name (cookieToRow cookie)

/-- The cookie of a name. -/
def get (req : StorageRequest) (name : Text) : StoreM (Option CookieRecord) := do
  let key ← gate env req
  match ← select .cookies key name with
  | none => pure none
  | some row =>
    match rowToCookie env name row with
    | .ok cookie => pure (some cookie)
    | .error e => throw e

/-- The cookies of a partition. -/
def list (req : StorageRequest) : StoreM (List CookieRecord) := do
  let key ← gate env req
  let rows ← selectAll .cookies key
  match rows.mapM fun r => rowToCookie env r.1 r.2 with
  | .ok cookies => pure cookies
  | .error e => throw e

/-- A cookie removed. -/
def delete (req : StorageRequest) (name : Text) : StoreM Bool :=
  deleteNamed env .cookies req name

variable {env} in
/-- A cookie is read as it was stored. -/
theorem rowToCookie_cookieToRow (cookie : CookieRecord) :
    rowToCookie env cookie.name (cookieToRow cookie) = .ok cookie := by
  obtain ⟨name, value, expiresAt, httpOnly, secure, sameSite⟩ := cookie
  cases httpOnly <;> cases secure <;> cases sameSite <;> rfl

end Cookies

/-! ### Local and session storage

The two are the same functions over two tables. -/

namespace WebStorage

/-- A value stored under a key. -/
def put (s : Store) (toRow : Text → s.Row) (message : Text) (req : StorageRequest)
    (key value : Text) : StoreM Unit := do
  let pk ← gate env req
  if key = [] then
    throw (.validation message)
  else
    insertOrReplace s pk key (toRow value)

/-- The value under a key. -/
def get (s : Store) (ofRow : s.Row → Text) (req : StorageRequest) (key : Text) :
    StoreM (Option Text) := do
  let pk ← gate env req
  let row ← select s pk key
  pure (row.map ofRow)

/-- The keys there are values under. -/
def listKeys (s : Store) (req : StorageRequest) : StoreM (List Text) := do
  let pk ← gate env req
  let rows ← selectAll s pk
  pure (rows.map Prod.fst)

end WebStorage

namespace LocalStorage

/-- A value stored under a key. -/
def put : StorageRequest → Text → Text → StoreM Unit :=
  WebStorage.put env .localStorage id "localStorage key must not be empty".toList

/-- The value under a key. -/
def get : StorageRequest → Text → StoreM (Option Text) := WebStorage.get env .localStorage id

/-- The keys there are values under. -/
def listKeys : StorageRequest → StoreM (List Text) := WebStorage.listKeys env .localStorage

/-- A key removed. -/
def delete : StorageRequest → Text → StoreM Bool := deleteNamed env .localStorage

end LocalStorage

namespace SessionStorage

/-- A value stored under a key. -/
def put : StorageRequest → Text → Text → StoreM Unit :=
  WebStorage.put env .sessionStorage id "sessionStorage key must not be empty".toList

/-- The value under a key. -/
def get : StorageRequest → Text → StoreM (Option Text) := WebStorage.get env .sessionStorage id

/-- The keys there are values under. -/
def listKeys : StorageRequest → StoreM (List Text) := WebStorage.listKeys env .sessionStorage

/-- A key removed. -/
def delete : StorageRequest → Text → StoreM Bool := deleteNamed env .sessionStorage

end SessionStorage

/-! ### The cache -/

/-- A response in the cache. -/
structure CacheEntry where
  /-- What it is the response to. -/
  url : Text
  /-- The bytes. -/
  body : List UInt8
  /-- Their type. -/
  contentType : Option Text
  /-- When it was stored, in seconds. -/
  fetchedAt : Int64
  deriving DecidableEq

namespace Cache

/-- A response added, or replaced. -/
def put (req : StorageRequest) (entry : CacheEntry) : StoreM Unit := do
  let key ← gate env req
  if entry.url = [] then
    throw (.validation "cache url must not be empty".toList)
  else
    insertOrReplace .cache key entry.url ⟨entry.body, entry.contentType, entry.fetchedAt⟩

/-- The response to a URL. -/
def get (req : StorageRequest) (url : Text) : StoreM (Option CacheEntry) := do
  let key ← gate env req
  let row ← select .cache key url
  pure (row.map fun r : CacheRow => ⟨url, r.body, r.contentType, r.fetchedAt⟩)

/-- A response removed. -/
def delete : StorageRequest → Text → StoreM Bool := deleteNamed env .cache

/-- `SELECT SUM(LENGTH(body))`, which has no value where there are no rows. -/
def sumLength : List (Text × CacheRow) → Option ℕ
  | [] => none
  | rows => some (rows.map fun r => r.2.body.length).sum

/-- How many bytes the responses of a partition have. -/
def totalBytes (req : StorageRequest) : StoreM ℕ := do
  let key ← gate env req
  let rows ← selectAll .cache key
  pure ((sumLength rows).getD 0)

end Cache

/-! ### Service workers -/

/-- The registration of a service worker. -/
structure ServiceWorkerRegistration where
  /-- The pages it controls. -/
  scopeUrl : Text
  /-- Where the script is. -/
  scriptUrl : Text
  /-- The state of its life cycle. -/
  state : Text
  /-- When it was registered, in seconds. -/
  registeredAt : Int64
  deriving DecidableEq

namespace ServiceWorker

/-- A registration, from the row it is stored as. -/
def ofRow (scopeUrl : Text) (row : ServiceWorkerRow) : ServiceWorkerRegistration :=
  ⟨scopeUrl, row.scriptUrl, row.state, row.registeredAt⟩

/-- A registration added, or replaced. -/
def register (req : StorageRequest) (reg : ServiceWorkerRegistration) : StoreM Unit := do
  let key ← gate env req
  if reg.scopeUrl = [] then
    throw (.validation "service worker scope_url must not be empty".toList)
  else if reg.scriptUrl = [] then
    throw (.validation "service worker script_url must not be empty".toList)
  else if reg.state = [] then
    throw (.validation "service worker state must not be empty".toList)
  else
    insertOrReplace .serviceWorker key reg.scopeUrl ⟨reg.scriptUrl, reg.state, reg.registeredAt⟩

/-- The registration for a scope. -/
def get (req : StorageRequest) (scopeUrl : Text) :
    StoreM (Option ServiceWorkerRegistration) := do
  let key ← gate env req
  let row ← select .serviceWorker key scopeUrl
  pure (row.map (ofRow scopeUrl))

/-- The registrations of a partition. -/
def list (req : StorageRequest) : StoreM (List ServiceWorkerRegistration) := do
  let key ← gate env req
  let rows ← selectAll .serviceWorker key
  pure (rows.map fun r => ofRow r.1 r.2)

/-- A registration removed. -/
def unregister : StorageRequest → Text → StoreM Bool := deleteNamed env .serviceWorker

end ServiceWorker

/-! ### Operations -/

/-- What can be asked of the stores. -/
inductive Operation where
  /-- `cookies::put`. -/
  | cookiesPut (cookie : CookieRecord)
  /-- `cookies::get`. -/
  | cookiesGet (name : Text)
  /-- `cookies::list`. -/
  | cookiesList
  /-- `cookies::delete`. -/
  | cookiesDelete (name : Text)
  /-- `local_storage::put`. -/
  | localStoragePut (key value : Text)
  /-- `local_storage::get`. -/
  | localStorageGet (key : Text)
  /-- `local_storage::list_keys`. -/
  | localStorageListKeys
  /-- `local_storage::delete`. -/
  | localStorageDelete (key : Text)
  /-- `session_storage::put`. -/
  | sessionStoragePut (key value : Text)
  /-- `session_storage::get`. -/
  | sessionStorageGet (key : Text)
  /-- `session_storage::list_keys`. -/
  | sessionStorageListKeys
  /-- `session_storage::delete`. -/
  | sessionStorageDelete (key : Text)
  /-- `cache::put`. -/
  | cachePut (entry : CacheEntry)
  /-- `cache::get`. -/
  | cacheGet (url : Text)
  /-- `cache::delete`. -/
  | cacheDelete (url : Text)
  /-- `cache::total_bytes`. -/
  | cacheTotalBytes
  /-- `service_worker::register`. -/
  | serviceWorkerRegister (reg : ServiceWorkerRegistration)
  /-- `service_worker::get`. -/
  | serviceWorkerGet (scopeUrl : Text)
  /-- `service_worker::list`. -/
  | serviceWorkerList
  /-- `service_worker::unregister`. -/
  | serviceWorkerUnregister (scopeUrl : Text)

/-- What an operation answers with. -/
def Operation.Reply : Operation → Type
  | cookiesPut _ | localStoragePut _ _ | sessionStoragePut _ _ | cachePut _
  | serviceWorkerRegister _ => Unit
  | cookiesGet _ => Option CookieRecord
  | cookiesList => List CookieRecord
  | localStorageGet _ | sessionStorageGet _ => Option Text
  | localStorageListKeys | sessionStorageListKeys => List Text
  | cacheGet _ => Option CacheEntry
  | cacheTotalBytes => ℕ
  | serviceWorkerGet _ => Option ServiceWorkerRegistration
  | serviceWorkerList => List ServiceWorkerRegistration
  | cookiesDelete _ | localStorageDelete _ | sessionStorageDelete _ | cacheDelete _
  | serviceWorkerUnregister _ => Bool

/-- An operation, made with a request. -/
def perform (req : StorageRequest) : (op : Operation) → StoreM op.Reply
  | .cookiesPut cookie => Cookies.put env req cookie
  | .cookiesGet name => Cookies.get env req name
  | .cookiesList => Cookies.list env req
  | .cookiesDelete name => Cookies.delete env req name
  | .localStoragePut key value => LocalStorage.put env req key value
  | .localStorageGet key => LocalStorage.get env req key
  | .localStorageListKeys => LocalStorage.listKeys env req
  | .localStorageDelete key => LocalStorage.delete env req key
  | .sessionStoragePut key value => SessionStorage.put env req key value
  | .sessionStorageGet key => SessionStorage.get env req key
  | .sessionStorageListKeys => SessionStorage.listKeys env req
  | .sessionStorageDelete key => SessionStorage.delete env req key
  | .cachePut entry => Cache.put env req entry
  | .cacheGet url => Cache.get env req url
  | .cacheDelete url => Cache.delete env req url
  | .cacheTotalBytes => Cache.totalBytes env req
  | .serviceWorkerRegister reg => ServiceWorker.register env req reg
  | .serviceWorkerGet scopeUrl => ServiceWorker.get env req scopeUrl
  | .serviceWorkerList => ServiceWorker.list env req
  | .serviceWorkerUnregister scopeUrl => ServiceWorker.unregister env req scopeUrl

/-! ### Every operation is the gate and a confined program -/

/-- A program that is the gate of a request and, behind it, a program confined to the key
that comes out. -/
def Gated {α : Type} (req : StorageRequest) (m : StoreM α) : Prop :=
  ∃ body : PartitionKey → StoreM α, m = gate env req >>= body ∧
    ∀ key, Confined Database.rows key (body key)

variable {env} {s : Store} {req : StorageRequest}

theorem gated_deleteNamed (s : Store) (req : StorageRequest) (name : Text) :
    Gated env req (deleteNamed env s req name) :=
  ⟨_, rfl, fun key => (confined_deleteRow s key name).bind fun _ => .pure _⟩

/-- Statements that store a row, behind a check. -/
theorem gated_insert {c : Prop} [Decidable c] (e : StoreError) (s : Store)
    (req : StorageRequest) (name : Text) (r : s.Row) :
    Gated env req
      (gate env req >>= fun key => if c then throw e else insertOrReplace s key name r) :=
  ⟨_, rfl, fun key => .ite (.throw e) (confined_insertOrReplace s key name r)⟩

/-- Statements that read a row, and what is made of it. -/
theorem gated_select {α : Type} (s : Store) (req : StorageRequest) (name : Text)
    (f : Option s.Row → StoreM α) (hf : ∀ key row, Confined Database.rows key (f row)) :
    Gated env req (gate env req >>= fun key => select s key name >>= f) :=
  ⟨_, rfl, fun key => (confined_select s key name).bind (hf key)⟩

/-- Statements that read all rows, and what is made of them. -/
theorem gated_selectAll {α : Type} (s : Store) (req : StorageRequest)
    (f : List (Text × s.Row) → StoreM α)
    (hf : ∀ key rows, Confined Database.rows key (f rows)) :
    Gated env req (gate env req >>= fun key => selectAll s key >>= f) :=
  ⟨_, rfl, fun key => (confined_selectAll s key).bind (hf key)⟩

theorem gated_perform (req : StorageRequest) (op : Operation) :
    Gated env req (perform env req op) := by
  cases op with
  | cookiesPut cookie => exact gated_insert _ .cookies req cookie.name _
  | cookiesGet name =>
    refine gated_select .cookies req name _ fun key row => ?_
    cases row with
    | none => exact .pure _
    | some row =>
      dsimp only
      split
      · exact .pure _
      · exact .throw _
  | cookiesList =>
    refine gated_selectAll .cookies req _ fun key rows => ?_
    split
    · exact .pure _
    · exact .throw _
  | localStoragePut key value => exact gated_insert _ .localStorage req key value
  | localStorageGet key => exact gated_select .localStorage req key _ fun _ _ => .pure _
  | localStorageListKeys => exact gated_selectAll .localStorage req _ fun _ _ => .pure _
  | sessionStoragePut key value => exact gated_insert _ .sessionStorage req key value
  | sessionStorageGet key => exact gated_select .sessionStorage req key _ fun _ _ => .pure _
  | sessionStorageListKeys => exact gated_selectAll .sessionStorage req _ fun _ _ => .pure _
  | cachePut entry => exact gated_insert _ .cache req entry.url _
  | cacheGet url => exact gated_select .cache req url _ fun _ _ => .pure _
  | cacheTotalBytes => exact gated_selectAll .cache req _ fun _ _ => .pure _
  | serviceWorkerRegister reg =>
    exact ⟨_, rfl, fun key => .ite (.throw _) (.ite (.throw _) (.ite (.throw _)
      (confined_insertOrReplace .serviceWorker key reg.scopeUrl _)))⟩
  | serviceWorkerGet scopeUrl =>
    exact gated_select .serviceWorker req scopeUrl _ fun _ _ => .pure _
  | serviceWorkerList => exact gated_selectAll .serviceWorker req _ fun _ _ => .pure _
  | cookiesDelete name => exact gated_deleteNamed .cookies req name
  | localStorageDelete key => exact gated_deleteNamed .localStorage req key
  | sessionStorageDelete key => exact gated_deleteNamed .sessionStorage req key
  | cacheDelete url => exact gated_deleteNamed .cache req url
  | serviceWorkerUnregister scopeUrl => exact gated_deleteNamed .serviceWorker req scopeUrl

end Storage

end DevBrowse
