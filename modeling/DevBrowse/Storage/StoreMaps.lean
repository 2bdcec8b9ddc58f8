import DevBrowse.Storage.Isolation

/-!
# The stores as shelves

What the five stores are for can be said without tables: a partition has a shelf for each store,
and on a shelf there is at most one item under a name. Storing an item puts it in the place of the
one there was, removing one clears its place, a wipe clears whole shelves, and nothing else
changes anything.

After every history of requests and wipes the stores answer as the shelves do
(`Storage.answers_run`): an item comes back exactly as it was stored last, however it was turned
into a row in between; a listing has every item of the shelf once, in the order of the names; and
what is refused is what has no name.
-/

namespace DevBrowse

open Network (PartitionKey)

namespace Storage

/-! ### Shelves -/

/-- What is kept in a store. -/
def Store.Item : Store → Type
  | cookies => CookieRecord
  | localStorage => Text
  | sessionStorage => Text
  | cache => CacheEntry
  | serviceWorker => ServiceWorkerRegistration

/-- The shelves of a partition. -/
abbrev Shelf := (s : Store) → Text → Option s.Item

/-- **The shelves of all partitions.** -/
abbrev Shelves := PartitionKey → Shelf

/-- Nothing is on the shelves. -/
def Shelves.empty : Shelves := fun _ _ _ => none

/-- What is put in a place of a shelf, or that it is cleared. -/
structure Change where
  /-- The store. -/
  store : Store
  /-- The place. -/
  name : Text
  /-- The item, if there is to be one. -/
  item : Option store.Item

/-- What an operation changes. Items without a name are not kept. -/
def Operation.change : Operation → Option Change
  | cookiesPut cookie =>
    if cookie.name = [] then none else some ⟨.cookies, cookie.name, some cookie⟩
  | localStoragePut key value =>
    if key = [] then none else some ⟨.localStorage, key, some value⟩
  | sessionStoragePut key value =>
    if key = [] then none else some ⟨.sessionStorage, key, some value⟩
  | cachePut entry => if entry.url = [] then none else some ⟨.cache, entry.url, some entry⟩
  | serviceWorkerRegister reg =>
    if reg.scopeUrl = [] ∨ reg.scriptUrl = [] ∨ reg.state = [] then none
    else some ⟨.serviceWorker, reg.scopeUrl, some reg⟩
  | cookiesDelete name => some ⟨.cookies, name, none⟩
  | localStorageDelete key => some ⟨.localStorage, key, none⟩
  | sessionStorageDelete key => some ⟨.sessionStorage, key, none⟩
  | cacheDelete url => some ⟨.cache, url, none⟩
  | serviceWorkerUnregister scopeUrl => some ⟨.serviceWorker, scopeUrl, none⟩
  | cookiesGet _ | cookiesList | localStorageGet _ | localStorageListKeys | sessionStorageGet _
  | sessionStorageListKeys | cacheGet _ | cacheTotalBytes | serviceWorkerGet _
  | serviceWorkerList => none

/-- The shelf after a change. -/
def Shelf.put (shelf : Shelf) (c : Change) : Shelf :=
  Function.update shelf c.store (Function.update (shelf c.store) c.name c.item)

/-- The shelves after a change, if there is one, to those of a partition. -/
def Shelves.change (m : Shelves) (p : PartitionKey) : Option Change → Shelves
  | some c => Function.update m p ((m p).put c)
  | none => m

/-- The shelves after an input. A request that does not declare the key of its triple changes
nothing. -/
def Shelves.step (env : Environment) (m : Shelves) : Input → Shelves
  | .request req op =>
    if req.declaredKey = req.triple.key env then m.change req.declaredKey op.change else m
  | .wipe keys stores => fun p s name => if p ∈ keys ∧ s ∈ stores then none else m p s name

/-- The shelves after a history. -/
def Shelves.run (env : Environment) (history : List Input) : Shelves :=
  history.foldl (Shelves.step env) .empty

/-! ### What the stores are to answer -/

/-- A listing of a shelf: what is on it, each item once, in the order of the names. -/
structure Listing {α : Type} (shelf : Text → Option α) (items : List (Text × α)) : Prop where
  /-- The items are those of the shelf. -/
  mem_iff : ∀ name item, (name, item) ∈ items ↔ shelf name = some item
  /-- No name comes twice. -/
  nodup : (items.map Prod.fst).Nodup
  /-- The names are in order. -/
  sorted : items.Pairwise fun a b => nameLe a.1 b.1 = true

/-- How many bytes the responses of a listing have. -/
def bytesOf (items : List (Text × CacheEntry)) : ℕ := (items.map fun e => e.2.body.length).sum

/-- **What an operation is to be answered with.** -/
def Answers (shelf : Shelf) : (op : Operation) → Except StoreError op.Reply → Prop
  | .cookiesPut cookie, r => r =
    if cookie.name = [] then .error (.validation "cookie name must not be empty".toList) else .ok ()
  | .cookiesGet name, r => r = .ok (shelf .cookies name)
  | .cookiesList, r => ∃ items, Listing (shelf .cookies) items ∧ r = .ok (items.map Prod.snd)
  | .cookiesDelete name, r => r = .ok (shelf .cookies name).isSome
  | .localStoragePut key _, r => r =
    if key = [] then .error (.validation "localStorage key must not be empty".toList) else .ok ()
  | .localStorageGet key, r => r = .ok (shelf .localStorage key)
  | .localStorageListKeys, r =>
    ∃ items, Listing (shelf .localStorage) items ∧ r = .ok (items.map Prod.fst)
  | .localStorageDelete key, r => r = .ok (shelf .localStorage key).isSome
  | .sessionStoragePut key _, r => r =
    if key = [] then .error (.validation "sessionStorage key must not be empty".toList) else .ok ()
  | .sessionStorageGet key, r => r = .ok (shelf .sessionStorage key)
  | .sessionStorageListKeys, r =>
    ∃ items, Listing (shelf .sessionStorage) items ∧ r = .ok (items.map Prod.fst)
  | .sessionStorageDelete key, r => r = .ok (shelf .sessionStorage key).isSome
  | .cachePut entry, r => r =
    if entry.url = [] then .error (.validation "cache url must not be empty".toList) else .ok ()
  | .cacheGet url, r => r = .ok (shelf .cache url)
  | .cacheDelete url, r => r = .ok (shelf .cache url).isSome
  | .cacheTotalBytes, r => ∃ items, Listing (shelf .cache) items ∧ r = .ok (bytesOf items)
  | .serviceWorkerRegister reg, r => r =
    if reg.scopeUrl = [] then
      .error (.validation "service worker scope_url must not be empty".toList)
    else if reg.scriptUrl = [] then
      .error (.validation "service worker script_url must not be empty".toList)
    else if reg.state = [] then
      .error (.validation "service worker state must not be empty".toList)
    else .ok ()
  | .serviceWorkerGet scopeUrl, r => r = .ok (shelf .serviceWorker scopeUrl)
  | .serviceWorkerList, r =>
    ∃ items, Listing (shelf .serviceWorker) items ∧ r = .ok (items.map Prod.snd)
  | .serviceWorkerUnregister scopeUrl, r => r = .ok (shelf .serviceWorker scopeUrl).isSome

/-! ### Items as rows -/

/-- The row a response is stored as. -/
def Cache.entryToRow (entry : CacheEntry) : CacheRow :=
  ⟨entry.body, entry.contentType, entry.fetchedAt⟩

/-- The row a registration is stored as. -/
def ServiceWorker.registrationToRow (reg : ServiceWorkerRegistration) : ServiceWorkerRow :=
  ⟨reg.scriptUrl, reg.state, reg.registeredAt⟩

/-- The row an item is stored as. -/
def Store.toRow : (s : Store) → s.Item → s.Row
  | cookies => Cookies.cookieToRow
  | localStorage => id
  | sessionStorage => id
  | cache => Cache.entryToRow
  | serviceWorker => ServiceWorker.registrationToRow

/-- The name an item has itself, if it has one, is the one it is stored under. -/
def Store.Named : (s : Store) → Text → s.Item → Prop
  | cookies => fun name (cookie : CookieRecord) => cookie.name = name
  | localStorage => fun _ _ => True
  | sessionStorage => fun _ _ => True
  | cache => fun name (entry : CacheEntry) => entry.url = name
  | serviceWorker => fun name (reg : ServiceWorkerRegistration) => reg.scopeUrl = name

/-- The tables hold what is on the shelves. -/
structure Holds (db : Database) (m : Shelves) : Prop where
  /-- The rows are those of the items. -/
  select_eq : ∀ p s name, (db s).select p name = (m p s name).map s.toRow
  /-- The items stand under their names. -/
  named : ∀ p s name item, m p s name = some item → s.Named name item

variable {env : Environment} {db : Database} {m : Shelves} {p : PartitionKey} {s : Store}
  {name : Text}

theorem holds_empty : Holds .empty .empty := ⟨fun _ _ _ => rfl, nofun⟩

/-! ### The order of names -/

theorem bytesLe_total (a b : List UInt8) : bytesLe a b = true ∨ bytesLe b a = true := by
  induction a generalizing b with
  | nil => exact .inl rfl
  | cons x a ih =>
    cases b with
    | nil => exact .inr rfl
    | cons y b =>
      simp only [bytesLe, Bool.or_eq_true, Bool.and_eq_true, decide_eq_true_eq, beq_iff_eq]
      rcases Nat.lt_trichotomy x.toNat y.toNat with hlt | heq | hlt
      · exact .inl (.inl hlt)
      · obtain rfl := UInt8.toNat_inj.mp heq
        exact (ih b).imp (fun h => .inr ⟨rfl, h⟩) fun h => .inr ⟨rfl, h⟩
      · exact .inr (.inl hlt)

theorem bytesLe_trans {a b c : List UInt8} (hab : bytesLe a b = true) (hbc : bytesLe b c = true) :
    bytesLe a c = true := by
  induction a generalizing b c with
  | nil => rfl
  | cons x a ih =>
    cases b with
    | nil => cases hab
    | cons y b =>
      cases c with
      | nil => cases hbc
      | cons z c =>
        simp only [bytesLe, Bool.or_eq_true, Bool.and_eq_true, decide_eq_true_eq,
          beq_iff_eq] at hab hbc ⊢
        rcases hab with hab | ⟨rfl, hab⟩
        · rcases hbc with hbc | ⟨rfl, -⟩
          · exact .inl (UInt8.lt_trans hab hbc)
          · exact .inl hab
        · rcases hbc with hbc | ⟨rfl, hbc⟩
          · exact .inl hbc
          · exact .inr ⟨rfl, ih hab hbc⟩

/-- A table of a partition is listed as its shelf is. -/
theorem Holds.listing (h : Holds db m) (p : PartitionKey) (s : Store) :
    ∃ items, Listing (m p s) items ∧
      (db s).selectAll nameLe p = items.map fun e => (e.1, s.toRow e.2) := by
  obtain ⟨items, hitems⟩ : ∃ items : List (Text × s.Item), items =
      ((db s).selectAll nameLe p).filterMap fun e => (m p s e.1).map (e.1, ·) := ⟨_, rfl⟩
  have hrows : (db s).selectAll nameLe p = items.map fun e => (e.1, s.toRow e.2) := by
    rw [hitems, List.map_filterMap]
    refine (List.filterMap_some.symm.trans (List.filterMap_congr ?_))
    rintro ⟨name, row⟩ hmem
    have hrow := h.select_eq p s name
    rw [Table.mem_selectAll.mp hmem] at hrow
    obtain ⟨item, hitem, rfl⟩ := Option.map_eq_some_iff.mp hrow.symm
    simp [hitem]
  have hnames : items.map Prod.fst = ((db s).selectAll nameLe p).map Prod.fst := by
    rw [hrows, List.map_map]
    rfl
  refine ⟨items, ⟨fun name item => ?_, ?_, ?_⟩, hrows⟩
  · rw [hitems, List.mem_filterMap]
    constructor
    · rintro ⟨⟨name', row⟩, -, hitem⟩
      obtain ⟨item', hitem', heq⟩ := Option.map_eq_some_iff.mp hitem
      obtain ⟨rfl, rfl⟩ := Prod.mk.inj heq
      exact hitem'
    · intro hitem
      refine ⟨(name, s.toRow item), Table.mem_selectAll.mpr ?_, by simp [hitem]⟩
      rw [h.select_eq, hitem]
      rfl
  · rw [hnames]
    exact Table.nodup_names_selectAll nameLe p (db s)
  · have htotal : ∀ a b : Text, nameLe a b = true ∨ nameLe b a = true :=
      fun a b => bytesLe_total _ _
    have htrans : ∀ a b c : Text, nameLe a b = true → nameLe b c = true → nameLe a c = true :=
      fun a b c => bytesLe_trans
    have hsorted := Table.pairwise_selectAll htotal htrans p (db s)
    rw [hrows] at hsorted
    exact List.pairwise_map.mp hsorted

/-! ### One statement -/

/-- **A row that changes as its place does.** -/
theorem Holds.change (h : Holds db m) (p : PartitionKey) (c : Change)
    (hnamed : ∀ item, c.item = some item → c.store.Named c.name item)
    {t : Table PartitionKey Text c.store.Row}
    (ht : ∀ q name, t.select q name =
      if q = p ∧ name = c.name then c.item.map c.store.toRow else (db c.store).select q name) :
    Holds (db.withTable c.store t) (m.change p (some c)) := by
  have hplace : ∀ q s name, m.change p (some c) q s name =
      if q = p then Function.update (m q) c.store
        (Function.update (m q c.store) c.name c.item) s name else m q s name := fun q s name => by
    by_cases hq : q = p
    · subst hq
      rw [if_pos rfl, Shelves.change, Function.update_self]
      rfl
    · rw [if_neg hq, Shelves.change, Function.update_of_ne hq]
  refine ⟨fun q s name => ?_, fun q s name item hitem => ?_⟩
  · rw [hplace]
    by_cases hs : s = c.store
    · subst hs
      rw [Database.withTable_self, ht, h.select_eq]
      by_cases hq : q = p
      · subst hq
        rw [if_pos rfl, Function.update_self]
        by_cases hname : name = c.name
        · subst hname
          rw [if_pos ⟨rfl, rfl⟩, Function.update_self]
        · rw [if_neg fun h => hname h.2, Function.update_of_ne hname]
      · rw [if_neg fun h => hq h.1, if_neg hq]
    · rw [Database.withTable_of_ne db t hs, h.select_eq, Function.update_of_ne hs, ite_self]
  · rw [hplace] at hitem
    by_cases hs : s = c.store
    · subst hs
      by_cases hq : q = p
      · subst hq
        rw [if_pos rfl, Function.update_self] at hitem
        by_cases hname : name = c.name
        · subst hname
          rw [Function.update_self] at hitem
          exact hnamed item hitem
        · rw [Function.update_of_ne hname] at hitem
          exact h.named q c.store name item hitem
      · rw [if_neg hq] at hitem
        exact h.named q c.store name item hitem
    · rw [Function.update_of_ne hs, ite_self] at hitem
      exact h.named q s name item hitem

/-- What is stored, behind a check, is put on the shelf. -/
theorem Holds.insert (h : Holds db m) (p : PartitionKey) (c : Prop) [Decidable c] (e : StoreError)
    (s : Store) (name : Text) (item : s.Item) (hnamed : s.Named name item) :
    (if c then throw e else insertOrReplace s p name (s.toRow item) : StoreM Unit).reply db =
        (if c then .error e else .ok ()) ∧
      Holds
        ((if c then throw e else insertOrReplace s p name (s.toRow item) : StoreM Unit).after db)
        (m.change p (if c then none else some ⟨s, name, some item⟩)) := by
  split
  · exact ⟨rfl, h⟩
  · refine ⟨rfl, h.change p ⟨s, name, some item⟩ (fun item' hitem => ?_) fun q name' => ?_⟩
    · obtain rfl := Option.some.inj hitem
      exact hnamed
    · exact Table.select_insertOrReplace p q name name' (s.toRow item) (db s)

variable {req : StorageRequest}

/-- What is deleted is taken off the shelf. -/
theorem Holds.deleteNamed (h : Holds db m) (hkey : req.declaredKey = req.triple.key env)
    (s : Store) (name : Text) :
    (deleteNamed env s req name).reply db = .ok (m req.declaredKey s name).isSome ∧
      Holds ((deleteNamed env s req name).after db)
        (m.change req.declaredKey (some ⟨s, name, none⟩)) := by
  rw [Storage.deleteNamed, gate_of_eq hkey, pure_bind]
  refine ⟨?_, h.change req.declaredKey ⟨s, name, none⟩ nofun fun q name' =>
    Table.select_delete req.declaredKey q name name' (db s)⟩
  show Except.ok (decide (0 < if ((db s).select req.declaredKey name).isSome then 1 else 0)) = _
  rw [h.select_eq, Option.isSome_map]
  cases (m req.declaredKey s name).isSome <;> rfl

/-- What is read is what is on the shelf. -/
theorem Holds.of_select {α : Type} (h : Holds db m) (p : PartitionKey) (s : Store) (name : Text)
    {f : Option s.Row → StoreM α} {a : α} (hf : f ((m p s name).map s.toRow) = pure a) :
    (select s p name >>= f).reply db = .ok a ∧ Holds ((select s p name >>= f).after db) m := by
  have heq : ∀ row, (db s).select p name = row → f row = pure a →
      (select s p name >>= f).reply db = .ok a ∧ (select s p name >>= f).after db = db := by
    rintro _ rfl hrow
    show (f ((db s).select p name)).reply db = _ ∧ (f ((db s).select p name)).after db = _
    rw [hrow]
    exact ⟨rfl, rfl⟩
  obtain ⟨hreply, hafter⟩ := heq _ (h.select_eq p s name) hf
  exact ⟨hreply, hafter.symm ▸ h⟩

/-- What is listed is what is on the shelf. -/
theorem Holds.of_selectAll {α : Type} (h : Holds db m) (p : PartitionKey) (s : Store)
    {f : List (Text × s.Row) → StoreM α} {g : List (Text × s.Item) → α}
    (hf : ∀ items, Listing (m p s) items →
      f (items.map fun e => (e.1, s.toRow e.2)) = pure (g items)) :
    (∃ items, Listing (m p s) items ∧ (selectAll s p >>= f).reply db = .ok (g items)) ∧
      Holds ((selectAll s p >>= f).after db) m := by
  obtain ⟨items, hlisting, hrows⟩ := h.listing p s
  have hpure : f ((db s).selectAll nameLe p) = pure (g items) := by rw [hrows, hf items hlisting]
  have hreply : (selectAll s p >>= f).reply db = .ok (g items) := by
    show (f ((db s).selectAll nameLe p)).reply db = _
    rw [hpure]
    rfl
  have hafter : (selectAll s p >>= f).after db = db := by
    show (f ((db s).selectAll nameLe p)).after db = _
    rw [hpure]
    rfl
  exact ⟨⟨items, hlisting, hreply⟩, hafter.symm ▸ h⟩

/-- Cookies are read as they were stored. -/
theorem mapM_rowToCookie {items : List (Text × CookieRecord)}
    (h : ∀ e ∈ items, e.2.name = e.1) :
    (items.map fun e => (e.1, Cookies.cookieToRow e.2)).mapM
      (fun r => Cookies.rowToCookie env r.1 r.2) = .ok (items.map Prod.snd) := by
  induction items with
  | nil => rfl
  | cons e items ih =>
    have hcookie : Cookies.rowToCookie env e.2.name (Cookies.cookieToRow e.2) = .ok e.2 :=
      Cookies.rowToCookie_cookieToRow e.2
    rw [h e List.mem_cons_self] at hcookie
    rw [List.map_cons, List.mapM_cons, hcookie, ih fun e he => h e (List.mem_cons_of_mem _ he)]
    rfl

/-- Registrations are read as they were stored. -/
theorem listed_registrations {items : List (Text × ServiceWorkerRegistration)}
    (h : ∀ e ∈ items, e.2.scopeUrl = e.1) :
    (pure ((items.map fun e => (e.1, ServiceWorker.registrationToRow e.2)).map
      fun r => ServiceWorker.ofRow r.1 r.2) : StoreM (List ServiceWorkerRegistration)) =
      pure (items.map Prod.snd) := by
  rw [List.map_map]
  refine congrArg pure (List.map_congr_left fun e he => ?_)
  show (⟨e.1, e.2.scriptUrl, e.2.state, e.2.registeredAt⟩ : ServiceWorkerRegistration) = e.2
  rw [← h e he]

theorem total_of_rows (items : List (Text × CacheEntry)) :
    (pure ((Cache.sumLength (items.map fun e => (e.1, Cache.entryToRow e.2))).getD 0) :
      StoreM ℕ) = pure (bytesOf items) := by
  cases items with
  | nil => rfl
  | cons e items =>
    refine congrArg pure ?_
    show (((e :: items).map fun e => (e.1, Cache.entryToRow e.2)).map
      fun r => r.2.body.length).sum = _
    rw [List.map_map]
    rfl

/-- A registration is put on the shelf, if none of its three texts is missing. -/
theorem Holds.register (h : Holds db m) (hkey : req.declaredKey = req.triple.key env)
    (reg : ServiceWorkerRegistration) :
    Answers (m req.declaredKey) (.serviceWorkerRegister reg)
        ((ServiceWorker.register env req reg).reply db) ∧
      Holds ((ServiceWorker.register env req reg).after db)
        (m.change req.declaredKey (Operation.serviceWorkerRegister reg).change) := by
  simp only [ServiceWorker.register, gate_of_eq hkey, pure_bind, Answers, Operation.change]
  by_cases hscope : reg.scopeUrl = []
  · simp only [hscope, if_true, true_or]
    exact ⟨rfl, h⟩
  by_cases hscript : reg.scriptUrl = []
  · simp only [hscope, hscript, if_true, if_false, true_or, or_true]
    exact ⟨rfl, h⟩
  · -- the last check is the one before the statement
    simp only [hscope, hscript, if_false, false_or]
    exact h.insert req.declaredKey (reg.state = []) _ .serviceWorker reg.scopeUrl reg rfl

/-- A cookie is read as it was stored. -/
theorem read_cookie (cookie : CookieRecord) {name : Text} (h : cookie.name = name) :
    (match Cookies.rowToCookie env name (Cookies.cookieToRow cookie) with
      | .ok cookie => pure (some cookie)
      | .error e => throw e : StoreM (Option CookieRecord)) = pure (some cookie) := by
  rw [← h, Cookies.rowToCookie_cookieToRow]

theorem listed_cookies {items : List (Text × CookieRecord)} (h : ∀ e ∈ items, e.2.name = e.1) :
    (match (items.map fun e => (e.1, Cookies.cookieToRow e.2)).mapM
        (fun r => Cookies.rowToCookie env r.1 r.2) with
      | .ok cookies => pure cookies
      | .error e => throw e : StoreM (List CookieRecord)) = pure (items.map Prod.snd) := by
  rw [mapM_rowToCookie h]

/-- **An operation is answered as the shelf has it**, and the tables hold what is on the shelves
afterwards. -/
theorem Holds.perform (h : Holds db m) (hkey : req.declaredKey = req.triple.key env)
    (op : Operation) :
    Answers (m req.declaredKey) op ((perform env req op).reply db) ∧
      Holds ((perform env req op).after db) (m.change req.declaredKey op.change) := by
  have hgate := gate_of_eq hkey
  cases op with
  | cookiesPut cookie =>
    simp only [Storage.perform, Cookies.put, hgate, pure_bind]
    exact h.insert _ (cookie.name = []) _ .cookies cookie.name cookie rfl
  | cookiesGet name =>
    simp only [Storage.perform, Cookies.get, hgate, pure_bind]
    refine h.of_select req.declaredKey .cookies name ?_
    cases hcookie : m req.declaredKey .cookies name with
    | none => rfl
    | some cookie =>
      exact read_cookie cookie (h.named req.declaredKey .cookies name cookie hcookie)
  | cookiesList =>
    simp only [Storage.perform, Cookies.list, hgate, pure_bind]
    refine h.of_selectAll req.declaredKey .cookies fun items hlisting => ?_
    exact listed_cookies (fun e he =>
      h.named req.declaredKey .cookies e.1 e.2 ((hlisting.mem_iff e.1 e.2).mp he))
  | cookiesDelete name => exact h.deleteNamed hkey .cookies name
  | localStoragePut key value =>
    simp only [Storage.perform, LocalStorage.put, WebStorage.put, hgate, pure_bind]
    exact h.insert _ (key = []) _ .localStorage key value trivial
  | localStorageGet key =>
    simp only [Storage.perform, LocalStorage.get, WebStorage.get, hgate, pure_bind]
    refine h.of_select req.declaredKey .localStorage key ?_
    cases m req.declaredKey .localStorage key <;> rfl
  | localStorageListKeys =>
    simp only [Storage.perform, LocalStorage.listKeys, WebStorage.listKeys, hgate, pure_bind]
    refine h.of_selectAll req.declaredKey .localStorage fun items _ => ?_
    rw [List.map_map]
    rfl
  | localStorageDelete key => exact h.deleteNamed hkey .localStorage key
  | sessionStoragePut key value =>
    simp only [Storage.perform, SessionStorage.put, WebStorage.put, hgate, pure_bind]
    exact h.insert _ (key = []) _ .sessionStorage key value trivial
  | sessionStorageGet key =>
    simp only [Storage.perform, SessionStorage.get, WebStorage.get, hgate, pure_bind]
    refine h.of_select req.declaredKey .sessionStorage key ?_
    cases m req.declaredKey .sessionStorage key <;> rfl
  | sessionStorageListKeys =>
    simp only [Storage.perform, SessionStorage.listKeys, WebStorage.listKeys, hgate, pure_bind]
    refine h.of_selectAll req.declaredKey .sessionStorage fun items _ => ?_
    rw [List.map_map]
    rfl
  | sessionStorageDelete key => exact h.deleteNamed hkey .sessionStorage key
  | cachePut entry =>
    simp only [Storage.perform, Cache.put, hgate, pure_bind]
    exact h.insert _ (entry.url = []) _ .cache entry.url entry rfl
  | cacheGet url =>
    simp only [Storage.perform, Cache.get, hgate, pure_bind]
    refine h.of_select req.declaredKey .cache url ?_
    cases hentry : m req.declaredKey .cache url with
    | none => rfl
    | some entry =>
      obtain rfl : CacheEntry.url entry = url := h.named req.declaredKey .cache url entry hentry
      rfl
  | cacheDelete url => exact h.deleteNamed hkey .cache url
  | cacheTotalBytes =>
    simp only [Storage.perform, Cache.totalBytes, hgate, pure_bind]
    refine h.of_selectAll req.declaredKey .cache fun items _ => ?_
    exact total_of_rows items
  | serviceWorkerRegister reg =>
    exact h.register hkey reg
  | serviceWorkerGet scopeUrl =>
    simp only [Storage.perform, ServiceWorker.get, hgate, pure_bind]
    refine h.of_select req.declaredKey .serviceWorker scopeUrl ?_
    cases hreg : m req.declaredKey .serviceWorker scopeUrl with
    | none => rfl
    | some reg =>
      obtain rfl : ServiceWorkerRegistration.scopeUrl reg = scopeUrl :=
        h.named req.declaredKey .serviceWorker scopeUrl reg hreg
      rfl
  | serviceWorkerList =>
    simp only [Storage.perform, ServiceWorker.list, hgate, pure_bind]
    refine h.of_selectAll req.declaredKey .serviceWorker fun items hlisting => ?_
    exact listed_registrations fun e he =>
      h.named req.declaredKey .serviceWorker e.1 e.2 ((hlisting.mem_iff e.1 e.2).mp he)
  | serviceWorkerUnregister scopeUrl => exact h.deleteNamed hkey .serviceWorker scopeUrl

/-! ### Whole histories -/

/-- A wipe clears the shelves it lists. -/
theorem Holds.wipe (h : Holds db m) (env : Environment) (keys : List PartitionKey)
    (stores : List Store) :
    Holds ((wipePartitions keys stores).after db) (m.step env (.wipe keys stores)) := by
  have hw := wipes_wipePartitions keys stores
  have hplace : ∀ p s name, m.step env (.wipe keys stores) p s name =
      if p ∈ keys ∧ s ∈ stores then none else m p s name := fun _ _ _ => rfl
  refine ⟨fun p s name => ?_, fun p s name item hitem => ?_⟩
  · rw [hplace]
    by_cases hps : p ∈ keys ∧ s ∈ stores
    · have hnone : ((wipePartitions keys stores).after db s).select p name = none := by
        refine Option.eq_none_iff_forall_ne_some.mpr fun r hr => ?_
        have hrows : Table.rows p ((wipePartitions keys stores).after db s) = [] :=
          hw.wiped db p s hps
        have hmem := Table.mem_rows.mpr hr
        rw [hrows] at hmem
        cases hmem
      rw [hnone, if_pos hps]
      rfl
    · rw [Table.select_congr (hw.kept db p s hps), h.select_eq, if_neg hps]
  · rw [hplace] at hitem
    split at hitem
    · cases hitem
    · exact h.named p s name item hitem

/-- **The tables hold what is on the shelves**, after every input. -/
theorem Holds.step (h : Holds db m) (env : Environment) (i : Input) :
    Holds (step env db i) (m.step env i) := by
  cases i with
  | request req op =>
    by_cases hkey : req.declaredKey = req.triple.key env
    · have hperform := (h.perform hkey op).2
      rwa [Shelves.step, if_pos hkey]
    · have hsame := (perform_of_ne op hkey db).2
      rw [Shelves.step, if_neg hkey]
      show Holds ((Storage.perform env req op).after db) m
      rwa [hsame]
  | wipe keys stores => exact h.wipe env keys stores

theorem holds_run (env : Environment) (history : List Input) :
    Holds (run env .empty history) (Shelves.run env history) := by
  have hfold : ∀ db m, Holds db m →
      Holds (history.foldl (step env) db) (history.foldl (Shelves.step env) m) := by
    induction history with
    | nil => exact fun _ _ h => h
    | cons i history ih => exact fun db m h => ih _ _ (h.step env i)
  exact hfold _ _ holds_empty

/-- **The stores answer as the shelves do**, after every history of requests and wipes. -/
theorem answers_run (env : Environment) (history : List Input) (req : StorageRequest)
    (op : Operation) (hkey : req.declaredKey = req.triple.key env) :
    Answers (Shelves.run env history req.declaredKey) op
      ((perform env req op).reply (run env .empty history)) :=
  ((holds_run env history).perform hkey op).1

/-- The first of two sites reads its cookie, though the second has stored one of the same name. -/
theorem answers_run_example :
    (perform exampleEnvironment (exampleRequest "a.example".toList)
        (.cookiesGet "id".toList)).reply (run exampleEnvironment .empty exampleHistory) =
      .ok (Shelves.run exampleEnvironment exampleHistory
        (exampleRequest "a.example".toList).declaredKey .cookies "id".toList) :=
  answers_run exampleEnvironment exampleHistory (exampleRequest "a.example".toList)
    (.cookiesGet "id".toList) rfl

end Storage

end DevBrowse
