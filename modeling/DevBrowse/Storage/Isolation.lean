import DevBrowse.Storage.StrictWipe

/-!
# Partition isolation

A history of the storage process is a list of requests and wipes. Of these, a partition sees
the operations that were let through for its triple, and of a wipe that lists its key which
stores it was about. Step by step that is all it learns (`unwinding_step`): a request for
another triple is turned away or concerns another key, and a wipe removes the rows of the
keys it lists.

So what a request of the triple is answered with is a function of what the triple has seen
(`storage_partition_isolation`). The partition hash may collide on other triples, but not on
the ones in use.
-/

namespace DevBrowse

open Network (PartitionKey)

namespace Storage

/-- What the storage process is asked to do. -/
inductive Input where
  /-- An operation, made with a request. -/
  | request (req : StorageRequest) (op : Operation)
  /-- A wipe. -/
  | wipe (keys : List PartitionKey) (stores : List Store)

/-- What a triple sees of an input. -/
inductive Observation where
  /-- An operation was let through for it. -/
  | request (op : Operation)
  /-- It was wiped in some of the stores. -/
  | wipe (stores : List Store)

/-- The database after an input. -/
def step (env : Environment) (db : Database) : Input → Database
  | .request req op => (perform env req op).after db
  | .wipe keys stores => (wipePartitions keys stores).after db

/-- The database after a history. -/
def run (env : Environment) (db : Database) (history : List Input) : Database :=
  history.foldl (step env) db

/-- What a triple sees of an input, if anything. -/
def seenBy (env : Environment) (t : Triple) : Input → Option Observation
  | .request req op =>
    if req.triple = t ∧ req.declaredKey = t.key env then some (.request op) else none
  | .wipe keys stores => if t.key env ∈ keys then some (.wipe stores) else none

/-- The triples in use, in a history and by the one who looks at it. -/
def triplesUsed (t : Triple) (history : List Input) : Set Triple :=
  {t' | t' = t ∨ ∃ req op, Input.request req op ∈ history ∧ req.triple = t'}

variable {env : Environment} {t : Triple} {history : List Input} {req req' : StorageRequest}
  {op : Operation} {db : Database}

theorem seenBy_eq_request {i : Input} (h : seenBy env t i = some (.request op)) :
    ∃ req, i = .request req op ∧ req.triple = t ∧ req.declaredKey = t.key env := by
  cases i with
  | request req op' =>
    by_cases hreq : req.triple = t ∧ req.declaredKey = t.key env
    · rw [seenBy, if_pos hreq] at h
      cases h
      exact ⟨req, rfl, hreq⟩
    · rw [seenBy, if_neg hreq] at h
      cases h
  | wipe keys stores =>
    rw [seenBy] at h
    split at h <;> cases h

theorem seenBy_eq_wipe {i : Input} {stores : List Store}
    (h : seenBy env t i = some (.wipe stores)) :
    ∃ keys, i = .wipe keys stores ∧ t.key env ∈ keys := by
  cases i with
  | request req op =>
    rw [seenBy] at h
    split at h <;> cases h
  | wipe keys stores' =>
    by_cases hkeys : t.key env ∈ keys
    · rw [seenBy, if_pos hkeys] at h
      cases h
      exact ⟨keys, rfl, hkeys⟩
    · rw [seenBy, if_neg hkeys] at h
      cases h

/-- A request is its triple and the key it declares. -/
theorem StorageRequest.eq_of_triple (ht : req.triple = req'.triple)
    (hkey : req.declaredKey = req'.declaredKey) : req = req' := by
  obtain ⟨origin, profile, context, key⟩ := req
  obtain ⟨origin', profile', context', key'⟩ := req'
  obtain ⟨rfl, rfl, rfl⟩ : origin = origin' ∧ profile = profile' ∧ context = context' := by
    simpa [triple] using ht
  obtain rfl : key = key' := hkey
  rfl

/-! ### One request -/

/-- A request with another key than that of its triple is turned away. -/
theorem perform_of_ne (op : Operation) (h : req.declaredKey ≠ req.triple.key env)
    (db : Database) :
    (perform env req op).reply db = .error (.gatekeeper .keyMismatch) ∧
      (perform env req op).after db = db := by
  obtain ⟨body, heq, -⟩ : Gated env req (perform env req op) := gated_perform req op
  rw [heq, gate_of_ne h]
  exact ⟨rfl, rfl⟩

/-- A request that is let through is confined to the partition of its triple. -/
theorem confined_perform (op : Operation) (h : req.declaredKey = req.triple.key env) :
    Confined Database.rows (req.triple.key env) (perform env req op) := by
  obtain ⟨body, heq, hbody⟩ : Gated env req (perform env req op) := gated_perform req op
  rw [heq, gate_of_eq h, h]
  exact hbody (req.triple.key env)

/-! ### One step -/

/-- **Step by step, a triple learns only what it sees.** -/
theorem unwinding_step (hinj : Set.InjOn (Triple.key env) (triplesUsed t history)) :
    Unwinding (step env) (Database.rows (t.key env)) (seenBy env t) {i | i ∈ history} where
  hidden i hi hseen db := by
    cases i with
    | request req op =>
      have hnot : ¬ (req.triple = t ∧ req.declaredKey = t.key env) := fun h => by
        rw [seenBy, if_pos h] at hseen
        cases hseen
      show Database.rows _ ((perform env req op).after db) = _
      by_cases hkey : req.declaredKey = req.triple.key env
      · -- let through, so for another triple, which by injectivity has another key
        have hne : t.key env ≠ req.triple.key env := fun heq => by
          have ht : req.triple = t :=
            hinj (.inr ⟨req, op, hi, rfl⟩) (.inl rfl) heq.symm
          exact hnot ⟨ht, by rw [hkey, ht]⟩
        exact (confined_perform op hkey).frame _ hne db
      · rw [(perform_of_ne op hkey db).2]
    | wipe keys stores =>
      have hnot : t.key env ∉ keys := fun h => by
        rw [seenBy, if_pos h] at hseen
        cases hseen
      funext s
      exact (wipes_wipePartitions keys stores).kept db _ s fun h => hnot h.1
  visible i hi j hj o hio hjo db db' hdb := by
    cases o with
    | request op =>
      obtain ⟨req, rfl, rfl, hkey⟩ := seenBy_eq_request hio
      obtain ⟨req', rfl, ht', hkey'⟩ := seenBy_eq_request hjo
      obtain rfl : req = req' := StorageRequest.eq_of_triple ht'.symm (hkey.trans hkey'.symm)
      exact (confined_perform op hkey).after db db' hdb
    | wipe stores =>
      obtain ⟨keys, rfl, hmem⟩ := seenBy_eq_wipe hio
      obtain ⟨keys', rfl, hmem'⟩ := seenBy_eq_wipe hjo
      have hw := wipes_wipePartitions keys stores
      have hw' := wipes_wipePartitions keys' stores
      show Database.rows _ ((wipePartitions keys stores).after db) =
        Database.rows _ ((wipePartitions keys' stores).after db')
      funext s
      by_cases hs : s ∈ stores
      · rw [hw.wiped db _ s ⟨hmem, hs⟩, hw'.wiped db' _ s ⟨hmem', hs⟩]
      · rw [hw.kept db _ s fun h => hs h.2, hw'.kept db' _ s fun h => hs h.2, hdb]

/-! ### Whole histories -/

/-- **Partition isolation**: whatever else has happened, a request of a triple is answered
the same after two histories of which the triple has seen the same, and a request whose key
is not that of its triple is turned away and changes nothing. -/
theorem storage_partition_isolation (env : Environment) :
    (∀ (db : Database) (t : Triple) (h₁ h₂ : List Input),
      Set.InjOn (Triple.key env) (triplesUsed t (h₁ ++ h₂)) →
      h₁.filterMap (seenBy env t) = h₂.filterMap (seenBy env t) →
      ∀ (req : StorageRequest) (op : Operation), req.triple = t →
        (perform env req op).reply (run env db h₁) =
          (perform env req op).reply (run env db h₂)) ∧
    ∀ (req : StorageRequest) (op : Operation) (db : Database),
      req.declaredKey ≠ req.triple.key env →
      (perform env req op).reply db = .error (.gatekeeper .keyMismatch) ∧
        (perform env req op).after db = db := by
  refine ⟨fun db t h₁ h₂ hinj hseen req op ht => ?_, fun req op db h => perform_of_ne op h db⟩
  have hview : (run env db h₁).rows (t.key env) = (run env db h₂).rows (t.key env) :=
    (unwinding_step hinj).view_foldl (fun i => List.mem_append_left h₂)
      (fun i => List.mem_append_right h₁) hseen rfl
  subst ht
  by_cases hkey : req.declaredKey = req.triple.key env
  · exact (confined_perform op hkey).reply _ _ hview
  · rw [(perform_of_ne op hkey _).1, (perform_of_ne op hkey _).1]

/-- Two sites of one profile, in one context. -/
def exampleTriple (site : Text) : Triple := ⟨site, .splat 1, .splat 2⟩

/-- The hash of each of the two, as SHA-256 has it. -/
def exampleEnvironment : Environment where
  sha256 input :=
    if input = PartitionKey.encode "a.example".toList (.splat 1) (.splat 2) then
      #v[0xa9, 0x2c, 0x58, 0x18, 0xba, 0xf5, 0x2a, 0xd9, 0x32, 0x51, 0x39, 0x9e, 0x0b, 0xc7,
        0x93, 0xb5, 0x6d, 0x13, 0x17, 0x65, 0x1d, 0x04, 0x03, 0xf2, 0xbe, 0x19, 0x87, 0x9e,
        0x96, 0x85, 0x80, 0x9a]
    else
      #v[0x21, 0xae, 0xfd, 0xec, 0xde, 0x29, 0x92, 0xf7, 0x3e, 0xab, 0x21, 0x76, 0xcc, 0xbf,
        0x2a, 0x7b, 0x41, 0x1b, 0xbd, 0x07, 0xf9, 0x7f, 0xf0, 0xaf, 0xc2, 0x5c, 0x84, 0xa2,
        0xb0, 0x11, 0x09, 0xbb]
  quoted s := '"' :: s ++ ['"']

/-- A request of one of the two sites. -/
def exampleRequest (site : Text) : StorageRequest :=
  ⟨site, .splat 1, .splat 2, (exampleTriple site).key exampleEnvironment⟩

/-- Both sites store a cookie of the same name, and the second one's partition is wiped. -/
def exampleHistory : List Input :=
  [.request (exampleRequest "a.example".toList)
      (.cookiesPut ⟨"id".toList, "1".toList, none, true, true, .lax⟩),
    .request (exampleRequest "b.example".toList)
      (.cookiesPut ⟨"id".toList, "2".toList, none, true, true, .lax⟩),
    .wipe [(exampleTriple "b.example".toList).key exampleEnvironment] defaultStores]

/-- The first site reads its cookie as if the second had never been there. -/
theorem storage_partition_isolation_example :
    (perform exampleEnvironment (exampleRequest "a.example".toList)
        (.cookiesGet "id".toList)).reply (run exampleEnvironment .empty exampleHistory) =
      .ok (some ⟨"id".toList, "1".toList, none, true, true, .lax⟩) := by
  have hkey : (exampleTriple "a.example".toList).key exampleEnvironment ≠
    (exampleTriple "b.example".toList).key exampleEnvironment := by decide
  have hused : ∀ t ∈ triplesUsed (exampleTriple "a.example".toList)
      (exampleHistory ++ exampleHistory.take 1),
      t = exampleTriple "a.example".toList ∨ t = exampleTriple "b.example".toList := by
    rintro t (rfl | ⟨req, op, hmem, rfl⟩)
    · exact .inl rfl
    · simp only [exampleHistory, List.take_succ_cons, List.take_zero, List.cons_append,
        List.nil_append, List.mem_cons, List.not_mem_nil, or_false, Input.request.injEq,
        reduceCtorEq, false_or] at hmem
      rcases hmem with ⟨rfl, -⟩ | ⟨rfl, -⟩ | ⟨rfl, -⟩
      · exact .inl rfl
      · exact .inr rfl
      · exact .inl rfl
  have hinj : Set.InjOn (Triple.key exampleEnvironment)
      (triplesUsed (exampleTriple "a.example".toList)
        (exampleHistory ++ exampleHistory.take 1)) := by
    intro t ht t' ht' heq
    rcases hused t ht with rfl | rfl <;> rcases hused t' ht' with rfl | rfl
    · rfl
    · exact absurd heq hkey
    · exact absurd heq.symm hkey
    · rfl
  exact ((storage_partition_isolation exampleEnvironment).1 .empty
    (exampleTriple "a.example".toList) exampleHistory (exampleHistory.take 1) hinj rfl
    (exampleRequest "a.example".toList) _ rfl).trans rfl

end Storage

end DevBrowse
