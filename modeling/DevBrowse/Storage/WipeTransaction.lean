import DevBrowse.Lib.Transaction
import DevBrowse.Storage.Sqlite
import DevBrowse.Storage.StrictWipe
import Mathlib.Data.List.Dedup

/-!
# Wipes that may fail

`Storage.wipePartitions` is what a wipe does to the contents of the database. Here it is a
program over a connection, one statement for each key and store inside one transaction, any
of which may fail. What is in the file afterwards is what `Storage.wipePartitions` makes of it,
or what was there before (`OnConnection.wipePartitions_eq_ok` and
`OnConnection.wipePartitions_eq_error`).

The rows that a wipe removes, and its counts of them by store, are right whatever it is called
with: `tally_wipePartitions` follows both through the two loops. The number of distinct keys
is not always what it reports: it reports how many keys it was given.
-/

namespace DevBrowse

open Network (PartitionKey)

namespace Storage

/-! ### The loops -/

/-- How far a wipe is: of each store, the rows of the partitions in `wiped` are gone, and
they have been counted. -/
structure Tally (wiped : Store → PartitionKey → Bool) (db : Database)
    (perStore : HashMap Text ℕ) (db' : Database) : Prop where
  /-- The rows that are left. -/
  left : ∀ s, (db' s).entries = (db s).entries.filter fun e => !wiped s e.1.1
  /-- The rows that were counted. -/
  counted : ∀ s, (perStore.lookup s.name).getD 0 = (db s).entries.countP fun e => wiped s e.1.1

theorem Store.name_injective : Function.Injective Store.name := by
  intro s s' h
  cases s <;> cases s' <;> first | rfl | exact absurd h (by decide)

/-- Nothing is wiped before the first turn. -/
theorem tally_empty (db : Database) : Tally (fun _ _ => false) db ∅ db where
  left s := by simp
  counted s := by simp

theorem Tally.congr {wiped wiped' : Store → PartitionKey → Bool} {db db' : Database}
    {perStore : HashMap Text ℕ} (h : Tally wiped db perStore db')
    (heq : ∀ s p, wiped s p = wiped' s p) : Tally wiped' db perStore db' := by
  have : wiped = wiped' := funext₂ heq
  rwa [← this]

/-- The rows counted twice over: those of `q`, and those of `p` that are not of `q`. -/
theorem countP_or {α : Type} (p q : α → Bool) (l : List α) :
    (l.countP fun a => q a || p a) = l.countP q + (l.filter fun a => !q a).countP p := by
  rw [List.countP_eq_countP_filter_add l _ q, List.countP_filter, List.countP_filter,
    List.countP_filter]
  refine congrArg₂ (· + ·) (List.countP_congr fun a _ => ?_) (List.countP_congr fun a _ => ?_)
  · cases q a <;> simp
  · cases q a <;> simp

/-- One statement: the rows of one more partition are gone from one store, and counted. -/
theorem tally_wipeStore {wiped : Store → PartitionKey → Bool} {db db' : Database}
    {perStore : HashMap Text ℕ} (h : Tally wiped db perStore db') (key : PartitionKey)
    (s : Store) :
    ∃ perStore' db'', wipeStore key perStore s db' = .ok perStore' db'' ∧
      Tally (fun s' p => wiped s' p || (decide (s' = s) && decide (p = key))) db perStore'
        db'' := by
  refine ⟨_, _, rfl, ?_, ?_⟩
  · intro s'
    by_cases hs : s' = s
    · subst hs
      rw [Database.withTable_self]
      show (db' s').entries.filter _ = _
      rw [h.left, List.filter_filter]
      refine List.filter_congr fun e _ => ?_
      by_cases hp : e.1.1 = key <;> simp [hp]
    · rw [Database.withTable_of_ne _ _ hs, h.left]
      simp [hs]
  · intro s'
    rw [HashMap.lookup_insert_eq]
    by_cases hs : s' = s
    · subst hs
      rw [if_pos rfl, Option.getD_some, h.counted, Table.length_rows, h.left, ← countP_or]
      simp
    · rw [if_neg fun hname => hs (Store.name_injective hname), h.counted]
      simp [hs]

/-- One turn of the outer loop: the rows of one more partition are gone from all the stores
listed. -/
theorem tally_stores {stores : List Store} {done : List PartitionKey} {db db' : Database}
    {perStore : HashMap Text ℕ}
    (h : Tally (fun s p => decide (s ∈ stores) && decide (p ∈ done)) db perStore db')
    (key : PartitionKey) :
    ∃ perStore' db'', stores.foldlM (wipeStore key) perStore db' = .ok perStore' db'' ∧
      Tally (fun s p => decide (s ∈ stores) && decide (p ∈ done ++ [key])) db perStore' db'' := by
  obtain ⟨perStore', db'', hrun, h'⟩ := EStateM.exists_foldlM_eq_ok
    (I := fun (served : List Store) perStore db' =>
      Tally (fun s p => (decide (s ∈ stores) && decide (p ∈ done)) ||
        (decide (s ∈ served) && decide (p = key))) db perStore db')
    (fun _ s perStore db' h => by
      obtain ⟨perStore', db'', hrun, h'⟩ := tally_wipeStore h key s
      refine ⟨perStore', db'', hrun, h'.congr fun s' p => ?_⟩
      simp only [List.mem_append, List.mem_singleton]
      grind)
    stores [] (h.congr fun s p => by simp)
  refine ⟨perStore', db'', hrun, h'.congr fun s p => ?_⟩
  simp only [List.mem_append, List.mem_singleton, List.nil_append]
  grind

/-- **What a wipe removes and counts**: the rows of the keys listed, in the stores listed. -/
theorem tally_wipePartitions (keys : List PartitionKey) (stores : List Store) (db : Database) :
    ∃ report db', wipePartitions keys stores db = .ok report db' ∧
      Tally (fun s p => decide (s ∈ stores) && decide (p ∈ keys)) db report.perStore db' ∧
      report.keysProcessed = if stores = [] then 0 else keys.length := by
  rw [wipePartitions]
  split
  · rename_i hempty
    refine ⟨_, db, rfl, (tally_empty db).congr fun s p => ?_, ?_⟩
    · rcases hempty with rfl | rfl <;> simp
    · rcases hempty with rfl | rfl <;> simp
  · rename_i hempty
    obtain ⟨perStore, db', hrun, h⟩ := EStateM.exists_foldlM_eq_ok
      (I := fun (done : List PartitionKey) perStore db' =>
        Tally (fun s p => decide (s ∈ stores) && decide (p ∈ done)) db perStore db')
      (fun _ key _ _ h => tally_stores h key) keys [] ((tally_empty db).congr fun s p => by simp)
    refine ⟨⟨keys.length, perStore⟩, db', ?_, h, ?_⟩
    · rw [EStateM.bind_of_ok hrun]
      rfl
    · rw [if_neg fun h => hempty (.inr h)]

/-! ### On a connection -/

/-- Why a store does not do what it is asked, where the database may fail as well. -/
inductive StoreFailure where
  /-- The store's own reasons. -/
  | store (e : StoreError)
  /-- The database failed. -/
  | sqlite (e : SqliteError)
  deriving DecidableEq

/-- What `BEGIN` says inside a transaction. -/
def nestedTransaction : SqliteError :=
  .generic "cannot start a transaction within a transaction".toList

namespace OnConnection

variable (faults : Faults StoreFailure)

/-- `DELETE FROM s WHERE partition_key = key`: how many rows were removed. -/
def wipePartition (s : Store) (key : PartitionKey) : Sql StoreFailure Database ℕ :=
  Sql.execute faults ((deletePartition s key).adaptExcept .store)

/-- One store wiped for one key, and the rows counted under its name. -/
def wipeStore (key : PartitionKey) (perStore : HashMap Text ℕ) (s : Store) :
    Sql StoreFailure Database (HashMap Text ℕ) := do
  let n ← wipePartition faults s key
  pure (perStore.insert s.name ((perStore.lookup s.name).getD 0 + n))

/-- Every store wiped for every key, in one transaction. -/
def wipePartitions (keys : List PartitionKey) (stores : List Store) :
    Sql StoreFailure Database WipeReport := do
  if keys = [] ∨ stores = [] then
    pure {}
  else
    let perStore ← Sql.transaction faults (.sqlite nestedTransaction)
      (keys.foldlM (fun perStore key => stores.foldlM (wipeStore faults key) perStore) ∅)
    pure ⟨keys.length, perStore⟩

variable {faults} {keys : List PartitionKey} {stores : List Store} {c c' : Connection Database}
  {report : WipeReport} {e : StoreFailure}

/-- The body of the transaction is made of statements. -/
theorem within_loops (keys : List PartitionKey) (stores : List Store) :
    Sql.Within
      (keys.foldlM (fun perStore key => stores.foldlM (wipeStore faults key) perStore) ∅)
      (keys.foldlM (fun perStore key => stores.foldlM (Storage.wipeStore key) perStore) ∅) := by
  refine Sql.Within.foldlM (fun perStore key => Sql.Within.foldlM (fun perStore s => ?_) _ _) _ _
  exact (Sql.within_execute faults StoreFailure.store (deletePartition s key)).bind fun n =>
    Sql.Within.pure _

/-- A wipe that ends well has made of the file what `Storage.wipePartitions` makes of it. -/
theorem wipePartitions_eq_ok (h : wipePartitions faults keys stores c = .ok report c') :
    Storage.wipePartitions keys stores c.committed = .ok report c'.committed ∧
      c'.pending = c.pending := by
  rw [wipePartitions] at h
  rw [Storage.wipePartitions]
  split at h
  · rename_i hempty
    cases h
    rw [if_pos hempty]
    exact ⟨rfl, rfl⟩
  · rename_i hempty
    rw [if_neg hempty]
    obtain ⟨perStore, c₁, hrun, hpure⟩ := EStateM.exists_of_bind_eq_ok h
    cases hpure
    obtain ⟨hc, hc', hbody⟩ := Sql.transaction_eq_ok (within_loops keys stores) hrun
    refine ⟨?_, hc'.trans hc.symm⟩
    rw [EStateM.bind_of_ok hbody]
    rfl

/-- A wipe that fails leaves the database as it was. -/
theorem wipePartitions_eq_error (h : wipePartitions faults keys stores c = .error e c') :
    c'.committed = c.committed ∧ c'.pending = c.pending := by
  rw [wipePartitions] at h
  split at h
  · cases h
  · rcases EStateM.exists_of_bind_eq_error h with hrun | ⟨perStore, c₁, -, hpure⟩
    · exact Sql.transaction_eq_error (within_loops keys stores) hrun
    · cases hpure

/-! ### Exactness -/

/-- What a wipe of some keys in some stores has to have made of the database, and to report. -/
structure WipedExactly (keys : List PartitionKey) (stores : List Store) (db db' : Database)
    (report : WipeReport) : Prop where
  /-- The rows of the keys are gone from the stores listed, and no others. -/
  removed : ∀ s ∈ stores, (db' s).entries = (db s).entries.filter fun e => e.1.1 ∉ keys
  /-- The other stores are what they were. -/
  kept : ∀ s ∉ stores, db' s = db s
  /-- Of each store, the number of rows removed is reported. -/
  counted : ∀ s ∈ stores,
    (report.perStore.lookup s.name).getD 0 = (db s).entries.countP fun e => e.1.1 ∈ keys
  /-- The number of distinct keys is reported. -/
  keysProcessed : report.keysProcessed = keys.dedup.length

/-- What a wipe reports as the number of its keys is the number of distinct ones if none is
listed twice, and stores are listed if keys are. -/
theorem keysProcessed_eq_iff (keys : List PartitionKey) (stores : List Store) :
    (if stores = [] then 0 else keys.length) = keys.dedup.length ↔
      keys.Nodup ∧ (stores = [] → keys = []) := by
  split
  · rename_i hstores
    rw [eq_comm, List.length_eq_zero_iff, List.dedup_eq_nil]
    constructor
    · rintro rfl
      exact ⟨List.nodup_nil, fun _ => rfl⟩
    · intro h
      exact h.2 hstores
  · rename_i hstores
    rw [← List.dedup_eq_self]
    constructor
    · intro h
      exact ⟨(List.dedup_sublist keys).eq_of_length h.symm, fun h => absurd h hstores⟩
    · rintro ⟨h, -⟩
      rw [h]

/-- But for the number of keys, a wipe is exact. -/
theorem wipedExactly_of_tally {db db' : Database}
    (h : Tally (fun s p => decide (s ∈ stores) && decide (p ∈ keys)) db report.perStore db')
    (hkeys : report.keysProcessed = keys.dedup.length) :
    WipedExactly keys stores db db' report where
  removed s hs := by
    rw [h.left]
    simp [hs]
  kept s hs := by
    refine AList.ext ?_
    rw [h.left]
    simp [hs]
  counted s hs := by
    rw [h.counted]
    simp [hs]
  keysProcessed := hkeys

/-- **A wipe is atomic, and exact but for the number of keys.** Where it fails, the database
is what it was. Where it does not, it has removed and counted what it should, and what it
reports as the number of distinct keys is that number if and only if no key is listed twice
and, where keys are listed, stores are. -/
theorem wipePartitions_exact_iff (faults : Faults StoreFailure) (keys : List PartitionKey)
    (stores : List Store) (c : Connection Database) :
    match wipePartitions faults keys stores c with
    | .ok report c' =>
      (WipedExactly keys stores c.committed c'.committed report ↔
        keys.Nodup ∧ (stores = [] → keys = [])) ∧ c'.pending = c.pending
    | .error _ c' => c'.committed = c.committed ∧ c'.pending = c.pending := by
  split
  · next report c' hrun =>
    obtain ⟨hwipe, hpending⟩ := wipePartitions_eq_ok hrun
    obtain ⟨report', db', hrun', htally, hkeys⟩ :=
      tally_wipePartitions keys stores c.committed
    obtain ⟨rfl, rfl⟩ := EStateM.Result.ok.inj (hwipe.symm.trans hrun')
    rw [← keysProcessed_eq_iff, ← hkeys]
    exact ⟨⟨WipedExactly.keysProcessed, wipedExactly_of_tally htally⟩, hpending⟩
  · next e c' hrun => exact wipePartitions_eq_error hrun

/-- A key that is listed twice is reported twice. -/
theorem not_wipedExactly_repeated :
    let key : PartitionKey := ⟨Vector.replicate 32 0⟩
    ∃ report c', wipePartitions Faults.none [key, key] [.cookies] ⟨Database.empty, none, 0⟩ =
        .ok report c' ∧
      report.keysProcessed = 2 ∧
      ¬ WipedExactly [key, key] [.cookies] Database.empty c'.committed report := by
  refine ⟨_, _, rfl, rfl, fun h => ?_⟩
  have hkeys := h.keysProcessed
  exact absurd hkeys (by decide)

end OnConnection

end Storage

end DevBrowse
