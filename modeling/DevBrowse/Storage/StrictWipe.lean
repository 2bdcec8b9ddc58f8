import DevBrowse.Storage.Primitives

/-!
# Wiping partitions

When a tab of a strict identity closes, every partition it has touched is wiped in every
store, in one transaction. What is left of a partition afterwards is read off
`wipes_wipePartitions`: nothing in the stores that were wiped if its key was listed, and
everything otherwise.
-/

namespace DevBrowse

open Network (PartitionKey)

namespace Storage

/-- What a wipe has done. -/
structure WipeReport where
  /-- How many keys it went through. -/
  keysProcessed : ℕ := 0
  /-- How many rows it removed, by the name of the store. -/
  perStore : HashMap Text ℕ := ∅

/-- The sum of the rows removed. -/
def WipeReport.totalRows (report : WipeReport) : ℕ := HashMap.total id report.perStore

/-- The stores wiped where nothing else is asked for. -/
def defaultStores : List Store :=
  [.cookies, .localStorage, .sessionStorage, .cache, .serviceWorker]

/-- The rows of a partition in one store removed: how many there were. -/
def wipePartition (s : Store) (key : PartitionKey) : StoreM ℕ := deletePartition s key

/-- One store wiped for one key, and the rows counted under its name. -/
def wipeStore (key : PartitionKey) (perStore : HashMap Text ℕ) (s : Store) :
    StoreM (HashMap Text ℕ) := do
  let n ← wipePartition s key
  pure (perStore.insert s.name ((perStore.lookup s.name).getD 0 + n))

/-- Every store wiped for every key. -/
def wipePartitions (keys : List PartitionKey) (stores : List Store) : StoreM WipeReport := do
  if keys = [] ∨ stores = [] then
    pure {}
  else
    let perStore ← keys.foldlM (fun perStore key => stores.foldlM (wipeStore key) perStore) ∅
    pure ⟨keys.length, perStore⟩

/-! ### What a wipe leaves -/

/-- A program that always answers, removes the rows of some partitions in some stores, and
leaves the others. -/
structure Wipes {α : Type} (W : PartitionKey → Store → Prop) (m : StoreM α) : Prop where
  /-- It does not fail. -/
  answers : ∀ db, ∃ a, m.reply db = .ok a
  /-- The rows that are removed. -/
  wiped : ∀ db p s, W p s → (m.after db).rows p s = []
  /-- The rows that stay. -/
  kept : ∀ db p s, ¬ W p s → (m.after db).rows p s = db.rows p s

variable {α β : Type} {m : StoreM α} {f : α → StoreM β} {W V : PartitionKey → Store → Prop}

theorem Wipes.pure (a : α) : Wipes (fun _ _ => False) (pure a : StoreM α) where
  answers _ := ⟨a, rfl⟩
  wiped _ _ _ h := h.elim
  kept _ _ _ _ := rfl

theorem Wipes.bind (h : Wipes W m) (hf : ∀ a, Wipes V (f a)) :
    Wipes (fun p s => W p s ∨ V p s) (m >>= f) where
  answers db := by
    obtain ⟨a, ha⟩ := h.answers db
    rw [EStateM.reply_bind, ha]
    exact (hf a).answers _
  wiped db p s hps := by
    obtain ⟨a, ha⟩ := h.answers db
    rw [EStateM.after_bind, ha]
    by_cases hV : V p s
    · exact (hf a).wiped _ p s hV
    · exact ((hf a).kept _ p s hV).trans (h.wiped db p s (hps.resolve_right hV))
  kept db p s hps := by
    obtain ⟨a, ha⟩ := h.answers db
    rw [EStateM.after_bind, ha]
    rw [not_or] at hps
    exact ((hf a).kept _ p s hps.2).trans (h.kept db p s hps.1)

theorem Wipes.of_iff (h : Wipes W m) (hWV : ∀ p s, V p s ↔ W p s) : Wipes V m where
  answers := h.answers
  wiped db p s hV := h.wiped db p s ((hWV p s).mp hV)
  kept db p s hV := h.kept db p s fun hW => hV ((hWV p s).mpr hW)

/-- A loop of wipes. -/
theorem Wipes.foldlM {γ : Type} {f : β → γ → StoreM β} {W : γ → PartitionKey → Store → Prop}
    (h : ∀ b c, Wipes (W c) (f b c)) (l : List γ) (b : β) :
    Wipes (fun p s => ∃ c ∈ l, W c p s) (l.foldlM f b) := by
  induction l generalizing b with
  | nil => exact (Wipes.pure b).of_iff fun p s => by simp
  | cons c l ih =>
    rw [List.foldlM_cons]
    exact ((h b c).bind ih).of_iff fun p s => by simp

theorem wipes_wipeStore (key : PartitionKey) (perStore : HashMap Text ℕ) (s : Store) :
    Wipes (fun p s' => p = key ∧ s' = s) (wipeStore key perStore s) where
  answers _ := ⟨_, rfl⟩
  wiped := by
    rintro db _ _ ⟨rfl, rfl⟩
    show (db.withTable _ _).rows _ _ = _
    rw [Database.rows_withTable, Function.update_self, Table.rows_deletePartition]
  kept db p s' h := by
    show (db.withTable s _).rows p s' = _
    by_cases hp : p = key
    · have hs : s' ≠ s := fun hs => h ⟨hp, hs⟩
      rw [Database.rows_withTable, Function.update_of_ne hs]
    · rw [Database.rows_withTable_of_eq (Table.rows_deletePartition_of_ne hp (db s))]

/-- **What a wipe removes**: the rows of the keys listed, in the stores listed. -/
theorem wipes_wipePartitions (keys : List PartitionKey) (stores : List Store) :
    Wipes (fun p s => p ∈ keys ∧ s ∈ stores) (wipePartitions keys stores) := by
  rw [wipePartitions]
  split
  · rename_i hempty
    refine (Wipes.pure _).of_iff fun p s => ?_
    rcases hempty with rfl | rfl <;> simp
  · have hloop := Wipes.foldlM (fun perStore key => Wipes.foldlM (wipes_wipeStore key) stores
      perStore) keys ∅
    refine (hloop.bind fun perStore => Wipes.pure _).of_iff fun p s => ?_
    simp

end Storage

end DevBrowse
