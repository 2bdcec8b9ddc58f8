import Mathlib.Data.List.AList
import Mathlib.Algebra.BigOperators.Group.List.Basic
import Mathlib.Algebra.GroupWithZero.Nat

/-!
# Hash maps

A hash map is a Mathlib association list without repeated keys. The order of its
entries stands for the order in which the map happens to iterate, which a program
must not rely on: `HashMap.Reordered` relates two maps that differ in that order
only, and a lookup cannot tell them apart.

Besides the lookup lemmas in the shapes a case analysis wants them, the file has
what accounting over a map needs: the total of a measure over the values, and how
inserting and erasing an entry change it.
-/

/-- A hash map from `κ` to `ν`, its entries in the order of iteration. -/
abbrev HashMap (κ ν : Type*) := AList fun _ : κ => ν

namespace HashMap

variable {κ ν : Type*} [DecidableEq κ] {m : HashMap κ ν} {k k' : κ} {v : ν}

theorem lookup_insert_eq (m : HashMap κ ν) (k k' : κ) (v : ν) :
    (m.insert k v).lookup k' = if k' = k then some v else m.lookup k' := by
  by_cases h : k' = k
  · rw [if_pos h, h, AList.lookup_insert]
  · rw [if_neg h, AList.lookup_insert_ne h]

theorem lookup_erase_eq (m : HashMap κ ν) (k k' : κ) :
    (m.erase k).lookup k' = if k' = k then none else m.lookup k' := by
  by_cases h : k' = k
  · rw [if_pos h, h, AList.lookup_erase]
  · rw [if_neg h, AList.lookup_erase_ne h]

/-- What is found after an insert was put there or was there before. -/
theorem lookup_insert_cases {w : ν} (h : (m.insert k v).lookup k' = some w) :
    k' = k ∧ w = v ∨ k' ≠ k ∧ m.lookup k' = some w := by
  rw [lookup_insert_eq] at h
  split at h
  · rename_i hk
    exact Or.inl ⟨hk, (Option.some.inj h).symm⟩
  · rename_i hk
    exact Or.inr ⟨hk, h⟩

/-- What is found after an erase was there before. -/
theorem lookup_erase_eq_some_iff :
    (m.erase k).lookup k' = some v ↔ k' ≠ k ∧ m.lookup k' = some v := by
  rw [lookup_erase_eq]
  split
  · rename_i hk
    exact iff_of_false (by simp) fun h => h.1 hk
  · rename_i hk
    exact (and_iff_right hk).symm

theorem mem_iff_lookup : k ∈ m ↔ ∃ v, m.lookup k = some v := by
  rw [← AList.lookup_isSome, Option.isSome_iff_exists]

/-! ### Changing the values -/

/-- The map with a function applied to every value. -/
def mapValues (f : ν → ν) (m : HashMap κ ν) : HashMap κ ν :=
  ⟨m.entries.map fun e => ⟨e.1, f e.2⟩, by
    have hkeys : (m.entries.map Sigma.fst).Nodup := m.nodupKeys
    simpa [List.NodupKeys, List.keys, Function.comp_def] using hkeys⟩

theorem lookup_mapValues (f : ν → ν) (m : HashMap κ ν) (k : κ) :
    (m.mapValues f).lookup k = (m.lookup k).map f := by
  obtain ⟨entries, hnodup⟩ := m
  simp only [AList.lookup, mapValues]
  clear hnodup
  induction entries with
  | nil => rfl
  | cons e entries ih =>
    obtain ⟨a, v⟩ := e
    by_cases h : k = a
    · subst h
      simp
    · simp [List.dlookup_cons_ne, h, ih]

/-! ### The order of iteration -/

/-- Two maps with the same entries, iterated in different orders. -/
def Reordered (m m' : HashMap κ ν) : Prop := m.entries.Perm m'.entries

instance [DecidableEq ν] : Decidable (Reordered m m') :=
  inferInstanceAs (Decidable (m.entries.Perm m'.entries))

theorem Reordered.lookup_eq {m m' : HashMap κ ν} (h : Reordered m m') (k : κ) :
    m.lookup k = m'.lookup k :=
  AList.perm_lookup h

/-- The first entry, in the order of iteration, whose value passes the test. -/
def findEntry (p : ν → Bool) (m : HashMap κ ν) : Option (κ × ν) :=
  (m.entries.find? fun e => p e.2).map fun e => (e.1, e.2)

theorem lookup_of_findEntry {p : ν → Bool} (h : findEntry p m = some (k, v)) :
    m.lookup k = some v ∧ p v = true := by
  obtain ⟨⟨k₀, v₀⟩, hfind, hkv⟩ := Option.map_eq_some_iff.mp h
  obtain ⟨rfl, rfl⟩ : k₀ = k ∧ v₀ = v := by simpa using hkv
  exact ⟨AList.mem_lookup_iff.mpr (List.mem_of_find?_eq_some hfind),
    by simpa using List.find?_some hfind⟩

theorem not_of_findEntry_eq_none {p : ν → Bool} (h : findEntry p m = none)
    (hk : m.lookup k = some v) : p v = false := by
  rw [findEntry, Option.map_eq_none_iff, List.find?_eq_none] at h
  simpa using h ⟨k, v⟩ (AList.mem_lookup_iff.mp hk)

/-! ### Keys by their values -/

/-- The keys of the values that pass a test. -/
def keysWhere (p : ν → Bool) (m : HashMap κ ν) : List κ :=
  (m.entries.filter fun e => p e.2).map Sigma.fst

theorem mem_keysWhere {p : ν → Bool} :
    k ∈ keysWhere p m ↔ ∃ v, m.lookup k = some v ∧ p v = true := by
  simp only [keysWhere, List.mem_map, List.mem_filter]
  constructor
  · rintro ⟨⟨k', v⟩, ⟨hmem, hp⟩, rfl⟩
    exact ⟨v, AList.mem_lookup_iff.mpr hmem, hp⟩
  · rintro ⟨v, hv, hp⟩
    exact ⟨⟨k, v⟩, ⟨AList.mem_lookup_iff.mp hv, hp⟩, rfl⟩

omit [DecidableEq κ] in
theorem nodup_keysWhere (p : ν → Bool) (m : HashMap κ ν) : (keysWhere p m).Nodup :=
  List.Nodup.sublist (List.filter_sublist.map Sigma.fst) m.nodupKeys

/-! ### Totals -/

/-- The sum of a measure over the values of a map. -/
def total (f : ν → ℕ) (m : HashMap κ ν) : ℕ := (m.entries.map fun e => f e.2).sum

variable {f : ν → ℕ}

omit [DecidableEq κ] in
@[simp] theorem total_empty : total f (∅ : HashMap κ ν) = 0 := rfl

theorem total_insert_of_notMem (h : k ∉ m) (v : ν) :
    total f (m.insert k v) = f v + total f m := by
  rw [total, AList.entries_insert_of_notMem h]
  simp [total]

/-- Taking an entry out lowers the total by what the entry measured. -/
theorem total_erase (h : m.lookup k = some v) : total f (m.erase k) + f v = total f m := by
  have hmem : (⟨k, v⟩ : Sigma fun _ : κ => ν) ∈ m.entries := AList.mem_lookup_iff.mp h
  obtain ⟨w, l₁, l₂, -, hl, herase⟩ := List.exists_of_kerase (List.mem_keys_of_mem hmem)
  obtain rfl : w = v := by
    have hw : m.lookup k = some w := AList.mem_lookup_iff.mpr (by rw [hl]; simp)
    exact Option.some.inj (hw.symm.trans h)
  have herase' : (m.erase k).entries = l₁ ++ l₂ := herase
  rw [total, total, herase', hl]
  simp only [List.map_append, List.map_cons, List.sum_append, List.sum_cons]
  omega

/-- Putting an entry in raises the total by what it measures, less what the entry it replaces
measured. -/
theorem total_insert (m : HashMap κ ν) (k : κ) (v : ν) :
    total f (m.insert k v) + ((m.lookup k).map f).getD 0 = f v + total f m := by
  cases h : m.lookup k with
  | none => rw [total_insert_of_notMem (AList.lookup_eq_none.mp h)]; rfl
  | some w =>
    have hinsert : total f (m.insert k v) = f v + total f (m.erase k) := rfl
    rw [hinsert, ← total_erase h, Option.map_some, Option.getD_some, add_assoc]

end HashMap
