import DevBrowse.Lib.HashMap
import Mathlib.Data.List.Sort

/-!
# Tables with a key of two parts

The rows of a table are found by a primary key of two columns, a partition and a name in
it. The statements here are the ones that name a single partition: replacing a row, reading
one row or all of them in the order of their names, deleting one row or all of them.

`Table.rows` is what a table holds of one partition, and every statement is told apart by
what it does to these rows: the rows of the partition it names change as the statement says
(`Table.rows_insertOrReplace`, `Table.rows_delete`, `Table.rows_deletePartition`), the rows of
the others stay, and what is read of a partition depends on its rows only
(`Table.select_congr`).
-/

/-- A table whose primary key is a partition and a name. -/
abbrev Table (π κ ρ : Type*) := HashMap (π × κ) ρ

namespace Table

variable {π κ ρ : Type*} [DecidableEq π] [DecidableEq κ] {t t' : Table π κ ρ} {p q : π}
  {k : κ} {r : ρ}

/-! ### The statements -/

/-- What the table holds of a partition. -/
def rows (p : π) (t : Table π κ ρ) : List (κ × ρ) :=
  t.entries.filterMap fun e => if e.1.1 = p then some (e.1.2, e.2) else none

/-- The row with the given key replaced, or added. -/
def insertOrReplace (p : π) (k : κ) (r : ρ) (t : Table π κ ρ) : Table π κ ρ :=
  AList.insert (p, k) r t

/-- The row with the given key. -/
def select (p : π) (k : κ) (t : Table π κ ρ) : Option ρ := t.lookup (p, k)

/-- The rows of a partition, in the order of their names. -/
def selectAll (le : κ → κ → Bool) (p : π) (t : Table π κ ρ) : List (κ × ρ) :=
  (t.rows p).insertionSort fun a b => le a.1 b.1 = true

/-- The table without the row with the given key. -/
def delete (p : π) (k : κ) (t : Table π κ ρ) : Table π κ ρ := AList.erase (p, k) t

/-- The table without the rows of a partition. -/
def deletePartition (p : π) (t : Table π κ ρ) : Table π κ ρ :=
  ⟨t.entries.filter fun e => e.1.1 ≠ p, t.nodupKeys.sublist List.filter_sublist⟩

/-! ### What they do to the rows of a partition -/

omit [DecidableEq κ] in
private theorem rowOf_eq_some_iff {e : Sigma fun _ : π × κ => ρ} :
    (if e.1.1 = p then some (e.1.2, e.2) else none) = some (k, r) ↔ e = ⟨(p, k), r⟩ := by
  obtain ⟨⟨q, k'⟩, r'⟩ := e
  by_cases h : q = p
  · subst h
    simp
  · simp [h]

omit [DecidableEq κ] in
/-- How many rows a table has of a partition. -/
theorem length_rows (p : π) (t : Table π κ ρ) :
    (t.rows p).length = t.entries.countP fun e => e.1.1 = p := by
  rw [rows, List.length_filterMap_eq_countP]
  refine List.countP_congr fun e _ => ?_
  by_cases h : e.1.1 = p <;> simp [h]

theorem mem_rows : (k, r) ∈ t.rows p ↔ t.select p k = some r := by
  rw [rows, List.mem_filterMap, select, ← Option.mem_def, AList.mem_lookup_iff]
  constructor
  · rintro ⟨e, he, hrow⟩
    rwa [rowOf_eq_some_iff.mp hrow] at he
  · intro he
    exact ⟨_, he, rowOf_eq_some_iff.mpr rfl⟩

/-- What is read of a partition depends on its rows only. -/
theorem select_congr (h : t.rows p = t'.rows p) (k : κ) : t.select p k = t'.select p k := by
  refine Option.ext fun r => ?_
  rw [← mem_rows, h, mem_rows]

theorem rows_delete (p : π) (k : κ) (t : Table π κ ρ) :
    (t.delete p k).rows p = (t.rows p).eraseP fun e => e.1 = k := by
  obtain ⟨entries, hnodup⟩ := t
  show (List.kerase (p, k) entries).filterMap _ = (entries.filterMap _).eraseP _
  clear hnodup
  induction entries with
  | nil => rfl
  | cons e entries ih =>
    obtain ⟨⟨q, k'⟩, r⟩ := e
    by_cases hkey : (p, k) = (q, k')
    · -- the row that goes; there is no other of its key
      rw [List.kerase_cons_eq hkey]
      obtain ⟨rfl, rfl⟩ := Prod.mk.inj hkey
      simp
    · rw [List.kerase_cons_ne hkey]
      by_cases hq : q = p
      · subst hq
        have hk : k' ≠ k := fun h => hkey (by rw [h])
        simpa [hk] using ih
      · simpa [hq] using ih

theorem rows_delete_of_ne (h : p ≠ q) (k : κ) (t : Table π κ ρ) :
    (t.delete q k).rows p = t.rows p := by
  obtain ⟨entries, hnodup⟩ := t
  show (List.kerase (q, k) entries).filterMap _ = entries.filterMap _
  clear hnodup
  induction entries with
  | nil => rfl
  | cons e entries ih =>
    obtain ⟨⟨q', k'⟩, r⟩ := e
    by_cases hkey : (q, k) = (q', k')
    · rw [List.kerase_cons_eq hkey]
      obtain ⟨rfl, rfl⟩ := Prod.mk.inj hkey
      simp [Ne.symm h]
    · rw [List.kerase_cons_ne hkey, List.filterMap_cons, List.filterMap_cons, ih]

theorem rows_insertOrReplace (p : π) (k : κ) (r : ρ) (t : Table π κ ρ) :
    (t.insertOrReplace p k r).rows p = (k, r) :: (t.rows p).eraseP fun e => e.1 = k := by
  rw [← rows_delete]
  show List.filterMap _ (⟨(p, k), r⟩ :: List.kerase (p, k) t.entries) = _
  rw [List.filterMap_cons, if_pos rfl]
  rfl

theorem rows_insertOrReplace_of_ne (h : p ≠ q) (k : κ) (r : ρ) (t : Table π κ ρ) :
    (t.insertOrReplace q k r).rows p = t.rows p := by
  rw [← rows_delete_of_ne h k t]
  show List.filterMap _ (⟨(q, k), r⟩ :: List.kerase (q, k) t.entries) = _
  rw [List.filterMap_cons, if_neg (Ne.symm h)]
  rfl

omit [DecidableEq κ] in
@[simp] theorem rows_deletePartition (p : π) (t : Table π κ ρ) :
    (t.deletePartition p).rows p = [] := by
  rw [rows, List.filterMap_eq_nil_iff]
  intro e he
  have hne : e.1.1 ≠ p := by simpa using List.of_mem_filter he
  exact if_neg hne

omit [DecidableEq κ] in
theorem rows_deletePartition_of_ne (h : p ≠ q) (t : Table π κ ρ) :
    (t.deletePartition q).rows p = t.rows p := by
  rw [rows, rows, deletePartition, List.filterMap_filter]
  refine List.filterMap_congr fun e _ => ?_
  by_cases hp : e.1.1 = p
  · have hq : e.1.1 ≠ q := fun hq => h (hp.symm.trans hq)
    simp [hq]
  · simp [hp]

/-! ### What is read -/

theorem select_insertOrReplace (p q : π) (k k' : κ) (r : ρ) (t : Table π κ ρ) :
    (t.insertOrReplace p k r).select q k' =
      if q = p ∧ k' = k then some r else t.select q k' := by
  rw [select, insertOrReplace, HashMap.lookup_insert_eq]
  simp only [Prod.mk.injEq, select]

theorem select_delete (p q : π) (k k' : κ) (t : Table π κ ρ) :
    (t.delete p k).select q k' = if q = p ∧ k' = k then none else t.select q k' := by
  rw [select, delete, HashMap.lookup_erase_eq]
  simp only [Prod.mk.injEq, select]

/-- There is one row of a name at most. -/
theorem nodup_names_rows (p : π) (t : Table π κ ρ) : ((t.rows p).map Prod.fst).Nodup := by
  rw [List.nodup_map_iff_inj_on]
  · rintro ⟨k, r⟩ hr ⟨k', r'⟩ hr' hk
    obtain rfl : k = k' := hk
    rw [Option.some.inj ((mem_rows.mp hr).symm.trans (mem_rows.mp hr'))]
  · refine List.Nodup.filterMap ?_ t.nodupKeys.nodup
    rintro e e' ⟨k, r⟩ he he'
    rw [rowOf_eq_some_iff.mp he, rowOf_eq_some_iff.mp he']

/-- What is listed of a partition is what is there, once each. -/
theorem mem_selectAll {le : κ → κ → Bool} :
    (k, r) ∈ t.selectAll le p ↔ t.select p k = some r := by
  rw [selectAll, List.mem_insertionSort, mem_rows]

theorem nodup_names_selectAll (le : κ → κ → Bool) (p : π) (t : Table π κ ρ) :
    ((t.selectAll le p).map Prod.fst).Nodup :=
  ((List.perm_insertionSort _ _).map Prod.fst).nodup_iff.mpr (nodup_names_rows p t)

omit [DecidableEq κ] in
/-- What is listed of a partition is in order. -/
theorem pairwise_selectAll {le : κ → κ → Bool} (htotal : ∀ a b, le a b = true ∨ le b a = true)
    (htrans : ∀ a b c, le a b = true → le b c = true → le a c = true) (p : π)
    (t : Table π κ ρ) : (t.selectAll le p).Pairwise fun a b => le a.1 b.1 = true := by
  have : Std.Total fun a b : κ × ρ => le a.1 b.1 = true := ⟨fun a b => htotal a.1 b.1⟩
  have : IsTrans (κ × ρ) fun a b => le a.1 b.1 = true := ⟨fun a b c => htrans a.1 b.1 c.1⟩
  exact List.pairwise_insertionSort _ _

end Table
