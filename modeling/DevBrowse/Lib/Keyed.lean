import Mathlib.Data.List.Nodup

/-!
# Lists of items with a key

The items of a list are told apart by a key, and are found, changed, swapped and removed by
it or by their place. Where no two items share a key, finding an item is being one with the
key (`Keyed.find_eq_some_iff`), and an item that is removed from among others has a neighbour
that stays (`Keyed.exists_neighbour`).
-/

namespace Keyed

variable {α κ : Type*} [DecidableEq κ] {key : α → κ} {k : κ} {l : List α} {a : α} {i j : ℕ}

/-- The first item with a key. -/
def find (key : α → κ) (k : κ) (l : List α) : Option α := l.find? fun a => key a = k

/-- The place of the first item with a key. -/
def position (key : α → κ) (k : κ) (l : List α) : Option ℕ := l.findIdx? fun a => key a = k

/-- The list with the first item with a key changed. -/
def modify (key : α → κ) (k : κ) (f : α → α) : List α → List α
  | [] => []
  | a :: l => if key a = k then f a :: l else a :: modify key k f l

/-- The list without the items with a key. -/
def remove (key : α → κ) (k : κ) (l : List α) : List α := l.filter fun a => key a ≠ k

/-- The list with the items of two places swapped. -/
def swap (i j : ℕ) (l : List α) : List α :=
  match l[i]?, l[j]? with
  | some a, some b => (l.set i b).set j a
  | _, _ => l

/-- The item after a place, else the one before. -/
def neighbour (i : ℕ) (l : List α) : Option α :=
  match l[i + 1]? with
  | some a => some a
  | none => if i = 0 then none else l[i - 1]?

/-! ### Finding -/

theorem mem_of_find (h : find key k l = some a) : a ∈ l ∧ key a = k :=
  ⟨List.mem_of_find?_eq_some h, by simpa using List.find?_some h⟩

theorem find_eq_some_iff (hnodup : (l.map key).Nodup) :
    find key k l = some a ↔ a ∈ l ∧ key a = k := by
  refine ⟨mem_of_find, ?_⟩
  rintro ⟨ha, rfl⟩
  cases hfind : find key (key a) l with
  | none =>
    have hnot := List.find?_eq_none.mp hfind a ha
    simp at hnot
  | some b =>
    obtain ⟨hb, hkey⟩ := mem_of_find hfind
    rw [List.inj_on_of_nodup_map hnodup hb ha hkey]

theorem find_eq_none_iff : find key k l = none ↔ k ∉ l.map key := by
  simp [find]

/-- Under distinct keys an item is the only one with its key. -/
theorem filter_eq_singleton (hnodup : (l.map key).Nodup) (ha : a ∈ l) :
    l.filter (fun b => decide (key b = key a)) = [a] := by
  induction l with
  | nil => exact absurd ha List.not_mem_nil
  | cons b l ih =>
    obtain ⟨hb, hl⟩ := List.nodup_cons.mp hnodup
    rcases List.mem_cons.mp ha with rfl | ha
    · have hnone : l.filter (fun b => decide (key b = key a)) = [] := by
        rw [List.filter_eq_nil_iff]
        intro c hc
        rw [decide_eq_true_eq]
        exact fun heq => hb (heq ▸ List.mem_map_of_mem hc)
      rw [List.filter_cons_of_pos (by simp), hnone]
    · have hne : key b ≠ key a := fun heq => hb (heq ▸ List.mem_map_of_mem ha)
      rw [List.filter_cons_of_neg (by simpa using hne), ih hl ha]

theorem exists_find (h : k ∈ l.map key) : ∃ a, find key k l = some a := by
  rw [← Option.isSome_iff_exists, Option.isSome_iff_ne_none, Ne, find_eq_none_iff, not_not]
  exact h

theorem position_spec (h : position key k l = some i) : ∃ a, l[i]? = some a ∧ key a = k := by
  obtain ⟨hi, hkey, -⟩ := List.findIdx?_eq_some_iff_getElem.mp h
  exact ⟨l[i], List.getElem?_eq_getElem hi, by simpa using hkey⟩

theorem exists_position (h : k ∈ l.map key) : ∃ i, position key k l = some i := by
  obtain ⟨a, ha, hkey⟩ := List.mem_map.mp h
  rw [← Option.isSome_iff_exists, position, List.findIdx?_isSome, List.any_eq_true]
  exact ⟨a, ha, by simpa using hkey⟩

/-! ### Changing -/

theorem map_modify {β : Type*} {g : α → β} {f : α → α} (h : ∀ a, g (f a) = g a) :
    (modify key k f l).map g = l.map g := by
  induction l with
  | nil => rfl
  | cons a l ih =>
    rw [modify]
    split
    · rw [List.map_cons, h, List.map_cons]
    · rw [List.map_cons, ih, List.map_cons]

theorem find_modify {f : α → α} (h : ∀ a, key (f a) = key a) :
    find key k (modify key k f l) = (find key k l).map f := by
  induction l with
  | nil => rfl
  | cons a l ih =>
    rw [modify]
    by_cases hkey : key a = k
    · simp [find, hkey, h]
    · rw [if_neg hkey, find, List.find?_cons_of_neg (by simpa using hkey), find,
        List.find?_cons_of_neg (by simpa using hkey)]
      exact ih

theorem mem_modify {f : α → α} (h : a ∈ modify key k f l) :
    a ∈ l ∨ ∃ b, find key k l = some b ∧ a = f b := by
  induction l with
  | nil => cases h
  | cons b l ih =>
    rw [modify] at h
    by_cases hkey : key b = k
    · rw [if_pos hkey] at h
      rcases List.mem_cons.mp h with rfl | hmem
      · exact .inr ⟨b, by simp [find, hkey], rfl⟩
      · exact .inl (List.mem_cons_of_mem _ hmem)
    · rw [if_neg hkey] at h
      rcases List.mem_cons.mp h with rfl | hmem
      · exact .inl List.mem_cons_self
      · rcases ih hmem with hold | ⟨c, hc, rfl⟩
        · exact .inl (List.mem_cons_of_mem _ hold)
        · exact .inr ⟨c, by rwa [find, List.find?_cons_of_neg (by simpa using hkey)], rfl⟩

/-- What changes nothing in the item that is found changes nothing. -/
theorem modify_eq_self {f : α → α} (h : ∀ a, find key k l = some a → f a = a) :
    modify key k f l = l := by
  induction l with
  | nil => rfl
  | cons a l ih =>
    rw [modify]
    by_cases hkey : key a = k
    · rw [if_pos hkey, h a (by simp [find, hkey])]
    · rw [if_neg hkey, ih fun b hb => h b ?_]
      rwa [find, List.find?_cons_of_neg (by simpa using hkey)]

theorem swap_perm (i j : ℕ) (l : List α) : (swap i j l).Perm l := by
  rw [swap]
  split
  · rename_i a b ha hb
    obtain ⟨hi, rfl⟩ := List.getElem?_eq_some_iff.mp ha
    obtain ⟨hj, rfl⟩ := List.getElem?_eq_some_iff.mp hb
    exact List.set_set_perm hi hj
  · exact .refl l

/-! ### Removing -/

theorem mem_remove : a ∈ remove key k l ↔ a ∈ l ∧ key a ≠ k := by
  simp [remove]

theorem nodup_remove (h : (l.map key).Nodup) : ((remove key k l).map key).Nodup :=
  h.sublist (List.filter_sublist.map key)

theorem remove_of_notMem (h : k ∉ l.map key) : remove key k l = l := by
  rw [remove, List.filter_eq_self]
  intro a ha
  rw [decide_eq_true_eq]
  rintro rfl
  exact h (List.mem_map_of_mem ha)

theorem two_le_length (hk : k ∈ l.map key) (hne : remove key k l ≠ []) : 2 ≤ l.length := by
  obtain ⟨a, ha, hkey⟩ := List.mem_map.mp hk
  obtain ⟨b, hb⟩ := List.exists_mem_of_ne_nil _ hne
  obtain ⟨hb, hother⟩ := mem_remove.mp hb
  match l with
  | [c] =>
    rw [List.mem_singleton] at ha hb
    exact absurd (hb ▸ ha ▸ hkey) hother
  | _ :: _ :: _ => simp

theorem exists_neighbour_getElem (hi : i < l.length) (hlen : 2 ≤ l.length) :
    ∃ j, j ≠ i ∧ ∃ hj : j < l.length, neighbour i l = some l[j] := by
  rw [neighbour]
  by_cases hnext : i + 1 < l.length
  · refine ⟨i + 1, by omega, hnext, ?_⟩
    rw [List.getElem?_eq_getElem hnext]
  · refine ⟨i - 1, by omega, by omega, ?_⟩
    rw [List.getElem?_eq_none (by omega), if_neg (by omega)]
    exact List.getElem?_eq_getElem _

/-- **An item that is removed from among others has a neighbour that stays.** -/
theorem exists_neighbour (hnodup : (l.map key).Nodup) (hi : position key k l = some i)
    (hlen : 2 ≤ l.length) : ∃ b, neighbour i l = some b ∧ b ∈ remove key k l := by
  obtain ⟨a, ha, hkey⟩ := position_spec hi
  obtain ⟨hlt, rfl⟩ := List.getElem?_eq_some_iff.mp ha
  obtain ⟨j, hne, hj, hneighbour⟩ := exists_neighbour_getElem hlt hlen
  refine ⟨l[j], hneighbour, mem_remove.mpr ⟨List.getElem_mem hj, fun heq => hne ?_⟩⟩
  have hitem : l[j] = l[i] :=
    List.inj_on_of_nodup_map hnodup (List.getElem_mem hj) (List.getElem_mem hlt)
      (heq.trans hkey.symm)
  exact (List.Nodup.of_map key hnodup).getElem_inj_iff.mp hitem

/-! ### An item between others -/

variable {r : List α}

omit [DecidableEq κ] in
theorem exists_append_of_mem (h : k ∈ l.map key) : ∃ l₁ a r, l = l₁ ++ a :: r ∧ key a = k := by
  obtain ⟨a, ha, hkey⟩ := List.mem_map.mp h
  obtain ⟨l₁, r, rfl⟩ := List.append_of_mem ha
  exact ⟨l₁, a, r, rfl, hkey⟩

theorem position_append_cons (h : key a ∉ l.map key) :
    position key (key a) (l ++ a :: r) = some l.length := by
  induction l with
  | nil => simp [position, List.findIdx?_cons]
  | cons b l ih =>
    obtain ⟨hb, hl⟩ := not_or.mp (fun hor => h (List.mem_cons.mpr hor))
    have hskip : ¬ decide (key b = key a) = true := by simpa using fun heq => hb heq.symm
    rw [List.cons_append, position, List.findIdx?_cons, if_neg hskip, ← position, ih hl]
    rfl

/-- Without an item among others the others are left, in their order. -/
theorem remove_append_cons (hnodup : ((l ++ a :: r).map key).Nodup) :
    remove key (key a) (l ++ a :: r) = l ++ r := by
  rw [List.map_append, List.map_cons, List.nodup_middle, List.nodup_cons, List.mem_append,
    not_or] at hnodup
  have hsplit : remove key (key a) (l ++ a :: r) =
      remove key (key a) l ++ remove key (key a) r := by
    simp [remove]
  rw [hsplit, remove_of_notMem hnodup.1.1, remove_of_notMem hnodup.1.2]

theorem length_remove (hnodup : (l.map key).Nodup) (hk : k ∈ l.map key) :
    (remove key k l).length + 1 = l.length := by
  obtain ⟨l₁, a, r, rfl, rfl⟩ := exists_append_of_mem hk
  rw [remove_append_cons hnodup, List.length_append, List.length_append, List.length_cons,
    Nat.add_assoc]

/-- The neighbour of an item among others: the one on the right, else the one on the left. -/
theorem neighbour_append_cons : neighbour l.length (l ++ a :: r) = r.head?.or l.getLast? := by
  have hright : (l ++ a :: r)[l.length + 1]? = r.head? := by
    rw [List.getElem?_append_right (by omega), Nat.add_sub_cancel_left, List.getElem?_cons_succ,
      List.head?_eq_getElem?]
  rw [neighbour, hright]
  cases r with
  | cons b r => rfl
  | nil =>
    rw [List.head?_nil, Option.none_or]
    dsimp only
    rcases l.eq_nil_or_concat with rfl | ⟨l, b, rfl⟩
    · rfl
    · simp

/-- Nothing is left exactly of the list of one item. -/
theorem remove_eq_nil_iff (hnodup : (l.map key).Nodup) (hk : k ∈ l.map key) :
    remove key k l = [] ↔ ∃ a, l = [a] ∧ key a = k := by
  constructor
  · intro hnil
    obtain ⟨i, hi⟩ := exists_position hk
    obtain ⟨a, ha, hkey⟩ := position_spec hi
    have hshort : ¬ 2 ≤ l.length := by
      intro hlen
      obtain ⟨b, -, hb⟩ := exists_neighbour hnodup hi hlen
      rw [hnil] at hb
      cases hb
    match l with
    | [c] =>
      rw [List.mem_singleton.mp (List.mem_of_getElem? ha)] at hkey
      exact ⟨c, rfl, hkey⟩
    | _ :: _ :: _ => exact absurd (by simp) hshort
  · rintro ⟨a, rfl, hkey⟩
    simp [remove, hkey]

end Keyed
