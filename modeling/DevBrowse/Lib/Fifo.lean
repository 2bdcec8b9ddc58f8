import DevBrowse.Lib.HashMap

/-!
# Maps with a queue of their keys

A map of bounded size that gives up the entry that came first keeps its keys in a queue
beside it. The queue and the map have the same keys, each of them once: the structure
carries the proof, and every operation restores it. A key keeps its place in the queue when
its value is replaced.
-/

/-- **A map with a queue of its keys**, the key that came first in front. -/
structure Fifo (κ ν : Type*) [DecidableEq κ] where
  /-- The values. -/
  entries : HashMap κ ν
  /-- The keys. -/
  order : List κ
  /-- No key is in the queue twice. -/
  nodup : order.Nodup
  /-- The queue and the map have the same keys. -/
  mem_iff : ∀ k, k ∈ order ↔ k ∈ entries

namespace Fifo

variable {κ ν : Type*} [DecidableEq κ] {f : Fifo κ ν} {k k' : κ} {v : ν} {cap : ℕ}

/-- No entries. -/
def empty : Fifo κ ν := ⟨∅, [], List.nodup_nil, by simp⟩

/-- An entry is taken out, wherever it stands. -/
def erase (f : Fifo κ ν) (k : κ) : Fifo κ ν where
  entries := f.entries.erase k
  order := f.order.erase k
  nodup := f.nodup.erase k
  mem_iff k' := by rw [f.nodup.mem_erase_iff, AList.mem_erase, f.mem_iff]

/-- An entry is put in, at the end of the queue if its key is new. -/
def insert (f : Fifo κ ν) (k : κ) (v : ν) : Fifo κ ν where
  entries := f.entries.insert k v
  order := if k ∈ f.entries then f.order else f.order ++ [k]
  nodup := by
    split
    · exact f.nodup
    · rename_i hk
      rw [← f.mem_iff] at hk
      exact (List.perm_append_singleton k _).nodup_iff.mpr (List.nodup_cons.mpr ⟨hk, f.nodup⟩)
  mem_iff k' := by
    rw [AList.mem_insert]
    split
    · rename_i hk
      rw [f.mem_iff]
      exact ⟨Or.inr, fun h => h.elim (fun heq => heq ▸ hk) id⟩
    · rw [List.mem_append, List.mem_singleton, f.mem_iff, or_comm]

/-- The number of entries. -/
def size (f : Fifo κ ν) : ℕ := f.entries.entries.length

/-- The queue holds the keys of the map. -/
theorem order_perm_keys (f : Fifo κ ν) : f.order.Perm f.entries.keys :=
  (List.perm_ext_iff_of_nodup f.nodup f.entries.nodupKeys).mpr f.mem_iff

theorem length_order (f : Fifo κ ν) : f.order.length = f.size := by
  rw [(order_perm_keys f).length_eq, AList.keys, List.keys, List.length_map, size]

/-- The loop that gives up entries, in a number of turns. -/
def evictLoop (cap : ℕ) : ℕ → Fifo κ ν → Fifo κ ν
  | 0, f => f
  | n + 1, f =>
    if cap ≤ f.size then
      match f.order.head? with
      | some k => evictLoop cap n (f.erase k)
      | none => f
    else f

/-- **Entries are given up until there is room for one more**, the first one first. Every turn
takes a key off the queue, so there are no more turns than keys. -/
def evict (cap : ℕ) (f : Fifo κ ν) : Fifo κ ν := evictLoop cap f.order.length f

theorem size_evictLoop (hcap : 0 < cap) {n : ℕ} (hn : f.size ≤ n) :
    (evictLoop cap n f).size < cap := by
  induction n generalizing f with
  | zero => rw [evictLoop]; omega
  | succ n ih =>
    rw [evictLoop]
    split
    · split
      · rename_i k hhead
        have hmem : k ∈ f.order := List.mem_of_head? hhead
        refine ih ?_
        rw [← length_order, erase, List.length_erase_of_mem hmem, length_order]
        omega
      · rename_i hhead
        rw [List.head?_eq_none_iff] at hhead
        rw [← length_order, hhead]
        exact hcap
    · omega

/-- **There is room after that.** -/
theorem size_evict (hcap : 0 < cap) (f : Fifo κ ν) : (f.evict cap).size < cap :=
  size_evictLoop hcap (length_order f).ge

@[simp] theorem lookup_insert (f : Fifo κ ν) (k : κ) (v : ν) :
    (f.insert k v).entries.lookup k = some v :=
  AList.lookup_insert _

/-- What is found after an entry was put in is the entry, or was there before. -/
theorem lookup_insert_cases {w : ν} (h : (f.insert k v).entries.lookup k' = some w) :
    k' = k ∧ w = v ∨ k' ≠ k ∧ f.entries.lookup k' = some w :=
  HashMap.lookup_insert_cases h

/-- What is found after an entry was taken out was there before. -/
theorem lookup_of_lookup_erase (h : (f.erase k).entries.lookup k' = some v) :
    f.entries.lookup k' = some v :=
  (HashMap.lookup_erase_eq_some_iff.mp h).2

theorem lookup_of_lookup_evictLoop {n : ℕ}
    (h : (evictLoop cap n f).entries.lookup k = some v) : f.entries.lookup k = some v := by
  induction n generalizing f with
  | zero => exact h
  | succ n ih =>
    rw [evictLoop] at h
    split at h
    · split at h
      · exact lookup_of_lookup_erase (ih h)
      · exact h
    · exact h

/-- What is found after room was made was there before. -/
theorem lookup_of_lookup_evict (h : (f.evict cap).entries.lookup k = some v) :
    f.entries.lookup k = some v :=
  lookup_of_lookup_evictLoop h

theorem evict_of_lt (h : f.size < cap) : f.evict cap = f := by
  rw [evict]
  cases f.order.length with
  | zero => rfl
  | succ n => rw [evictLoop, if_neg (by omega)]

/-- A new key goes to the end of the queue. -/
theorem order_insert_of_notMem (hk : k ∉ f.order) (v : ν) :
    (f.insert k v).order = f.order ++ [k] :=
  if_neg fun hmem => hk ((f.mem_iff k).mpr hmem)

/-- What a number of turns gives up are the keys in front. -/
theorem lookup_evictLoop (hcap : 0 < cap) {n : ℕ} (hn : f.size ≤ n) (k : κ) :
    (evictLoop cap n f).entries.lookup k =
      if k ∈ f.order.take (f.size + 1 - cap) then none else f.entries.lookup k := by
  induction n generalizing f with
  | zero =>
    have hzero : f.size + 1 - cap = 0 := by omega
    rw [evictLoop, hzero, List.take_zero, if_neg List.not_mem_nil]
  | succ n ih =>
    rw [evictLoop]
    split
    · rename_i hfull
      cases horder : f.order with
      | nil =>
        have hsize : f.size = 0 := by rw [← length_order, horder, List.length_nil]
        omega
      | cons k' order =>
        have herase : (f.erase k').order = order := by
          change f.order.erase k' = order
          rw [horder, List.erase_cons_head]
        have hsize : (f.erase k').size + 1 = f.size := by
          rw [← length_order, herase, ← length_order, horder, List.length_cons]
        have htake : f.size + 1 - cap = ((f.erase k').size + 1 - cap) + 1 := by omega
        rw [List.head?_cons, htake, List.take_succ_cons]
        dsimp only
        rw [ih (by omega), herase]
        by_cases hk : k = k'
        · rw [erase, HashMap.lookup_erase_eq, if_pos hk, ite_self, if_pos (by simp [hk])]
        · rw [erase, HashMap.lookup_erase_eq, if_neg hk]
          simp [hk]
    · have hzero : f.size + 1 - cap = 0 := by omega
      rw [hzero, List.take_zero, if_neg List.not_mem_nil]

/-- **What making room gives up**: the keys in front, as many as are too many. -/
theorem lookup_evict (hcap : 0 < cap) (f : Fifo κ ν) (k : κ) :
    (f.evict cap).entries.lookup k =
      if k ∈ f.order.take (f.size + 1 - cap) then none else f.entries.lookup k :=
  lookup_evictLoop hcap (length_order f).ge k

/-- **Making room before an entry is replaced** costs no other entry exactly if there is room,
or the entry is the one given up. -/
theorem lookup_insert_evict_iff (hcap : 0 < cap) (hk : k ∈ f.entries) (v : ν) :
    (∀ k', k' ≠ k → ((f.evict cap).insert k v).entries.lookup k' = f.entries.lookup k') ↔
      f.size < cap ∨ f.size = cap ∧ f.order.head? = some k := by
  have hlook : ∀ k', k' ≠ k → ((f.evict cap).insert k v).entries.lookup k' =
      if k' ∈ f.order.take (f.size + 1 - cap) then none else f.entries.lookup k' := by
    intro k' hne
    rw [← lookup_evict hcap]
    exact AList.lookup_insert_ne hne
  have hall : (∀ k', k' ≠ k → ((f.evict cap).insert k v).entries.lookup k' =
      f.entries.lookup k') ↔ ∀ k' ∈ f.order.take (f.size + 1 - cap), k' = k := by
    constructor
    · intro h k' hk'
      by_contra hne
      obtain ⟨w, hw⟩ := HashMap.mem_iff_lookup.mp
        ((f.mem_iff k').mp (List.mem_of_mem_take hk'))
      have hgone := h k' hne
      rw [hlook k' hne, if_pos hk', hw] at hgone
      exact absurd hgone (by simp)
    · intro h k' hne
      rw [hlook k' hne, if_neg fun hk' => hne (h k' hk')]
  rw [hall]
  have hmem : k ∈ f.order := (f.mem_iff k).mpr hk
  have hlen := length_order f
  cases horder : f.order with
  | nil => simp [horder] at hmem
  | cons k₁ order =>
    rw [horder, List.length_cons] at hlen
    have hnodup : k₁ ∉ order := (List.nodup_cons.mp (horder ▸ f.nodup)).1
    rw [List.head?_cons, Option.some.injEq]
    rcases Nat.lt_trichotomy f.size cap with hlt | heq | hgt
    · have hzero : f.size + 1 - cap = 0 := by omega
      simp [hzero, hlt]
    · simp [heq]
    · -- two keys at least are given up, and one of them is another
      cases order with
      | nil =>
        rw [List.length_nil] at hlen
        omega
      | cons k₂ order =>
        have htwo : f.size + 1 - cap = (f.size - 1 - cap) + 2 := by omega
        refine iff_of_false (fun h => ?_) (by omega)
        rw [htwo, List.take_succ_cons, List.take_succ_cons] at h
        have h₁ := h k₁ (by simp)
        have h₂ := h k₂ (by simp)
        exact hnodup (by simp [h₁, h₂])

theorem size_erase_le (f : Fifo κ ν) (k : κ) : (f.erase k).size ≤ f.size := by
  rw [← length_order, ← length_order]
  exact List.length_erase_le

theorem size_insert_le (f : Fifo κ ν) (k : κ) (v : ν) : (f.insert k v).size ≤ f.size + 1 := by
  rw [← length_order, ← length_order, insert]
  split
  · exact Nat.le_succ _
  · rw [List.length_append, List.length_singleton]

theorem size_ne_zero (h : f.entries.lookup k = some v) : f.size ≠ 0 := by
  have hmem : k ∈ f.order := (f.mem_iff k).mpr (HashMap.mem_iff_lookup.mpr ⟨v, h⟩)
  rw [← length_order]
  exact (List.length_pos_of_mem hmem).ne'

/-! ### How long an entry stays -/

/-- **The grace of an entry**: how many entries may still be put in before it is given up. It is
as many as there is room for, and one for each entry that came before it. -/
def grace (cap : ℕ) (f : Fifo κ ν) (k : κ) : ℕ := cap - f.size + f.order.idxOf k

/-- An entry that is new has the whole capacity before it is given up, but for its own place. -/
theorem grace_insert_of_notMem (hk : k ∉ f.order) (hroom : f.size < cap) (v : ν) :
    (f.insert k v).grace cap k = cap - 1 := by
  have horder := order_insert_of_notMem hk v
  have hsize : (f.insert k v).size = f.size + 1 := by
    rw [← length_order, horder, List.length_append, length_order, List.length_singleton]
  rw [grace, hsize, horder, List.idxOf_append_of_notMem hk, length_order, List.idxOf_cons_self]
  omega

/-- Another entry that is put in takes one off the grace at most. -/
theorem grace_insert (hk : k ∈ f.order) (v : ν) :
    f.grace cap k ≤ (f.insert k' v).grace cap k + 1 := by
  by_cases hk' : k' ∈ f.order
  · have horder : (f.insert k' v).order = f.order := if_pos ((f.mem_iff k').mp hk')
    rw [grace, grace, ← length_order, ← length_order, horder]
    exact Nat.le_succ _
  · have horder := order_insert_of_notMem hk' v
    rw [grace, grace, ← length_order, ← length_order, horder, List.length_append,
      List.length_singleton, List.idxOf_append_of_mem hk]
    omega

/-- An entry that is taken out leaves the grace of the others, or adds to it. -/
theorem grace_erase (hne : k' ≠ k) (hsize : f.size ≤ cap) :
    f.grace cap k ≤ (f.erase k').grace cap k := by
  rw [grace, grace, ← length_order, ← length_order]
  change cap - f.order.length + f.order.idxOf k ≤
    cap - (f.order.erase k').length + (f.order.erase k').idxOf k
  rw [← length_order] at hsize
  by_cases hk' : k' ∈ f.order
  · have hpos : 0 < f.order.length := List.length_pos_of_mem hk'
    have hidx : f.order.idxOf k ≤ (f.order.erase k').idxOf k + 1 := by
      generalize f.order = order
      induction order with
      | nil => exact Nat.zero_le _
      | cons k₁ order ih =>
        by_cases hk₁ : k₁ = k'
        · subst hk₁
          rw [List.erase_cons_head, List.idxOf_cons_ne _ hne]
        · rw [List.erase_cons_tail (by simpa using hk₁)]
          by_cases hkk : k₁ = k
          · rw [hkk, List.idxOf_cons_self]
            exact Nat.zero_le _
          · rw [List.idxOf_cons_ne _ hkk, List.idxOf_cons_ne _ hkk]
            exact Nat.succ_le_succ ih
    rw [List.length_erase_of_mem hk']
    omega
  · rw [List.erase_of_not_mem hk']

/-- In a queue that is full the key in front is given up, and no other. -/
theorem evict_of_size_eq (hcap : 0 < cap) (hsize : f.size = cap)
    (hhead : f.order.head? = some k) : f.evict cap = f.erase k := by
  have hmem : k ∈ f.order := List.mem_of_head? hhead
  have hlen := length_order f
  obtain ⟨n, hn⟩ : ∃ n, f.order.length = n + 1 := ⟨cap - 1, by omega⟩
  have hroom : (f.erase k).size < cap := by
    rw [← length_order, erase, List.length_erase_of_mem hmem]
    omega
  rw [evict, hn, evictLoop, if_pos (Nat.le_of_eq hsize.symm), hhead]
  cases n with
  | zero => rfl
  | succ n => exact if_neg (Nat.not_le.mpr hroom)

/-- **An entry with grace left outlives the next one that is put in**, and loses one of its grace
at most. -/
theorem grace_put {w : ν} (hcap : 0 < cap) (hsize : f.size ≤ cap)
    (hlook : f.entries.lookup k = some w) (hgrace : 0 < f.grace cap k) (hne : k' ≠ k) (v : ν) :
    ((f.evict cap).insert k' v).entries.lookup k = some w ∧
      f.grace cap k ≤ ((f.evict cap).insert k' v).grace cap k + 1 := by
  have hlater : ∀ {g : Fifo κ ν}, g.entries.lookup k = some w →
      (g.insert k' v).entries.lookup k = some w ∧ g.grace cap k ≤ (g.insert k' v).grace cap k + 1 :=
    fun {g} hg => ⟨(AList.lookup_insert_ne hne.symm).trans hg,
      grace_insert ((g.mem_iff k).mpr (HashMap.mem_iff_lookup.mpr ⟨w, hg⟩)) v⟩
  rcases Nat.lt_or_eq_of_le hsize with hlt | heq
  · rw [evict_of_lt hlt]
    exact hlater hlook
  · cases horder : f.order with
    | nil =>
      rw [← length_order, horder, List.length_nil] at heq
      omega
    | cons k₁ order =>
      -- there is no room, so the entry is not the one in front
      have hfront : k₁ ≠ k := by
        rintro rfl
        rw [grace, horder, List.idxOf_cons_self] at hgrace
        omega
      rw [evict_of_size_eq hcap heq (by rw [horder]; rfl)]
      obtain ⟨hstays, hless⟩ := hlater (g := f.erase k₁)
        ((HashMap.lookup_erase_eq_some_iff).mpr ⟨hfront.symm, hlook⟩)
      exact ⟨hstays, (grace_erase hfront hsize).trans hless⟩

end Fifo
