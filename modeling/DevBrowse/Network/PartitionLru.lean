import DevBrowse.Lib.HashMap
import DevBrowse.Network.PartitionKey

/-!
# The partitions in use

The state a partition accumulates by sending requests is kept for a bounded number of
partitions, the ones used last. A map holds the states, a queue the keys in the order of
last use, and the two always have the same keys, each of them once: the structure carries
the proof, and every operation restores it.
-/

namespace DevBrowse

namespace Network

/-- The number of partitions whose state is kept. -/
def maxPartitions : ℕ := 16

/-- The connections of a partition. Not in use yet, as the three that follow. -/
structure ConnPoolSlot where
  deriving DecidableEq, Inhabited

/-- The hosts of a partition that insist on encryption. -/
structure HstsSlot where
  deriving DecidableEq, Inhabited

/-- The alternative services of a partition. -/
structure AltSvcSlot where
  deriving DecidableEq, Inhabited

/-- The responses cached for a partition. -/
structure HttpCacheSlot where
  deriving DecidableEq, Inhabited

/-- What a partition accumulates. -/
structure EgressState where
  /-- Its connections. -/
  connPool : ConnPoolSlot
  /-- The hosts that insist on encryption. -/
  hsts : HstsSlot
  /-- The alternative services. -/
  altSvc : AltSvcSlot
  /-- The cached responses. -/
  httpCache : HttpCacheSlot
  deriving DecidableEq, Inhabited

/-- **The partitions in use**, with a state each. -/
structure PartitionLru (ε : Type*) where
  /-- The states. -/
  map : HashMap PartitionKey ε
  /-- The keys, the one used last at the end. -/
  order : List PartitionKey
  /-- The number of partitions that are kept. -/
  cap : ℕ
  /-- No key is in the queue twice. -/
  nodup : order.Nodup
  /-- The queue and the map have the same keys. -/
  mem_iff : ∀ key, key ∈ order ↔ key ∈ map

namespace PartitionLru

variable {ε : Type*} {lru : PartitionLru ε} {key k : PartitionKey}

/-- No partitions in use. -/
def new (cap : ℕ) : PartitionLru ε := ⟨∅, [], cap, List.nodup_nil, by simp⟩

/-- The queue with a key moved to the end, if it is there. -/
def backOf (order : List PartitionKey) (key : PartitionKey) : List PartitionKey :=
  if key ∈ order then order.erase key ++ [key] else order

theorem backOf_perm (order : List PartitionKey) (key : PartitionKey) :
    (backOf order key).Perm order := by
  rw [backOf]
  split
  · rename_i hmem
    exact (List.perm_append_singleton key _).trans (List.perm_cons_erase hmem).symm
  · exact List.Perm.refl order

/-- A key moves to the end of the queue. -/
def touchToBack (lru : PartitionLru ε) (key : PartitionKey) : PartitionLru ε where
  map := lru.map
  order := backOf lru.order key
  cap := lru.cap
  nodup := (backOf_perm lru.order key).nodup_iff.mpr lru.nodup
  mem_iff k := (backOf_perm lru.order key).mem_iff.trans (lru.mem_iff k)

/-- A partition is forgotten. -/
def remove (lru : PartitionLru ε) (key : PartitionKey) : PartitionLru ε where
  map := lru.map.erase key
  order := lru.order.erase key
  cap := lru.cap
  nodup := lru.nodup.erase key
  mem_iff k := by rw [lru.nodup.mem_erase_iff, AList.mem_erase, lru.mem_iff]

/-- The partition used longest ago is forgotten, if there is one. -/
def popFront (lru : PartitionLru ε) : PartitionLru ε :=
  match lru.order.head? with
  | some evicted => lru.remove evicted
  | none => lru

/-- A partition that is not in use comes into use. -/
def pushBack (lru : PartitionLru ε) (key : PartitionKey) (state : ε) (h : key ∉ lru.map) :
    PartitionLru ε where
  map := lru.map.insert key state
  order := lru.order ++ [key]
  cap := lru.cap
  nodup := by
    rw [← lru.mem_iff] at h
    exact (List.perm_append_singleton key _).nodup_iff.mpr (List.nodup_cons.mpr ⟨h, lru.nodup⟩)
  mem_iff k := by
    rw [List.mem_append, List.mem_singleton, AList.mem_insert, lru.mem_iff, or_comm]

/-- Room is made for one more partition. -/
def makeRoom (lru : PartitionLru ε) : PartitionLru ε :=
  if lru.cap ≤ lru.order.length then lru.popFront else lru

theorem mem_of_mem_makeRoom (h : k ∈ lru.makeRoom.map) : k ∈ lru.map := by
  rw [makeRoom] at h
  split at h
  · rw [popFront] at h
    split at h
    · exact (AList.mem_erase.mp h).2
    · exact h
  · exact h

/-- **A partition is used**: it moves to the end of the queue, and comes into use, with a
fresh state, if it was not. -/
def getOrInsertDefault [Inhabited ε] (lru : PartitionLru ε) (key : PartitionKey) :
    PartitionLru ε :=
  if h : key ∈ lru.map then lru.touchToBack key
  else lru.makeRoom.pushBack key default fun hmem => h (mem_of_mem_makeRoom hmem)

theorem getLast?_getOrInsertDefault [Inhabited ε] (lru : PartitionLru ε) (key : PartitionKey) :
    (lru.getOrInsertDefault key).order.getLast? = some key := by
  rw [getOrInsertDefault]
  split
  · rename_i hmem
    show (backOf lru.order key).getLast? = some key
    rw [backOf, if_pos ((lru.mem_iff key).mpr hmem), List.getLast?_concat]
  · rw [pushBack, List.getLast?_concat]

theorem mem_getOrInsertDefault [Inhabited ε] (lru : PartitionLru ε) (key : PartitionKey) :
    key ∈ (lru.getOrInsertDefault key).map :=
  ((lru.getOrInsertDefault key).mem_iff key).mp
    (List.mem_of_getLast? (getLast?_getOrInsertDefault lru key))

/-! ### What is given up, and how much is kept -/

/-- **What is given up when a partition is used**: the one used longest ago, if the partition
is not in use and there is no room for it. -/
theorem notMem_getOrInsertDefault_iff [Inhabited ε] (h : k ∈ lru.map) :
    k ∉ (lru.getOrInsertDefault key).map ↔
      key ∉ lru.map ∧ lru.cap ≤ lru.order.length ∧ lru.order.head? = some k := by
  rw [getOrInsertDefault]
  by_cases hmem : key ∈ lru.map
  · rw [dif_pos hmem]
    exact iff_of_false (fun hnot => hnot h) fun hevict => hevict.1 hmem
  · have hne : k ≠ key := fun heq => hmem (heq ▸ h)
    rw [dif_neg hmem, pushBack, AList.mem_insert, makeRoom]
    by_cases hfull : lru.cap ≤ lru.order.length
    · rw [if_pos hfull, popFront]
      cases hhead : lru.order.head? with
      | none =>
        have hk : k ∈ lru.order := (lru.mem_iff k).mpr h
        rw [List.head?_eq_none_iff.mp hhead] at hk
        cases hk
      | some evicted =>
        simp only [remove, AList.mem_erase, Option.some_inj]
        constructor
        · intro hnot
          refine ⟨hmem, hfull, ?_⟩
          by_contra heq
          exact hnot (Or.inr ⟨fun hk => heq hk.symm, h⟩)
        · rintro ⟨-, -, rfl⟩ (heq | ⟨hkey, -⟩)
          · exact hne heq
          · exact hkey rfl
    · rw [if_neg hfull]
      exact iff_of_false (fun hnot => hnot (Or.inr h)) fun hevict => hfull hevict.2.1

@[simp] theorem cap_remove (lru : PartitionLru ε) (key : PartitionKey) :
    (lru.remove key).cap = lru.cap := rfl

theorem length_remove_le (lru : PartitionLru ε) (key : PartitionKey) :
    (lru.remove key).order.length ≤ lru.order.length :=
  List.length_erase_le

theorem cap_makeRoom (lru : PartitionLru ε) : lru.makeRoom.cap = lru.cap := by
  rw [makeRoom]
  split
  · rw [popFront]
    split
    · rfl
    · rfl
  · rfl

/-- Room is made, if there may be partitions at all. -/
theorem length_makeRoom_lt (hcap : 0 < lru.cap) (h : lru.order.length ≤ lru.cap) :
    lru.makeRoom.order.length < lru.cap := by
  rw [makeRoom]
  split
  · rw [popFront]
    split
    · rename_i evicted hhead
      have hmem : evicted ∈ lru.order := List.mem_of_head? hhead
      have hpos := List.length_pos_of_mem hmem
      rw [remove, List.length_erase_of_mem hmem]
      omega
    · rename_i hhead
      rw [List.head?_eq_none_iff.mp hhead]
      exact hcap
  · omega

theorem cap_getOrInsertDefault [Inhabited ε] (lru : PartitionLru ε) (key : PartitionKey) :
    (lru.getOrInsertDefault key).cap = lru.cap := by
  rw [getOrInsertDefault]
  split
  · rfl
  · exact cap_makeRoom lru

/-- **Not more partitions are kept than there may be.** -/
theorem length_getOrInsertDefault_le [Inhabited ε] (hcap : 0 < lru.cap)
    (h : lru.order.length ≤ lru.cap) (key : PartitionKey) :
    (lru.getOrInsertDefault key).order.length ≤ lru.cap := by
  rw [getOrInsertDefault]
  split
  · exact ((backOf_perm lru.order key).length_eq).trans_le h
  · rw [pushBack, List.length_append, List.length_singleton]
    exact length_makeRoom_lt hcap h

end PartitionLru

end Network

end DevBrowse
