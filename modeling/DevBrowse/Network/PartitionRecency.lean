import DevBrowse.Lib.Lru
import DevBrowse.Lib.Transition
import DevBrowse.Network.PartitionLru

/-!
# The partitions in use, by recency

The map of the partitions in use and the queue of their keys are kept in step by three
operations. Seen from outside they are one list of keys, the one used longest ago in front, in
which using a key moves it to the back and removing it takes it out
(`DevBrowse.Network.PartitionLru.refines_recency`). What a partition holds is changed by nobody
who uses another, unless it is given up for that.
-/

namespace DevBrowse

namespace Network

open Transition (Step)

namespace PartitionLru

variable {ε : Type*}

/-- The state of a partition is changed where it stands. -/
def modify (lru : PartitionLru ε) (key : PartitionKey) (write : ε → ε) : PartitionLru ε :=
  match hstate : lru.map.lookup key with
  | none => lru
  | some state =>
    { lru with
      map := lru.map.insert key (write state)
      mem_iff := fun k => by
        have hkey : key ∈ lru.map := HashMap.mem_iff_lookup.mpr ⟨state, hstate⟩
        rw [AList.mem_insert, lru.mem_iff]
        exact ⟨Or.inr, fun h => h.elim (fun heq => heq ▸ hkey) id⟩ }

/-- The calls. -/
inductive Call (ε : Type*) where
  /-- `get_or_insert_default` is called, and the state is written to. -/
  | getOrInsertDefault (key : PartitionKey) (write : ε → ε)
  /-- `remove` is called. -/
  | remove (key : PartitionKey)

/-- The key a call is about. -/
def Call.key : Call ε → PartitionKey
  | .getOrInsertDefault key _ | .remove key => key

/-- **One call.** -/
def call [Inhabited ε] (lru : PartitionLru ε) : Call ε → PartitionLru ε
  | .getOrInsertDefault key write => (lru.getOrInsertDefault key).modify key write
  | .remove key => lru.remove key

/-- What a call does to the list of the keys by recency. -/
def reference (cap : ℕ) (keys : List PartitionKey) : Call ε → List PartitionKey
  | .getOrInsertDefault key _ => Lru.access cap key keys
  | .remove key => keys.erase key

/-- The runs of calls. -/
abbrev Run [Inhabited ε] (cap : ℕ) :
    List (Step (PartitionLru ε) (Call ε)) → PartitionLru ε → Prop :=
  Transition.Run (Transition.ofFun fun lru i => some (lru.call i)) (new cap)

/-- The partition that is given up for a call, if one is. -/
def evicted (lru : PartitionLru ε) : Call ε → Option PartitionKey
  | .getOrInsertDefault key _ =>
    if key ∈ lru.order then none
    else if lru.cap ≤ lru.order.length then lru.order.head?
    else none
  | .remove _ => none

variable {lru : PartitionLru ε} {key k : PartitionKey} {cap : ℕ} {i : Call ε} {write : ε → ε}

/-! ### The queue -/

@[simp] theorem order_modify (lru : PartitionLru ε) (key : PartitionKey) (write : ε → ε) :
    (lru.modify key write).order = lru.order := by
  rw [modify]
  split
  · rfl
  · rfl

@[simp] theorem cap_modify (lru : PartitionLru ε) (key : PartitionKey) (write : ε → ε) :
    (lru.modify key write).cap = lru.cap := by
  rw [modify]
  split
  · rfl
  · rfl

theorem order_makeRoom (lru : PartitionLru ε) : lru.makeRoom.order =
    if lru.cap ≤ lru.order.length then lru.order.tail else lru.order := by
  rw [makeRoom]
  split
  · rw [popFront]
    split
    · rename_i front hhead
      obtain ⟨rest, hrest⟩ := List.head?_eq_some_iff.mp hhead
      show lru.order.erase front = lru.order.tail
      rw [hrest, List.erase_cons_head, List.tail_cons]
    · rename_i hhead
      rw [List.head?_eq_none_iff.mp hhead, List.tail_nil]
  · rfl

/-- The queue holds the keys of the map. -/
theorem order_perm_keys (lru : PartitionLru ε) : lru.order.Perm lru.map.keys :=
  (List.perm_ext_iff_of_nodup lru.nodup lru.map.nodupKeys).mpr lru.mem_iff

/-! ### The states -/

theorem lookup_modify (lru : PartitionLru ε) (key k : PartitionKey) (write : ε → ε) :
    (lru.modify key write).map.lookup k =
      if k = key then (lru.map.lookup key).map write else lru.map.lookup k := by
  rw [modify]
  split
  · rename_i hnone
    split
    · rename_i hk
      rw [hk, hnone, Option.map_none]
    · rfl
  · rename_i state hstate
    show (lru.map.insert key (write state)).lookup k = _
    rw [HashMap.lookup_insert_eq, hstate, Option.map_some]

theorem lookup_makeRoom (lru : PartitionLru ε) (k : PartitionKey) :
    lru.makeRoom.map.lookup k =
      if lru.cap ≤ lru.order.length ∧ lru.order.head? = some k then none
      else lru.map.lookup k := by
  rw [makeRoom]
  by_cases hfull : lru.cap ≤ lru.order.length
  · rw [if_pos hfull, popFront]
    split
    · rename_i front hhead
      show (lru.map.erase front).lookup k = _
      rw [HashMap.lookup_erase_eq]
      by_cases hk : k = front
      · simp [hfull, hhead, hk]
      · simp [hfull, hhead, hk, Ne.symm hk]
    · rename_i hhead
      simp [hhead]
  · rw [if_neg hfull, if_neg fun h => hfull h.1]

section Calls

variable [Inhabited ε]

/-- **Using a partition moves its key to the back.** -/
theorem order_getOrInsertDefault (lru : PartitionLru ε) (key : PartitionKey) :
    (lru.getOrInsertDefault key).order = Lru.access lru.cap key lru.order := by
  rw [getOrInsertDefault, Lru.access]
  by_cases hmem : key ∈ lru.map
  · have hin : key ∈ lru.order := (lru.mem_iff key).mpr hmem
    rw [dif_pos hmem, if_pos hin]
    exact if_pos hin
  · have hout : key ∉ lru.order := fun hin => hmem ((lru.mem_iff key).mp hin)
    rw [dif_neg hmem, if_neg hout]
    show lru.makeRoom.order ++ [key] = _
    rw [order_makeRoom]
    split
    · rfl
    · rfl

theorem cap_call (lru : PartitionLru ε) (i : Call ε) : (lru.call i).cap = lru.cap := by
  cases i with
  | getOrInsertDefault key write =>
    exact (cap_modify _ _ _).trans (cap_getOrInsertDefault lru key)
  | remove key => rfl

/-- **A call does to the queue what it does to the list.** -/
theorem order_call (lru : PartitionLru ε) (i : Call ε) :
    (lru.call i).order = reference lru.cap lru.order i := by
  cases i with
  | getOrInsertDefault key write =>
    exact (order_modify _ _ _).trans (order_getOrInsertDefault lru key)
  | remove key => rfl

/-- **What a call does to the partitions it is not about**: one may be given up. -/
theorem lookup_call_of_ne (hk : k ≠ i.key) :
    (lru.call i).map.lookup k = if lru.evicted i = some k then none else lru.map.lookup k := by
  cases i with
  | getOrInsertDefault key write =>
    have hne : k ≠ key := hk
    rw [call, lookup_modify, if_neg hne, getOrInsertDefault, evicted]
    by_cases hmem : key ∈ lru.map
    · rw [dif_pos hmem, if_pos ((lru.mem_iff key).mpr hmem)]
      simp [touchToBack]
    · rw [dif_neg hmem, if_neg fun hin => hmem ((lru.mem_iff key).mp hin)]
      show (lru.makeRoom.map.insert key default).lookup k = _
      rw [HashMap.lookup_insert_eq, if_neg hne, lookup_makeRoom]
      by_cases hfull : lru.cap ≤ lru.order.length
      · simp only [hfull, true_and, if_true]
      · simp [hfull]
  | remove key =>
    have hne : k ≠ key := hk
    show (lru.map.erase key).lookup k = _
    rw [HashMap.lookup_erase_eq, if_neg hne]
    simp [evicted]

/-- What using a partition does to it: its state, a fresh one if it has none, is written to. -/
theorem lookup_call_self (lru : PartitionLru ε) (key : PartitionKey) (write : ε → ε) :
    (lru.call (.getOrInsertDefault key write)).map.lookup key =
      some (write ((lru.map.lookup key).getD default)) := by
  rw [call, lookup_modify, if_pos rfl, getOrInsertDefault]
  by_cases hmem : key ∈ lru.map
  · obtain ⟨state, hstate⟩ := HashMap.mem_iff_lookup.mp hmem
    rw [dif_pos hmem, touchToBack, hstate]
    rfl
  · rw [dif_neg hmem, pushBack, AList.lookup_insert, AList.lookup_eq_none.mpr hmem]
    rfl

/-! ### Runs -/

variable {tr : List (Step (PartitionLru ε) (Call ε))}

theorem cap_of_run (hrun : Run cap tr lru) : lru.cap = cap := by
  refine hrun.invariant (I := fun _ lru => lru.cap = cap) rfl ?_
  intro _ lru i lru' _ ih hstep
  have hlru' := Option.some.inj hstep
  rw [← hlru', cap_call, ih]

/-- **The queue of a run is the list of the reference.** -/
theorem order_of_run (hrun : Run cap tr lru) :
    lru.order = (tr.map Step.input).foldl (reference cap) [] := by
  refine hrun.invariant
    (I := fun tr lru => lru.order = (tr.map Step.input).foldl (reference cap) []) rfl ?_
  intro tr lru i lru' hpast ih hstep
  have hlru' := Option.some.inj hstep
  rw [List.map_append, List.foldl_append, ← ih, ← hlru', order_call, cap_of_run hpast]
  rfl

/-- The queue of a run is no longer than there may be partitions. -/
theorem length_order_of_run (hcap : 0 < cap) (hrun : Run cap tr lru) :
    lru.order.length ≤ cap := by
  refine hrun.invariant (I := fun _ lru => lru.order.length ≤ cap) (Nat.zero_le cap) ?_
  intro tr lru i lru' hpast ih hstep
  have hlru' := Option.some.inj hstep
  rw [← hlru', order_call, cap_of_run hpast]
  cases i with
  | getOrInsertDefault key write => exact Lru.length_access_le hcap ih
  | remove key => exact List.length_erase_le.trans ih

/-- **The partitions in use are a list of keys by recency**, and what a partition holds is
changed by no call about another, unless it is given up for it. -/
theorem refines_recency (hcap : 1 ≤ cap) (hrun : Run cap tr lru) :
    lru.order.Nodup ∧ lru.order.Perm lru.map.keys ∧ lru.order.length ≤ cap ∧
      lru.order = (tr.map Step.input).foldl (reference cap) [] ∧
      ∀ x ∈ tr, ∀ k, k ≠ x.input.key →
        x.post.map.lookup k =
          if x.pre.evicted x.input = some k then none else x.pre.map.lookup k := by
  refine ⟨lru.nodup, lru.order_perm_keys, length_order_of_run hcap hrun, order_of_run hrun, ?_⟩
  intro x hx k hk
  obtain ⟨before, after, -, -, hstep, -⟩ := hrun.of_mem hx
  have hpost := Option.some.inj hstep
  rw [← hpost, lookup_call_of_ne hk]

/-- A key of equal bytes. -/
def exampleKey (b : UInt8) : PartitionKey := ⟨.replicate 32 b⟩

/-- Where two partitions may be in use the first is given up for a third, and comes in again
when one is removed. -/
theorem refines_recency_example : ∃ tr lru, Run (ε := ℕ) 2 tr lru ∧
    (tr.map Step.input).map Call.key =
      [exampleKey 1, exampleKey 2, exampleKey 3, exampleKey 2, exampleKey 3, exampleKey 1] ∧
    lru.map.lookup (exampleKey 2) = some 2 ∧
    (lru.order.Nodup ∧ lru.order.Perm lru.map.keys ∧ lru.order.length ≤ 2 ∧
      lru.order = (tr.map Step.input).foldl (reference 2) [] ∧
      ∀ x ∈ tr, ∀ k, k ≠ x.input.key →
        x.post.map.lookup k =
          if x.pre.evicted x.input = some k then none else x.pre.map.lookup k) := by
  have hexec : (Transition.exec (fun lru i => some (lru.call i)) (new 2 : PartitionLru ℕ)
      [.getOrInsertDefault (exampleKey 1) (· + 1), .getOrInsertDefault (exampleKey 2) (· + 1),
        .getOrInsertDefault (exampleKey 3) (· + 1), .getOrInsertDefault (exampleKey 2) (· + 1),
        .remove (exampleKey 3), .getOrInsertDefault (exampleKey 1) id]).any (fun p =>
      decide (p.2.map.lookup (exampleKey 2) = some 2)) = true := by decide +kernel
  obtain ⟨tr, lru, hrun, hinputs, htest⟩ := Transition.exists_run_where hexec
  refine ⟨tr, lru, hrun, ?_, of_decide_eq_true htest, refines_recency (by decide) hrun⟩
  rw [hinputs]
  rfl

end Calls

end PartitionLru

end Network

end DevBrowse
