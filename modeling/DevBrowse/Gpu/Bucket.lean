import DevBrowse.Gpu.MemoryBudget
import DevBrowse.Lib.Lru

/-!
# The buckets of the memory budget

A bucket is, abstractly, a recency list with sizes
(`DevBrowse.Gpu.IdentityBucket.entries`), and its operations are the operations of
`Lru`: the eviction loop makes room (`DevBrowse.Gpu.IdentityBucket.evictLoop_spec`), a
touch moves to the back (`DevBrowse.Gpu.IdentityBucket.entriesOf_touch`), a release takes
out (`DevBrowse.Gpu.IdentityBucket.entriesOf_release`). That holds as long as the three
structures of the bucket agree (`DevBrowse.Gpu.IdentityBucket.Ledger`).

The byte counter saturates, and a saturated counter disagrees with the sizes for good.
With a cap below the largest word the loop evicts before that can happen. With the cap
*at* the largest word the test of the loop compares a saturated sum with it, never
succeeds, and evicts nothing (`DevBrowse.Gpu.IdentityBucket.evictLoop_of_max`).
-/

namespace DevBrowse

namespace Gpu

open Transition (Step)

namespace IdentityBucket

variable {cap size used : UInt64} {sizes : HashMap AllocationId UInt64} {lru : List AllocationId}
  {id : AllocationId} {bucket : IdentityBucket}

/-! ### A bucket as a recency list -/

theorem erase_eq_filter_ne (h : lru.Nodup) : lru.erase id = lru.filter fun id' => id' ≠ id := by
  rw [h.erase_eq_filter]
  exact List.filter_congr fun id' _ => by by_cases hid : id' = id <;> simp [hid]

/-- The allocations in the order given, with their sizes in the table. -/
def entriesOf (sizes : HashMap AllocationId UInt64) (lru : List AllocationId) :
    List (AllocationId × ℕ) :=
  lru.map fun id => (id, ((sizes.lookup id).getD 0).toNat)

/-- The allocations of a bucket with their sizes, the least recently used in front. -/
def entries (b : IdentityBucket) : List (AllocationId × ℕ) := entriesOf b.sizes b.lru

/-- The order of use and the size table agree on the allocations. -/
structure Matched (b : IdentityBucket) : Prop where
  /-- No allocation is in the order twice. -/
  nodup : b.lru.Nodup
  /-- The order has exactly the allocations of the size table. -/
  mem_iff : ∀ id, id ∈ b.lru ↔ id ∈ b.sizes

/-- **The three structures of a bucket agree.** -/
structure Ledger (b : IdentityBucket) : Prop extends Matched b where
  /-- The bytes in use are the sum of the recorded sizes. -/
  used_eq : b.usedBytes.toNat = HashMap.total UInt64.toNat b.sizes

theorem ledger_new : Ledger new := ⟨⟨List.nodup_nil, fun id => by simp [new]⟩, rfl⟩

/-- Looking only at allocations other than `id`, erasing `id` changes no size. -/
theorem entriesOf_erase (h : id ∉ lru) : entriesOf (sizes.erase id) lru = entriesOf sizes lru := by
  refine List.map_congr_left fun id' hid' => ?_
  have hne : id' ≠ id := by
    rintro rfl
    exact h hid'
  simp only [HashMap.lookup_erase_eq, if_neg hne]

theorem entriesOf_insert (h : id ∉ lru) :
    entriesOf (sizes.insert id size) lru = entriesOf sizes lru := by
  refine List.map_congr_left fun id' hid' => ?_
  have hne : id' ≠ id := by
    rintro rfl
    exact h hid'
  simp only [HashMap.lookup_insert_eq, if_neg hne]

/-- **What is in use is the weight of the recency list.** -/
theorem weight_entriesOf (hnodup : lru.Nodup) (hmem : ∀ id, id ∈ lru ↔ id ∈ sizes) :
    Lru.weight (entriesOf sizes lru) = HashMap.total UInt64.toNat sizes := by
  induction lru generalizing sizes with
  | nil =>
    have hempty : sizes = ∅ := by
      refine AList.ext (List.eq_nil_iff_forall_not_mem.mpr fun e he => ?_)
      exact absurd ((hmem e.1).mpr (List.mem_keys_of_mem he)) List.not_mem_nil
    rw [hempty]
    rfl
  | cons id lru ih =>
    obtain ⟨hid, hlru⟩ := List.nodup_cons.mp hnodup
    obtain ⟨v, hv⟩ := HashMap.mem_iff_lookup.mp ((hmem id).mp List.mem_cons_self)
    have hmem' : ∀ id', id' ∈ lru ↔ id' ∈ sizes.erase id := by
      intro id'
      rw [AList.mem_erase, ← hmem id', List.mem_cons]
      constructor
      · intro hin
        refine ⟨?_, Or.inr hin⟩
        rintro rfl
        exact hid hin
      · rintro ⟨hne, heq | hin⟩
        · exact absurd heq hne
        · exact hin
    have hrest := ih hlru hmem'
    have htotal := HashMap.total_erase (f := UInt64.toNat) hv
    rw [entriesOf_erase hid] at hrest
    simp only [entriesOf, List.map_cons, Lru.weight_cons, hv, Option.getD_some] at hrest ⊢
    omega

theorem Ledger.weight_entries {b : IdentityBucket} (h : Ledger b) :
    Lru.weight b.entries = b.usedBytes.toNat :=
  (weight_entriesOf h.nodup h.mem_iff).trans h.used_eq.symm

theorem Matched.erase {b : IdentityBucket} (h : Matched b) (id : AllocationId) (used : UInt64) :
    Matched ⟨used, b.lru.erase id, b.sizes.erase id⟩ :=
  ⟨h.nodup.erase id, fun id' => by rw [h.nodup.mem_erase_iff, AList.mem_erase, h.mem_iff]⟩

theorem Matched.touch {b : IdentityBucket} (h : Matched b) (hid : id ∈ b.sizes) :
    Matched { b with lru := b.lru.erase id ++ [id] } := by
  refine ⟨?_, fun id' => ?_⟩
  · rw [← List.concat_eq_append]
    exact (h.nodup.erase id).concat h.nodup.not_mem_erase
  · rw [List.mem_append, List.mem_singleton, h.nodup.mem_erase_iff, h.mem_iff]
    constructor
    · rintro (⟨-, hmem⟩ | rfl)
      · exact hmem
      · exact hid
    · exact fun hmem => (eq_or_ne id' id).symm.imp_left fun hne => ⟨hne, hmem⟩

theorem Matched.insert {b : IdentityBucket} (h : Matched b) (hid : id ∉ b.sizes) (size used) :
    Matched ⟨used, b.lru ++ [id], b.sizes.insert id size⟩ := by
  refine ⟨?_, fun id' => ?_⟩
  · rw [← List.concat_eq_append]
    exact h.nodup.concat fun hin => hid ((h.mem_iff id).mp hin)
  · rw [List.mem_append, List.mem_singleton, AList.mem_insert, h.mem_iff, or_comm]

/-- Taking an allocation out keeps the three structures in agreement, and the counter
goes down by exactly its size. -/
theorem Ledger.erase {b : IdentityBucket} {v : UInt64} (h : Ledger b)
    (hv : b.sizes.lookup id = some v) :
    Ledger ⟨saturatingSub b.usedBytes v, b.lru.erase id, b.sizes.erase id⟩ ∧
      (saturatingSub b.usedBytes v).toNat + v.toNat = b.usedBytes.toNat := by
  have htotal := HashMap.total_erase (f := UInt64.toNat) hv
  have hused := h.used_eq
  have hsub := toNat_saturatingSub b.usedBytes v
  refine ⟨⟨h.toMatched.erase id _, ?_⟩, by omega⟩
  simp only
  omega

/-- Adding a fresh allocation keeps the three structures in agreement, as long as the
counter does not saturate. -/
theorem Ledger.insert {b : IdentityBucket} (h : Ledger b) (hid : id ∉ b.sizes)
    (hmax : b.usedBytes.toNat + size.toNat < 2 ^ 64) :
    Ledger ⟨saturatingAdd b.usedBytes size, b.lru ++ [id], b.sizes.insert id size⟩ := by
  have hadd := toNat_saturatingAdd b.usedBytes size
  have hused := h.used_eq
  refine ⟨h.toMatched.insert hid size _, ?_⟩
  rw [HashMap.total_insert_of_notMem hid]
  simp only
  omega

/-- A fresh allocation goes to the back of the recency list. -/
theorem entriesOf_concat (h : id ∉ lru) : entriesOf (sizes.insert id size) (lru ++ [id]) =
    entriesOf sizes lru ++ [(id, size.toNat)] := by
  have hrest : entriesOf (sizes.insert id size) lru = entriesOf sizes lru := entriesOf_insert h
  rw [entriesOf, List.map_append] at *
  rw [hrest]
  simp

/-- Moving an allocation to the back of the order is the `Lru.touch` of the recency
list. -/
theorem entriesOf_touch (hnodup : lru.Nodup) (hid : id ∈ lru) :
    entriesOf sizes (lru.erase id ++ [id]) = Lru.touch id (entriesOf sizes lru) := by
  have hback : lru.filter (fun id' => id' = id) = [id] := by
    rw [List.filter_eq, hnodup.count, if_pos hid, List.replicate_one]
  rw [erase_eq_filter_ne hnodup, Lru.touch, Lru.remove]
  simp only [entriesOf, List.filter_map, List.map_append, Function.comp_def, hback]

/-- Taking an allocation out is the `Lru.remove` of the recency list. -/
theorem entriesOf_release (hnodup : lru.Nodup) :
    entriesOf (sizes.erase id) (lru.erase id) = Lru.remove id (entriesOf sizes lru) := by
  rw [entriesOf_erase hnodup.not_mem_erase, erase_eq_filter_ne hnodup, Lru.remove]
  simp only [entriesOf, List.filter_map, Function.comp_def]

/-! ### The eviction loop -/

/-- Whatever it compares, the eviction loop only takes allocations out, from the front. -/
theorem evictLoop_matched (h : Matched ⟨used, lru, sizes⟩) :
    (evictLoop cap size used sizes lru).2.Matched ∧
      (evictLoop cap size used sizes lru).2.lru.Sublist lru ∧
      ∀ id, id ∈ (evictLoop cap size used sizes lru).2.sizes → id ∈ sizes := by
  induction lru generalizing used sizes with
  | nil =>
    rw [evictLoop]
    split <;> exact ⟨h, List.Sublist.refl _, fun _ hid => hid⟩
  | cons id lru ih =>
    rw [evictLoop]
    split
    · have hrest := h.erase id (saturatingSub used ((sizes.lookup id).getD 0))
      rw [List.erase_cons_head] at hrest
      obtain ⟨hmatched, hsub, hsizes⟩ := ih hrest
      exact ⟨hmatched, hsub.cons id, fun id' hid' => (AList.mem_erase.mp (hsizes id' hid')).2⟩
    · exact ⟨h, List.Sublist.refl _, fun _ hid => hid⟩

theorem Matched.evict {b : IdentityBucket} (h : Matched b) (cap size : UInt64) :
    (evictLoop cap size b.usedBytes b.sizes b.lru).2.Matched ∧
      (evictLoop cap size b.usedBytes b.sizes b.lru).2.lru.Sublist b.lru ∧
      ∀ id, id ∈ (evictLoop cap size b.usedBytes b.sizes b.lru).2.sizes → id ∈ b.sizes :=
  evictLoop_matched h

/-- The test of the loop compares the exact sum with the cap, unless the cap is the
largest word and the sum is larger. -/
theorem lt_saturatingAdd_iff (h : cap.toNat < 2 ^ 64 - 1 ∨ used.toNat + size.toNat < 2 ^ 64) :
    saturatingAdd used size > cap ↔ cap.toNat < used.toNat + size.toNat := by
  rw [gt_iff_lt, UInt64.lt_iff_toNat_lt, toNat_saturatingAdd]
  have hcap := cap.toNat_lt
  omega

/-- **The eviction loop makes room**: it ends well, on the bucket whose recency list has
lost the shortest prefix after which the request fits. -/
theorem evictLoop_spec (h : Ledger ⟨used, lru, sizes⟩) (hsize : size.toNat ≤ cap.toNat)
    (hmax : cap.toNat < 2 ^ 64 - 1 ∨ used.toNat + size.toNat < 2 ^ 64) :
    ∃ b, evictLoop cap size used sizes lru = (.ok (), b) ∧ Ledger b ∧
      b.entries = Lru.fit cap.toNat size.toNat (entriesOf sizes lru) ∧
      b.usedBytes.toNat + size.toNat ≤ cap.toNat := by
  induction lru generalizing used sizes with
  | nil =>
    have hused : used.toNat = 0 := h.weight_entries.symm
    have hfits : ¬ saturatingAdd used size > cap := by
      rw [lt_saturatingAdd_iff hmax]
      omega
    refine ⟨_, by rw [evictLoop, if_neg hfits], h, rfl, ?_⟩
    simp only
    omega
  | cons id lru ih =>
    have hweight : Lru.weight (entriesOf sizes (id :: lru)) = used.toNat := h.weight_entries
    by_cases hover : saturatingAdd used size > cap
    · obtain ⟨v, hv⟩ := HashMap.mem_iff_lookup.mp ((h.mem_iff id).mp List.mem_cons_self)
      obtain ⟨hledger, hexact⟩ := h.erase hv
      rw [List.erase_cons_head] at hledger
      simp only at hexact hledger
      obtain ⟨b, hloop, hb, hentries, hfits⟩ :=
        ih hledger (hmax.imp_right fun hlt => by omega)
      refine ⟨b, ?_, hb, ?_, hfits⟩
      · rw [evictLoop, if_pos hover]
        simpa only [hv, Option.getD_some] using hloop
      · rw [hentries, entriesOf_erase (List.nodup_cons.mp h.nodup).1]
        have hdrop := (lt_saturatingAdd_iff hmax).mp hover
        rw [← hweight] at hdrop
        exact (if_pos hdrop).symm
    · have hfits := mt (lt_saturatingAdd_iff hmax).mpr hover
      refine ⟨_, by rw [evictLoop, if_neg hover], h, ?_, Nat.le_of_not_lt hfits⟩
      rw [← hweight] at hfits
      exact (if_neg hfits).symm

theorem Ledger.evict {b : IdentityBucket} (h : Ledger b) (hsize : size.toNat ≤ cap.toNat)
    (hmax : cap.toNat < 2 ^ 64 - 1 ∨ b.usedBytes.toNat + size.toNat < 2 ^ 64) :
    ∃ b', evictLoop cap size b.usedBytes b.sizes b.lru = (.ok (), b') ∧ Ledger b' ∧
      b'.entries = Lru.fit cap.toNat size.toNat b.entries ∧
      b'.usedBytes.toNat + size.toNat ≤ cap.toNat :=
  evictLoop_spec h hsize hmax

/-- With the cap at the largest word the loop evicts nothing. -/
theorem evictLoop_of_max (hcap : cap.toNat = 2 ^ 64 - 1) :
    evictLoop cap size used sizes lru = (.ok (), ⟨used, lru, sizes⟩) := by
  have hfits : ¬ saturatingAdd used size > cap := by
    rw [gt_iff_lt, UInt64.lt_iff_toNat_lt, hcap]
    have hlt := (saturatingAdd used size).toNat_lt
    omega
  cases lru with
  | nil => rw [evictLoop, if_neg hfits]
  | cons id lru => rw [evictLoop, if_neg hfits]

end IdentityBucket

end Gpu

end DevBrowse
