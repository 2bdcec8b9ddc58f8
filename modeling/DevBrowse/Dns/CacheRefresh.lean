import DevBrowse.Dns.CacheExpiry

/-!
# Refreshing an answer

An answer that is cached already is replaced, and the partition does not grow. The cache makes
room all the same, and does so before it looks whether there is anything to make room for. In
a partition that is full the refresh of one answer so costs another one, unless the answer
refreshed is the one that came first
(`DevBrowse.Dns.DnsCache.put_refreshesOnly_iff`).
-/

namespace DevBrowse

namespace Dns

open Network (NetworkError PartitionKey)

namespace DnsCache

variable {cache cache' : DnsCache} {partition : PartitionKey} {part : PartitionEntries}
  {qname : Text} {qtype : UInt16} {entry : CacheEntry}

/-- **Only the answer to one query has changed**, and is now the given one. -/
structure RefreshesOnly (cache cache' : DnsCache) (partition : PartitionKey) (qname : Text)
    (qtype : UInt16) (entry : CacheEntry) : Prop where
  /-- The answer. -/
  entry : cache'.entryFor partition qname qtype = some entry
  /-- The other answers of the partition. -/
  answers : ∀ qname' qtype', (qname', qtype') ≠ (qname, qtype) →
    cache'.entryFor partition qname' qtype' = cache.entryFor partition qname' qtype'
  /-- The other partitions. -/
  partitions : ∀ key, key ≠ partition → cache'.inner.lookup key = cache.inner.lookup key

/-- There is room in a partition, or the answer is the next to be given up. -/
def RoomFor (part : PartitionEntries) (qname : Text) (qtype : UInt16) : Prop :=
  part.size < maxEntriesPerPartition ∨
    part.size = maxEntriesPerPartition ∧ part.order.head? = some (qname, qtype)

theorem insert_refreshesOnly_iff (hpart : cache.inner.lookup partition = some part)
    (hcached : (qname, qtype) ∈ part.entries) :
    RefreshesOnly cache (cache.insert partition qname qtype entry) partition qname qtype entry ↔
      RoomFor part qname qtype := by
  have hpos : 0 < maxEntriesPerPartition := by decide
  have hafter : ∀ qname' qtype', (cache.insert partition qname qtype entry).entryFor partition
      qname' qtype' = ((part.evict maxEntriesPerPartition).insert (qname, qtype)
        entry).entries.lookup (qname', qtype') := by
    intro qname' qtype'
    rw [entryFor, lookup_insert, hpart]
    rfl
  have hbefore : ∀ qname' qtype', cache.entryFor partition qname' qtype' =
      part.entries.lookup (qname', qtype') := by
    intro qname' qtype'
    rw [entryFor, hpart]
    rfl
  rw [RoomFor, ← Fifo.lookup_insert_evict_iff hpos hcached entry]
  constructor
  · rintro hrefresh ⟨qname', qtype'⟩ hne
    rw [← hafter, ← hbefore]
    exact hrefresh.answers qname' qtype' hne
  · intro hothers
    refine ⟨?_, fun qname' qtype' hne => ?_, fun key hkey => lookup_insert_of_ne hkey _ _ _ _⟩
    · rw [hafter, Fifo.lookup_insert]
    · rw [hafter, hbefore]
      exact hothers (qname', qtype') hne

/-- **A refresh touches only the answer refreshed** exactly if there is room in the partition,
or the answer is the one that came first. -/
theorem put_refreshesOnly_iff (hpart : cache.inner.lookup partition = some part)
    (hcached : (qname, qtype) ∈ part.entries) (result : ResolveResult) (err : NetworkError)
    (now : ℕ) :
    (RefreshesOnly cache (cache.putPositive partition qname qtype result now) partition qname
      qtype ⟨.positive result.records,
        now + min result.ttlSeconds.toNat maxPositiveTtl.toNat * nanosPerSec⟩ ↔
      RoomFor part qname qtype) ∧
    (RefreshesOnly cache (cache.putNegative partition qname qtype err now) partition qname
      qtype ⟨.negative err, now + maxNegativeTtl.toNat * nanosPerSec⟩ ↔
      RoomFor part qname qtype) :=
  ⟨insert_refreshesOnly_iff hpart hcached, insert_refreshesOnly_iff hpart hcached⟩

/-! ### A full partition -/

open CacheClock (examplePartition)

/-- The names of two letters from `a` to `p`. -/
def sampleName (i : ℕ) : Text := [Char.ofNat (97 + i / 16), Char.ofNat (97 + i % 16)]

/-- A cache with a number of answers in one partition. -/
def sampleCache (n : ℕ) : DnsCache :=
  (List.range n).foldl
    (fun cache i => cache.putPositive examplePartition (sampleName i) 1 ⟨[], 60⟩ 0) .new

/-- An answer is refreshed in a partition with room. -/
theorem put_refreshesOnly_iff_two :
    ∃ part, (sampleCache 2).inner.lookup examplePartition = some part ∧
      (RefreshesOnly (sampleCache 2) ((sampleCache 2).putPositive examplePartition (sampleName 1) 1
        ⟨[], 60⟩ 5) examplePartition (sampleName 1) 1 ⟨.positive [], 5 + 60 * nanosPerSec⟩ ↔
        RoomFor part (sampleName 1) 1) := by
  have hsome : ((sampleCache 2).inner.lookup examplePartition).any (fun part =>
      decide ((sampleName 1, (1 : UInt16)) ∈ part.entries)) = true := by decide +kernel
  obtain ⟨part, hpart, hcached⟩ := (Option.any_eq_true _ _).mp hsome
  exact ⟨part, hpart, (put_refreshesOnly_iff hpart (of_decide_eq_true hcached) ⟨[], 60⟩
    .blocked 5).1⟩

theorem nodup_sampleName : ((List.range 256).map fun i => (sampleName i, (1 : UInt16))).Nodup := by
  have hread : ((List.range 256).map fun i => (sampleName i, (1 : UInt16))).map
      (fun key => key.1.foldl (fun i c => i * 16 + (c.toNat - 97)) 0) = List.range 256 := by
    decide +kernel
  exact List.Nodup.of_map _ (hread ▸ List.nodup_range)

/-- As long as there is room the names are queued as they come. -/
theorem order_sampleCache {n : ℕ} (hn : n ≤ 256) :
    (((sampleCache n).inner.lookup examplePartition).getD .empty).order =
      (List.range n).map fun i => (sampleName i, (1 : UInt16)) := by
  induction n with
  | zero => rfl
  | succ n ih =>
    have hsucc : sampleCache (n + 1) =
        (sampleCache n).putPositive examplePartition (sampleName n) 1 ⟨[], 60⟩ 0 := by
      rw [sampleCache, List.range_succ, List.foldl_append]
      rfl
    have horder := ih (by omega)
    have hnew : (sampleName n, (1 : UInt16)) ∉
        (((sampleCache n).inner.lookup examplePartition).getD .empty).order := by
      have hnodup := nodup_sampleName.sublist
        ((List.range_sublist.mpr hn).map fun i => (sampleName i, (1 : UInt16)))
      rw [List.range_succ, List.map_append, List.map_singleton, ← horder] at hnodup
      exact fun hmem => (List.nodup_append.mp hnodup).2.2 _ hmem _ (by simp) rfl
    have hroom : (((sampleCache n).inner.lookup examplePartition).getD .empty).size <
        maxEntriesPerPartition := by
      rw [← Fifo.length_order, horder, List.length_map, List.length_range]
      exact hn
    rw [hsucc, putPositive, lookup_insert, Option.getD_some, Fifo.evict_of_lt hroom,
      Fifo.order_insert_of_notMem hnew, horder, List.range_succ, List.map_append]
    rfl

/-- **A refresh drops an unrelated answer.** -/
theorem not_refreshesOnly_full :
    (sampleCache 256).lenFor examplePartition = 256 ∧
      (∃ entry, (sampleCache 256).entryFor examplePartition (sampleName 1) 1 = some entry) ∧
      ¬ RefreshesOnly (sampleCache 256) ((sampleCache 256).putPositive examplePartition
        (sampleName 1) 1 ⟨[], 60⟩ 5) examplePartition (sampleName 1) 1
        ⟨.positive [], 5 + 60 * nanosPerSec⟩ := by
  have horder := order_sampleCache (le_refl 256)
  have hsome : ∃ part, (sampleCache 256).inner.lookup examplePartition = some part := by
    cases hpart : (sampleCache 256).inner.lookup examplePartition with
    | none =>
      rw [hpart] at horder
      exact absurd (congrArg List.length horder) (by simp [Fifo.empty])
    | some part => exact ⟨part, rfl⟩
  obtain ⟨part, hpart⟩ := hsome
  rw [hpart, Option.getD_some] at horder
  have hsize : part.size = 256 := by
    rw [← Fifo.length_order, horder, List.length_map, List.length_range]
  have hcached : (sampleName 1, (1 : UInt16)) ∈ part.entries := by
    rw [← part.mem_iff, horder]
    exact List.mem_map_of_mem (List.mem_range.mpr (by decide))
  refine ⟨by rw [lenFor, hpart, Option.map_some, Option.getD_some, hsize], ?_, fun hrefresh => ?_⟩
  · obtain ⟨entry, hentry⟩ := HashMap.mem_iff_lookup.mp hcached
    exact ⟨entry, entryFor_eq_some_iff.mpr ⟨part, hpart, hentry⟩⟩
  · rcases (insert_refreshesOnly_iff hpart hcached).mp hrefresh with hlt | ⟨-, hhead⟩
    · rw [hsize] at hlt
      exact absurd hlt (by decide)
    · rw [horder] at hhead
      exact absurd hhead (by decide)

end DnsCache

end Dns

end DevBrowse
