import DevBrowse.Dns.Resolver
import DevBrowse.Lib.Fifo

/-!
# The DNS cache

The answers to the queries of a partition are kept for the partition alone, each until it
expires, and not more than a fixed number of them: the one that came first is given up for
the next. An answer that is found expired is taken out.

Instants are in nanoseconds. The clock is read anew whenever the time is needed, and what it
says is an argument each time.
-/

namespace DevBrowse

namespace Dns

open Network (NetworkError PartitionKey)

/-- The number of answers that are kept for a partition. -/
def maxEntriesPerPartition : ℕ := 256

/-- The nanoseconds of a second. -/
def nanosPerSec : ℕ := 1000000000

/-- What a query came to. -/
inductive CachedOutcome where
  /-- It was answered, with these records. -/
  | positive (records : List DnsRecord)
  /-- It failed. -/
  | negative (err : NetworkError)
  deriving DecidableEq

/-- A cached answer. -/
structure CacheEntry where
  /-- The answer. -/
  outcome : CachedOutcome
  /-- When it expires. -/
  expiresAt : ℕ
  deriving DecidableEq

/-- The outcome a cached answer stands for, with the time that is left of it. -/
def CacheEntry.result (entry : CacheEntry) (remaining : UInt32) : Outcome :=
  match entry.outcome with
  | .positive records => .ok ⟨records, remaining⟩
  | .negative err => .error err.clone

/-- The answers cached for a partition, by the name and the type code of the query. -/
abbrev PartitionEntries := Fifo (Text × UInt16) CacheEntry

/-- **The DNS cache.** -/
structure DnsCache where
  /-- The answers of each partition. -/
  inner : HashMap PartitionKey PartitionEntries

namespace DnsCache

/-- Nothing is cached. -/
def new : DnsCache := ⟨∅⟩

/-- Keep an answer. -/
def insert (cache : DnsCache) (partition : PartitionKey) (qname : Text) (qtype : UInt16)
    (entry : CacheEntry) : DnsCache :=
  let part := (cache.inner.lookup partition).getD .empty
  -- room is made first, also where an answer to the same query is only replaced
  ⟨cache.inner.insert partition
    ((part.evict maxEntriesPerPartition).insert (qname, qtype) entry)⟩

/-- Keep a positive answer. -/
def putPositive (cache : DnsCache) (partition : PartitionKey) (qname : Text) (qtype : UInt16)
    (result : ResolveResult) (now : ℕ) : DnsCache :=
  let ttl := min result.ttlSeconds.toNat maxPositiveTtl.toNat
  cache.insert partition qname qtype ⟨.positive result.records, now + ttl * nanosPerSec⟩

/-- Keep a negative answer. -/
def putNegative (cache : DnsCache) (partition : PartitionKey) (qname : Text) (qtype : UInt16)
    (err : NetworkError) (now : ℕ) : DnsCache :=
  cache.insert partition qname qtype
    ⟨.negative err, now + maxNegativeTtl.toNat * nanosPerSec⟩

/-- Look for an answer. The clock is read once to see whether it has expired, and once more
for the time that is left. -/
def get (cache : DnsCache) (partition : PartitionKey) (qname : Text) (qtype : UInt16)
    (clock : ℕ × ℕ) : Option Outcome × DnsCache :=
  match cache.inner.lookup partition with
  | none => (none, cache)
  | some part =>
    match part.entries.lookup (qname, qtype) with
    | none => (none, cache)
    | some entry =>
      if entry.expiresAt ≤ clock.1 then
        -- the partition stays, even if this was its last answer
        (none, ⟨cache.inner.insert partition (part.erase (qname, qtype))⟩)
      else
        let remaining := min ((entry.expiresAt - clock.2) / nanosPerSec) (2 ^ 32 - 1)
        (some (entry.result (.ofNat remaining)), cache)

/-- Drop everything that is cached for a partition. -/
def dropPartition (cache : DnsCache) (partition : PartitionKey) : DnsCache :=
  ⟨cache.inner.erase partition⟩

/-- The number of answers cached for a partition. -/
def lenFor (cache : DnsCache) (partition : PartitionKey) : ℕ :=
  ((cache.inner.lookup partition).map Fifo.size).getD 0

/-- The partitions answers are cached for. -/
def holders (cache : DnsCache) : List PartitionKey :=
  cache.inner.keysWhere fun part => part.size ≠ 0

variable {cache : DnsCache} {partition key : PartitionKey} {qname : Text} {qtype : UInt16}
  {entry : CacheEntry} {clock : ℕ × ℕ}

theorem nodup_holders (cache : DnsCache) : cache.holders.Nodup := HashMap.nodup_keysWhere _ _

theorem mem_holders : key ∈ cache.holders ↔ cache.lenFor key ≠ 0 := by
  rw [holders, HashMap.mem_keysWhere, lenFor]
  cases cache.inner.lookup key with
  | none => simp
  | some part => simp

/-! ### One partition -/

theorem lookup_insert (cache : DnsCache) (partition : PartitionKey) (qname : Text)
    (qtype : UInt16) (entry : CacheEntry) :
    (cache.insert partition qname qtype entry).inner.lookup partition =
      some ((((cache.inner.lookup partition).getD .empty).evict maxEntriesPerPartition).insert
        (qname, qtype) entry) :=
  AList.lookup_insert _

theorem lookup_insert_of_ne (h : key ≠ partition) (cache : DnsCache) (qname : Text)
    (qtype : UInt16) (entry : CacheEntry) :
    (cache.insert partition qname qtype entry).inner.lookup key = cache.inner.lookup key :=
  AList.lookup_insert_ne h

/-- A look leaves the cache as it is, or takes an expired answer out. -/
theorem get_cases (cache : DnsCache) (partition : PartitionKey) (qname : Text) (qtype : UInt16)
    (clock : ℕ × ℕ) :
    (cache.get partition qname qtype clock).2 = cache ∨
    ∃ part entry, cache.inner.lookup partition = some part ∧
      part.entries.lookup (qname, qtype) = some entry ∧ entry.expiresAt ≤ clock.1 ∧
      cache.get partition qname qtype clock =
        (none, ⟨cache.inner.insert partition (part.erase (qname, qtype))⟩) := by
  rw [get]
  cases hpart : cache.inner.lookup partition with
  | none => exact Or.inl rfl
  | some part =>
    cases hentry : part.entries.lookup (qname, qtype) with
    | none => exact Or.inl (by simp [hentry])
    | some entry =>
      by_cases hexpired : entry.expiresAt ≤ clock.1
      · exact Or.inr ⟨part, entry, rfl, hentry, hexpired, by simp [hentry, hexpired]⟩
      · exact Or.inl (by simp [hentry, hexpired])

theorem lookup_get_of_ne (h : key ≠ partition) (cache : DnsCache) (qname : Text)
    (qtype : UInt16) (clock : ℕ × ℕ) :
    (cache.get partition qname qtype clock).2.inner.lookup key = cache.inner.lookup key := by
  rcases get_cases cache partition qname qtype clock with heq | ⟨part, entry, -, -, -, heq⟩
  · rw [heq]
  · rw [heq]
    exact AList.lookup_insert_ne h

theorem lookup_dropPartition (cache : DnsCache) (partition : PartitionKey) :
    (cache.dropPartition partition).inner.lookup partition = none :=
  AList.lookup_erase _ _

theorem lookup_dropPartition_of_ne (h : key ≠ partition) (cache : DnsCache) :
    (cache.dropPartition partition).inner.lookup key = cache.inner.lookup key :=
  AList.lookup_erase_ne h

/-! ### How many answers are cached -/

theorem lenFor_insert (cache : DnsCache) (partition : PartitionKey) (qname : Text)
    (qtype : UInt16) (entry : CacheEntry) :
    (cache.insert partition qname qtype entry).lenFor partition =
      ((((cache.inner.lookup partition).getD .empty).evict maxEntriesPerPartition).insert
        (qname, qtype) entry).size := by
  rw [lenFor, lookup_insert, Option.map_some, Option.getD_some]

/-- **Not more answers are kept than there may be.** -/
theorem lenFor_insert_le (cache : DnsCache) (partition : PartitionKey) (qname : Text)
    (qtype : UInt16) (entry : CacheEntry) :
    (cache.insert partition qname qtype entry).lenFor partition ≤ maxEntriesPerPartition := by
  have hroom := Fifo.size_evict (by decide : 0 < maxEntriesPerPartition)
    ((cache.inner.lookup partition).getD .empty)
  rw [lenFor_insert]
  exact (Fifo.size_insert_le _ _ _).trans hroom

theorem lenFor_insert_ne_zero (cache : DnsCache) (partition : PartitionKey) (qname : Text)
    (qtype : UInt16) (entry : CacheEntry) :
    (cache.insert partition qname qtype entry).lenFor partition ≠ 0 := by
  rw [lenFor_insert]
  exact Fifo.size_ne_zero (Fifo.lookup_insert _ _ _)

theorem lenFor_dropPartition (cache : DnsCache) (partition : PartitionKey) :
    (cache.dropPartition partition).lenFor partition = 0 := by
  rw [lenFor, lookup_dropPartition]
  rfl

/-- What has answers after a partition was dropped is another, and had answers before. -/
theorem lenFor_dropPartition_ne_zero (h : (cache.dropPartition partition).lenFor key ≠ 0) :
    key ≠ partition ∧ cache.lenFor key ≠ 0 := by
  have hne : key ≠ partition := by
    rintro rfl
    exact h (lenFor_dropPartition _ _)
  rw [lenFor, lookup_dropPartition_of_ne hne] at h
  exact ⟨hne, h⟩

/-- What is not cached before a look is not cached after it. -/
theorem lenFor_get_ne_zero (h : (cache.get partition qname qtype clock).2.lenFor key ≠ 0) :
    cache.lenFor key ≠ 0 := by
  rcases get_cases cache partition qname qtype clock with heq | ⟨part, entry, hpart, hentry, -, -⟩
  · rwa [heq] at h
  · by_cases hkey : key = partition
    · rw [hkey, lenFor, hpart, Option.map_some, Option.getD_some]
      exact Fifo.size_ne_zero hentry
    · rwa [lenFor, lookup_get_of_ne hkey] at h

/-- Partitions that hold no answers before hold none after. -/
theorem length_holders_le {cache' : DnsCache}
    (h : ∀ key, cache'.lenFor key ≠ 0 → cache.lenFor key ≠ 0) :
    cache'.holders.length ≤ cache.holders.length := by
  refine (List.subperm_of_subset cache'.nodup_holders fun key hkey => ?_).length_le
  exact mem_holders.mpr (h key (mem_holders.mp hkey))

/-- Where one partition comes to hold answers and the others are let alone. -/
theorem length_holders_of_ne_zero {cache' : DnsCache} (hlen : cache'.lenFor partition ≠ 0)
    (hothers : ∀ key, key ≠ partition → cache'.inner.lookup key = cache.inner.lookup key) :
    cache'.holders.length = (cache.holders.erase partition).length + 1 := by
  have hnodup : (partition :: cache.holders.erase partition).Nodup :=
    List.nodup_cons.mpr ⟨List.Nodup.not_mem_erase cache.nodup_holders,
      cache.nodup_holders.erase partition⟩
  have hperm : cache'.holders.Perm (partition :: cache.holders.erase partition) := by
    rw [List.perm_ext_iff_of_nodup cache'.nodup_holders hnodup]
    intro key
    rw [List.mem_cons, cache.nodup_holders.mem_erase_iff, mem_holders, mem_holders]
    by_cases hkey : key = partition
    · exact iff_of_true (hkey ▸ hlen) (Or.inl hkey)
    · rw [lenFor, hothers key hkey, lenFor]
      simp [hkey]
  rw [hperm.length_eq, List.length_cons]

end DnsCache

end Dns

end DevBrowse
