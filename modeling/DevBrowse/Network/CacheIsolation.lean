import DevBrowse.Lib.Noninterference
import DevBrowse.Network.Resolution

/-!
# DNS answers stay with their partition

All partitions share one cache, and what one of them does there, whatever it evicts, expires
or drops, none of the others sees: an operation changes the answers of its own partition
only, and neither its reply nor what it does to them depends on those of others. So what a
partition is told is a matter of the operations made for it alone
(`DevBrowse.Network.ResolvingCoordinator.cache_noninterference`).

A resolve is two operations, as others come between what it does before it waits for the
resolver and what it does after.
-/

namespace DevBrowse

namespace Network

open Dns (DnsCache Outcome QueryType ResolveQuery ResolveResult)

/-! ### One partition of the cache -/

namespace ResolvingCoordinator

section Local

variable {cache cache' : DnsCache} {partition : PartitionKey}

theorem lookup_insert_congr (h : cache.inner.lookup partition = cache'.inner.lookup partition)
    (qname : Text) (qtype : UInt16) (entry : Dns.CacheEntry) :
    (cache.insert partition qname qtype entry).inner.lookup partition =
      (cache'.insert partition qname qtype entry).inner.lookup partition := by
  rw [DnsCache.lookup_insert, DnsCache.lookup_insert, h]

theorem get_congr (h : cache.inner.lookup partition = cache'.inner.lookup partition)
    (qname : Text) (qtype : UInt16) (clock : ℕ × ℕ) :
    (cache.get partition qname qtype clock).1 = (cache'.get partition qname qtype clock).1 ∧
      (cache.get partition qname qtype clock).2.inner.lookup partition =
        (cache'.get partition qname qtype clock).2.inner.lookup partition := by
  rw [DnsCache.get, DnsCache.get, h]
  cases hpart : cache'.inner.lookup partition with
  | none => exact ⟨rfl, by rw [h, hpart]⟩
  | some part =>
    cases hentry : part.entries.lookup (qname, qtype) with
    | none =>
      simp only [hentry]
      exact ⟨trivial, by rw [h, hpart]⟩
    | some entry =>
      by_cases hexpired : entry.expiresAt ≤ clock.1
      · simp only [hentry, if_pos hexpired]
        exact ⟨trivial, by rw [AList.lookup_insert, AList.lookup_insert]⟩
      · simp only [hentry, if_neg hexpired]
        exact ⟨trivial, by rw [h, hpart]⟩

theorem lookup_keep_congr (h : cache.inner.lookup partition = cache'.inner.lookup partition)
    (qname : Text) (qtype : UInt16) (outcome : Outcome) (now : ℕ) :
    (keep cache partition qname qtype outcome now).inner.lookup partition =
      (keep cache' partition qname qtype outcome now).inner.lookup partition := by
  cases outcome with
  | ok res => exact lookup_insert_congr h _ _ _
  | error e =>
    rw [keep, keep]
    split
    · exact lookup_insert_congr h _ _ _
    · exact h

end Local

/-! ### Operations -/

/-- The operations on the cache. -/
inductive Operation where
  /-- `put_positive` is called. -/
  | putPositive (partition : PartitionKey) (qname : Text) (qtype : UInt16)
    (result : ResolveResult) (now : ℕ)
  /-- `put_negative` is called. -/
  | putNegative (partition : PartitionKey) (qname : Text) (qtype : UInt16)
    (err : NetworkError) (now : ℕ)
  /-- `get` is called. -/
  | get (partition : PartitionKey) (qname : Text) (qtype : UInt16) (clock : ℕ × ℕ)
  /-- `drop_partition` is called. -/
  | dropPartition (partition : PartitionKey)
  /-- `resolve` is called, with a resolver wired in or not. -/
  | resolveStart (hasResolver : Bool) (partition : PartitionKey) (qname : Text)
    (qtype : QueryType) (mode : Mode) (clock : ℕ × ℕ)
  /-- The resolver comes back to a `resolve` that waits. -/
  | resolveEnd (query : ResolveQuery) (outcome : Outcome) (now : ℕ)

/-- The partition an operation is made for. -/
def Operation.partition : Operation → PartitionKey
  | .putPositive partition _ _ _ _ => partition
  | .putNegative partition _ _ _ _ => partition
  | .get partition _ _ _ => partition
  | .dropPartition partition => partition
  | .resolveStart _ partition _ _ _ _ => partition
  | .resolveEnd query _ _ => query.partitionKey

/-- What an operation comes back with. -/
inductive Reply where
  /-- Nothing. -/
  | done
  /-- What a `get` found. -/
  | found (cached : Option Outcome)
  /-- How far a `resolve` comes before it would wait. -/
  | looked (lookup : Lookup)
  /-- What a `resolve` that waited returns. -/
  | resolved (outcome : Outcome)
  deriving DecidableEq

/-- **One operation.** -/
def perform (c : ResolvingCoordinator) : Operation → Reply × ResolvingCoordinator
  | .putPositive partition qname qtype result now =>
    (.done, { c with dnsCache := c.dnsCache.putPositive partition qname qtype result now })
  | .putNegative partition qname qtype err now =>
    (.done, { c with dnsCache := c.dnsCache.putNegative partition qname qtype err now })
  | .get partition qname qtype clock =>
    let (cached, cache) := c.dnsCache.get partition qname qtype clock
    (.found cached, { c with dnsCache := cache })
  | .dropPartition partition =>
    (.done, { c with dnsCache := c.dnsCache.dropPartition partition })
  | .resolveStart hasResolver partition qname qtype mode clock =>
    let (lookup, c') := c.resolveStart hasResolver partition qname qtype mode clock
    (.looked lookup, c')
  | .resolveEnd query outcome now =>
    let (outcome, c') := c.resolveEnd query outcome now
    (.resolved outcome, c')

/-- What the cache holds for a partition. -/
def answersOf (c : ResolvingCoordinator) (partition : PartitionKey) :
    Option Dns.PartitionEntries :=
  c.dnsCache.inner.lookup partition

variable {c c' : ResolvingCoordinator} {op : Operation} {partition : PartitionKey}

theorem resolveStart_eq (c : ResolvingCoordinator) (hasResolver : Bool)
    (partition : PartitionKey) (qname : Text) (qtype : QueryType) (mode : Mode)
    (clock : ℕ × ℕ) :
    c.resolveStart hasResolver partition qname qtype mode clock =
      (match (c.dnsCache.get partition qname qtype.typeCode clock).1 with
        | some cached => .returned cached
        | none => if hasResolver then .asks ⟨partition, qname, qtype, mode⟩
          else .returned (.error .resolveOutage),
        { c with dnsCache := (c.dnsCache.get partition qname qtype.typeCode clock).2 }) := by
  rw [resolveStart]
  rcases c.dnsCache.get partition qname qtype.typeCode clock with ⟨cached, cache⟩
  cases cached with
  | none => rfl
  | some cached => rfl

/-- **An operation leaves the answers of other partitions alone.** -/
theorem answersOf_perform_of_ne (h : op.partition ≠ partition) :
    (c.perform op).2.answersOf partition = c.answersOf partition := by
  cases op with
  | putPositive => exact DnsCache.lookup_insert_of_ne h.symm _ _ _ _
  | putNegative => exact DnsCache.lookup_insert_of_ne h.symm _ _ _ _
  | get => exact DnsCache.lookup_get_of_ne h.symm _ _ _ _
  | dropPartition => exact DnsCache.lookup_dropPartition_of_ne h.symm _
  | resolveStart =>
    rw [perform, resolveStart_eq]
    exact DnsCache.lookup_get_of_ne h.symm _ _ _ _
  | resolveEnd => exact lookup_keep_of_ne h.symm

/-- **An operation depends on the answers of its partition only**, in its reply and in what it
leaves. -/
theorem perform_congr (h : c.answersOf op.partition = c'.answersOf op.partition) :
    (c.perform op).1 = (c'.perform op).1 ∧
      (c.perform op).2.answersOf op.partition = (c'.perform op).2.answersOf op.partition := by
  cases op with
  | putPositive => exact ⟨rfl, lookup_insert_congr h _ _ _⟩
  | putNegative => exact ⟨rfl, lookup_insert_congr h _ _ _⟩
  | get partition qname qtype clock =>
    have hlocal : c.dnsCache.inner.lookup partition = c'.dnsCache.inner.lookup partition := h
    obtain ⟨hcached, hlook⟩ := get_congr hlocal qname qtype clock
    exact ⟨congrArg Reply.found hcached, hlook⟩
  | dropPartition partition =>
    have hdropped := DnsCache.lookup_dropPartition c.dnsCache partition
    exact ⟨rfl, hdropped.trans (DnsCache.lookup_dropPartition c'.dnsCache partition).symm⟩
  | resolveStart hasResolver partition qname qtype mode clock =>
    have hlocal : c.dnsCache.inner.lookup partition = c'.dnsCache.inner.lookup partition := h
    obtain ⟨hcached, hlook⟩ := get_congr hlocal qname qtype.typeCode clock
    rw [perform, perform, resolveStart_eq, resolveStart_eq, hcached]
    exact ⟨rfl, hlook⟩
  | resolveEnd query outcome now => exact ⟨rfl, lookup_keep_congr h _ _ _ _⟩

/-! ### Histories -/

/-- The coordinator, with the replies so far and the partitions they were given to. -/
structure Served where
  /-- The coordinator. -/
  coordinator : ResolvingCoordinator
  /-- The replies, the latest at the end. -/
  replies : List (PartitionKey × Reply)

/-- The replies given to a partition. -/
def Served.repliesTo (s : Served) (partition : PartitionKey) : List Reply :=
  (s.replies.filter fun r => r.1 = partition).map Prod.snd

/-- One operation, with its reply. -/
def Served.serve (s : Served) (op : Operation) : Served :=
  ⟨(s.coordinator.perform op).2, s.replies ++ [(op.partition, (s.coordinator.perform op).1)]⟩

/-- **A history**: one operation after the other. -/
def run (c : ResolvingCoordinator) (history : List Operation) : Served :=
  history.foldl Served.serve ⟨c, []⟩

/-- The operations made for a partition. -/
def madeFor (partition : PartitionKey) (history : List Operation) : List Operation :=
  history.filter fun op => op.partition = partition

/-- **Step by step, a partition learns what is done for it only.** -/
theorem unwinding_serve (partition : PartitionKey) :
    Unwinding Served.serve
      (fun s => (s.coordinator.answersOf partition, s.repliesTo partition))
      (Option.guard fun op => decide (op.partition = partition)) Set.univ where
  hidden op _ hseen s := by
    have hne : op.partition ≠ partition := by simpa [Option.guard_eq_none_iff] using hseen
    simp [Served.serve, Served.repliesTo, answersOf_perform_of_ne hne, hne]
  visible op _ op' _ o ho ho' s s' hview := by
    obtain ⟨rfl, hpart⟩ : op = o ∧ op.partition = partition := by
      simpa [Option.guard_eq_some_iff] using ho
    obtain ⟨rfl, -⟩ : op' = op ∧ op'.partition = partition := by
      simpa [Option.guard_eq_some_iff] using ho'
    subst hpart
    obtain ⟨hanswers, hreplies⟩ := Prod.mk.inj hview
    obtain ⟨hreply, hafter⟩ := perform_congr hanswers
    simp only [Served.repliesTo] at hreplies
    simp [Served.serve, Served.repliesTo, hreply, hafter, hreplies]

/-- **Noninterference**: after two histories with the same operations for a partition it has
been given the same replies, whatever was done for the others. -/
theorem cache_noninterference (c : ResolvingCoordinator) (partition : PartitionKey)
    (history history' : List Operation)
    (h : madeFor partition history = madeFor partition history') :
    (run c history).repliesTo partition = (run c history').repliesTo partition := by
  have hseen : history.filterMap (Option.guard fun op => decide (op.partition = partition)) =
      history'.filterMap (Option.guard fun op => decide (op.partition = partition)) := by
    rw [List.filterMap_eq_filter]
    exact h
  have hview := (unwinding_serve partition).view_foldl (fun op _ => Set.mem_univ op)
    (fun op _ => Set.mem_univ op) hseen (rfl : _ = ((⟨c, []⟩ : Served).coordinator.answersOf
      partition, (⟨c, []⟩ : Served).repliesTo partition))
  exact (Prod.mk.inj hview).2

/-- A partition. -/
def partitionOf (b : UInt8) : PartitionKey := ⟨.replicate 32 b⟩

/-- A partition resolves a name, and looks for it again ten seconds later. -/
def exampleHistory : List Operation :=
  [.resolveStart true (partitionOf 1) "a.io".toList .a .standard (0, 0),
    .resolveEnd ⟨partitionOf 1, "a.io".toList, .a, .standard⟩
      (.ok ⟨[.a #v[93, 184, 216, 34]], 300⟩) 0,
    .resolveStart true (partitionOf 1) "a.io".toList .a .standard
      (10000000000, 10000000000)]

/-- The same, with another partition in between that resolves the name to another address, and
is dropped. -/
def exampleHistoryShared : List Operation :=
  [.resolveStart true (partitionOf 1) "a.io".toList .a .standard (0, 0),
    .resolveEnd ⟨partitionOf 2, "a.io".toList, .a, .standard⟩
      (.ok ⟨[.a #v[8, 8, 8, 8]], 300⟩) 0,
    .resolveEnd ⟨partitionOf 1, "a.io".toList, .a, .standard⟩
      (.ok ⟨[.a #v[93, 184, 216, 34]], 300⟩) 0,
    .dropPartition (partitionOf 2),
    .resolveStart true (partitionOf 1) "a.io".toList .a .standard
      (10000000000, 10000000000)]

/-- The partition finds its own answer, with the time that is left of it. -/
theorem cache_noninterference_shared :
    (run bootstrap exampleHistoryShared).repliesTo (partitionOf 1) =
      [.looked (.asks ⟨partitionOf 1, "a.io".toList, .a, .standard⟩),
        .resolved (.ok ⟨[.a #v[93, 184, 216, 34]], 300⟩),
        .looked (.returned (.ok ⟨[.a #v[93, 184, 216, 34]], 290⟩))] := by
  have hmade : madeFor (partitionOf 1) exampleHistoryShared =
      madeFor (partitionOf 1) exampleHistory := rfl
  rw [cache_noninterference bootstrap (partitionOf 1) _ _ hmade]
  decide +kernel

end ResolvingCoordinator

end Network

end DevBrowse
