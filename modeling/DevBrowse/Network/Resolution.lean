import DevBrowse.Dns.Cache
import DevBrowse.Network.Coordinator

/-!
# Resolving a name

The coordinator answers a query from the DNS cache of the partition that asks, and asks the
resolver otherwise. What the resolver comes back with is kept, but for the failures that may
pass. While the resolver works on a query the coordinator does other things: a resolve is cut
in two there (`DevBrowse.Network.ResolvingCoordinator.resolve_eq`).
-/

namespace DevBrowse

namespace Network

open Dns (DnsCache Outcome QueryType ResolveQuery)

/-- **The network coordinator**, with its DNS cache. -/
structure ResolvingCoordinator where
  /-- What routes need. -/
  coordinator : NetworkCoordinator
  /-- The DNS cache. -/
  dnsCache : DnsCache

/-- What the clock says during a resolve. -/
structure ResolveClock where
  /-- When the cache sees whether an answer has expired. -/
  atExpiry : ℕ
  /-- When the cache sees how much time is left of an answer. -/
  atHit : ℕ
  /-- When an answer is kept. -/
  atStore : ℕ
  deriving DecidableEq

/-- How far a resolve comes before it would wait. -/
inductive Lookup where
  /-- It is done. -/
  | returned (outcome : Outcome)
  /-- It waits for the resolver to answer the query. -/
  | asks (query : ResolveQuery)
  deriving DecidableEq

namespace ResolvingCoordinator

/-- The coordinator after start-up. -/
def bootstrap : ResolvingCoordinator := ⟨.bootstrap, .new⟩

/-- A route leaves the cache alone. -/
def route (sha256 : List UInt8 → Vector UInt8 32) (c : ResolvingCoordinator) (met : Encounter)
    (req : Request) : ResolvingCoordinator :=
  { c with coordinator := (c.coordinator.route sha256 met req).coordinator }

/-- Drop a partition. -/
def dropPartition (c : ResolvingCoordinator) (key : PartitionKey) : ResolvingCoordinator :=
  ⟨{ c.coordinator with egress := c.coordinator.egress.remove key }, c.dnsCache.dropPartition key⟩

/-- Keep what the resolver came back with, if it is to be kept. -/
def keep (cache : DnsCache) (partition : PartitionKey) (qname : Text) (qtype : UInt16)
    (outcome : Outcome) (now : ℕ) : DnsCache :=
  match outcome with
  | .ok res => cache.putPositive partition qname qtype res now
  | .error e =>
    -- an outage or a timeout may pass, so only a name that does not exist is kept
    if e = .resolveNxDomain then cache.putNegative partition qname qtype e.clone now else cache

/-- **Resolve a name.** The resolver is the one that is wired in, as it answers now. -/
def resolve (c : ResolvingCoordinator) (resolver : Option (ResolveQuery → Outcome))
    (partition : PartitionKey) (qname : Text) (qtype : QueryType) (mode : Mode)
    (clock : ResolveClock) : Outcome × ResolvingCoordinator :=
  match c.dnsCache.get partition qname qtype.typeCode (clock.atExpiry, clock.atHit) with
  | (some cached, cache) => (cached, { c with dnsCache := cache })
  | (none, cache) =>
    match resolver with
    | none => (.error .resolveOutage, { c with dnsCache := cache })
    | some resolver =>
      let outcome := resolver ⟨partition, qname, qtype, mode⟩
      (outcome, { c with
        dnsCache := keep cache partition qname qtype.typeCode outcome clock.atStore })

/-! ### A resolve in two parts -/

/-- What a resolve does before it waits. -/
def resolveStart (c : ResolvingCoordinator) (hasResolver : Bool) (partition : PartitionKey)
    (qname : Text) (qtype : QueryType) (mode : Mode) (clock : ℕ × ℕ) :
    Lookup × ResolvingCoordinator :=
  match c.dnsCache.get partition qname qtype.typeCode clock with
  | (some cached, cache) => (.returned cached, { c with dnsCache := cache })
  | (none, cache) =>
    (if hasResolver then .asks ⟨partition, qname, qtype, mode⟩
      else .returned (.error .resolveOutage), { c with dnsCache := cache })

/-- What a resolve does when it has waited. -/
def resolveEnd (c : ResolvingCoordinator) (query : ResolveQuery) (outcome : Outcome) (now : ℕ) :
    Outcome × ResolvingCoordinator :=
  (outcome, { c with
    dnsCache := keep c.dnsCache query.partitionKey query.qname query.qtype.typeCode outcome now })

variable {c : ResolvingCoordinator} {cache : DnsCache} {partition key : PartitionKey}
  {qname : Text} {qtype : UInt16} {outcome : Outcome} {now : ℕ}

/-- **The two parts make up a resolve.** -/
theorem resolve_eq (c : ResolvingCoordinator) (resolver : Option (ResolveQuery → Outcome))
    (partition : PartitionKey) (qname : Text) (qtype : QueryType) (mode : Mode)
    (clock : ResolveClock) :
    c.resolve resolver partition qname qtype mode clock =
      match c.resolveStart resolver.isSome partition qname qtype mode
        (clock.atExpiry, clock.atHit), resolver with
      | (.returned cached, c'), _ => (cached, c')
      | (.asks query, c'), some resolver => c'.resolveEnd query (resolver query) clock.atStore
      | (.asks _, c'), none => (.error .resolveOutage, c') := by
  rw [resolve, resolveStart]
  rcases c.dnsCache.get partition qname qtype.typeCode (clock.atExpiry, clock.atHit) with
    ⟨cached, cache⟩
  cases cached with
  | some cached => rfl
  | none =>
    cases resolver with
    | none => rfl
    | some resolver => rfl

/-- What is kept is kept for the partition that asked. -/
theorem lookup_keep_of_ne (h : key ≠ partition) :
    (keep cache partition qname qtype outcome now).inner.lookup key = cache.inner.lookup key := by
  cases outcome with
  | ok res => exact DnsCache.lookup_insert_of_ne h _ _ _ _
  | error e =>
    rw [keep]
    split
    · exact DnsCache.lookup_insert_of_ne h _ _ _ _
    · rfl

/-- An outcome is kept if and only if it may be cached. -/
theorem keep_cases (cache : DnsCache) (partition : PartitionKey) (qname : Text)
    (qtype : UInt16) (outcome : Outcome) (now : ℕ) :
    (outcome.isCacheable = false ∧ keep cache partition qname qtype outcome now = cache) ∨
    outcome.isCacheable = true ∧
      (keep cache partition qname qtype outcome now).lenFor partition ≠ 0 := by
  cases outcome with
  | ok res => exact Or.inr ⟨rfl, DnsCache.lenFor_insert_ne_zero _ _ _ _ _⟩
  | error e =>
    rw [keep, Outcome.isCacheable]
    by_cases he : e = .resolveNxDomain
    · rw [if_pos he]
      exact Or.inr ⟨decide_eq_true he, DnsCache.lenFor_insert_ne_zero _ _ _ _ _⟩
    · rw [if_neg he]
      exact Or.inl ⟨decide_eq_false he, rfl⟩

end ResolvingCoordinator

end Network

end DevBrowse
