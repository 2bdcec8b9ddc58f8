import DevBrowse.Dns.CacheExpiry
import DevBrowse.Network.CacheIsolation

/-!
# Where answers come from

While the resolver works on the queries of some resolves, other resolves are made, and
partitions are routed for and dropped. What a resolve is told from the cache was all the same
answered by the resolver, to a query for the same name and type that the same partition asked,
after the partition was last dropped, and nothing was kept for the query since; and it is told so
within the time the answer came with
(`DevBrowse.Network.Resolving.answers_stem`). Conversely an answer to a query that had none in the
cache is told until its time is over, if fewer than 256 answers are kept for the partition
meanwhile (`DevBrowse.Network.Resolving.answer_stays`).
-/

namespace DevBrowse

namespace Network

open Dns (CacheEntry DnsCache Outcome QueryType ResolveQuery maxEntriesPerPartition nanosPerSec)

open Dns.CacheClock (Put)

open Transition (Since Step)

/-- **Resolves under way.** -/
structure Resolving where
  /-- The coordinator. -/
  coordinator : ResolvingCoordinator
  /-- The queries the resolver works on. -/
  pending : List ResolveQuery
  /-- What the clock said last. -/
  now : ℕ

namespace Resolving

/-- What happens. -/
inductive Event where
  /-- `resolve` is called, with a resolver wired in or not. -/
  | resolve (hasResolver : Bool) (partition : PartitionKey) (qname : Text) (qtype : QueryType)
    (mode : Mode) (clock : ℕ × ℕ)
  /-- The resolver answers a query. -/
  | answered (query : ResolveQuery) (outcome : Outcome) (now : ℕ)
  /-- A `resolve` that waits is given up. -/
  | abandoned (query : ResolveQuery)
  /-- `route` is called. -/
  | route (met : Encounter) (req : Request)
  /-- `drop_partition` is called. -/
  | dropPartition (key : PartitionKey)

/-- The queries the resolver works on after a lookup. -/
def pendingAfter (pending : List ResolveQuery) : Lookup → List ResolveQuery
  | .returned _ => pending
  | .asks query => query :: pending

/-- **One event.** The clock does not go back. -/
def step (sha256 : List UInt8 → Vector UInt8 32) (s : Resolving) : Event → Option Resolving
  | .resolve hasResolver partition qname qtype mode clock =>
    if s.now ≤ clock.1 ∧ clock.1 ≤ clock.2 then
      let (lookup, coordinator) :=
        s.coordinator.resolveStart hasResolver partition qname qtype mode clock
      some ⟨coordinator, pendingAfter s.pending lookup, clock.2⟩
    else none
  | .answered query outcome now =>
    if query ∈ s.pending ∧ s.now ≤ now then
      some ⟨(s.coordinator.resolveEnd query outcome now).2, s.pending.erase query, now⟩
    else none
  | .abandoned query =>
    if query ∈ s.pending then some { s with pending := s.pending.erase query } else none
  | .route met req => some { s with coordinator := s.coordinator.route sha256 met req }
  | .dropPartition key => some { s with coordinator := s.coordinator.dropPartition key }

/-- Nothing has been resolved yet. -/
def new (start : ℕ) : Resolving := ⟨.bootstrap, [], start⟩

/-- The runs. -/
abbrev Run (sha256 : List UInt8 → Vector UInt8 32) (start : ℕ) :
    List (Step Resolving Event) → Resolving → Prop :=
  Transition.Run (Transition.ofFun (step sha256)) (new start)

/-- What is cached for a query. -/
def cached (s : Resolving) (query : ResolveQuery) : Option CacheEntry :=
  s.coordinator.dnsCache.entryFor query.partitionKey query.qname query.qtype.typeCode

/-- The two queries are the same but for the mode, which the cache does not know. -/
def SameQuestion (query query' : ResolveQuery) : Prop :=
  query.partitionKey = query'.partitionKey ∧ query.qname = query'.qname ∧
    query.qtype = query'.qtype

/-- How many seconds an outcome is good for. -/
def lifetime : Outcome → ℕ
  | .ok res => min res.ttlSeconds.toNat (24 * 60 * 60)
  | .error _ => 60

/-- What is kept of an outcome. -/
def kept (outcome : Outcome) (now : ℕ) : Option Put :=
  match outcome with
  | .ok res => some ⟨.positive res.records, lifetime outcome, now⟩
  | .error e => if e = .resolveNxDomain then some ⟨.negative e, lifetime outcome, now⟩ else none

/-- The step asks the resolver. -/
def Asks (query : ResolveQuery) (x : Step Resolving Event) : Prop :=
  ∃ hasResolver clock, x.input = .resolve hasResolver query.partitionKey query.qname query.qtype
    query.mode clock ∧ (x.pre.coordinator.resolveStart hasResolver query.partitionKey query.qname
    query.qtype query.mode clock).1 = .asks query

/-- **The step spares what is cached for a query**: it does not drop the partition, and no answer
to the same question is kept. -/
def Spares (query : ResolveQuery) (x : Step Resolving Event) : Prop :=
  x.input ≠ .dropPartition query.partitionKey ∧
    ∀ query' outcome now, SameQuestion query' query → outcome.isCacheable = true →
      x.input ≠ .answered query' outcome now

/-- **A resolve is told what the resolver answered**, within the time that came with it. -/
def Tells (given : Outcome) (time : ℕ) (clock : ℕ × ℕ) (told : Outcome) : Prop :=
  clock.1 < time + lifetime given * nanosPerSec ∧
    match given with
    | .ok res => ∃ left : UInt32, told = .ok ⟨res.records, left⟩ ∧
      clock.1 + left.toNat * nanosPerSec ≤ time + lifetime given * nanosPerSec
    | .error e => e = .resolveNxDomain ∧ told = .error e

variable {sha256 : List UInt8 → Vector UInt8 32} {start : ℕ} {s s' : Resolving} {i : Event}
  {tr : List (Step Resolving Event)} {query query' : ResolveQuery} {entry : CacheEntry}
  {outcome given told : Outcome} {now : ℕ} {clock : ℕ × ℕ} {put : Put}

/-! ### What is kept -/

theorem isSome_kept (outcome : Outcome) (now : ℕ) :
    (kept outcome now).isSome = outcome.isCacheable := by
  cases outcome with
  | ok res => rfl
  | error e =>
    rw [kept, Outcome.isCacheable]
    by_cases he : e = .resolveNxDomain
    · rw [if_pos he, decide_eq_true he]
      rfl
    · rw [if_neg he, decide_eq_false he]
      rfl

theorem put_of_kept (h : kept outcome now = some put) :
    put.now = now ∧ put.ttl = lifetime outcome := by
  cases outcome with
  | ok res =>
    rw [← Option.some.inj h]
    exact ⟨rfl, rfl⟩
  | error e =>
    rw [kept] at h
    split at h
    · rw [← Option.some.inj h]
      exact ⟨rfl, rfl⟩
    · cases h

/-- What is kept goes into the cache. -/
theorem keep_eq (cache : DnsCache) (partition : PartitionKey) (qname : Text) (qtype : UInt16)
    (outcome : Outcome) (now : ℕ) :
    ResolvingCoordinator.keep cache partition qname qtype outcome now =
      match kept outcome now with
      | some put => cache.insert partition qname qtype put.cached
      | none => cache := by
  cases outcome with
  | ok res => rfl
  | error e =>
    rw [ResolvingCoordinator.keep, kept]
    by_cases he : e = .resolveNxDomain
    · subst he
      rfl
    · rw [if_neg he, if_neg he]

/-- **What a cached answer tells** is what the resolver gave. -/
theorem tells_of_kept (h : kept given now = some put) (hclock : clock.1 ≤ clock.2)
    (hlive : clock.1 < put.cached.expiresAt) :
    Tells given now clock (put.cached.result
      (.ofNat (min ((put.cached.expiresAt - clock.2) / nanosPerSec) (2 ^ 32 - 1)))) := by
  have hleft := Dns.CacheClock.remaining_le (put.cached.expiresAt - clock.2)
  cases given with
  | ok res =>
    obtain rfl := Option.some.inj h
    refine ⟨hlive, _, rfl, ?_⟩
    simp only [Put.cached] at hleft hlive ⊢
    omega
  | error e =>
    rw [kept] at h
    split at h
    · rename_i he
      subst he
      obtain rfl := Option.some.inj h
      exact ⟨hlive, rfl, rfl⟩
    · cases h

/-! ### One event -/

theorem typeCode_inj {qtype qtype' : QueryType} (h : qtype.typeCode = qtype'.typeCode) :
    qtype = qtype' := by
  revert h
  cases qtype <;> cases qtype' <;> decide

/-- What a resolve does before it waits. -/
theorem step_resolve {hasResolver : Bool} {partition : PartitionKey} {qname : Text}
    {qtype : QueryType} {mode : Mode}
    (h : s.step sha256 (.resolve hasResolver partition qname qtype mode clock) = some s') :
    s.now ≤ clock.1 ∧ clock.1 ≤ clock.2 ∧ s'.now = clock.2 ∧
      s'.coordinator.dnsCache =
        (s.coordinator.dnsCache.get partition qname qtype.typeCode clock).2 ∧
      s'.pending = pendingAfter s.pending
        (s.coordinator.resolveStart hasResolver partition qname qtype mode clock).1 := by
  rw [step] at h
  split at h
  · rename_i hclock
    have hcache : (s.coordinator.resolveStart hasResolver partition qname qtype mode
        clock).2.dnsCache =
          (s.coordinator.dnsCache.get partition qname qtype.typeCode clock).2 := by
      rw [ResolvingCoordinator.resolveStart_eq]
    obtain rfl := Option.some.inj h
    exact ⟨hclock.1, hclock.2, rfl, hcache, rfl⟩
  · cases h

/-- What an answer does. -/
theorem step_answered (h : s.step sha256 (.answered query outcome now) = some s') :
    query ∈ s.pending ∧ s.now ≤ now ∧ s'.now = now ∧ s'.pending = s.pending.erase query ∧
      s'.coordinator.dnsCache = (match kept outcome now with
        | some put => s.coordinator.dnsCache.insert query.partitionKey query.qname
          query.qtype.typeCode put.cached
        | none => s.coordinator.dnsCache) := by
  rw [step] at h
  split at h
  · rename_i hwait
    obtain rfl := Option.some.inj h
    exact ⟨hwait.1, hwait.2, rfl, rfl, keep_eq _ _ _ _ _ _⟩
  · cases h

theorem step_abandoned (h : s.step sha256 (.abandoned query) = some s') :
    s' = { s with pending := s.pending.erase query } := by
  rw [step] at h
  split at h
  · exact (Option.some.inj h).symm
  · cases h

/-- **What is cached after an event** was answered in it, or was cached before and is spared. -/
theorem cached_step (h : s.step sha256 i = some s') (hentry : s'.cached query = some entry) :
    (∃ query' outcome put, i = .answered query' outcome put.now ∧ query' ∈ s.pending ∧
      SameQuestion query' query ∧ kept outcome put.now = some put ∧ entry = put.cached) ∨
    Spares query ⟨s, i, s'⟩ ∧ s.cached query = some entry := by
  cases i with
  | resolve hasResolver partition qname qtype mode clock =>
    obtain ⟨-, -, -, hcache, -⟩ := step_resolve h
    rw [cached, hcache] at hentry
    exact .inr ⟨⟨nofun, fun _ _ _ _ _ => nofun⟩, DnsCache.entryFor_get hentry⟩
  | answered query' outcome now =>
    obtain ⟨hwait, -, -, -, hcache⟩ := step_answered h
    rw [cached, hcache] at hentry
    cases hkept : kept outcome now with
    | none =>
      rw [hkept] at hentry
      refine .inr ⟨⟨nofun, fun query'' outcome' now' _ hcacheable heq => ?_⟩, hentry⟩
      obtain ⟨rfl, rfl, rfl⟩ := Event.answered.inj heq
      rw [← isSome_kept _ now, hkept] at hcacheable
      cases hcacheable
    | some put =>
      rw [hkept] at hentry
      obtain ⟨rfl, -⟩ := put_of_kept hkept
      rcases DnsCache.entryFor_insert hentry with ⟨hpart, hqname, hqtype, rfl⟩ | ⟨hne, hbefore⟩
      · exact .inl ⟨query', outcome, put, rfl, hwait,
          ⟨hpart.symm, hqname.symm, (typeCode_inj hqtype).symm⟩, hkept, rfl⟩
      · refine .inr ⟨⟨nofun, fun query'' outcome' now' hsame _ heq => hne ?_⟩, hbefore⟩
        obtain ⟨rfl, -, -⟩ := Event.answered.inj heq
        rw [hsame.1, hsame.2.1, hsame.2.2]
  | abandoned query' =>
    obtain rfl := step_abandoned h
    exact .inr ⟨⟨nofun, fun _ _ _ _ _ => nofun⟩, hentry⟩
  | route met req =>
    obtain rfl := Option.some.inj h
    exact .inr ⟨⟨nofun, fun _ _ _ _ _ => nofun⟩, hentry⟩
  | dropPartition key =>
    obtain rfl := Option.some.inj h
    refine .inr ⟨⟨fun heq => ?_, fun _ _ _ _ _ => nofun⟩, DnsCache.entryFor_dropPartition hentry⟩
    obtain rfl := Event.dropPartition.inj heq
    obtain ⟨part, hpart, -⟩ := DnsCache.entryFor_eq_some_iff.mp hentry
    have hgone : (s.coordinator.dnsCache.dropPartition query.partitionKey).inner.lookup
      query.partitionKey = none := DnsCache.lookup_dropPartition _ _
    cases hgone.symm.trans hpart

/-- The resolver works on what it was asked, and has not answered yet. -/
theorem pending_step (h : s.step sha256 i = some s') (hwait : query ∈ s'.pending) :
    Asks query ⟨s, i, s'⟩ ∨ query ∈ s.pending := by
  cases i with
  | resolve hasResolver partition qname qtype mode clock =>
    obtain ⟨-, -, -, -, hpending⟩ := step_resolve h
    rw [hpending] at hwait
    cases hlookup : (s.coordinator.resolveStart hasResolver partition qname qtype mode clock).1 with
    | returned told =>
      rw [hlookup] at hwait
      exact .inr hwait
    | asks query' =>
      rw [hlookup] at hwait
      rcases List.mem_cons.mp hwait with rfl | hbefore
      · have hquery := hlookup
        rw [ResolvingCoordinator.resolveStart_eq] at hquery
        dsimp only at hquery
        split at hquery
        · cases hquery
        · split at hquery
          · obtain rfl := Lookup.asks.inj hquery
            exact .inl ⟨hasResolver, clock, rfl, hlookup⟩
          · cases hquery
      · exact .inr hbefore
  | answered query' outcome now =>
    obtain ⟨-, -, -, hpending, -⟩ := step_answered h
    rw [hpending] at hwait
    exact .inr (List.mem_of_mem_erase hwait)
  | abandoned query' =>
    obtain rfl := step_abandoned h
    exact .inr (List.mem_of_mem_erase hwait)
  | route met req =>
    obtain rfl := Option.some.inj h
    exact .inr hwait
  | dropPartition key =>
    obtain rfl := Option.some.inj h
    exact .inr hwait

theorem now_le_step (h : s.step sha256 i = some s') : s.now ≤ s'.now := by
  cases i with
  | resolve hasResolver partition qname qtype mode clock =>
    obtain ⟨hfirst, hsecond, hnow, -⟩ := step_resolve h
    rw [hnow]
    exact hfirst.trans hsecond
  | answered query outcome now =>
    obtain ⟨-, hlater, hnow, -⟩ := step_answered h
    rw [hnow]
    exact hlater
  | abandoned query => rw [step_abandoned h]
  | route met req => rw [← Option.some.inj h]
  | dropPartition key => rw [← Option.some.inj h]

/-- **What a resolve is told** at once is what is cached, or that there is no resolver. -/
theorem told_cases {hasResolver : Bool}
    (h : (s.coordinator.resolveStart hasResolver query.partitionKey query.qname query.qtype
      query.mode clock).1 = .returned told) :
    (hasResolver = false ∧ told = .error .resolveOutage) ∨
    ∃ entry, s.cached query = some entry ∧ clock.1 < entry.expiresAt ∧ told = entry.result
      (.ofNat (min ((entry.expiresAt - clock.2) / nanosPerSec) (2 ^ 32 - 1))) := by
  rw [ResolvingCoordinator.resolveStart_eq] at h
  dsimp only at h
  split at h
  · rename_i told' hget
    obtain rfl := Lookup.returned.inj h
    exact .inr (DnsCache.get_eq_some hget)
  · split at h
    · cases h
    · rename_i hresolver
      obtain rfl := Lookup.returned.inj h
      exact .inl ⟨by simpa using hresolver, rfl⟩

/-- **A cached answer is told** before it expires. -/
theorem told_of_cached (h : s.cached query = some entry) (hlive : clock.1 < entry.expiresAt)
    (hasResolver : Bool) :
    (s.coordinator.resolveStart hasResolver query.partitionKey query.qname query.qtype query.mode
      clock).1 = .returned (entry.result
        (.ofNat (min ((entry.expiresAt - clock.2) / nanosPerSec) (2 ^ 32 - 1)))) := by
  obtain ⟨part, hpart, hentry⟩ := DnsCache.entryFor_eq_some_iff.mp h
  have hget : (s.coordinator.dnsCache.get query.partitionKey query.qname query.qtype.typeCode
      clock).1 = some (entry.result
        (.ofNat (min ((entry.expiresAt - clock.2) / nanosPerSec) (2 ^ 32 - 1)))) := by
    simp only [DnsCache.get, hpart, hentry, if_neg (Nat.not_le.mpr hlive)]
  rw [ResolvingCoordinator.resolveStart_eq, hget]

/-! ### What is told was answered -/

/-- What the resolver works on it was asked. -/
theorem asked_of_run (hrun : Run sha256 start tr s) (hwait : query ∈ s.pending) :
    ∃ x ∈ tr, Asks query x := by
  revert hwait
  refine hrun.invariant (I := fun tr s => query ∈ s.pending → ∃ x ∈ tr, Asks query x)
    (fun hwait => absurd hwait List.not_mem_nil) ?_
  intro tr s i s' _ ih hstep hwait
  rcases pending_step hstep hwait with hasks | hbefore
  · exact ⟨_, by simp, hasks⟩
  · obtain ⟨x, hx, hasks⟩ := ih hbefore
    exact ⟨x, List.mem_append_left _ hx, hasks⟩

/-- **What is cached was answered, and has been spared since.** -/
theorem since_of_run (hrun : Run sha256 start tr s) (hentry : s.cached query = some entry) :
    ∃ query' given put, SameQuestion query' query ∧ kept given put.now = some put ∧
      entry = put.cached ∧
      Since (fun y => y.input = .answered query' given put.now ∧ query' ∈ y.pre.pending)
        (Spares query) tr := by
  revert hentry
  refine hrun.invariant (I := fun tr s => s.cached query = some entry →
    ∃ query' given put, SameQuestion query' query ∧ kept given put.now = some put ∧
      entry = put.cached ∧
      Since (fun y => y.input = .answered query' given put.now ∧ query' ∈ y.pre.pending)
        (Spares query) tr) (fun hentry => by cases hentry) ?_
  intro tr s i s' _ ih hstep hentry
  rcases cached_step hstep hentry with ⟨query', given, put, rfl, hwait, hsame, hkept, hcached⟩ |
    ⟨hspares, hbefore⟩
  · exact ⟨query', given, put, hsame, hkept, hcached, Transition.since_snoc.mpr
      (.inl ⟨rfl, hwait⟩)⟩
  · obtain ⟨query', given, put, hsame, hkept, hcached, hsince⟩ := ih hbefore
    exact ⟨query', given, put, hsame, hkept, hcached,
      Transition.since_snoc.mpr (.inr ⟨hsince, hspares⟩)⟩

/-- **What a resolve is told at once stems from the resolver**: unless there is none, it was
answered, within the time that came with it, to a query for the same name and type that the same
partition had asked; and since then the partition was not dropped, and no answer to the same
question was kept. -/
theorem answers_stem (hrun : Run sha256 start tr s) {before after : List (Step Resolving Event)}
    {x : Step Resolving Event} (htr : tr = before ++ x :: after) {hasResolver : Bool}
    (hx : x.input = .resolve hasResolver query.partitionKey query.qname query.qtype query.mode
      clock)
    (htold : (x.pre.coordinator.resolveStart hasResolver query.partitionKey query.qname
      query.qtype query.mode clock).1 = .returned told) :
    (hasResolver = false ∧ told = .error .resolveOutage) ∨
    ∃ past y later query' given time, before = past ++ y :: later ∧
      y.input = .answered query' given time ∧ SameQuestion query' query ∧
      (∃ z ∈ past, Asks query' z) ∧ (∀ z ∈ later, Spares query z) ∧
      Tells given time clock told := by
  subst htr
  obtain ⟨hbefore, hstep, -⟩ := hrun.cut
  rw [hx] at hstep
  obtain ⟨-, hclock, -⟩ := step_resolve hstep
  rcases told_cases htold with houtage | ⟨entry, hentry, hlive, rfl⟩
  · exact .inl houtage
  · obtain ⟨query', given, put, hsame, hkept, rfl, past, y, later, rfl, ⟨hy, hwait⟩, hspares⟩ :=
      since_of_run hbefore hentry
    obtain ⟨hpast, -, -⟩ := hbefore.cut
    exact .inr ⟨past, y, later, query', given, put.now, rfl, hy, hsame, asked_of_run hpast hwait,
      hspares, tells_of_kept hkept hclock hlive⟩

/-- The name that two partitions look up. -/
def exampleQuery (b : UInt8) : ResolveQuery :=
  ⟨ResolvingCoordinator.partitionOf b, "a.io".toList, .a, .standard⟩

/-- Two partitions ask for one name, and are given different answers. The second is dropped, and
the first asks again ten seconds later. -/
def exampleEvents : List Event :=
  [.resolve true (exampleQuery 1).partitionKey (exampleQuery 1).qname .a .standard (0, 0),
    .resolve true (exampleQuery 2).partitionKey (exampleQuery 2).qname .a .standard (1, 1),
    .answered (exampleQuery 1) (.ok ⟨[.a (.replicate 4 93)], 300⟩) 5,
    .answered (exampleQuery 2) (.ok ⟨[.a (.replicate 4 8)], 300⟩) 6,
    .dropPartition (exampleQuery 2).partitionKey,
    .resolve true (exampleQuery 1).partitionKey (exampleQuery 1).qname .a .standard
      (10000000000, 10000000000)]

/-- What a step tells that looks up the name for the first partition. -/
def exampleLookup (x : Step Resolving Event) : Lookup :=
  (x.pre.coordinator.resolveStart true (exampleQuery 1).partitionKey (exampleQuery 1).qname .a
    .standard (10000000000, 10000000000)).1

theorem exists_exampleRun : ∃ s x₁ x₂ x₃ x₄ x₅ x₆,
    Run (fun _ => .replicate 32 0) 0 [x₁, x₂, x₃, x₄, x₅, x₆] s ∧
      [x₁, x₂, x₃, x₄, x₅, x₆].map Step.input = exampleEvents ∧
      x₃.pre.cached (exampleQuery 1) = none ∧
      exampleLookup x₆ = .returned (.ok ⟨[.a (.replicate 4 93)], 290⟩) := by
  have hexec : (Transition.exec (step fun _ => .replicate 32 0) (new 0) exampleEvents).any
      (fun p => decide ((p.1[2]?.map fun x => x.pre.cached (exampleQuery 1)) = some none ∧
        p.1[5]?.map exampleLookup =
          some (.returned (.ok ⟨[.a (.replicate 4 93)], 290⟩)))) = true := by
    decide +kernel
  obtain ⟨tr, s, hrun, hinputs, htest⟩ := Transition.exists_run_where hexec
  obtain ⟨hcached, hlookup⟩ := of_decide_eq_true htest
  have hlen : tr.length = 6 := by
    rw [← List.length_map Step.input, hinputs]
    rfl
  obtain ⟨x₁, x₂, x₃, x₄, x₅, x₆, rfl⟩ : ∃ x₁ x₂ x₃ x₄ x₅ x₆, tr = [x₁, x₂, x₃, x₄, x₅, x₆] := by
    rcases tr with - | ⟨x₁, - | ⟨x₂, - | ⟨x₃, - | ⟨x₄, - | ⟨x₅, - | ⟨x₆, - | ⟨x₇, tr⟩⟩⟩⟩⟩⟩⟩ <;>
      first
      | exact ⟨_, _, _, _, _, _, rfl⟩
      | simp at hlen
  refine ⟨s, x₁, x₂, x₃, x₄, x₅, x₆, hrun, hinputs, ?_, ?_⟩
  · simpa using hcached
  · simpa using hlookup

/-- The first partition is told its own answer. -/
theorem answers_stem_example : ∃ tr s x past y later query' given time,
    Run (fun _ => .replicate 32 0) 0 tr s ∧ tr = past ++ y :: later ++ [x] ∧
      y.input = .answered query' given time ∧ SameQuestion query' (exampleQuery 1) ∧
      (∃ z ∈ past, Asks query' z) ∧ (∀ z ∈ later, Spares (exampleQuery 1) z) ∧
      Tells given time (10000000000, 10000000000) (.ok ⟨[.a (.replicate 4 93)], 290⟩) := by
  obtain ⟨s, x₁, x₂, x₃, x₄, x₅, x₆, hrun, hinputs, -, hlookup⟩ := exists_exampleRun
  have hx : x₆.input = .resolve true (exampleQuery 1).partitionKey (exampleQuery 1).qname
      (exampleQuery 1).qtype (exampleQuery 1).mode (10000000000, 10000000000) :=
    Option.some.inj (congrArg (fun l => l[5]?) hinputs)
  have hsplit : [x₁, x₂, x₃, x₄, x₅, x₆] = [x₁, x₂, x₃, x₄, x₅] ++ x₆ :: [] := rfl
  rcases answers_stem hrun hsplit hx hlookup with ⟨hresolver, -⟩ |
    ⟨past, y, later, query', given, time, hpast, hstem⟩
  · cases hresolver
  · refine ⟨_, s, x₆, past, y, later, query', given, time, hrun, ?_, hstem⟩
    rw [← hpast]
    rfl

/-! ### An answer stays -/

/-- The event keeps an answer for a partition. -/
def keeps (partition : PartitionKey) : Event → Bool
  | .answered query outcome _ => query.partitionKey = partition && outcome.isCacheable
  | _ => false

/-- The number of answers that are kept for a partition. -/
def keptFor (partition : PartitionKey) (tr : List (Step Resolving Event)) : ℕ :=
  tr.countP fun x => keeps partition x.input

/-- **The answer is in its place** after a number of others were kept: it may be given up only
when there are as many of them as a partition has places. -/
def InPlace (query : ResolveQuery) (entry : CacheEntry) (later : ℕ) (s : Resolving) : Prop :=
  ∃ part, s.coordinator.dnsCache.inner.lookup query.partitionKey = some part ∧
    part.entries.lookup (query.qname, query.qtype.typeCode) = some entry ∧
    maxEntriesPerPartition ≤
      part.grace maxEntriesPerPartition (query.qname, query.qtype.typeCode) + later + 1

theorem bounded_step (h : s.step sha256 i = some s') (hbound : s.coordinator.dnsCache.Bounded) :
    s'.coordinator.dnsCache.Bounded := by
  cases i with
  | resolve hasResolver partition qname qtype mode clock =>
    obtain ⟨-, -, -, hcache, -⟩ := step_resolve h
    rw [hcache]
    exact hbound.get _ _ _ _
  | answered query outcome now =>
    obtain ⟨-, -, -, -, hcache⟩ := step_answered h
    rw [hcache]
    split
    · exact hbound.insert _ _ _ _
    · exact hbound
  | abandoned query => rwa [step_abandoned h]
  | route met req => rwa [← Option.some.inj h]
  | dropPartition key =>
    rw [← Option.some.inj h]
    exact hbound.dropPartition key

theorem bounded_of_run (hrun : Run sha256 start tr s) : s.coordinator.dnsCache.Bounded :=
  hrun.invariant (I := fun _ s => s.coordinator.dnsCache.Bounded)
    (fun _ _ hpart => by cases hpart) fun _ _ _ _ _ ih hstep => bounded_step hstep ih

/-- An answer to a query that had none has all the places of its partition before it. -/
theorem inPlace_of_answered (h : s.step sha256 (.answered query outcome now) = some s')
    (hkept : kept outcome now = some put) (hnew : s.cached query = none) :
    InPlace query put.cached 0 s' := by
  obtain ⟨-, -, -, -, hcache⟩ := step_answered h
  rw [hkept] at hcache
  have hroom := Fifo.size_evict (by decide : 0 < maxEntriesPerPartition)
    ((s.coordinator.dnsCache.inner.lookup query.partitionKey).getD .empty)
  refine ⟨_, by rw [hcache]; exact DnsCache.lookup_insert _ _ _ _ _, Fifo.lookup_insert _ _ _, ?_⟩
  rw [Fifo.grace_insert_of_notMem ?_ hroom]
  · decide
  · intro hmem
    obtain ⟨entry, hentry⟩ := HashMap.mem_iff_lookup.mp ((Fifo.mem_iff _ _).mp hmem)
    have hbefore := Fifo.lookup_of_lookup_evict hentry
    rw [cached, DnsCache.entryFor] at hnew
    cases hpart : s.coordinator.dnsCache.inner.lookup query.partitionKey with
    | none =>
      rw [hpart] at hbefore
      cases hbefore
    | some part =>
      rw [hpart] at hnew hbefore
      cases hnew.symm.trans hbefore

/-- **An event leaves an answer in its place** that it spares, as long as it has not expired and
there are places left. -/
theorem inPlace_step (h : s.step sha256 i = some s') (hbound : s.coordinator.dnsCache.Bounded)
    {later : ℕ} (hplace : InPlace query entry later s) (hspares : Spares query ⟨s, i, s'⟩)
    (hlater : later + (keeps query.partitionKey i).toNat < maxEntriesPerPartition)
    (hlive : s'.now < entry.expiresAt) :
    InPlace query entry (later + (keeps query.partitionKey i).toNat) s' := by
  obtain ⟨part, hpart, hentry, hgrace⟩ := hplace
  have hsize := hbound _ _ hpart
  cases i with
  | resolve hasResolver partition qname qtype mode clock =>
    obtain ⟨-, hclock, hnow, hcache, -⟩ := step_resolve h
    rcases DnsCache.get_cases s.coordinator.dnsCache partition qname qtype.typeCode clock with
      heq | ⟨part', entry', hpart', hentry', hexpired, heq⟩
    · rw [heq] at hcache
      exact ⟨part, by rw [hcache]; exact hpart, hentry, hgrace⟩
    · rw [heq] at hcache
      by_cases hsame : partition = query.partitionKey
      · subst hsame
        obtain rfl := Option.some.inj (hpart.symm.trans hpart')
        -- what has expired is another answer
        have hne : (qname, qtype.typeCode) ≠ (query.qname, query.qtype.typeCode) := by
          intro hkey
          rw [hkey, hentry] at hentry'
          obtain rfl := Option.some.inj hentry'
          omega
        refine ⟨_, by rw [hcache]; exact AList.lookup_insert _,
          HashMap.lookup_erase_eq_some_iff.mpr ⟨hne.symm, hentry⟩, ?_⟩
        have hmore := Fifo.grace_erase hne hsize
        exact hgrace.trans (Nat.succ_le_succ (Nat.add_le_add_right hmore _))
      · exact ⟨part, by rw [hcache]; exact (AList.lookup_insert_ne (Ne.symm hsame)).trans hpart,
          hentry, hgrace⟩
  | answered query' outcome now =>
    obtain ⟨-, -, -, -, hcache⟩ := step_answered h
    have hkeeps : (keeps query.partitionKey (.answered query' outcome now)) =
        (decide (query'.partitionKey = query.partitionKey) && (kept outcome now).isSome) := by
      rw [isSome_kept, keeps]
    cases hkept : kept outcome now with
    | none =>
      rw [hkept] at hcache hkeeps
      rw [hkeeps, Option.isSome_none, Bool.and_false]
      exact ⟨part, by rw [hcache]; exact hpart, hentry, hgrace⟩
    | some put =>
      rw [hkept] at hcache hkeeps
      by_cases hsame : query'.partitionKey = query.partitionKey
      · rw [hkeeps, decide_eq_true hsame] at hlater ⊢
        have hne : (query'.qname, query'.qtype.typeCode) ≠
            (query.qname, query.qtype.typeCode) := by
          intro hkey
          obtain ⟨hqname, hqtype⟩ := Prod.mk.inj hkey
          refine hspares.2 query' outcome now ⟨hsame, hqname, typeCode_inj hqtype⟩ ?_ rfl
          rw [← isSome_kept outcome now, hkept]
          rfl
        have hlt : later + 1 < maxEntriesPerPartition := hlater
        obtain ⟨hstays, hless⟩ := Fifo.grace_put (by decide) hsize hentry (by omega) hne put.cached
        refine ⟨_, ?_, hstays, ?_⟩
        · rw [hcache, hsame, DnsCache.lookup_insert, hpart]
          rfl
        · change maxEntriesPerPartition ≤ _ + (later + 1) + 1
          omega
      · rw [hkeeps, decide_eq_false hsame]
        refine ⟨part, ?_, hentry, hgrace⟩
        rw [hcache]
        exact (DnsCache.lookup_insert_of_ne (Ne.symm hsame) _ _ _ _).trans hpart
  | abandoned query' =>
    obtain rfl := step_abandoned h
    exact ⟨part, hpart, hentry, hgrace⟩
  | route met req =>
    obtain rfl := Option.some.inj h
    exact ⟨part, hpart, hentry, hgrace⟩
  | dropPartition key =>
    obtain rfl := Option.some.inj h
    have hne : query.partitionKey ≠ key := fun heq => hspares.1 (by rw [heq])
    exact ⟨part, (DnsCache.lookup_dropPartition_of_ne hne _).trans hpart, hentry, hgrace⟩

theorem keptFor_snoc (partition : PartitionKey) (x : Step Resolving Event) :
    keptFor partition (tr ++ [x]) = keptFor partition tr + (keeps partition x.input).toNat := by
  rw [keptFor, List.countP_append, List.countP_singleton, ← keptFor]
  cases keeps partition x.input <;> rfl

theorem inPlace_of_run (hrun : Run sha256 start tr s) (hplace : InPlace query entry 0 s)
    {between : List (Step Resolving Event)}
    (hbetween : Transition.Run (Transition.ofFun (step sha256)) s between s')
    (hspares : ∀ z ∈ between, Spares query z)
    (hfew : keptFor query.partitionKey between < maxEntriesPerPartition)
    (hlive : s'.now < entry.expiresAt) :
    InPlace query entry (keptFor query.partitionKey between) s' := by
  revert hfew hlive
  refine hbetween.invariant_where (C := Spares query) (I := fun between s' =>
    keptFor query.partitionKey between < maxEntriesPerPartition → s'.now < entry.expiresAt →
      InPlace query entry (keptFor query.partitionKey between) s') (fun _ _ => hplace) ?_ hspares
  intro between s₁ i s₂ hupto ih hstep hspared hfew hlive
  rw [keptFor_snoc] at hfew ⊢
  have hbound := bounded_of_run (hrun.trans hupto)
  have hbefore := ih (Nat.lt_of_le_of_lt (Nat.le_add_right _ _) hfew)
    ((now_le_step hstep).trans_lt hlive)
  exact inPlace_step hstep hbound hbefore hspared hfew hlive

/-- **An answer that may be kept stays**: if the query had none before, it is told to whoever
asks the same in its partition, until its time is over, as long as the partition is not dropped,
no answer to the same question comes in, and fewer than 256 others are kept for the partition. -/
theorem answer_stays (hrun : Run sha256 start tr s)
    {before between after : List (Step Resolving Event)} {x y : Step Resolving Event}
    (htr : tr = before ++ x :: (between ++ y :: after)) {time : ℕ} {hasResolver : Bool}
    {mode : Mode}
    (hx : x.input = .answered query given time) (hgiven : given.isCacheable = true)
    (hnew : x.pre.cached query = none) (hspares : ∀ z ∈ between, Spares query z)
    (hfew : keptFor query.partitionKey between < maxEntriesPerPartition)
    (hy : y.input = .resolve hasResolver query.partitionKey query.qname query.qtype mode clock)
    (hlive : clock.1 < time + lifetime given * nanosPerSec) :
    ∃ told, (y.pre.coordinator.resolveStart hasResolver query.partitionKey query.qname query.qtype
      mode clock).1 = .returned told ∧ Tells given time clock told := by
  subst htr
  obtain ⟨hbefore, hstep, hrest⟩ := hrun.cut
  obtain ⟨hbetween, hstep', -⟩ := hrest.cut
  have hupto := hbefore.snoc hstep
  rw [hx] at hstep
  rw [hy] at hstep'
  obtain ⟨hnow, hclock, -⟩ := step_resolve hstep'
  obtain ⟨put, hkept⟩ : ∃ put, kept given time = some put := by
    rw [← Option.isSome_iff_exists, isSome_kept, hgiven]
  obtain ⟨rfl, httl⟩ := put_of_kept hkept
  have hexpires : clock.1 < put.cached.expiresAt := by
    rw [Put.cached, httl]
    exact hlive
  obtain ⟨part, hpart, hentry, -⟩ := inPlace_of_run hupto (inPlace_of_answered hstep hkept hnew)
    hbetween hspares hfew (hnow.trans_lt hexpires)
  have hcached : y.pre.cached { query with mode := mode } = some put.cached :=
    DnsCache.entryFor_eq_some_iff.mpr ⟨part, hpart, hentry⟩
  exact ⟨_, told_of_cached hcached hexpires hasResolver, tells_of_kept hkept hclock hexpires⟩

/-- The first partition is told its answer after the other has been dropped. -/
theorem answer_stays_example : ∃ s x₁ x₂ x₃ x₄ x₅ x₆ told,
    Run (fun _ => .replicate 32 0) 0 [x₁, x₂, x₃, x₄, x₅, x₆] s ∧
      exampleLookup x₆ = .returned told ∧
      Tells (.ok ⟨[.a (.replicate 4 93)], 300⟩) 5 (10000000000, 10000000000) told := by
  obtain ⟨s, x₁, x₂, x₃, x₄, x₅, x₆, hrun, hinputs, hnew, -⟩ := exists_exampleRun
  have hx₃ : x₃.input = .answered (exampleQuery 1) (.ok ⟨[.a (.replicate 4 93)], 300⟩) 5 :=
    Option.some.inj (congrArg (fun l => l[2]?) hinputs)
  have hx₄ : x₄.input = .answered (exampleQuery 2) (.ok ⟨[.a (.replicate 4 8)], 300⟩) 6 :=
    Option.some.inj (congrArg (fun l => l[3]?) hinputs)
  have hx₅ : x₅.input = .dropPartition (exampleQuery 2).partitionKey :=
    Option.some.inj (congrArg (fun l => l[4]?) hinputs)
  have hx₆ : x₆.input = .resolve true (exampleQuery 1).partitionKey (exampleQuery 1).qname
      (exampleQuery 1).qtype .standard (10000000000, 10000000000) :=
    Option.some.inj (congrArg (fun l => l[5]?) hinputs)
  have hother : (exampleQuery 2).partitionKey ≠ (exampleQuery 1).partitionKey := by decide
  have hsplit : [x₁, x₂, x₃, x₄, x₅, x₆] = [x₁, x₂] ++ x₃ :: ([x₄, x₅] ++ x₆ :: []) := rfl
  have hspares : ∀ z ∈ [x₄, x₅], Spares (exampleQuery 1) z := by
    intro z hz
    rcases List.mem_pair.mp hz with rfl | rfl
    · rw [Spares, hx₄]
      refine ⟨nofun, fun query' outcome now hsame _ heq => hother ?_⟩
      obtain ⟨rfl, -, -⟩ := Event.answered.inj heq
      exact hsame.1
    · rw [Spares, hx₅]
      exact ⟨fun heq => hother (Event.dropPartition.inj heq), fun _ _ _ _ _ => nofun⟩
  have hfew : keptFor (exampleQuery 1).partitionKey [x₄, x₅] < maxEntriesPerPartition := by
    rw [keptFor, List.countP_cons, List.countP_cons, hx₄, hx₅]
    decide
  obtain ⟨told, htold, htells⟩ :=
    answer_stays hrun hsplit hx₃ rfl hnew hspares hfew hx₆ (by decide)
  exact ⟨s, x₁, x₂, x₃, x₄, x₅, x₆, told, hrun, htold, htells⟩

end Resolving

end Network

end DevBrowse
