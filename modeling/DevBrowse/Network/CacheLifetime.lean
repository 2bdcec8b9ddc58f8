import DevBrowse.Lib.Transition
import DevBrowse.Network.Resolution

/-!
# How long DNS answers live

The state of a partition is dropped with the partition, and its DNS answers with it. But a
partition also stops being tracked when a route for another one takes its place, and there
its answers stay (`DevBrowse.Network.ResolvingCoordinator.not_kept_evicted`); and a name may be
resolved for a partition that is not tracked at all. So the answers of a partition live as
long as it is tracked, and there are no more partitions with answers than may be tracked,
exactly if no partition that is given up holds answers and no answer is kept where as many
others hold answers already (`DevBrowse.Network.ResolvingCoordinator.lifetimes_iff`). The
latter is so if names are resolved for partitions that are tracked only
(`DevBrowse.Network.ResolvingCoordinator.fits_of_tracked`).
-/

namespace DevBrowse

namespace Network

open Transition (Step)

open Dns (Outcome QueryType ResolveQuery)

variable {sha256 : List UInt8 → Vector UInt8 32} {met : Encounter} {req : Request}

namespace NetworkCoordinator

variable {c : NetworkCoordinator}

/-- The request gets as far as to use its partition. -/
def UsesPartition (sha256 : List UInt8 → Vector UInt8 32) (met : Encounter) (req : Request) :
    Prop :=
  authorize sha256 req = .ok req.declaredKey ∧
    enforceHttpsOnly req.url req.downgradeApproved = .ok req.url ∧
    (∃ host, parseHost req.url = some host ∧ met.atMatch.matchHost host = none) ∧
    met.isCancelled 3 = false

/-- A request that is cancelled when it is looked at last does not. -/
theorem route_of_cancelled (hcancelled : met.isCancelled 3 = true)
    (hauth : authorize sha256 req = .ok req.declaredKey)
    (henforce : enforceHttpsOnly req.url req.downgradeApproved = .ok req.url) {host : Text}
    (hhost : parseHost req.url = some host) (hmatch : met.atMatch.matchHost host = none) :
    (route sha256 c met req).coordinator = c := by
  simp only [route, hauth, henforce, hhost, hmatch, hcancelled, if_true]
  split
  · rfl
  · split
    · rfl
    · split
      · rfl
      · rfl

/-- **What a route does to the partitions in use.** -/
theorem coordinator_route (sha256 : List UInt8 → Vector UInt8 32) (c : NetworkCoordinator)
    (met : Encounter) (req : Request) :
    (UsesPartition sha256 met req ∧ (route sha256 c met req).coordinator =
        { c with egress := c.egress.getOrInsertDefault req.declaredKey }) ∨
      ¬ UsesPartition sha256 met req ∧ (route sha256 c met req).coordinator = c := by
  by_cases huses : UsesPartition sha256 met req
  · refine Or.inl ⟨huses, ?_⟩
    obtain ⟨hauth, henforce, ⟨host, hhost, hmatch⟩, hlast⟩ := huses
    have hcheck : ∀ check ≤ 3, met.isCancelled check = false := fun check hle => by
      simp only [Encounter.isCancelled, decide_eq_false_iff_not] at hlast ⊢
      omega
    simp [route, hauth, henforce, hhost, hmatch, hcheck]
  · refine Or.inr ⟨huses, ?_⟩
    rcases route_cases sha256 c met req with ⟨e, heq, -⟩ | ⟨host, kind, -, -, -, heq⟩ |
      ⟨host, hauth, henforce, hhost, hmatch, -⟩
    · rw [heq]
    · rw [heq]
    · refine route_of_cancelled ?_ hauth henforce hhost hmatch
      by_contra hlast
      exact huses ⟨hauth, henforce, ⟨host, hhost, hmatch⟩, by simpa using hlast⟩

end NetworkCoordinator

namespace ResolvingCoordinator

/-- The calls. -/
inductive Call where
  /-- `route` is called. -/
  | route (met : Encounter) (req : Request)
  /-- `resolve` is called, with the resolver that is wired in, as it answers now. -/
  | resolve (resolver : Option (ResolveQuery → Outcome)) (partition : PartitionKey)
    (qname : Text) (qtype : QueryType) (mode : Mode) (clock : ResolveClock)
  /-- `drop_partition` is called. -/
  | dropPartition (key : PartitionKey)

/-- **One call.** -/
def call (sha256 : List UInt8 → Vector UInt8 32) (c : ResolvingCoordinator) :
    Call → ResolvingCoordinator
  | .route met req => c.route sha256 met req
  | .resolve resolver partition qname qtype mode clock =>
    (c.resolve resolver partition qname qtype mode clock).2
  | .dropPartition key => c.dropPartition key

/-- The runs of calls. -/
abbrev Run (sha256 : List UInt8 → Vector UInt8 32) :
    List (Step ResolvingCoordinator Call) → ResolvingCoordinator → Prop :=
  Transition.Run (Transition.ofFun fun c i => some (c.call sha256 i)) bootstrap

/-- The partition is tracked. -/
def Tracks (c : ResolvingCoordinator) (key : PartitionKey) : Prop :=
  key ∈ c.coordinator.egress.map

/-- **What stops being tracked has no answers left.** -/
def NotOutlived (x : Step ResolvingCoordinator Call) : Prop :=
  ∀ key, x.pre.Tracks key → ¬ x.post.Tracks key → x.post.dnsCache.lenFor key = 0

/-- There are not more partitions with answers than may be tracked. -/
def Bounded (c : ResolvingCoordinator) : Prop := c.dnsCache.holders.length ≤ maxPartitions

/-- **No partition with answers is given up**: where a route uses a partition that is not
tracked and as many are tracked as may be, the one used longest ago holds no answers. -/
def Cascades (sha256 : List UInt8 → Vector UInt8 32) (x : Step ResolvingCoordinator Call) : Prop :=
  ∀ met req evicted, x.input = .route met req →
    NetworkCoordinator.UsesPartition sha256 met req → ¬ x.pre.Tracks req.declaredKey →
    x.pre.coordinator.egress.cap ≤ x.pre.coordinator.egress.order.length →
    x.pre.coordinator.egress.order.head? = some evicted → x.pre.dnsCache.lenFor evicted = 0

/-- The resolve keeps an answer: the name is not cached, and the resolver comes back with what
may be. -/
def Keeps (c : ResolvingCoordinator) (resolver : Option (ResolveQuery → Outcome))
    (partition : PartitionKey) (qname : Text) (qtype : QueryType) (mode : Mode)
    (clock : ResolveClock) : Prop :=
  (c.dnsCache.get partition qname qtype.typeCode (clock.atExpiry, clock.atHit)).1 = none ∧
    ∃ r, resolver = some r ∧ (r ⟨partition, qname, qtype, mode⟩).isCacheable = true

/-- **No answer is kept for one partition too many**: where a resolve keeps one, fewer other
partitions hold answers than may be tracked. -/
def Fits (x : Step ResolvingCoordinator Call) : Prop :=
  ∀ resolver partition qname qtype mode clock,
    x.input = .resolve resolver partition qname qtype mode clock →
    Keeps x.pre resolver partition qname qtype mode clock →
    (x.pre.dnsCache.holders.erase partition).length < maxPartitions

variable {c : ResolvingCoordinator} {i : Call}
  {tr : List (Step ResolvingCoordinator Call)}

/-! ### One call -/

/-- What a resolve does: it takes answers out at most, or it keeps one. -/
theorem resolve_cases (c : ResolvingCoordinator) (resolver : Option (ResolveQuery → Outcome))
    (partition : PartitionKey) (qname : Text) (qtype : QueryType) (mode : Mode)
    (clock : ResolveClock) :
    (c.resolve resolver partition qname qtype mode clock).2.coordinator = c.coordinator ∧
    ((¬ Keeps c resolver partition qname qtype mode clock ∧ ∀ key,
      (c.resolve resolver partition qname qtype mode clock).2.dnsCache.lenFor key ≠ 0 →
        c.dnsCache.lenFor key ≠ 0) ∨
    (Keeps c resolver partition qname qtype mode clock ∧
      (c.resolve resolver partition qname qtype mode clock).2.dnsCache.lenFor partition ≠ 0 ∧
      ∀ key, key ≠ partition →
        (c.resolve resolver partition qname qtype mode clock).2.dnsCache.inner.lookup key =
          c.dnsCache.inner.lookup key)) := by
  have hlen : ∀ key, (c.dnsCache.get partition qname qtype.typeCode
      (clock.atExpiry, clock.atHit)).2.lenFor key ≠ 0 → c.dnsCache.lenFor key ≠ 0 :=
    fun key => Dns.DnsCache.lenFor_get_ne_zero
  have hother : ∀ key, key ≠ partition → (c.dnsCache.get partition qname qtype.typeCode
      (clock.atExpiry, clock.atHit)).2.inner.lookup key = c.dnsCache.inner.lookup key :=
    fun key hkey => Dns.DnsCache.lookup_get_of_ne hkey _ _ _ _
  rw [resolve, Keeps]
  rcases hget : c.dnsCache.get partition qname qtype.typeCode (clock.atExpiry, clock.atHit) with
    ⟨cached, cache⟩
  rw [hget] at hlen hother
  cases cached with
  | some cached => exact ⟨rfl, Or.inl ⟨by simp, hlen⟩⟩
  | none =>
    cases resolver with
    | none => exact ⟨rfl, Or.inl ⟨by simp, hlen⟩⟩
    | some r =>
      refine ⟨rfl, ?_⟩
      rcases keep_cases cache partition qname qtype.typeCode (r ⟨partition, qname, qtype, mode⟩)
        clock.atStore with ⟨hnot, heq⟩ | ⟨hcacheable, hne⟩
      · refine Or.inl ⟨by simp [hnot], ?_⟩
        simp only [heq]
        exact hlen
      · refine Or.inr ⟨⟨rfl, r, rfl, hcacheable⟩, hne, fun key hkey => ?_⟩
        exact (lookup_keep_of_ne hkey).trans (hother key hkey)

/-- One call lets no answers outlive their partition if and only if it gives up no partition
with answers. -/
theorem notOutlived_iff (c : ResolvingCoordinator) (i : Call) :
    NotOutlived ⟨c, i, c.call sha256 i⟩ ↔ Cascades sha256 ⟨c, i, c.call sha256 i⟩ := by
  cases i with
  | route met req =>
    rcases c.coordinator.coordinator_route sha256 met req with ⟨huses, heq⟩ | ⟨hnot, heq⟩
    · constructor
      · rintro hlives met' req' evicted ⟨⟩ - hnew hfull hhead
        have hmem : evicted ∈ c.coordinator.egress.map :=
          (c.coordinator.egress.mem_iff evicted).mp (List.mem_of_head? hhead)
        refine hlives evicted hmem ?_
        show evicted ∉ (c.coordinator.route sha256 met req).coordinator.egress.map
        rw [heq]
        exact (PartitionLru.notMem_getOrInsertDefault_iff hmem).mpr ⟨hnew, hfull, hhead⟩
      · intro hcascade key hkey hgone
        have hgone' : key ∉ (c.coordinator.route sha256 met req).coordinator.egress.map := hgone
        rw [heq] at hgone'
        obtain ⟨hnew, hfull, hhead⟩ := (PartitionLru.notMem_getOrInsertDefault_iff hkey).mp hgone'
        exact hcascade met req key rfl huses hnew hfull hhead
    · refine iff_of_true (fun key hkey hgone => absurd hkey ?_) ?_
      · have hgone' : key ∉ (c.coordinator.route sha256 met req).coordinator.egress.map := hgone
        rwa [heq] at hgone'
      · rintro met' req' evicted ⟨⟩ huses
        exact absurd huses hnot
  | resolve resolver partition qname qtype mode clock =>
    have hkeep := (resolve_cases c resolver partition qname qtype mode clock).1
    refine iff_of_true (fun key hkey hgone => absurd hkey ?_) ?_
    · have hgone' : key ∉ (c.resolve resolver partition qname qtype mode
        clock).2.coordinator.egress.map := hgone
      rwa [hkeep] at hgone'
    · rintro met' req' evicted ⟨⟩
  | dropPartition key =>
    refine iff_of_true (fun key' hkey hgone => ?_) ?_
    · have hgone' : key' ∉ c.coordinator.egress.map.erase key := hgone
      obtain rfl : key' = key := by
        by_contra hne
        exact hgone' (AList.mem_erase.mpr ⟨hne, hkey⟩)
      exact Dns.DnsCache.lenFor_dropPartition _ _
    · rintro met' req' evicted ⟨⟩

/-- One call keeps the number of partitions with answers within its bound if and only if it
keeps no answer for one partition too many. -/
theorem bounded_call_iff (h : Bounded c) : Bounded (c.call sha256 i) ↔
    Fits ⟨c, i, c.call sha256 i⟩ := by
  cases i with
  | route met req =>
    refine iff_of_true h ?_
    rintro resolver partition qname qtype mode clock ⟨⟩
  | resolve resolver partition qname qtype mode clock =>
    rcases (resolve_cases c resolver partition qname qtype mode clock).2 with ⟨hnot, hlen⟩ |
      ⟨hkeeps, hne, hother⟩
    · refine iff_of_true ((Dns.DnsCache.length_holders_le hlen).trans h) ?_
      rintro resolver' partition' qname' qtype' mode' clock' ⟨⟩ hkeeps
      exact absurd hkeeps hnot
    · rw [Bounded, call, Dns.DnsCache.length_holders_of_ne_zero hne hother]
      constructor
      · rintro hlt resolver' partition' qname' qtype' mode' clock' ⟨⟩ -
        exact hlt
      · exact fun hfits => hfits resolver partition qname qtype mode clock rfl hkeeps
  | dropPartition key =>
    refine iff_of_true ?_ ?_
    · exact (Dns.DnsCache.length_holders_le fun key' hne =>
        (Dns.DnsCache.lenFor_dropPartition_ne_zero hne).2).trans h
    · rintro resolver partition qname qtype mode clock ⟨⟩

/-! ### Whole runs -/

/-- **When DNS answers do not outlive their partitions**: after every call of a run what has
stopped being tracked has no answers left and there are not more partitions with answers than
may be tracked, exactly if no route gives up a partition with answers and no resolve keeps
one for one partition too many. -/
theorem lifetimes_iff (hrun : Run sha256 tr c) :
    (∀ x ∈ tr, NotOutlived x ∧ Bounded x.post) ↔ ∀ x ∈ tr, Cascades sha256 x ∧ Fits x := by
  have hlives : ∀ x ∈ tr, NotOutlived x ↔ Cascades sha256 x := by
    intro x hx
    obtain ⟨before, after, -, -, hstep, -⟩ := hrun.of_mem hx
    obtain ⟨pre, i, post⟩ := x
    have hpost : pre.call sha256 i = post := Option.some.inj hstep
    rw [← hpost]
    exact notOutlived_iff pre i
  have hbounded : (∀ x ∈ tr, Bounded x.post) ↔ ∀ x ∈ tr, Fits x := by
    refine hrun.forall_post_iff (Nat.zero_le _) ?_
    rintro - pre i - - hpre ⟨⟩
    exact bounded_call_iff hpre
  constructor
  · intro h x hx
    exact ⟨(hlives x hx).mp (h x hx).1, hbounded.mp (fun y hy => (h y hy).2) x hx⟩
  · intro h x hx
    exact ⟨(hlives x hx).mpr (h x hx).1, hbounded.mpr (fun y hy => (h y hy).2) x hx⟩

/-- A hash that tells contexts apart by their last byte. -/
def exampleDigest (bytes : List UInt8) : Vector UInt8 32 :=
  .replicate 32 (bytes.getLastD 0)

/-- The partition of a site in a context. -/
def examplePartition (context : UInt8) : PartitionKey :=
  .derive exampleDigest "a.io".toList (.splat 1) (.splat context)

/-- A request of the site in a context. -/
def exampleContextRequest (context : UInt8) : Request where
  siteOrigin := "a.io".toList
  identityProfileId := .splat 1
  contextId := .splat context
  declaredKey := examplePartition context
  mode := .standard
  url := "https://a.io".toList
  method := "GET".toList
  headers := []
  body := []
  downgradeApproved := false

/-- The request is routed, with nothing on the blocklist. -/
def exampleRoute (context : UInt8) : Call :=
  .route ⟨4, .empty, .empty⟩ (exampleContextRequest context)

/-- The site is resolved in the first context. -/
def exampleResolve : Call :=
  .resolve (some fun _ => .ok ⟨[.a #v[198, 41, 0, 4]], 300⟩) (examplePartition 0)
    "a.io".toList .a .standard ⟨0, 0, 0⟩

/-- A partition is tracked, holds an answer, and is dropped. -/
theorem lifetimes_iff_dropped :
    ∃ tr c, Run exampleDigest tr c ∧
      tr.map Step.input = [exampleRoute 0, exampleResolve, .dropPartition (examplePartition 0)] ∧
      ((∀ x ∈ tr, NotOutlived x ∧ Bounded x.post) ↔
        ∀ x ∈ tr, Cascades exampleDigest x ∧ Fits x) := by
  have hexec : (Transition.exec (fun c i => some (c.call exampleDigest i)) bootstrap
      [exampleRoute 0, exampleResolve, .dropPartition (examplePartition 0)]).isSome = true := rfl
  obtain ⟨tr, c, hrun, hinputs⟩ := Transition.exists_run hexec
  exact ⟨tr, c, hrun, hinputs, lifetimes_iff hrun⟩

/-- **Answers that outlive their partition**: the partition is tracked and holds an answer,
and then sixteen others are used. -/
theorem not_kept_evicted :
    ∃ tr c, Run exampleDigest tr c ∧
      tr.map Step.input = exampleRoute 0 :: exampleResolve ::
        (List.range 16).map (fun n => exampleRoute (.ofNat (n + 1))) ∧
      ∃ x ∈ tr, ¬ NotOutlived x := by
  have hexec : (Transition.exec (fun c i => some (c.call exampleDigest i)) bootstrap
      (exampleRoute 0 :: exampleResolve ::
        (List.range 16).map fun n => exampleRoute (.ofNat (n + 1)))).any (fun p =>
      p.1.getLast?.any fun x => decide (examplePartition 0 ∈ x.pre.coordinator.egress.map ∧
        examplePartition 0 ∉ x.post.coordinator.egress.map ∧
        x.post.dnsCache.lenFor (examplePartition 0) ≠ 0)) = true := by
    decide +kernel
  obtain ⟨tr, c, hrun, hinputs, htest⟩ := Transition.exists_run_where hexec
  obtain ⟨x, hx, hdecide⟩ := (Option.any_eq_true _ _).mp htest
  obtain ⟨hpre, hpost, hlen⟩ := of_decide_eq_true hdecide
  exact ⟨tr, c, hrun, hinputs, x, List.mem_of_getLast? hx, fun hlives => hlen (hlives _ hpre hpost)⟩

/-! ### Names that are resolved for tracked partitions -/

/-- A name is resolved for a partition that is tracked. -/
def ForTracked (x : Step ResolvingCoordinator Call) : Prop :=
  ∀ resolver partition qname qtype mode clock,
    x.input = .resolve resolver partition qname qtype mode clock → x.pre.Tracks partition

/-- Answers are cached for tracked partitions only, and not more are tracked than may be. -/
structure Nested (c : ResolvingCoordinator) : Prop where
  /-- What has answers is tracked. -/
  tracked : ∀ key, c.dnsCache.lenFor key ≠ 0 → c.Tracks key
  /-- The number of partitions that may be tracked. -/
  cap_eq : c.coordinator.egress.cap = maxPartitions
  /-- Not more are tracked. -/
  length_le : c.coordinator.egress.order.length ≤ maxPartitions

/-- A call leaves room for as many partitions as before. -/
theorem cap_call (c : ResolvingCoordinator) (i : Call) :
    (c.call sha256 i).coordinator.egress.cap = c.coordinator.egress.cap := by
  cases i with
  | route met req =>
    show (c.coordinator.route sha256 met req).coordinator.egress.cap = _
    rcases c.coordinator.coordinator_route sha256 met req with ⟨-, heq⟩ | ⟨-, heq⟩
    · rw [heq]
      exact PartitionLru.cap_getOrInsertDefault _ _
    · rw [heq]
  | resolve resolver partition qname qtype mode clock =>
    rw [call, (resolve_cases c resolver partition qname qtype mode clock).1]
  | dropPartition key => rfl

/-- No call tracks more partitions than there is room for. -/
theorem length_order_call_le (hcap : 0 < c.coordinator.egress.cap)
    (h : c.coordinator.egress.order.length ≤ c.coordinator.egress.cap) :
    (c.call sha256 i).coordinator.egress.order.length ≤ c.coordinator.egress.cap := by
  cases i with
  | route met req =>
    show (c.coordinator.route sha256 met req).coordinator.egress.order.length ≤ _
    rcases c.coordinator.coordinator_route sha256 met req with ⟨-, heq⟩ | ⟨-, heq⟩
    · rw [heq]
      exact PartitionLru.length_getOrInsertDefault_le hcap h _
    · rw [heq]
      exact h
  | resolve resolver partition qname qtype mode clock =>
    rw [call, (resolve_cases c resolver partition qname qtype mode clock).1]
    exact h
  | dropPartition key => exact (PartitionLru.length_remove_le _ _).trans h

/-- A call adds no partition to those with answers, but for one a name is resolved for. -/
theorem lenFor_call_ne_zero {key : PartitionKey}
    (hkey : (c.call sha256 i).dnsCache.lenFor key ≠ 0) :
    c.dnsCache.lenFor key ≠ 0 ∨ ∃ resolver qname qtype mode clock,
      i = .resolve resolver key qname qtype mode clock := by
  cases i with
  | route met req => exact Or.inl hkey
  | resolve resolver partition qname qtype mode clock =>
    rcases (resolve_cases c resolver partition qname qtype mode clock).2 with ⟨-, hlen⟩ |
      ⟨-, -, hother⟩
    · exact Or.inl (hlen key hkey)
    · by_cases hpart : key = partition
      · exact Or.inr ⟨resolver, qname, qtype, mode, clock, by rw [hpart]⟩
      · rw [call, Dns.DnsCache.lenFor, hother key hpart] at hkey
        exact Or.inl hkey
  | dropPartition key' => exact Or.inl (Dns.DnsCache.lenFor_dropPartition_ne_zero hkey).2

theorem Nested.call (h : Nested c) (hcascade : Cascades sha256 ⟨c, i, c.call sha256 i⟩)
    (htracked : ForTracked ⟨c, i, c.call sha256 i⟩) : Nested (c.call sha256 i) := by
  have hlives : NotOutlived ⟨c, i, c.call sha256 i⟩ := (notOutlived_iff c i).mpr hcascade
  constructor
  case tracked =>
    intro key hkey
    have hpre : c.Tracks key := by
      rcases lenFor_call_ne_zero hkey with hold | ⟨resolver, qname, qtype, mode, clock, rfl⟩
      · exact h.tracked key hold
      · exact htracked resolver key qname qtype mode clock rfl
    -- if it were not tracked any more it would have no answers left
    by_contra hgone
    exact hkey (hlives key hpre hgone)
  case cap_eq => exact (cap_call c i).trans h.cap_eq
  case length_le =>
    have hcap : 0 < c.coordinator.egress.cap := by
      rw [h.cap_eq]
      decide
    exact (length_order_call_le hcap (h.cap_eq.symm ▸ h.length_le)).trans h.cap_eq.le

theorem Nested.fits (h : Nested c) (htracked : ForTracked ⟨c, i, c.call sha256 i⟩) :
    Fits ⟨c, i, c.call sha256 i⟩ := by
  intro resolver partition qname qtype mode clock hinput hkeeps
  have hmem : partition ∈ c.coordinator.egress.order :=
    (c.coordinator.egress.mem_iff partition).mpr
      (htracked resolver partition qname qtype mode clock hinput)
  have hsub : c.dnsCache.holders.erase partition ⊆ c.coordinator.egress.order.erase partition := by
    intro key hkey
    rw [c.dnsCache.nodup_holders.mem_erase_iff, Dns.DnsCache.mem_holders] at hkey
    rw [c.coordinator.egress.nodup.mem_erase_iff, c.coordinator.egress.mem_iff]
    exact ⟨hkey.1, h.tracked key hkey.2⟩
  have hle := (List.subperm_of_subset (c.dnsCache.nodup_holders.erase partition) hsub).length_le
  have hpos := List.length_pos_of_mem hmem
  have hlen := h.length_le
  rw [List.length_erase_of_mem hmem] at hle
  show (c.dnsCache.holders.erase partition).length < maxPartitions
  omega

/-- **Names that are resolved for tracked partitions** only need partitions to take their
answers with them: then no answer is kept for one partition too many. -/
theorem fits_of_tracked (hrun : Run sha256 tr c)
    (h : ∀ x ∈ tr, Cascades sha256 x ∧ ForTracked x) : ∀ x ∈ tr, Fits x := by
  intro x hx
  obtain ⟨before, after, rfl, hbefore, hstep, -⟩ := hrun.of_mem hx
  have hnested : Nested x.pre := by
    refine hbefore.invariant_where (I := fun _ c => Nested c)
      (C := fun x => Cascades sha256 x ∧ ForTracked x) ?_ ?_
      fun y hy => h y (List.mem_append_left _ hy)
    · exact ⟨fun key hkey => absurd rfl hkey, rfl, Nat.zero_le _⟩
    · rintro - pre i - - hpre ⟨⟩ ⟨hcascade, htracked⟩
      exact hpre.call hcascade htracked
  obtain ⟨pre, i, post⟩ := x
  have hpost : pre.call sha256 i = post := Option.some.inj hstep
  have htracked := (h _ hx).2
  rw [← hpost] at htracked ⊢
  exact hnested.fits htracked

end ResolvingCoordinator

end Network

end DevBrowse
