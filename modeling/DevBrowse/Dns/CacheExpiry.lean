import DevBrowse.Dns.Cache
import DevBrowse.Lib.Transition

/-!
# How long an answer is good

Answers leave the DNS cache by being looked at too late, by having to make room, by being
replaced and with their partition. Whatever the order of calls, and whatever the clock says as
long as it does not go back, what is cached for a query is what was put last for it
(`DevBrowse.Dns.CacheClock.entry_of_run`): so it is given out before it expires only, and with
a time to live that, together with the time since, is not more than it was put with
(`DevBrowse.Dns.CacheClock.cache_expiry`).
-/

namespace DevBrowse

namespace Dns

open Network (NetworkError PartitionKey)

open Transition (Step)

variable {cache : DnsCache} {partition : PartitionKey} {qname : Text} {qtype : UInt16}
  {entry : CacheEntry} {clock : ℕ × ℕ}

namespace DnsCache

/-- What is cached for a query of a partition. -/
def entryFor (cache : DnsCache) (partition : PartitionKey) (qname : Text) (qtype : UInt16) :
    Option CacheEntry :=
  (cache.inner.lookup partition).bind fun part => part.entries.lookup (qname, qtype)

theorem entryFor_eq_some_iff : cache.entryFor partition qname qtype = some entry ↔
    ∃ part, cache.inner.lookup partition = some part ∧
      part.entries.lookup (qname, qtype) = some entry :=
  Option.bind_eq_some_iff

/-- What is cached after an answer is kept is the answer, or was cached before. -/
theorem entryFor_insert {partition' : PartitionKey} {qname' : Text} {qtype' : UInt16}
    {entry' : CacheEntry}
    (h : (cache.insert partition qname qtype entry).entryFor partition' qname' qtype' =
      some entry') :
    (partition' = partition ∧ qname' = qname ∧ qtype' = qtype ∧ entry' = entry) ∨
      ((partition, qname, qtype) ≠ (partition', qname', qtype') ∧
        cache.entryFor partition' qname' qtype' = some entry') := by
  obtain ⟨part, hpart, hentry⟩ := entryFor_eq_some_iff.mp h
  by_cases heq : partition' = partition
  · subst heq
    rw [lookup_insert] at hpart
    obtain rfl := Option.some.inj hpart
    rcases Fifo.lookup_insert_cases hentry with ⟨hkey, rfl⟩ | ⟨hkey, hbefore⟩
    · exact Or.inl ⟨rfl, congrArg Prod.fst hkey, congrArg Prod.snd hkey, rfl⟩
    · refine Or.inr ⟨fun heq => hkey (Prod.ext_iff.mp heq).2.symm, ?_⟩
      have hold := Fifo.lookup_of_lookup_evict hbefore
      cases hlookup : cache.inner.lookup partition' with
      | none =>
        rw [hlookup] at hold
        cases hold
      | some old =>
        rw [hlookup] at hold
        exact entryFor_eq_some_iff.mpr ⟨old, hlookup, hold⟩
  · rw [lookup_insert_of_ne heq] at hpart
    exact Or.inr ⟨fun h => heq (Prod.ext_iff.mp h).1.symm,
      entryFor_eq_some_iff.mpr ⟨part, hpart, hentry⟩⟩

/-- What is cached after a look was cached before. -/
theorem entryFor_get {partition' : PartitionKey} {qname' : Text} {qtype' : UInt16}
    (h : (cache.get partition qname qtype clock).2.entryFor partition' qname' qtype' =
      some entry) : cache.entryFor partition' qname' qtype' = some entry := by
  rcases get_cases cache partition qname qtype clock with heq | ⟨part, old, hpart, -, -, heq⟩
  · rwa [heq] at h
  · rw [heq, entryFor_eq_some_iff] at h
    obtain ⟨part', hpart', hentry⟩ := h
    rcases HashMap.lookup_insert_cases hpart' with ⟨rfl, rfl⟩ | ⟨-, hbefore⟩
    · exact entryFor_eq_some_iff.mpr ⟨part, hpart, Fifo.lookup_of_lookup_erase hentry⟩
    · exact entryFor_eq_some_iff.mpr ⟨part', hbefore, hentry⟩

/-- What is cached after a partition is dropped was cached before. -/
theorem entryFor_dropPartition {partition' : PartitionKey}
    (h : (cache.dropPartition partition).entryFor partition' qname qtype = some entry) :
    cache.entryFor partition' qname qtype = some entry := by
  obtain ⟨part, hpart, hentry⟩ := entryFor_eq_some_iff.mp h
  exact entryFor_eq_some_iff.mpr ⟨part, (HashMap.lookup_erase_eq_some_iff.mp hpart).2, hentry⟩

/-- **What a look gives out** is what is cached and has not expired, with the time that is left
of it. -/
theorem get_eq_some {outcome : Outcome}
    (h : (cache.get partition qname qtype clock).1 = some outcome) :
    ∃ entry, cache.entryFor partition qname qtype = some entry ∧ clock.1 < entry.expiresAt ∧
      outcome = entry.result
        (.ofNat (min ((entry.expiresAt - clock.2) / nanosPerSec) (2 ^ 32 - 1))) := by
  rw [get] at h
  split at h
  · cases h
  · rename_i part hpart
    split at h
    · cases h
    · rename_i entry hentry
      split at h
      · cases h
      · rename_i hlive
        exact ⟨entry, entryFor_eq_some_iff.mpr ⟨part, hpart, hentry⟩, Nat.not_le.mp hlive,
          (Option.some.inj h).symm⟩

/-- No partition has more answers than there may be. -/
def Bounded (cache : DnsCache) : Prop :=
  ∀ partition part, cache.inner.lookup partition = some part → part.size ≤ maxEntriesPerPartition

theorem Bounded.insert (hbound : cache.Bounded) (partition : PartitionKey) (qname : Text)
    (qtype : UInt16) (entry : CacheEntry) :
    (cache.insert partition qname qtype entry).Bounded := by
  intro partition' part hpart
  rcases HashMap.lookup_insert_cases hpart with ⟨-, rfl⟩ | ⟨-, hbefore⟩
  · exact (Fifo.size_insert_le _ _ _).trans (Fifo.size_evict (by decide) _)
  · exact hbound partition' part hbefore

theorem Bounded.get (hbound : cache.Bounded) (partition : PartitionKey) (qname : Text)
    (qtype : UInt16) (clock : ℕ × ℕ) : (cache.get partition qname qtype clock).2.Bounded := by
  rcases get_cases cache partition qname qtype clock with heq | ⟨part, old, hpart, -, -, heq⟩
  · rwa [heq]
  · rw [heq]
    intro partition' part' hpart'
    rcases HashMap.lookup_insert_cases hpart' with ⟨-, rfl⟩ | ⟨-, hbefore⟩
    · exact (Fifo.size_erase_le _ _).trans (hbound partition part hpart)
    · exact hbound partition' part' hbefore

theorem Bounded.dropPartition (hbound : cache.Bounded) (partition : PartitionKey) :
    (cache.dropPartition partition).Bounded := fun partition' part hpart =>
  hbound partition' part (HashMap.lookup_erase_eq_some_iff.mp hpart).2

end DnsCache

/-- **The DNS cache and the clock**: what the clock said last. -/
structure CacheClock where
  /-- The cache. -/
  cache : DnsCache
  /-- The instant. -/
  now : ℕ

namespace CacheClock

/-- The calls, with what the clock says when it is read. -/
inductive Call where
  /-- `put_positive` is called. -/
  | putPositive (partition : PartitionKey) (qname : Text) (qtype : UInt16)
    (result : ResolveResult) (now : ℕ)
  /-- `put_negative` is called. -/
  | putNegative (partition : PartitionKey) (qname : Text) (qtype : UInt16) (err : NetworkError)
    (now : ℕ)
  /-- `get` is called. -/
  | get (partition : PartitionKey) (qname : Text) (qtype : UInt16) (clock : ℕ × ℕ)
  /-- `drop_partition` is called. -/
  | dropPartition (partition : PartitionKey)

/-- **One call.** The clock does not go back. -/
def call (s : CacheClock) : Call → Option CacheClock
  | .putPositive partition qname qtype result now =>
    if s.now ≤ now then some ⟨s.cache.putPositive partition qname qtype result now, now⟩ else none
  | .putNegative partition qname qtype err now =>
    if s.now ≤ now then some ⟨s.cache.putNegative partition qname qtype err now, now⟩ else none
  | .get partition qname qtype clock =>
    if s.now ≤ clock.1 ∧ clock.1 ≤ clock.2 then
      some ⟨(s.cache.get partition qname qtype clock).2, clock.2⟩
    else none
  | .dropPartition partition => some { s with cache := s.cache.dropPartition partition }

/-- The runs of calls on an empty cache. -/
abbrev Run (start : ℕ) : List (Step CacheClock Call) → CacheClock → Prop :=
  Transition.Run (Transition.ofFun call) ⟨.new, start⟩

/-- What was put for a query: the outcome, for how many seconds, and when. -/
structure Put where
  /-- The outcome. -/
  outcome : CachedOutcome
  /-- The time to live: what the answer came with, but a day at most, or a minute for a
  failure. -/
  ttl : ℕ
  /-- The instant. -/
  now : ℕ

/-- What a call puts for a query, if it does. -/
def putOf (partition : PartitionKey) (qname : Text) (qtype : UInt16) : Call → Option Put
  | .putPositive partition' qname' qtype' result now =>
    if (partition', qname', qtype') = (partition, qname, qtype) then
      some ⟨.positive result.records, min result.ttlSeconds.toNat (24 * 60 * 60), now⟩
    else none
  | .putNegative partition' qname' qtype' err now =>
    if (partition', qname', qtype') = (partition, qname, qtype) then some ⟨.negative err, 60, now⟩
    else none
  | _ => none

/-- What was put last for a query. -/
def lastPut (partition : PartitionKey) (qname : Text) (qtype : UInt16)
    (tr : List (Step CacheClock Call)) : Option Put :=
  (tr.filterMap fun x => putOf partition qname qtype x.input).getLast?

/-- The entry of a put. -/
def Put.cached (put : Put) : CacheEntry := ⟨put.outcome, put.now + put.ttl * nanosPerSec⟩

variable {s s' : CacheClock} {i : Call} {start : ℕ} {tr : List (Step CacheClock Call)} {put : Put}

/-! ### What a call does -/

/-- **A call puts what it puts**, and what is cached otherwise was cached before. -/
theorem entryFor_call (h : s.call i = some s')
    (hentry : s'.cache.entryFor partition qname qtype = some entry) :
    (∃ put, putOf partition qname qtype i = some put ∧ entry = put.cached ∧ put.now = s'.now) ∨
      putOf partition qname qtype i = none ∧
        s.cache.entryFor partition qname qtype = some entry := by
  cases i with
  | putPositive partition' qname' qtype' result now =>
    obtain ⟨-, rfl⟩ : s.now ≤ now ∧ _ = s' := by simpa [call] using h
    rcases DnsCache.entryFor_insert hentry with ⟨rfl, rfl, rfl, rfl⟩ | ⟨hne, hbefore⟩
    · exact Or.inl ⟨_, if_pos rfl, rfl, rfl⟩
    · exact Or.inr ⟨if_neg hne, hbefore⟩
  | putNegative partition' qname' qtype' err now =>
    obtain ⟨-, rfl⟩ : s.now ≤ now ∧ _ = s' := by simpa [call] using h
    rcases DnsCache.entryFor_insert hentry with ⟨rfl, rfl, rfl, rfl⟩ | ⟨hne, hbefore⟩
    · exact Or.inl ⟨_, if_pos rfl, rfl, rfl⟩
    · exact Or.inr ⟨if_neg hne, hbefore⟩
  | get partition' qname' qtype' clock =>
    obtain ⟨-, rfl⟩ : (s.now ≤ clock.1 ∧ clock.1 ≤ clock.2) ∧ _ = s' := by simpa [call] using h
    exact Or.inr ⟨rfl, DnsCache.entryFor_get hentry⟩
  | dropPartition partition' =>
    obtain rfl : _ = s' := by simpa [call] using h
    exact Or.inr ⟨rfl, DnsCache.entryFor_dropPartition hentry⟩

/-- The clock does not go back. -/
theorem now_le_call (h : s.call i = some s') : s.now ≤ s'.now := by
  cases i with
  | putPositive partition qname qtype result now =>
    obtain ⟨hnow, rfl⟩ : s.now ≤ now ∧ _ = s' := by simpa [call] using h
    exact hnow
  | putNegative partition qname qtype err now =>
    obtain ⟨hnow, rfl⟩ : s.now ≤ now ∧ _ = s' := by simpa [call] using h
    exact hnow
  | get partition qname qtype clock =>
    obtain ⟨hnow, rfl⟩ : (s.now ≤ clock.1 ∧ clock.1 ≤ clock.2) ∧ _ = s' := by
      simpa [call] using h
    exact hnow.1.trans hnow.2
  | dropPartition partition =>
    obtain rfl : _ = s' := by simpa [call] using h
    exact le_refl s.now

theorem bounded_call (h : s.call i = some s') (hbound : s.cache.Bounded) : s'.cache.Bounded := by
  cases i with
  | putPositive partition qname qtype result now =>
    obtain ⟨-, rfl⟩ : s.now ≤ now ∧ _ = s' := by simpa [call] using h
    exact hbound.insert _ _ _ _
  | putNegative partition qname qtype err now =>
    obtain ⟨-, rfl⟩ : s.now ≤ now ∧ _ = s' := by simpa [call] using h
    exact hbound.insert _ _ _ _
  | get partition qname qtype clock =>
    obtain ⟨-, rfl⟩ : (s.now ≤ clock.1 ∧ clock.1 ≤ clock.2) ∧ _ = s' := by simpa [call] using h
    exact hbound.get _ _ _ _
  | dropPartition partition =>
    obtain rfl : _ = s' := by simpa [call] using h
    exact hbound.dropPartition _

/-! ### What a run has cached -/

theorem lastPut_concat (x : Step CacheClock Call) :
    lastPut partition qname qtype (tr ++ [x]) =
      (putOf partition qname qtype x.input).or (lastPut partition qname qtype tr) := by
  rw [lastPut, List.filterMap_append, List.getLast?_append]
  cases hput : putOf partition qname qtype x.input with
  | none => simp [hput, lastPut]
  | some put => simp [hput]

/-- **What is cached for a query is what was put last for it.** -/
theorem entry_of_run (hrun : Run start tr s)
    (hentry : s.cache.entryFor partition qname qtype = some entry) :
    ∃ put, lastPut partition qname qtype tr = some put ∧ entry = put.cached ∧ put.now ≤ s.now := by
  revert entry
  refine hrun.invariant (I := fun tr s => ∀ {entry},
    s.cache.entryFor partition qname qtype = some entry →
      ∃ put, lastPut partition qname qtype tr = some put ∧ entry = put.cached ∧ put.now ≤ s.now)
    ?_ ?_
  · intro entry hentry
    cases hentry
  · intro tr s i s' _ ih hstep entry hentry
    rw [lastPut_concat]
    rcases entryFor_call hstep hentry with ⟨put, hput, rfl, hnow⟩ | ⟨hnone, hbefore⟩
    · exact ⟨put, by rw [hput]; rfl, rfl, hnow.le⟩
    · obtain ⟨put, hput, rfl, hnow⟩ := ih hbefore
      exact ⟨put, by rw [hnone, hput]; rfl, rfl, hnow.trans (now_le_call hstep)⟩

theorem now_le_of_run {between : List (Step CacheClock Call)}
    (hrun : Transition.Run (Transition.ofFun call) s between s') : s.now ≤ s'.now :=
  hrun.invariant (I := fun _ s' => s.now ≤ s'.now) (le_refl s.now)
    fun _ _ _ _ _ ih hstep => ih.trans (now_le_call hstep)

theorem bounded_of_run (hrun : Run start tr s) : s.cache.Bounded :=
  hrun.invariant (I := fun _ s => s.cache.Bounded) (fun _ _ hpart => by cases hpart)
    fun _ _ _ _ _ ih hstep => bounded_call hstep ih

/-! ### What is given out -/

/-- The seconds left of an answer are no more than the time that is. -/
theorem remaining_le (time : ℕ) :
    (UInt32.ofNat (min (time / nanosPerSec) (2 ^ 32 - 1))).toNat * nanosPerSec ≤ time := by
  have hsmall : min (time / nanosPerSec) (2 ^ 32 - 1) < 2 ^ 32 :=
    (Nat.min_le_right _ _).trans_lt (by decide)
  rw [UInt32.toNat_ofNat', Nat.mod_eq_of_lt hsmall]
  exact (Nat.mul_le_mul_right _ (Nat.min_le_left _ _)).trans (Nat.div_mul_le_self _ _)

theorem remaining_mono {time time' : ℕ} (h : time ≤ time') :
    (UInt32.ofNat (min (time / nanosPerSec) (2 ^ 32 - 1))).toNat ≤
      (UInt32.ofNat (min (time' / nanosPerSec) (2 ^ 32 - 1))).toNat := by
  have hsmall : ∀ n, min (n / nanosPerSec) (2 ^ 32 - 1) < 2 ^ 32 := fun n =>
    (Nat.min_le_right _ _).trans_lt (by decide)
  rw [UInt32.toNat_ofNat', UInt32.toNat_ofNat', Nat.mod_eq_of_lt (hsmall _),
    Nat.mod_eq_of_lt (hsmall _)]
  have hdiv : time / nanosPerSec ≤ time' / nanosPerSec := Nat.div_le_div_right h
  omega

/-- Only a positive answer has a time to live. -/
theorem result_eq_ok {remaining : UInt32} {result : ResolveResult}
    (h : entry.result remaining = .ok result) : result.ttlSeconds = remaining := by
  rw [CacheEntry.result] at h
  split at h
  · rw [← Except.ok.inj h]
  · cases h

/-- **A look in a run gives out what was put last**, before it expires. -/
theorem get_of_run (hrun : Run start tr s) {outcome : Outcome}
    (h : (s.cache.get partition qname qtype clock).1 = some outcome) :
    ∃ put, lastPut partition qname qtype tr = some put ∧ put.now ≤ s.now ∧
      clock.1 < put.cached.expiresAt ∧
      outcome = put.cached.result
        (.ofNat (min ((put.cached.expiresAt - clock.2) / nanosPerSec) (2 ^ 32 - 1))) := by
  obtain ⟨entry, hentry, hlive, hresult⟩ := DnsCache.get_eq_some h
  obtain ⟨put, hput, rfl, hnow⟩ := entry_of_run hrun hentry
  exact ⟨put, hput, hnow, hlive, hresult⟩

theorem clock_of_get (h : s.call (.get partition qname qtype clock) = some s') :
    s.now ≤ clock.1 ∧ clock.1 ≤ clock.2 ∧ s'.now = clock.2 := by
  obtain ⟨⟨hfirst, hsecond⟩, rfl⟩ : (s.now ≤ clock.1 ∧ clock.1 ≤ clock.2) ∧ _ = s' := by
    simpa [call] using h
  exact ⟨hfirst, hsecond, rfl⟩

/-- Nothing is put for a query in these steps. -/
def NoPut (partition : PartitionKey) (qname : Text) (qtype : UInt16)
    (between : List (Step CacheClock Call)) : Prop :=
  ∀ x ∈ between, putOf partition qname qtype x.input = none

/-- Where nothing is put for a query the last put stays the last. -/
theorem lastPut_append_of_noPut {between : List (Step CacheClock Call)}
    (h : NoPut partition qname qtype between) :
    lastPut partition qname qtype (tr ++ between) = lastPut partition qname qtype tr := by
  have hnone : (between.filterMap fun x => putOf partition qname qtype x.input) = [] :=
    List.filterMap_eq_nil_iff.mpr h
  rw [lastPut, List.filterMap_append, hnone, List.append_nil, ← lastPut]

/-- **Between two puts the time to live does not grow.** -/
theorem ttl_antitone {before between after : List (Step CacheClock Call)}
    {x y : Step CacheClock Call} {clock₁ clock₂ : ℕ × ℕ} {result₁ result₂ : ResolveResult}
    (hrun : Run start (before ++ x :: (between ++ y :: after)) s)
    (hnone : NoPut partition qname qtype between)
    (hx : x.input = .get partition qname qtype clock₁)
    (hy : y.input = .get partition qname qtype clock₂)
    (h₁ : (x.pre.cache.get partition qname qtype clock₁).1 = some (.ok result₁))
    (h₂ : (y.pre.cache.get partition qname qtype clock₂).1 = some (.ok result₂)) :
    result₂.ttlSeconds.toNat ≤ result₁.ttlSeconds.toNat := by
  obtain ⟨hbefore, hstep, hrest⟩ := hrun.cut
  obtain ⟨hbetween, hstep', -⟩ := hrest.cut
  have hupto : Run start (before ++ x :: between) y.pre := by
    have := (hbefore.snoc hstep).trans hbetween
    rwa [List.append_assoc] at this
  -- both look at the same put, the second one later
  obtain ⟨put₁, hput₁, -, -, hresult₁⟩ := get_of_run hbefore h₁
  obtain ⟨put₂, hput₂, -, -, hresult₂⟩ := get_of_run hupto h₂
  have hno : NoPut partition qname qtype (x :: between) := by
    intro z hz
    rcases List.mem_cons.mp hz with rfl | hz
    · rw [hx]
      rfl
    · exact hnone z hz
  rw [lastPut_append_of_noPut hno, hput₁] at hput₂
  obtain rfl := Option.some.inj hput₂
  rw [result_eq_ok hresult₁.symm, result_eq_ok hresult₂.symm]
  have hcall₁ : x.pre.call x.input = some x.post := hstep
  have hcall₂ : y.pre.call y.input = some y.post := hstep'
  rw [hx] at hcall₁
  rw [hy] at hcall₂
  obtain ⟨-, -, hpost⟩ := clock_of_get hcall₁
  obtain ⟨hlater, hlater', -⟩ := clock_of_get hcall₂
  have hmid := now_le_of_run hbetween
  exact remaining_mono (by omega)

/-- **The cache keeps its bounds, and its answers their time.** In every partition the queue is
the keys, each of them once, and not more than there may be. What is cached for a query is what
was put last for it, and expires when the time it was put with is over. It is given out before
that only; its time to live and the time since it was put make no more than it was put with;
and between two puts its time to live does not grow. -/
theorem cache_expiry (hrun : Run start tr s) :
    (∀ partition part, s.cache.inner.lookup partition = some part →
      part.order.Nodup ∧ part.order.Perm part.entries.keys ∧ part.order.length ≤ 256) ∧
    (∀ partition qname qtype entry, s.cache.entryFor partition qname qtype = some entry →
      ∃ put, lastPut partition qname qtype tr = some put ∧ entry.outcome = put.outcome ∧
        entry.expiresAt = put.now + put.ttl * nanosPerSec) ∧
    (∀ before x after, tr = before ++ x :: after → ∀ partition qname qtype clock outcome,
      x.input = .get partition qname qtype clock →
      (x.pre.cache.get partition qname qtype clock).1 = some outcome →
      ∃ put, lastPut partition qname qtype before = some put ∧
        clock.1 < put.now + put.ttl * nanosPerSec ∧
        ∀ result, outcome = .ok result →
          result.ttlSeconds.toNat * nanosPerSec + (clock.1 - put.now) ≤ put.ttl * nanosPerSec) ∧
    ∀ before x between y after, tr = before ++ x :: (between ++ y :: after) →
      ∀ partition qname qtype clock₁ clock₂ result₁ result₂,
        NoPut partition qname qtype between →
        x.input = .get partition qname qtype clock₁ →
        y.input = .get partition qname qtype clock₂ →
        (x.pre.cache.get partition qname qtype clock₁).1 = some (.ok result₁) →
        (y.pre.cache.get partition qname qtype clock₂).1 = some (.ok result₂) →
        result₂.ttlSeconds.toNat ≤ result₁.ttlSeconds.toNat := by
  refine ⟨fun partition part hpart => ⟨part.nodup, part.order_perm_keys, ?_⟩, ?_, ?_, ?_⟩
  · exact part.length_order.trans_le (bounded_of_run hrun partition part hpart)
  · intro partition qname qtype entry hentry
    obtain ⟨put, hput, rfl, -⟩ := entry_of_run hrun hentry
    exact ⟨put, hput, rfl, rfl⟩
  · rintro before x after rfl partition qname qtype clock outcome hx h
    obtain ⟨hbefore, hstep, -⟩ := hrun.cut
    have hcall : x.pre.call x.input = some x.post := hstep
    rw [hx] at hcall
    obtain ⟨hfirst, hsecond, -⟩ := clock_of_get hcall
    obtain ⟨put, hput, hnow, hlive, hresult⟩ := get_of_run hbefore h
    refine ⟨put, hput, hlive, ?_⟩
    rintro result rfl
    rw [result_eq_ok hresult.symm]
    have hleft := remaining_le (put.cached.expiresAt - clock.2)
    have hexpires : put.cached.expiresAt = put.now + put.ttl * nanosPerSec := rfl
    omega
  · rintro before x between y after rfl partition qname qtype clock₁ clock₂ result₁ result₂ hnone
      hx hy h₁ h₂
    exact ttl_antitone hrun hnone hx hy h₁ h₂

/-- A partition key. -/
def examplePartition : PartitionKey := ⟨.replicate 32 5⟩

/-- An answer with two seconds to live is given out after one and a half, with none left to
live, and not after two. -/
theorem cache_expiry_example : ∃ tr s, Run 0 tr s ∧
    tr.map (fun x => (x.pre.cache.get examplePartition [] 1 (x.pre.now, x.pre.now)).1) =
      [none, some (.ok ⟨[], 2⟩), some (.ok ⟨[], 0⟩), none] ∧
    ∀ entry, s.cache.entryFor examplePartition [] 1 = some entry →
      ∃ put, lastPut examplePartition [] 1 tr = some put ∧ entry.outcome = put.outcome ∧
        entry.expiresAt = put.now + put.ttl * nanosPerSec := by
  have hexec : (Transition.exec call ⟨.new, 0⟩
      [.putPositive examplePartition [] 1 ⟨[], 2⟩ 7,
        .get examplePartition [] 1 (1500000007, 1500000007),
        .get examplePartition [] 1 (2000000007, 2000000007),
        .dropPartition examplePartition]).any (fun p => decide (p.1.map (fun x =>
          (x.pre.cache.get examplePartition [] 1 (x.pre.now, x.pre.now)).1) =
        [none, some (.ok ⟨[], 2⟩), some (.ok ⟨[], 0⟩), none])) = true := by decide +kernel
  obtain ⟨tr, s, hrun, -, htest⟩ := Transition.exists_run_where hexec
  exact ⟨tr, s, hrun, of_decide_eq_true htest,
    (cache_expiry hrun).2.1 examplePartition [] 1⟩

end CacheClock

end Dns

end DevBrowse
