import DevBrowse.Gpu.BudgetHistory

/-!
# The accounting of the memory budget

The result of this file is `DevBrowse.Gpu.MemoryBudget.accounting_sound_iff`. A run whose id counter
does not wrap keeps every bucket in order, evicts exactly what it has to, and refuses
without a trace, if and only if no admitted request ever pushes a byte counter past the
largest word under a cap that *is* the largest word. Under any smaller cap, in
particular under every configured one
(`DevBrowse.Gpu.MemoryBudget.inRange_of_fromConfig`), the condition holds by itself.
-/

namespace DevBrowse

namespace Gpu

open Transition (Step)

open IdentityBucket

namespace MemoryBudget

variable {b b' : MemoryBudget} {c : Call} {token : ScopeToken} {size : UInt64}
  {id : AllocationId} {pid : Uuid} {e : BudgetError} {profile : BudgetProfile}
  {initialEpoch : UInt64} {tr : List (Step MemoryBudget Call)} {x : Step MemoryBudget Call}

/-- **An admitted request succeeds**, and the recency list of its identity makes room for
it and takes it at the back. -/
theorem tryAllocate_spec (h : Admitted b token size)
    (hledger : (b.bucketOf token.profileId).Ledger)
    (hrange : b.profile.capBytes.toNat < 2 ^ 64 - 1 ∨
      (b.bucketOf token.profileId).usedBytes.toNat + size.toNat < 2 ^ 64)
    (hfresh : ⟨b.nextId⟩ ∉ (b.bucketOf token.profileId).sizes) :
    ∃ bucket, b.tryAllocate token size = (.ok ⟨b.nextId⟩,
        { b.putBucket token.profileId bucket with nextId := b.nextId + 1 }) ∧
      bucket.Ledger ∧ bucket.usedBytes.toNat ≤ b.profile.capBytes.toNat ∧
      bucket.entries = Lru.fit b.profile.capBytes.toNat size.toNat
        (b.bucketOf token.profileId).entries ++ [(⟨b.nextId⟩, size.toNat)] := by
  obtain ⟨bucket, hloop, hb, hentries, hfits⟩ := hledger.evict h.2.1 hrange
  have hsizes := (hledger.toMatched.evict b.profile.capBytes size).2.2
  rw [hloop] at hsizes
  have hfresh' : ⟨b.nextId⟩ ∉ bucket.sizes := fun hin => hfresh (hsizes _ hin)
  have hcap := b.profile.capBytes.toNat_lt
  refine ⟨_, tryAllocate_admitted h hloop, hb.insert hfresh' (by omega), ?_, ?_⟩
  · rw [toNat_saturatingAdd]
    exact (min_le_left _ _).trans hfits
  · have hnew : ⟨b.nextId⟩ ∉ bucket.lru := fun hin => hfresh' ((hb.mem_iff _).mp hin)
    exact (entriesOf_concat hnew).trans (congrArg (· ++ _) hentries)

/-- The byte counter stays below saturation at this step: a request that is not refused
at once finds a cap below the largest word, or a sum that is a word. -/
def InRange (x : Step MemoryBudget Call) : Prop :=
  match x.input with
  | .tryAllocate token size => Admitted x.pre token size →
      x.pre.profile.capBytes.toNat < 2 ^ 64 - 1 ∨
        (x.pre.bucketOf token.profileId).usedBytes.toNat + size.toNat < 2 ^ 64
  | _ => True

instance : Decidable (InRange x) :=
  match x with
  | ⟨_, .tryAllocate _ _, _⟩ => inferInstanceAs (Decidable (_ → _))
  | ⟨_, .touch _ _, _⟩ => inferInstanceAs (Decidable True)
  | ⟨_, .release _ _, _⟩ => inferInstanceAs (Decidable True)
  | ⟨_, .onRecovery _, _⟩ => inferInstanceAs (Decidable True)

/-- **Every bucket is in order**, and in use is no more than the cap. -/
def Kept (b : MemoryBudget) : Prop :=
  ∀ pid, (b.bucketOf pid).Ledger ∧ (b.bucketOf pid).usedBytes.toNat ≤ b.profile.capBytes.toNat

theorem kept_new : Kept (new profile initialEpoch) := fun _ => ⟨ledger_new, Nat.zero_le _⟩

theorem Kept.putBucket (h : Kept b) {bucket : IdentityBucket} (hledger : bucket.Ledger)
    (hcap : bucket.usedBytes.toNat ≤ b.profile.capBytes.toNat) (pid : Uuid) :
    Kept (b.putBucket pid bucket) := by
  intro pid'
  rw [bucketOf_putBucket]
  split
  · exact ⟨hledger, hcap⟩
  · exact h pid'

/-- **Every call keeps the buckets in order**, as long as no counter saturates. -/
theorem Kept.step (h : Kept b) (hhist : History tr b) (hstep : b.step c = some b')
    (hrange : InRange ⟨b, c, b'⟩) : Kept b' := by
  obtain rfl := Option.some.inj hstep
  cases c with
  | tryAllocate token size =>
    by_cases hadm : Admitted b token size
    · obtain ⟨bucket, heq, hledger, hcap, -⟩ :=
        tryAllocate_spec hadm (h _).1 (hrange hadm) (hhist.fresh _)
      simp only [call, heq]
      exact h.putBucket hledger hcap token.profileId
    · have heq := tryAllocate_refused hadm
      simpa only [call, heq] using h
  | touch token id =>
    rcases touch_cases b token id with ⟨hholds, heq⟩ | ⟨-, heq⟩
    · have hledger := (h token.profileId).1
      simp only [call, heq]
      exact h.putBucket ⟨hledger.toMatched.touch hholds.2, hledger.used_eq⟩ (h _).2 _
    · simpa only [call, heq] using h
  | release token id =>
    rcases release_cases b token id with ⟨size, -, hsize, heq⟩ | ⟨-, heq⟩
    · obtain ⟨hledger, hexact⟩ := (h token.profileId).1.erase hsize
      have hcap := (h token.profileId).2
      simp only [call, heq]
      exact h.putBucket hledger (by simp only; omega) _
    · simpa only [call, heq] using h
  | onRecovery newEpoch => exact fun pid => ⟨ledger_new, Nat.zero_le _⟩

theorem kept_of_run (h : Run profile initialEpoch tr b) (hC : ∀ x ∈ tr, Counts x ∧ InRange x) :
    History tr b ∧ Kept b :=
  h.invariant_where (I := fun tr b => History tr b ∧ Kept b) (C := fun x => Counts x ∧ InRange x)
    ⟨history_new, kept_new⟩
    (fun _ _ _ _ _ hi hstep hx => ⟨hi.1.step hstep hx.1, hi.2.step hi.1 hstep hx.2⟩) hC

/-! ### What a run satisfies -/

/-- **What an accepted allocation does** to the bucket of its identity: the shortest
prefix of the order of use after which the request fits is evicted, the counter moves by
exactly what was evicted and added, and no other bucket changes. -/
structure Allocates (b b' : MemoryBudget) (pid : Uuid) (size : UInt64) (id : AllocationId) :
    Prop where
  /-- The shortest sufficient prefix goes, the new allocation comes at the back. -/
  evicts : ∃ n,
    (b'.bucketOf pid).entries = (b.bucketOf pid).entries.drop n ++ [(id, size.toNat)] ∧
    (b'.bucketOf pid).usedBytes.toNat + Lru.weight ((b.bucketOf pid).entries.take n) =
      (b.bucketOf pid).usedBytes.toNat + size.toNat ∧
    Lru.weight ((b.bucketOf pid).entries.drop n) + size.toNat ≤ b.profile.capBytes.toNat ∧
    ∀ m < n, b.profile.capBytes.toNat < Lru.weight ((b.bucketOf pid).entries.drop m) + size.toNat
  /-- No other bucket changes. -/
  others : ∀ pid', pid' ≠ pid → b'.bucketOf pid' = b.bucketOf pid'

/-- **What a release does**: the allocation goes, and the counter goes down by exactly
its size. -/
structure Releases (b b' : MemoryBudget) (pid : Uuid) (id : AllocationId) : Prop where
  /-- The allocation is taken out, the order of the others unchanged. -/
  entries_eq : (b'.bucketOf pid).entries = Lru.remove id (b.bucketOf pid).entries
  /-- The counter goes down by its size. -/
  used_eq : ∃ size, (b.bucketOf pid).sizes.lookup id = some size ∧
    (b'.bucketOf pid).usedBytes.toNat + size.toNat = (b.bucketOf pid).usedBytes.toNat
  /-- No other bucket changes. -/
  others : ∀ pid', pid' ≠ pid → b'.bucketOf pid' = b.bucketOf pid'

/-- **What a touch does**: the allocation moves to the back. -/
structure Touches (b b' : MemoryBudget) (pid : Uuid) (id : AllocationId) : Prop where
  /-- The allocation moves to the back. -/
  entries_eq : (b'.bucketOf pid).entries = Lru.touch id (b.bucketOf pid).entries
  /-- The counter stays. -/
  used_eq : (b'.bucketOf pid).usedBytes = (b.bucketOf pid).usedBytes
  /-- No other bucket changes. -/
  others : ∀ pid', pid' ≠ pid → b'.bucketOf pid' = b.bucketOf pid'

/-- What one step satisfies. -/
structure StepSound (x : Step MemoryBudget Call) : Prop where
  /-- Every bucket is in order, before and after. -/
  kept : Kept x.pre ∧ Kept x.post
  /-- The defensive error does not occur. -/
  not_exhausted : (x.pre.call x.input).1 ≠ .error .exhausted
  /-- A rejected call changes nothing. -/
  rejected : ∀ e, (x.pre.call x.input).1 = .error e → x.post = x.pre
  /-- An accepted allocation evicts exactly what it has to. -/
  allocates : ∀ token size id, x.input = .tryAllocate token size →
    (x.pre.tryAllocate token size).1 = .ok id →
      Allocates x.pre x.post token.profileId size id
  /-- An accepted touch moves to the back. -/
  touches : ∀ token id, x.input = .touch token id → (x.pre.touch token id).1 = .ok () →
    Touches x.pre x.post token.profileId id
  /-- An accepted release frees exactly the size recorded. -/
  releases : ∀ token id, x.input = .release token id → (x.pre.release token id).1 = .ok () →
    Releases x.pre x.post token.profileId id

/-- **What a run satisfies.** -/
structure Sound (tr : List (Step MemoryBudget Call)) : Prop where
  /-- What every step satisfies. -/
  steps : ∀ x ∈ tr, StepSound x
  /-- No allocation id is handed out twice. -/
  distinct : tr.Pairwise fun x y => ∀ p q, allocatedBy x = some p → allocatedBy y = some q →
    p.2 ≠ q.2
  /-- Every bucket is in the order of last use. -/
  recent : ∀ before x after, tr = before ++ x :: after → ∀ pid,
    (x.post.bucketOf pid).lru.Sublist (uses pid (before ++ [x])).dedup

/-- An accepted allocation does what it has to. -/
theorem Kept.allocates (h : Kept b) (hhist : History tr b)
    (hrange : InRange ⟨b, .tryAllocate token size, b'⟩)
    (hok : (b.tryAllocate token size).1 = .ok id) :
    Allocates b (b.tryAllocate token size).2 token.profileId size id := by
  by_cases hadm : Admitted b token size
  · obtain ⟨bucket, heq, hledger, -, hentries⟩ :=
      tryAllocate_spec hadm (h _).1 (hrange hadm) (hhist.fresh _)
    obtain rfl : ⟨b.nextId⟩ = id := by simpa [heq] using hok
    obtain ⟨n, hfit, hle, hshort⟩ := Lru.exists_fit_eq_drop
      (c := (b.bucketOf token.profileId).entries) hadm.2.1
    -- what the bucket weighs before and after tells what was evicted
    have hsplit := Lru.weight_take_add_drop n (b.bucketOf token.profileId).entries
    have hbefore := (h token.profileId).1.weight_entries
    have hafter := hledger.weight_entries
    rw [hentries, hfit, Lru.weight_append] at hafter
    rw [heq]
    refine ⟨⟨n, ?_, ?_, hle, hshort⟩, fun pid' hne => ?_⟩
    · rw [bucketOf_putBucket_nextId, if_pos rfl, hentries, hfit]
    · rw [bucketOf_putBucket_nextId, if_pos rfl]
      simp only [Lru.weight_cons, Lru.weight_nil] at hafter
      omega
    · rw [bucketOf_putBucket_nextId, if_neg hne]
  · rw [tryAllocate_refused hadm] at hok
    cases hok

/-- An accepted touch moves the allocation to the back. -/
theorem Kept.touches (h : Kept b) (hok : (b.touch token id).1 = .ok ()) :
    Touches b (b.touch token id).2 token.profileId id := by
  rcases touch_cases b token id with ⟨hholds, heq⟩ | ⟨-, heq⟩
  · have hledger := (h token.profileId).1
    rw [heq]
    refine ⟨?_, ?_, fun pid' hne => by rw [bucketOf_putBucket, if_neg hne]⟩
    · rw [bucketOf_putBucket, if_pos rfl]
      exact entriesOf_touch hledger.nodup ((hledger.mem_iff id).mpr hholds.2)
    · rw [bucketOf_putBucket, if_pos rfl]
  · rw [heq] at hok
    cases hok

/-- An accepted release frees exactly the size recorded. -/
theorem Kept.releases (h : Kept b) (hok : (b.release token id).1 = .ok ()) :
    Releases b (b.release token id).2 token.profileId id := by
  rcases release_cases b token id with ⟨size, hholds, hsize, heq⟩ | ⟨-, heq⟩
  · have hledger := (h token.profileId).1
    rw [heq]
    refine ⟨?_, ⟨size, hsize, ?_⟩, fun pid' hne => by rw [bucketOf_putBucket, if_neg hne]⟩
    · rw [bucketOf_putBucket, if_pos rfl]
      exact entriesOf_release hledger.nodup
    · rw [bucketOf_putBucket, if_pos rfl]
      exact (hledger.erase hsize).2
  · rw [heq] at hok
    cases hok

/-- A rejected call changes nothing, and is not rejected by the defensive error. -/
theorem Kept.rejected (h : Kept b) (hhist : History tr b)
    (hrange : InRange ⟨b, c, b'⟩) (herr : (b.call c).1 = .error e) :
    e ≠ .exhausted ∧ (b.call c).2 = b := by
  cases c with
  | tryAllocate token size =>
    by_cases hadm : Admitted b token size
    · obtain ⟨bucket, heq, -⟩ := tryAllocate_spec hadm (h _).1 (hrange hadm) (hhist.fresh _)
      rw [call, heq] at herr
      cases herr
    · rw [call, tryAllocate_refused hadm] at herr ⊢
      exact ⟨Except.error.inj herr ▸ b.refusal_ne size, rfl⟩
  | touch token id =>
    rcases touch_cases b token id with ⟨-, heq⟩ | ⟨-, heq⟩ <;> rw [call, heq] at herr ⊢
    · cases herr
    · exact ⟨Except.error.inj herr ▸ b.rejection_ne token, rfl⟩
  | release token id =>
    rcases release_cases b token id with ⟨size, -, -, heq⟩ | ⟨-, heq⟩ <;> rw [call, heq] at herr ⊢
    · cases herr
    · exact ⟨Except.error.inj herr ▸ b.rejection_ne token, rfl⟩
  | onRecovery newEpoch => cases herr

theorem Kept.stepSound (h : Kept b) (hhist : History tr b) (hstep : b.step c = some b')
    (hrange : InRange ⟨b, c, b'⟩) : StepSound ⟨b, c, b'⟩ := by
  have hpost := h.step hhist hstep hrange
  obtain rfl := Option.some.inj hstep
  constructor
  case kept => exact ⟨h, hpost⟩
  case not_exhausted => exact fun herr => (h.rejected hhist hrange herr).1 rfl
  case rejected => exact fun e herr => (h.rejected hhist hrange herr).2
  case allocates =>
    rintro token size id rfl hok
    exact h.allocates hhist hrange hok
  case touches =>
    rintro token id rfl hok
    exact h.touches hok
  case releases =>
    rintro token id rfl hok
    exact h.releases hok

/-- **Saturation is never sound**: under a cap at the largest word nothing is evicted,
the counter stops at the largest word, and the sizes go on adding up. -/
theorem StepSound.inRange (h : StepSound x) (hstep : x.pre.step x.input = some x.post) :
    InRange x := by
  obtain ⟨b, c, b'⟩ := x
  have hstep : b.step c = some b' := hstep
  obtain rfl := Option.some.inj hstep
  cases c with
  | tryAllocate token size =>
    intro (hadm : Admitted b token size)
    by_contra hnot
    obtain ⟨hcap, hsum⟩ : ¬ b.profile.capBytes.toNat < 2 ^ 64 - 1 ∧
        ¬ (b.bucketOf token.profileId).usedBytes.toNat + size.toNat < 2 ^ 64 := not_or.mp hnot
    have hmax := b.profile.capBytes.toNat_lt
    have hcap' : b.profile.capBytes.toNat = 2 ^ 64 - 1 := by omega
    have heq := tryAllocate_admitted hadm (evictLoop_of_max hcap')
    have hpre := (h.kept.1 token.profileId).1
    have hpost := (h.kept.2 token.profileId).1
    simp only [call, heq, bucketOf_putBucket_nextId, if_true] at hpost
    by_cases hid : ⟨b.nextId⟩ ∈ (b.bucketOf token.profileId).sizes
    · have hdup := hpost.nodup
      rw [List.nodup_append] at hdup
      exact hdup.2.2 _ ((hpre.mem_iff _).mpr hid) _ (List.mem_singleton_self _) rfl
    · have hused := hpost.used_eq
      simp only [HashMap.total_insert_of_notMem hid, ← hpre.used_eq, toNat_saturatingAdd] at hused
      omega
  | touch token id => trivial
  | release token id => trivial
  | onRecovery newEpoch => trivial

/-- **When the accounting is sound**: a run in which the id counter does not wrap is
sound exactly when no admitted request saturates a byte counter. -/
theorem accounting_sound_iff (h : Run profile initialEpoch tr b) (hcounts : ∀ x ∈ tr, Counts x) :
    Sound tr ↔ ∀ x ∈ tr, InRange x := by
  constructor
  · intro hsound x hx
    obtain ⟨-, -, -, -, hstep, -⟩ := h.of_mem hx
    exact (hsound.steps x hx).inRange hstep
  · intro hrange
    have hcond : ∀ x ∈ tr, Counts x ∧ InRange x := fun x hx => ⟨hcounts x hx, hrange x hx⟩
    have hpast : ∀ before x after, tr = before ++ x :: after →
        (History before x.pre ∧ Kept x.pre) ∧ x.pre.step x.input = some x.post := by
      rintro before x after rfl
      obtain ⟨hrun, hstep, -⟩ := h.cut
      exact ⟨kept_of_run hrun fun y hy => hcond y (List.mem_append_left _ hy), hstep⟩
    refine ⟨fun x hx => ?_, (kept_of_run h hcond).1.distinct, fun before x after htr pid => ?_⟩
    · obtain ⟨before, after, htr⟩ := List.append_of_mem hx
      obtain ⟨⟨hhist, hkept⟩, hstep⟩ := hpast before x after htr
      exact hkept.stepSound hhist hstep (hrange x hx)
    · obtain ⟨⟨hhist, -⟩, hstep⟩ := hpast before x after htr
      exact (hhist.step hstep (hcounts x (by simp [htr]))).recent pid

/-- The cap is set once and for all. -/
theorem profile_step (hstep : b.step c = some b') : b'.profile = b.profile := by
  obtain rfl := Option.some.inj hstep
  cases c with
  | tryAllocate token size => exact (frame_tryAllocate b token size).profile_eq
  | touch token id => exact (frame_touch b token id).profile_eq
  | release token id => exact (frame_release b token id).profile_eq
  | onRecovery newEpoch => rfl

theorem profile_of_run (h : Run profile initialEpoch tr b) : b.profile = profile :=
  h.invariant (I := fun _ b => b.profile = profile) rfl
    fun _ _ _ _ _ hp hstep => (profile_step hstep).trans hp

theorem capBytes_fromConfig_lt (memoryCapMib : UInt32) (mode : Mode) :
    (BudgetProfile.fromConfig memoryCapMib mode).capBytes.toNat < 2 ^ 64 - 1 := by
  have hclamp : ∀ n : UInt32, n.toNat ≤ 4096 →
      (n.toUInt64 * 1024 * 1024).toNat < 2 ^ 64 - 1 := by
    intro n hn
    have h1024 : (1024 : UInt64).toNat = 1024 := rfl
    simp only [UInt64.toNat_mul, UInt32.toNat_toUInt64, h1024]
    omega
  rw [BudgetProfile.fromConfig]
  refine hclamp _ ?_
  split
  · decide
  · split
    · decide
    · rename_i hle
      exact UInt32.le_iff_toNat_le.mp (UInt32.not_lt.mp hle)

/-- **No configured cap lets a counter saturate.** -/
theorem inRange_of_fromConfig {memoryCapMib : UInt32} {mode : Mode}
    (h : Run (.fromConfig memoryCapMib mode) initialEpoch tr b) : ∀ x ∈ tr, InRange x := by
  intro x hx
  obtain ⟨before, after, -, hrun, -, -⟩ := h.of_mem hx
  have hprofile := profile_of_run hrun
  obtain ⟨b, c, b'⟩ := x
  cases c with
  | tryAllocate token size =>
    have hprofile : b.profile = .fromConfig memoryCapMib mode := hprofile
    exact fun _ => Or.inl (hprofile ▸ capBytes_fromConfig_lt memoryCapMib mode)
  | touch token id => trivial
  | release token id => trivial
  | onRecovery newEpoch => trivial

/-- Two allocations under a small cap, the second evicting the first. -/
theorem accounting_sound_iff_evicting :
    ∃ tr b, Run ⟨10⟩ 1 tr b ∧ tr.map Step.input = [.tryAllocate ⟨Uuid.splat 1, .standard, 1⟩ 6,
      .tryAllocate ⟨Uuid.splat 1, .standard, 1⟩ 7] ∧ (Sound tr ↔ ∀ x ∈ tr, InRange x) := by
  have hexec : (Transition.exec step (new ⟨10⟩ 1) [.tryAllocate ⟨Uuid.splat 1, .standard, 1⟩ 6,
      .tryAllocate ⟨Uuid.splat 1, .standard, 1⟩ 7]).any
        (fun p => decide (∀ x ∈ p.1, Counts x)) = true := by decide
  obtain ⟨tr, b, hrun, hinputs, hcounts⟩ := Transition.exists_run_where hexec
  exact ⟨tr, b, hrun, hinputs, accounting_sound_iff hrun (of_decide_eq_true hcounts)⟩

/-- **A counter that saturates**: under the largest cap, the largest allocation and one
byte more are both accepted, and the counter shows one byte too few. -/
theorem not_accounting_sound_saturated :
    ∃ tr b, Run ⟨0xFFFFFFFFFFFFFFFF⟩ 1 tr b ∧ tr.map Step.input =
        [.tryAllocate ⟨Uuid.splat 1, .standard, 1⟩ 0xFFFFFFFFFFFFFFFF,
          .tryAllocate ⟨Uuid.splat 1, .standard, 1⟩ 1] ∧
      (∀ x ∈ tr, Counts x) ∧ ¬ Sound tr := by
  have hexec : (Transition.exec step (new ⟨0xFFFFFFFFFFFFFFFF⟩ 1)
      [.tryAllocate ⟨Uuid.splat 1, .standard, 1⟩ 0xFFFFFFFFFFFFFFFF,
        .tryAllocate ⟨Uuid.splat 1, .standard, 1⟩ 1]).any
        (fun p => decide ((∀ x ∈ p.1, Counts x) ∧ ∃ x ∈ p.1, ¬ InRange x)) = true := by decide
  obtain ⟨tr, b, hrun, hinputs, htest⟩ := Transition.exists_run_where hexec
  obtain ⟨hcounts, x, hx, hnot⟩ := of_decide_eq_true htest
  refine ⟨tr, b, hrun, hinputs, hcounts, fun hsound => hnot ?_⟩
  obtain ⟨-, -, -, -, hstep, -⟩ := hrun.of_mem hx
  exact (hsound.steps x hx).inRange hstep

end MemoryBudget

end Gpu

end DevBrowse
