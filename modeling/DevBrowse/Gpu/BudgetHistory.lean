import DevBrowse.Gpu.Bucket

/-!
# The history of the memory budget

What each call of the budget does to the bucket of its identity, and what a run in which
the id counter does not wrap says about the allocations it has handed out: each id was
handed out once, a bucket holds ids handed out to its own identity, in the order of last
use (`DevBrowse.Gpu.MemoryBudget.History`). None of it depends on the byte counters,
which are the subject of the accounting.
-/

namespace DevBrowse

namespace Gpu

open Transition (Step)

open IdentityBucket

namespace MemoryBudget

variable {b b' : MemoryBudget} {c : Call} {token : ScopeToken} {size : UInt64}
  {id : AllocationId} {pid : Uuid} {e : BudgetError} {profile : BudgetProfile}
  {initialEpoch : UInt64} {tr : List (Step MemoryBudget Call)} {x : Step MemoryBudget Call}

/-- The bucket of an identity; one that was never opened is empty. -/
def bucketOf (b : MemoryBudget) (pid : Uuid) : IdentityBucket :=
  (b.buckets.lookup pid).getD .new

/-- The budget with another bucket for an identity. -/
def putBucket (b : MemoryBudget) (pid : Uuid) (bucket : IdentityBucket) : MemoryBudget :=
  { b with buckets := b.buckets.insert pid bucket }

theorem bucketOf_putBucket (pid pid' : Uuid) (bucket : IdentityBucket) :
    (b.putBucket pid bucket).bucketOf pid' = if pid' = pid then bucket else b.bucketOf pid' := by
  simp only [bucketOf, putBucket, HashMap.lookup_insert_eq]
  split <;> rfl

theorem bucketOf_onRecovery (newEpoch : UInt64) (pid : Uuid) :
    (b.onRecovery newEpoch).bucketOf pid = .new := rfl

/-! ### What each call does -/

/-- A request that is not refused at once. -/
def Admitted (b : MemoryBudget) (token : ScopeToken) (size : UInt64) : Prop :=
  size ≠ 0 ∧ size.toNat ≤ b.profile.capBytes.toNat ∧ token.epoch = b.epoch

instance : Decidable (Admitted b token size) := inferInstanceAs (Decidable (_ ∧ _ ∧ _))

/-- The error of a request that is refused at once. -/
def refusal (b : MemoryBudget) (size : UInt64) : BudgetError :=
  if size = 0 then .zeroSize else if size > b.profile.capBytes then .overCap else .staleToken

theorem refusal_ne (b : MemoryBudget) (size : UInt64) : b.refusal size ≠ .exhausted := by
  simp only [refusal]
  split
  · simp
  · split <;> simp

theorem tryAllocate_refused (h : ¬ Admitted b token size) :
    b.tryAllocate token size = (.error (b.refusal size), b) := by
  rw [tryAllocate, refusal]
  by_cases hzero : size = 0
  · rw [if_pos hzero, if_pos hzero]
  · by_cases hcap : size > b.profile.capBytes
    · rw [if_neg hzero, if_pos hcap, if_neg hzero, if_pos hcap]
    · have hepoch : token.epoch ≠ b.epoch := fun hepoch =>
        h ⟨hzero, UInt64.le_iff_toNat_le.mp (UInt64.not_lt.mp hcap), hepoch⟩
      rw [if_neg hzero, if_neg hcap, if_pos hepoch, if_neg hzero, if_neg hcap]

/-- **An admitted request runs the eviction loop** on the bucket of its identity. -/
theorem tryAllocate_eq (h : Admitted b token size) : b.tryAllocate token size =
    match evictLoop b.profile.capBytes size (b.bucketOf token.profileId).usedBytes
        (b.bucketOf token.profileId).sizes (b.bucketOf token.profileId).lru with
    | (.error e, bucket) => (.error e, b.putBucket token.profileId bucket)
    | (.ok (), bucket) => (.ok ⟨b.nextId⟩,
        { b.putBucket token.profileId ⟨saturatingAdd bucket.usedBytes size,
            bucket.lru ++ [⟨b.nextId⟩], bucket.sizes.insert ⟨b.nextId⟩ size⟩ with
          nextId := b.nextId + 1 }) := by
  obtain ⟨hzero, hcap, hepoch⟩ := h
  have hcap' : ¬ size > b.profile.capBytes := by
    rw [gt_iff_lt, UInt64.lt_iff_toNat_lt]
    omega
  rw [tryAllocate, if_neg hzero, if_neg hcap', if_neg (not_not.mpr hepoch)]
  rfl

/-- The new allocation is added to what the eviction loop leaves. -/
theorem tryAllocate_admitted (h : Admitted b token size) {bucket : IdentityBucket}
    (hloop : evictLoop b.profile.capBytes size (b.bucketOf token.profileId).usedBytes
      (b.bucketOf token.profileId).sizes (b.bucketOf token.profileId).lru = (.ok (), bucket)) :
    b.tryAllocate token size = (.ok ⟨b.nextId⟩,
      { b.putBucket token.profileId ⟨saturatingAdd bucket.usedBytes size,
          bucket.lru ++ [⟨b.nextId⟩], bucket.sizes.insert ⟨b.nextId⟩ size⟩ with
        nextId := b.nextId + 1 }) := by
  rw [tryAllocate_eq h, hloop]

/-- An admitted request under which the eviction loop gives up leaves the emptied bucket
behind. -/
theorem tryAllocate_exhausted (h : Admitted b token size) {bucket : IdentityBucket}
    (hloop : evictLoop b.profile.capBytes size (b.bucketOf token.profileId).usedBytes
      (b.bucketOf token.profileId).sizes (b.bucketOf token.profileId).lru = (.error e, bucket)) :
    b.tryAllocate token size = (.error e, b.putBucket token.profileId bucket) := by
  rw [tryAllocate_eq h, hloop]

/-- An allocation the identity of a token holds, under the current epoch. -/
def Holds (b : MemoryBudget) (token : ScopeToken) (id : AllocationId) : Prop :=
  token.epoch = b.epoch ∧ id ∈ (b.bucketOf token.profileId).sizes

/-- An identity without a bucket holds nothing. -/
theorem not_holds (hlook : b.buckets.lookup token.profileId = none) (id : AllocationId) :
    ¬ Holds b token id := by
  have hempty : b.bucketOf token.profileId = .new := by rw [bucketOf, hlook]; rfl
  simp [hempty, Holds, IdentityBucket.new]

/-- The error of a touch or a release of an allocation that is not held. -/
def rejection (b : MemoryBudget) (token : ScopeToken) : BudgetError :=
  if token.epoch = b.epoch then .unknownAllocation else .staleToken

theorem rejection_ne (b : MemoryBudget) (token : ScopeToken) : b.rejection token ≠ .exhausted := by
  simp only [rejection]
  split <;> simp

/-- A touch of an allocation that is held moves it to the back; any other is rejected. -/
theorem touch_cases (b : MemoryBudget) (token : ScopeToken) (id : AllocationId) :
    (Holds b token id ∧ b.touch token id = (.ok (), b.putBucket token.profileId
      { b.bucketOf token.profileId with
        lru := (b.bucketOf token.profileId).lru.erase id ++ [id] })) ∨
    (¬ Holds b token id ∧ b.touch token id = (.error (b.rejection token), b)) := by
  by_cases hepoch : token.epoch = b.epoch
  · rw [touch, if_neg (not_not.mpr hepoch), rejection, if_pos hepoch]
    cases hlook : b.buckets.lookup token.profileId with
    | none => exact Or.inr ⟨not_holds hlook id, rfl⟩
    | some bucket =>
      have hbucket : b.bucketOf token.profileId = bucket := by rw [bucketOf, hlook]; rfl
      by_cases hid : id ∈ bucket.sizes
      · refine Or.inl ⟨⟨hepoch, hbucket ▸ hid⟩, ?_⟩
        simp only [hid, not_true_eq_false, if_false, hbucket]
        rfl
      · exact Or.inr ⟨fun h => hid (hbucket ▸ h.2), if_pos hid⟩
  · refine Or.inr ⟨fun h => hepoch h.1, ?_⟩
    rw [touch, if_pos hepoch, rejection, if_neg hepoch]

/-- A release of an allocation that is held takes it out; any other is rejected. -/
theorem release_cases (b : MemoryBudget) (token : ScopeToken) (id : AllocationId) :
    (∃ size, Holds b token id ∧ (b.bucketOf token.profileId).sizes.lookup id = some size ∧
      b.release token id = (.ok (), b.putBucket token.profileId
        ⟨saturatingSub (b.bucketOf token.profileId).usedBytes size,
          (b.bucketOf token.profileId).lru.erase id,
          (b.bucketOf token.profileId).sizes.erase id⟩)) ∨
    (¬ Holds b token id ∧ b.release token id = (.error (b.rejection token), b)) := by
  by_cases hepoch : token.epoch = b.epoch
  · rw [release, if_neg (not_not.mpr hepoch), rejection, if_pos hepoch]
    cases hlook : b.buckets.lookup token.profileId with
    | none => exact Or.inr ⟨not_holds hlook id, rfl⟩
    | some bucket =>
      have hbucket : b.bucketOf token.profileId = bucket := by rw [bucketOf, hlook]; rfl
      cases hsize : bucket.sizes.lookup id with
      | some size =>
        have hid : id ∈ bucket.sizes := HashMap.mem_iff_lookup.mpr ⟨size, hsize⟩
        refine Or.inl ⟨size, ⟨hepoch, hbucket ▸ hid⟩, by rw [hbucket, hsize], ?_⟩
        simp only [hsize, hbucket]
        rfl
      | none =>
        refine Or.inr ⟨fun h => ?_, by simp only [hsize]⟩
        have hid := h.2
        rw [hbucket, HashMap.mem_iff_lookup, hsize] at hid
        simp at hid
  · refine Or.inr ⟨fun h => hepoch h.1, ?_⟩
    rw [release, if_pos hepoch, rejection, if_neg hepoch]

theorem bucketOf_putBucket_nextId (pid pid' : Uuid) (bucket : IdentityBucket) (n : UInt64) :
    bucketOf { b.putBucket pid bucket with nextId := n } pid' =
      if pid' = pid then bucket else b.bucketOf pid' :=
  bucketOf_putBucket pid pid' bucket

/-- What a call under a token leaves alone: the cap, the epoch, and every bucket but one. -/
structure Frame (pid : Uuid) (b b' : MemoryBudget) : Prop where
  /-- The cap stays. -/
  profile_eq : b'.profile = b.profile
  /-- The epoch stays. -/
  epoch_eq : b'.epoch = b.epoch
  /-- The buckets of the others stay. -/
  bucketOf_eq : ∀ pid', pid' ≠ pid → b'.bucketOf pid' = b.bucketOf pid'

theorem Frame.refl (pid : Uuid) (b : MemoryBudget) : Frame pid b b := ⟨rfl, rfl, fun _ _ => rfl⟩

theorem frame_putBucket (pid : Uuid) (bucket : IdentityBucket) :
    Frame pid b (b.putBucket pid bucket) :=
  ⟨rfl, rfl, fun pid' hne => by rw [bucketOf_putBucket, if_neg hne]⟩

theorem frame_tryAllocate (b : MemoryBudget) (token : ScopeToken) (size : UInt64) :
    Frame token.profileId b (b.tryAllocate token size).2 := by
  by_cases hadm : Admitted b token size
  · rcases hloop : evictLoop b.profile.capBytes size (b.bucketOf token.profileId).usedBytes
      (b.bucketOf token.profileId).sizes (b.bucketOf token.profileId).lru with ⟨_ | _, bucket⟩
    · rw [tryAllocate_exhausted hadm hloop]
      exact frame_putBucket _ _
    · rw [tryAllocate_admitted hadm hloop]
      exact ⟨rfl, rfl, fun pid' hne => by rw [bucketOf_putBucket_nextId, if_neg hne]⟩
  · rw [tryAllocate_refused hadm]
    exact Frame.refl _ b

theorem frame_touch (b : MemoryBudget) (token : ScopeToken) (id : AllocationId) :
    Frame token.profileId b (b.touch token id).2 := by
  rcases touch_cases b token id with ⟨-, heq⟩ | ⟨-, heq⟩ <;> rw [heq]
  · exact frame_putBucket _ _
  · exact Frame.refl _ b

theorem frame_release (b : MemoryBudget) (token : ScopeToken) (id : AllocationId) :
    Frame token.profileId b (b.release token id).2 := by
  rcases release_cases b token id with ⟨_, -, -, heq⟩ | ⟨-, heq⟩ <;> rw [heq]
  · exact frame_putBucket _ _
  · exact Frame.refl _ b

/-! ### The history of a run -/

/-- The identity and the number of the allocation a step made, if it made one. -/
def allocatedBy (x : Step MemoryBudget Call) : Option (Uuid × AllocationId) :=
  match x.input with
  | .tryAllocate token size =>
    match (x.pre.tryAllocate token size).1 with
    | .ok id => some (token.profileId, id)
    | .error _ => none
  | _ => none

/-- The allocations of an identity in the order they were made or touched, after one
more step. -/
def usedBy (pid : Uuid) (ids : List AllocationId) (x : Step MemoryBudget Call) :
    List AllocationId :=
  match x.input with
  | .tryAllocate token size =>
    match (x.pre.tryAllocate token size).1 with
    | .ok id => if token.profileId = pid then ids ++ [id] else ids
    | .error _ => ids
  | .touch token id =>
    match (x.pre.touch token id).1 with
    | .ok _ => if token.profileId = pid then ids ++ [id] else ids
    | .error _ => ids
  | _ => ids

/-- The allocations of an identity in the order they were made or touched. -/
def uses (pid : Uuid) (tr : List (Step MemoryBudget Call)) : List AllocationId :=
  tr.foldl (usedBy pid) []

theorem uses_concat (pid : Uuid) (tr : List (Step MemoryBudget Call))
    (x : Step MemoryBudget Call) : uses pid (tr ++ [x]) = usedBy pid (uses pid tr) x := by
  rw [uses, List.foldl_append]
  rfl

/-- The id counter does not wrap at this step. -/
def Counts (x : Step MemoryBudget Call) : Prop := x.pre.nextId ≤ x.post.nextId

theorem toNat_succ_of_le {n : UInt64} (h : n ≤ n + 1) : (n + 1).toNat = n.toNat + 1 := by
  have hle := UInt64.le_iff_toNat_le.mp h
  have hlt := n.toNat_lt
  have hone : (1 : UInt64).toNat = 1 := rfl
  rw [UInt64.toNat_add] at *
  omega

instance : Decidable (Counts x) := inferInstanceAs (Decidable (_ ≤ _))

/-- **What the history of a run says** about the buckets. -/
structure History (tr : List (Step MemoryBudget Call)) (b : MemoryBudget) : Prop where
  /-- The order of use and the size table of a bucket agree. -/
  matched : ∀ pid, (b.bucketOf pid).Matched
  /-- The counter is past every allocation made. -/
  minted : ∀ x ∈ tr, ∀ p, allocatedBy x = some p → p.2.val < b.nextId
  /-- No two steps made the same allocation. -/
  distinct : tr.Pairwise fun x y => ∀ p q, allocatedBy x = some p → allocatedBy y = some q →
    p.2 ≠ q.2
  /-- A bucket holds allocations made for its identity. -/
  owned : ∀ pid id, id ∈ (b.bucketOf pid).sizes → ∃ x ∈ tr, allocatedBy x = some (pid, id)
  /-- A bucket is in the order of last use. -/
  recent : ∀ pid, (b.bucketOf pid).lru.Sublist (uses pid tr).dedup

theorem history_new : History [] (new profile initialEpoch) := by
  refine ⟨fun pid => ledger_new.toMatched, by simp, List.Pairwise.nil, ?_, ?_⟩
  · intro pid id hid
    simp [bucketOf, new, IdentityBucket.new] at hid
  · exact fun pid => List.Sublist.refl _

theorem History.fresh (h : History tr b) (pid : Uuid) : ⟨b.nextId⟩ ∉ (b.bucketOf pid).sizes := by
  intro hmem
  obtain ⟨x, hx, hp⟩ := h.owned pid _ hmem
  exact absurd (h.minted x hx _ hp) (UInt64.lt_irrefl _)

/-- An allocation was handed to one identity only. -/
theorem History.owner_unique {y : Step MemoryBudget Call} {Q : Uuid} (h : History tr b)
    (hx : x ∈ tr) (hy : y ∈ tr) (hpx : allocatedBy x = some (pid, id))
    (hpy : allocatedBy y = some (Q, id)) : pid = Q := by
  by_contra hne
  have hxy : x ≠ y := by
    rintro rfl
    rw [hpx] at hpy
    exact hne (by simpa using hpy)
  have hsymm : Std.Symm fun x y : Step MemoryBudget Call => ∀ p q, allocatedBy x = some p →
      allocatedBy y = some q → p.2 ≠ q.2 := ⟨fun _ _ hR p q hp hq => (hR q p hq hp).symm⟩
  exact h.distinct.forall hx hy hxy _ _ hpx hpy rfl

theorem History.owned_concat (h : History tr b) (x : Step MemoryBudget Call)
    (hid : id ∈ (b.bucketOf pid).sizes) : ∃ y ∈ tr ++ [x], allocatedBy y = some (pid, id) := by
  obtain ⟨y, hy, hp⟩ := h.owned pid id hid
  exact ⟨y, List.mem_append_left _ hy, hp⟩

/-- A step that allocates nothing, and adds to no size table, keeps the history, if it
keeps the buckets matched and up to date. -/
theorem History.unallocated (h : History tr b) (hx : allocatedBy x = none)
    (hmatched : ∀ pid, (b'.bucketOf pid).Matched) (hnext : b'.nextId = b.nextId)
    (hsizes : ∀ pid id, id ∈ (b'.bucketOf pid).sizes → id ∈ (b.bucketOf pid).sizes)
    (hrecent : ∀ pid, (b'.bucketOf pid).lru.Sublist (uses pid (tr ++ [x])).dedup) :
    History (tr ++ [x]) b' := by
  refine ⟨hmatched, fun y hy p hp => ?_, ?_,
    fun pid id hid => h.owned_concat x (hsizes pid id hid), hrecent⟩
  · rcases List.mem_append.mp hy with hy | hy
    · exact hnext ▸ h.minted y hy p hp
    · rw [List.mem_singleton.mp hy, hx] at hp
      simp at hp
  · refine List.pairwise_append.mpr ⟨h.distinct, List.pairwise_singleton _ _, ?_⟩
    intro y _ z hz p q _ hq
    rw [List.mem_singleton.mp hz, hx] at hq
    simp at hq

/-- A step that only takes allocations out of one bucket keeps the history. -/
theorem History.shrunk (h : History tr b) (hx : allocatedBy x = none)
    (huse : ∀ pid ids, usedBy pid ids x = ids) (pid : Uuid) {bucket : IdentityBucket}
    (hmatched : bucket.Matched) (hlru : bucket.lru.Sublist (b.bucketOf pid).lru)
    (hsizes : ∀ id, id ∈ bucket.sizes → id ∈ (b.bucketOf pid).sizes) :
    History (tr ++ [x]) (b.putBucket pid bucket) := by
  refine h.unallocated hx ?_ rfl ?_ ?_ <;> intro pid'
  · rw [bucketOf_putBucket]
    split
    · exact hmatched
    · exact h.matched pid'
  · rw [bucketOf_putBucket]
    split
    · rename_i hpid
      exact hpid ▸ hsizes
    · exact fun _ hid => hid
  · rw [bucketOf_putBucket, uses_concat, huse]
    split
    · rename_i hpid
      exact hpid ▸ hlru.trans (h.recent pid)
    · exact h.recent pid'

/-- A refused call keeps the history. -/
theorem History.refused (h : History tr b) (hx : allocatedBy x = none)
    (huse : ∀ pid ids, usedBy pid ids x = ids) : History (tr ++ [x]) b :=
  h.unallocated hx h.matched rfl (fun _ _ hid => hid) fun pid => by
    rw [uses_concat, huse]
    exact h.recent pid

/-! ### Every call keeps it -/

/-- **An allocation keeps the history**, as long as the id counter does not wrap. -/
theorem History.tryAllocate (h : History tr b)
    (hx : x = ⟨b, .tryAllocate token size, (b.tryAllocate token size).2⟩) (hcounts : Counts x) :
    History (tr ++ [x]) (b.tryAllocate token size).2 := by
  by_cases hadm : Admitted b token size
  · obtain ⟨hmatched, hsub, hsizes⟩ := (h.matched token.profileId).evict b.profile.capBytes size
    rcases hloop : evictLoop b.profile.capBytes size (b.bucketOf token.profileId).usedBytes
      (b.bucketOf token.profileId).sizes (b.bucketOf token.profileId).lru with ⟨_ | _, bucket⟩
    · -- the loop ran out of entries: what it evicted is gone, and nothing is recorded
      have heq := tryAllocate_exhausted hadm hloop
      rw [hloop] at hmatched hsub hsizes
      rw [heq]
      exact h.shrunk (by simp only [hx, allocatedBy, heq])
        (fun pid ids => by simp only [hx, usedBy, heq]) token.profileId hmatched hsub hsizes
    · have heq := tryAllocate_admitted hadm hloop
      rw [hloop] at hmatched hsub hsizes
      have hmade : allocatedBy x = some (token.profileId, ⟨b.nextId⟩) := by
        simp only [hx, allocatedBy, heq]
      have hnext : b.nextId < b.nextId + 1 := by
        have hle : b.nextId ≤ b.nextId + 1 := by simpa only [Counts, hx, heq] using hcounts
        exact UInt64.lt_of_le_of_ne hle (by simp)
      -- every id in use is below the counter, so the new one is in no bucket
      have hfresh : ⟨b.nextId⟩ ∉ bucket.sizes := fun hin =>
        h.fresh token.profileId (hsizes _ hin)
      rw [heq]
      constructor
      case matched =>
        intro pid
        rw [bucketOf_putBucket_nextId]
        split
        · exact hmatched.insert hfresh _ _
        · exact h.matched pid
      case minted =>
        intro y hy p hp
        rcases List.mem_append.mp hy with hy | hy
        · exact UInt64.lt_trans (h.minted y hy p hp) hnext
        · rw [List.mem_singleton.mp hy, hmade, Option.some.injEq] at hp
          rw [← hp]
          exact hnext
      case distinct =>
        refine List.pairwise_append.mpr ⟨h.distinct, List.pairwise_singleton _ _, ?_⟩
        intro y hy z hz p q hp hq hpq
        rw [List.mem_singleton.mp hz, hmade, Option.some.injEq] at hq
        have hlt := h.minted y hy p hp
        rw [hpq, ← hq] at hlt
        exact UInt64.lt_irrefl _ hlt
      case owned =>
        intro pid id hid
        rw [bucketOf_putBucket_nextId] at hid
        split at hid
        · rename_i hpid
          rcases (AList.mem_insert _).mp hid with rfl | hin
          · exact ⟨x, List.mem_append_right _ (List.mem_singleton_self x), hpid ▸ hmade⟩
          · exact h.owned_concat x (hpid ▸ hsizes id hin)
        · exact h.owned_concat x hid
      case recent =>
        intro pid
        rw [bucketOf_putBucket_nextId, uses_concat]
        simp only [hx, usedBy, heq]
        split
        · rename_i hpid
          have huse := Lru.sublist_dedup_use (k := (⟨b.nextId⟩ : AllocationId))
            (hsub.trans (h.recent token.profileId))
          have hall : bucket.lru.filter (fun id' => id' ≠ ⟨b.nextId⟩) = bucket.lru := by
            refine List.filter_eq_self.mpr fun id' hid' => decide_eq_true fun hid => ?_
            rw [hid] at hid'
            exact hfresh ((hmatched.mem_iff _).mp hid')
          rw [hall] at huse
          rwa [if_pos hpid.symm, hpid]
        · rename_i hpid
          rw [if_neg (Ne.symm hpid)]
          exact h.recent pid
  · have heq := tryAllocate_refused hadm
    rw [heq]
    exact h.refused (by simp only [hx, allocatedBy, heq]) fun pid ids => by
      simp only [hx, usedBy, heq]

/-- A touch keeps the history. -/
theorem History.touch (h : History tr b)
    (hx : x = ⟨b, .touch token id, (b.touch token id).2⟩) :
    History (tr ++ [x]) (b.touch token id).2 := by
  rcases touch_cases b token id with ⟨hholds, heq⟩ | ⟨-, heq⟩
  · have hmatched := h.matched token.profileId
    rw [heq]
    refine h.unallocated (by rw [hx]; rfl) ?_ rfl ?_ ?_ <;> intro pid
    · rw [bucketOf_putBucket]
      split
      · exact hmatched.touch hholds.2
      · exact h.matched pid
    · rw [bucketOf_putBucket]
      split
      · rename_i hpid
        exact fun _ hid' => hpid ▸ hid'
      · exact fun _ hid' => hid'
    · rw [bucketOf_putBucket, uses_concat]
      simp only [hx, usedBy, heq]
      split
      · rename_i hpid
        have huse := Lru.sublist_dedup_use (k := id) (h.recent token.profileId)
        rwa [if_pos hpid.symm, hpid, erase_eq_filter_ne hmatched.nodup]
      · rename_i hpid
        rw [if_neg (Ne.symm hpid)]
        exact h.recent pid
  · rw [heq]
    exact h.refused (by rw [hx]; rfl) fun pid ids => by simp only [hx, usedBy, heq]

/-- A release keeps the history. -/
theorem History.release (h : History tr b)
    (hx : x = ⟨b, .release token id, (b.release token id).2⟩) :
    History (tr ++ [x]) (b.release token id).2 := by
  rcases release_cases b token id with ⟨size, -, -, heq⟩ | ⟨-, heq⟩
  · rw [heq]
    exact h.shrunk (by rw [hx]; rfl) (fun pid ids => by rw [hx]; rfl) token.profileId
      ((h.matched _).erase id _) List.erase_sublist fun id' hid' => (AList.mem_erase.mp hid').2
  · rw [heq]
    exact h.refused (by rw [hx]; rfl) fun pid ids => by rw [hx]; rfl

/-- **Every call keeps the history**, as long as the id counter does not wrap. -/
theorem History.step (h : History tr b) (hstep : b.step c = some b') (hcounts : Counts ⟨b, c, b'⟩) :
    History (tr ++ [⟨b, c, b'⟩]) b' := by
  obtain rfl := Option.some.inj hstep
  cases c with
  | tryAllocate token size => exact h.tryAllocate rfl hcounts
  | touch token id => exact h.touch rfl
  | release token id => exact h.release rfl
  | onRecovery newEpoch =>
    refine h.unallocated rfl (fun pid => ledger_new.toMatched) rfl ?_ fun pid => List.nil_sublist _
    intro pid id hid
    simp [call, bucketOf_onRecovery, IdentityBucket.new] at hid

theorem history_of_run (h : Run profile initialEpoch tr b) (hcounts : ∀ x ∈ tr, Counts x) :
    History tr b :=
  h.invariant_where (C := Counts) history_new
    (fun _ _ _ _ _ hi hstep hx => hi.step hstep hx) hcounts

end MemoryBudget

end Gpu

end DevBrowse
