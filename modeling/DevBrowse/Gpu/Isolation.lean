import DevBrowse.Gpu.BudgetHistory

/-!
# The identities are isolated from each other

The identities share one counter of allocation ids and nothing else. What an identity
sees of the budget is therefore what it would see alone, except for the numbers its
allocations are given. To say so without numbers, an identity's calls are rewritten with
its own numbering: the allocation it obtained first is `1`, the next `2`, and an id that
was never handed to it is `0` (`DevBrowse.Gpu.MemoryBudget.canon`). What is left of a run
when the calls of all others are dropped and the remaining ones are so rewritten is a list
of calls again (`DevBrowse.Gpu.MemoryBudget.purge`), and a fresh budget that gets just
these calls, and so hands out just these numbers, mirrors the identity's bucket call by
call (`DevBrowse.Gpu.MemoryBudget.mirror_of_run`). Two runs that leave the same calls thus
look the same to the identity.

All of it is about runs in which the shared counter does not wrap. Once it has, an id that
one identity still holds is handed to another
(`DevBrowse.Gpu.MemoryBudget.reissued_wrapped`).
-/

namespace DevBrowse

namespace Gpu

open Transition (Step)

open IdentityBucket

namespace IdentityBucket

variable {ρ ρ' : AllocationId → AllocationId} {bucket bucket' : IdentityBucket}
  {id : AllocationId} {cap size used : UInt64} {sizes sizes' : HashMap AllocationId UInt64}
  {lru : List AllocationId}

/-! ### A bucket under other numbers -/

/-- One bucket is the other under the numbering `ρ`. -/
structure Mirrors (ρ : AllocationId → AllocationId) (bucket bucket' : IdentityBucket) : Prop where
  /-- The same bytes are in use. -/
  used_eq : bucket'.usedBytes = bucket.usedBytes
  /-- The order of use is the same. -/
  lru_eq : bucket'.lru = bucket.lru.map ρ
  /-- The sizes are the same. -/
  sizes_eq : ∀ id ∈ bucket.lru, bucket'.sizes.lookup (ρ id) = bucket.sizes.lookup id

/-- The numbering tells the allocations listed from every other. -/
def Separates (ρ : AllocationId → AllocationId) (lru : List AllocationId) : Prop :=
  ∀ id ∈ lru, ∀ id', ρ id' = ρ id → id' = id

theorem Separates.map_erase (h : Separates ρ lru) (hid : id ∈ lru) :
    (lru.map ρ).erase (ρ id) = (lru.erase id).map ρ := by
  induction lru with
  | nil => simp at hid
  | cons a lru ih =>
    by_cases ha : a = id
    · rw [ha, List.map_cons, List.erase_cons_head, List.erase_cons_head]
    · have hne : ρ a ≠ ρ id := fun heq => ha (h id hid a heq)
      have hid' : id ∈ lru := (List.mem_cons.mp hid).resolve_left (Ne.symm ha)
      rw [List.map_cons, List.erase_cons_tail (by simpa using hne),
        List.erase_cons_tail (by simpa using ha), List.map_cons,
        ih (fun a ha => h a (List.mem_cons_of_mem _ ha)) hid']

/-- **The eviction loop does not look at the numbers.** -/
theorem evictLoop_mirrors (hsep : Separates ρ lru) (hnodup : lru.Nodup)
    (hsizes : ∀ id ∈ lru, sizes'.lookup (ρ id) = sizes.lookup id) :
    (evictLoop cap size used sizes' (lru.map ρ)).1 = (evictLoop cap size used sizes lru).1 ∧
      Mirrors ρ (evictLoop cap size used sizes lru).2
        (evictLoop cap size used sizes' (lru.map ρ)).2 := by
  induction lru generalizing used sizes sizes' with
  | nil =>
    rw [List.map_nil, evictLoop, evictLoop]
    split <;> exact ⟨rfl, rfl, rfl, by simp⟩
  | cons id lru ih =>
    obtain ⟨hid, hlru⟩ := List.nodup_cons.mp hnodup
    rw [List.map_cons, evictLoop, evictLoop, hsizes id List.mem_cons_self]
    split
    · refine ih (fun a ha => hsep a (List.mem_cons_of_mem _ ha)) hlru fun a ha => ?_
      have hne : a ≠ id := by
        rintro rfl
        exact hid ha
      have hne' : ρ a ≠ ρ id := fun heq => hne (hsep id List.mem_cons_self a heq)
      rw [HashMap.lookup_erase_eq, HashMap.lookup_erase_eq, if_neg hne, if_neg hne',
        hsizes a (List.mem_cons_of_mem _ ha)]
    · exact ⟨rfl, rfl, rfl, hsizes⟩

theorem Mirrors.evict (h : Mirrors ρ bucket bucket') (hsep : Separates ρ bucket.lru)
    (hnodup : bucket.lru.Nodup) (cap size : UInt64) :
    (evictLoop cap size bucket'.usedBytes bucket'.sizes bucket'.lru).1 =
        (evictLoop cap size bucket.usedBytes bucket.sizes bucket.lru).1 ∧
      Mirrors ρ (evictLoop cap size bucket.usedBytes bucket.sizes bucket.lru).2
        (evictLoop cap size bucket'.usedBytes bucket'.sizes bucket'.lru).2 := by
  rw [h.lru_eq, h.used_eq]
  exact evictLoop_mirrors hsep hnodup h.sizes_eq

/-- An allocation is held under one numbering exactly when it is under the other. -/
theorem Mirrors.mem_sizes_iff (h : Mirrors ρ bucket bucket') (hm : bucket.Matched)
    (hm' : bucket'.Matched) (hsep : Separates ρ bucket.lru) (id : AllocationId) :
    ρ id ∈ bucket'.sizes ↔ id ∈ bucket.sizes := by
  rw [← hm.mem_iff, ← hm'.mem_iff, h.lru_eq, List.mem_map]
  constructor
  · rintro ⟨a, ha, heq⟩
    exact hsep a ha id heq.symm ▸ ha
  · exact fun hid => ⟨id, hid, rfl⟩

theorem Mirrors.touch (h : Mirrors ρ bucket bucket') (hsep : Separates ρ bucket.lru)
    (hid : id ∈ bucket.lru) :
    Mirrors ρ { bucket with lru := bucket.lru.erase id ++ [id] }
      { bucket' with lru := bucket'.lru.erase (ρ id) ++ [ρ id] } := by
  refine ⟨h.used_eq, ?_, fun a ha => h.sizes_eq a ?_⟩
  · rw [h.lru_eq, hsep.map_erase hid, List.map_append]
    rfl
  · rcases List.mem_append.mp ha with ha | ha
    · exact List.mem_of_mem_erase ha
    · exact List.mem_singleton.mp ha ▸ hid

theorem Mirrors.release (h : Mirrors ρ bucket bucket') (hnodup : bucket.lru.Nodup)
    (hsep : Separates ρ bucket.lru) (hid : id ∈ bucket.lru) (size : UInt64) :
    Mirrors ρ
      ⟨saturatingSub bucket.usedBytes size, bucket.lru.erase id, bucket.sizes.erase id⟩
      ⟨saturatingSub bucket'.usedBytes size, bucket'.lru.erase (ρ id),
        bucket'.sizes.erase (ρ id)⟩ := by
  refine ⟨by rw [h.used_eq], by rw [h.lru_eq, hsep.map_erase hid], fun a ha => ?_⟩
  obtain ⟨hne, hin⟩ := hnodup.mem_erase_iff.mp ha
  have hne' : ρ a ≠ ρ id := fun heq => hne (hsep id hid a heq)
  rw [HashMap.lookup_erase_eq, HashMap.lookup_erase_eq, if_neg hne, if_neg hne', h.sizes_eq a hin]

/-- A fresh allocation is added under a numbering that extends the old one. -/
theorem Mirrors.insert (h : Mirrors ρ bucket bucket') (hext : ∀ a ∈ bucket.lru, ρ' a = ρ a)
    (hsep : Separates ρ' (bucket.lru ++ [id])) (hid : id ∉ bucket.lru) (size : UInt64) :
    Mirrors ρ'
      ⟨saturatingAdd bucket.usedBytes size, bucket.lru ++ [id], bucket.sizes.insert id size⟩
      ⟨saturatingAdd bucket'.usedBytes size, bucket'.lru ++ [ρ' id],
        bucket'.sizes.insert (ρ' id) size⟩ := by
  refine ⟨by rw [h.used_eq], ?_, fun a ha => ?_⟩
  · rw [h.lru_eq, List.map_append, List.map_congr_left hext]
    rfl
  · rw [HashMap.lookup_insert_eq, HashMap.lookup_insert_eq]
    rcases List.mem_append.mp ha with hin | heq
    · have hne : a ≠ id := by
        rintro rfl
        exact hid hin
      have hne' : ρ' a ≠ ρ' id := fun heq => hne (hsep id (by simp) a heq)
      rw [if_neg hne, if_neg hne', hext a hin, h.sizes_eq a hin]
    · rw [List.mem_singleton.mp heq, if_pos rfl, if_pos rfl]

end IdentityBucket

namespace MemoryBudget

variable {P : Uuid} {b a : MemoryBudget} {c : Call} {token : ScopeToken} {size : UInt64}
  {id : AllocationId} {ids : List AllocationId} {profile : BudgetProfile}
  {initialEpoch : UInt64} {tr tr₁ tr₂ : List (Step MemoryBudget Call)}
  {x : Step MemoryBudget Call}

/-! ### An identity's own numbering -/

/-- What a call answers. -/
abbrev Answer := Except BudgetError (Option AllocationId)

/-- The allocation a step handed to the identity, if it did. -/
def handedBy (P : Uuid) (x : Step MemoryBudget Call) : Option AllocationId :=
  (allocatedBy x).bind fun p => if p.1 = P then some p.2 else none

/-- The allocations handed to the identity, in order. -/
def idsOf (P : Uuid) (tr : List (Step MemoryBudget Call)) : List AllocationId :=
  tr.filterMap (handedBy P)

/-- The identity's own number for an allocation: the first it was handed is `1`, and one
it was not handed is `0`. -/
def canon (ids : List AllocationId) (id : AllocationId) : AllocationId :=
  if id ∈ ids then ⟨.ofNat (ids.idxOf id + 1)⟩ else ⟨0⟩

/-- A call as the identity makes it, under its own numbering; the calls of others are
none of its. -/
def visible (P : Uuid) (ids : List AllocationId) : Call → Option Call
  | .tryAllocate token size => if token.profileId = P then some (.tryAllocate token size) else none
  | .touch token id => if token.profileId = P then some (.touch token (canon ids id)) else none
  | .release token id => if token.profileId = P then some (.release token (canon ids id)) else none
  | .onRecovery newEpoch => some (.onRecovery newEpoch)

/-- What the identity sees of a step: its call and the answer, under its own numbering. -/
def seen (P : Uuid) (ids : List AllocationId) (x : Step MemoryBudget Call) :
    List (Call × Answer) :=
  match visible P ids x.input with
  | some c => [(c, (x.pre.call x.input).1.map (Option.map (canon (ids ++ (handedBy P x).toList))))]
  | none => []

/-- What the identity sees of a run, when it was handed `ids` before. -/
def viewFrom (P : Uuid) : List AllocationId → List (Step MemoryBudget Call) → List (Call × Answer)
  | _, [] => []
  | ids, x :: tr => seen P ids x ++ viewFrom P (ids ++ (handedBy P x).toList) tr

/-- **The identity's calls in a run**, with those of all others dropped. -/
def purge (P : Uuid) (tr : List (Step MemoryBudget Call)) : List Call :=
  (viewFrom P [] tr).map Prod.fst

/-- The answers to the identity's calls in a run. -/
def answers (P : Uuid) (tr : List (Step MemoryBudget Call)) : List Answer :=
  (viewFrom P [] tr).map Prod.snd

theorem idsOf_concat (tr : List (Step MemoryBudget Call)) (x : Step MemoryBudget Call) :
    idsOf P (tr ++ [x]) = idsOf P tr ++ (handedBy P x).toList := by
  rw [idsOf, List.filterMap_append, idsOf]
  cases h : handedBy P x <;> simp [h]

theorem viewFrom_concat (ids : List AllocationId) (tr : List (Step MemoryBudget Call))
    (x : Step MemoryBudget Call) :
    viewFrom P ids (tr ++ [x]) = viewFrom P ids tr ++ seen P (ids ++ idsOf P tr) x := by
  induction tr generalizing ids with
  | nil => simp [viewFrom, idsOf]
  | cons y tr ih =>
    have hids : idsOf P (y :: tr) = (handedBy P y).toList ++ idsOf P tr := by
      cases h : handedBy P y <;> simp [idsOf, h]
    rw [List.cons_append, viewFrom, viewFrom, ih, hids, List.append_assoc, List.append_assoc]

theorem view_concat (tr : List (Step MemoryBudget Call)) (x : Step MemoryBudget Call) :
    viewFrom P [] (tr ++ [x]) = viewFrom P [] tr ++ seen P (idsOf P tr) x := by
  rw [viewFrom_concat, List.nil_append]

theorem canon_of_mem (h : id ∈ ids) : canon ids id = ⟨.ofNat (ids.idxOf id + 1)⟩ := if_pos h

theorem canon_append (h : id ∈ ids) (ids' : List AllocationId) :
    canon (ids ++ ids') id = canon ids id := by
  rw [canon_of_mem h, canon_of_mem (List.mem_append_left _ h), List.idxOf_append_of_mem h]

theorem canon_concat (h : id ∉ ids) :
    canon (ids ++ [id]) id = ⟨.ofNat (ids.length + 1)⟩ := by
  rw [canon_of_mem (by simp), List.idxOf_append_of_notMem h]
  simp

/-- The identity's numbering tells its allocations from all others, as long as there are
fewer of them than words. -/
theorem separates_canon (hlen : ids.length + 1 < 2 ^ 64) : Separates (canon ids) ids := by
  intro id hid id' heq
  have hsize : UInt64.size = 2 ^ 64 := rfl
  have hlt := List.idxOf_lt_length_of_mem hid
  rw [canon_of_mem hid, AllocationId.mk.injEq] at heq
  have hval := congrArg UInt64.toNat heq
  rw [UInt64.toNat_ofNat_of_lt' (by omega)] at hval
  by_cases hid' : id' ∈ ids
  · have hlt' := List.idxOf_lt_length_of_mem hid'
    rw [canon_of_mem hid', UInt64.toNat_ofNat_of_lt' (by omega)] at hval
    exact ((List.idxOf_inj hid').mp (by omega))
  · rw [canon, if_neg hid'] at hval
    simp at hval

/-! ### Alone -/

/-- The budget after a list of calls. -/
def after (b : MemoryBudget) : List Call → MemoryBudget
  | [] => b
  | c :: cs => after (b.call c).2 cs

/-- The answers to a list of calls. -/
def replies (b : MemoryBudget) : List Call → List Answer
  | [] => []
  | c :: cs => (b.call c).1 :: replies (b.call c).2 cs

theorem after_append (b : MemoryBudget) (cs ds : List Call) :
    b.after (cs ++ ds) = (b.after cs).after ds := by
  induction cs generalizing b with
  | nil => rfl
  | cons c cs ih => exact ih _

theorem replies_append (b : MemoryBudget) (cs ds : List Call) :
    b.replies (cs ++ ds) = b.replies cs ++ (b.after cs).replies ds := by
  induction cs generalizing b with
  | nil => rfl
  | cons c cs ih => rw [List.cons_append, replies, replies, ih, List.cons_append, after]

/-- **The budget of an identity alone mirrors its bucket in a shared one.** -/
structure Mirror (P : Uuid) (ids : List AllocationId) (b a : MemoryBudget) : Prop where
  /-- The same cap. -/
  profile_eq : a.profile = b.profile
  /-- The same epoch. -/
  epoch_eq : a.epoch = b.epoch
  /-- The counter of the budget alone is past the allocations of the identity. -/
  nextId_eq : a.nextId.toNat = ids.length + 1
  /-- The bucket of the budget alone is matched. -/
  matched : (a.bucketOf P).Matched
  /-- The buckets are the same, up to the numbering. -/
  mirrors : Mirrors (canon ids) (b.bucketOf P) (a.bucketOf P)

/-- What is known about the shared budget when a call is made on it. -/
structure Shared (P : Uuid) (ids : List AllocationId) (b : MemoryBudget) : Prop where
  /-- The buckets are matched. -/
  matched : ∀ pid, (b.bucketOf pid).Matched
  /-- The bucket of the identity holds allocations handed to it. -/
  owned : ∀ id, id ∈ (b.bucketOf P).lru → id ∈ ids
  /-- The next number was not handed to it. -/
  fresh : ⟨b.nextId⟩ ∉ ids
  /-- It was handed fewer allocations than the counter has counted. -/
  few : ids.length < b.nextId.toNat

theorem Shared.separates (h : Shared P ids b) : Separates (canon ids) (b.bucketOf P).lru := by
  have hlt := b.nextId.toNat_lt
  have hfew := h.few
  exact fun id hid => separates_canon (by omega) id (h.owned id hid)

/-- Holding an allocation does not depend on the numbering. -/
theorem Mirror.holds_iff (h : Mirror P ids b a) (hb : Shared P ids b) (htoken : token.profileId = P)
    (id : AllocationId) : Holds a token (canon ids id) ↔ Holds b token id := by
  subst htoken
  rw [Holds, Holds, h.epoch_eq,
    h.mirrors.mem_sizes_iff (hb.matched _) h.matched hb.separates id]

theorem Mirror.rejection_eq (h : Mirror P ids b a) (token : ScopeToken) :
    a.rejection token = b.rejection token := by
  rw [rejection, rejection, h.epoch_eq]

theorem Mirror.putBucket (h : Mirror P ids b a) {bucket bucket' : IdentityBucket}
    (hmatched : bucket'.Matched) (hmirrors : Mirrors (canon ids) bucket bucket') :
    Mirror P ids (b.putBucket P bucket) (a.putBucket P bucket') := by
  refine ⟨h.profile_eq, h.epoch_eq, h.nextId_eq, ?_, ?_⟩
  · rwa [bucketOf_putBucket, if_pos rfl]
  · rwa [bucketOf_putBucket, bucketOf_putBucket, if_pos rfl, if_pos rfl]

/-- A call that leaves the identity's bucket alone is not mirrored. -/
theorem Mirror.hidden (h : Mirror P ids b a) {b' : MemoryBudget} (hprofile : b'.profile = b.profile)
    (hepoch : b'.epoch = b.epoch) (hbucket : b'.bucketOf P = b.bucketOf P) : Mirror P ids b' a :=
  ⟨h.profile_eq.trans hprofile.symm, h.epoch_eq.trans hepoch.symm, h.nextId_eq, h.matched,
    hbucket ▸ h.mirrors⟩

theorem Mirror.touch (h : Mirror P ids b a) (hb : Shared P ids b) (htoken : token.profileId = P)
    (id : AllocationId) :
    (a.touch token (canon ids id)).1 = (b.touch token id).1 ∧
      Mirror P ids (b.touch token id).2 (a.touch token (canon ids id)).2 := by
  have hiff := h.holds_iff hb htoken id
  rcases touch_cases b token id with ⟨hholds, heq⟩ | ⟨hnot, heq⟩
  · rcases touch_cases a token (canon ids id) with ⟨hholds', heq'⟩ | ⟨hnot', -⟩
    · subst htoken
      rw [heq, heq']
      exact ⟨rfl, h.putBucket (h.matched.touch hholds'.2)
        (h.mirrors.touch hb.separates (((hb.matched _).mem_iff id).mpr hholds.2))⟩
    · exact absurd (hiff.mpr hholds) hnot'
  · rcases touch_cases a token (canon ids id) with ⟨hholds', -⟩ | ⟨-, heq'⟩
    · exact absurd (hiff.mp hholds') hnot
    · rw [heq, heq', h.rejection_eq]
      exact ⟨rfl, h⟩

theorem Mirror.release (h : Mirror P ids b a) (hb : Shared P ids b) (htoken : token.profileId = P)
    (id : AllocationId) :
    (a.release token (canon ids id)).1 = (b.release token id).1 ∧
      Mirror P ids (b.release token id).2 (a.release token (canon ids id)).2 := by
  have hiff := h.holds_iff hb htoken id
  rcases release_cases b token id with ⟨size, hholds, hsize, heq⟩ | ⟨hnot, heq⟩
  · rcases release_cases a token (canon ids id) with ⟨size', hholds', hsize', heq'⟩ | ⟨hnot', -⟩
    · subst htoken
      have hin := ((hb.matched _).mem_iff id).mpr hholds.2
      obtain rfl : size' = size := by
        rw [h.mirrors.sizes_eq id hin, hsize] at hsize'
        exact (Option.some.inj hsize').symm
      rw [heq, heq']
      exact ⟨rfl, h.putBucket (h.matched.erase _ _)
        (h.mirrors.release (hb.matched _).nodup hb.separates hin size')⟩
    · exact absurd (hiff.mpr hholds) hnot'
  · rcases release_cases a token (canon ids id) with ⟨_, hholds', -⟩ | ⟨-, heq'⟩
    · exact absurd (hiff.mp hholds') hnot
    · rw [heq, heq', h.rejection_eq]
      exact ⟨rfl, h⟩

/-- The next number of the budget alone is the number of the allocation that is made next. -/
theorem Mirror.canon_nextId (h : Mirror P ids b a) (hb : Shared P ids b) :
    (⟨a.nextId⟩ : AllocationId) = canon (ids ++ [⟨b.nextId⟩]) ⟨b.nextId⟩ := by
  rw [canon_concat hb.fresh, ← h.nextId_eq, UInt64.ofNat_toNat]

/-- **A new allocation is added on both sides**, to buckets that mirror each other. -/
theorem Mirror.allocated (h : Mirror P ids b a) (hb : Shared P ids b)
    (hnext : (b.nextId + 1).toNat = b.nextId.toNat + 1) {bucket bucket' : IdentityBucket}
    (hlru : ∀ id ∈ bucket.lru, id ∈ ids) (hmatched : bucket'.Matched)
    (hmirrors : Mirrors (canon ids) bucket bucket') :
    Mirror P (ids ++ [⟨b.nextId⟩])
      { b.putBucket P ⟨saturatingAdd bucket.usedBytes size, bucket.lru ++ [⟨b.nextId⟩],
          bucket.sizes.insert ⟨b.nextId⟩ size⟩ with nextId := b.nextId + 1 }
      { a.putBucket P ⟨saturatingAdd bucket'.usedBytes size, bucket'.lru ++ [⟨a.nextId⟩],
          bucket'.sizes.insert ⟨a.nextId⟩ size⟩ with nextId := a.nextId + 1 } := by
  have hlt := (b.nextId + 1).toNat_lt
  have hfew := hb.few
  have hcanon := h.canon_nextId hb
  -- the new id is new on both sides, and its number is the next on both
  have hnew : ⟨b.nextId⟩ ∉ bucket.lru := fun hin => hb.fresh (hlru _ hin)
  have hsep : Separates (canon (ids ++ [⟨b.nextId⟩])) (bucket.lru ++ [⟨b.nextId⟩]) := by
    intro id hid
    refine separates_canon (by simp only [List.length_append, List.length_singleton]; omega)
      id ?_
    exact List.mem_append.mpr ((List.mem_append.mp hid).imp_left (hlru id))
  have hnext' : (a.nextId + 1).toNat = ids.length + 1 + 1 := by
    rw [UInt64.toNat_add, h.nextId_eq]
    have hone : (1 : UInt64).toNat = 1 := rfl
    omega
  have hin := hmirrors.insert (fun id hid => canon_append (hlru id hid) _) hsep hnew size
  have hfresh : (⟨a.nextId⟩ : AllocationId) ∉ bucket'.sizes := by
    intro hmem
    rw [← hmatched.mem_iff, hmirrors.lru_eq, List.mem_map] at hmem
    obtain ⟨id, hid, heq⟩ := hmem
    rw [hcanon, ← canon_append (hlru id hid) [⟨b.nextId⟩]] at heq
    exact hnew (hsep _ (by simp) id heq ▸ hid)
  refine ⟨h.profile_eq, h.epoch_eq, ?_, ?_, ?_⟩
  · simpa using hnext'
  · rw [bucketOf_putBucket_nextId, if_pos rfl]
    exact hmatched.insert hfresh _ _
  · rw [bucketOf_putBucket_nextId, bucketOf_putBucket_nextId, if_pos rfl, if_pos rfl, hcanon]
    exact hin

/-- The request is refused on both sides, gives up on both sides, or succeeds on both
sides, with the next number of each. -/
theorem Mirror.tryAllocate (h : Mirror P ids b a) (hb : Shared P ids b)
    (htoken : token.profileId = P) (hcounts : b.nextId ≤ (b.tryAllocate token size).2.nextId) :
    (∃ e, (b.tryAllocate token size).1 = .error e ∧ (a.tryAllocate token size).1 = .error e ∧
      Mirror P ids (b.tryAllocate token size).2 (a.tryAllocate token size).2) ∨
    ((b.tryAllocate token size).1 = .ok ⟨b.nextId⟩ ∧
      b.nextId.toNat < (b.tryAllocate token size).2.nextId.toNat ∧
      (a.tryAllocate token size).1 = .ok (canon (ids ++ [⟨b.nextId⟩]) ⟨b.nextId⟩) ∧
      Mirror P (ids ++ [⟨b.nextId⟩]) (b.tryAllocate token size).2
        (a.tryAllocate token size).2) := by
  subst htoken
  have hiff : Admitted a token size ↔ Admitted b token size := by
    rw [Admitted, Admitted, h.profile_eq, h.epoch_eq]
  by_cases hadm : Admitted b token size
  · have hadm' := hiff.mpr hadm
    obtain ⟨hanswer, hmirrors⟩ :=
      h.mirrors.evict hb.separates (hb.matched _).nodup b.profile.capBytes size
    obtain ⟨hmatched, hsub, hsizes⟩ := (hb.matched token.profileId).evict b.profile.capBytes size
    have hmatched' := (h.matched.evict b.profile.capBytes size).1
    have hsizes' := (h.matched.evict b.profile.capBytes size).2.2
    -- the two loops evict the same entries, so they succeed together or fail together
    rcases hloop : evictLoop b.profile.capBytes size (b.bucketOf token.profileId).usedBytes
      (b.bucketOf token.profileId).sizes (b.bucketOf token.profileId).lru with
        ⟨e | ⟨⟨⟩⟩, bucket⟩ <;>
    rcases hloop' : evictLoop b.profile.capBytes size (a.bucketOf token.profileId).usedBytes
      (a.bucketOf token.profileId).sizes (a.bucketOf token.profileId).lru with
        ⟨e' | ⟨⟨⟩⟩, bucket'⟩ <;>
    simp only [hloop, hloop'] at hanswer hmirrors hmatched hsub hsizes hmatched' hsizes'
    · obtain rfl : e' = e := by simpa using hanswer
      have heq := tryAllocate_exhausted hadm hloop
      have heq' := tryAllocate_exhausted hadm' (h.profile_eq ▸ hloop')
      rw [heq, heq']
      exact Or.inl ⟨e', rfl, rfl, h.putBucket hmatched' hmirrors⟩
    · simp at hanswer
    · simp at hanswer
    · have heq := tryAllocate_admitted hadm hloop
      have heq' := tryAllocate_admitted hadm' (h.profile_eq ▸ hloop')
      rw [heq] at hcounts
      have hnext := toNat_succ_of_le hcounts
      have hlru : ∀ id ∈ bucket.lru, id ∈ ids := fun id hid => hb.owned id (hsub.subset hid)
      rw [heq, heq']
      exact Or.inr ⟨rfl, by simp only; omega, by rw [h.canon_nextId hb],
        h.allocated hb hnext hlru hmatched' hmirrors⟩
  · have heq := tryAllocate_refused hadm
    have heq' := tryAllocate_refused (mt hiff.mp hadm)
    have hrefusal : a.refusal size = b.refusal size := by rw [refusal, refusal, h.profile_eq]
    rw [heq, heq', hrefusal]
    exact Or.inl ⟨_, rfl, rfl, h⟩

/-! ### A run and its purge -/

theorem mem_idsOf : id ∈ idsOf P tr ↔ ∃ x ∈ tr, allocatedBy x = some (P, id) := by
  rw [idsOf, List.mem_filterMap]
  refine exists_congr fun x => and_congr_right fun _ => ?_
  rw [handedBy, Option.bind_eq_some_iff]
  constructor
  · rintro ⟨p, hp, hid⟩
    split at hid
    · rename_i hP
      rw [hp, ← hP, ← Option.some.inj hid]
    · simp at hid
  · exact fun hp => ⟨(P, id), hp, if_pos rfl⟩

theorem History.shared (h : History tr b) (hfew : (idsOf P tr).length < b.nextId.toNat) :
    Shared P (idsOf P tr) b := by
  refine ⟨h.matched, fun id hid => ?_, fun hmem => ?_, hfew⟩
  · exact mem_idsOf.mpr (h.owned P id (((h.matched P).mem_iff id).mp hid))
  · obtain ⟨x, hx, hp⟩ := mem_idsOf.mp hmem
    exact absurd (h.minted x hx _ hp) (UInt64.lt_irrefl _)

/-- A call that is none of the identity's leaves its bucket alone. -/
theorem frame_hidden (hc : visible P ids c = none) :
    (b.call c).2.profile = b.profile ∧ (b.call c).2.epoch = b.epoch ∧
      (b.call c).2.bucketOf P = b.bucketOf P ∧ handedBy P ⟨b, c, (b.call c).2⟩ = none := by
  cases c with
  | tryAllocate token size =>
    have hne : token.profileId ≠ P := by simpa [visible] using hc
    have hframe := frame_tryAllocate b token size
    refine ⟨hframe.profile_eq, hframe.epoch_eq, hframe.bucketOf_eq P (Ne.symm hne), ?_⟩
    simp only [handedBy, allocatedBy]
    cases (b.tryAllocate token size).1 with
    | ok id => exact if_neg hne
    | error e => rfl
  | touch token id =>
    have hne : token.profileId ≠ P := by simpa [visible] using hc
    have hframe := frame_touch b token id
    exact ⟨hframe.profile_eq, hframe.epoch_eq, hframe.bucketOf_eq P (Ne.symm hne), rfl⟩
  | release token id =>
    have hne : token.profileId ≠ P := by simpa [visible] using hc
    have hframe := frame_release b token id
    exact ⟨hframe.profile_eq, hframe.epoch_eq, hframe.bucketOf_eq P (Ne.symm hne), rfl⟩
  | onRecovery newEpoch => simp [visible] at hc

/-- A call of the identity's is answered by the budget alone, up to the numbering. -/
theorem Mirror.visible {c' : Call} (h : Mirror P ids b a) (hb : Shared P ids b)
    (hc : visible P ids c = some c') (hx : x = ⟨b, c, (b.call c).2⟩) (hcounts : Counts x) :
    (ids ++ (handedBy P x).toList).length < (b.call c).2.nextId.toNat ∧
    Mirror P (ids ++ (handedBy P x).toList) (b.call c).2 (a.call c').2 ∧
    (a.call c').1 =
      (b.call c).1.map (Option.map (canon (ids ++ (handedBy P x).toList))) := by
  have hle : b.nextId.toNat ≤ (b.call c).2.nextId.toNat := by
    rw [hx] at hcounts
    exact UInt64.le_iff_toNat_le.mp hcounts
  have hfew := hb.few
  have hquiet : handedBy P x = none → ids ++ (handedBy P x).toList = ids := fun hnone => by
    rw [hnone]
    exact List.append_nil ids
  cases c with
  | tryAllocate token size =>
    simp only [MemoryBudget.visible] at hc
    split at hc
    · rename_i htoken
      obtain rfl := Option.some.inj hc
      have hcounts' : b.nextId ≤ (b.tryAllocate token size).2.nextId := by rwa [hx] at hcounts
      rcases h.tryAllocate hb htoken hcounts' with ⟨e, he, he', hm⟩ | ⟨hok, hlt, hok', hm⟩
      · have hnone : handedBy P x = none := by simp [hx, handedBy, allocatedBy, he]
        rw [hquiet hnone]
        exact ⟨by omega, hm, by rw [call, call, he, he']; rfl⟩
      · have hsome : handedBy P x = some ⟨b.nextId⟩ := by
          simp [hx, handedBy, allocatedBy, hok, htoken]
        rw [hsome, Option.toList_some, List.length_append, List.length_singleton]
        refine ⟨?_, hm, by rw [call, call, hok, hok']; rfl⟩
        simp only [call]
        omega
    · simp at hc
  | touch token id =>
    simp only [MemoryBudget.visible] at hc
    split at hc
    · rename_i htoken
      obtain rfl := Option.some.inj hc
      obtain ⟨hanswer, hm⟩ := h.touch hb htoken id
      rw [hquiet (by rw [hx]; rfl)]
      refine ⟨by omega, hm, ?_⟩
      rw [call, call, hanswer]
      cases (b.touch token id).1 <;> rfl
    · simp at hc
  | release token id =>
    simp only [MemoryBudget.visible] at hc
    split at hc
    · rename_i htoken
      obtain rfl := Option.some.inj hc
      obtain ⟨hanswer, hm⟩ := h.release hb htoken id
      rw [hquiet (by rw [hx]; rfl)]
      refine ⟨by omega, hm, ?_⟩
      rw [call, call, hanswer]
      cases (b.release token id).1 <;> rfl
    · simp at hc
  | onRecovery newEpoch =>
    obtain rfl := Option.some.inj hc
    rw [hquiet (by rw [hx]; rfl)]
    refine ⟨by omega, ⟨h.profile_eq, rfl, h.nextId_eq, ledger_new.toMatched, rfl, rfl, ?_⟩, rfl⟩
    simp [call, bucketOf_onRecovery, IdentityBucket.new]

/-- What the identity sees of one step is what the budget alone does on its call. -/
theorem Mirror.step (h : Mirror P (idsOf P tr) b a) (hb : Shared P (idsOf P tr) b)
    (hx : x = ⟨b, c, (b.call c).2⟩) (hcounts : Counts x) :
    (idsOf P (tr ++ [x])).length < (b.call c).2.nextId.toNat ∧
    Mirror P (idsOf P (tr ++ [x])) (b.call c).2
      (a.after ((seen P (idsOf P tr) x).map Prod.fst)) ∧
    (seen P (idsOf P tr) x).map Prod.snd =
      a.replies ((seen P (idsOf P tr) x).map Prod.fst) := by
  cases hc : MemoryBudget.visible P (idsOf P tr) c with
  | none =>
    -- a call of another identity touches no bucket but its own
    have hle : b.nextId.toNat ≤ (b.call c).2.nextId.toNat := by
      rw [hx] at hcounts
      exact UInt64.le_iff_toNat_le.mp hcounts
    have hfew := hb.few
    obtain ⟨hprofile, hepoch, hbucket, hhanded⟩ := frame_hidden (b := b) hc
    have hids : idsOf P (tr ++ [x]) = idsOf P tr := by
      rw [idsOf_concat, hx, hhanded]
      simp
    have hseen : seen P (idsOf P tr) x = [] := by simp only [seen, hx, hc]
    rw [hids, hseen]
    exact ⟨by omega, h.hidden hprofile hepoch hbucket, rfl⟩
  | some c' =>
    obtain ⟨hfew, hm, hanswer⟩ := h.visible hb hc hx hcounts
    have hseen : seen P (idsOf P tr) x = [(c', (a.call c').1)] := by
      rw [hanswer]
      simp only [seen, hx, hc]
    rw [idsOf_concat, hseen]
    exact ⟨hfew, hm, rfl⟩

/-- **What an identity sees of a run is what it would see alone**: the budget that gets
the identity's calls only mirrors its bucket, and gives its answers. -/
theorem mirror_of_run (P : Uuid) (h : Run profile initialEpoch tr b)
    (hcounts : ∀ x ∈ tr, Counts x) :
    Shared P (idsOf P tr) b ∧
    Mirror P (idsOf P tr) b ((new profile initialEpoch).after (purge P tr)) ∧
    answers P tr = (new profile initialEpoch).replies (purge P tr) := by
  have hrun : History tr b ∧ (idsOf P tr).length < b.nextId.toNat ∧
      Mirror P (idsOf P tr) b ((new profile initialEpoch).after (purge P tr)) ∧
      answers P tr = (new profile initialEpoch).replies (purge P tr) := by
    refine h.invariant_where (C := Counts) (I := fun tr b => History tr b ∧
      (idsOf P tr).length < b.nextId.toNat ∧
      Mirror P (idsOf P tr) b ((new profile initialEpoch).after (purge P tr)) ∧
      answers P tr = (new profile initialEpoch).replies (purge P tr)) ?_ ?_ hcounts
    · exact ⟨history_new, Nat.zero_lt_one, ⟨rfl, rfl, rfl, ledger_new.toMatched, rfl, rfl, by
        simp [bucketOf, new, IdentityBucket.new]⟩, rfl⟩
    · rintro tr b c b' - ⟨hhist, hfew, hm, hanswers⟩ hstep hcount
      refine ⟨hhist.step hstep hcount, ?_⟩
      obtain rfl := Option.some.inj hstep
      obtain ⟨hfew', hm', hseen⟩ := hm.step (hhist.shared hfew) rfl hcount
      simp only [purge, answers, view_concat, List.map_append] at hm hanswers ⊢
      rw [after_append, replies_append, hanswers, hseen]
      exact ⟨hfew', hm', rfl⟩
  obtain ⟨hhist, hfew, hm, hanswers⟩ := hrun
  exact ⟨hhist.shared hfew, hm, hanswers⟩

/-- The bytes in use, as the budget alone sees them. -/
theorem Mirror.usedBytes_eq (h : Mirror P ids b a) (htoken : token.profileId = P) :
    b.usedBytes token = a.usedBytes token := by
  have hof : ∀ b : MemoryBudget, b.usedBytes token =
      if token.epoch ≠ b.epoch then 0 else (b.bucketOf token.profileId).usedBytes := by
    intro b
    simp only [usedBytes, bucketOf]
    cases b.buckets.lookup token.profileId <;> rfl
  rw [hof b, hof a, h.epoch_eq, htoken, h.mirrors.used_eq]

/-- Under the identity's numbering the `k`-th allocation handed to it is `k + 1`. -/
theorem canon_getElem? {k : ℕ} (hnodup : ids.Nodup) (hk : ids[k]? = some id) :
    canon ids id = ⟨.ofNat (k + 1)⟩ := by
  obtain ⟨hlt, rfl⟩ := List.getElem?_eq_some_iff.mp hk
  rw [canon_of_mem (List.getElem_mem hlt), List.Nodup.idxOf_getElem hnodup]

/-- The allocations handed to an identity are distinct. -/
theorem nodup_idsOf (h : History tr b) : (idsOf P tr).Nodup := by
  refine List.Pairwise.filterMap (handedBy P) (fun x y hne id hid id' hid' => ?_) h.distinct
  have hmade : ∀ x : Step MemoryBudget Call, ∀ id, handedBy P x = some id →
      allocatedBy x = some (P, id) := by
    intro x id hid
    obtain ⟨y, hy, hp⟩ := mem_idsOf.mp (show id ∈ idsOf P [x] by simp [idsOf, hid])
    rwa [List.mem_singleton.mp hy] at hp
  exact hne _ _ (hmade x id hid) (hmade y id' hid')

/-- **The identities are isolated**: two runs in which the identity makes the same calls,
up to the numbers of its allocations, give it the same answers, leave it the same bytes in
use, and accept the same of its allocations; and no run accepts an allocation under the
token of an identity it was not handed to. -/
theorem noninterference (P : Uuid) {b₁ b₂ : MemoryBudget}
    (h₁ : Run profile initialEpoch tr₁ b₁) (h₂ : Run profile initialEpoch tr₂ b₂)
    (hcounts₁ : ∀ x ∈ tr₁, Counts x) (hcounts₂ : ∀ x ∈ tr₂, Counts x)
    (hpurge : purge P tr₁ = purge P tr₂) :
    answers P tr₁ = answers P tr₂ ∧
    (∀ token, token.profileId = P → b₁.usedBytes token = b₂.usedBytes token ∧
      ∀ (k : ℕ) id₁ id₂, (idsOf P tr₁)[k]? = some id₁ → (idsOf P tr₂)[k]? = some id₂ →
        (b₁.touch token id₁).1 = (b₂.touch token id₂).1 ∧
          (b₁.release token id₁).1 = (b₂.release token id₂).1) ∧
    ∀ x ∈ tr₁, ∀ Q id token, allocatedBy x = some (Q, id) → token.profileId ≠ Q →
      (b₁.touch token id).1 ≠ .ok () ∧ (b₁.release token id).1 ≠ .ok () := by
  obtain ⟨hb₁, hm₁, hanswers₁⟩ := mirror_of_run P h₁ hcounts₁
  obtain ⟨hb₂, hm₂, hanswers₂⟩ := mirror_of_run P h₂ hcounts₂
  have hhist₁ := history_of_run h₁ hcounts₁
  have hhist₂ := history_of_run h₂ hcounts₂
  rw [hpurge] at hm₁ hanswers₁
  refine ⟨hanswers₁.trans hanswers₂.symm, fun token htoken => ⟨?_, ?_⟩, ?_⟩
  · exact (hm₁.usedBytes_eq htoken).trans (hm₂.usedBytes_eq htoken).symm
  · intro k id₁ id₂ hk₁ hk₂
    have hcanon := (canon_getElem? (nodup_idsOf hhist₁) hk₁).trans
      (canon_getElem? (nodup_idsOf hhist₂) hk₂).symm
    have htouch₁ := (hm₁.touch hb₁ htoken id₁).1
    have hrelease₁ := (hm₁.release hb₁ htoken id₁).1
    rw [hcanon] at htouch₁ hrelease₁
    exact ⟨htouch₁.symm.trans (hm₂.touch hb₂ htoken id₂).1,
      hrelease₁.symm.trans (hm₂.release hb₂ htoken id₂).1⟩
  · intro x hx Q id token hmade hne
    -- an allocation that is held was handed to the identity that holds it
    have hnot : ¬ Holds b₁ token id := by
      rintro ⟨-, hid⟩
      obtain ⟨y, hy, hmade'⟩ := hhist₁.owned _ _ hid
      exact hne (hhist₁.owner_unique hy hx hmade' hmade)
    constructor
    · rcases touch_cases b₁ token id with ⟨hholds, -⟩ | ⟨-, heq⟩
      · exact absurd hholds hnot
      · simp [heq]
    · rcases release_cases b₁ token id with ⟨_, hholds, -⟩ | ⟨-, heq⟩
      · exact absurd hholds hnot
      · simp [heq]

/-- An identity allocates and touches, once before and once after another one allocates. -/
theorem noninterference_swapped :
    ∃ tr₁ tr₂ b₁ b₂, Run ⟨10⟩ 1 tr₁ b₁ ∧ Run ⟨10⟩ 1 tr₂ b₂ ∧
      tr₁.map Step.input = [.tryAllocate ⟨Uuid.splat 1, .standard, 1⟩ 6,
        .tryAllocate ⟨Uuid.splat 2, .standard, 1⟩ 7, .touch ⟨Uuid.splat 1, .standard, 1⟩ ⟨1⟩] ∧
      tr₂.map Step.input = [.tryAllocate ⟨Uuid.splat 2, .standard, 1⟩ 7,
        .tryAllocate ⟨Uuid.splat 1, .standard, 1⟩ 6, .touch ⟨Uuid.splat 1, .standard, 1⟩ ⟨2⟩] ∧
      answers (Uuid.splat 1) tr₁ = answers (Uuid.splat 1) tr₂ := by
  have hexec₁ : (Transition.exec step (new ⟨10⟩ 1) [.tryAllocate ⟨Uuid.splat 1, .standard, 1⟩ 6,
      .tryAllocate ⟨Uuid.splat 2, .standard, 1⟩ 7,
      .touch ⟨Uuid.splat 1, .standard, 1⟩ ⟨1⟩]).any (fun p =>
        decide ((∀ x ∈ p.1, Counts x) ∧ purge (Uuid.splat 1) p.1 =
          [.tryAllocate ⟨Uuid.splat 1, .standard, 1⟩ 6,
            .touch ⟨Uuid.splat 1, .standard, 1⟩ ⟨1⟩])) = true := by decide
  have hexec₂ : (Transition.exec step (new ⟨10⟩ 1) [.tryAllocate ⟨Uuid.splat 2, .standard, 1⟩ 7,
      .tryAllocate ⟨Uuid.splat 1, .standard, 1⟩ 6,
      .touch ⟨Uuid.splat 1, .standard, 1⟩ ⟨2⟩]).any (fun p =>
        decide ((∀ x ∈ p.1, Counts x) ∧ purge (Uuid.splat 1) p.1 =
          [.tryAllocate ⟨Uuid.splat 1, .standard, 1⟩ 6,
            .touch ⟨Uuid.splat 1, .standard, 1⟩ ⟨1⟩])) = true := by decide
  obtain ⟨tr₁, b₁, hrun₁, hinputs₁, htest₁⟩ := Transition.exists_run_where hexec₁
  obtain ⟨tr₂, b₂, hrun₂, hinputs₂, htest₂⟩ := Transition.exists_run_where hexec₂
  obtain ⟨hcounts₁, hpurge₁⟩ := of_decide_eq_true htest₁
  obtain ⟨hcounts₂, hpurge₂⟩ := of_decide_eq_true htest₂
  exact ⟨tr₁, tr₂, b₁, b₂, hrun₁, hrun₂, hinputs₁, hinputs₂,
    (noninterference _ hrun₁ hrun₂ hcounts₁ hcounts₂ (hpurge₁.trans hpurge₂.symm)).1⟩

/-! ### When the counter wraps -/

theorem exists_run_after (b : MemoryBudget) (cs : List Call) :
    ∃ tr, Transition.Run (Transition.ofFun step) b tr (b.after cs) ∧ tr.map Step.input = cs := by
  induction cs generalizing b with
  | nil => exact ⟨[], Transition.Run.nil, rfl⟩
  | cons c cs ih =>
    obtain ⟨tr, hrun, hinputs⟩ := ih (b.call c).2
    exact ⟨⟨b, c, (b.call c).2⟩ :: tr, Transition.run_cons.mpr ⟨rfl, rfl, hrun⟩, by simp [hinputs]⟩

/-- A bucket that is full with one allocation of one byte, under a cap of one byte. -/
def spinBucket (id : AllocationId) : IdentityBucket :=
  ⟨1, [id], (∅ : HashMap AllocationId UInt64).insert id 1⟩

theorem evictLoop_spin (id : AllocationId) :
    evictLoop 1 1 (spinBucket id).usedBytes (spinBucket id).sizes (spinBucket id).lru =
      (.ok (), IdentityBucket.new) := by
  have herase : ((∅ : HashMap AllocationId UInt64).insert id 1).erase id = ∅ := by
    rw [AList.insert_empty]
    exact AList.ext (List.kerase_cons_eq rfl)
  have hfull : saturatingAdd 1 1 > 1 := by decide
  have hfree : ¬ saturatingAdd (saturatingSub 1 1) 1 > 1 := by decide
  simp only [spinBucket, evictLoop, if_pos hfull, AList.lookup_insert, herase, Option.getD_some,
    if_neg hfree]
  rfl

/-- One more allocation of one byte takes the place of the last. -/
theorem call_spin (b : MemoryBudget) (token : ScopeToken) (hcap : b.profile = ⟨1⟩)
    (hepoch : token.epoch = b.epoch)
    (hbucket : b.bucketOf token.profileId = .new ∨
      ∃ id, b.bucketOf token.profileId = spinBucket id) :
    b.call (.tryAllocate token 1) = (.ok (some ⟨b.nextId⟩),
      { b.putBucket token.profileId (spinBucket ⟨b.nextId⟩) with nextId := b.nextId + 1 }) := by
  have hadm : Admitted b token 1 := ⟨by decide, by rw [hcap], hepoch⟩
  have hloop : evictLoop b.profile.capBytes 1 (b.bucketOf token.profileId).usedBytes
      (b.bucketOf token.profileId).sizes (b.bucketOf token.profileId).lru =
        (.ok (), IdentityBucket.new) := by
    rcases hbucket with hnew | ⟨id, hspin⟩
    · rw [hcap, hnew]
      rfl
    · rw [hcap, hspin]
      exact evictLoop_spin id
  rw [call, tryAllocate_admitted hadm hloop]
  rfl

theorem after_spin (b : MemoryBudget) (token : ScopeToken) (hcap : b.profile = ⟨1⟩)
    (hepoch : token.epoch = b.epoch)
    (hbucket : b.bucketOf token.profileId = .new ∨
      ∃ id, b.bucketOf token.profileId = spinBucket id)
    (n : ℕ) : ∃ b', b.after (List.replicate n (.tryAllocate token 1)) = b' ∧ b'.profile = ⟨1⟩ ∧
      token.epoch = b'.epoch ∧ b'.nextId = b.nextId + .ofNat n ∧
      (b'.bucketOf token.profileId = .new ∨ ∃ id, b'.bucketOf token.profileId = spinBucket id) ∧
      ∀ pid, pid ≠ token.profileId → b'.bucketOf pid = b.bucketOf pid := by
  induction n generalizing b with
  | zero => exact ⟨b, rfl, hcap, hepoch, by simp, hbucket, fun _ _ => rfl⟩
  | succ n ih =>
    have hcall := call_spin b token hcap hepoch hbucket
    obtain ⟨b', hafter, hcap', hepoch', hnext, hbucket', hothers⟩ := @ih
      { b.putBucket token.profileId (spinBucket ⟨b.nextId⟩) with nextId := b.nextId + 1 }
      hcap hepoch (Or.inr ⟨_, by rw [bucketOf_putBucket_nextId, if_pos rfl]⟩)
    refine ⟨b', ?_, hcap', hepoch', ?_, hbucket', fun pid hne => ?_⟩
    · rw [List.replicate_succ, after, hcall]
      exact hafter
    · rw [hnext, UInt64.add_assoc, add_comm n 1, UInt64.ofNat_add]
      rfl
    · rw [hothers pid hne, bucketOf_putBucket_nextId, if_neg hne]

/-- One identity holds the first allocation made, and another makes `n + 1` more. When the
counter is back at `1` for the last of them, that one is handed out again. -/
theorem exists_reissue (n : ℕ) (hn : (2 : UInt64) + .ofNat n = 1) :
    ∃ tr b, Run ⟨1⟩ 1 tr b ∧
      tr.map Step.input = .tryAllocate ⟨Uuid.splat 1, .standard, 1⟩ 1 ::
        List.replicate (n + 1) (.tryAllocate ⟨Uuid.splat 2, .standard, 1⟩ 1) ∧
      (∃ x ∈ tr, allocatedBy x = some (Uuid.splat 2, ⟨1⟩)) ∧
      (b.touch ⟨Uuid.splat 1, .standard, 1⟩ ⟨1⟩).1 = .ok () := by
  have hne : Uuid.splat 1 ≠ Uuid.splat 2 := by decide
  have hfirst := call_spin (new ⟨1⟩ 1) ⟨Uuid.splat 1, .standard, 1⟩ rfl rfl (Or.inl rfl)
  obtain ⟨m, hm, hcap, hepoch, hnext, hbucket, hothers⟩ := after_spin
    ((new ⟨1⟩ 1).call (.tryAllocate ⟨Uuid.splat 1, .standard, 1⟩ 1)).2
    ⟨Uuid.splat 2, .standard, 1⟩ (by rw [hfirst]; rfl) (by rw [hfirst]; rfl)
    (Or.inl (by rw [hfirst, bucketOf_putBucket_nextId, if_neg hne.symm]; rfl)) n
  have hone : m.nextId = 1 := by
    rw [hnext, hfirst]
    exact hn
  have hlast := call_spin m _ hcap hepoch hbucket
  rw [hone] at hlast
  obtain ⟨tr, hrun, hinputs⟩ := exists_run_after (new ⟨1⟩ 1)
    (.tryAllocate ⟨Uuid.splat 1, .standard, 1⟩ 1 ::
      List.replicate n (.tryAllocate ⟨Uuid.splat 2, .standard, 1⟩ 1))
  rw [after, hm] at hrun
  refine ⟨_, _, hrun.snoc (i := .tryAllocate ⟨Uuid.splat 2, .standard, 1⟩ 1) rfl, ?_,
    ⟨_, List.mem_append_right _ (List.mem_singleton_self _), ?_⟩, ?_⟩
  · rw [List.map_append, hinputs, List.replicate_succ', List.cons_append]
    rfl
  · have hok : (m.tryAllocate ⟨Uuid.splat 2, .standard, 1⟩ 1).1 = .ok ⟨1⟩ := by
      have hanswer := congrArg Prod.fst hlast
      simp only [call] at hanswer
      cases hres : (m.tryAllocate ⟨Uuid.splat 2, .standard, 1⟩ 1).1 with
      | ok id => simpa [hres, Except.map] using hanswer
      | error e => simp [hres, Except.map] at hanswer
    simp only [allocatedBy, hok]
  · rcases touch_cases (m.call (.tryAllocate ⟨Uuid.splat 2, .standard, 1⟩ 1)).2
      ⟨Uuid.splat 1, .standard, 1⟩ ⟨1⟩ with ⟨-, heq⟩ | ⟨hnot, -⟩
    · rw [heq]
    · refine absurd ⟨?_, ?_⟩ hnot
      · rw [hlast]
        exact hepoch
      · rw [hlast, bucketOf_putBucket_nextId, if_neg hne, hothers _ hne, hfirst,
          bucketOf_putBucket_nextId, if_pos rfl]
        exact (AList.mem_insert _).mpr (Or.inl rfl)

/-- **An allocation handed out twice**: one identity holds the first allocation made,
another makes `2 ^ 64` more, and the last of them has the number of the first. -/
theorem reissued_wrapped :
    ∃ tr b, Run ⟨1⟩ 1 tr b ∧
      tr.map Step.input = .tryAllocate ⟨Uuid.splat 1, .standard, 1⟩ 1 ::
        List.replicate (2 ^ 64) (.tryAllocate ⟨Uuid.splat 2, .standard, 1⟩ 1) ∧
      (∃ x ∈ tr, allocatedBy x = some (Uuid.splat 2, ⟨1⟩)) ∧
      (b.touch ⟨Uuid.splat 1, .standard, 1⟩ ⟨1⟩).1 = .ok () := by
  obtain ⟨n, hn, hone⟩ : ∃ n, n + 1 = 2 ^ 64 ∧ (2 : UInt64) + .ofNat n = 1 :=
    ⟨2 ^ 64 - 1, by omega, by decide⟩
  rw [← hn]
  exact exists_reissue n hone

end MemoryBudget

end Gpu

end DevBrowse
