import DevBrowse.Gpu.Coordinator
import DevBrowse.Lib.HashMap
import DevBrowse.Lib.Transition

/-!
# The GPU memory budget

Every identity has a bucket with a cap in bytes. A bucket keeps three structures that
say overlapping things: the order in which its allocations were last used, the size of
each, and the bytes in use. An allocation that does not fit evicts from the front of the
order, within the bucket.

All arithmetic is on 64-bit words as in the program: the byte counter saturates and the
id counter wraps.
-/

namespace DevBrowse

namespace Gpu

open Transition (Step)

/-- The budget of an identity. -/
structure BudgetProfile where
  /-- The bytes an identity may have in use. -/
  capBytes : UInt64
  deriving DecidableEq

namespace BudgetProfile

/-- The least cap, in MiB. -/
def minCapMib : UInt32 := 64

/-- The largest cap, in MiB. -/
def maxCapMib : UInt32 := 4096

/-- The budget for the configured cap, clamped; the mode makes no difference. -/
def fromConfig (memoryCapMib : UInt32) (_mode : Mode) : BudgetProfile :=
  let capMib :=
    if memoryCapMib < minCapMib then minCapMib
    else if memoryCapMib > maxCapMib then maxCapMib
    else memoryCapMib
  ⟨capMib.toUInt64 * 1024 * 1024⟩

end BudgetProfile

/-- An allocation, as the budget numbers them. -/
structure AllocationId where
  /-- The number. -/
  val : UInt64
  deriving DecidableEq

/-- The errors of the budget. -/
inductive BudgetError where
  /-- The token was issued under another epoch. -/
  | staleToken
  /-- Zero bytes were asked for. -/
  | zeroSize
  /-- More bytes than the cap were asked for. -/
  | overCap
  /-- Everything was evicted and the request still does not fit. -/
  | exhausted
  /-- The bucket of the identity does not hold this allocation. -/
  | unknownAllocation
  deriving DecidableEq

/-- The bucket of one identity. -/
structure IdentityBucket where
  /-- The bytes in use. -/
  usedBytes : UInt64
  /-- The allocations, the least recently used in front. -/
  lru : List AllocationId
  /-- The size of each allocation. -/
  sizes : HashMap AllocationId UInt64

namespace IdentityBucket

/-- The bucket without allocations. -/
def new : IdentityBucket := ⟨0, [], ∅⟩

/-- The eviction loop, over the order of use: evict from the front until `size` bytes
fit under the cap. -/
def evictLoop (cap size usedBytes : UInt64) (sizes : HashMap AllocationId UInt64) :
    List AllocationId → Except BudgetError Unit × IdentityBucket
  | [] =>
    if saturatingAdd usedBytes size > cap then (.error .exhausted, ⟨usedBytes, [], sizes⟩)
    else (.ok (), ⟨usedBytes, [], sizes⟩)
  | evictId :: lru =>
    if saturatingAdd usedBytes size > cap then
      let evicted := (sizes.lookup evictId).getD 0
      evictLoop cap size (saturatingSub usedBytes evicted) (sizes.erase evictId) lru
    else (.ok (), ⟨usedBytes, evictId :: lru, sizes⟩)

end IdentityBucket

/-- **The memory budget.** -/
structure MemoryBudget where
  /-- The cap, the same for every identity. -/
  profile : BudgetProfile
  /-- The current epoch. -/
  epoch : UInt64
  /-- The next allocation number. -/
  nextId : UInt64
  /-- The bucket of each identity. -/
  buckets : HashMap Uuid IdentityBucket

namespace MemoryBudget

/-- The budget without buckets. -/
def new (profile : BudgetProfile) (initialEpoch : UInt64) : MemoryBudget :=
  ⟨profile, initialEpoch, 1, ∅⟩

/-- The bytes in use by the identity of a token. -/
def usedBytes (b : MemoryBudget) (token : ScopeToken) : UInt64 :=
  if token.epoch ≠ b.epoch then 0
  else ((b.buckets.lookup token.profileId).map fun bucket => bucket.usedBytes).getD 0

/-- Allocate `sizeBytes` for the identity of a token. -/
def tryAllocate (b : MemoryBudget) (token : ScopeToken) (sizeBytes : UInt64) :
    Except BudgetError AllocationId × MemoryBudget :=
  if sizeBytes = 0 then (.error .zeroSize, b)
  else if sizeBytes > b.profile.capBytes then (.error .overCap, b)
  else if token.epoch ≠ b.epoch then (.error .staleToken, b)
  else
    let bucket := (b.buckets.lookup token.profileId).getD .new
    match IdentityBucket.evictLoop b.profile.capBytes sizeBytes bucket.usedBytes bucket.sizes
        bucket.lru with
    -- the bucket was opened and evicted from in place before the error
    | (.error e, bucket) =>
      (.error e, { b with buckets := b.buckets.insert token.profileId bucket })
    | (.ok (), bucket) =>
      let id : AllocationId := ⟨b.nextId⟩
      let bucket : IdentityBucket :=
        ⟨saturatingAdd bucket.usedBytes sizeBytes, bucket.lru ++ [id],
          bucket.sizes.insert id sizeBytes⟩
      (.ok id,
        { b with nextId := b.nextId + 1, buckets := b.buckets.insert token.profileId bucket })

/-- Mark an allocation as the most recently used. -/
def touch (b : MemoryBudget) (token : ScopeToken) (id : AllocationId) :
    Except BudgetError Unit × MemoryBudget :=
  if token.epoch ≠ b.epoch then (.error .staleToken, b)
  else
    match b.buckets.lookup token.profileId with
    | none => (.error .unknownAllocation, b)
    | some bucket =>
      if id ∉ bucket.sizes then (.error .unknownAllocation, b)
      else
        let bucket := { bucket with lru := bucket.lru.erase id ++ [id] }
        (.ok (), { b with buckets := b.buckets.insert token.profileId bucket })

/-- Free an allocation. -/
def release (b : MemoryBudget) (token : ScopeToken) (id : AllocationId) :
    Except BudgetError Unit × MemoryBudget :=
  if token.epoch ≠ b.epoch then (.error .staleToken, b)
  else
    match b.buckets.lookup token.profileId with
    | none => (.error .unknownAllocation, b)
    | some bucket =>
      match bucket.sizes.lookup id with
      | none => (.error .unknownAllocation, b)
      | some size =>
        let bucket : IdentityBucket :=
          ⟨saturatingSub bucket.usedBytes size, bucket.lru.erase id, bucket.sizes.erase id⟩
        (.ok (), { b with buckets := b.buckets.insert token.profileId bucket })

/-- Drop every bucket, and adopt the epoch. -/
def onRecovery (b : MemoryBudget) (newEpoch : UInt64) : MemoryBudget :=
  { b with epoch := newEpoch, buckets := ∅ }

/-! ### The budget as a transition system -/

/-- The calls a run is made of. -/
inductive Call where
  /-- `try_allocate`. -/
  | tryAllocate (token : ScopeToken) (sizeBytes : UInt64)
  /-- `touch`. -/
  | touch (token : ScopeToken) (id : AllocationId)
  /-- `release`. -/
  | release (token : ScopeToken) (id : AllocationId)
  /-- `on_recovery`. -/
  | onRecovery (newEpoch : UInt64)
  deriving DecidableEq

/-- What a call answers, an allocation with its id, and the state it leaves. -/
def call (b : MemoryBudget) : Call → Except BudgetError (Option AllocationId) × MemoryBudget
  | .tryAllocate token sizeBytes =>
    ((b.tryAllocate token sizeBytes).1.map some, (b.tryAllocate token sizeBytes).2)
  | .touch token id => ((b.touch token id).1.map fun _ => none, (b.touch token id).2)
  | .release token id => ((b.release token id).1.map fun _ => none, (b.release token id).2)
  | .onRecovery newEpoch => (.ok none, b.onRecovery newEpoch)

/-- **One call.** -/
def step (b : MemoryBudget) (c : Call) : Option MemoryBudget := some (b.call c).2

/-- The runs of the budget. -/
abbrev Run (profile : BudgetProfile) (initialEpoch : UInt64) :
    List (Step MemoryBudget Call) → MemoryBudget → Prop :=
  Transition.Run (Transition.ofFun step) (new profile initialEpoch)

end MemoryBudget

end Gpu

end DevBrowse
