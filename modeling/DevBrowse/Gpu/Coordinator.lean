import DevBrowse.Basic

/-!
# The GPU coordinator

The coordinator hands out scope tokens and invalidates all of them at once when the
adapter is lost and recovered, by moving to the next epoch. A token is checked against
an epoch, never remembered. The epoch is a 64-bit word and wraps.
-/

namespace DevBrowse

namespace Gpu

/-- An opaque per-identity scope token. -/
structure ScopeToken where
  /-- The identity it scopes to. -/
  profileId : Uuid
  /-- The mode of the identity when it was issued. -/
  mode : Mode
  /-- The epoch it was issued under. -/
  epoch : UInt64
  deriving DecidableEq

/-- The errors of the coordinator. -/
inductive CoordinatorError where
  /-- The token was issued under another epoch. -/
  | staleToken
  /-- The adapter is lost and not recovered yet. -/
  | adapterUnavailable
  deriving DecidableEq

/-- The coordinator's state. -/
structure GpuCoordinator where
  /-- The current epoch. -/
  epoch : UInt64
  /-- Whether the adapter is there. -/
  available : Bool
  deriving DecidableEq

namespace GpuCoordinator

/-- The first epoch, with the adapter there. -/
def new : GpuCoordinator := ⟨1, true⟩

/-- Issue a token under the current epoch. -/
def issueScopeToken (c : GpuCoordinator) (profileId : Uuid) (mode : Mode) :
    Except CoordinatorError ScopeToken :=
  if c.available = false then .error .adapterUnavailable
  else .ok ⟨profileId, mode, c.epoch⟩

/-- Check a token against the current epoch; the adapter need not be there. -/
def validate (c : GpuCoordinator) (token : ScopeToken) : Except CoordinatorError Unit :=
  if token.epoch = c.epoch then .ok () else .error .staleToken

/-- The adapter is lost. Outstanding tokens stay valid until the recovery. -/
def onAdapterLoss (c : GpuCoordinator) : GpuCoordinator := { c with available := false }

/-- The adapter is recovered, under the next epoch. -/
def recoverAfterLoss (c : GpuCoordinator) : GpuCoordinator := ⟨c.epoch + 1, true⟩

end GpuCoordinator

end Gpu

end DevBrowse
