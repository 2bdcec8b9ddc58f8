import Mathlib.Data.Vector.Basic
import Mathlib.Order.Basic

/-!
# Identifiers, privacy modes, saturating words

The two types every layer of the browser shares: the 128-bit profile and context
identifiers, and the privacy posture of an identity. The crates each declare a `Mode`
of their own with the same two variants and variant-by-variant conversions between
them; here there is one.

The standard library's saturating operations on 64-bit words are at the end, with the
naturals they stand for.
-/

namespace DevBrowse

/-- A 128-bit identifier, as its sixteen bytes. -/
structure Uuid where
  /-- The bytes, in the order `as_bytes` gives them. -/
  bytes : Vector UInt8 16
  deriving DecidableEq

/-- The identifier whose sixteen bytes are all `b`. -/
def Uuid.splat (b : UInt8) : Uuid := ⟨Vector.replicate 16 b⟩

/-- The privacy posture of an identity. -/
inductive Mode where
  /-- Renderers may be shared across the tabs of one profile. -/
  | standard
  /-- One renderer a tab, never shared. -/
  | strict
  deriving DecidableEq

/-! ### Saturating words -/

/-- Addition that stops at the largest word. -/
def saturatingAdd (a b : UInt64) : UInt64 := .ofNat (min (a.toNat + b.toNat) (2 ^ 64 - 1))

/-- Subtraction that stops at zero. -/
def saturatingSub (a b : UInt64) : UInt64 := .ofNat (a.toNat - b.toNat)

theorem toNat_saturatingAdd (a b : UInt64) :
    (saturatingAdd a b).toNat = min (a.toNat + b.toNat) (2 ^ 64 - 1) := by
  rw [saturatingAdd, UInt64.toNat_ofNat_of_lt']
  exact (min_le_right _ _).trans_lt (by decide)

theorem toNat_saturatingSub (a b : UInt64) :
    (saturatingSub a b).toNat = a.toNat - b.toNat := by
  rw [saturatingSub, UInt64.toNat_ofNat_of_lt']
  exact (Nat.sub_le _ _).trans_lt a.toNat_lt

end DevBrowse
