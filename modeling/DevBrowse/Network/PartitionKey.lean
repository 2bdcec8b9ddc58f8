import DevBrowse.Basic
import DevBrowse.Lib.Text
import Mathlib.Algebra.GroupWithZero.Nat

/-!
# Partition keys

Every request of an identity is made in a partition of the site it is made for. The key of
the partition is a hash over the site, the profile and the context, each of them encoded
so that none can be mistaken for a part of another.
-/

namespace DevBrowse

namespace Network

/-- The key of a partition, as its bytes. -/
structure PartitionKey where
  /-- The bytes. -/
  bytes : Vector UInt8 32
  deriving DecidableEq

namespace PartitionKey

/-- The label that keeps these hashes apart from others. -/
def partitionKeyDomain : Text := "PB-PARTKEY-V1".toList

/-- The bytes of a word, the least significant first. -/
def toLeBytes (w : UInt64) : List UInt8 :=
  (List.range 8).map fun i => (w >>> (8 * UInt64.ofNat i)).toUInt8

/-- What is hashed: the label, the site behind its length, the profile, the context. -/
def encode (siteOrigin : Text) (identityProfileId contextId : Uuid) : List UInt8 :=
  partitionKeyDomain.utf8Bytes ++ toLeBytes (.ofNat siteOrigin.utf8Len) ++
    siteOrigin.utf8Bytes ++ identityProfileId.bytes.toList ++ contextId.bytes.toList

@[simp] theorem length_toLeBytes (w : UInt64) : (toLeBytes w).length = 8 := rfl

theorem toNat_leByte (w : UInt64) {i : ℕ} (hi : i < 8) :
    (w >>> (8 * UInt64.ofNat i)).toUInt8.toNat = w.toNat / 256 ^ i % 256 := by
  have hsmall : (UInt64.ofNat i).toNat = i := by
    rw [UInt64.toNat_ofNat', Nat.mod_eq_of_lt (by omega : i < 2 ^ 64)]
  have hshift : (8 * UInt64.ofNat i).toNat = 8 * i := by
    rw [UInt64.toNat_mul, hsmall]
    exact Nat.mod_eq_of_lt (by simp; omega)
  rw [UInt64.toNat_toUInt8, UInt64.toNat_shiftRight, hshift,
    Nat.mod_eq_of_lt (by omega : 8 * i < 64), Nat.shiftRight_eq_div_pow, Nat.pow_mul]

/-- A word is known from its bytes. -/
theorem toLeBytes_injective : Function.Injective toLeBytes := by
  intro v w h
  have hbyte : ∀ i < 8, v.toNat / 256 ^ i % 256 = w.toNat / 256 ^ i % 256 := by
    intro i hi
    rw [← toNat_leByte v hi, ← toNat_leByte w hi]
    exact congrArg UInt8.toNat (List.map_inj_left.mp h i (List.mem_range.mpr hi))
  -- byte by byte, from the least significant one on
  have hmod : ∀ n ≤ 8, v.toNat % 256 ^ n = w.toNat % 256 ^ n := by
    intro n
    induction n with
    | zero => simp [Nat.mod_one]
    | succ n ih =>
      intro hn
      rw [Nat.mod_pow_succ, Nat.mod_pow_succ, ih (by omega), hbyte n (by omega)]
  have hall := hmod 8 (le_refl 8)
  have hv : v.toNat < 256 ^ 8 := v.toNat_lt
  have hw : w.toNat < 256 ^ 8 := w.toNat_lt
  rw [Nat.mod_eq_of_lt hv, Nat.mod_eq_of_lt hw] at hall
  exact UInt64.toNat_inj.mp hall

/-- The key of a site under a profile and a context, by the given hash function. -/
def derive (sha256 : List UInt8 → Vector UInt8 32) (siteOrigin : Text)
    (identityProfileId contextId : Uuid) : PartitionKey :=
  ⟨sha256 (encode siteOrigin identityProfileId contextId)⟩

end PartitionKey

end Network

end DevBrowse
