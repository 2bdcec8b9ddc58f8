import DevBrowse.Network.PartitionKey

/-!
# The partition keys of the storage

The storage derives the key of a partition on its own, by the same recipe as the network
does. It also derives from a key the seed of the noise that is put on what a page reads back.
-/

namespace DevBrowse

namespace Storage

open Network (PartitionKey)

open Network.PartitionKey (toLeBytes)

/-- The label that keeps the hashes of keys apart from others. -/
def partitionKeyDomain : Text := "PB-PARTKEY-V1".toList

/-- The label that keeps the hashes of seeds apart from others. -/
def farblingSeedDomain : Text := "PB-FARBLING-V1".toList

/-- A seed of the noise. -/
abbrev FarblingSeed := Vector UInt8 16

/-- What is hashed for a key: the label, the length of the site, the site, the profile, the
context. -/
def keyPreimage (siteOrigin : Text) (identityProfileId contextId : Uuid) : List UInt8 :=
  let len := UInt64.ofNat siteOrigin.utf8Len
  partitionKeyDomain.utf8Bytes ++ toLeBytes len ++ siteOrigin.utf8Bytes ++
    identityProfileId.bytes.toList ++ contextId.bytes.toList

/-- The key of a site under a profile and a context. -/
def derive (sha256 : List UInt8 → Vector UInt8 32) (siteOrigin : Text)
    (identityProfileId contextId : Uuid) : PartitionKey :=
  ⟨sha256 (keyPreimage siteOrigin identityProfileId contextId)⟩

/-- What is hashed for the seed of a partition: the label and the key. -/
def seedPreimage (key : PartitionKey) : List UInt8 :=
  farblingSeedDomain.utf8Bytes ++ key.bytes.toList

/-- The seed of a partition: the first half of the hash. -/
def farblingSeed (sha256 : List UInt8 → Vector UInt8 32) (key : PartitionKey) : FarblingSeed :=
  (sha256 (seedPreimage key)).take 16

/-- **The two crates hash the same bytes.** -/
theorem keyPreimage_eq_encode (siteOrigin : Text) (identityProfileId contextId : Uuid) :
    keyPreimage siteOrigin identityProfileId contextId =
      PartitionKey.encode siteOrigin identityProfileId contextId := rfl

variable {siteOrigin siteOrigin' : Text} {profile profile' context context' : Uuid}
  {key key' : PartitionKey}

theorem uuid_eq_of_toList (h : profile.bytes.toList = profile'.bytes.toList) :
    profile = profile' := by
  cases profile
  cases profile'
  exact congrArg Uuid.mk (Vector.toList_inj.mp h)

/-- **What is hashed for a key tells what it was made of**, however long the site is: the parts
behind it have a fixed length, and so have those before it. -/
theorem keyPreimage_inj
    (h : keyPreimage siteOrigin profile context = keyPreimage siteOrigin' profile' context') :
    siteOrigin = siteOrigin' ∧ profile = profile' ∧ context = context' := by
  obtain ⟨h, hcontext⟩ := List.append_inj' h (by simp)
  obtain ⟨h, hprofile⟩ := List.append_inj' h (by simp)
  obtain ⟨-, hsite⟩ := List.append_inj h (by simp)
  exact ⟨Text.utf8Bytes_injective hsite, uuid_eq_of_toList hprofile, uuid_eq_of_toList hcontext⟩

theorem seedPreimage_inj (h : seedPreimage key = seedPreimage key') : key = key' := by
  obtain ⟨-, hkey⟩ := List.append_inj h rfl
  cases key
  cases key'
  exact congrArg PartitionKey.mk (Vector.toList_inj.mp hkey)

end Storage

end DevBrowse
