import DevBrowse.Basic
import DevBrowse.Lib.HashMap

/-!
# Identity profiles and their registry

The registry stores identity profiles under their own `profile_id`. No public
operation can store one elsewhere, so the fact is a field of the type and every
lookup can use it.
-/

namespace DevBrowse

namespace Identity

/-- A privacy identity. -/
structure IdentityProfile where
  /-- Minted once, when the profile is built. -/
  profileId : Uuid
  /-- The label the user sees. -/
  name : String
  /-- Locked at creation. -/
  mode : Mode
  deriving DecidableEq

/-- The errors of the in-memory operations of the registry. -/
inductive RegistryError where
  /-- A profile with this `profile_id` is already stored. -/
  | duplicateProfileId (id : Uuid)
  deriving DecidableEq

/-- **The profile registry**, every profile under its own `profile_id`. -/
structure ProfileRegistry where
  /-- The stored profiles. -/
  profiles : HashMap Uuid IdentityProfile
  /-- A profile is stored under its own identifier. -/
  keyed : ∀ id p, profiles.lookup id = some p → p.profileId = id

namespace ProfileRegistry

/-- The registry without profiles and without a backing file. -/
def newInMemory : ProfileRegistry := ⟨∅, fun _ _ h => by simp at h⟩

/-- The profile stored under an identifier. -/
def get (r : ProfileRegistry) (id : Uuid) : Option IdentityProfile := r.profiles.lookup id

/-- Store a profile; a `profile_id` that is taken is rejected. -/
def insert (r : ProfileRegistry) (profile : IdentityProfile) :
    Except RegistryError ProfileRegistry :=
  if profile.profileId ∈ r.profiles then
    .error (.duplicateProfileId profile.profileId)
  else
    .ok ⟨r.profiles.insert profile.profileId profile, fun id p h => by
      rw [HashMap.lookup_insert_eq] at h
      split at h
      · rename_i hid
        rw [hid, Option.some.inj h]
      · exact r.keyed id p h⟩

/-- Drop the profile stored under an identifier, and return it. -/
def remove (r : ProfileRegistry) (id : Uuid) : Option IdentityProfile × ProfileRegistry :=
  (r.profiles.lookup id, ⟨r.profiles.erase id, fun id' p h => by
    rw [HashMap.lookup_erase_eq] at h
    split at h
    · simp at h
    · exact r.keyed id' p h⟩)

theorem profileId_of_get {r : ProfileRegistry} {id : Uuid} {p : IdentityProfile}
    (h : r.get id = some p) : p.profileId = id :=
  r.keyed id p h

end ProfileRegistry

end Identity

end DevBrowse
