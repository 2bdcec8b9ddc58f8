import DevBrowse.Config.AtomicSave
import DevBrowse.Identity.Registry
import Mathlib.Data.List.Sort

/-!
# The file of the registry

The registry of profiles is kept in a TOML file. What is read from the file is checked for
what the builder of profiles asks of a name, as far as the names are empty or too long; a
name with white space around it the builder would have trimmed.

`DevBrowse.Identity.insertAll_eq_ok_iff` says what the loop over the profiles of a file lets
through. The TOML library is not modelled (`DevBrowse.Identity.Toml`).
-/

namespace DevBrowse

namespace Identity

open Config (SaveTask)

/-! ### Building a profile -/

/-- The most bytes a name has. -/
def maxNameLen : ℕ := 64

/-- Why a profile is not built. -/
inductive ProfileError where
  /-- Nothing is left of its name. -/
  | emptyName
  /-- Its name is too long. -/
  | nameTooLong
  deriving DecidableEq

/-- Build a profile, under a new identifier. -/
def IdentityProfile.build (name : Option Text) (mode : Mode) (newV4 : Uuid) :
    Except ProfileError IdentityProfile :=
  let trimmed := (name.getD []).trim
  if trimmed = [] then .error .emptyName
  else if trimmed.utf8Len > maxNameLen then .error .nameTooLong
  else .ok ⟨newV4, String.ofList trimmed, mode⟩

/-- **What the builder sees to.** -/
structure IdentityProfile.WellNamed (p : IdentityProfile) : Prop where
  /-- There is no white space around the name. -/
  trimmed : Text.trim p.name.toList = p.name.toList
  /-- There is a name. -/
  nonempty : p.name.toList ≠ []
  /-- It is not too long. -/
  short : Text.utf8Len p.name.toList ≤ maxNameLen

/-- **A profile that is built is well named.** -/
theorem IdentityProfile.wellNamed_of_build {name : Option Text} {mode : Mode} {id : Uuid}
    {p : IdentityProfile} (h : build name mode id = .ok p) : p.WellNamed := by
  rw [build] at h
  split at h
  · cases h
  · rename_i hempty
    split at h
    · cases h
    · rename_i hlong
      rw [← Except.ok.inj h]
      refine ⟨?_, ?_, ?_⟩ <;> simp only [String.toList_ofList]
      · exact Text.trim_trim _
      · exact hempty
      · exact Nat.le_of_not_lt hlong

/-- A profile that was built. -/
structure BuiltProfile where
  /-- The profile. -/
  profile : IdentityProfile
  /-- It was built. -/
  built : ∃ name mode, IdentityProfile.build name mode profile.profileId = .ok profile

theorem BuiltProfile.wellNamed (p : BuiltProfile) : p.profile.WellNamed := by
  obtain ⟨name, mode, h⟩ := p.built
  exact IdentityProfile.wellNamed_of_build h

/-! ### The file -/

/-- The version of the file. -/
def registrySchemaVersion : UInt32 := 1

/-- What is in the file. -/
structure RegistryFile where
  /-- The version it was written in. -/
  version : UInt32
  /-- The profiles. -/
  profiles : List IdentityProfile := []
  deriving DecidableEq

/-- What is used of the TOML library. -/
structure Toml where
  /-- Write a file. -/
  toStringPretty : RegistryFile → Option Text
  /-- Read a file. -/
  fromStr : Text → Option RegistryFile

/-- Why a registry is not read or not saved. -/
inductive RegistryFileError where
  /-- The file cannot be read. -/
  | io
  /-- It is not the TOML text of a registry. -/
  | parse
  /-- The registry cannot be written as TOML. -/
  | serialize
  /-- The file is of another version. -/
  | schemaVersion (found expected : UInt32)
  /-- Others than the owner may do something with the file. -/
  | permission (message : Text)
  /-- What is in it does not pass its checks. -/
  | validation (message : Text)
  deriving DecidableEq

/-- A registry with the path it is bound to. -/
structure BoundRegistry where
  /-- The registry. -/
  registry : ProfileRegistry
  /-- The path. -/
  path : Option Text

/-- Turn a file away that others than its owner may do something with. -/
def ensureOwnerOnly (path : Text) (mode : FileMode) : Except RegistryFileError Unit :=
  let mode := mode &&& 0o777
  if mode &&& FileMode.others ≠ 0 then
    .error (.permission ("config file ".toList ++ path ++ " has unsafe permissions ".toList ++
      Nat.toDigits 8 mode.toNat ++ "; expected owner-only (0600)".toList))
  else .ok ()

/-- The loop over the profiles of a file. -/
def insertAll : List IdentityProfile → ProfileRegistry → Except RegistryFileError ProfileRegistry
  | [], r => .ok r
  | p :: ps, r =>
    if p.name.toList = [] then
      .error (.validation "profile with empty name in registry file".toList)
    else if Text.utf8Len p.name.toList > maxNameLen then
      .error (.validation ("profile name exceeds ".toList ++ Nat.toDigits 10 maxNameLen ++
        " bytes in registry file".toList))
    else
      match r.insert p with
      | .error _ => .error (.validation "duplicate profile_id in registry file".toList)
      | .ok r => insertAll ps r

/-- Read the registry; where there is no file it is empty. -/
def load (toml : Toml) (fs : FileSystem Text UInt8) (path : Text) :
    Except RegistryFileError BoundRegistry :=
  match (fs.lead path).bind fs.entry with
  | none => .ok ⟨.newInMemory, some path⟩
  | some (.file i) => do
    ensureOwnerOnly path (fs.inode i).mode
    match Text.ofUtf8 (fs.inode i).content with
    | none => .error .io
    | some s =>
      match toml.fromStr s with
      | none => .error .parse
      | some file =>
        if file.version ≠ registrySchemaVersion then
          .error (.schemaVersion file.version registrySchemaVersion)
        else do
          let r ← insertAll file.profiles .newInMemory
          .ok ⟨r, some path⟩
  | some _ => .error .io

/-- The order of the profiles in the file. -/
def idLe (p q : IdentityProfile) : Bool := p.profileId.bytes.toList ≤ q.profileId.bytes.toList

/-- The profiles of a registry, in the order of the file. -/
def sortedProfiles (r : ProfileRegistry) : List IdentityProfile :=
  (r.profiles.entries.map Sigma.snd).mergeSort idLe

/-- What saving the registry asks of the file system. -/
def save (toml : Toml) (r : BoundRegistry) : Except RegistryFileError SaveTask :=
  match r.path with
  | none => .error (.validation "registry has no bound path".toList)
  | some path =>
    match toml.toStringPretty ⟨registrySchemaVersion, sortedProfiles r.registry⟩ with
    | none => .error .serialize
    | some s => .ok ⟨path, s.utf8Bytes⟩

/-! ### What is read -/

section Load

variable {toml : Toml} {fs : FileSystem Text UInt8} {path : Text} {ps : List IdentityProfile}
  {r r' : ProfileRegistry} {p : IdentityProfile}

/-- The profiles that the loop lets through. -/
def PassesLoop (p : IdentityProfile) : Prop :=
  p.name.toList ≠ [] ∧ Text.utf8Len p.name.toList ≤ maxNameLen

theorem get_newInMemory (id : Uuid) : ProfileRegistry.newInMemory.get id = none := rfl

/-- What storing a profile does. -/
theorem insert_eq_ok_iff :
    r.insert p = .ok r' ↔
      r.get p.profileId = none ∧ r'.profiles = r.profiles.insert p.profileId p := by
  rw [ProfileRegistry.insert, ProfileRegistry.get]
  split
  · rename_i hmem
    refine iff_of_false nofun fun h => ?_
    obtain ⟨q, hq⟩ := HashMap.mem_iff_lookup.mp hmem
    rw [hq] at h
    cases h.1
  · rename_i hmem
    have hnone : r.profiles.lookup p.profileId = none := by
      rw [← Option.not_isSome_iff_eq_none, AList.lookup_isSome]
      exact hmem
    constructor
    · intro h
      rw [← Except.ok.inj h]
      exact ⟨hnone, rfl⟩
    · rintro ⟨-, h⟩
      obtain ⟨profiles, keyed⟩ := r'
      subst h
      rfl

theorem exists_insert (h : r.get p.profileId = none) : ∃ r', r.insert p = .ok r' := by
  have hmem : p.profileId ∉ r.profiles := by
    rw [HashMap.mem_iff_lookup]
    rintro ⟨q, hq⟩
    exact absurd (hq.symm.trans h) nofun
  rw [ProfileRegistry.insert, if_neg hmem]
  exact ⟨_, rfl⟩

theorem get_of_insert (h : r.insert p = .ok r') (id : Uuid) :
    r'.get id = if id = p.profileId then some p else r.get id := by
  rw [ProfileRegistry.get, (insert_eq_ok_iff.mp h).2, HashMap.lookup_insert_eq]
  rfl

/-- **What the loop lets through**: profiles with names that are neither empty nor too long,
with identifiers of their own. -/
theorem insertAll_eq_ok_iff :
    (∃ r', insertAll ps r = .ok r') ↔
      (∀ p ∈ ps, PassesLoop p ∧ r.get p.profileId = none) ∧
        (ps.map IdentityProfile.profileId).Nodup := by
  induction ps generalizing r with
  | nil => exact iff_of_true ⟨r, rfl⟩ ⟨nofun, List.nodup_nil⟩
  | cons p ps ih =>
    rw [insertAll, List.forall_mem_cons, List.map_cons, List.nodup_cons]
    split
    · rename_i hempty
      exact iff_of_false nofun fun h => h.1.1.1.1 hempty
    rename_i hempty
    split
    · rename_i hlong
      exact iff_of_false nofun fun h => Nat.not_lt.mpr h.1.1.1.2 hlong
    rename_i hlong
    have hpasses : PassesLoop p := ⟨hempty, Nat.le_of_not_lt hlong⟩
    cases hinsert : r.insert p with
    | error e =>
      refine iff_of_false nofun fun h => ?_
      obtain ⟨r', hr'⟩ := exists_insert h.1.1.2
      rw [hinsert] at hr'
      cases hr'
    | ok r₁ =>
      have hget := get_of_insert hinsert
      have hfree : r.get p.profileId = none := (insert_eq_ok_iff.mp hinsert).1
      rw [ih]
      constructor
      · rintro ⟨hall, hnodup⟩
        have hne : ∀ q ∈ ps, q.profileId ≠ p.profileId := by
          intro q hq heq
          have hnone := (hall q hq).2
          rw [hget, if_pos heq] at hnone
          cases hnone
        refine ⟨⟨⟨hpasses, hfree⟩, fun q hq => ⟨(hall q hq).1, ?_⟩⟩, ?_, hnodup⟩
        · rw [← (hall q hq).2, hget, if_neg (hne q hq)]
        · intro hmem
          obtain ⟨q, hq, heq⟩ := List.mem_map.mp hmem
          exact hne q hq heq
      · rintro ⟨⟨-, hall⟩, hnew, hnodup⟩
        refine ⟨fun q hq => ⟨(hall q hq).1, ?_⟩, hnodup⟩
        have hne : q.profileId ≠ p.profileId := by
          intro heq
          exact hnew (List.mem_map.mpr ⟨q, hq, heq⟩)
        rw [hget, if_neg hne, (hall q hq).2]

/-- **What is in the registry after the loop**: what was in it, and the profiles of the
file. -/
theorem get_of_insertAll (h : insertAll ps r = .ok r') (id : Uuid) :
    r'.get id = some p ↔ r.get id = some p ∨ p ∈ ps ∧ p.profileId = id := by
  induction ps generalizing r with
  | nil =>
    obtain rfl := Except.ok.inj h
    simp
  | cons q ps ih =>
    obtain ⟨hall, -⟩ := insertAll_eq_ok_iff.mp ⟨r', h⟩
    rw [insertAll, if_neg (hall q List.mem_cons_self).1.1,
      if_neg (Nat.not_lt.mpr (hall q List.mem_cons_self).1.2)] at h
    cases hinsert : r.insert q with
    | error e =>
      rw [hinsert] at h
      cases h
    | ok r₁ =>
      rw [hinsert] at h
      have hfree : r.get q.profileId = none := (insert_eq_ok_iff.mp hinsert).1
      rw [ih h, get_of_insert hinsert, List.mem_cons]
      by_cases hid : id = q.profileId
      · subst hid
        rw [if_pos rfl, hfree]
        constructor
        · rintro (heq | ⟨hmem, heq⟩)
          · exact .inr ⟨.inl (Option.some.inj heq).symm, by rw [Option.some.inj heq]⟩
          · exact .inr ⟨.inr hmem, heq⟩
        · rintro (heq | ⟨rfl | hmem, heq⟩)
          · cases heq
          · exact .inl rfl
          · exact .inr ⟨hmem, heq⟩
      · rw [if_neg hid]
        constructor
        · rintro (heq | ⟨hmem, heq⟩)
          · exact .inl heq
          · exact .inr ⟨.inr hmem, heq⟩
        · rintro (heq | ⟨rfl | hmem, heq⟩)
          · exact .inl heq
          · exact absurd heq.symm hid
          · exact .inr ⟨hmem, heq⟩

/-- What a path has for a registry. -/
def registryFileAt (toml : Toml) (fs : FileSystem Text UInt8) (path : Text) :
    Option RegistryFile :=
  ((fs.contents path).bind Text.ofUtf8).bind toml.fromStr

/-- **Where there is a file** a registry is read from it exactly if it is the owner's alone, it
is the text of profiles in this version, and these pass the loop. -/
theorem load_of_file_iff {i : ℕ} {b : BoundRegistry}
    (hentry : (fs.lead path).bind fs.entry = some (.file i)) :
    load toml fs path = .ok b ↔ ensureOwnerOnly path (fs.inode i).mode = .ok () ∧
      ∃ file, (Text.ofUtf8 (fs.inode i).content).bind toml.fromStr = some file ∧
        file.version = registrySchemaVersion ∧
        insertAll file.profiles .newInMemory = .ok b.registry ∧ b.path = some path := by
  rw [load, hentry]
  dsimp only
  cases hmode : ensureOwnerOnly path (fs.inode i).mode with
  | error e => exact iff_of_false nofun nofun
  | ok u =>
    dsimp only [bind, Except.bind]
    cases hutf8 : Text.ofUtf8 (fs.inode i).content with
    | none => exact iff_of_false nofun nofun
    | some s =>
      dsimp only [Option.bind_some]
      cases htoml : toml.fromStr s with
      | none => exact iff_of_false nofun nofun
      | some file =>
        dsimp only
        constructor
        · intro h
          split_ifs at h with hversion
          cases hloop : insertAll file.profiles .newInMemory with
          | error e =>
            rw [hloop] at h
            cases h
          | ok r =>
            rw [hloop] at h
            rw [← Except.ok.inj h]
            exact ⟨rfl, file, rfl, not_not.mp hversion, hloop, rfl⟩
        · rintro ⟨-, _, ⟨⟩, hversion, hloop, hpath⟩
          rw [if_neg (not_not.mpr hversion), hloop, ← hpath]

/-- **What a registry that was read has in it**: nothing where there is no file, and else what
the loop makes of the profiles of the file. -/
theorem load_eq_ok {b : BoundRegistry} (h : load toml fs path = .ok b) :
    b.path = some path ∧
      (registryFileAt toml fs path = none ∧ b.registry = .newInMemory ∨
        ∃ file, registryFileAt toml fs path = some file ∧
          insertAll file.profiles .newInMemory = .ok b.registry) := by
  rw [registryFileAt, FileSystem.contents, FileSystem.read, FileSystem.fileAt]
  cases hentry : (fs.lead path).bind fs.entry with
  | none =>
    rw [load, hentry] at h
    rw [← Except.ok.inj h]
    exact ⟨rfl, .inl ⟨rfl, rfl⟩⟩
  | some entry =>
    cases entry with
    | link q | directory =>
      rw [load, hentry] at h
      cases h
    | file i =>
      obtain ⟨-, file, hfile, -, hloop, hpath⟩ := (load_of_file_iff hentry).mp h
      exact ⟨hpath, .inr ⟨file, hfile, hloop⟩⟩

/-! ### What is true of every registry -/

/-- **What the builder sees to, of every profile of a registry**, which is stored under its
own identifier. -/
def ProfileRegistry.Keeps (r : ProfileRegistry) : Prop :=
  ∀ id p, r.get id = some p → p.profileId = id ∧ p.WellNamed

/-- What is done with a registry. -/
inductive RegistryOp where
  /-- Store a profile that was built. -/
  | insert (p : BuiltProfile)
  /-- Drop a profile. -/
  | remove (id : Uuid)

/-- Do it; what is turned away changes nothing. -/
def ProfileRegistry.apply (r : ProfileRegistry) : RegistryOp → ProfileRegistry
  | .insert p =>
    match r.insert p.profile with
    | .ok r => r
    | .error _ => r
  | .remove id => (r.remove id).2

/-- One operation keeps it. -/
theorem ProfileRegistry.Keeps.apply (h : r.Keeps) (op : RegistryOp) : (r.apply op).Keeps := by
  intro id p hp
  cases op with
  | insert q =>
    rw [ProfileRegistry.apply] at hp
    split at hp
    · rename_i r' hinsert
      rw [get_of_insert hinsert] at hp
      split at hp
      · rename_i hid
        rw [← Option.some.inj hp]
        exact ⟨hid.symm, q.wellNamed⟩
      · exact h id p hp
    · exact h id p hp
  | remove id' =>
    have hget := (HashMap.lookup_erase_eq_some_iff.mp hp).2
    exact h id p hget

/-- Every sequence of operations keeps it. -/
theorem ProfileRegistry.Keeps.foldl (h : r.Keeps) (ops : List RegistryOp) :
    (ops.foldl ProfileRegistry.apply r).Keeps := by
  induction ops generalizing r with
  | nil => exact h
  | cons op ops ih => exact ih (h.apply op)

/-- **Which registries that were read keep it**: those of files without white space around a
name. -/
theorem keeps_load_iff {b : BoundRegistry} (h : load toml fs path = .ok b) :
    b.registry.Keeps ↔
      ∀ file, registryFileAt toml fs path = some file →
        ∀ p ∈ file.profiles, Text.trim p.name.toList = p.name.toList := by
  obtain ⟨-, ⟨hnone, hempty⟩ | ⟨file, hfile, hloop⟩⟩ := load_eq_ok h
  · refine iff_of_true (fun id p hp => ?_) fun file hfile => ?_
    · rw [hempty] at hp
      cases hp
    · rw [hnone] at hfile
      cases hfile
  · have hget : ∀ id p, b.registry.get id = some p ↔ p ∈ file.profiles ∧ p.profileId = id := by
      intro id p
      rw [get_of_insertAll hloop, get_newInMemory]
      simp
    have hpasses := (insertAll_eq_ok_iff.mp ⟨_, hloop⟩).1
    constructor
    · intro hkeeps file' hfile' p hp
      obtain rfl : file = file' := Option.some.inj (hfile.symm.trans hfile')
      exact (hkeeps _ p ((hget _ p).mpr ⟨hp, rfl⟩)).2.trimmed
    · intro htrimmed id p hp
      obtain ⟨hmem, hid⟩ := (hget id p).mp hp
      exact ⟨hid, htrimmed file hfile p hmem, (hpasses p hmem).1.1, (hpasses p hmem).1.2⟩

/-! ### What was saved is read back -/

theorem mem_sortedProfiles : p ∈ sortedProfiles r ↔ r.get p.profileId = some p := by
  rw [sortedProfiles, List.mem_mergeSort, List.mem_map]
  constructor
  · rintro ⟨⟨id, q⟩, hmem, rfl⟩
    have hget : r.get id = some q := AList.mem_lookup_iff.mpr hmem
    change r.get q.profileId = some q
    rw [ProfileRegistry.profileId_of_get hget, hget]
  · intro hget
    exact ⟨⟨p.profileId, p⟩, AList.mem_lookup_iff.mp hget, rfl⟩

/-- The profiles of a registry have identifiers of their own. -/
theorem nodup_sortedProfiles (r : ProfileRegistry) :
    ((sortedProfiles r).map IdentityProfile.profileId).Nodup := by
  have hkeys : r.profiles.entries.map (fun e => e.2.profileId) =
      r.profiles.entries.map Sigma.fst := by
    refine List.map_congr_left fun e he => ?_
    exact ProfileRegistry.profileId_of_get (r := r) (AList.mem_lookup_iff.mpr he)
  have hperm : ((sortedProfiles r).map IdentityProfile.profileId).Perm
      (r.profiles.entries.map Sigma.fst) := by
    have hsorted := (List.mergeSort_perm (r.profiles.entries.map Sigma.snd) idLe).map
      IdentityProfile.profileId
    rwa [List.map_map, ← sortedProfiles, Function.comp_def, hkeys] at hsorted
  exact hperm.nodup_iff.mpr r.profiles.nodupKeys

theorem ensureOwnerOnly_ownerOnly (path : Text) :
    ensureOwnerOnly path FileMode.ownerOnly = .ok () := rfl

/-- The profiles of a registry pass the loop, and it makes the same registry of them. -/
theorem exists_insertAll_sortedProfiles (hkeeps : r.Keeps) :
    ∃ r', insertAll (sortedProfiles r) .newInMemory = .ok r' ∧ ∀ id, r'.get id = r.get id := by
  have hpasses : ∀ p ∈ sortedProfiles r,
      PassesLoop p ∧ ProfileRegistry.newInMemory.get p.profileId = none := by
    intro p hp
    have hnamed := (hkeeps _ p (mem_sortedProfiles.mp hp)).2
    exact ⟨⟨hnamed.nonempty, hnamed.short⟩, rfl⟩
  obtain ⟨r', hr'⟩ := insertAll_eq_ok_iff.mpr ⟨hpasses, nodup_sortedProfiles r⟩
  refine ⟨r', hr', fun id => Option.ext fun p => ?_⟩
  rw [get_of_insertAll hr', get_newInMemory, mem_sortedProfiles]
  constructor
  · rintro (hnone | ⟨hget, rfl⟩)
    · cases hnone
    · exact hget
  · intro hget
    have hid : p.profileId = id := ProfileRegistry.profileId_of_get hget
    exact .inr ⟨by rw [hid, hget], hid⟩

theorem save_eq_ok_iff {b : BoundRegistry} {task : SaveTask} :
    save toml b = .ok task ↔
      ∃ path s, b.path = some path ∧
        toml.toStringPretty ⟨registrySchemaVersion, sortedProfiles b.registry⟩ = some s ∧
        task = ⟨path, s.utf8Bytes⟩ := by
  rw [save]
  cases hpath : b.path with
  | none => simp
  | some path =>
    cases hs : toml.toStringPretty ⟨registrySchemaVersion, sortedProfiles b.registry⟩ with
    | none => simp
    | some s => simp [eq_comm]

/-- A file of the owner's own whose profiles pass the loop is read. -/
theorem load_of_insertAll {s : Text} {file : RegistryFile}
    (hread : fs.read path = some ⟨FileMode.ownerOnly, s.utf8Bytes⟩)
    (hfile : toml.fromStr s = some file) (hversion : file.version = registrySchemaVersion)
    (hloop : insertAll file.profiles .newInMemory = .ok r) :
    load toml fs path = .ok ⟨r, some path⟩ := by
  obtain ⟨i, hi, hinode⟩ := Option.map_eq_some_iff.mp hread
  obtain ⟨d, hlead, hentry⟩ := FileSystem.fileAt_eq_some_iff.mp hi
  have hfound : (fs.lead path).bind fs.entry = some (.file i) := by
    rw [hlead, Option.bind_some, hentry]
  refine (load_of_file_iff hfound).mpr ⟨?_, file, ?_, hversion, hloop, rfl⟩
  · rw [hinode, ensureOwnerOnly_ownerOnly]
  · rw [hinode, Text.ofUtf8_utf8Bytes, Option.bind_some, hfile]

/-- **What was saved is read back**: where the path has what saving gives it, a registry with
the same profiles is read from there. -/
theorem load_of_read (hkeeps : r.Keeps)
    (hround : ∀ file s, toml.toStringPretty file = some s → toml.fromStr s = some file)
    {task : SaveTask} (hsave : save toml ⟨r, some path⟩ = .ok task)
    (hread : fs.read path = some ⟨FileMode.ownerOnly, task.bytes⟩) :
    ∃ b, load toml fs path = .ok b ∧ b.path = some path ∧
      ∀ id, b.registry.get id = r.get id := by
  obtain ⟨_, s, -, hs, rfl⟩ := save_eq_ok_iff.mp hsave
  obtain ⟨r', hr', hget⟩ := exists_insertAll_sortedProfiles hkeeps
  exact ⟨⟨r', some path⟩, load_of_insertAll hread (hround _ s hs) rfl hr', rfl, hget⟩

/-- **A registry is read back from the file system that saving it leads to**, where the
temporary file is not what the path leads to. -/
theorem load_of_done {umask : FileMode} {st : Config.SaveState} (hkeeps : r.Keeps)
    (hround : ∀ file s, toml.toStringPretty file = some s → toml.fromStr s = some file)
    {task : SaveTask} (hsave : save toml ⟨r, some path⟩ = .ok task)
    (hapart : fs.OpensApart (Config.tmpPath path) path)
    (hst : Config.SaveReaches umask task fs st) (hdone : st.progress = .done) :
    ∃ b, load toml st.fs path = .ok b ∧ b.path = some path ∧
      ∀ id, b.registry.get id = r.get id := by
  obtain ⟨_, s, hpath, -, htask⟩ := save_eq_ok_iff.mp hsave
  obtain rfl : path = task.path := by
    rw [htask]
    exact Option.some.inj hpath
  exact load_of_read hkeeps hround hsave (Config.read_of_done hapart hst hdone)

end Load

/-! ### A file with one profile -/

section Sample

/-- A profile. -/
def sampleProfile (name : Text) : IdentityProfile := ⟨.splat 1, String.ofList name, .standard⟩

/-- A file with one profile. -/
def sampleFile (name : Text) : RegistryFile := ⟨registrySchemaVersion, [sampleProfile name]⟩

/-- The text of the file. -/
def sampleText (name : Text) : Text :=
  "version = 1\n\n[[profiles]]\nprofile_id = \"01010101-0101-0101-0101-010101010101\"\n".toList ++
    "name = \"".toList ++ name ++ "\"\nmode = \"standard\"\n".toList

/-- The TOML library, as far as it writes and reads this file. -/
def sampleToml (name : Text) : Toml where
  toStringPretty file := if file = sampleFile name then some (sampleText name) else none
  fromStr s := if s = sampleText name then some (sampleFile name) else none

theorem sampleToml_eq_some {name s : Text} {file : RegistryFile}
    (h : (sampleToml name).toStringPretty file = some s) :
    file = sampleFile name ∧ s = sampleText name := by
  change (if file = sampleFile name then some (sampleText name) else none) = some s at h
  split at h
  · rename_i hfile
    exact ⟨hfile, (Option.some.inj h).symm⟩
  · cases h

theorem fromStr_sampleText (name : Text) :
    (sampleToml name).fromStr (sampleText name) = some (sampleFile name) :=
  if_pos (c := sampleText name = sampleText name) rfl

theorem toStringPretty_sampleFile (name : Text) :
    (sampleToml name).toStringPretty (sampleFile name) = some (sampleText name) :=
  if_pos (c := sampleFile name = sampleFile name) rfl

theorem sampleToml_round {name s : Text} {file : RegistryFile}
    (h : (sampleToml name).toStringPretty file = some s) :
    (sampleToml name).fromStr s = some file := by
  obtain ⟨rfl, rfl⟩ := sampleToml_eq_some h
  exact fromStr_sampleText name

/-- A file system with one file, at a path. -/
def oneFile (path : Text) (x : Inode UInt8) : FileSystem Text UInt8 where
  entry p := if p = path then some (.file 0) else none
  inode _ := x
  refused _ := false
  next := 1
  fresh p i h := by
    split at h
    · cases h
      exact Nat.one_pos
    · cases h

theorem read_oneFile (path : Text) (x : Inode UInt8) : (oneFile path x).read path = some x := by
  have hentry : (oneFile path x).entry path = some (.file 0) := if_pos rfl
  rw [FileSystem.read, FileSystem.fileAt_of_entry hentry]
  rfl

/-- A file system without files. -/
def noFiles : FileSystem Text UInt8 :=
  ⟨fun _ => none, fun _ => ⟨0, []⟩, fun _ => false, 0, nofun⟩

/-- A temporary path is not its target. -/
theorem tmpPath_ne (path : Text) : Config.tmpPath path ≠ path :=
  fun h => absurd (List.append_right_eq_self.mp h) (by decide)

theorem opensApart_oneFile (path : Text) (x : Inode UInt8) :
    (oneFile path x).OpensApart (Config.tmpPath path) path := by
  refine .of_free (if_neg (tmpPath_ne path)) fun hlead => ?_
  have htarget : (oneFile path x).lead path = some path :=
    FileSystem.lead_of_linkAt_none (FileSystem.linkAt_of_entry_file (i := 0) (if_pos rfl))
  exact tmpPath_ne path (Option.some.inj (hlead.symm.trans htarget))

theorem opensApart_noFiles (path : Text) :
    noFiles.OpensApart (Config.tmpPath path) path := by
  refine .of_free rfl fun hlead => ?_
  have htarget : noFiles.lead path = some path :=
    FileSystem.lead_of_linkAt_none (FileSystem.linkAt_of_entry_none rfl)
  exact tmpPath_ne path (Option.some.inj (hlead.symm.trans htarget))

/-- The registry of the file, and what saving it asks. -/
theorem exists_sampleRegistry : ∃ r,
    insertAll [sampleProfile ['A']] .newInMemory = .ok r ∧
      save (sampleToml ['A']) ⟨r, some ['r']⟩ = .ok ⟨['r'], (sampleText ['A']).utf8Bytes⟩ := by
  obtain ⟨r, hr⟩ : ∃ r, ProfileRegistry.newInMemory.insert (sampleProfile ['A']) = .ok r :=
    exists_insert rfl
  have hname : (sampleProfile ['A']).name.toList = ['A'] := String.toList_ofList
  have hsorted : sortedProfiles r = [sampleProfile ['A']] := by
    have hnew : (sampleProfile ['A']).profileId ∉ ProfileRegistry.newInMemory.profiles :=
      AList.notMem_empty _
    rw [sortedProfiles, (insert_eq_ok_iff.mp hr).2, AList.entries_insert_of_notMem hnew]
    exact List.mergeSort_singleton _
  refine ⟨r, ?_, save_eq_ok_iff.mpr ⟨['r'], sampleText ['A'], rfl, ?_, rfl⟩⟩
  · rw [insertAll, hname, if_neg (by decide), if_neg (by decide), hr]
    rfl
  · rw [hsorted]
    exact toStringPretty_sampleFile ['A']

end Sample

/-! ### The builder's invariants -/

/-- The registry that is read at a path has the profiles of another. -/
def LoadsBack (toml : Toml) (fs : FileSystem Text UInt8) (path : Text) (r : ProfileRegistry) :
    Prop :=
  ∃ b, load toml fs path = .ok b ∧ b.path = some path ∧ ∀ id, b.registry.get id = r.get id

/-- **Where every profile of a registry is well named**, however it came there: exactly where
no name in the file has white space around it. A registry of such profiles is read back where
its text is, and so from the file system that saving it leads to. -/
theorem registry_keeps_iff (toml : Toml)
    (hround : ∀ file s, toml.toStringPretty file = some s → toml.fromStr s = some file) :
    (∀ fs path b, load toml fs path = .ok b →
        ((∀ ops : List RegistryOp, (ops.foldl ProfileRegistry.apply b.registry).Keeps) ↔
          ∀ file, registryFileAt toml fs path = some file →
            ∀ p ∈ file.profiles, Text.trim p.name.toList = p.name.toList)) ∧
      ∀ r path task, r.Keeps → save toml ⟨r, some path⟩ = .ok task →
        (∀ fs, fs.read path = some ⟨FileMode.ownerOnly, task.bytes⟩ → LoadsBack toml fs path r) ∧
          ∀ umask fs st, fs.OpensApart (Config.tmpPath path) path →
            Config.SaveReaches umask task fs st → st.progress = .done →
              LoadsBack toml st.fs path r := by
  refine ⟨fun fs path b h => ?_, fun r path task hkeeps hsave =>
    ⟨fun fs hread => load_of_read hkeeps hround hsave hread, fun umask fs st hapart hst hdone =>
      load_of_done hkeeps hround hsave hapart hst hdone⟩⟩
  rw [← keeps_load_iff h]
  exact ⟨fun hall => hall [], fun hkeeps ops => hkeeps.foldl ops⟩

/-- Another profile, whose name was trimmed when it was built. -/
def sampleBuilt : BuiltProfile :=
  ⟨⟨.splat 2, String.ofList ['B'], .strict⟩, some [' ', 'B'], .strict, rfl⟩

/-- A file with one profile is read, another profile is stored and dropped, and the registry is
saved and read back. -/
theorem registry_keeps_iff_sample : ∃ b st,
    load (sampleToml ['A']) (oneFile ['r'] ⟨FileMode.ownerOnly, (sampleText ['A']).utf8Bytes⟩)
        ['r'] = .ok b ∧
      b.registry.get (.splat 1) = some (sampleProfile ['A']) ∧
      ([.insert sampleBuilt, .remove (.splat 2)].foldl ProfileRegistry.apply b.registry).Keeps ∧
      save (sampleToml ['A']) b = .ok ⟨['r'], (sampleText ['A']).utf8Bytes⟩ ∧
      Config.SaveReaches 0o022 ⟨['r'], (sampleText ['A']).utf8Bytes⟩
        (oneFile ['r'] ⟨FileMode.ownerOnly, (sampleText ['A']).utf8Bytes⟩) st ∧
      st.progress = .done ∧ LoadsBack (sampleToml ['A']) st.fs ['r'] b.registry := by
  obtain ⟨r, hloop, hsave⟩ := exists_sampleRegistry
  have hread := read_oneFile ['r'] ⟨FileMode.ownerOnly, (sampleText ['A']).utf8Bytes⟩
  have hload := load_of_insertAll hread (fromStr_sampleText _) rfl hloop
  have hexec : (Transition.exec
      (Config.saveStep 0o022 ⟨['r'], (sampleText ['A']).utf8Bytes⟩)
      ⟨oneFile ['r'] ⟨FileMode.ownerOnly, (sampleText ['A']).utf8Bytes⟩, .start, none, []⟩
      [.openTmp, .write (sampleText ['A']).utf8Bytes.length, .lock, .rename]).any
      (fun p => decide (p.2.progress = .done)) = true := by
    decide +kernel
  obtain ⟨tr, st, hrun, -, hdone⟩ := Transition.exists_run_where hexec
  have hname : (sampleProfile ['A']).name.toList = ['A'] := String.toList_ofList
  obtain ⟨hkeeps, hback⟩ := registry_keeps_iff (sampleToml ['A']) fun _ _ h => sampleToml_round h
  have hall := (hkeeps _ _ _ hload).mpr fun file hfile p hp => by
    rw [registryFileAt, FileSystem.contents, hread, Option.map_some, Option.bind_some,
      Text.ofUtf8_utf8Bytes, Option.bind_some, fromStr_sampleText] at hfile
    rw [← Option.some.inj hfile] at hp
    rw [List.mem_singleton.mp hp, hname]
    decide
  refine ⟨_, st, hload, ?_, hall _, hsave, ⟨tr, hrun⟩, of_decide_eq_true hdone, ?_⟩
  · exact (get_of_insertAll hloop (Uuid.splat 1)).mpr (.inr ⟨List.mem_singleton_self _, rfl⟩)
  · exact (hback r ['r'] _ (hall []) hsave).2 0o022 _ st (opensApart_oneFile ['r'] _) ⟨tr, hrun⟩
      (of_decide_eq_true hdone)

/-- A name with white space around it is read from the file. -/
theorem not_registry_keeps :
    ¬ ∀ toml : Toml,
      (∀ file s, toml.toStringPretty file = some s → toml.fromStr s = some file) →
        ∀ fs path b, load toml fs path = .ok b →
          ∀ ops : List RegistryOp, (ops.foldl ProfileRegistry.apply b.registry).Keeps := by
  intro hall
  have hname : (sampleProfile [' ', 'A']).name.toList = [' ', 'A'] := String.toList_ofList
  obtain ⟨r, hr⟩ : ∃ r, insertAll [sampleProfile [' ', 'A']] .newInMemory = .ok r := by
    refine insertAll_eq_ok_iff.mpr ⟨fun p hp => ?_, List.nodup_singleton _⟩
    obtain rfl := List.mem_singleton.mp hp
    refine ⟨?_, rfl⟩
    rw [PassesLoop, hname]
    decide
  have hload := load_of_insertAll (read_oneFile ['r'] _) (fromStr_sampleText _) rfl hr
  have hget := (get_of_insertAll hr (Uuid.splat 1)).mpr (.inr ⟨List.mem_singleton_self _, rfl⟩)
  have htrimmed := (hall _ (fun _ _ h => sampleToml_round h) _ _ _ hload [] _ _ hget).2.trimmed
  rw [hname] at htrimmed
  exact absurd htrimmed (by decide)

/-! ### What is saved -/

/-- **Where nothing that is saved is exposed, and nothing is half done**, of the registry and
of the configuration, in every state that saving leads through: exactly where the temporary
file is closed to others when it is opened, and is not what the target leads to. -/
theorem saves_unexposed_iff {toml : Toml} {configToString : Config → Option Text}
    {quoted : Text → Text}
    (htoml : ∀ file s, toml.toStringPretty file = some s → 2 ≤ s.utf8Len)
    (hconfig : ∀ cfg s, configToString cfg = some s → 2 ≤ s.utf8Len) (umask : FileMode)
    (fs : FileSystem Text UInt8) :
    (∀ b task, save toml b = .ok task →
        ((∀ st, Config.SaveReaches umask task fs st → st.Secret ∧ st.Whole fs task) ↔
          fs.OpensClosed umask (Config.tmpPath task.path) ∧
            fs.OpensApart (Config.tmpPath task.path) task.path)) ∧
      ∀ path cfg task, Config.save configToString quoted path cfg = .ok task →
        ((∀ st, Config.SaveReaches umask task fs st → st.Secret ∧ st.Whole fs task) ↔
          fs.OpensClosed umask (Config.tmpPath task.path) ∧
            fs.OpensApart (Config.tmpPath task.path) task.path) := by
  refine ⟨fun b task h => ?_, fun path cfg task h => ?_⟩
  · obtain ⟨path, s, -, hs, rfl⟩ := save_eq_ok_iff.mp h
    exact Config.secret_and_whole_iff (htoml _ s hs)
  · obtain ⟨-, s, hs, rfl⟩ := Config.save_eq_ok h
    exact Config.secret_and_whole_iff (hconfig _ s hs)

/-- The text of a configuration where nothing is said. -/
def sampleConfigToString (cfg : Config) : Option Text :=
  if cfg = {} then some "version = 1\n\n[privacy]\ndefault_mode = \"standard\"\n".toList else none

/-- A registry and a configuration are saved where there are no files: nobody else can read
them under a mask that takes all rights of others, and under the usual one it can happen. -/
theorem saves_unexposed_iff_noFiles : ∃ b task task',
    save (sampleToml ['A']) b = .ok task ∧
      Config.save sampleConfigToString id ['c'] {} = .ok task' ∧
      (∀ st, Config.SaveReaches 0o077 task noFiles st → st.Secret ∧ st.Whole noFiles task) ∧
      (∀ st, Config.SaveReaches 0o077 task' noFiles st → st.Secret ∧ st.Whole noFiles task') ∧
      ¬ ∀ st, Config.SaveReaches 0o022 task noFiles st → st.Secret ∧ st.Whole noFiles task := by
  have htoml : ∀ file s, (sampleToml ['A']).toStringPretty file = some s → 2 ≤ s.utf8Len := by
    intro file s h
    rw [(sampleToml_eq_some h).2]
    decide
  have hconfig : ∀ cfg s, sampleConfigToString cfg = some s → 2 ≤ s.utf8Len := by
    intro cfg s h
    rw [sampleConfigToString] at h
    split at h
    · rw [← Option.some.inj h]
      decide
    · cases h
  have hclosed : ∀ path, noFiles.OpensClosed 0o077 (Config.tmpPath path) :=
    fun path => .of_free rfl (by decide)
  obtain ⟨r, -, hsave⟩ := exists_sampleRegistry
  have hsave' : Config.save sampleConfigToString id ['c'] {} = .ok _ := rfl
  have hiff := fun umask =>
    @saves_unexposed_iff (sampleToml ['A']) sampleConfigToString id htoml hconfig umask noFiles
  refine ⟨_, _, _, hsave, hsave', ?_, ?_, fun hall => ?_⟩
  · exact ((hiff 0o077).1 _ _ hsave).mpr ⟨hclosed _, opensApart_noFiles _⟩
  · exact ((hiff 0o077).2 _ _ _ hsave').mpr ⟨hclosed _, opensApart_noFiles _⟩
  · have hopens := ((hiff 0o022).1 _ _ hsave).mp hall
    exact (hopens.1 _ rfl rfl).2 rfl (by decide)

/-- With the usual mask, and no temporary file before, others can read what is written. -/
theorem not_saves_unexposed :
    ¬ ∀ (toml : Toml) (umask : FileMode) (fs : FileSystem Text UInt8) (b : BoundRegistry)
        (task : SaveTask), save toml b = .ok task →
      ∀ st, Config.SaveReaches umask task fs st → st.Secret ∧ st.Whole fs task := by
  intro hall
  obtain ⟨r, -, hsave⟩ := exists_sampleRegistry
  have hsafe := hall _ 0o022 noFiles _ _ hsave
  have hclosed := ((Config.secret_and_whole_iff (by decide)).mp hsafe).1
  exact (hclosed _ rfl rfl).2 rfl (by decide)

end Identity

end DevBrowse
