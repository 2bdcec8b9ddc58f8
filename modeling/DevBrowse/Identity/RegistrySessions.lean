import DevBrowse.Config.Sessions
import DevBrowse.Identity.RegistryFile

/-!
# The registry through crashes

The registry of profiles is read when the program is started, changed as profiles are made and
dropped, and saved; the program may stop at any time. Whatever happens, the registry can be
read again, and has the profiles it had when it was saved last, with the identifiers, names and
modes they had (`DevBrowse.Identity.registry_survives`). No check that reading makes turns away
what was saved: profiles that were read passed the checks, and so do those that are built.
-/

namespace DevBrowse

namespace Identity

open Config (FileKind SaveTask Session tmpPath toOption_eq_some_iff)

open Transition (Step)

variable {toml : Toml} {path : Text} {fs fs' : FileSystem Text UInt8} {b : BoundRegistry}
  {r r' : ProfileRegistry}

/-- The file of the registry. -/
def registryFile (toml : Toml) (path : Text) : FileKind BoundRegistry where
  path := path
  load fs := (load toml fs path).toOption
  save b := (save toml b).toOption

/-- A registry that is bound to a path, and whose profiles pass the checks that reading makes. -/
structure Readable (path : Text) (b : BoundRegistry) : Prop where
  /-- It is bound to the path. -/
  bound : b.path = some path
  /-- Its profiles pass the checks. -/
  passes : ∀ id p, b.registry.get id = some p → PassesLoop p

/-- Two registries bound to one path have the same profiles. -/
structure SameProfiles (b b' : BoundRegistry) : Prop where
  /-- They are bound to one path. -/
  path : b.path = b'.path
  /-- They have the same profiles. -/
  get : ∀ id, b.registry.get id = b'.registry.get id

/-- An operation on a registry that is bound to a path. -/
def BoundRegistry.apply (op : RegistryOp) (b : BoundRegistry) : BoundRegistry :=
  { b with registry := b.registry.apply op }

/-- Profiles that are built pass the checks. -/
theorem Readable.apply (op : RegistryOp) (h : Readable path b) : Readable path (b.apply op) where
  bound := h.bound
  passes id p hp := by
    change (b.registry.apply op).get id = some p at hp
    cases op with
    | insert q =>
      rw [ProfileRegistry.apply] at hp
      split at hp
      · rename_i r' hinsert
        rw [get_of_insert hinsert] at hp
        split at hp
        · rw [← Option.some.inj hp]
          exact ⟨q.wellNamed.nonempty, q.wellNamed.short⟩
        · exact h.passes id p hp
      · exact h.passes id p hp
    | remove id' => exact h.passes id p (HashMap.lookup_erase_eq_some_iff.mp hp).2

/-- So do profiles that were read. -/
theorem readable_of_load (h : load toml fs path = .ok b) : Readable path b := by
  obtain ⟨hpath, ⟨-, hempty⟩ | ⟨file, -, hloop⟩⟩ := load_eq_ok h
  · refine ⟨hpath, fun id p hp => ?_⟩
    rw [hempty] at hp
    cases hp
  · refine ⟨hpath, fun id p hp => ?_⟩
    rcases (get_of_insertAll hloop id).mp hp with hnone | ⟨hmem, -⟩
    · cases hnone
    · exact ((insertAll_eq_ok_iff.mp ⟨_, hloop⟩).1 p hmem).1

/-- What is read depends on what is found at the path alone. -/
theorem load_congr (h : fs.Unchanged fs' path) : load toml fs' path = load toml fs path := by
  rw [load, load, h.entry]
  cases hentry : (fs.lead path).bind fs.entry with
  | none => rfl
  | some entry =>
    cases entry with
    | file i =>
      have hfile : fs.fileAt path = some i := by rw [FileSystem.fileAt, hentry]
      dsimp only
      rw [h.inode i hfile]
    | link q => rfl
    | directory => rfl

/-- **The registry is read back as it was saved.** -/
theorem lawful_registryFile
    (hround : ∀ file s, toml.toStringPretty file = some s → toml.fromStr s = some file) :
    (registryFile toml path).Lawful (Readable path) SameProfiles where
  good_of_load _ _ h := readable_of_load (toOption_eq_some_iff.mp h)
  load_congr _ _ h := congrArg Except.toOption (load_congr h)
  path_of_save b task hreadable h := by
    obtain ⟨path', s, hpath, -, rfl⟩ := save_eq_ok_iff.mp (toOption_eq_some_iff.mp h)
    exact Option.some.inj (hpath.symm.trans hreadable.bound)
  load_of_save b task fs hreadable h hread := by
    obtain ⟨_, s, -, hs, rfl⟩ := save_eq_ok_iff.mp (toOption_eq_some_iff.mp h)
    have hall : ∀ p ∈ sortedProfiles b.registry,
        PassesLoop p ∧ ProfileRegistry.newInMemory.get p.profileId = none :=
      fun p hp => ⟨hreadable.passes _ p (mem_sortedProfiles.mp hp), rfl⟩
    obtain ⟨r, hloop⟩ := insertAll_eq_ok_iff.mpr ⟨hall, nodup_sortedProfiles b.registry⟩
    refine ⟨⟨r, some path⟩, toOption_eq_some_iff.mpr
      (load_of_insertAll hread (hround _ s hs) rfl hloop), hreadable.bound.symm, fun id => ?_⟩
    refine Option.ext fun p => ?_
    rw [get_of_insertAll hloop, get_newInMemory, mem_sortedProfiles]
    constructor
    · rintro (hnone | ⟨hget, rfl⟩)
      · cases hnone
      · exact hget
    · intro hget
      have hid : p.profileId = id := ProfileRegistry.profileId_of_get hget
      exact .inr ⟨by rw [hid, hget], hid⟩

/-! ### Sessions -/

/-- The runs of the program. -/
abbrev RegistryRun (toml : Toml) (path : Text) (umask : FileMode) (fs₀ : FileSystem Text UInt8) :
    List (Step (Session BoundRegistry) (Session.Event RegistryOp)) → Session BoundRegistry →
      Prop :=
  Session.Run (registryFile toml path) BoundRegistry.apply umask fs₀

variable {umask : FileMode} {fs₀ : FileSystem Text UInt8} {b₀ : BoundRegistry}
  {tr : List (Step (Session BoundRegistry) (Session.Event RegistryOp))}
  {s : Session BoundRegistry}

/-- **The registry survives**: whenever the program stops, also while it saves, and however often
it is started again, a registry is read, and has the profiles of the one that was saved last;
one whose saving is done is read from then on. -/
theorem registry_survives
    (hround : ∀ file s, toml.toStringPretty file = some s → toml.fromStr s = some file)
    (hapart : fs₀.OpensApart (tmpPath path) path) (hload : load toml fs₀ path = .ok b₀)
    (hrun : RegistryRun toml path umask fs₀ tr s) :
    (∃ b, load toml s.fs path = .ok b ∧
        ∀ id, b.registry.get id = (Session.committed b₀ tr).registry.get id) ∧
      ∀ b task st, s = .saving b task st → st.progress = .done →
        Session.committed b₀ tr = b := by
  obtain ⟨⟨b, hb, hsame⟩, hdone⟩ := Session.load_of_run (lawful_registryFile hround)
    (fun op _ h => Readable.apply op h) (fun _ => ⟨rfl, fun _ => rfl⟩) hapart
    (toOption_eq_some_iff.mpr hload) hrun
  exact ⟨⟨b, toOption_eq_some_iff.mp hb, hsame.get⟩, hdone⟩

/-- A profile that was built. -/
def exampleBuilt : BuiltProfile :=
  ⟨sampleProfile ['A'], some ['A'], .standard, rfl⟩

/-- There is no registry yet. The program stops while it saves one with a profile, is started
again, saves it, and stops before it knows. -/
def exampleEvents : List (Session.Event RegistryOp) :=
  [.start, .change (.insert exampleBuilt), .save, .act .openTmp, .act (.write 7), .crash, .start,
    .change (.insert exampleBuilt), .save, .act .openTmp,
    .act (.write (Text.utf8Len (sampleText ['A']))), .act .lock, .act .rename, .crash]

/-- The profile is there when the program is started once more. -/
theorem registry_survives_example : ∃ tr s b,
    RegistryRun (sampleToml ['A']) ['r'] 0o022 noFiles tr s ∧
      tr.map Step.input = exampleEvents ∧ load (sampleToml ['A']) s.fs ['r'] = .ok b ∧
      b.registry.get (.splat 1) = some (sampleProfile ['A']) := by
  have hexec : (Transition.exec (Session.step (registryFile (sampleToml ['A']) ['r'])
      BoundRegistry.apply 0o022) (.down noFiles) exampleEvents).any
      (fun p => decide ((Session.committed ⟨.newInMemory, some ['r']⟩ p.1).registry.get
        (.splat 1) = some (sampleProfile ['A']))) = true := by
    decide +kernel
  obtain ⟨tr, s, hrun, hinputs, hlast⟩ := Transition.exists_run_where hexec
  have hapart : noFiles.OpensApart (tmpPath ['r']) ['r'] := opensApart_noFiles ['r']
  have hload : load (sampleToml ['A']) noFiles ['r'] = .ok ⟨.newInMemory, some ['r']⟩ := rfl
  obtain ⟨b, hb, hget⟩ :=
    (registry_survives (fun _ _ h => sampleToml_round h) hapart hload hrun).1
  exact ⟨tr, s, b, hrun, hinputs, hb, (hget _).trans (of_decide_eq_true hlast)⟩

end Identity

end DevBrowse
