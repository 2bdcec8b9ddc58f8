import DevBrowse.Config.AtomicSave

/-!
# What a crash leaves

A program reads a file when it is started, changes in memory what it has read, and saves it now
and then; it may stop at any time, also while the file is saved, and be started again. Whatever
happens, the file can be read, and what is read is what was saved last: the last content that
came so far as to be renamed to the target (`DevBrowse.Config.Session.load_of_run`). This is so
for every kind of file that is read back as it was saved (`DevBrowse.Config.FileKind.Lawful`),
as long as the temporary file and the target were apart at first: they stay so.

The configuration is such a file (`DevBrowse.Config.config_survives`).
-/

namespace DevBrowse

namespace Config

open Transition (Step)

/-- What is not an error. -/
theorem toOption_eq_some_iff {ε α : Type*} {m : Except ε α} {x : α} :
    m.toOption = some x ↔ m = .ok x := by
  cases m with
  | error e => exact iff_of_false nofun nofun
  | ok y =>
    constructor
    · intro h
      rw [Option.some.inj h]
    · intro h
      rw [Except.ok.inj h]
      rfl

/-! ### Kinds of files -/

/-- **A kind of file.** -/
structure FileKind (α : Type*) where
  /-- Where it is. -/
  path : Text
  /-- What is read from it. -/
  load : FileSystem Text UInt8 → Option α
  /-- What saving it asks of the file system. -/
  save : α → Option SaveTask

/-- **A kind of file that is read back as it was saved.** -/
structure FileKind.Lawful {α : Type*} (kind : FileKind α) (Good : α → Prop)
    (same : α → α → Prop) : Prop where
  /-- What is read is good. -/
  good_of_load : ∀ fs x, kind.load fs = some x → Good x
  /-- What is read depends on what is found at the path alone. -/
  load_congr : ∀ fs fs' : FileSystem Text UInt8, fs.Unchanged fs' kind.path →
    kind.load fs' = kind.load fs
  /-- What is good is saved where it is read from. -/
  path_of_save : ∀ x task, Good x → kind.save x = some task → task.path = kind.path
  /-- What is good is read back as it was saved. -/
  load_of_save : ∀ x task fs, Good x → kind.save x = some task →
    fs.read kind.path = some ⟨FileMode.ownerOnly, task.bytes⟩ →
      ∃ y, kind.load fs = some y ∧ same y x

/-! ### One step of saving -/

section SaveStep

variable {umask : FileMode} {task : SaveTask} {fs : FileSystem Text UInt8}
  {st st' : SaveState} {action : SaveAction}

/-- What is true of a state that saving leads to. -/
theorem SaveReaches.saving (h : SaveReaches umask task fs st)
    (hapart : fs.OpensApart (tmpPath task.path) task.path) : st.Saving fs task :=
  h.invariant (I := fun st => st.Saving fs task) rfl
    fun _ _ _ hi hstep => saving_saveStep hapart hi hstep

/-- While it is written, the temporary file is not what the target leads to. -/
theorem SaveReaches.apart_of_opened (h : SaveReaches umask task fs st)
    (hapart : fs.OpensApart (tmpPath task.path) task.path) {i : ℕ} {rest : List UInt8}
    (hprogress : st.progress = .writing rest) (hi : st.opened = some i) :
    st.fs.fileAt task.path ≠ some i := by
  have hsaving := h.saving hapart
  rw [SaveState.Saving, hprogress] at hsaving
  obtain ⟨k, hk⟩ := hsaving
  obtain rfl : i = k := Option.some.inj (hi.symm.trans hk.opened)
  exact hk.apart

/-- Saving is done by renaming. -/
theorem done_saveStep_iff (h : saveStep umask task st action = some st') :
    st'.progress = .done ↔ action = .rename := by
  cases action with
  | openTmp =>
    rw [saveStep] at h
    split at h
    · obtain ⟨p, -, rfl⟩ := Option.map_eq_some_iff.mp h
      exact iff_of_false (fun hdone => by cases hdone) fun hrename => by cases hrename
    · cases h
  | write count =>
    rw [saveStep] at h
    split at h
    · split at h
      · rw [← Option.some.inj h]
        exact iff_of_false (fun hdone => by cases hdone) fun hrename => by cases hrename
      · cases h
    · cases h
  | lock =>
    rw [saveStep] at h
    split at h
    · obtain ⟨fs', -, rfl⟩ := Option.map_eq_some_iff.mp h
      exact iff_of_false (fun hdone => by cases hdone) fun hrename => by cases hrename
    · cases h
  | rename =>
    rw [saveStep] at h
    split at h
    · obtain ⟨fs', -, rfl⟩ := Option.map_eq_some_iff.mp h
      exact iff_of_true rfl rfl
    · cases h
  | fail =>
    rw [saveStep] at h
    split at h
    · cases h
    · cases h
    · rw [← Option.some.inj h]
      exact iff_of_false (fun hdone => by cases hdone) fun hrename => by cases hrename

/-- **A step leaves the target as it was**, unless saving is done by it; and the two paths stay
apart. -/
theorem SaveReaches.unchanged_or_done (hst : SaveReaches umask task fs st)
    (hapart : fs.OpensApart (tmpPath task.path) task.path)
    (hnow : st.fs.OpensApart (tmpPath task.path) task.path)
    (h : saveStep umask task st action = some st') :
    (st.fs.Unchanged st'.fs task.path ∨ st'.progress = .done) ∧
      st'.fs.OpensApart (tmpPath task.path) task.path := by
  rcases saveStep_cases h with ⟨i, fs', -, hopen, rfl⟩ |
    ⟨rest, i, count, hprogress, hi, -, -, rfl⟩ | ⟨i, hprogress, hi, rfl⟩ |
    ⟨fs', hprogress, hrename, rfl⟩ | rfl
  · exact ⟨.inl (hnow.unchanged_of_open hopen), hnow.of_open hopen⟩
  · exact ⟨.inl (FileSystem.unchanged_setInode _ (hst.apart_of_opened hapart hprogress hi)),
      hnow.setInode _ _⟩
  · have hsaving := hst.saving hapart
    rw [SaveState.Saving, hprogress] at hsaving
    obtain ⟨k, hk⟩ := hsaving
    obtain rfl : i = k := Option.some.inj (hi.symm.trans hk.tmp)
    exact ⟨.inl (FileSystem.unchanged_setInode _ hk.apart), hnow.setInode _ _⟩
  · have hsaving := hst.saving hapart
    rw [SaveState.Saving, hprogress] at hsaving
    obtain ⟨i, hi, -⟩ := hsaving
    exact ⟨.inr rfl, hnow.of_rename hrename hi.tmp hi.apart⟩
  · exact ⟨.inl (FileSystem.Unchanged.refl _ _), hnow⟩

end SaveStep

/-! ### Sessions -/

/-- **The program and its file.** -/
inductive Session (α : Type*) where
  /-- The program does not run. -/
  | down (fs : FileSystem Text UInt8)
  /-- It has this in memory. -/
  | up (fs : FileSystem Text UInt8) (x : α)
  /-- It saves what it has in memory. -/
  | saving (x : α) (task : SaveTask) (st : SaveState)

namespace Session

variable {α ω : Type*}

/-- The files. -/
def fs : Session α → FileSystem Text UInt8
  | .down fs => fs
  | .up fs _ => fs
  | .saving _ _ st => st.fs

/-- What happens. -/
inductive Event (ω : Type*) where
  /-- The program is started. -/
  | start
  /-- What is in memory is changed. -/
  | change (o : ω)
  /-- `save` is called. -/
  | save
  /-- It does a step, or the step fails. -/
  | act (action : SaveAction)
  /-- It returns. -/
  | returned
  /-- The program stops. -/
  | crash

/-- **One event.** -/
def step (kind : FileKind α) (change : ω → α → α) (umask : FileMode) :
    Session α → Event ω → Option (Session α)
  | .down fs, .start =>
    match kind.load fs with
    | some x => some (.up fs x)
    | none => some (.down fs)
  | .up fs x, .change o => some (.up fs (change o x))
  | .up fs x, .save =>
    match kind.save x with
    | some task => some (.saving x task ⟨fs, .start, none, []⟩)
    | none => some (.up fs x)
  | .saving x task st, .act action => (saveStep umask task st action).map (.saving x task)
  | .saving x _ st, .returned =>
    if st.progress = .done ∨ st.progress = .stopped then some (.up st.fs x) else none
  | s, .crash => some (.down s.fs)
  | _, _ => none

/-- The runs. -/
abbrev Run (kind : FileKind α) (change : ω → α → α) (umask : FileMode)
    (fs₀ : FileSystem Text UInt8) : List (Step (Session α) (Event ω)) → Session α → Prop :=
  Transition.Run (Transition.ofFun (step kind change umask)) (.down fs₀)

/-- **What a step commits**: what is saved, when it is renamed to the target. -/
def commits : Step (Session α) (Event ω) → Option α
  | ⟨.saving x _ _, .act .rename, _⟩ => some x
  | _ => none

/-- **What was committed last.** -/
def committed (x₀ : α) (tr : List (Step (Session α) (Event ω))) : α :=
  tr.foldl (fun x y => (commits y).getD x) x₀

theorem committed_snoc (x₀ : α) (tr : List (Step (Session α) (Event ω)))
    (y : Step (Session α) (Event ω)) :
    committed x₀ (tr ++ [y]) = (commits y).getD (committed x₀ tr) := by
  rw [committed, List.foldl_append]
  rfl

/-! ### What the file has -/

variable {kind : FileKind α} {Good : α → Prop} {same : α → α → Prop} {change : ω → α → α}
  {umask : FileMode} {fs₀ : FileSystem Text UInt8} {x₀ : α} {s s' : Session α} {e : Event ω}
  {tr : List (Step (Session α) (Event ω))}

/-- What is true of what is in memory, and of what is saved. -/
def Remembers (kind : FileKind α) (Good : α → Prop) (umask : FileMode) (last : α) :
    Session α → Prop
  | .down _ => True
  | .up _ x => Good x
  | .saving x task st => Good x ∧ kind.save x = some task ∧ (st.progress = .done → last = x) ∧
    ∃ fs, fs.OpensApart (tmpPath task.path) task.path ∧ SaveReaches umask task fs st

/-- **What is true of every session**: what was committed last can be read. -/
structure Durable (kind : FileKind α) (Good : α → Prop) (same : α → α → Prop) (umask : FileMode)
    (last : α) (s : Session α) : Prop where
  /-- The temporary file and the target are apart. -/
  apart : s.fs.OpensApart (tmpPath kind.path) kind.path
  /-- What was committed last can be read. -/
  loads : ∃ x, kind.load s.fs = some x ∧ same x last
  /-- What is in memory is good, and was committed if saving is done. -/
  remembers : s.Remembers kind Good umask last

/-- **A step keeps it.** -/
theorem Durable.step (hlaw : kind.Lawful Good same) (hchange : ∀ o x, Good x → Good (change o x))
    {last : α} (hs : s.Durable kind Good same umask last)
    (h : s.step kind change umask e = some s') :
    s'.Durable kind Good same umask ((commits ⟨s, e, s'⟩).getD last) := by
  obtain ⟨hapart, hloads, hremembers⟩ := hs
  cases e with
  | crash =>
    have hs' : s' = .down s.fs := by
      cases s <;> exact (Option.some.inj h).symm
    have hcommits : commits (⟨s, .crash, s'⟩ : Step (Session α) (Event ω)) = none := by
      cases s <;> rfl
    rw [hcommits, hs']
    exact ⟨hapart, hloads, trivial⟩
  | start =>
    cases s with
    | down fs =>
      rw [Session.step] at h
      cases hload : kind.load fs with
      | some x =>
        rw [hload] at h
        obtain rfl := Option.some.inj h
        exact ⟨hapart, hloads, hlaw.good_of_load fs x hload⟩
      | none =>
        rw [hload] at h
        obtain rfl := Option.some.inj h
        exact ⟨hapart, hloads, trivial⟩
    | up fs x => cases h
    | saving x task st => cases h
  | change o =>
    cases s with
    | up fs x =>
      obtain rfl := Option.some.inj h
      exact ⟨hapart, hloads, hchange o x hremembers⟩
    | down fs => cases h
    | saving x task st => cases h
  | save =>
    cases s with
    | up fs x =>
      rw [Session.step] at h
      cases hsave : kind.save x with
      | some task =>
        rw [hsave] at h
        obtain rfl := Option.some.inj h
        refine ⟨hapart, hloads, hremembers, hsave, nofun, fs, ?_, SaveReaches.start⟩
        rw [hlaw.path_of_save x task hremembers hsave]
        exact hapart
      | none =>
        rw [hsave] at h
        obtain rfl := Option.some.inj h
        exact ⟨hapart, hloads, hremembers⟩
    | down fs => cases h
    | saving x task st => cases h
  | act action =>
    cases s with
    | saving x task st =>
      obtain ⟨st', hstep, rfl⟩ := Option.map_eq_some_iff.mp h
      obtain ⟨hgood, hsave, -, fs, hapart', hst⟩ := hremembers
      have hpath := hlaw.path_of_save x task hgood hsave
      have hnow : st.fs.OpensApart (tmpPath task.path) task.path := by
        rw [hpath]
        exact hapart
      obtain ⟨hfound, hstill⟩ := hst.unchanged_or_done hapart' hnow hstep
      have hst' := hst.step hstep
      refine ⟨?_, ?_, hgood, hsave, fun hdone => ?_, fs, hapart', hst'⟩
      · rw [hpath] at hstill
        exact hstill
      · by_cases hrename : action = .rename
        · -- what is saved is there now, and is what is committed
          subst hrename
          have hread := read_of_done hapart' hst' ((done_saveStep_iff hstep).mpr rfl)
          rw [hpath] at hread
          exact hlaw.load_of_save x task _ hgood hsave hread
        · have hsame : st.fs.Unchanged st'.fs kind.path := by
            rw [← hpath]
            exact hfound.resolve_right fun hdone => hrename ((done_saveStep_iff hstep).mp hdone)
          have hcommits : commits (⟨.saving x task st, .act action, .saving x task st'⟩ :
              Step (Session α) (Event ω)) = none := by
            cases action <;> first | rfl | exact absurd rfl hrename
          rw [hcommits]
          obtain ⟨y, hy, hlast⟩ := hloads
          exact ⟨y, (hlaw.load_congr _ _ hsame).trans hy, hlast⟩
      · obtain rfl := (done_saveStep_iff hstep).mp hdone
        rfl
    | down fs => cases h
    | up fs x => cases h
  | returned =>
    cases s with
    | saving x task st =>
      rw [Session.step] at h
      split at h
      · obtain rfl := Option.some.inj h
        exact ⟨hapart, hloads, hremembers.1⟩
      · cases h
    | down fs => cases h
    | up fs x => cases h

theorem durable_of_run (hlaw : kind.Lawful Good same)
    (hchange : ∀ o x, Good x → Good (change o x)) (hsame : ∀ x, same x x)
    (hapart : fs₀.OpensApart (tmpPath kind.path) kind.path) (hload : kind.load fs₀ = some x₀)
    (hrun : Run kind change umask fs₀ tr s) :
    s.Durable kind Good same umask (committed x₀ tr) := by
  refine hrun.invariant (I := fun tr s => s.Durable kind Good same umask (committed x₀ tr))
    ⟨hapart, ⟨x₀, hload, hsame x₀⟩, trivial⟩ ?_
  intro tr s e s' _ ih hstep
  rw [committed_snoc]
  exact ih.step hlaw hchange hstep

/-- **What is read is what was committed last**, whatever happened; and what is saved has been
committed when saving is done. -/
theorem load_of_run (hlaw : kind.Lawful Good same)
    (hchange : ∀ o x, Good x → Good (change o x)) (hsame : ∀ x, same x x)
    (hapart : fs₀.OpensApart (tmpPath kind.path) kind.path) (hload : kind.load fs₀ = some x₀)
    (hrun : Run kind change umask fs₀ tr s) :
    (∃ x, kind.load s.fs = some x ∧ same x (committed x₀ tr)) ∧
      ∀ x task st, s = .saving x task st → st.progress = .done → committed x₀ tr = x := by
  obtain ⟨-, hloads, hremembers⟩ := durable_of_run hlaw hchange hsame hapart hload hrun
  refine ⟨hloads, ?_⟩
  rintro x task st rfl hdone
  exact hremembers.2.2.1 hdone

end Session

/-! ### The configuration -/

/-- Why a configuration is not read. -/
inductive ConfigLoadError where
  /-- The permissions of the file cannot be read; the code makes a permission error of it. -/
  | metadata
  /-- Others than the owner may do something with the file. -/
  | permission (message : Text)
  /-- The file cannot be read. -/
  | io
  /-- It is not the TOML text of a configuration. -/
  | parse
  /-- What is in it does not pass its checks. -/
  | config (e : ConfigError)
  deriving DecidableEq

/-- Turn a file away that others than its owner may do something with. -/
def ensureOwnerOnly (path : Text) (mode : FileMode) : Except ConfigLoadError Unit :=
  let mode := mode &&& 0o777
  if mode &&& FileMode.others ≠ 0 then
    .error (.permission ("config file ".toList ++ path ++ " has unsafe permissions ".toList ++
      Nat.toDigits 8 mode.toNat ++ "; expected owner-only (0600)".toList))
  else .ok ()

section ConfigFile

variable {ρ : Type}

/-- Read a configuration. What is not modelled of it is the `ρ` of `Config × ρ`. -/
def load (fromStr : Text → Option (Config × ρ)) (quoted : Text → Text)
    (fs : FileSystem Text UInt8) (path : Text) : Except ConfigLoadError (Config × ρ) :=
  match (fs.lead path).bind fs.entry with
  | none => .error .metadata
  | some (.file i) => do
    ensureOwnerOnly path (fs.inode i).mode
    match Text.ofUtf8 (fs.inode i).content with
    | none => .error .io
    | some s =>
      match fromStr s with
      | none => .error .parse
      | some cfg =>
        match validate quoted cfg.1 with
        | .error e => .error (.config e)
        | .ok () => .ok cfg
  | some _ => .error .io

/-- The file of the configuration. -/
def configFile (toStringPretty : Config × ρ → Option Text) (fromStr : Text → Option (Config × ρ))
    (quoted : Text → Text) (path : Text) : FileKind (Config × ρ) where
  path := path
  load fs := (load fromStr quoted fs path).toOption
  save cfg := (save (fun c => toStringPretty (c, cfg.2)) quoted path cfg.1).toOption

variable {toStringPretty : Config × ρ → Option Text} {fromStr : Text → Option (Config × ρ)}
  {quoted : Text → Text} {path : Text} {fs fs' : FileSystem Text UInt8} {cfg : Config × ρ}

theorem load_congr (h : fs.Unchanged fs' path) :
    load fromStr quoted fs' path = load fromStr quoted fs path := by
  rw [load, load, h.entry]
  cases hentry : (fs.lead path).bind fs.entry with
  | none => rfl
  | some entry =>
    cases entry with
    | file i =>
      have hfile : fs.fileAt path = some i := by rw [FileSystem.fileAt, hentry]
      dsimp only
      rw [h.inode i hfile]
    | link q => rfl
    | directory => rfl

/-- A file of the owner's own is read that has the text of a configuration that passes its
checks. -/
theorem load_of_read {s : Text} (hread : fs.read path = some ⟨FileMode.ownerOnly, s.utf8Bytes⟩)
    (hcfg : fromStr s = some cfg) (hvalid : cfg.1.Valid) :
    load fromStr quoted fs path = .ok cfg := by
  obtain ⟨i, hi, hinode⟩ := Option.map_eq_some_iff.mp hread
  obtain ⟨d, hlead, hentry⟩ := FileSystem.fileAt_eq_some_iff.mp hi
  have hfound : (fs.lead path).bind fs.entry = some (.file i) := by
    rw [hlead, Option.bind_some, hentry]
  have hmode : ensureOwnerOnly path FileMode.ownerOnly = .ok () := rfl
  have hchecked : validate quoted cfg.1 = .ok () := validate_eq_ok_iff.mpr hvalid
  rw [load, hfound]
  dsimp only
  rw [hinode, hmode, Text.ofUtf8_utf8Bytes]
  dsimp only [bind, Except.bind]
  rw [hcfg]
  dsimp only
  rw [hchecked]

/-- What is read passes its checks. -/
theorem valid_of_load (h : load fromStr quoted fs path = .ok cfg) : cfg.1.Valid := by
  rw [load] at h
  split at h
  · cases h
  · rename_i i _
    dsimp only [bind, Except.bind] at h
    split at h
    · cases h
    · split at h
      · cases h
      · split at h
        · cases h
        · split at h
          · cases h
          · rename_i hchecked
            obtain rfl := Except.ok.inj h
            exact validate_eq_ok_iff.mp hchecked
  · cases h

/-- The configuration is read back as it was saved. -/
theorem lawful_configFile
    (hround : ∀ cfg s, toStringPretty cfg = some s → fromStr s = some cfg) :
    (configFile toStringPretty fromStr quoted path).Lawful (fun _ => True) Eq where
  good_of_load _ _ _ := trivial
  load_congr fs fs' h := congrArg Except.toOption (load_congr h)
  path_of_save cfg task _ h := by
    obtain ⟨-, s, -, rfl⟩ := save_eq_ok (toOption_eq_some_iff.mp h)
    rfl
  load_of_save cfg task fs _ h hread := by
    obtain ⟨hvalid, s, hs, rfl⟩ := save_eq_ok (toOption_eq_some_iff.mp h)
    exact ⟨cfg, toOption_eq_some_iff.mpr (load_of_read hread (hround cfg s hs) hvalid), rfl⟩

variable {umask : FileMode} {fs₀ : FileSystem Text UInt8} {cfg₀ : Config × ρ}
  {tr : List (Step (Session (Config × ρ)) (Session.Event (Config × ρ)))}
  {s : Session (Config × ρ)}

/-- **A configuration survives**: whenever the program stops, also while it saves, and however
often it is started again, the configuration that is read is the one that was saved last, whole
and with its checks passed; one whose saving is done is read from then on. -/
theorem config_survives
    (hround : ∀ cfg s, toStringPretty cfg = some s → fromStr s = some cfg)
    (hapart : fs₀.OpensApart (tmpPath path) path)
    (hload : load fromStr quoted fs₀ path = .ok cfg₀)
    (hrun : Session.Run (configFile toStringPretty fromStr quoted path) (fun c _ => c) umask fs₀
      tr s) :
    load fromStr quoted s.fs path = .ok (Session.committed cfg₀ tr) ∧
      (Session.committed cfg₀ tr).1.Valid ∧
      ∀ cfg task st, s = .saving cfg task st → st.progress = .done →
        Session.committed cfg₀ tr = cfg := by
  obtain ⟨⟨cfg, hcfg, rfl⟩, hdone⟩ := Session.load_of_run (lawful_configFile hround)
    (fun _ _ _ => trivial) (fun _ => rfl) hapart (toOption_eq_some_iff.mpr hload) hrun
  have hloaded := toOption_eq_some_iff.mp hcfg
  exact ⟨hloaded, valid_of_load hloaded, hdone⟩

end ConfigFile

/-- A configuration where the memory of the graphics card is halved. -/
def exampleConfig : Config × Unit := ({ gpu := ⟨256⟩ }, ())

/-- The texts of the configuration where nothing is said, and of the other one. -/
def exampleText (memory : Bool) : Text :=
  "version = 1\n".toList ++ if memory then "\n[gpu]\nmemory_cap_mib = 256\n".toList else []

/-- The TOML library, as far as it reads these files. -/
def exampleFromStr (s : Text) : Option (Config × Unit) :=
  if s = exampleText true then some exampleConfig
  else if s = exampleText false then some ({}, ()) else none

/-- As far as it writes them. -/
def exampleToString (cfg : Config × Unit) : Option Text :=
  if cfg = exampleConfig then some (exampleText true) else none

/-- The configuration where nothing is said is in a file of the owner's own. -/
def exampleFiles : FileSystem Text UInt8 where
  entry p := if p = ['c'] then some (.file 0) else none
  inode _ := ⟨FileMode.ownerOnly, (exampleText false).utf8Bytes⟩
  refused _ := false
  next := 1
  fresh p i h := by
    split at h
    · cases h
      exact Nat.one_pos
    · cases h

/-- The program stops while it saves a configuration, is started again, saves it, and stops
before it knows. -/
def exampleEvents : List (Session.Event (Config × Unit)) :=
  [.start, .change exampleConfig, .save, .act .openTmp, .act (.write 20), .crash, .start,
    .change exampleConfig, .save, .act .openTmp, .act (.write (exampleText true).utf8Len),
    .act .lock, .act .rename, .crash]

/-- The configuration is there when the program is started once more. -/
theorem config_survives_example : ∃ tr s,
    Session.Run (configFile exampleToString exampleFromStr id ['c']) (fun c _ => c) 0o022
      exampleFiles tr s ∧ tr.map Step.input = exampleEvents ∧
      load exampleFromStr id s.fs ['c'] = .ok exampleConfig := by
  have hexec : (Transition.exec (Session.step (configFile exampleToString exampleFromStr id ['c'])
      (fun c _ => c) 0o022) (.down exampleFiles) exampleEvents).any
      (fun p => decide (Session.committed ({}, ()) p.1 = exampleConfig)) = true := by
    decide +kernel
  obtain ⟨tr, s, hrun, hinputs, hlast⟩ := Transition.exists_run_where hexec
  have hround : ∀ cfg s, exampleToString cfg = some s → exampleFromStr s = some cfg := by
    intro cfg s h
    rw [exampleToString] at h
    split at h
    · rename_i hcfg
      rw [← Option.some.inj h, hcfg]
      rfl
    · cases h
  have hapart : exampleFiles.OpensApart (tmpPath ['c']) ['c'] := by
    refine .of_free rfl fun hlead => ?_
    have htarget : exampleFiles.lead ['c'] = some ['c'] := rfl
    exact absurd (Option.some.inj (hlead.symm.trans htarget)) (by decide)
  have hload : load exampleFromStr id exampleFiles ['c'] = .ok ({}, ()) := rfl
  refine ⟨tr, s, hrun, hinputs, ?_⟩
  rw [← of_decide_eq_true hlast]
  exact (config_survives hround hapart hload hrun).1

end Config

end DevBrowse
