import DevBrowse.Config.Loader
import DevBrowse.Lib.FileSystem
import DevBrowse.Lib.Transition

/-!
# Saving a file

What is saved is written to a temporary file next to the target, whose permissions are then
locked to its owner; last the temporary file is renamed to the target. The configuration and
the registry of profiles are both saved so.

Each step may fail, and the process may stop between any two of them, also in the middle of
what is written; both leave a state that a run of the steps leads to.

Two things are expected of all these states: nobody but the owner can read what is new
(`SaveState.Secret`), and the target has its old content or the new one
(`SaveState.Whole`). `secret_iff` and `whole_iff` say where they are true. The permissions are
locked after the content is written, so that the first takes a temporary file that was closed
to others when it was opened.
-/

namespace DevBrowse

namespace Config

/-- The temporary file of a target. -/
def tmpPath (path : Text) : Text := path ++ ".tmp".toList

/-- What is to be saved, and where. -/
structure SaveTask where
  /-- The target. -/
  path : Text
  /-- The new content. -/
  bytes : List UInt8
  deriving DecidableEq

/-- How far saving is. -/
inductive SaveProgress where
  /-- Nothing was done yet. -/
  | start
  /-- The temporary file is open, and this is still to be written to it. -/
  | writing (rest : List UInt8)
  /-- The permissions of the temporary file are locked. -/
  | locked
  /-- It was renamed to the target. -/
  | done
  /-- A step failed. -/
  | stopped
  deriving DecidableEq

/-- A file system while a file is saved. -/
structure SaveState where
  /-- The file system. -/
  fs : FileSystem Text UInt8
  /-- How far saving is. -/
  progress : SaveProgress
  /-- The file that was opened. -/
  opened : Option ℕ := none
  /-- What was written to it. -/
  written : List UInt8 := []

/-- What is done next. -/
inductive SaveAction where
  /-- Open the temporary file. -/
  | openTmp
  /-- Write some more bytes. -/
  | write (count : ℕ)
  /-- Lock the permissions of the temporary file. -/
  | lock
  /-- Rename it to the target. -/
  | rename
  /-- The next step fails. -/
  | fail
  deriving DecidableEq

/-- One step. -/
def saveStep (umask : FileMode) (task : SaveTask) (st : SaveState) :
    SaveAction → Option SaveState
  | .openTmp =>
    match st.progress with
    | .start => (st.fs.openTruncate umask (tmpPath task.path)).map fun (i, fs) =>
        ⟨fs, .writing task.bytes, some i, []⟩
    | _ => none
  | .write count =>
    match st.progress, st.opened with
    | .writing rest, some i =>
      if 0 < count ∧ count ≤ rest.length then
        some ⟨st.fs.append i (rest.take count), .writing (rest.drop count), some i,
          st.written ++ rest.take count⟩
      else none
    | _, _ => none
  | .lock =>
    match st.progress with
    | .writing [] => (st.fs.chmod (tmpPath task.path) FileMode.ownerOnly).map fun fs =>
        { st with fs := fs, progress := .locked }
    | _ => none
  | .rename =>
    match st.progress with
    | .locked => (st.fs.rename (tmpPath task.path) task.path).map fun fs =>
        { st with fs := fs, progress := .done }
    | _ => none
  | .fail =>
    match st.progress with
    | .done | .stopped => none
    | _ => some { st with progress := .stopped }

/-- **The states that saving leads through**, also where it stops. -/
def SaveReaches (umask : FileMode) (task : SaveTask) (fs : FileSystem Text UInt8)
    (st : SaveState) : Prop :=
  ∃ tr, Transition.Run (Transition.ofFun (saveStep umask task)) ⟨fs, .start, none, []⟩ tr st

/-- **No file with any of the new content can be read by the group or others.** -/
def SaveState.Secret (st : SaveState) : Prop :=
  ∀ i, st.opened = some i → st.written ≠ [] → ¬ (st.fs.inode i).mode.Exposed

/-- **The target has its old content or the new one.** -/
def SaveState.Whole (fs : FileSystem Text UInt8) (task : SaveTask) (st : SaveState) : Prop :=
  st.fs.contents task.path = fs.contents task.path ∨
    st.fs.contents task.path = some task.bytes

variable {umask : FileMode} {task : SaveTask} {fs : FileSystem Text UInt8}
  {st st' : SaveState} {action : SaveAction}

/-! ### What one step does -/

/-- **What one step does.** -/
theorem saveStep_cases (h : saveStep umask task st action = some st') :
    (∃ i fs', st.progress = .start ∧
        st.fs.openTruncate umask (tmpPath task.path) = some (i, fs') ∧
        st' = ⟨fs', .writing task.bytes, some i, []⟩) ∨
      (∃ rest i count, st.progress = .writing rest ∧ st.opened = some i ∧ 0 < count ∧
        count ≤ rest.length ∧
        st' = ⟨st.fs.append i (rest.take count), .writing (rest.drop count), some i,
          st.written ++ rest.take count⟩) ∨
      (∃ i, st.progress = .writing [] ∧ st.fs.fileAt (tmpPath task.path) = some i ∧
        st' = { st with
          fs := st.fs.setInode i ⟨FileMode.ownerOnly, (st.fs.inode i).content⟩
          progress := .locked }) ∨
      (∃ fs', st.progress = .locked ∧
        st.fs.rename (tmpPath task.path) task.path = some fs' ∧
        st' = { st with fs := fs', progress := .done }) ∨
      st' = { st with progress := .stopped } := by
  cases action with
  | openTmp =>
    rw [saveStep] at h
    split at h
    · rename_i hprogress
      obtain ⟨⟨i, fs'⟩, hopen, rfl⟩ := Option.map_eq_some_iff.mp h
      exact .inl ⟨i, fs', hprogress, hopen, rfl⟩
    · cases h
  | write count =>
    rw [saveStep] at h
    split at h
    · rename_i rest i hprogress hopened
      split at h
      · rename_i hcount
        exact .inr (.inl ⟨rest, i, count, hprogress, hopened, hcount.1, hcount.2,
          (Option.some.inj h).symm⟩)
      · cases h
    · cases h
  | lock =>
    rw [saveStep] at h
    split at h
    · rename_i hprogress
      obtain ⟨fs', hchmod, rfl⟩ := Option.map_eq_some_iff.mp h
      obtain ⟨i, hfile, rfl⟩ := FileSystem.chmod_eq_some_iff.mp hchmod
      exact .inr (.inr (.inl ⟨i, hprogress, hfile, rfl⟩))
    · cases h
  | rename =>
    rw [saveStep] at h
    split at h
    · rename_i hprogress
      obtain ⟨fs', hrename, rfl⟩ := Option.map_eq_some_iff.mp h
      exact .inr (.inr (.inr (.inl ⟨fs', hprogress, hrename, rfl⟩)))
    · cases h
  | fail =>
    rw [saveStep] at h
    split at h
    · cases h
    · cases h
    · exact .inr (.inr (.inr (.inr (Option.some.inj h).symm)))

/-- A step leads on. -/
theorem SaveReaches.step (h : SaveReaches umask task fs st)
    (hstep : saveStep umask task st action = some st') : SaveReaches umask task fs st' := by
  obtain ⟨tr, hrun⟩ := h
  exact ⟨_, hrun.snoc hstep⟩

/-- What holds at the start and is kept by every step holds in every state. -/
theorem SaveReaches.invariant {I : SaveState → Prop} (h : SaveReaches umask task fs st)
    (init : I ⟨fs, .start, none, []⟩)
    (step : ∀ st action st', I st → saveStep umask task st action = some st' → I st') :
    I st := by
  obtain ⟨tr, hrun⟩ := h
  exact hrun.invariant (I := fun _ => I) init fun _ _ _ _ _ hi hs => step _ _ _ hi hs

/-- The state before anything was done. -/
theorem SaveReaches.start : SaveReaches umask task fs ⟨fs, .start, none, []⟩ :=
  ⟨[], Transition.Run.nil⟩

theorem SaveReaches.opened {i : ℕ} {fs' : FileSystem Text UInt8}
    (h : fs.openTruncate umask (tmpPath task.path) = some (i, fs')) :
    SaveReaches umask task fs ⟨fs', .writing task.bytes, some i, []⟩ := by
  have hstep : saveStep umask task ⟨fs, .start, none, []⟩ .openTmp =
      some ⟨fs', .writing task.bytes, some i, []⟩ := by
    change (fs.openTruncate umask (tmpPath task.path)).map _ = _
    rw [h]
    rfl
  exact SaveReaches.start.step hstep

/-- The first byte of several was written, and the others not. -/
theorem SaveReaches.first {i : ℕ} {fs' : FileSystem Text UInt8} {b : UInt8}
    {rest : List UInt8} (hbytes : task.bytes = b :: rest)
    (h : fs.openTruncate umask (tmpPath task.path) = some (i, fs')) :
    SaveReaches umask task fs ⟨fs'.append i [b], .writing rest, some i, [b]⟩ := by
  have hopened := SaveReaches.opened h
  rw [hbytes] at hopened
  have hstep : saveStep umask task ⟨fs', .writing (b :: rest), some i, []⟩ (.write 1) =
      some ⟨fs'.append i [b], .writing rest, some i, [b]⟩ := by
    simp [saveStep]
  exact hopened.step hstep

/-! ### Who can read what is new -/

/-- A step keeps what was opened closed to others. -/
theorem closed_saveStep (hclosed : fs.OpensClosed umask (tmpPath task.path))
    (hfs : st.progress = .start → st.fs = fs)
    (hst : ∀ i, st.opened = some i → ¬ (st.fs.inode i).mode.Exposed)
    (h : saveStep umask task st action = some st') :
    ∀ i, st'.opened = some i → ¬ (st'.fs.inode i).mode.Exposed := by
  intro i hi
  rcases saveStep_cases h with ⟨k, fs', hstart, hopen, rfl⟩ |
    ⟨rest, k, count, -, hk, -, -, rfl⟩ | ⟨k, -, -, rfl⟩ | ⟨fs', -, hrename, rfl⟩ | rfl
  · obtain rfl := Option.some.inj hi
    rw [hfs hstart] at hopen
    exact FileSystem.opensClosed_iff.mp hclosed _ _ hopen
  · obtain rfl := Option.some.inj hi
    rw [FileSystem.append, FileSystem.inode_setInode_self]
    exact hst _ hk
  · by_cases hik : i = k
    · subst hik
      rw [FileSystem.inode_setInode_self]
      exact FileMode.not_exposed_ownerOnly
    · rw [FileSystem.inode_setInode_of_ne _ _ hik]
      exact hst i hi
  · rw [FileSystem.inode_of_rename hrename]
    exact hst i hi
  · exact hst i hi

/-- Before anything was done the file system is as it was. -/
theorem SaveReaches.fs_of_start (h : SaveReaches umask task fs st)
    (hstart : st.progress = .start) : st.fs = fs := by
  refine h.invariant (I := fun st => st.progress = .start → st.fs = fs) (fun _ => rfl) ?_ hstart
  intro st action st' _ hstep hstart'
  rcases saveStep_cases hstep with ⟨_, _, _, _, rfl⟩ | ⟨_, _, _, _, _, _, _, rfl⟩ |
    ⟨_, _, _, rfl⟩ | ⟨_, _, _, rfl⟩ | rfl <;> cases hstart'

/-- **Where nobody but the owner can read what is new**: exactly where the temporary file is
closed to them when it is opened. -/
theorem secret_iff (hbytes : task.bytes ≠ []) :
    (∀ st, SaveReaches umask task fs st → st.Secret) ↔
      fs.OpensClosed umask (tmpPath task.path) := by
  constructor
  · intro hall
    refine FileSystem.opensClosed_iff.mpr fun i fs' hopen => ?_
    obtain ⟨b, rest, hb⟩ := List.exists_cons_of_ne_nil hbytes
    have hsecret := hall _ (SaveReaches.first hb hopen) i rfl (List.cons_ne_nil b [])
    rwa [FileSystem.append, FileSystem.inode_setInode_self] at hsecret
  · intro hclosed st hst
    suffices hopened : (st.progress = .start → st.fs = fs) ∧
        ∀ i, st.opened = some i → ¬ (st.fs.inode i).mode.Exposed from
      fun i hi _ => hopened.2 i hi
    refine ⟨hst.fs_of_start, ?_⟩
    obtain ⟨tr, hrun⟩ := hst
    induction hrun with
    | nil => exact nofun
    | snoc hrun hstep ih =>
      exact closed_saveStep hclosed (SaveReaches.fs_of_start ⟨_, hrun⟩) ih hstep

/-! ### What the target has -/

/-- **While a file is saved**: the temporary path leads to what was opened, the target does
not and has its old content. -/
structure AtWork (fs : FileSystem Text UInt8) (task : SaveTask) (st : SaveState) (i : ℕ)
    (rest : List UInt8) : Prop where
  /-- What was opened. -/
  opened : st.opened = some i
  /-- The temporary path leads to it. -/
  tmp : st.fs.fileAt (tmpPath task.path) = some i
  /-- The target does not. -/
  apart : st.fs.fileAt task.path ≠ some i
  /-- The target has its old content. -/
  old : st.fs.contents task.path = fs.contents task.path
  /-- What was written is what it has. -/
  content : (st.fs.inode i).content = st.written
  /-- What was written, and what is still to be. -/
  rest : st.written ++ rest = task.bytes

/-- What is true of a state, by how far saving is. -/
def SaveState.Saving (fs : FileSystem Text UInt8) (task : SaveTask) (st : SaveState) : Prop :=
  match st.progress with
  | .start => st.fs = fs
  | .writing rest => ∃ i, AtWork fs task st i rest
  | .locked => ∃ i, AtWork fs task st i [] ∧ (st.fs.inode i).mode = FileMode.ownerOnly
  | .done => st.fs.read task.path = some ⟨FileMode.ownerOnly, task.bytes⟩
  | .stopped => st.Whole fs task

/-- Before the temporary file is renamed the target has its old content. -/
theorem SaveState.Saving.whole (h : st.Saving fs task) : st.Whole fs task := by
  rw [SaveState.Saving] at h
  split at h
  · exact .inl (by rw [h])
  · obtain ⟨i, hi⟩ := h
    exact .inl hi.old
  · obtain ⟨i, hi, -⟩ := h
    exact .inl hi.old
  · refine .inr ?_
    rw [FileSystem.contents, h]
    rfl
  · exact h

/-- **A step keeps it.** -/
theorem saving_saveStep (hapart : fs.OpensApart (tmpPath task.path) task.path)
    (hst : st.Saving fs task) (h : saveStep umask task st action = some st') :
    st'.Saving fs task := by
  rcases saveStep_cases h with ⟨i, fs', hstart, hopen, rfl⟩ |
    ⟨rest, i, count, hprogress, hi, -, -, rfl⟩ | ⟨i, hprogress, hi, rfl⟩ |
    ⟨fs', hprogress, hrename, rfl⟩ | rfl
  · rw [SaveState.Saving, hstart] at hst
    rw [hst] at hopen
    have hne : fs'.fileAt task.path ≠ some i :=
      (FileSystem.opensApart_iff umask).mp hapart i fs' hopen
    exact ⟨i, rfl, FileSystem.fileAt_of_open hopen, hne,
      FileSystem.contents_of_open hopen hne, FileSystem.content_of_open hopen, rfl⟩
  · rw [SaveState.Saving, hprogress] at hst
    obtain ⟨k, hk⟩ := hst
    obtain rfl : i = k := Option.some.inj (hi.symm.trans hk.opened)
    refine ⟨i, rfl, ?_, ?_, ?_, ?_, ?_⟩
    · exact (FileSystem.fileAt_setInode _ _ _ _).trans hk.tmp
    · exact fun hfile => hk.apart ((FileSystem.fileAt_setInode _ _ _ _).symm.trans hfile)
    · exact (FileSystem.contents_setInode_of_ne _ hk.apart).trans hk.old
    · rw [FileSystem.append, FileSystem.inode_setInode_self, hk.content]
    · rw [List.append_assoc, List.take_append_drop, hk.rest]
  · rw [SaveState.Saving, hprogress] at hst
    obtain ⟨k, hk⟩ := hst
    obtain rfl : i = k := Option.some.inj (hi.symm.trans hk.tmp)
    refine ⟨i, ⟨hk.opened, ?_, ?_, ?_, ?_, hk.rest⟩, ?_⟩
    · exact (FileSystem.fileAt_setInode _ _ _ _).trans hk.tmp
    · exact fun hfile => hk.apart ((FileSystem.fileAt_setInode _ _ _ _).symm.trans hfile)
    · exact (FileSystem.contents_setInode_of_ne _ hk.apart).trans hk.old
    · rw [FileSystem.inode_setInode_self, hk.content]
    · rw [FileSystem.inode_setInode_self]
  · rw [SaveState.Saving, hprogress] at hst
    obtain ⟨i, hi, hmode⟩ := hst
    have hfile : fs'.fileAt task.path = some i :=
      FileSystem.fileAt_of_rename hrename hi.tmp hi.apart
    have hinode : fs'.inode i = ⟨FileMode.ownerOnly, task.bytes⟩ := by
      have hbytes : st.written = task.bytes := by simpa using hi.rest
      rw [FileSystem.inode_of_rename hrename, ← hmode, ← hbytes, ← hi.content]
    change fs'.read task.path = _
    rw [FileSystem.read, hfile, Option.map_some, hinode]
  · exact hst.whole

/-- **Where the target has its old content or the new one**: exactly where what is opened for
the temporary file is not what the target leads to. -/
theorem whole_iff (hbytes : 2 ≤ task.bytes.length) :
    (∀ st, SaveReaches umask task fs st → st.Whole fs task) ↔
      fs.OpensApart (tmpPath task.path) task.path := by
  constructor
  · intro hall
    refine (FileSystem.opensApart_iff umask).mpr fun i fs' hopen hfile => ?_
    obtain ⟨b, rest, hb⟩ : ∃ b rest, task.bytes = b :: rest :=
      List.exists_cons_of_ne_nil (List.ne_nil_of_length_pos (by omega))
    have hrest : rest ≠ [] := by
      rintro rfl
      rw [hb] at hbytes
      exact absurd hbytes (by simp)
    -- the target is empty once the temporary file is open, and has one byte of the new content
    -- after the first was written
    have hempty : fs'.contents task.path = some [] :=
      FileSystem.contents_eq_some_iff.mpr ⟨i, hfile, FileSystem.content_of_open hopen⟩
    have hone : (fs'.append i [b]).contents task.path = some [b] := by
      refine FileSystem.contents_eq_some_iff.mpr ⟨i, ?_, ?_⟩
      · rw [FileSystem.append, FileSystem.fileAt_setInode, hfile]
      · rw [FileSystem.append, FileSystem.inode_setInode_self, FileSystem.content_of_open hopen]
        rfl
    have hfirst := hall _ (SaveReaches.opened hopen)
    have hsecond := hall _ (SaveReaches.first hb hopen)
    rw [SaveState.Whole] at hfirst hsecond
    rw [hempty, hb] at hfirst
    rw [hone, hb] at hsecond
    rcases hfirst with hfirst | hfirst
    · rw [← hfirst] at hsecond
      rcases hsecond with hsecond | hsecond
      · cases hsecond
      · exact hrest (List.cons.inj (Option.some.inj hsecond)).2.symm
    · cases hfirst
  · intro hapart st hst
    exact SaveState.Saving.whole (hst.invariant (I := fun st => st.Saving fs task) rfl
      fun _ _ _ hi hstep => saving_saveStep hapart hi hstep)

/-- **What is at the target when saving is done**: the new content, in a file of the owner's
own. -/
theorem read_of_done (hapart : fs.OpensApart (tmpPath task.path) task.path)
    (hst : SaveReaches umask task fs st) (hdone : st.progress = .done) :
    st.fs.read task.path = some ⟨FileMode.ownerOnly, task.bytes⟩ := by
  have hsaving : st.Saving fs task := hst.invariant (I := fun st => st.Saving fs task) rfl
    fun _ _ _ hi hstep => saving_saveStep hapart hi hstep
  rwa [SaveState.Saving, hdone] at hsaving

/-- **Where both are true of every state**: the temporary file is closed to others when it
is opened, and not what the target leads to. -/
theorem secret_and_whole_iff (hbytes : 2 ≤ task.bytes.length) :
    (∀ st, SaveReaches umask task fs st → st.Secret ∧ st.Whole fs task) ↔
      fs.OpensClosed umask (tmpPath task.path) ∧
        fs.OpensApart (tmpPath task.path) task.path := by
  have hne : task.bytes ≠ [] := List.ne_nil_of_length_pos (by omega)
  constructor
  · intro h
    exact ⟨(secret_iff hne).mp fun st hst => (h st hst).1,
      (whole_iff hbytes).mp fun st hst => (h st hst).2⟩
  · rintro ⟨hclosed, hapart⟩ st hst
    exact ⟨(secret_iff hne).mpr hclosed st hst, (whole_iff hbytes).mpr hapart st hst⟩

/-! ### The configuration -/

/-- Why a configuration is not saved, before anything is done for it. -/
inductive ConfigSaveError where
  /-- It does not pass its checks. -/
  | config (e : ConfigError)
  /-- It cannot be written as TOML. -/
  | serialize
  deriving DecidableEq

/-- What saving a configuration asks of the file system. -/
def save (toStringPretty : Config → Option Text) (quoted : Text → Text) (path : Text)
    (cfg : Config) : Except ConfigSaveError SaveTask :=
  match validate quoted cfg with
  | .error e => .error (.config e)
  | .ok () =>
    match toStringPretty cfg with
    | none => .error .serialize
    | some s => .ok ⟨path, s.utf8Bytes⟩

theorem save_eq_ok {toStringPretty : Config → Option Text} {quoted : Text → Text} {path : Text}
    {cfg : Config} (h : save toStringPretty quoted path cfg = .ok task) :
    cfg.Valid ∧ ∃ s, toStringPretty cfg = some s ∧ task = ⟨path, s.utf8Bytes⟩ := by
  rw [save] at h
  split at h
  · cases h
  · rename_i hvalid
    split at h
    · cases h
    · rename_i s hs
      exact ⟨validate_eq_ok_iff.mp hvalid, s, hs, (Except.ok.inj h).symm⟩

end Config

end DevBrowse
