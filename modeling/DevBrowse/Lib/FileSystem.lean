import Mathlib.Data.Nat.Find
import Mathlib.Data.List.Basic

/-!
# Files with permissions and links

A file system has entries, each the name of a file, a symbolic link or a directory, and the
files themselves, which several entries may name. A file has permission bits and content.
Opening, reading and changing the permissions follow symbolic links; renaming does not. Where a
file may be opened for writing, or made, is a matter of its permissions and those of the
directories, of its owner and of who asks; here it is said place by place.

Where a path leads depends on the links alone (`FileSystem.lead_congr`), so that writing and
creating files leads no path elsewhere. `FileSystem.lead_rename` says what renaming does to
the path that is renamed to: it leads where the other one led, if the way there does not pass
through it.
-/

/-- Permission bits. -/
abbrev FileMode := BitVec 12

namespace FileMode

/-- The bits with which the group or others may read. -/
def readByOthers : FileMode := 0o044

/-- The bits of everybody but the owner. -/
def others : FileMode := 0o077

/-- The owner may read and write, and nobody else may do anything. -/
def ownerOnly : FileMode := 0o600

/-- What a new file is asked to have. -/
def created : FileMode := 0o666

/-- Whether the group or others may read a file. -/
def Exposed (mode : FileMode) : Prop := mode &&& readByOthers ≠ 0

instance (mode : FileMode) : Decidable mode.Exposed :=
  inferInstanceAs (Decidable (_ ≠ _))

theorem not_exposed_ownerOnly : ¬ Exposed ownerOnly := by decide

end FileMode

/-- A file. -/
structure Inode (β : Type*) where
  /-- Its permission bits. -/
  mode : FileMode
  /-- Its content. -/
  content : List β
  deriving DecidableEq

/-- What a path names. -/
inductive FileEntry (P : Type*) where
  /-- A file. -/
  | file (i : ℕ)
  /-- A symbolic link to another path. -/
  | link (target : P)
  /-- A directory. -/
  | directory
  deriving DecidableEq

/-- **A file system**, with paths `P` and contents of `β`. Two ways of writing one place are
one path here. -/
structure FileSystem (P β : Type*) where
  /-- What a path names. -/
  entry : P → Option (FileEntry P)
  /-- The files. -/
  inode : ℕ → Inode β
  /-- Where no file may be opened for writing, nor made. -/
  refused : P → Bool
  /-- The number of the next new file. -/
  next : ℕ
  /-- It is no file's yet. -/
  fresh : ∀ p i, entry p = some (.file i) → i < next

namespace FileSystem

variable {P β : Type*} {fs fs' : FileSystem P β} {p q d : P} {i j n m : ℕ}

/-! ### Where a path leads -/

/-- The link a path names. -/
def linkAt (fs : FileSystem P β) (p : P) : Option P :=
  match fs.entry p with
  | some (.link q) => some q
  | _ => none

/-- The place that is reached from a path in less than `n` links. -/
def chase (fs : FileSystem P β) : ℕ → P → Option P
  | 0, _ => none
  | n + 1, p =>
    match fs.linkAt p with
    | some q => fs.chase n q
    | none => some p

/-- No more than forty links are followed. -/
def maxLinks : ℕ := 40

/-- Where a path leads. -/
def lead (fs : FileSystem P β) (p : P) : Option P := fs.chase (maxLinks + 1) p

/-- The file a path leads to. -/
def fileAt (fs : FileSystem P β) (p : P) : Option ℕ :=
  match (fs.lead p).bind fs.entry with
  | some (.file i) => some i
  | _ => none

/-- The file a path leads to, as it is. -/
def read (fs : FileSystem P β) (p : P) : Option (Inode β) := (fs.fileAt p).map fs.inode

/-- What is in the file a path leads to. -/
def contents (fs : FileSystem P β) (p : P) : Option (List β) :=
  (fs.read p).map Inode.content

theorem linkAt_of_entry_link (h : fs.entry p = some (.link q)) : fs.linkAt p = some q := by
  rw [linkAt, h]

theorem linkAt_eq_some_iff : fs.linkAt p = some q ↔ fs.entry p = some (.link q) := by
  constructor
  · intro h
    rw [linkAt] at h
    split at h
    · rename_i heq
      rw [heq, Option.some.inj h]
    · cases h
  · exact linkAt_of_entry_link

theorem linkAt_of_entry_file (h : fs.entry p = some (.file i)) : fs.linkAt p = none := by
  rw [linkAt, h]

theorem linkAt_of_entry_none (h : fs.entry p = none) : fs.linkAt p = none := by
  rw [linkAt, h]

theorem chase_of_link (h : fs.linkAt p = some q) : fs.chase (n + 1) p = fs.chase n q := by
  rw [chase, h]

theorem chase_of_linkAt_none (h : fs.linkAt p = none) : fs.chase (n + 1) p = some p := by
  rw [chase, h]

theorem lead_of_linkAt_none (h : fs.linkAt p = none) : fs.lead p = some p :=
  chase_of_linkAt_none h

/-- More links than it takes lead to the same place. -/
theorem chase_mono (hnm : n ≤ m) (h : fs.chase n p = some d) : fs.chase m p = some d := by
  induction n generalizing m p with
  | zero => cases h
  | succ n ih =>
    obtain ⟨m, rfl⟩ : ∃ m', m = m' + 1 := ⟨m - 1, by omega⟩
    cases hlink : fs.linkAt p with
    | none =>
      rw [chase_of_linkAt_none hlink] at h ⊢
      exact h
    | some q =>
      rw [chase_of_link hlink] at h ⊢
      exact ih (by omega) h

/-- **The way of a path in another file system** is the same if the links on it are. -/
theorem chase_congr (h : fs.chase n p = some d)
    (hlink : ∀ x, ∀ m ≤ n, fs.chase m x = some d → fs'.linkAt x = fs.linkAt x) :
    fs'.chase n p = some d := by
  induction n generalizing p with
  | zero => cases h
  | succ n ih =>
    have hp := hlink p (n + 1) le_rfl h
    cases hlinkp : fs.linkAt p with
    | none =>
      rw [chase_of_linkAt_none hlinkp] at h
      rw [chase_of_linkAt_none (hp.trans hlinkp), h]
    | some q =>
      rw [chase_of_link hlinkp] at h
      rw [chase_of_link (hp.trans hlinkp)]
      exact ih h fun x m hm => hlink x m (Nat.le_succ_of_le hm)

/-- **Where paths lead depends on the links alone.** -/
theorem lead_congr (h : ∀ x, fs'.linkAt x = fs.linkAt x) (p : P) : fs'.lead p = fs.lead p := by
  have hchase : ∀ n p, fs'.chase n p = fs.chase n p := by
    intro n
    induction n with
    | zero => exact fun p => rfl
    | succ n ih =>
      intro p
      rw [chase, chase, h p]
      cases fs.linkAt p with
      | none => rfl
      | some q => exact ih q
  exact hchase _ p

theorem fileAt_eq_some_iff :
    fs.fileAt p = some i ↔ ∃ d, fs.lead p = some d ∧ fs.entry d = some (.file i) := by
  rw [fileAt]
  constructor
  · intro h
    split at h
    · rename_i heq
      obtain rfl := Option.some.inj h
      exact Option.bind_eq_some_iff.mp heq
    · cases h
  · rintro ⟨d, hlead, hentry⟩
    rw [hlead, Option.bind_some, hentry]

theorem fileAt_lt_next (h : fs.fileAt p = some i) : i < fs.next := by
  obtain ⟨d, -, hentry⟩ := fileAt_eq_some_iff.mp h
  exact fs.fresh d i hentry

theorem contents_eq_some_iff {c : List β} :
    fs.contents p = some c ↔ ∃ i, fs.fileAt p = some i ∧ (fs.inode i).content = c := by
  simp [contents, read]

/-- What is found at a path is what was found, if it leads to the same file and the file is
as it was. -/
theorem contents_congr (hfile : fs'.fileAt p = fs.fileAt p)
    (hinode : ∀ j, fs.fileAt p = some j → fs'.inode j = fs.inode j) :
    fs'.contents p = fs.contents p := by
  rw [contents, contents, read, read, hfile]
  cases hp : fs.fileAt p with
  | none => rfl
  | some j => exact congrArg (fun x => some x.content) (hinode j hp)

theorem fileAt_of_lead (hlead : fs.lead p = some d) (h : fs.entry d = some (.file i)) :
    fs.fileAt p = some i :=
  fileAt_eq_some_iff.mpr ⟨d, hlead, h⟩

theorem fileAt_of_entry (h : fs.entry p = some (.file i)) : fs.fileAt p = some i :=
  fileAt_of_lead (lead_of_linkAt_none (linkAt_of_entry_file h)) h

/-! ### Changing a file -/

/-- A file put in the place of another. -/
def setInode (fs : FileSystem P β) (i : ℕ) (x : Inode β) : FileSystem P β where
  entry := fs.entry
  inode j := if j = i then x else fs.inode j
  refused := fs.refused
  next := fs.next
  fresh := fs.fresh

/-- Write behind the end of a file. -/
def append (fs : FileSystem P β) (i : ℕ) (bytes : List β) : FileSystem P β :=
  fs.setInode i ⟨(fs.inode i).mode, (fs.inode i).content ++ bytes⟩

/-- Change the permissions of the file a path leads to. -/
def chmod (fs : FileSystem P β) (p : P) (mode : FileMode) : Option (FileSystem P β) :=
  (fs.fileAt p).map fun i => fs.setInode i ⟨mode, (fs.inode i).content⟩

@[simp] theorem fileAt_setInode (fs : FileSystem P β) (i : ℕ) (x : Inode β) (p : P) :
    (fs.setInode i x).fileAt p = fs.fileAt p := by
  have hlead : (fs.setInode i x).lead p = fs.lead p := lead_congr (fun _ => rfl) p
  rw [fileAt, fileAt, hlead]
  rfl

@[simp] theorem inode_setInode_self (fs : FileSystem P β) (i : ℕ) (x : Inode β) :
    (fs.setInode i x).inode i = x := if_pos rfl

theorem inode_setInode_of_ne (fs : FileSystem P β) (x : Inode β) (h : j ≠ i) :
    (fs.setInode i x).inode j = fs.inode j := if_neg h

/-- What is found elsewhere is what was found. -/
theorem contents_setInode_of_ne (x : Inode β) (h : fs.fileAt p ≠ some i) :
    (fs.setInode i x).contents p = fs.contents p := by
  refine contents_congr (fileAt_setInode fs i x p) fun j hj => inode_setInode_of_ne fs x ?_
  rintro rfl
  exact h hj

theorem chmod_eq_some_iff {mode : FileMode} :
    fs.chmod p mode = some fs' ↔
      ∃ i, fs.fileAt p = some i ∧ fs' = fs.setInode i ⟨mode, (fs.inode i).content⟩ := by
  rw [chmod, Option.map_eq_some_iff]
  simp only [eq_comm]

/-! ### Opening -/

variable [DecidableEq P]

/-- A new file at a place that names nothing. -/
def create (fs : FileSystem P β) (umask : FileMode) (d : P) : FileSystem P β where
  entry x := if x = d then some (.file fs.next) else fs.entry x
  inode j := if j = fs.next then ⟨FileMode.created &&& ~~~umask, []⟩ else fs.inode j
  refused := fs.refused
  next := fs.next + 1
  fresh x i h := by
    split at h
    · cases h
      exact Nat.lt_succ_self _
    · exact Nat.lt_succ_of_lt (fs.fresh x i h)

/-- Open a file for writing, where that is not refused: it is emptied, or made where there is
none. -/
def openTruncate (fs : FileSystem P β) (umask : FileMode) (p : P) :
    Option (ℕ × FileSystem P β) :=
  match fs.lead p with
  | none => none
  | some d =>
    if fs.refused d then none
    else
      match fs.entry d with
      | some (.file i) => some (i, fs.setInode i ⟨(fs.inode i).mode, []⟩)
      | none => some (fs.next, fs.create umask d)
      | some _ => none

/-- What opening does. -/
theorem openTruncate_eq_some_iff {umask : FileMode} :
    fs.openTruncate umask p = some (i, fs') ↔
      ∃ d, fs.lead p = some d ∧ fs.refused d = false ∧
        (fs.entry d = some (.file i) ∧ fs' = fs.setInode i ⟨(fs.inode i).mode, []⟩ ∨
          fs.entry d = none ∧ i = fs.next ∧ fs' = fs.create umask d) := by
  rw [openTruncate]
  cases hlead : fs.lead p with
  | none => simp
  | some d =>
    simp only [Option.some.injEq, exists_eq_left']
    cases hrefused : fs.refused d with
    | true => simp
    | false =>
      simp only [Bool.false_eq_true, if_false, true_and]
      match hentry : fs.entry d with
      | none => simp [eq_comm]
      | some (.file k) =>
        simp only [Option.some.injEq, Prod.mk.injEq, FileEntry.file.injEq, reduceCtorEq,
          false_and, or_false]
        constructor
        · rintro ⟨rfl, rfl⟩
          exact ⟨rfl, rfl⟩
        · rintro ⟨rfl, rfl⟩
          exact ⟨rfl, rfl⟩
      | some (.link t) => simp
      | some .directory => simp

theorem lead_create {umask : FileMode} (h : fs.entry d = none) (p : P) :
    (fs.create umask d).lead p = fs.lead p := by
  refine lead_congr (fun x => ?_) p
  by_cases hx : x = d
  · subst hx
    rw [linkAt_of_entry_none h]
    exact linkAt_of_entry_file (if_pos rfl)
  · have hentry : (fs.create umask d).entry x = fs.entry x := if_neg hx
    rw [linkAt, linkAt, hentry]

/-- A path leads to the new file, or to what it led to. -/
theorem fileAt_create {umask : FileMode} (h : fs.entry d = none) (p : P) :
    (fs.create umask d).fileAt p =
      if fs.lead p = some d then some fs.next else fs.fileAt p := by
  split
  · rename_i hlead
    exact fileAt_of_lead ((lead_create h p).trans hlead) (if_pos rfl)
  · rename_i hlead
    rw [fileAt, fileAt, lead_create h p]
    cases hp : fs.lead p with
    | none => rfl
    | some x =>
      have hx : x ≠ d := by
        rintro rfl
        exact hlead hp
      have hentry : (fs.create umask d).entry x = fs.entry x := if_neg hx
      rw [Option.bind_some, Option.bind_some, hentry]

section Open

variable {umask : FileMode} (h : fs.openTruncate umask p = some (i, fs'))

include h

/-- The path leads to what was opened. -/
theorem fileAt_of_open : fs'.fileAt p = some i := by
  obtain ⟨d, hlead, hopen, ⟨hentry, rfl⟩ | ⟨hentry, rfl, rfl⟩⟩ :=
    openTruncate_eq_some_iff.mp h
  · rw [fileAt_setInode]
    exact fileAt_of_lead hlead hentry
  · rw [fileAt_create hentry, if_pos hlead]

/-- It is empty. -/
theorem content_of_open : (fs'.inode i).content = [] := by
  obtain ⟨d, -, -, ⟨-, rfl⟩ | ⟨-, rfl, rfl⟩⟩ := openTruncate_eq_some_iff.mp h
  · rw [inode_setInode_self]
  · have hinode : (fs.create umask d).inode fs.next = ⟨FileMode.created &&& ~~~umask, []⟩ :=
      if_pos rfl
    rw [hinode]

/-- **What is found elsewhere is what was found.** -/
theorem contents_of_open (hq : fs'.fileAt q ≠ some i) : fs'.contents q = fs.contents q := by
  obtain ⟨d, hlead, hopen, ⟨hentry, rfl⟩ | ⟨hentry, rfl, rfl⟩⟩ :=
    openTruncate_eq_some_iff.mp h
  · rw [fileAt_setInode] at hq
    exact contents_setInode_of_ne _ hq
  · have hq' : (fs.create umask d).fileAt q = fs.fileAt q := by
      rw [fileAt_create hentry] at hq ⊢
      split at hq
      · exact absurd rfl hq
      · rename_i hne
        rw [if_neg hne]
    exact contents_congr hq' fun j hj => if_neg (Nat.ne_of_lt (fileAt_lt_next hj))

end Open

/-- **What is opened is closed to the group and to others**: the file the path leads to, or
the new one. Where opening is refused nothing is. -/
def OpensClosed (fs : FileSystem P β) (umask : FileMode) (p : P) : Prop :=
  ∀ d, fs.lead p = some d → fs.refused d = false →
    (∀ i, fs.entry d = some (.file i) → ¬ (fs.inode i).mode.Exposed) ∧
      (fs.entry d = none → ¬ FileMode.Exposed (FileMode.created &&& ~~~umask))

/-- **What is opened is not what another path leads to**, nor, where there is nothing, where
it leads. -/
def OpensApart (fs : FileSystem P β) (p q : P) : Prop :=
  ∀ d, fs.lead p = some d → fs.refused d = false →
    (∀ i, fs.entry d = some (.file i) → fs.fileAt q ≠ some i) ∧
      (fs.entry d = none → fs.lead q ≠ some d)

theorem opensClosed_iff {umask : FileMode} :
    fs.OpensClosed umask p ↔
      ∀ i fs', fs.openTruncate umask p = some (i, fs') → ¬ (fs'.inode i).mode.Exposed := by
  constructor
  · intro hclosed i fs' h
    obtain ⟨d, hlead, hopen, ⟨hentry, rfl⟩ | ⟨hentry, rfl, rfl⟩⟩ :=
    openTruncate_eq_some_iff.mp h
    · rw [inode_setInode_self]
      exact (hclosed d hlead hopen).1 i hentry
    · have hinode : (fs.create umask d).inode fs.next = ⟨FileMode.created &&& ~~~umask, []⟩ :=
        if_pos rfl
      rw [hinode]
      exact (hclosed d hlead hopen).2 hentry
  · refine fun hall d hlead hopen => ⟨fun i hentry => ?_, fun hentry => ?_⟩
    · have hnot := hall i _ (openTruncate_eq_some_iff.mpr ⟨d, hlead, hopen, .inl ⟨hentry, rfl⟩⟩)
      rwa [inode_setInode_self] at hnot
    · have hnot := hall fs.next _
        (openTruncate_eq_some_iff.mpr ⟨d, hlead, hopen, .inr ⟨hentry, rfl, rfl⟩⟩)
      have hinode : (fs.create umask d).inode fs.next = ⟨FileMode.created &&& ~~~umask, []⟩ :=
        if_pos rfl
      rwa [hinode] at hnot

theorem opensApart_iff (umask : FileMode) :
    fs.OpensApart p q ↔
      ∀ i fs', fs.openTruncate umask p = some (i, fs') → fs'.fileAt q ≠ some i := by
  constructor
  · intro hapart i fs' h
    obtain ⟨d, hlead, hopen, ⟨hentry, rfl⟩ | ⟨hentry, rfl, rfl⟩⟩ :=
    openTruncate_eq_some_iff.mp h
    · rw [fileAt_setInode]
      exact (hapart d hlead hopen).1 i hentry
    · rw [fileAt_create hentry, if_neg ((hapart d hlead hopen).2 hentry)]
      exact fun hfile => Nat.lt_irrefl _ (fileAt_lt_next hfile)
  · refine fun hall d hlead hopen => ⟨fun i hentry => ?_, fun hentry hq => ?_⟩
    · have hnot := hall i _ (openTruncate_eq_some_iff.mpr ⟨d, hlead, hopen, .inl ⟨hentry, rfl⟩⟩)
      rwa [fileAt_setInode] at hnot
    · have hnot := hall fs.next _
        (openTruncate_eq_some_iff.mpr ⟨d, hlead, hopen, .inr ⟨hentry, rfl, rfl⟩⟩)
      rw [fileAt_create hentry, if_pos hq] at hnot
      exact hnot rfl

omit [DecidableEq P] in
/-- A path that names nothing opens a new file. -/
theorem OpensClosed.of_free {umask : FileMode} (hfree : fs.entry p = none)
    (hmask : ¬ FileMode.Exposed (FileMode.created &&& ~~~umask)) : fs.OpensClosed umask p := by
  intro d hd _
  rw [lead_of_linkAt_none (linkAt_of_entry_none hfree)] at hd
  obtain rfl := Option.some.inj hd
  exact ⟨fun i hi => absurd (hfree.symm.trans hi) (by rintro ⟨⟩), fun _ => hmask⟩

omit [DecidableEq P] in
/-- It is opened apart from the paths that lead elsewhere. -/
theorem OpensApart.of_free (hfree : fs.entry p = none) (hq : fs.lead q ≠ some p) :
    fs.OpensApart p q := by
  intro d hd _
  rw [lead_of_linkAt_none (linkAt_of_entry_none hfree)] at hd
  obtain rfl := Option.some.inj hd
  exact ⟨fun i hi => absurd (hfree.symm.trans hi) (by rintro ⟨⟩), fun _ => hq⟩

/-! ### Renaming -/

/-- The entry of one path put in the place of another's. -/
def move (fs : FileSystem P β) (p q : P) : FileSystem P β where
  entry x := if x = q then fs.entry p else if x = p then none else fs.entry x
  inode := fs.inode
  refused := fs.refused
  next := fs.next
  fresh x i h := by
    split at h
    · exact fs.fresh p i h
    · split at h
      · cases h
      · exact fs.fresh x i h

/-- Rename a file or a link. Of two names of one file neither goes. -/
def rename (fs : FileSystem P β) (p q : P) : Option (FileSystem P β) :=
  match fs.entry p, fs.entry q with
  | none, _ => none
  | some .directory, _ => none
  | some _, some .directory => none
  | some (.file i), some (.file j) => if i = j then some fs else some (fs.move p q)
  | some _, _ => if p = q then some fs else some (fs.move p q)

/-- What renaming does: nothing to two names of one file, and otherwise the entry moves. -/
theorem rename_cases (h : fs.rename p q = some fs') :
    fs' = fs ∧ (p = q ∨ ∃ i, fs.entry p = some (.file i) ∧ fs.entry q = some (.file i)) ∨
      fs' = fs.move p q ∧ p ≠ q := by
  rw [rename] at h
  split at h
  · cases h
  · cases h
  · cases h
  · rename_i i j hp hq
    split at h
    · rename_i hij
      exact .inl ⟨(Option.some.inj h).symm, .inr ⟨i, hp, hij ▸ hq⟩⟩
    · rename_i hij
      refine .inr ⟨(Option.some.inj h).symm, ?_⟩
      rintro rfl
      rw [hp] at hq
      cases hq
      exact hij rfl
  · split at h
    · rename_i hpq
      exact .inl ⟨(Option.some.inj h).symm, .inl hpq⟩
    · rename_i hpq
      exact .inr ⟨(Option.some.inj h).symm, hpq⟩

/-- The files are as they were. -/
theorem inode_of_rename (h : fs.rename p q = some fs') : fs'.inode = fs.inode := by
  obtain ⟨rfl, -⟩ | ⟨rfl, -⟩ := rename_cases h
  · rfl
  · rfl

theorem entry_move_target (fs : FileSystem P β) (p q : P) : (fs.move p q).entry q = fs.entry p :=
  if_pos rfl

theorem entry_move_of_ne {x : P} (hq : x ≠ q) (hp : x ≠ p) :
    (fs.move p q).entry x = fs.entry x :=
  (if_neg hq).trans (if_neg hp)

/-- **Where the new name leads**: to the file the old one led to, if it did not lead there
before. -/
theorem fileAt_of_rename (h : fs.rename p q = some fs') (hp : fs.fileAt p = some i)
    (hq : fs.fileAt q ≠ some i) : fs'.fileAt q = some i := by
  obtain ⟨-, rfl | ⟨k, hpk, hqk⟩⟩ | ⟨rfl, -⟩ := rename_cases h
  · exact absurd hp hq
  · rw [fileAt_of_entry hpk] at hp
    rw [fileAt_of_entry hqk] at hq
    exact absurd hp hq
  obtain ⟨d, hlead, hentry⟩ := fileAt_eq_some_iff.mp hp
  have hdq : d ≠ q := by
    rintro rfl
    exact hq (fileAt_of_entry hentry)
  cases hlink : fs.linkAt p with
  | none =>
    -- the old name is the file's own
    rw [lead_of_linkAt_none hlink] at hlead
    obtain rfl := Option.some.inj hlead
    exact fileAt_of_entry ((entry_move_target fs p q).trans hentry)
  | some t =>
    have hentryp : fs.entry p = some (.link t) := linkAt_eq_some_iff.mp hlink
    have hdp : d ≠ p := by
      rintro rfl
      rw [hentryp] at hentry
      cases hentry
    -- the shortest way from the old name does not come back to it
    have hex : ∃ n, fs.chase n p = some d := ⟨_, hlead⟩
    classical
    obtain ⟨n, hn⟩ : ∃ n, Nat.find hex = n + 1 := by
      cases hfind : Nat.find hex with
      | zero =>
        have hspec := Nat.find_spec hex
        rw [hfind] at hspec
        cases hspec
      | succ n => exact ⟨n, rfl⟩
    have hchase : fs.chase n t = some d := by
      have hspec := Nat.find_spec hex
      rwa [hn, chase_of_link hlink] at hspec
    have hle : n + 1 ≤ maxLinks + 1 := hn ▸ Nat.find_le hlead
    have hway : (fs.move p q).chase n t = some d := by
      refine chase_congr hchase fun x m hm hx => ?_
      have hxp : x ≠ p := by
        rintro rfl
        exact Nat.find_min hex (by omega) hx
      have hxq : x ≠ q := by
        rintro rfl
        exact hq (fileAt_of_lead (chase_mono (by omega) hx) hentry)
      rw [linkAt, linkAt, entry_move_of_ne hxq hxp]
    have hlinkq : (fs.move p q).linkAt q = some t :=
      linkAt_of_entry_link ((entry_move_target fs p q).trans hentryp)
    have hleadq : (fs.move p q).lead q = some d :=
      chase_mono hle ((chase_of_link hlinkq).trans hway)
    exact fileAt_of_lead hleadq ((entry_move_of_ne hdq hdp).trans hentry)

/-! ### What is found at a path -/

/-- **What is found at a path is what was found**: the same entry, and where it is a file, the
file as it was. -/
structure Unchanged (fs fs' : FileSystem P β) (p : P) : Prop where
  /-- The entry. -/
  entry : (fs'.lead p).bind fs'.entry = (fs.lead p).bind fs.entry
  /-- The file. -/
  inode : ∀ i, fs.fileAt p = some i → fs'.inode i = fs.inode i

omit [DecidableEq P] in
theorem Unchanged.refl (fs : FileSystem P β) (p : P) : Unchanged fs fs p := ⟨rfl, fun _ _ => rfl⟩

omit [DecidableEq P] in
/-- Another file was changed. -/
theorem unchanged_setInode (x : Inode β) (h : fs.fileAt p ≠ some i) :
    Unchanged fs (fs.setInode i x) p where
  entry := by
    have hlead : (fs.setInode i x).lead p = fs.lead p := lead_congr (fun _ => rfl) p
    rw [hlead]
    rfl
  inode j hj := inode_setInode_of_ne fs x fun hji => h (hji ▸ hj)

/-- A file was made elsewhere. -/
theorem unchanged_create {umask : FileMode} (hnew : fs.entry d = none) (h : fs.lead p ≠ some d) :
    Unchanged fs (fs.create umask d) p where
  entry := by
    rw [lead_create hnew p]
    cases hlead : fs.lead p with
    | none => rfl
    | some x =>
      have hx : x ≠ d := fun hxd => h (hxd ▸ hlead)
      exact if_neg hx
  inode j hj := if_neg (Nat.ne_of_lt (fileAt_lt_next hj))

/-- **Opening one path leaves another as it was**, if it opens apart from it. -/
theorem OpensApart.unchanged_of_open {umask : FileMode} (hapart : fs.OpensApart p q)
    (h : fs.openTruncate umask p = some (i, fs')) : Unchanged fs fs' q := by
  obtain ⟨d, hlead, hopen, ⟨hentry, rfl⟩ | ⟨hentry, rfl, rfl⟩⟩ :=
    openTruncate_eq_some_iff.mp h
  · exact unchanged_setInode _ ((hapart d hlead hopen).1 i hentry)
  · exact unchanged_create hentry ((hapart d hlead hopen).2 hentry)

omit [DecidableEq P] in
theorem OpensApart.setInode (hapart : fs.OpensApart p q) (i : ℕ) (x : Inode β) :
    (fs.setInode i x).OpensApart p q := by
  have hlead : ∀ p, (fs.setInode i x).lead p = fs.lead p := lead_congr fun _ => rfl
  intro d hd hopen
  rw [hlead] at hd
  refine ⟨fun j hj => ?_, fun hnone => ?_⟩
  · rw [fileAt_setInode]
    exact (hapart d hd hopen).1 j hj
  · rw [hlead]
    exact (hapart d hd hopen).2 hnone

/-- **Two paths stay apart** when one of them is opened. -/
theorem OpensApart.of_open {umask : FileMode} (hapart : fs.OpensApart p q)
    (h : fs.openTruncate umask p = some (i, fs')) : fs'.OpensApart p q := by
  obtain ⟨d, hlead, hopen, ⟨hentry, rfl⟩ | ⟨hentry, rfl, rfl⟩⟩ :=
    openTruncate_eq_some_iff.mp h
  · exact hapart.setInode _ _
  · intro d' hd' _
    rw [lead_create hentry p, hlead] at hd'
    obtain rfl := Option.some.inj hd'
    have hnew : (fs.create umask d).entry d = some (.file fs.next) := if_pos rfl
    refine ⟨fun j hj => ?_, fun hnone => absurd (hnew.symm.trans hnone) nofun⟩
    obtain rfl : fs.next = j := FileEntry.file.inj (Option.some.inj (hnew.symm.trans hj))
    rw [fileAt_create hentry, if_neg ((hapart d hlead hopen).2 hentry)]
    exact fun hfile => Nat.lt_irrefl _ (fileAt_lt_next hfile)

/-- **They stay apart** when one of them is renamed to the other: it is free then. -/
theorem OpensApart.of_rename (hapart : fs.OpensApart p q) (h : fs.rename p q = some fs')
    (hp : fs.fileAt p = some i) (hq : fs.fileAt q ≠ some i) : fs'.OpensApart p q := by
  have hfile := fileAt_of_rename h hp hq
  obtain ⟨rfl, -⟩ | ⟨rfl, hne⟩ := rename_cases h
  · exact hapart
  · have hfree : (fs.move p q).entry p = none := (if_neg hne).trans (if_pos rfl)
    refine .of_free hfree fun hlead => ?_
    obtain ⟨d, hlead', hentry⟩ := fileAt_eq_some_iff.mp hfile
    obtain rfl := Option.some.inj (hlead.symm.trans hlead')
    exact absurd (hfree.symm.trans hentry) nofun

end FileSystem
