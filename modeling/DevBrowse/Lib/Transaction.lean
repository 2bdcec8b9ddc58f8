import DevBrowse.Lib.Noninterference

/-!
# Statements, and transactions of them

A connection to a database has what is in the file and, while a transaction is open, what
the transaction has made of it. A statement acts on the latter where there is one, and on the
file at once where there is none. It happens as a whole or not at all: it may fail by itself,
or for a reason from outside, such as a full disk, and then it changes nothing; some failures
also end the transaction that is open.

A program of statements with a transaction around it, rolled back where one of them fails,
does to the file what the program does by itself when nothing fails
(`transaction_eq_ok`), and nothing at all when something does (`transaction_eq_error`). What
is asked of the program is that it is made of statements, `Within`, for which there is a rule
for each way of composing programs.
-/

namespace EStateM

variable {ε σ α β : Type} {m : EStateM ε σ α} {f : α → EStateM ε σ β} {s s' : σ} {a : α} {e : ε}

theorem bind_of_ok (h : m s = .ok a s') : (m >>= f) s = f a s' := by
  simp only [bind, EStateM.bind, h]

theorem bind_of_error (h : m s = .error e s') : (m >>= f) s = .error e s' := by
  simp only [bind, EStateM.bind, h]

/-- A program after another ends well where both do. -/
theorem exists_of_bind_eq_ok {b : β} (h : (m >>= f) s = .ok b s') :
    ∃ a t, m s = .ok a t ∧ f a t = .ok b s' := by
  cases hm : m s with
  | ok a t => exact ⟨a, t, rfl, by rwa [bind_of_ok hm] at h⟩
  | error e t =>
    rw [bind_of_error hm] at h
    cases h

/-- A program after another fails where one of them does. -/
theorem exists_of_bind_eq_error (h : (m >>= f) s = .error e s') :
    m s = .error e s' ∨ ∃ a t, m s = .ok a t ∧ f a t = .error e s' := by
  cases hm : m s with
  | ok a t => exact .inr ⟨a, t, rfl, by rwa [bind_of_ok hm] at h⟩
  | error e' t =>
    rw [bind_of_error hm] at h
    cases h
    exact .inl rfl

/-- Errors called otherwise make no difference where there are none. -/
theorem of_adaptExcept_eq_ok {ε' : Type} {wrap : ε → ε'} (h : m.adaptExcept wrap s = .ok a s') :
    m s = .ok a s' := by
  rw [EStateM.adaptExcept] at h
  split at h
  · cases h
  · next hm =>
    cases h
    exact hm

/-- A loop whose turns end well and keep an invariant ends well and keeps it. The invariant
may speak of the turns that are done. -/
theorem exists_foldlM_eq_ok {γ : Type} {f : β → γ → EStateM ε σ β}
    {I : List γ → β → σ → Prop}
    (hstep : ∀ done c b s, I done b s → ∃ b' s', f b c s = .ok b' s' ∧ I (done ++ [c]) b' s')
    (todo done : List γ) {b : β} (h : I done b s) :
    ∃ b' s', todo.foldlM f b s = .ok b' s' ∧ I (done ++ todo) b' s' := by
  induction todo generalizing done b s with
  | nil => exact ⟨b, s, rfl, by rwa [List.append_nil]⟩
  | cons c todo ih =>
    obtain ⟨b', s', hf, hI⟩ := hstep done c b s h
    obtain ⟨b'', s'', htodo, hI'⟩ := ih (done ++ [c]) hI
    refine ⟨b'', s'', ?_, by rwa [List.append_assoc] at hI'⟩
    rw [List.foldlM_cons, bind_of_ok hf, htodo]

end EStateM

/-- A failure that comes from outside. -/
structure Fault (ε : Type) where
  /-- The error. -/
  error : ε
  /-- Whether the transaction that is open ends with it. -/
  endsTransaction : Bool

/-- Which statements fail from outside: the `n`-th one executed, if there is a fault for `n`. -/
abbrev Faults (ε : Type) := ℕ → Option (Fault ε)

/-- No statement fails from outside. -/
def Faults.none {ε : Type} : Faults ε := fun _ => .none

/-- A connection to a database. -/
structure Connection (σ : Type) where
  /-- What is in the file. -/
  committed : σ
  /-- What the open transaction has made of it, if one is open. -/
  pending : Option σ := none
  /-- How many statements have been executed. -/
  executed : ℕ := 0

/-- The connection that a file is opened with. -/
def Connection.ofFile {σ : Type} (file : σ) : Connection σ := { committed := file }

/-- A program over a connection. -/
abbrev Sql (ε σ α : Type) := EStateM ε (Connection σ) α

namespace Sql

variable {ε ε' σ α β : Type} (faults : Faults ε)

/-! ### The statements -/

/-- One more statement executed. -/
def counted (c : Connection σ) : Connection σ := { c with executed := c.executed + 1 }

/-- What a failure from outside leaves. -/
def faulted (fault : Fault ε) (c : Connection σ) : Connection σ :=
  if fault.endsTransaction then { counted c with pending := none } else counted c

/-- A statement. -/
def execute (stmt : EStateM ε σ α) : Sql ε σ α := fun c =>
  match faults c.executed with
  | some fault => .error fault.error (faulted fault c)
  | none =>
    match c.pending with
    | some v =>
      match stmt v with
      | .ok a v' => .ok a { counted c with pending := some v' }
      | .error e _ => .error e (counted c)
    | none =>
      match stmt c.committed with
      | .ok a v' => .ok a { counted c with committed := v' }
      | .error e _ => .error e (counted c)

/-- A transaction opened. There are no transactions inside transactions. -/
def begin (nested : ε) : Sql ε σ Unit := fun c =>
  -- it touches neither the file nor a transaction that is open, so that failing ends none
  match faults c.executed with
  | some fault => .error fault.error (counted c)
  | none =>
    match c.pending with
    | some _ => .error nested (counted c)
    | none => .ok () { counted c with pending := some c.committed }

/-- The open transaction brought into the file. -/
def commit : Sql ε σ Unit := fun c =>
  match faults c.executed with
  | some fault => .error fault.error (faulted fault c)
  | none => .ok () { counted c with committed := c.pending.getD c.committed, pending := none }

/-- The open transaction, if it is still open, given up where a program fails. -/
def rollbackOnError (m : Sql ε σ α) : Sql ε σ α := fun c =>
  match m c with
  | .ok a c' => .ok a c'
  | .error e c' => .error e { c' with pending := none }

/-- A program in a transaction of its own. -/
def transaction (nested : ε) (body : Sql ε σ α) : Sql ε σ α := do
  begin faults nested
  rollbackOnError do
    let a ← body
    commit faults
    pure a

/-! ### What they do -/

variable {faults} {c c' : Connection σ} {v : σ} {a : α} {e : ε} {stmt : EStateM ε σ α}

@[simp] theorem committed_faulted (fault : Fault ε) (c : Connection σ) :
    (faulted fault c).committed = c.committed := by
  rw [faulted]
  split <;> rfl

/-- Outside a transaction a statement that fails leaves the connection, and one that does not
is in the file. -/
theorem execute_of_pending_eq_none (hc : c.pending = none) (hfault : faults c.executed = none) :
    execute faults stmt c =
      match stmt c.committed with
      | .ok a v' => .ok a { counted c with committed := v' }
      | .error e _ => .error e (counted c) := by
  simp only [execute, hfault, hc]

/-- A failure of a statement is not in the file. -/
theorem committed_of_execute_eq_error (h : execute faults stmt c = .error e c') :
    c'.committed = c.committed := by
  rw [execute] at h
  split at h
  · cases h
    exact committed_faulted _ c
  · split at h <;> split at h <;> cases h <;> rfl

/-- Outside a transaction what a statement does is in the file at once. -/
theorem exists_of_execute_eq_ok_of_none (hc : c.pending = none)
    (h : execute faults stmt c = .ok a c') :
    faults c.executed = none ∧ ∃ v', stmt c.committed = .ok a v' ∧ c'.committed = v' ∧
      c'.pending = none ∧ c'.executed = c.executed + 1 := by
  cases hfault : faults c.executed with
  | some fault =>
    rw [execute, hfault] at h
    cases h
  | none =>
    rw [execute_of_pending_eq_none hc hfault] at h
    split at h
    · next hstmt =>
      cases h
      exact ⟨rfl, _, hstmt, rfl, hc, rfl⟩
    · cases h

/-- Inside a transaction a statement leaves the file. -/
theorem exists_of_execute_eq_ok (hc : c.pending = some v) (h : execute faults stmt c = .ok a c') :
    ∃ v', stmt v = .ok a v' ∧ c'.pending = some v' ∧ c'.committed = c.committed := by
  rw [execute, hc] at h
  split at h
  · cases h
  · dsimp only at h
    split at h
    · next hstmt =>
      cases h
      exact ⟨_, hstmt, rfl, rfl⟩
    · cases h

/-! ### Programs inside a transaction -/

/-- **A program made of statements**: inside a transaction it does to what the transaction
has made what a program over the contents does, or it fails; the file is not touched. -/
structure Within (m : Sql ε σ α) (p : EStateM ε' σ α) : Prop where
  /-- Where it ends well, so does the program over the contents, with the same answer. -/
  ok : ∀ c v a c', c.pending = some v → m c = .ok a c' →
    ∃ v', p v = .ok a v' ∧ c'.pending = some v' ∧ c'.committed = c.committed
  /-- Where it fails, the file is what it was. -/
  error : ∀ c v e c', c.pending = some v → m c = .error e c' → c'.committed = c.committed

variable {m : Sql ε σ α} {p : EStateM ε' σ α}

theorem Within.pure (a : α) : Within (pure a : Sql ε σ α) (pure a : EStateM ε' σ α) where
  ok := by
    rintro c v _ _ hc ⟨⟩
    exact ⟨v, rfl, hc, rfl⟩
  error := by
    rintro _ _ _ _ _ ⟨⟩

theorem Within.bind {f : α → Sql ε σ β} {g : α → EStateM ε' σ β} (h : Within m p)
    (hf : ∀ a, Within (f a) (g a)) : Within (m >>= f) (p >>= g) where
  ok c v b c'' hc hrun := by
    obtain ⟨a, c', hm, hrun⟩ := EStateM.exists_of_bind_eq_ok hrun
    obtain ⟨v', hp, hc', hfile⟩ := h.ok c v a c' hc hm
    obtain ⟨v'', hg, hc'', hfile'⟩ := (hf a).ok c' v' b c'' hc' hrun
    exact ⟨v'', (EStateM.bind_of_ok hp).trans hg, hc'', hfile'.trans hfile⟩
  error c v e c'' hc hrun := by
    rcases EStateM.exists_of_bind_eq_error hrun with hm | ⟨a, c', hm, hrun⟩
    · exact h.error c v e c'' hc hm
    · obtain ⟨v', -, hc', hfile⟩ := h.ok c v a c' hc hm
      exact ((hf a).error c' v' e c'' hc' hrun).trans hfile

/-- A loop of statements. -/
theorem Within.foldlM {γ : Type} {f : β → γ → Sql ε σ β} {g : β → γ → EStateM ε' σ β}
    (h : ∀ b x, Within (f b x) (g b x)) (l : List γ) (b : β) :
    Within (l.foldlM f b) (l.foldlM g b) := by
  induction l generalizing b with
  | nil => exact Within.pure b
  | cons x l ih =>
    rw [List.foldlM_cons, List.foldlM_cons]
    exact (h b x).bind ih

/-- A statement, whatever its errors are called. -/
theorem within_execute (faults : Faults ε) (wrap : ε' → ε) (p : EStateM ε' σ α) :
    Within (execute faults (p.adaptExcept wrap)) p where
  ok c v a c' hc hrun := by
    obtain ⟨v', hstmt, hc', hfile⟩ := exists_of_execute_eq_ok hc hrun
    exact ⟨v', EStateM.of_adaptExcept_eq_ok hstmt, hc', hfile⟩
  error _ _ _ _ _ hrun := committed_of_execute_eq_error hrun

/-! ### Transactions -/

variable {nested : ε} {body : Sql ε σ α}

theorem exists_of_begin_eq_ok {u : Unit} (h : begin faults nested c = .ok u c') :
    c.pending = none ∧ c'.pending = some c.committed ∧ c'.committed = c.committed := by
  rw [begin] at h
  split at h
  · cases h
  · split at h
    · cases h
    · next hc =>
      cases h
      exact ⟨hc, rfl, rfl⟩

theorem of_begin_eq_error (h : begin faults nested c = .error e c') :
    c'.committed = c.committed ∧ c'.pending = c.pending := by
  rw [begin] at h
  split at h
  · cases h
    exact ⟨rfl, rfl⟩
  · split at h <;> cases h
    exact ⟨rfl, rfl⟩

theorem of_commit_eq_ok {u : Unit} (h : commit faults c = .ok u c') (hc : c.pending = some v) :
    c'.committed = v ∧ c'.pending = none := by
  rw [commit] at h
  split at h
  · cases h
  · cases h
    exact ⟨by simp [hc], rfl⟩

theorem committed_of_commit_eq_error (h : commit faults c = .error e c') :
    c'.committed = c.committed := by
  rw [commit] at h
  split at h <;> cases h
  exact committed_faulted _ c

/-- **A transaction that ends well**: the file has become what the program makes of it. -/
theorem transaction_eq_ok (hbody : Within body p)
    (h : transaction faults nested body c = .ok a c') :
    c.pending = none ∧ c'.pending = none ∧ p c.committed = .ok a c'.committed := by
  obtain ⟨u, c₁, hbegin, hrun⟩ := EStateM.exists_of_bind_eq_ok h
  obtain ⟨hc, hc₁, hfile₁⟩ := exists_of_begin_eq_ok hbegin
  rw [rollbackOnError] at hrun
  split at hrun
  · next hok =>
    cases hrun
    obtain ⟨b, c₂, hb, hcommit⟩ := EStateM.exists_of_bind_eq_ok hok
    obtain ⟨u', c₃, hcommit, hpure⟩ := EStateM.exists_of_bind_eq_ok hcommit
    cases hpure
    obtain ⟨v, hp, hc₂, -⟩ := hbody.ok c₁ c.committed a c₂ hc₁ hb
    obtain ⟨hfile, hpending⟩ := of_commit_eq_ok hcommit hc₂
    exact ⟨hc, hpending, by rw [hp, hfile]⟩
  · cases hrun

/-- **A transaction that fails**: the file and the transaction that is open, if any, are
what they were. -/
theorem transaction_eq_error (hbody : Within body p)
    (h : transaction faults nested body c = .error e c') :
    c'.committed = c.committed ∧ c'.pending = c.pending := by
  rcases EStateM.exists_of_bind_eq_error h with hbegin | ⟨u, c₁, hbegin, hrun⟩
  · exact of_begin_eq_error hbegin
  obtain ⟨hc, hc₁, hfile₁⟩ := exists_of_begin_eq_ok hbegin
  rw [rollbackOnError] at hrun
  split at hrun
  · cases hrun
  next e' c₂ herror =>
    cases hrun
    refine ⟨?_, hc.symm⟩
    show c₂.committed = c.committed
    rw [← hfile₁]
    rcases EStateM.exists_of_bind_eq_error herror with hb | ⟨b, c₃, hb, hcommit⟩
    · exact hbody.error c₁ c.committed _ c₂ hc₁ hb
    · -- the program went through, so it is the commit that failed
      obtain ⟨v, -, -, hfile₃⟩ := hbody.ok c₁ c.committed b c₃ hc₁ hb
      rcases EStateM.exists_of_bind_eq_error hcommit with hcommit | ⟨u', c₄, -, hpure⟩
      · exact (committed_of_commit_eq_error hcommit).trans hfile₃
      · cases hpure

end Sql
