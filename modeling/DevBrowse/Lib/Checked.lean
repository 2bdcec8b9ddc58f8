import Mathlib.Data.List.Basic
import Mathlib.Algebra.GroupWithZero.Nat

/-!
# Code that checks itself

Code in a language without undefined behaviour stops where an index or a slice is out of
range, or an addition overflows. Here such code is a program that ends in one of four ways:
with a value, with an error it returns, in a panic, or not at all, where a loop has taken more
turns than it was given. The programs that end in one of the first two ways are the *safe*
ones (`Checked.Safe`), and safety composes.

Loops are given by what one turn does. Such a loop ends where some measure falls with every
turn, and what it ends with is known from what single turns do; `Loop.run_safe` is both.
-/

/-- How a program ends that does not end with a value. -/
inductive Stop (ε : Type*) where
  /-- It returns an error. -/
  | returned (e : ε)
  /-- An index, a slice or an addition is out of range. -/
  | panicked
  /-- It does not come to an end in the turns it was given. -/
  | unfinished
  deriving DecidableEq

/-- A program of code that checks itself. -/
abbrev Checked (ε α : Type*) := Except (Stop ε) α

/-- The elements of a contiguous piece of memory, which has less than `2 ^ 63` bytes. -/
structure Slice (α : Type*) where
  /-- The elements. -/
  elems : List α
  /-- How many there can be. -/
  length_lt : elems.length < 2 ^ 63

namespace Checked

variable {ε α β : Type}

/-- The error a program returns. -/
def fail (e : ε) : Checked ε α := .error (.returned e)

/-- An addition of words of a given width. -/
def add (width a b : ℕ) : Checked ε ℕ :=
  if a + b < 2 ^ width then .ok (a + b) else .error .panicked

/-- The element at an index. -/
def index (s : Slice α) (i : ℕ) : Checked ε α :=
  match s.elems[i]? with
  | some a => .ok a
  | none => .error .panicked

/-- The elements from one index up to another. -/
def slice (s : Slice α) (i j : ℕ) : Checked ε (List α) :=
  if i ≤ j ∧ j ≤ s.elems.length then .ok ((s.elems.drop i).take (j - i)) else .error .panicked

/-- The element at an index, for code whose indices do not come near the bounds of a word. -/
def nth (l : List α) (i : ℕ) : Checked ε α :=
  match l[i]? with
  | some a => .ok a
  | none => .error .panicked

/-- The elements from one index up to another, for such code. -/
def range (l : List α) (i j : ℕ) : Checked ε (List α) :=
  if i ≤ j ∧ j ≤ l.length then .ok ((l.drop i).take (j - i)) else .error .panicked

/-- The sum of words of a given width, added up one after the other. -/
def sum (width : ℕ) (l : List ℕ) : Checked ε ℕ := l.foldlM (add width) 0

variable {s : Slice α} {l : List α} {i j width a b : ℕ} {x : α}

@[simp] theorem ok_bind (a : α) (f : α → Checked ε β) :
    ((.ok a : Checked ε α) >>= f) = f a := rfl

theorem add_eq_ok (h : a + b < 2 ^ width) : (add width a b : Checked ε ℕ) = .ok (a + b) :=
  if_pos h

theorem foldlM_add (l : List ℕ) (h : a < 2 ^ width) :
    (l.foldlM (add width) a : Checked ε ℕ) =
      if a + l.sum < 2 ^ width then .ok (a + l.sum) else .error .panicked := by
  induction l generalizing a with
  | nil => rw [List.sum_nil, add_zero, if_pos h]; rfl
  | cons n l ih =>
    rw [List.foldlM_cons, List.sum_cons, ← add_assoc, add]
    split
    · rename_i hn
      exact ih hn
    · rename_i hn
      rw [if_neg (by omega)]
      rfl

/-- A sum overflows exactly if what it adds up to is out of range. -/
theorem sum_eq (width : ℕ) (l : List ℕ) :
    (sum width l : Checked ε ℕ) =
      if l.sum < 2 ^ width then .ok l.sum else .error .panicked := by
  rw [sum, foldlM_add l (Nat.two_pow_pos width), zero_add]

theorem index_eq_ok (h : s.elems[i]? = some x) : (index s i : Checked ε α) = .ok x := by
  rw [index, h]

theorem slice_eq_ok (hij : i ≤ j) (hj : j ≤ s.elems.length) :
    (slice s i j : Checked ε (List α)) = .ok ((s.elems.drop i).take (j - i)) :=
  if_pos ⟨hij, hj⟩

theorem nth_eq_ok (h : l[i]? = some x) : (nth l i : Checked ε α) = .ok x := by
  rw [nth, h]

theorem range_eq_ok (hij : i ≤ j) (hj : j ≤ l.length) :
    (range l i j : Checked ε (List α)) = .ok ((l.drop i).take (j - i)) :=
  if_pos ⟨hij, hj⟩

theorem range_length (h : i ≤ l.length) :
    (range l i l.length : Checked ε (List α)) = .ok (l.drop i) := by
  have hlen : (l.drop i).length = l.length - i := List.length_drop
  rw [range_eq_ok h (Nat.le_refl _), ← hlen, List.take_length]

/-! ### What ends with a value -/

theorem exists_of_bind_eq_ok {m : Checked ε α} {f : α → Checked ε β} {y : β}
    (h : (m >>= f) = .ok y) : ∃ x, m = .ok x ∧ f x = .ok y := by
  cases m with
  | error e => cases h
  | ok x => exact ⟨x, rfl, h⟩

theorem of_add_eq_ok {c : ℕ} (h : (add width a b : Checked ε ℕ) = .ok c) : c = a + b := by
  rw [add] at h
  split at h
  · exact (Except.ok.inj h).symm
  · cases h

theorem of_index_eq_ok (h : (index s i : Checked ε α) = .ok x) : s.elems[i]? = some x := by
  rw [index] at h
  split at h
  · rename_i heq
    rw [heq, Except.ok.inj h]
  · cases h

theorem of_slice_eq_ok {part : List α} (h : (slice s i j : Checked ε (List α)) = .ok part) :
    i ≤ j ∧ j ≤ s.elems.length ∧ part = (s.elems.drop i).take (j - i) := by
  rw [slice] at h
  split at h
  · rename_i hij
    exact ⟨hij.1, hij.2, (Except.ok.inj h).symm⟩
  · cases h

/-! ### Safety -/

/-- A program that ends with an error it returns, or with a value of which `Q` holds. -/
def Safe (Q : α → Prop) (m : Checked ε α) : Prop :=
  (∃ e, m = fail e) ∨ ∃ a, m = .ok a ∧ Q a

variable {Q : α → Prop} {P : β → Prop} {m : Checked ε α} {f : α → Checked ε β}

theorem Safe.fail (e : ε) : Safe Q (fail e : Checked ε α) := .inl ⟨e, rfl⟩

theorem Safe.ok {a : α} (h : Q a) : Safe Q (.ok a : Checked ε α) := .inr ⟨a, rfl, h⟩

theorem Safe.mono {Q' : α → Prop} (h : Safe Q m) (himp : ∀ a, Q a → Q' a) : Safe Q' m := by
  rcases h with he | ⟨a, hm, ha⟩
  · exact .inl he
  · exact .inr ⟨a, hm, himp a ha⟩

/-- What follows a safe program is safe where it is safe for the values the program ends
with. -/
theorem Safe.bind (h : Safe Q m) (hf : ∀ a, Q a → Safe P (f a)) : Safe P (m >>= f) := by
  rcases h with ⟨e, rfl⟩ | ⟨a, rfl, ha⟩
  · exact .inl ⟨e, rfl⟩
  · exact hf a ha

theorem Safe.ite {c : Prop} [Decidable c] {m' : Checked ε α} (h : c → Safe Q m)
    (h' : ¬ c → Safe Q m') : Safe Q (if c then m else m') := by
  split
  · rename_i hc
    exact h hc
  · rename_i hc
    exact h' hc

theorem safe_add (h : a + b < 2 ^ width) : Safe (· = a + b) (add width a b : Checked ε ℕ) :=
  .inr ⟨a + b, add_eq_ok h, rfl⟩

theorem safe_index (h : i < s.elems.length) :
    Safe (s.elems[i]? = some ·) (index s i : Checked ε α) :=
  .inr ⟨s.elems[i], index_eq_ok (List.getElem?_eq_getElem h), List.getElem?_eq_getElem h⟩

theorem safe_slice (hij : i ≤ j) (hj : j ≤ s.elems.length) :
    Safe (·.length = j - i) (slice s i j : Checked ε (List α)) := by
  refine .inr ⟨_, slice_eq_ok hij hj, ?_⟩
  show (List.take _ _).length = j - i
  rw [List.length_take, List.length_drop]
  omega

theorem safe_nth (h : i < l.length) : Safe (l[i]? = some ·) (nth l i : Checked ε α) :=
  .inr ⟨l[i], nth_eq_ok (List.getElem?_eq_getElem h), List.getElem?_eq_getElem h⟩

theorem safe_range (hij : i ≤ j) (hj : j ≤ l.length) :
    Safe (·.length = j - i) (range l i j : Checked ε (List α)) := by
  refine .inr ⟨_, range_eq_ok hij hj, ?_⟩
  show (List.take _ _).length = j - i
  rw [List.length_take, List.length_drop]
  omega

end Checked

/-! ### Loops -/

namespace Loop

variable {ε σ ρ : Type} {turn : σ → Checked ε (σ ⊕ ρ)} {n m : ℕ} {s s' : σ}

/-- A loop, by what a turn does: it goes on from another state, or is left with a value. -/
def run (turn : σ → Checked ε (σ ⊕ ρ)) : ℕ → σ → Checked ε ρ
  | 0, _ => .error .unfinished
  | n + 1, s =>
    match turn s with
    | .ok (.inl s') => run turn n s'
    | .ok (.inr r) => .ok r
    | .error e => .error e

theorem run_succ_of_next (h : turn s = .ok (.inl s')) : run turn (n + 1) s = run turn n s' := by
  rw [run, h]

theorem run_succ_of_done {r : ρ} (h : turn s = .ok (.inr r)) : run turn (n + 1) s = .ok r := by
  rw [run, h]

/-- What a turn of a loop is to achieve: it goes on in a state where the invariant `I` holds
and the measure `μ` is lower, and which passes the relation `Q` on to what the loop ends with
backwards, or it is left with a value to which `Q` relates the state. -/
def Progress (I : σ → Prop) (μ : σ → ℕ) (Q : σ → ρ → Prop) (s : σ) : σ ⊕ ρ → Prop
  | .inl s' => I s' ∧ μ s' < μ s ∧ ∀ r, Q s' r → Q s r
  | .inr r => Q s r

/-- **A loop whose turns make progress is safe**, and what it ends with is related to the
state it began in. -/
theorem run_safe {I : σ → Prop} {Q : σ → ρ → Prop} {μ : σ → ℕ}
    (hturn : ∀ s, I s → Checked.Safe (Progress I μ Q s) (turn s))
    (hs : I s) (hn : μ s < n) : Checked.Safe (Q s) (run turn n s) := by
  induction n generalizing s with
  | zero => omega
  | succ n ih =>
    rcases hturn s hs with ⟨e, he⟩ | ⟨next | r, hok, hnext⟩
    · exact .inl ⟨e, by rw [run, he]; rfl⟩
    · obtain ⟨hI, hμ, hback⟩ := hnext
      rw [run_succ_of_next hok]
      exact (ih hI (by omega)).mono hback
    · rw [run_succ_of_done hok]
      exact .ok hnext

end Loop
