import Mathlib.Data.List.Nodup
import Mathlib.Logic.Equiv.Basic

/-!
# Noninterference by unwinding

A system is a function `step` from a state and an input to the next state. An observer has a
`view` of the states and sees some of the inputs, each as an observation (`seen`). What the
observer learns is a matter of single steps (`Unwinding`): an input it does not see leaves
its view as it was, and two inputs it sees as the same thing take states with one view to
states with one view. Two histories in which it sees the same then leave it with the same
view (`Unwinding.view_foldl`), however the inputs it does not see lie between.

The second half is about steps that are programs, in the monad of programs that change a
state and may fail. A program is *confined* to one owner when its answer and the owner's view
depend on the owner's view only, and the views of all others stay (`Confined`). Programs put
together from confined ones are confined.

Where fresh names are made on the way, two runs make different ones. Names made one after the
other are renamed to those of the other run by one permutation of all names
(`List.exists_perm_map_eq`).
-/

/-- **Step by step, an observer learns nothing but what it sees**, for the inputs of a set. -/
structure Unwinding {σ ι β ω : Type*} (step : σ → ι → σ) (view : σ → β) (seen : ι → Option ω)
    (inputs : Set ι) : Prop where
  /-- What is not seen leaves the view as it was. -/
  hidden : ∀ i ∈ inputs, seen i = none → ∀ s, view (step s i) = view s
  /-- What is seen as the same thing does the same to the view. -/
  visible : ∀ i ∈ inputs, ∀ j ∈ inputs, ∀ o, seen i = some o → seen j = some o →
    ∀ s s', view s = view s' → view (step s i) = view (step s' j)

namespace Unwinding

variable {σ ι β ω : Type*} {step : σ → ι → σ} {view : σ → β} {seen : ι → Option ω}
  {inputs : Set ι} {l l' : List ι} {s s' : σ}

/-- A history of which nothing is seen leaves the view as it was. -/
theorem view_foldl_hidden (h : Unwinding step view seen inputs) (hl : ∀ i ∈ l, i ∈ inputs)
    (hseen : l.filterMap seen = []) : view (l.foldl step s) = view s := by
  induction l generalizing s with
  | nil => rfl
  | cons i l ih =>
    rw [List.filterMap_eq_nil_iff] at hseen
    have hrest : l.filterMap seen = [] :=
      List.filterMap_eq_nil_iff.mpr fun j hj => hseen j (List.mem_cons_of_mem i hj)
    rw [List.foldl_cons, ih (fun j hj => hl j (List.mem_cons_of_mem i hj)) hrest]
    exact h.hidden i (hl i List.mem_cons_self) (hseen i List.mem_cons_self) s

/-- **Two histories in which the observer sees the same leave it with the same view.** -/
theorem view_foldl (h : Unwinding step view seen inputs) (hl : ∀ i ∈ l, i ∈ inputs)
    (hl' : ∀ i ∈ l', i ∈ inputs) (hseen : l.filterMap seen = l'.filterMap seen)
    (hview : view s = view s') : view (l.foldl step s) = view (l'.foldl step s') := by
  induction l generalizing l' s s' with
  | nil => exact hview.trans (h.view_foldl_hidden hl' hseen.symm).symm
  | cons i l ih =>
    have hi : i ∈ inputs := hl i List.mem_cons_self
    have htail : ∀ j ∈ l, j ∈ inputs := fun j hj => hl j (List.mem_cons_of_mem i hj)
    cases ho : seen i with
    | none =>
      rw [List.filterMap_cons_none ho] at hseen
      rw [List.foldl_cons]
      exact ih htail hl' hseen ((h.hidden i hi ho s).trans hview)
    | some o =>
      -- the second history reaches an input seen as `o` after some that are not seen
      rw [List.filterMap_cons_some ho] at hseen
      obtain ⟨before, j, after, rfl, hbefore, hj, hafter⟩ :=
        List.filterMap_eq_cons_iff.mp hseen.symm
      have hmem : ∀ k ∈ before, k ∈ inputs := fun k hk => hl' k (List.mem_append_left _ hk)
      have hquiet : view (before.foldl step s') = view s' :=
        h.view_foldl_hidden hmem (List.filterMap_eq_nil_iff.mpr hbefore)
      have hj' : j ∈ inputs := hl' j (List.mem_append_right before List.mem_cons_self)
      rw [List.foldl_append, List.foldl_cons, List.foldl_cons]
      refine ih htail (fun k hk => ?_) hafter.symm ?_
      · exact hl' k (List.mem_append_right before (List.mem_cons_of_mem j hk))
      · exact h.visible i hi j hj' o ho hj _ _ (hview.trans hquiet.symm)

end Unwinding

/-! ### Fresh names -/

/-- **Fresh names are renamed to fresh names.** -/
theorem List.exists_perm_map_eq {α : Type*} [DecidableEq α] {l l' : List α}
    (hlen : l.length = l'.length) (h : l.Nodup) (h' : l'.Nodup) :
    ∃ ρ : Equiv.Perm α, l.map ρ = l' := by
  induction l generalizing l' with
  | nil => exact ⟨Equiv.refl α, (List.length_eq_zero_iff.mp hlen.symm).symm⟩
  | cons a l ih =>
    cases l' with
    | nil => simp at hlen
    | cons b l' =>
      rw [List.nodup_cons] at h h'
      obtain ⟨ρ, rfl⟩ := ih (Nat.succ.inj hlen) h.2 h'.2
      -- the name the first one has now is exchanged for the one it is to have
      refine ⟨ρ.trans (Equiv.swap (ρ a) b), ?_⟩
      rw [List.map_cons, Equiv.trans_apply, Equiv.swap_apply_left]
      refine congrArg (b :: ·) (List.map_congr_left fun x hx => ?_)
      have hxa : ρ x ≠ ρ a := fun heq => h.1 (ρ.injective heq ▸ hx)
      have hxb : ρ x ≠ b := fun heq => h'.1 (heq ▸ List.mem_map_of_mem hx)
      rw [Equiv.trans_apply, Equiv.swap_apply_of_ne_of_ne hxa hxb]

/-! ### Programs -/

namespace EStateM

variable {ε σ α β : Type} {m : EStateM ε σ α} {f : α → EStateM ε σ β} {s : σ} {a : α} {e : ε}

/-- What a program answers. -/
def reply (m : EStateM ε σ α) (s : σ) : Except ε α :=
  match m s with
  | .ok a _ => .ok a
  | .error e _ => .error e

/-- The state a program leaves. -/
def after (m : EStateM ε σ α) (s : σ) : σ :=
  match m s with
  | .ok _ s' => s'
  | .error _ s' => s'

@[simp] theorem reply_pure (a : α) (s : σ) : (pure a : EStateM ε σ α).reply s = .ok a := rfl

@[simp] theorem after_pure (a : α) (s : σ) : (pure a : EStateM ε σ α).after s = s := rfl

@[simp] theorem reply_throw (e : ε) (s : σ) :
    (throw e : EStateM ε σ α).reply s = .error e := rfl

@[simp] theorem after_throw (e : ε) (s : σ) : (throw e : EStateM ε σ α).after s = s := rfl

theorem reply_bind (m : EStateM ε σ α) (f : α → EStateM ε σ β) (s : σ) :
    (m >>= f).reply s =
      match m.reply s with
      | .ok a => (f a).reply (m.after s)
      | .error e => .error e := by
  simp only [reply, after, bind, EStateM.bind]
  cases m s <;> rfl

theorem after_bind (m : EStateM ε σ α) (f : α → EStateM ε σ β) (s : σ) :
    (m >>= f).after s =
      match m.reply s with
      | .ok a => (f a).after (m.after s)
      | .error _ => m.after s := by
  simp only [reply, after, bind, EStateM.bind]
  cases m s <;> rfl

end EStateM

/-- **A program confined to one owner**: its answer and the view of the owner depend on the
view of the owner only, and the views of the others stay as they were. -/
structure Confined {ε σ α β π : Type} (view : π → σ → β) (p : π) (m : EStateM ε σ α) : Prop where
  /-- The answer depends on the owner's view. -/
  reply : ∀ s s', view p s = view p s' → m.reply s = m.reply s'
  /-- The owner's view afterwards depends on its view before. -/
  after : ∀ s s', view p s = view p s' → view p (m.after s) = view p (m.after s')
  /-- Nobody else's view changes. -/
  frame : ∀ q, q ≠ p → ∀ s, view q (m.after s) = view q s

namespace Confined

variable {ε σ α β γ π : Type} {view : π → σ → γ} {p : π} {m : EStateM ε σ α}
  {f : α → EStateM ε σ β}

protected theorem pure (a : α) : Confined view p (pure a : EStateM ε σ α) where
  reply _ _ _ := rfl
  after _ _ h := h
  frame _ _ _ := rfl

protected theorem throw (e : ε) : Confined view p (throw e : EStateM ε σ α) where
  reply _ _ _ := rfl
  after _ _ h := h
  frame _ _ _ := rfl

protected theorem ite {c : Prop} [Decidable c] {m' : EStateM ε σ α} (h : Confined view p m)
    (h' : Confined view p m') : Confined view p (if c then m else m') := by
  split
  · exact h
  · exact h'

protected theorem bind (h : Confined view p m) (hf : ∀ a, Confined view p (f a)) :
    Confined view p (m >>= f) where
  reply s s' hs := by
    rw [EStateM.reply_bind, EStateM.reply_bind, h.reply s s' hs]
    cases m.reply s' with
    | ok a => exact (hf a).reply _ _ (h.after s s' hs)
    | error e => rfl
  after s s' hs := by
    rw [EStateM.after_bind, EStateM.after_bind, h.reply s s' hs]
    cases m.reply s' with
    | ok a => exact (hf a).after _ _ (h.after s s' hs)
    | error e => exact h.after s s' hs
  frame q hq s := by
    rw [EStateM.after_bind]
    cases m.reply s with
    | ok a => exact ((hf a).frame q hq _).trans (h.frame q hq s)
    | error e => exact h.frame q hq s

end Confined
