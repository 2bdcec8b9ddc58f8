import DevBrowse.Lib.Transition

/-!
# Snapshots that grow stale

A cell is shared, and somebody takes a snapshot of it to come back to later. In the meantime
the cell may be written. What it holds then is what was written last since the snapshot was
taken, and the snapshot itself only if nothing was (`Transition.Snapshot.cell_eq`). Where a
program decides on the snapshot and acts on the cell, the difference between the two is what
it has to mind.
-/

namespace Transition

variable {σ ι α : Type*} {R : σ → ι → σ → Prop} {s₀ s : σ} {tr : List (Step σ ι)}
  {x : Step σ ι}

/-- **What was written since the snapshot was taken**: `taken` tells the steps that take it,
`write` what a step writes. -/
def writesSince (taken : Step σ ι → Bool) (write : Step σ ι → Option α)
    (tr : List (Step σ ι)) : List α :=
  tr.foldl (fun written x => if taken x then [] else written ++ (write x).toList) []

variable {taken : Step σ ι → Bool} {write : Step σ ι → Option α}

@[simp] theorem writesSince_concat : writesSince taken write (tr ++ [x]) =
    if taken x then [] else writesSince taken write tr ++ (write x).toList := by
  rw [writesSince, List.foldl_append]
  rfl

/-- **A snapshot of a cell**, kept in the state from when it is taken. -/
structure Snapshot (R : σ → ι → σ → Prop) (cell : σ → α) (snap : σ → Option α)
    (taken : Step σ ι → Bool) (write : Step σ ι → Option α) : Prop where
  /-- A snapshot is of what the cell holds. -/
  fresh : ∀ x : Step σ ι, R x.pre x.input x.post → taken x = true →
    ∀ a, snap x.post = some a → cell x.post = a
  /-- A snapshot that is kept was taken. -/
  kept : ∀ x : Step σ ι, R x.pre x.input x.post → taken x = false →
    ∀ a, snap x.post = some a → snap x.pre = some a
  /-- The cell changes where it is written only. -/
  written : ∀ x : Step σ ι, R x.pre x.input x.post →
    cell x.post = (write x).getD (cell x.pre)

/-- **What the cell holds**: what was written last since the snapshot was taken, or else the
snapshot. -/
theorem Snapshot.cell_eq {cell : σ → α} {snap : σ → Option α}
    (h : Snapshot R cell snap taken write) (init : snap s₀ = none) (hrun : Run R s₀ tr s) :
    ∀ a, snap s = some a → cell s = (writesSince taken write tr).getLast?.getD a := by
  refine hrun.invariant (I := fun tr s => ∀ a, snap s = some a →
    cell s = (writesSince taken write tr).getLast?.getD a) (by simp [init]) ?_
  intro tr s i s' _ ih hstep a ha
  rw [writesSince_concat]
  cases htaken : taken ⟨s, i, s'⟩ with
  | true => simpa using h.fresh ⟨s, i, s'⟩ hstep htaken a ha
  | false =>
    have hpre := ih a (h.kept ⟨s, i, s'⟩ hstep htaken a ha)
    rw [h.written ⟨s, i, s'⟩ hstep]
    cases write ⟨s, i, s'⟩ with
    | none => simpa using hpre
    | some b => simp

end Transition
