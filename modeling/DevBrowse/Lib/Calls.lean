import DevBrowse.Lib.Transition

/-!
# Calls in progress

Where calls take several steps and steps of different calls interleave, the calls made so
far are kept in a list, in the order they were made. A call is known by its place in it: a
new one goes to the end, and a step of a call replaces what stands at its place. What stands
at a place after such a change is either what was put there or what stood there before.

A call that is done is left alone by the steps of all others, so what it came to can be read
off at the end of a run (`Calls.getElem?_of_run`).
-/

namespace Calls

variable {α : Type*} {calls : List α} {a b c : α} {i j : ℕ}

/-- After a call was made. -/
theorem getElem?_concat_cases (h : (calls ++ [a])[i]? = some b) :
    calls[i]? = some b ∨ i = calls.length ∧ b = a := by
  rw [List.getElem?_append] at h
  split at h
  · exact Or.inl h
  · rename_i hlt
    obtain ⟨hi, hb⟩ := List.getElem?_eq_some_iff.mp h
    rw [List.length_singleton] at hi
    refine Or.inr ⟨by omega, ?_⟩
    rw [← hb, List.getElem_singleton]

/-- After a step of a call. -/
theorem getElem?_set_cases (h : (calls.set i a)[j]? = some b) :
    j = i ∧ b = a ∨ j ≠ i ∧ calls[j]? = some b := by
  rw [List.getElem?_set] at h
  split at h
  · rename_i hij
    split at h
    · exact Or.inl ⟨hij.symm, (Option.some.inj h).symm⟩
    · simp at h
  · rename_i hij
    exact Or.inr ⟨fun hji => hij hji.symm, h⟩

/-- A call stands where it was made. -/
theorem getElem?_concat_of_some (h : calls[i]? = some b) : (calls ++ [a])[i]? = some b := by
  rw [List.getElem?_append_left (List.getElem?_eq_some_iff.mp h).1, h]

/-- A call is not touched by a step of another, which is one that stands differently. -/
theorem getElem?_set_of_ne (hj : calls[j]? = some b) (hi : calls[i]? = some c) (hne : b ≠ c) :
    (calls.set i a)[j]? = some b := by
  have hij : i ≠ j := by
    rintro rfl
    exact hne (Option.some.inj (hj.symm.trans hi))
  rw [List.getElem?_set_ne hij, hj]

/-- What a step of a call puts at its place. -/
theorem getElem?_set_self (h : calls[i]? = some b) : (calls.set i a)[i]? = some a := by
  rw [List.getElem?_set_self (List.getElem?_eq_some_iff.mp h).1]

open Transition (Run Step)

/-- **A call that is done stays as it is**: where no step changes such a call, it stands at
the end of a run as it stood after any step. -/
theorem getElem?_of_run {σ ι : Type*} {R : σ → ι → σ → Prop} {s₀ s : σ} {tr : List (Step σ ι)}
    {x : Step σ ι} {done : α → Prop} (callsOf : σ → List α)
    (stays : ∀ {s e s'} {i : ℕ} {c}, R s e s' → (callsOf s)[i]? = some c → done c →
      (callsOf s')[i]? = some c)
    (hrun : Run R s₀ tr s) (hx : x ∈ tr) (hcall : (callsOf x.post)[i]? = some c)
    (hdone : done c) : (callsOf s)[i]? = some c := by
  obtain ⟨_, _, -, -, -, hafter⟩ := hrun.of_mem hx
  exact hafter.invariant (I := fun _ s => (callsOf s)[i]? = some c) hcall
    fun _ _ _ _ _ hi hstep => stays hstep hi hdone

end Calls
