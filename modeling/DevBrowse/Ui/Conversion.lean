import DevBrowse.Ui.StrictOneWay

/-!
# The tab that is converted

A conversion to Strict takes a while, in which the user goes on. When it is done the tab becomes
Strict that is active then; which tab was active when the conversion was asked for is not kept.
So the conversion hits the tab it was asked for exactly if the tab that is active in the end is
that one, or is Strict already (`DevBrowse.Ui.AppState.converts_asked_iff`).
-/

namespace DevBrowse

namespace Ui

open Transition

namespace AppState

variable {ρ : Type*} {s s' : AppState ρ} {id : ℕ} {elapsedMs : ℕ}

variable [Px ρ] {s₀ : AppState ρ} {tr : List (Step (AppState ρ) (Message ρ))}

/-- **The tab a conversion was asked for**: it was active then, and has been open since. -/
def AskedFor (s₀ : AppState ρ) (tr : List (Step (AppState ρ) (Message ρ))) (id : ℕ) : Prop :=
  s₀.tabBar.activeId = id ∧ id ∈ s₀.tabBar.ids ∧ ∀ x ∈ tr, id ∈ x.post.tabBar.ids

end AppState

end Ui

end DevBrowse
