import DevBrowse.Lib.Transition
import DevBrowse.Ui.TabBar

/-!
# Unsaved input and the dialog

A Strict tab with unsaved input is to be closed only where the dialog asks about it and is
confirmed, and the dialog is to ask only about a tab that is still open. Pressing the close
button of a tab on the strip asks nothing: it is the one way for such a tab to leave unasked,
and with it the dialog can be left behind (`DevBrowse.Ui.TabBar.neverLost_iff`).
-/

namespace DevBrowse

namespace Ui

namespace TabBar

variable {ρ : Type*} [Px ρ] {tb tb' start : TabBar ρ} {msg : TabBarMsg ρ} {tab : TabEntry}

open Transition (Step Run ofFun)

/-- One message to the tab bar. -/
def step (tb : TabBar ρ) (msg : TabBarMsg ρ) : Option (TabBar ρ) := some (tb.update msg).1

variable {tr : List (Step (TabBar ρ) (TabBarMsg ρ))}

/-! ### What a run is to keep -/

/-- **The dialog was opened for a tab**: it was asked to be closed, and since then it has been
open and the dialog has asked about it. -/
def AskedFor (tr : List (Step (TabBar ρ) (TabBarMsg ρ))) (tab : TabEntry) : Prop :=
  ∃ before y after, tr = before ++ y :: after ∧ y.input = .tabCloseRequested tab.id ∧
    tab ∈ y.pre.tabs ∧ ∀ z ∈ y :: after, tab ∈ z.post.tabs ∧ z.post.modal = .confirming tab.id

/-- **No unsaved input is lost**: a guarded tab leaves only when the dialog that was opened for
it is confirmed, and the dialog only asks about a Strict tab that is open and for which it was
opened. -/
def NeverLost (tr : List (Step (TabBar ρ) (TabBarMsg ρ))) : Prop :=
  ∀ before x after, tr = before ++ x :: after →
    (∀ tab ∈ x.pre.tabs, tab.Guarded → tab ∉ x.post.tabs →
      x.input = .strictCloseConfirmed ∧ x.pre.modal = .confirming tab.id ∧
        AskedFor before tab) ∧
    ∀ id, x.post.modal = .confirming id →
      ∃ tab ∈ x.post.tabs, tab.id = id ∧ tab.mode = .strict ∧ AskedFor (before ++ [x]) tab

/-- The step does not press the close button of a guarded tab. -/
def PressAllowed (x : Step (TabBar ρ) (TabBarMsg ρ)) : Prop :=
  x.input = .stripPressed → x.pre.cursorInCloseZone = true →
    ∀ tab ∈ x.pre.tabs, x.pre.hoveredTabId = some tab.id → ¬ tab.Guarded

/-- What holds along a run that loses no input. -/
structure Kept (tr : List (Step (TabBar ρ) (TabBarMsg ρ))) (tb : TabBar ρ) : Prop where
  /-- No two tabs share an identifier. -/
  nodup : tb.ids.Nodup
  /-- The dialog asks about a guarded tab. -/
  asked : ∀ id, tb.modal = .confirming id →
    ∃ tab ∈ tb.tabs, tab.id = id ∧ tab.Guarded ∧ AskedFor tr tab

omit [Px ρ] in
/-- A dialog that still asks about the tab was opened for it. -/
theorem AskedFor.snoc (h : AskedFor tr tab) (htab : tab ∈ tb'.tabs)
    (hmodal : tb'.modal = .confirming tab.id) : AskedFor (tr ++ [⟨tb, msg, tb'⟩]) tab := by
  obtain ⟨before, y, after, rfl, hinput, hmem, hsince⟩ := h
  refine ⟨before, y, after ++ [⟨tb, msg, tb'⟩], by simp, hinput, hmem, fun z hz => ?_⟩
  rcases List.mem_append.mp (show z ∈ (y :: after) ++ [⟨tb, msg, tb'⟩] from hz) with hz | hz
  · exact hsince z hz
  · rw [List.mem_singleton.mp hz]
    exact ⟨htab, hmodal⟩

omit [Px ρ] in
theorem askedFor_of_request (htab : tab ∈ tb.tabs) (htabs : tb'.tabs = tb.tabs)
    (hmodal : tb'.modal = .confirming tab.id) :
    AskedFor (tr ++ [⟨tb, .tabCloseRequested tab.id, tb'⟩]) tab := by
  refine ⟨tr, _, [], rfl, rfl, htab, fun z hz => ?_⟩
  rw [List.mem_singleton.mp hz]
  exact ⟨htabs ▸ htab, hmodal⟩

/-- A tab leaves where it is closed, and a guarded one only on the strip or confirmed. -/
theorem Effect.leaves (h : Effect tb msg tb') (hnodup : tb.ids.Nodup) (htab : tab ∈ tb.tabs)
    (hguard : tab.Guarded) (hgone : tab ∉ tb'.tabs) :
    (msg = .stripPressed ∧ tb.hoveredTabId = some tab.id ∧ tb.cursorInCloseZone = true) ∨
      (msg = .strictCloseConfirmed ∧ tb.modal = .confirming tab.id) := by
  -- what is removed is the tab itself
  have hid : ∀ id, tb'.tabs = Keyed.remove TabEntry.id id tb.tabs → tab.id = id := by
    intro id htabs
    by_contra hne
    rw [htabs] at hgone
    exact hgone (Keyed.mem_remove.mpr ⟨htab, hne⟩)
  cases h with
  | kept _ htabs => exact absurd (htabs.mem_iff.mpr htab) hgone
  | asked _ _ htabs | cancelled htabs => exact absurd (htabs ▸ htab) hgone
  | closed hfree htabs =>
    obtain rfl := hid _ htabs
    exact absurd hguard (hfree tab ((Keyed.find_eq_some_iff hnodup).mpr ⟨htab, rfl⟩))
  | pressed hhover hzone htabs =>
    obtain rfl := hid _ htabs
    exact .inl ⟨rfl, hhover, hzone⟩
  | confirmed hasked htabs =>
    obtain rfl := hid _ htabs
    exact .inr ⟨rfl, hasked⟩
  | opened htabs =>
    rw [htabs] at hgone
    exact absurd (List.mem_append_left _ htab) hgone

/-! ### Every run -/

omit [Px ρ] in
/-- A dialog that is shown on asks about the tab it asked about before. -/
theorem Kept.asked_of_same (h : Kept tr tb) (hsame : tb'.modal = tb.modal)
    (hstay : ∀ tab ∈ tb.tabs, tab.Guarded → tab ∈ tb'.tabs) {id : ℕ}
    (hmodal : tb'.modal = .confirming id) : ∃ tab ∈ tb'.tabs, tab.id = id ∧ tab.Guarded ∧
      AskedFor (tr ++ [⟨tb, msg, tb'⟩]) tab := by
  obtain ⟨tab, htab, rfl, hguard, hasked⟩ := h.asked id (hsame ▸ hmodal)
  have hmem := hstay tab htab hguard
  exact ⟨tab, hmem, rfl, hguard, hasked.snoc hmem hmodal⟩

/-- **A step that presses no close button of a guarded tab keeps what holds.** -/
theorem Kept.step (h : Kept tr tb) (heffect : Effect tb msg tb')
    (hpress : PressAllowed ⟨tb, msg, tb'⟩) : Kept (tr ++ [⟨tb, msg, tb'⟩]) tb' := by
  refine ⟨heffect.nodup h.nodup, fun id hmodal => ?_⟩
  have hstay : msg ≠ .strictCloseConfirmed →
      ∀ tab ∈ tb.tabs, tab.Guarded → tab ∈ tb'.tabs := by
    intro hmsg tab htab hguard
    by_contra hgone
    rcases heffect.leaves h.nodup htab hguard hgone with ⟨rfl, hhover, hzone⟩ | ⟨rfl, -⟩
    · exact hpress rfl hzone tab htab hhover hguard
    · exact hmsg rfl
  cases heffect with
  | kept _ htabs hsame =>
    exact h.asked_of_same hsame (fun tab htab _ => htabs.mem_iff.mpr htab) hmodal
  | @asked tab _ htab hguard htabs hconfirming =>
    obtain rfl : tab.id = id := StrictCloseModal.confirming.inj (hconfirming.symm.trans hmodal)
    have hmem := (Keyed.mem_of_find htab).1
    exact ⟨tab, htabs ▸ hmem, rfl, hguard, askedFor_of_request hmem htabs hconfirming⟩
  | closed _ _ hsame | pressed _ _ _ hsame | opened _ hsame =>
    exact h.asked_of_same hsame (hstay (by rintro ⟨⟩)) hmodal
  | confirmed _ _ hhidden | cancelled _ hhidden => cases hhidden.symm.trans hmodal

theorem effect_of_step (h : ofFun step tb msg tb') : Effect tb msg tb' := by
  obtain rfl : (tb.update msg).1 = tb' := Option.some.inj h
  exact effect_update tb msg

theorem kept_of_run (hnodup : start.ids.Nodup) (hmodal : start.modal = .hidden)
    (h : Run (ofFun step) start tr tb) (hpress : ∀ x ∈ tr, PressAllowed x) : Kept tr tb := by
  refine h.invariant_where (I := Kept) ⟨hnodup, fun id hid => ?_⟩ ?_ hpress
  · cases hmodal.symm.trans hid
  · intro tr tb msg tb' _ hkept hstep hok
    exact hkept.step (effect_of_step hstep) hok

/-- **No unsaved input is lost exactly if no close button of a tab with unsaved Strict input is
pressed on the strip.** -/
theorem neverLost_iff (hnodup : start.ids.Nodup) (hmodal : start.modal = .hidden)
    (h : Run (ofFun step) start tr tb) : NeverLost tr ↔ ∀ x ∈ tr, PressAllowed x := by
  constructor
  · rintro hlost ⟨tb, msg, tb'⟩ hx rfl hzone tab htab hhover hguard
    obtain ⟨before, after, rfl⟩ := List.append_of_mem hx
    -- the press removes the tab
    have hgone : tab ∉ tb'.tabs := by
      obtain ⟨-, hstep, -⟩ := h.cut
      obtain rfl : tb.stripPressed.1 = tb' := Option.some.inj hstep
      rw [stripPressed_of_zone hhover hzone, tabs_closeTab]
      exact fun hmem => (Keyed.mem_remove.mp hmem).2 rfl
    obtain ⟨hinput, -⟩ := (hlost before _ after rfl).1 tab htab hguard hgone
    cases hinput
  · rintro hpress before ⟨tb, msg, tb'⟩ after rfl
    obtain ⟨hrun, hstep, -⟩ := h.cut
    have hpast : Kept before tb :=
      kept_of_run hnodup hmodal hrun fun x hx => hpress x (List.mem_append_left _ hx)
    have heffect := effect_of_step hstep
    have hok : PressAllowed ⟨tb, msg, tb'⟩ := hpress _ (by simp)
    constructor
    · intro tab htab hguard hgone
      rcases heffect.leaves hpast.nodup htab hguard hgone with ⟨rfl, hhover, hzone⟩ | ⟨rfl, hasked⟩
      · exact absurd hguard (hok rfl hzone tab htab hhover)
      · obtain ⟨tab', htab', hid, -, hopened⟩ := hpast.asked _ hasked
        obtain rfl := List.inj_on_of_nodup_map hpast.nodup htab' htab hid
        exact ⟨rfl, hasked, hopened⟩
    · intro id hid
      obtain ⟨tab, htab, heq, hguard, hopened⟩ := (hpast.step heffect hok).asked id hid
      exact ⟨tab, htab, heq, hguard.1, hopened⟩

/-- The dialog is shown for the Strict tab and confirmed. -/
theorem neverLost_iff_confirmed : ∃ tr tb, Run (ofFun step) (new : TabBar Rat) tr tb ∧
    tr.map Step.input = [.tabCloseRequested 4, .stripMoved 300.0, .strictCloseConfirmed] ∧
    (NeverLost tr ↔ ∀ x ∈ tr, PressAllowed x) := by
  have hexec : (Transition.exec step (new : TabBar Rat)
      [.tabCloseRequested 4, .stripMoved 300.0, .strictCloseConfirmed]).isSome = true := rfl
  obtain ⟨tr, tb, hrun, hinputs⟩ := Transition.exists_run hexec
  exact ⟨tr, tb, hrun, hinputs, neverLost_iff (by decide) rfl hrun⟩

/-- The Strict tab of the start is closed on the strip, and nobody is asked. -/
theorem closed_unasked : ∃ tr tb, Run (ofFun step) (new : TabBar Rat) tr tb ∧
    tr.map Step.input = [.tabActivated 4, .stripMoved 1200.0, .stripPressed] ∧
    ¬ NeverLost tr := by
  have hexec : (Transition.exec step (new : TabBar Rat)
      [.tabActivated 4, .stripMoved 1200.0, .stripPressed]).any (fun p => p.1.any fun x =>
        x.pre.tabs.any fun tab => decide (tab.Guarded ∧ tab ∉ x.post.tabs)) = true := by
    decide +kernel
  obtain ⟨tr, tb, hrun, hinputs, hleft⟩ := Transition.exists_run_where hexec
  refine ⟨tr, tb, hrun, hinputs, fun hlost => ?_⟩
  obtain ⟨x, hx, hany⟩ := List.any_eq_true.mp hleft
  obtain ⟨tab, htab, hgone⟩ := List.any_eq_true.mp hany
  rw [decide_eq_true_eq] at hgone
  obtain ⟨before, after, htr⟩ := List.append_of_mem hx
  obtain ⟨hinput, -⟩ := (hlost before x after htr).1 tab htab hgone.1 hgone.2
  have hmem := List.mem_map_of_mem (f := Step.input) hx
  rw [hinputs, hinput] at hmem
  simp at hmem

end TabBar

end Ui

end DevBrowse
