import DevBrowse.Lib.Transition
import DevBrowse.Ui.AddressBar

/-!
# Suggestions

A keystroke starts a task: it waits 200 ms, asks the provider about the text and hands its answer
to the address bar. The input holds a handle to abort the task of the last keystroke, and uses it
at the next keystroke, when an address is committed and when the bar starts over for a tab, but
not when the bar loses the focus in another way. So a text that was given up may still be asked
about, and the answer is shown over a page. Where nothing goes on when the bar loses the focus,
the provider is asked about what is in the input of a bar that has the focus, and the list is
shown in one only (`DevBrowse.Ui.Suggesting.suggestions_follow`).

Time is not tracked: that a task has waited long enough is an event of its own. Nothing is lost
by that, as there is never more than one task that was not aborted.
-/

namespace DevBrowse

namespace Ui

/-! ### The list -/

namespace SuggestionList

variable {list : SuggestionList}

/-- What is shown is not empty, and what is selected is in the list. -/
structure WellFormed (list : SuggestionList) : Prop where
  /-- An empty list is not shown. -/
  items_ne_nil : list.isOpen = true → list.items ≠ []
  /-- A text of the list is selected. -/
  selected_lt : ∀ idx, list.selected = some idx → idx < list.items.length

theorem wellFormed_new : WellFormed .new := ⟨by simp [new], by simp [new]⟩

theorem WellFormed.update (h : list.WellFormed) (ev : SuggestionEvent) :
    (list.update ev).WellFormed := by
  cases ev with
  | loaded items => exact ⟨by simp [SuggestionList.update], by simp [SuggestionList.update]⟩
  | selected idx =>
    rw [SuggestionList.update]
    split_ifs with hlt
    · refine ⟨h.items_ne_nil, ?_⟩
      rintro _ ⟨⟩
      exact hlt
    · exact h
  | dismissed => exact ⟨by simp [SuggestionList.update], by simp [SuggestionList.update]⟩

end SuggestionList

namespace AddressBar

@[simp] theorem barState_resetForTab (ab : AddressBar) (tabId : ℕ) (tabUrl : Text) (mode : Mode) :
    (ab.resetForTab tabId tabUrl mode).barState = .rest := by
  rw [resetForTab]
  dsimp only
  split_ifs <;> rfl

@[simp] theorem suggestions_resetForTab (ab : AddressBar) (tabId : ℕ) (tabUrl : Text)
    (mode : Mode) :
    (ab.resetForTab tabId tabUrl mode).suggestions = ab.suggestions.update .dismissed := by
  rw [resetForTab]
  dsimp only
  split_ifs <;> rfl

/-- A message does nothing to the suggestions but what one of their events does. -/
theorem wellFormed_update {ab : AddressBar} (h : ab.suggestions.WellFormed) (msg : AddressBarMsg) :
    (ab.update msg).1.suggestions.WellFormed := by
  cases msg with
  | suggestion ev => exact h.update ev
  | urlInputChanged text =>
    rw [update]
    dsimp only
    split_ifs
    · exact h.update .dismissed
    · exact h
  | focusLost | escPressed =>
    rw [update, unfocus]
    split_ifs
    · exact h.update .dismissed
    · exact h
  | navigatePressed =>
    rw [update]
    split_ifs
    · exact h
    · exact h.update .dismissed
  | scrolledDown | scrolledUp | autoDismissConvertChip =>
    rw [update]
    split_ifs <;> exact h
  | _ => exact h

end AddressBar

/-! ### The task of a keystroke -/

/-- How far the task of a keystroke has got. -/
inductive DebounceTask where
  /-- It waits until 200 ms are over. -/
  | waiting (text : Text)
  /-- It has asked the provider. -/
  | asking

/-- What a message makes of the task whose handle the input holds: a keystroke aborts it and
starts another one, and an address that is committed aborts it. -/
def debounce (ab : AddressBar) (task : Option DebounceTask) : AddressBarMsg → Option DebounceTask
  | .urlInputChanged text => if text.isEmpty then none else some (.waiting text)
  | .navigatePressed => if ab.barState = .focused then none else task
  | _ => task

/-- **The address bar with what goes on beside it.** -/
structure Suggesting where
  /-- The bar. -/
  bar : AddressBar
  /-- The task that was not aborted, until it has an answer. -/
  task : Option DebounceTask
  /-- The answers that are on their way to the bar, where no handle reaches them. -/
  arriving : List (List Text)

/-- What happens to the address bar, or beside it. -/
inductive SuggestingEvent where
  /-- A message that is not an answer. -/
  | message (msg : AddressBarMsg)
  /-- The shell shows another tab. -/
  | resetForTab (tabId : ℕ) (tabUrl : Text) (mode : Mode)
  /-- The 200 ms of the task are over: it asks the provider about a text. -/
  | ask (text : Text)
  /-- The provider answers. -/
  | answer (items : List Text)
  /-- One of the answers gets to the bar. -/
  | deliver (i : ℕ)

namespace Suggesting

open Transition

/-- At the start nothing goes on. -/
def start (bar : AddressBar) : Suggesting := ⟨bar, none, []⟩

/-- **What an event does.** -/
inductive Steps (s : Suggesting) : SuggestingEvent → Suggesting → Prop
  /-- A message is handled. -/
  | message (msg : AddressBarMsg) (h : ∀ items, msg ≠ .suggestion (.loaded items)) :
      Steps s (.message msg) ⟨(s.bar.update msg).1, debounce s.bar s.task msg, s.arriving⟩
  /-- The bar starts over, and the task is aborted. -/
  | resetForTab {tabId : ℕ} {tabUrl : Text} {mode : Mode} :
      Steps s (.resetForTab tabId tabUrl mode)
        ⟨s.bar.resetForTab tabId tabUrl mode, none, s.arriving⟩
  /-- The task has waited. -/
  | ask {text : Text} (h : s.task = some (.waiting text)) :
      Steps s (.ask text) { s with task := some .asking }
  /-- The task is done, and hands the answer over. -/
  | answer (items : List Text) (h : s.task = some .asking) :
      Steps s (.answer items) { s with task := none, arriving := s.arriving ++ [items] }
  /-- The answer is a message to the bar. -/
  | deliver (i : ℕ) {items : List Text} (h : s.arriving[i]? = some items) :
      Steps s (.deliver i)
        { s with
          bar := (s.bar.update (.suggestion (.loaded items))).1
          arriving := s.arriving.eraseIdx i }

variable {s s' : Suggesting} {ev : SuggestingEvent} {bar : AddressBar}
  {tr : List (Step Suggesting SuggestingEvent)}

/-! ### What is asked -/

/-- What holds in every run: the task is about the text that is in the input. -/
structure Sound (s : Suggesting) : Prop where
  /-- The task is about what is in the input. -/
  text_eq : ∀ text, s.task = some (.waiting text) → text = s.bar.urlInput.text
  /-- The list is in order. -/
  wellFormed : s.bar.suggestions.WellFormed

/-- A message that keeps the task keeps the text in the input. -/
theorem text_eq_message (h : ∀ text, s.task = some (.waiting text) → text = s.bar.urlInput.text)
    (msg : AddressBarMsg) (text : Text)
    (htask : debounce s.bar s.task msg = some (.waiting text)) :
    text = (s.bar.update msg).1.urlInput.text := by
  cases msg with
  | urlInputChanged typed =>
    rw [debounce] at htask
    split_ifs at htask
    obtain ⟨⟩ := htask
    rfl
  | navigatePressed =>
    rw [debounce] at htask
    split_ifs at htask with hfocus
    rw [AddressBar.update, if_pos hfocus]
    exact h text htask
  | focusLost | escPressed =>
    rw [AddressBar.update, AddressBar.unfocus]
    split_ifs <;> exact h text htask
  | scrolledDown | scrolledUp | autoDismissConvertChip =>
    rw [AddressBar.update]
    split_ifs <;> exact h text htask
  | _ => exact h text htask

theorem Sound.steps (h : s.Sound) (hstep : Steps s ev s') : s'.Sound := by
  cases hstep with
  | message msg =>
    exact ⟨text_eq_message h.text_eq msg, AddressBar.wellFormed_update h.wellFormed msg⟩
  | resetForTab =>
    refine ⟨by simp, ?_⟩
    rw [AddressBar.suggestions_resetForTab]
    exact h.wellFormed.update .dismissed
  | ask => exact ⟨by simp, h.wellFormed⟩
  | answer => exact ⟨by simp, h.wellFormed⟩
  | deliver => exact ⟨h.text_eq, AddressBar.wellFormed_update h.wellFormed _⟩

/-- **Whatever happens, the provider is asked about what is in the input.** -/
theorem Sound.run (hnew : bar.suggestions = .new) (h : Run Steps (start bar) tr s) : s.Sound := by
  refine h.invariant (I := fun _ => Sound) ⟨by simp [start], ?_⟩ fun _ _ _ _ _ hs => hs.steps
  rw [start, hnew]
  exact SuggestionList.wellFormed_new

/-! ### Who is asked for it -/

/-- Nothing goes on beside the bar. -/
def Quiet (s : Suggesting) : Prop := s.task = none ∧ s.arriving = []

/-- What goes on, and what is shown, is for a bar that has the focus. -/
def Attended (s : Suggesting) : Prop :=
  s.Quiet ∧ s.bar.suggestions.isOpen = false ∨ s.bar.barState = .focused

/-- **The bar is not disturbed**: it does not lose the focus while something goes on that is not
stopped then, and is not typed in where it does not get the focus. -/
def Undisturbed (s : Suggesting) : SuggestingEvent → Prop
  | .message .focusLost | .message .escPressed => s.bar.barState = .focused → s.Quiet
  | .message .interstitialDismissed =>
    s.bar.barState = .focused → s.Quiet ∧ s.bar.suggestions.isOpen = false
  | .message (.urlInputChanged text) =>
    text ≠ [] → s.bar.barState = .rest ∨ s.bar.barState = .focused
  | .message .navigatePressed => s.bar.barState = .focused → s.arriving = []
  | .resetForTab _ _ _ => s.arriving = []
  | _ => True

theorem Attended.message {msg : AddressBarMsg} (h : s.Attended)
    (hmsg : ∀ items, msg ≠ .suggestion (.loaded items)) (hpeace : s.Undisturbed (.message msg)) :
    Attended ⟨(s.bar.update msg).1, debounce s.bar s.task msg, s.arriving⟩ := by
  cases msg with
  | focusGained => exact .inr rfl
  | focusLost | escPressed =>
    rw [AddressBar.update, AddressBar.unfocus]
    split_ifs with hfocus
    · exact .inl ⟨hpeace hfocus, rfl⟩
    · exact h
  | interstitialDismissed =>
    rcases h with hquiet | hfocus
    · exact .inl hquiet
    · exact .inl (hpeace hfocus)
  | navigatePressed =>
    rw [AddressBar.update, debounce]
    by_cases hfocus : s.bar.barState = .focused
    · rw [if_neg (not_not.mpr hfocus), if_pos hfocus]
      exact .inl ⟨⟨rfl, hpeace hfocus⟩, rfl⟩
    · rw [if_pos hfocus, if_neg hfocus]
      exact h
  | urlInputChanged text =>
    rw [AddressBar.update, debounce]
    by_cases hnil : text = []
    · -- the task is aborted, and the list is not shown any more
      rw [if_pos (List.isEmpty_iff.mpr hnil), if_pos (List.isEmpty_iff.mpr hnil)]
      rcases h with ⟨⟨-, harriving⟩, -⟩ | hfocus
      · exact .inl ⟨⟨rfl, harriving⟩, rfl⟩
      · exact .inr (by simp [hfocus])
    · exact .inr (by rcases hpeace hnil with hrest | hfocus <;> simp [*])
  | suggestion ev =>
    cases ev with
    | loaded items => exact absurd rfl (hmsg items)
    | selected idx =>
      rw [AddressBar.update, SuggestionList.update]
      split_ifs <;> exact h
    | dismissed => exact h.imp (fun hquiet => ⟨hquiet.1, rfl⟩) id
  | scrolledDown | scrolledUp =>
    rw [AddressBar.update]
    split_ifs with hstate
    · refine h.imp id fun hfocus => ?_
      rw [hfocus] at hstate
      cases hstate
    · exact h
  | autoDismissConvertChip =>
    rw [AddressBar.update]
    split_ifs <;> exact h
  | _ => exact h

/-- **What goes on is for a bar that has the focus**, if the bar is not disturbed. -/
theorem Attended.steps (h : s.Attended) (hpeace : s.Undisturbed ev) (hstep : Steps s ev s') :
    s'.Attended := by
  cases hstep with
  | message msg hmsg => exact h.message hmsg hpeace
  | resetForTab => exact .inl ⟨⟨rfl, hpeace⟩, by rw [AddressBar.suggestions_resetForTab]; rfl⟩
  | ask htask | answer _ htask =>
    rcases h with ⟨⟨hnone, -⟩, -⟩ | hfocus
    · rw [hnone] at htask
      cases htask
    · exact .inr hfocus
  | deliver i harrived =>
    rcases h with ⟨⟨-, hnil⟩, -⟩ | hfocus
    · rw [hnil] at harrived
      cases harrived
    · exact .inr hfocus

/-! ### Every run -/

/-- The provider is asked about what is in the input, for a bar that has the focus. -/
def AsksFocused (x : Step Suggesting SuggestingEvent) : Prop :=
  ∀ text, x.input = .ask text →
    text = x.pre.bar.urlInput.text ∧ x.pre.bar.barState = .focused

/-- The list is shown in a bar that has the focus; it is not empty, and what is selected is one
of its texts. -/
def ShowsFocused (s : Suggesting) : Prop :=
  s.bar.suggestions.isOpen = true → s.bar.barState = .focused ∧ s.bar.suggestions.items ≠ [] ∧
    ∀ idx, s.bar.suggestions.selected = some idx → idx < s.bar.suggestions.items.length

theorem Attended.run (hnew : bar.suggestions = .new) (h : Run Steps (start bar) tr s)
    (hpeace : ∀ x ∈ tr, x.pre.Undisturbed x.input) : s.Attended := by
  have hstart : (start bar).Attended := .inl ⟨⟨rfl, rfl⟩, by rw [start, hnew]; rfl⟩
  exact h.invariant_where (I := fun _ => Attended) (C := fun x => x.pre.Undisturbed x.input)
    hstart (fun _ _ _ _ _ hs hstep hC => hs.steps hC hstep) hpeace

/-- **Suggestions follow the input that has the focus**, in every run in which the bar is not
disturbed while something goes on. -/
theorem suggestions_follow (hnew : bar.suggestions = .new) (h : Run Steps (start bar) tr s)
    (hpeace : ∀ x ∈ tr, x.pre.Undisturbed x.input) :
    (∀ x ∈ tr, AsksFocused x) ∧ s.ShowsFocused := by
  constructor
  · rintro ⟨pre, input, post⟩ hx text rfl
    obtain ⟨before, after, rfl, hrun, hstep, -⟩ := h.of_mem hx
    have hsound := Sound.run hnew hrun
    have hattended := Attended.run hnew hrun fun x hx => hpeace x (List.mem_append_left _ hx)
    dsimp only at hstep
    cases hstep with
    | ask htask =>
      rcases hattended with ⟨⟨hnone, -⟩, -⟩ | hfocus
      · rw [hnone] at htask
        cases htask
      · exact ⟨hsound.text_eq text htask, hfocus⟩
  · intro hopen
    have hlist := (Sound.run hnew h).wellFormed
    rcases Attended.run hnew h hpeace with ⟨-, hclosed⟩ | hfocus
    · rw [hopen] at hclosed
      cases hclosed
    · exact ⟨hfocus, hlist.items_ne_nil hopen, hlist.selected_lt⟩

/-- A text is typed, suggested, and the suggestion is there when the bar is left. -/
theorem suggestions_follow_typed : ∃ tr s, Run Steps (start (.newStub .standard)) tr s ∧
    tr.map Step.input = [.message (.urlInputChanged ['a']), .ask ['a'], .answer [['a', 'b']],
      .deliver 0, .message .escPressed] ∧
    (∀ x ∈ tr, AsksFocused x) ∧ s.ShowsFocused := by
  have hnil : Run Steps (start (.newStub .standard)) [] (start (.newStub .standard)) := .nil
  have hasked := (hnil.snoc (.message (.urlInputChanged ['a']) (by simp))).snoc (.ask rfl)
  have hshown := (hasked.snoc (.answer [['a', 'b']] rfl)).snoc (.deliver 0 rfl)
  have hrun := hshown.snoc (.message .escPressed (by simp))
  refine ⟨_, _, hrun, rfl, suggestions_follow rfl hrun ?_⟩
  simp only [List.nil_append, List.cons_append, List.forall_mem_cons]
  exact ⟨fun _ => .inl rfl, trivial, trivial, trivial, fun _ => ⟨rfl, rfl⟩, by simp⟩

/-- **The bar is left while the task waits.** The provider is asked all the same, and its answer
is shown in a bar that has not got the focus. -/
theorem not_suggestions_follow :
    (¬ ∀ (bar : AddressBar) tr s, bar.suggestions = .new → Run Steps (start bar) tr s →
      ∀ x ∈ tr, AsksFocused x) ∧
    ¬ ∀ (bar : AddressBar) tr s, bar.suggestions = .new → Run Steps (start bar) tr s →
      s.ShowsFocused := by
  have hnil : Run Steps (start (.newStub .standard)) [] (start (.newStub .standard)) := .nil
  have hleft := (hnil.snoc (.message (.urlInputChanged ['a']) (by simp))).snoc
    (.message .escPressed (by simp))
  have hasked := hleft.snoc (.ask rfl)
  have hshown := (hasked.snoc (.answer [['a', 'b']] rfl)).snoc (.deliver 0 rfl)
  constructor
  · intro h
    have hfocus := (h _ _ _ rfl hasked _ (List.mem_append_right _ (List.mem_singleton.mpr rfl))
      ['a'] rfl).2
    cases hfocus
  · intro h
    have hfocus := (h _ _ _ rfl hshown rfl).1
    cases hfocus

end Suggesting

end Ui

end DevBrowse
