import DevBrowse.Basic
import DevBrowse.Lib.Text
import Mathlib.Data.Finset.Erase
import Mathlib.Data.Finset.Insert

/-!
# The address bar

The bar shows the address of the active tab, takes a new one, counts what was blocked and
offers to convert a Standard tab to Strict. It keeps a mode of its own, which only the shell
sets (`DevBrowse.Ui.AddressBar.mode_update`).
-/

namespace DevBrowse

namespace Ui

/-- Whether the button that converts to Strict is shown, and why. -/
inductive ChipState where
  /-- No address was committed in the tab yet. -/
  | freshTab
  /-- The address came from outside. -/
  | externalUrl
  /-- It is not shown in this tab any more. -/
  | hidden
  deriving DecidableEq

/-- The states of the bar. -/
inductive BarState where
  | rest
  | focused
  | navigating
  /-- Small, after scrolling down. -/
  | pill
  | errorInterstitial
  deriving DecidableEq

/-! ### The badge -/

/-- What the badge shows. -/
inductive BadgeMode where
  | hidden
  | blocked (count : ℕ)
  | strict
  deriving DecidableEq

/-- What the badge shows in a mode, after something was blocked so often. -/
def BadgeMode.fromModeAndCount (mode : Mode) (count : ℕ) : BadgeMode :=
  match mode with
  | .strict => .strict
  | .standard => if 0 < count then .blocked count else .hidden

/-- What happens to the badge. -/
inductive BadgeEvent where
  /-- A request to the domain was blocked. -/
  | blockIncrement (domain : Text)
  | popoverToggled
  | popoverClosed
  /-- Another page is loaded. -/
  | reset

/-- The badge: what it shows, whether its list is open, the list and the count. -/
structure BadgeSlot where
  /-- What it shows. -/
  mode : BadgeMode
  /-- Whether the list is open. -/
  popoverOpen : Bool
  /-- The domains of the list, with how often they were blocked. -/
  rows : List (Text × ℕ)
  /-- How often something was blocked. -/
  blockCount : ℕ
  deriving DecidableEq

namespace BadgeSlot

/-- A badge without a block. -/
def new (browsingMode : Mode) : BadgeSlot := ⟨.fromModeAndCount browsingMode 0, false, [], 0⟩

/-- The list with one more block of a domain. -/
def addRow (domain : Text) : List (Text × ℕ) → List (Text × ℕ)
  | [] => [(domain, 1)]
  | row :: rows =>
    if row.1 = domain then (row.1, row.2 + 1) :: rows else row :: addRow domain rows

/-- The number of domains the list holds. -/
def maxRows : ℕ := 256

/-- What an event does to the badge. -/
def update (badge : BadgeSlot) : BadgeEvent → BadgeSlot
  | .blockIncrement domain =>
    let count := badge.blockCount + 1
    let mode : Mode := if badge.mode = .strict then .strict else .standard
    let rows := addRow domain badge.rows
    { badge with
      blockCount := count
      mode := .fromModeAndCount mode count
      rows := if maxRows < rows.length then rows.drop 1 else rows }
  | .popoverToggled => { badge with popoverOpen := !badge.popoverOpen }
  | .popoverClosed => { badge with popoverOpen := false }
  | .reset =>
    ⟨if badge.mode = .strict then .strict else .hidden, false, [], 0⟩

/-- Take over a mode. A Strict badge has no list to open. -/
def syncMode (badge : BadgeSlot) (browsingMode : Mode) : BadgeSlot :=
  { badge with
    mode := .fromModeAndCount browsingMode badge.blockCount
    popoverOpen := if browsingMode = .strict then false else badge.popoverOpen }

end BadgeSlot

/-! ### The input -/

/-- What the text in the input is. -/
inductive UrlValidation where
  | empty
  | valid
  /-- Something to search for. -/
  | invalid
  deriving DecidableEq

/-- Tell an address from something to search for. -/
def UrlValidation.classify (text : Text) : UrlValidation :=
  if text.isEmpty then .empty
  else if "http://".toList.isPrefixOf text || "https://".toList.isPrefixOf text ||
      (text.contains '.' && !text.contains ' ') then .valid
  else .invalid

/-- The input: its text, and what that is. -/
structure UrlInput where
  /-- The text. -/
  text : Text
  /-- What the text is. -/
  validation : UrlValidation
  deriving DecidableEq

namespace UrlInput

/-- The empty input. -/
def new : UrlInput := ⟨[], .empty⟩

/-- The input with another text. -/
def onChanged (newText : Text) : UrlInput := ⟨newText, .classify newText⟩

end UrlInput

/-- What happens to the suggestions. -/
inductive SuggestionEvent where
  /-- Their texts have come. -/
  | loaded (items : List Text)
  | selected (idx : ℕ)
  | dismissed

/-- The suggestions: their texts, the one that is selected and whether they are shown. -/
structure SuggestionList where
  /-- The texts. -/
  items : List Text
  /-- The one that is selected. -/
  selected : Option ℕ
  /-- Whether they are shown. -/
  isOpen : Bool
  deriving DecidableEq

namespace SuggestionList

/-- No suggestions. -/
def new : SuggestionList := ⟨[], none, false⟩

/-- What an event does to the suggestions. -/
def update (list : SuggestionList) : SuggestionEvent → SuggestionList
  | .loaded items => ⟨items, none, !items.isEmpty⟩
  | .selected idx =>
    if idx < list.items.length then { list with selected := some idx } else list
  | .dismissed => { list with isOpen := false, selected := none }

end SuggestionList

/-! ### The bar -/

/-- The messages to the address bar. -/
inductive AddressBarMsg where
  | urlInputChanged (text : Text)
  | suggestion (ev : SuggestionEvent)
  | badge (ev : BadgeEvent)
  | focusGained
  | focusLost
  | navigatePressed
  | escPressed
  | scrolledDown
  | scrolledUp
  | interstitialDismissed
  | convertToStrictClicked
  | dismissConvertChip
  | convertChipEntered
  | convertChipExited
  | convertPopupEntered
  | convertPopupExited
  | strictPopupGracePeriodEnd
  | modeChanged (mode : Mode)
  | reducedMotionChanged (v : Bool)
  | navigatedExternally (url : Text)
  | autoDismissConvertChip
  | networkViewerRequested
  | noop

/-- What the address bar tells the shell. -/
inductive AddressBarEvent where
  | navigationCommitted (url : Text) (mode : Mode)
  | convertToStrictClicked
  | networkViewerRequested
  deriving DecidableEq

/-- **The address bar.** -/
structure AddressBar where
  /-- The state it is in. -/
  barState : BarState
  /-- The input. -/
  urlInput : UrlInput
  /-- The suggestions. -/
  suggestions : SuggestionList
  /-- The badge. -/
  badge : BadgeSlot
  /-- The mode it shows. -/
  mode : Mode
  /-- Whether there is to be less motion. -/
  reducedMotion : Bool
  /-- Whether the button that converts to Strict is shown. -/
  chipState : ChipState
  /-- The address that was committed last. -/
  currentUrl : Text
  /-- Whether the cursor is over the button. -/
  convertChipHovered : Bool
  /-- Whether the cursor is over what the button opens. -/
  convertPopupHovered : Bool
  /-- Whether that stays for a moment after the cursor has left the button. -/
  strictPopupGrace : Bool
  /-- The active tab. -/
  currentTabId : ℕ
  /-- The tabs where the user does not want the button. -/
  dismissedTabIds : Finset ℕ

namespace AddressBar

/-- The bar at the start, with the blocks of a demonstration. -/
def newStub (mode : Mode) : AddressBar where
  barState := .rest
  urlInput := .new
  suggestions := .new
  badge := (List.range 12).foldl (fun badge i => badge.update
    (.blockIncrement ("tracker".toList ++ Nat.toDigits 10 i ++ ".io".toList))) (.new mode)
  mode := mode
  reducedMotion := false
  chipState := .freshTab
  currentUrl := []
  convertChipHovered := false
  convertPopupHovered := false
  strictPopupGrace := false
  currentTabId := 0
  dismissedTabIds := ∅

/-- **Take over a mode.** -/
def syncMode (ab : AddressBar) (mode : Mode) : AddressBar :=
  { ab with
    mode := mode
    badge := ab.badge.syncMode mode
    convertChipHovered := false
    convertPopupHovered := false
    strictPopupGrace := false }

/-- **Start over for a tab** that is new or has become the active one. -/
def resetForTab (ab : AddressBar) (tabId : ℕ) (tabUrl : Text) (mode : Mode) : AddressBar :=
  let reset :=
    { ab.syncMode mode with
      currentTabId := tabId
      urlInput := .new
      barState := .rest
      suggestions := ab.suggestions.update .dismissed
      currentUrl := tabUrl }
  if tabUrl.isEmpty then
    { reset with chipState := if tabId ∈ ab.dismissedTabIds then .hidden else .freshTab }
  else { reset with chipState := .hidden, dismissedTabIds := ab.dismissedTabIds.erase tabId }

/-- Forget what the user wanted in a tab that is closed. -/
def forgetTab (ab : AddressBar) (tabId : ℕ) : AddressBar :=
  { ab with dismissedTabIds := ab.dismissedTabIds.erase tabId }

/-- The bar without the focus, if it has it. -/
def unfocus (ab : AddressBar) : AddressBar :=
  if ab.barState = .focused then
    { ab with barState := .rest, suggestions := ab.suggestions.update .dismissed }
  else ab

/-- The address that is committed: what was typed, or a search for it. -/
def committedUrl (ab : AddressBar) : Text :=
  if ab.urlInput.validation = .valid then ab.urlInput.text
  else "https://duckduckgo.com/?q=".toList ++ ab.urlInput.text

/-- **What a message does to the address bar.** -/
def update (ab : AddressBar) : AddressBarMsg → AddressBar × Option AddressBarEvent
  | .focusGained => ({ ab with barState := .focused }, none)
  | .focusLost => (ab.unfocus, none)
  | .escPressed => (ab.unfocus, none)
  | .scrolledDown => (if ab.barState = .rest then { ab with barState := .pill } else ab, none)
  | .scrolledUp => (if ab.barState = .pill then { ab with barState := .rest } else ab, none)
  | .navigatePressed =>
    if ab.barState ≠ .focused then (ab, none)
    else
      ({ ab with
          currentUrl := ab.committedUrl
          chipState := .hidden
          barState := .navigating
          urlInput := .new
          suggestions := ab.suggestions.update .dismissed },
        some (.navigationCommitted ab.committedUrl ab.mode))
  | .interstitialDismissed => ({ ab with barState := .rest }, none)
  | .convertToStrictClicked =>
    (ab, if ab.mode = .standard then some .convertToStrictClicked else none)
  | .urlInputChanged text =>
    ({ ab with
        barState := if ab.barState = .rest then .focused else ab.barState
        urlInput := .onChanged text
        suggestions := if text.isEmpty then ab.suggestions.update .dismissed
          else ab.suggestions }, none)
  | .suggestion ev => ({ ab with suggestions := ab.suggestions.update ev }, none)
  | .badge ev => ({ ab with badge := ab.badge.update ev }, none)
  | .modeChanged mode => (ab.syncMode mode, none)
  | .reducedMotionChanged v => ({ ab with reducedMotion := v }, none)
  | .dismissConvertChip =>
    ({ ab with
        chipState := .hidden
        convertChipHovered := false
        dismissedTabIds := insert ab.currentTabId ab.dismissedTabIds }, none)
  | .navigatedExternally url =>
    ({ ab with currentUrl := url, chipState := .externalUrl, convertChipHovered := false }, none)
  | .autoDismissConvertChip =>
    (if ab.chipState = .externalUrl then
      { ab with chipState := .hidden, convertChipHovered := false } else ab, none)
  | .convertChipEntered => ({ ab with convertChipHovered := true }, none)
  | .convertChipExited =>
    ({ ab with convertChipHovered := false, strictPopupGrace := true }, none)
  | .convertPopupEntered =>
    ({ ab with convertPopupHovered := true, strictPopupGrace := false }, none)
  | .convertPopupExited => ({ ab with convertPopupHovered := false }, none)
  | .strictPopupGracePeriodEnd => ({ ab with strictPopupGrace := false }, none)
  | .networkViewerRequested =>
    ({ ab with badge := ab.badge.update .popoverClosed }, some .networkViewerRequested)
  | .noop => (ab, none)

/-! ### The mode it shows -/

variable {ab : AddressBar} {msg : AddressBarMsg}

@[simp] theorem mode_syncMode (ab : AddressBar) (mode : Mode) : (ab.syncMode mode).mode = mode :=
  rfl

@[simp] theorem mode_forgetTab (ab : AddressBar) (tabId : ℕ) :
    (ab.forgetTab tabId).mode = ab.mode := rfl

@[simp] theorem mode_resetForTab (ab : AddressBar) (tabId : ℕ) (tabUrl : Text) (mode : Mode) :
    (ab.resetForTab tabId tabUrl mode).mode = mode := by
  rw [resetForTab]
  dsimp only
  split_ifs <;> rfl

@[simp] theorem mode_unfocus (ab : AddressBar) : ab.unfocus.mode = ab.mode := by
  rw [unfocus]
  split_ifs <;> rfl

/-- **The bar does not change the mode it shows by itself.** -/
theorem mode_update (h : ∀ mode, msg ≠ .modeChanged mode) : (ab.update msg).1.mode = ab.mode := by
  cases msg with
  | modeChanged mode => exact absurd rfl (h mode)
  | focusLost | escPressed => exact mode_unfocus ab
  | scrolledDown | scrolledUp | navigatePressed | autoDismissConvertChip =>
    rw [update]
    split_ifs <;> rfl
  | _ => rfl

theorem event_update_convert (h : (ab.update msg).2 = some .convertToStrictClicked) :
    msg = .convertToStrictClicked ∧ ab.mode = .standard ∧ (ab.update msg).1 = ab := by
  cases msg with
  | convertToStrictClicked =>
    rw [update] at h
    split_ifs at h with hmode
    exact ⟨rfl, hmode, rfl⟩
  | navigatePressed =>
    rw [update] at h
    split_ifs at h
    all_goals cases h
  | _ => cases h

/-- An address is committed with the enter key, from a bar that has the focus. -/
theorem event_update_commit {url : Text} {mode : Mode}
    (h : (ab.update msg).2 = some (.navigationCommitted url mode)) :
    msg = .navigatePressed ∧ ab.barState = .focused ∧ url = ab.committedUrl ∧ mode = ab.mode := by
  cases msg with
  | navigatePressed =>
    rw [update] at h
    split_ifs at h with hfocus
    obtain ⟨rfl, rfl⟩ := h
    exact ⟨rfl, not_not.mp hfocus, rfl, rfl⟩
  | convertToStrictClicked =>
    rw [update] at h
    split_ifs at h
    cases h
  | _ => cases h

theorem update_commit (hfocus : ab.barState = .focused) :
    (ab.update .navigatePressed).1.chipState = .hidden ∧
      (ab.update .navigatePressed).1.currentUrl = ab.committedUrl ∧
      (ab.update .navigatePressed).2 = some (.navigationCommitted ab.committedUrl ab.mode) := by
  rw [update, if_neg (not_not.mpr hfocus)]
  exact ⟨rfl, rfl, rfl⟩

/-! ### Starting over for a tab -/

variable {tabId : ℕ} {tabUrl : Text} {mode : Mode}

@[simp] theorem currentUrl_resetForTab (ab : AddressBar) (tabId : ℕ) (tabUrl : Text) (mode : Mode) :
    (ab.resetForTab tabId tabUrl mode).currentUrl = tabUrl := by
  rw [resetForTab]
  dsimp only
  split_ifs <;> rfl

@[simp] theorem urlInput_resetForTab (ab : AddressBar) (tabId : ℕ) (tabUrl : Text) (mode : Mode) :
    (ab.resetForTab tabId tabUrl mode).urlInput = .new := by
  rw [resetForTab]
  dsimp only
  split_ifs <;> rfl

theorem chipState_resetForTab_nil (ab : AddressBar) (tabId : ℕ) (mode : Mode) :
    (ab.resetForTab tabId [] mode).chipState =
      if tabId ∈ ab.dismissedTabIds then .hidden else .freshTab := rfl

theorem chipState_resetForTab (ab : AddressBar) (tabId : ℕ) (mode : Mode) (h : tabUrl ≠ []) :
    (ab.resetForTab tabId tabUrl mode).chipState = .hidden := by
  rw [resetForTab]
  dsimp only
  rw [if_neg (mt List.isEmpty_iff.mp h)]

theorem dismissedTabIds_resetForTab (ab : AddressBar) (tabId : ℕ) (mode : Mode) (h : tabUrl ≠ []) :
    (ab.resetForTab tabId tabUrl mode).dismissedTabIds = ab.dismissedTabIds.erase tabId := by
  rw [resetForTab]
  dsimp only
  rw [if_neg (mt List.isEmpty_iff.mp h)]

theorem dismissedTabIds_resetForTab_subset (ab : AddressBar) (tabId : ℕ) (tabUrl : Text)
    (mode : Mode) :
    (ab.resetForTab tabId tabUrl mode).dismissedTabIds ⊆ ab.dismissedTabIds := by
  by_cases h : tabUrl = []
  · rw [h]
    exact Finset.Subset.refl _
  · rw [dismissedTabIds_resetForTab ab tabId mode h]
    exact Finset.erase_subset _ _

/-! ### What the shell does to it -/

/-- **What the shell makes of the bar beside handing it messages**: it tells it a mode, lets it
start over for a tab and forget one, and tells it how much motion there is to be. -/
inductive Touched (ab : AddressBar) : AddressBar → Prop
  | refl : Touched ab ab
  | syncMode {ab' : AddressBar} (mode : Mode) (h : Touched ab ab') : Touched ab (ab'.syncMode mode)
  | resetForTab {ab' : AddressBar} (tabId : ℕ) (tabUrl : Text) (mode : Mode)
      (h : Touched ab ab') : Touched ab (ab'.resetForTab tabId tabUrl mode)
  | forgetTab {ab' : AddressBar} (tabId : ℕ) (h : Touched ab ab') : Touched ab (ab'.forgetTab tabId)
  | reducedMotion {ab' : AddressBar} (v : Bool) (h : Touched ab ab') :
      Touched ab { ab' with reducedMotion := v }

variable {ab' : AddressBar}

/-- The shell lets no tab be dismissed. -/
theorem Touched.subset (h : Touched ab ab') : ab'.dismissedTabIds ⊆ ab.dismissedTabIds := by
  induction h with
  | refl => exact Finset.Subset.refl _
  | syncMode _ _ ih | reducedMotion _ _ ih => exact ih
  | resetForTab tabId tabUrl mode _ ih =>
    exact (dismissedTabIds_resetForTab_subset _ tabId tabUrl mode).trans ih
  | forgetTab tabId _ ih => exact (Finset.erase_subset _ _).trans ih

/-- What is in the input was typed, or nothing is. -/
def Typed (ab : AddressBar) : Prop :=
  ab.urlInput = .new ∨ ∃ text, ab.urlInput = .onChanged text

theorem Touched.typed (h : Touched ab ab') (hab : ab.Typed) : ab'.Typed := by
  induction h with
  | refl => exact hab
  | syncMode _ _ ih | forgetTab _ _ ih | reducedMotion _ _ ih => exact ih
  | resetForTab tabId tabUrl mode _ _ => exact .inl (urlInput_resetForTab _ tabId tabUrl mode)

theorem Typed.update (h : ab.Typed) (msg : AddressBarMsg) : (ab.update msg).1.Typed := by
  cases msg with
  | urlInputChanged text => exact .inr ⟨text, rfl⟩
  | navigatePressed =>
    rw [AddressBar.update]
    split_ifs
    · exact h
    · exact .inl rfl
  | focusLost | escPressed =>
    rw [AddressBar.update, unfocus]
    split_ifs <;> exact h
  | scrolledDown | scrolledUp | autoDismissConvertChip =>
    rw [AddressBar.update]
    split_ifs <;> exact h
  | _ => exact h

/-- The address that is committed is not empty. -/
theorem Typed.committedUrl_ne_nil (h : ab.Typed) : ab.committedUrl ≠ [] := by
  have hvalid : ab.urlInput.validation = .valid → ab.urlInput.text ≠ [] := by
    rintro hvalid hnil
    rcases h with hnew | ⟨text, htyped⟩
    · rw [hnew] at hvalid
      cases hvalid
    · rw [htyped] at hvalid hnil
      rw [show text = [] from hnil] at hvalid
      cases hvalid
  rw [committedUrl]
  split_ifs with hcase
  · exact hvalid hcase
  · exact List.append_ne_nil_of_left_ne_nil (by decide) _

end AddressBar

end Ui

end DevBrowse
