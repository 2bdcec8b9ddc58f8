import DevBrowse.Basic
import DevBrowse.Lib.Text

/-!
# The new tab page and the find bar

Two more parts of the window. The new tab page keeps a mode of its own. It may offer to go on with
what was done in the last session, but not while it is Strict: the offer is taken back when the
page becomes Strict, and one that comes later is not taken
(`DevBrowse.Ui.NewTabPage.Forgets`).

What is only drawn is left out: the bar, the search engine, the name and the picture on the page,
and where the cursor is.
-/

namespace DevBrowse

namespace Ui

/-! ### The new tab page -/

/-- A favourite. -/
structure FavEntry where
  /-- What it is called. -/
  name : Text
  /-- Where it leads. -/
  url : Text
  deriving DecidableEq

/-- What was counted since the start. -/
structure NtpStats where
  /-- The trackers that were blocked. -/
  trackersBlocked : UInt32
  /-- The attempts to take a fingerprint that were stopped. -/
  fingerprintStops : UInt32
  deriving DecidableEq

/-- What was done in the last session. -/
structure SessionResume where
  /-- The number of its tabs. -/
  tabCount : ℕ
  /-- What it was about. -/
  topic : Text
  deriving DecidableEq

/-- The phases of the page. -/
inductive NtpPhase where
  | loading
  /-- There are no favourites. -/
  | empty
  | populated
  deriving DecidableEq

/-- The messages to the page. -/
inductive NewTabMsg where
  | favoritesLoaded (favs : List FavEntry)
  | favoritesLoadFailed
  | sessionResumeLoaded (resume : Option SessionResume)
  | favoritePressed (idx : ℕ)
  | favoriteOpenStrict (idx : ℕ)
  | resumeSessionPressed
  | incrementBlockedCount
  | incrementFingerprintCount
  | hintFadeOut
  | cursorMoved

/-- What the page tells the shell. -/
inductive NewTabEvent where
  | openUrl (url : Text)
  | openUrlStrict (url : Text)
  | resumeSession (resume : SessionResume)
  deriving DecidableEq

/-- **The new tab page.** -/
structure NewTabPage where
  /-- The phase it is in. -/
  phase : NtpPhase
  /-- What was counted. -/
  stats : NtpStats
  /-- What the page offers to go on with. -/
  sessionResume : Option SessionResume
  /-- The favourites. -/
  favorites : List FavEntry
  /-- Whether the hint is shown. -/
  hintVisible : Bool
  /-- The mode of the page. -/
  mode : Mode
  /-- Whether the favourites could not be loaded. -/
  loadFailed : Bool

namespace NewTabPage

/-- The page at the start. -/
def new (mode : Mode) (commandBarEnabled : Bool) : NewTabPage :=
  ⟨.loading, ⟨0, 0⟩, none, [], commandBarEnabled, mode, false⟩

/-- A tab is opened: the picture starts over. -/
def onNewTab (page : NewTabPage) : NewTabPage := page

/-- The page takes a mode over. -/
def syncMode (page : NewTabPage) (mode : Mode) : NewTabPage :=
  { page with
    mode := mode
    sessionResume := if mode = .strict then none else page.sessionResume }

/-- Whether the card is shown that offers to go on. -/
def showResumeCard (page : NewTabPage) : Bool :=
  page.mode = .standard && page.sessionResume.isSome

/-- One more, as long as there is room. -/
def bump (n : UInt32) : UInt32 := .ofNat (min (n.toNat + 1) (2 ^ 32 - 1))

/-- **What a message does to the page.** -/
def update (page : NewTabPage) : NewTabMsg → NewTabPage × Option NewTabEvent
  | .favoritesLoaded favs =>
    ({ page with
      favorites := favs
      phase := if favs.isEmpty then .empty else .populated
      loadFailed := false }, none)
  | .favoritesLoadFailed => ({ page with phase := .empty, loadFailed := true }, none)
  | .sessionResumeLoaded resume =>
    -- what comes while the page is Strict comes too late
    (if page.mode = .standard then { page with sessionResume := resume } else page, none)
  | .favoritePressed idx => (page, page.favorites[idx]?.map fun f => .openUrl f.url)
  | .favoriteOpenStrict idx => (page, page.favorites[idx]?.map fun f => .openUrlStrict f.url)
  | .resumeSessionPressed => (page, page.sessionResume.map .resumeSession)
  | .incrementBlockedCount =>
    ({ page with stats.trackersBlocked := bump page.stats.trackersBlocked }, none)
  | .incrementFingerprintCount =>
    ({ page with stats.fingerprintStops := bump page.stats.fingerprintStops }, none)
  | .cursorMoved => (page, none)
  | .hintFadeOut => ({ page with hintVisible := false }, none)

/-- **A Strict page offers nothing to go on with.** -/
def Forgets (page : NewTabPage) : Prop := page.mode = .strict → page.sessionResume = none

variable {page : NewTabPage} {msg : NewTabMsg} {resume : SessionResume}

theorem forgets_syncMode (page : NewTabPage) (mode : Mode) : (page.syncMode mode).Forgets :=
  fun hstrict => if_pos hstrict

/-- A message leaves the mode of the page. -/
@[simp] theorem mode_update (page : NewTabPage) (msg : NewTabMsg) :
    (page.update msg).1.mode = page.mode := by
  cases msg with
  | sessionResumeLoaded resume =>
    rw [update]
    split <;> rfl
  | _ => rfl

theorem forgets_update (h : page.Forgets) : (page.update msg).1.Forgets := by
  intro hstrict
  rw [mode_update] at hstrict
  cases msg with
  | sessionResumeLoaded resume =>
    have hlate : page.mode ≠ .standard := by
      rw [hstrict]
      decide
    rw [update, if_neg hlate]
    exact h hstrict
  | _ => exact h hstrict

/-- What the page offers after a message came with it, or was offered before. -/
theorem sessionResume_update (h : (page.update msg).1.sessionResume = some resume) :
    (msg = .sessionResumeLoaded (some resume) ∧ page.mode = .standard) ∨
      (∀ resume', msg = .sessionResumeLoaded resume' → page.mode ≠ .standard) ∧
        page.sessionResume = some resume := by
  cases msg with
  | sessionResumeLoaded resume' =>
    by_cases hmode : page.mode = .standard
    · rw [update, if_pos hmode] at h
      exact .inl ⟨congrArg _ h, hmode⟩
    · rw [update, if_neg hmode] at h
      exact .inr ⟨fun _ _ => hmode, h⟩
  | _ => exact .inr ⟨nofun, h⟩

/-- Only what the page offers is gone on with. -/
theorem sessionResume_of_event (h : (page.update msg).2 = some (.resumeSession resume)) :
    page.sessionResume = some resume := by
  cases msg with
  | resumeSessionPressed =>
    obtain ⟨resume', hresume, heq⟩ := Option.map_eq_some_iff.mp h
    rw [hresume, NewTabEvent.resumeSession.inj heq]
  | favoritePressed idx | favoriteOpenStrict idx =>
    obtain ⟨fav, -, heq⟩ := Option.map_eq_some_iff.mp h
    cases heq
  | _ => cases h

end NewTabPage

/-! ### The find bar -/

/-- How a text is compared with the page. -/
inductive SearchMode where
  | contains
  | startsWith
  | endsWith
  deriving DecidableEq

/-- The messages to the find bar. -/
inductive FindMsg where
  | opened
  | closed
  | queryChanged (q : Text)
  | nextMatch
  | prevMatch
  | modeDropdownToggled
  | modeSelected (mode : SearchMode)

/-- **The find bar.** -/
structure FindBar where
  /-- Whether it is shown. -/
  isOpen : Bool
  /-- What is searched for. -/
  query : Text
  /-- How often it was found. -/
  matchCount : ℕ
  /-- The place that is shown. -/
  currentMatch : ℕ
  /-- How it is compared. -/
  mode : SearchMode
  /-- Whether the list of the ways to compare is shown. -/
  modeDropdownOpen : Bool
  deriving DecidableEq

namespace FindBar

/-- The bar at the start. -/
def new : FindBar := ⟨false, [], 0, 0, .contains, false⟩

/-- **What a message does to the bar.** -/
def update (bar : FindBar) : FindMsg → FindBar
  | .opened =>
    { bar with
      isOpen := true, query := [], matchCount := 0, currentMatch := 0, modeDropdownOpen := false }
  | .closed =>
    { bar with
      isOpen := false, query := [], matchCount := 0, currentMatch := 0, modeDropdownOpen := false }
  | .queryChanged q =>
    { bar with query := q, modeDropdownOpen := false, matchCount := 0, currentMatch := 0 }
  | .nextMatch =>
    if 0 < bar.matchCount then
      { bar with currentMatch := (bar.currentMatch + 1) % bar.matchCount }
    else bar
  | .prevMatch =>
    if 0 < bar.matchCount then
      { bar with currentMatch := (bar.currentMatch + bar.matchCount - 1) % bar.matchCount }
    else bar
  | .modeDropdownToggled => { bar with modeDropdownOpen := !bar.modeDropdownOpen }
  | .modeSelected mode =>
    { bar with mode := mode, modeDropdownOpen := false, matchCount := 0, currentMatch := 0 }

end FindBar

end Ui

end DevBrowse
