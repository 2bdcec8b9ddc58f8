import DevBrowse.Lib.Transition
import DevBrowse.Ui.History
import DevBrowse.Ui.NewTab
import DevBrowse.Ui.Shell

/-!
# The whole window

The window is the shell with its panels: the new tab page, the find bar and the history. To the
shell a panel is open or not, and what it knows of them is right: a run of the window is a run of
the shell (`DevBrowse.Ui.Window.shell_of_run`). While the tab bar and the address bar may show
another mode than the shell, the new tab page never does. So what was done in the last session is
gone on with only if it was offered while the window was Standard, and the window has not been
Strict since (`DevBrowse.Ui.Window.resume_since`).
-/

namespace DevBrowse

namespace Ui

open Transition (Since Step)

/-! ### The new tab page beside the shell

What the arms of the update do to the new tab page, each under the name of the arm. -/

namespace AppState

variable {ρ : Type*}

/-- The new tab page takes over the mode of the active tab. -/
def syncNewTab (s : AppState ρ) (page : NewTabPage) : NewTabPage :=
  match s.tabBar.tabOf s.tabBar.activeId with
  | none => page
  | some tab => page.syncMode tab.mode

variable [Px ρ]

/-- The profile is loaded. There are no favourites yet. -/
def newTabOnProfileLoaded (s : AppState ρ) (page : NewTabPage) (name : Text) : NewTabPage :=
  (s.profileLoaded name).syncNewTab (page.update (.favoritesLoaded [])).1

/-- The conversion is done in the end. -/
def newTabOnMorphTick (s : AppState ρ) (page : NewTabPage) (elapsedMs : ℕ) : NewTabPage :=
  if s.phase = .transitioningMode ∧ s.targetMs ≤ min elapsedMs s.targetMs then
    page.syncMode .strict
  else page

/-- What the address bar asks for. -/
def newTabOnAddressBarEvent (s : AppState ρ) (page : NewTabPage) : AddressBarEvent → NewTabPage
  | .convertToStrictClicked =>
    if s.mode = .standard ∧ s.phase = .ready then page.syncMode .strict else page
  | .navigationCommitted url mode =>
    if s.tabBar.tabs.isEmpty then
      (s.onAddressBarEvent (.navigationCommitted url mode)).syncNewTab page
    else page
  | .networkViewerRequested => page

/-- A message to the address bar. -/
def newTabOnAddressBar (s : AppState ρ) (page : NewTabPage) (msg : AddressBarMsg) : NewTabPage :=
  let (addressBar, event) := s.addressBar.update msg
  let updated := { s with addressBar := addressBar }
  match event with
  | some event => updated.newTabOnAddressBarEvent page event
  | none => page

/-- What the tab bar asks for, but for the freeze of the strip. -/
def newTabOnTabBarEvent (s : AppState ρ) (page : NewTabPage) : TabBarEvent → NewTabPage
  | .tabClosed id => (s.onTabBarEvent (.tabClosed id)).syncNewTab page
  | .allTabsClosed => page.syncMode .standard
  | .newTabRequested => page.onNewTab
  | .tabScreenRequested | .windowDragRequested | .stabilizeRequested _ => page

/-- A message to the tab bar. -/
def newTabOnTabBar (s : AppState ρ) (page : NewTabPage) (msg : TabBarMsg ρ) : NewTabPage :=
  let prevActive := s.tabBar.activeId
  let (tabBar, event) := s.tabBar.update msg
  let updated := { s with tabBar := tabBar }
  match event with
  | some (.stabilizeRequested _) =>
    if tabBar.activeId ≠ prevActive then updated.syncNewTab page else page
  | some event =>
    let handled := updated.onTabBarEvent event
    let page := updated.newTabOnTabBarEvent page event
    if handled.tabBar.activeId ≠ prevActive then handled.syncNewTab page else page
  | none => if updated.tabBar.activeId ≠ prevActive then updated.syncNewTab page else page

/-- What the sidebar asks for. -/
def newTabOnSidebarEvent (s : AppState ρ) (page : NewTabPage) : SidebarEvent → NewTabPage
  | .tabActivated id => (s.activate id).syncNewTab page
  | .tabCloseRequested id =>
    let (tabBar, event) := s.tabBar.update (.tabCloseRequested id)
    let updated := { s with tabBar := tabBar }
    match event with
    | some .allTabsClosed => page.syncMode .standard
    | some (.tabClosed _) => updated.syncNewTab page
    | _ => page
  -- here the picture does not start over
  | .newTabRequested => page
  | .tabsReordered _ _ | .searchRequested | .favoritesRequested | .gearRequested
  | .windowDragRequested | .tooltipPillLeft => page

/-- A message to the sidebar. -/
def newTabOnSidebar (s : AppState ρ) (page : NewTabPage) (msg : SidebarMsg) : NewTabPage :=
  let (sidebar, event) := s.sidebar.update msg
  let updated := { s with sidebar := sidebar }
  match event with
  | some event => updated.newTabOnSidebarEvent page event
  | none => page

/-- A message to the card view. -/
def newTabOnCardView (s : AppState ρ) (page : NewTabPage) (msg : CardViewMsg) : NewTabPage :=
  let (cardView, event) := s.cardView.update s.tabBar.tabs msg
  let updated := { s with cardView := cardView }
  match event with
  | some event => (updated.onCardViewEvent event).syncNewTab page
  | none => page

/-- **What a message to the shell does to the new tab page.** -/
def newTabAfter (s : AppState ρ) (page : NewTabPage) : Message ρ → NewTabPage
  | .profileLoaded name => s.newTabOnProfileLoaded page name
  | .morphTick elapsedMs => s.newTabOnMorphTick page elapsedMs
  | .addressBar msg => s.newTabOnAddressBar page msg
  | .tabBar msg => s.newTabOnTabBar page msg
  | .sidebar msg => s.newTabOnSidebar page msg
  | .cardView msg => s.newTabOnCardView page msg
  | _ => page

/-! ### The new tab page follows the shell -/

/-- **The page follows**: it has the mode of the shell, and offers nothing while it is Strict or
that it did not offer before. -/
structure Follows (before page : NewTabPage) (mode : Mode) : Prop where
  /-- It has the mode. -/
  mode : page.mode = mode
  /-- It offers nothing while it is Strict. -/
  forgets : page.Forgets
  /-- What it offers was offered before. -/
  resume : ∀ resume, page.sessionResume = some resume → before.sessionResume = some resume

variable {s s' : AppState ρ} {before page : NewTabPage} {mode : Mode}

theorem Follows.syncMode (h : Follows before page mode) (mode' : Mode) :
    Follows before (page.syncMode mode') mode' := by
  refine ⟨rfl, NewTabPage.forgets_syncMode page mode', fun resume hresume => ?_⟩
  rw [NewTabPage.syncMode] at hresume
  dsimp only at hresume
  split at hresume
  · cases hresume
  · exact h.resume resume hresume

omit [Px ρ] in
/-- **Where the modes are brought together the new tab page takes part.** -/
theorem Follows.sync (h : Follows before page mode) (hmode : s.mode = mode)
    (hbar : s'.tabBar = s.tabBar) :
    Follows before (s'.syncNewTab page) s.syncActiveTabMode.mode := by
  subst hmode
  rw [syncNewTab, syncActiveTabMode, hbar]
  cases s.tabBar.tabOf s.tabBar.activeId with
  | none => exact h
  | some tab => exact h.syncMode tab.mode

omit [Px ρ] in
/-- It may also do so afterwards. -/
theorem syncNewTab_syncActiveTabMode (s : AppState ρ) (page : NewTabPage) :
    s.syncActiveTabMode.syncNewTab page = s.syncNewTab page := by
  rw [syncNewTab, syncNewTab, TabBar.tabOf, TabBar.tabOf, tabs_syncActiveTabMode,
    activeId_syncActiveTabMode]

theorem follows_newTabOnAddressBarEvent (h : Follows before page s.mode) (event : AddressBarEvent) :
    Follows before (s.newTabOnAddressBarEvent page event) (s.onAddressBarEvent event).mode := by
  cases event with
  | convertToStrictClicked =>
    rw [newTabOnAddressBarEvent, onAddressBarEvent]
    split_ifs
    · exact h.syncMode .strict
    · exact h
  | navigationCommitted url mode =>
    rw [newTabOnAddressBarEvent, onAddressBarEvent]
    split_ifs
    · rw [syncNewTab_syncActiveTabMode]
      exact h.sync rfl rfl
    · exact h
  | networkViewerRequested => exact h

omit [Px ρ] in
theorem follows_newTabOnTabBarEvent (h : Follows before page s.mode) (event : TabBarEvent) :
    Follows before (s.newTabOnTabBarEvent page event) (s.onTabBarEvent event).mode := by
  cases event with
  | tabClosed id =>
    rw [newTabOnTabBarEvent, onTabBarEvent, syncNewTab_syncActiveTabMode]
    exact h.sync rfl rfl
  | allTabsClosed => exact h.syncMode .standard
  | newTabRequested | tabScreenRequested | windowDragRequested | stabilizeRequested => exact h

theorem follows_newTabOnTabBar (h : Follows before page s.mode) (msg : TabBarMsg ρ) :
    Follows before (s.newTabOnTabBar page msg) (s.onTabBar msg).mode := by
  rw [newTabOnTabBar, onTabBar]
  dsimp only
  have hupdated : Follows before page
      ({ s with tabBar := (s.tabBar.update msg).1 } : AppState ρ).mode := h
  cases (s.tabBar.update msg).2 with
  | none =>
    dsimp only
    split_ifs
    · exact hupdated.sync rfl rfl
    · exact h
  | some event =>
    have hhandled := follows_newTabOnTabBarEvent hupdated event
    cases event with
    | stabilizeRequested gen =>
      -- the address bar forgets the tab that was closed, which the modes do not depend on
      dsimp only
      split_ifs
      · exact h.sync rfl rfl
      · exact h
    | tabClosed | allTabsClosed | newTabRequested | tabScreenRequested | windowDragRequested =>
      dsimp only
      split_ifs
      · exact hhandled.sync rfl rfl
      · exact hhandled

theorem follows_newTabOnSidebarEvent (h : Follows before page s.mode) (event : SidebarEvent) :
    Follows before (s.newTabOnSidebarEvent page event) (s.onSidebarEvent event).mode := by
  cases event with
  | tabActivated id =>
    rw [newTabOnSidebarEvent, onSidebarEvent, activate, syncNewTab_syncActiveTabMode]
    exact h.sync rfl rfl
  | tabCloseRequested id =>
    rw [newTabOnSidebarEvent, onSidebarEvent]
    dsimp only
    cases (s.tabBar.update (.tabCloseRequested id)).2 with
    | none => exact h
    | some event =>
      cases event with
      | allTabsClosed => exact h.syncMode .standard
      | tabClosed id => exact h.sync rfl rfl
      | newTabRequested | tabScreenRequested | windowDragRequested | stabilizeRequested => exact h
  | tabsReordered fromId toId =>
    rw [newTabOnSidebarEvent, onSidebarEvent]
    split <;> exact h
  | newTabRequested | searchRequested | favoritesRequested | gearRequested | windowDragRequested
  | tooltipPillLeft => exact h

theorem follows_newTabOnCardViewEvent (h : Follows before page s.mode) (event : CardViewEvent) :
    Follows before ((s.onCardViewEvent event).syncNewTab page) (s.onCardViewEvent event).mode := by
  cases event with
  | tabActivated id =>
    rw [onCardViewEvent, activate, syncNewTab_syncActiveTabMode]
    exact h.sync rfl rfl
  | tabCloseRequested id =>
    rw [onCardViewEvent, syncNewTab_syncActiveTabMode]
    exact h.sync rfl rfl

omit [Px ρ] in
theorem follows_newTabOnMorphTick (h : Follows before page s.mode) (elapsedMs : ℕ) :
    Follows before (s.newTabOnMorphTick page elapsedMs) (s.morphTick elapsedMs).mode := by
  rw [newTabOnMorphTick, morphTick]
  by_cases hphase : s.phase = .transitioningMode
  · by_cases hdone : s.targetMs ≤ min elapsedMs s.targetMs
    · rw [if_pos ⟨hphase, hdone⟩, if_pos hphase]
      dsimp only
      rw [if_pos hdone]
      exact h.syncMode .strict
    · rw [if_neg fun hboth => hdone hboth.2, if_pos hphase]
      dsimp only
      rw [if_neg hdone]
      exact h
  · rw [if_neg fun hboth => hphase hboth.1, if_neg hphase]
    exact h

/-- **The new tab page keeps the mode of the shell.** -/
theorem Follows.after (h : Follows before page s.mode) (msg : Message ρ) :
    Follows before (s.newTabAfter page msg) (s.update msg).mode := by
  cases msg with
  | profileLoaded name =>
    have hloaded : Follows before (page.update (.favoritesLoaded [])).1 s.mode :=
      ⟨h.mode, h.forgets, h.resume⟩
    rw [newTabAfter, newTabOnProfileLoaded, update, profileLoaded, syncNewTab_syncActiveTabMode]
    exact hloaded.sync rfl rfl
  | morphTick elapsedMs => exact follows_newTabOnMorphTick h elapsedMs
  | addressBar msg =>
    rw [newTabAfter, newTabOnAddressBar, update, onAddressBar]
    dsimp only
    cases (s.addressBar.update msg).2 with
    | none => exact h
    | some event =>
      exact follows_newTabOnAddressBarEvent
        (s := { s with addressBar := (s.addressBar.update msg).1 }) h event
  | tabBar msg => exact follows_newTabOnTabBar h msg
  | sidebar msg =>
    rw [newTabAfter, newTabOnSidebar, update, onSidebar]
    dsimp only
    cases (s.sidebar.update msg).2 with
    | none => exact h
    | some event =>
      exact follows_newTabOnSidebarEvent
        (s := { s with sidebar := (s.sidebar.update msg).1 }) h event
  | cardView msg =>
    rw [newTabAfter, newTabOnCardView, update, onCardView]
    dsimp only
    cases (s.cardView.update s.tabBar.tabs msg).2 with
    | none => exact h
    | some event =>
      exact follows_newTabOnCardViewEvent
        (s := { s with cardView := (s.cardView.update s.tabBar.tabs msg).1 }) h event
  | convertToStrict =>
    simp only [newTabAfter, update]
    split <;> exact h
  | maximizeWindow | globalDragMove =>
    simp only [newTabAfter, update, globalDragMove]
    split <;> exact h
  | findEscape =>
    simp only [newTabAfter, update, findEscape]
    split
    · exact h
    · split
      · exact h
      · split <;> exact h
  | _ => exact h

/-! ### What the shell knows of the panels -/

/-- Which panels are open. -/
def panels (s : AppState ρ) : Bool × Bool := (s.findOpen, s.historyOpen)

omit [Px ρ] in
@[simp] theorem panels_syncActiveTabMode (s : AppState ρ) :
    s.syncActiveTabMode.panels = s.panels := by
  rw [syncActiveTabMode]
  split <;> rfl

omit [Px ρ] in
theorem panels_onTabBarEvent (s : AppState ρ) (event : TabBarEvent) :
    (s.onTabBarEvent event).panels = s.panels := by
  cases event with
  | tabClosed id => exact panels_syncActiveTabMode _
  | allTabsClosed | newTabRequested | tabScreenRequested | windowDragRequested
  | stabilizeRequested => rfl

theorem panels_onTabBar (s : AppState ρ) (msg : TabBarMsg ρ) :
    (s.onTabBar msg).panels = s.panels := by
  rw [onTabBar]
  dsimp only
  split
  · split_ifs
    · exact panels_syncActiveTabMode _
    · rfl
  · cases (s.tabBar.update msg).2 with
    | none =>
      dsimp only
      split_ifs
      · exact panels_syncActiveTabMode _
      · rfl
    | some event =>
      have hevent := panels_onTabBarEvent { s with tabBar := (s.tabBar.update msg).1 } event
      dsimp only
      split_ifs
      · exact (panels_syncActiveTabMode _).trans hevent
      · exact hevent

theorem panels_onSidebarEvent (s : AppState ρ) (event : SidebarEvent) :
    (s.onSidebarEvent event).panels = s.panels := by
  cases event with
  | tabActivated id => exact panels_syncActiveTabMode _
  | tabsReordered fromId toId =>
    rw [onSidebarEvent]
    split <;> rfl
  | tabCloseRequested id =>
    rw [onSidebarEvent]
    dsimp only
    split
    · rfl
    · exact panels_syncActiveTabMode _
    · rfl
  | newTabRequested | searchRequested | favoritesRequested | gearRequested | windowDragRequested
  | tooltipPillLeft => rfl

theorem panels_onAddressBarEvent (s : AppState ρ) (event : AddressBarEvent) :
    (s.onAddressBarEvent event).panels = s.panels := by
  cases event with
  | convertToStrictClicked =>
    rw [onAddressBarEvent]
    split <;> rfl
  | navigationCommitted url mode =>
    rw [onAddressBarEvent]
    split
    · exact panels_syncActiveTabMode _
    · rfl
  | networkViewerRequested => rfl

/-- **Only messages to the panels and the escape open and close them.** -/
theorem panels_update {msg : Message ρ} (hfind : ∀ m, msg ≠ .find m)
    (hhistory : ∀ m, msg ≠ .history m) (hescape : msg ≠ .findEscape) :
    (s.update msg).panels = s.panels := by
  cases msg with
  | find msg => exact absurd rfl (hfind msg)
  | history msg => exact absurd rfl (hhistory msg)
  | findEscape => exact absurd rfl hescape
  | profileLoaded name => exact panels_syncActiveTabMode _
  | convertToStrict | maximizeWindow =>
    rw [update]
    split <;> rfl
  | globalDragMove x =>
    rw [update, globalDragMove]
    split <;> rfl
  | morphTick elapsedMs =>
    rw [update, morphTick]
    split
    · dsimp only
      split <;> rfl
    · rfl
  | addressBar msg =>
    rw [update, onAddressBar]
    dsimp only
    split
    · exact panels_onAddressBarEvent _ _
    · rfl
  | tabBar msg => exact panels_onTabBar s msg
  | sidebar msg =>
    rw [update, onSidebar]
    dsimp only
    split
    · exact panels_onSidebarEvent _ _
    · rfl
  | cardView msg =>
    rw [update, onCardView]
    dsimp only
    split
    · rename_i event _
      cases event with
      | tabActivated id | tabCloseRequested id => exact panels_syncActiveTabMode _
    · rfl
  | _ => rfl

end AppState

/-! ### The window -/

/-- The message is not one to a panel. -/
def Message.Own {ρ : Type*} : Message ρ → Prop
  | .newTab | .find _ | .history _ => False
  | _ => True

/-- **The messages to the window.** -/
inductive WindowMsg (ρ : Type*) where
  /-- One to the shell itself, or to one of its parts that are not panels. -/
  | shell (msg : Message ρ) (own : msg.Own)
  | newTab (msg : NewTabMsg)
  | find (msg : FindMsg)
  | history (msg : HistoryMsg)

/-- What a message to the find bar is to the shell. -/
def FindMsg.panel : FindMsg → PanelMsg
  | .opened => .opened
  | .closed => .closed
  | _ => .other

/-- What a message to the history is to the shell. -/
def HistoryMsg.panel : HistoryMsg → PanelMsg
  | .opened => .opened
  | .closed => .closed
  | _ => .other

/-- What a message is to the shell. -/
def WindowMsg.toMessage {ρ : Type*} : WindowMsg ρ → Message ρ
  | .shell msg _ => msg
  | .newTab _ => .newTab
  | .find msg => .find msg.panel
  | .history msg => .history msg.panel

/-- **The whole window.** -/
structure Window (ρ : Type*) where
  /-- The shell. -/
  shell : AppState ρ
  /-- The new tab page. -/
  newTab : NewTabPage
  /-- The find bar. -/
  find : FindBar
  /-- The history. -/
  history : HistoryPanel

namespace Window

/-- The history a profile comes with, until there is a real one. -/
def seededHistory (now : Int64) : List HistoryEntry :=
  [⟨1, "DevBrowse — Privacy Browser".toList, "devbrowse.io".toList,
      "https://devbrowse.io/".toList, now - 600000⟩,
    ⟨2, "DuckDuckGo — Privacy Search".toList, "duckduckgo.com".toList,
      "https://duckduckgo.com/".toList, now - 1800000⟩,
    ⟨3, "Rust Programming Language".toList, "rust-lang.org".toList,
      "https://www.rust-lang.org/".toList, now - 3600000⟩,
    ⟨4, [], "crates.io".toList, "https://crates.io/".toList, now - 90000000⟩,
    ⟨5, "Iced — A cross-platform GUI library".toList, "iced.rs".toList,
      "https://iced.rs/".toList, now - 172800000⟩]

variable {ρ : Type*} [Px ρ]

/-- The window at the start. -/
def new (profileName : Text) (commandBarEnabled : Bool) (nowMs : Int64) : Window ρ :=
  ⟨.new profileName, .new .standard commandBarEnabled, .new, .new nowMs⟩

/-- What a message to the shell does to the find bar. -/
def findAfter (w : Window ρ) : Message ρ → FindBar
  | .findEscape => if w.find.isOpen then w.find.update .closed else w.find
  | _ => w.find

/-- What a message to the shell does to the history. -/
def historyAfter (w : Window ρ) (nowMs : Int64) : Message ρ → HistoryPanel
  | .profileLoaded _ => (w.history.update nowMs (.entriesLoaded (seededHistory nowMs))).1
  | .findEscape =>
    if w.find.isOpen then w.history
    else if w.history.isOpen then (w.history.update nowMs .closed).1
    else w.history
  | _ => w.history

/-- **What a message does to the window**, at a time the clock shows, and what the new tab page
asks for. -/
def update (w : Window ρ) (nowMs : Int64) : WindowMsg ρ → Window ρ × Option NewTabEvent
  | .shell msg _ =>
    (⟨w.shell.update msg, w.shell.newTabAfter w.newTab msg, w.findAfter msg,
      w.historyAfter nowMs msg⟩, none)
  | .newTab msg =>
    let (newTab, event) := w.newTab.update msg
    ({ w with newTab := newTab }, event)
  | .find msg =>
    ({ w with
      find := w.find.update msg
      shell.findOpen := (w.find.update msg).isOpen }, none)
  | .history msg =>
    let (history, _) := w.history.update nowMs msg
    ({ w with
      history := history
      shell.historyOpen := history.isOpen }, none)

/-- One message, at its time. -/
def step (w : Window ρ) (i : Int64 × WindowMsg ρ) : Option (Window ρ) := some (w.update i.1 i.2).1

/-- The runs of the window. -/
abbrev Run (start : Window ρ) : List (Step (Window ρ) (Int64 × WindowMsg ρ)) → Window ρ → Prop :=
  Transition.Run (Transition.ofFun step) start

/-- **The parts agree**: the shell knows which panels are open, and the new tab page has its
mode and offers nothing while it is Strict. -/
structure Consistent (w : Window ρ) : Prop where
  /-- The find bar. -/
  find : w.shell.findOpen = w.find.isOpen
  /-- The history. -/
  history : w.shell.historyOpen = w.history.isOpen
  /-- The mode of the new tab page. -/
  mode : w.newTab.mode = w.shell.mode
  /-- It forgets what it offered. -/
  forgets : w.newTab.Forgets

variable {w w' start : Window ρ} {tr : List (Step (Window ρ) (Int64 × WindowMsg ρ))}
  {nowMs : Int64} {resume : SessionResume}

/-! ### One message -/

omit [Px ρ] in
/-- A message opens or closes the find bar as the shell takes it. -/
theorem isOpen_find (bar : FindBar) (msg : FindMsg) :
    (bar.update msg).isOpen = msg.panel.apply bar.isOpen := by
  cases msg with
  | nextMatch | prevMatch =>
    rw [FindBar.update]
    split <;> rfl
  | _ => rfl

omit [Px ρ] in
/-- A message opens or closes the history as the shell takes it. -/
theorem isOpen_history (panel : HistoryPanel) (msg : HistoryMsg) :
    (panel.update nowMs msg).1.isOpen = msg.panel.apply panel.isOpen := by
  cases msg with
  | closed | focusUp | focusDown | clearRequested =>
    rw [HistoryPanel.update]
    dsimp only
    split <;> rfl
  | focusDelete =>
    rw [HistoryPanel.update]
    split
    · rfl
    · split <;> rfl
  | _ => rfl

/-- **A message to the window is one to the shell.** -/
theorem shell_update (h : w.Consistent) (msg : WindowMsg ρ) :
    (w.update nowMs msg).1.shell = w.shell.update msg.toMessage := by
  cases msg with
  | shell msg own => rfl
  | newTab msg => rfl
  | find msg =>
    rw [update, WindowMsg.toMessage, AppState.update, isOpen_find, h.find]
  | history msg =>
    rw [update, WindowMsg.toMessage, AppState.update, h.history, ← isOpen_history]

omit [Px ρ] in
theorem Consistent.follows (h : w.Consistent) :
    AppState.Follows w.newTab w.newTab w.shell.mode := ⟨h.mode, h.forgets, fun _ h => h⟩

/-- A message to the shell opens and closes the panels as it does for the shell. -/
theorem Consistent.panels_update (h : w.Consistent) {msg : Message ρ} (own : msg.Own)
    (nowMs : Int64) :
    (w.shell.update msg).findOpen = (w.findAfter msg).isOpen ∧
      (w.shell.update msg).historyOpen = (w.historyAfter nowMs msg).isOpen := by
  by_cases hescape : msg = .findEscape
  · subst hescape
    simp only [AppState.update, AppState.findEscape, findAfter, historyAfter, ← h.find, ← h.history]
    split
    · exact ⟨(isOpen_find w.find .closed).symm, h.history⟩
    · split
      · exact ⟨h.find, (isOpen_history w.history .closed).symm⟩
      · split <;> exact ⟨h.find, h.history⟩
  · have hpanels : (w.shell.update msg).panels = w.shell.panels :=
      AppState.panels_update (fun _ heq => by rw [heq] at own; exact own)
        (fun _ heq => by rw [heq] at own; exact own) hescape
    obtain ⟨hfind, hhistory⟩ := Prod.mk.inj hpanels
    refine ⟨hfind.trans (h.find.trans ?_), hhistory.trans (h.history.trans ?_)⟩
    · cases msg with
      | findEscape => exact absurd rfl hescape
      | _ => rfl
    · cases msg with
      | findEscape => exact absurd rfl hescape
      | profileLoaded name => exact (isOpen_history w.history (.entriesLoaded _)).symm
      | _ => rfl

/-- **The parts still agree after a message.** -/
theorem Consistent.update (h : w.Consistent) (msg : WindowMsg ρ) :
    (w.update nowMs msg).1.Consistent := by
  cases msg with
  | shell msg own =>
    have hfollows := h.follows.after msg
    obtain ⟨hfind, hhistory⟩ := h.panels_update own nowMs
    exact ⟨hfind, hhistory, hfollows.mode, hfollows.forgets⟩
  | newTab msg =>
    exact ⟨h.find, h.history, (NewTabPage.mode_update _ _).trans h.mode,
      NewTabPage.forgets_update h.forgets⟩
  | find msg => exact ⟨rfl, h.history, h.mode, h.forgets⟩
  | history msg => exact ⟨h.find, rfl, h.mode, h.forgets⟩

/-- **What the new tab page offers** after a message it was given in it, while the window was
Standard, or offered before. -/
theorem sessionResume_update (h : w.Consistent) {msg : WindowMsg ρ}
    (hresume : (w.update nowMs msg).1.newTab.sessionResume = some resume) :
    (msg = .newTab (.sessionResumeLoaded (some resume)) ∧ w.shell.mode = .standard) ∨
      (∀ resume', msg ≠ .newTab (.sessionResumeLoaded resume')) ∧
        w.newTab.sessionResume = some resume := by
  cases msg with
  | shell msg own => exact .inr ⟨nofun, (h.follows.after msg).resume resume hresume⟩
  | newTab msg =>
    rcases NewTabPage.sessionResume_update hresume with ⟨rfl, hmode⟩ | ⟨hlate, hbefore⟩
    · exact .inl ⟨rfl, h.mode ▸ hmode⟩
    · refine .inr ⟨fun resume' heq => ?_, hbefore⟩
      -- a page that offers something is Standard
      have hstrict : w.newTab.mode = .strict := by
        cases hmode : w.newTab.mode with
        | standard => exact absurd hmode (hlate resume' (WindowMsg.newTab.inj heq))
        | strict => rfl
      rw [h.forgets hstrict] at hbefore
      cases hbefore
  | find msg => exact .inr ⟨nofun, hresume⟩
  | history msg => exact .inr ⟨nofun, hresume⟩

/-- Only what the new tab page offers is gone on with. -/
theorem sessionResume_of_event {msg : WindowMsg ρ}
    (h : (w.update nowMs msg).2 = some (.resumeSession resume)) :
    w.newTab.sessionResume = some resume := by
  cases msg with
  | newTab msg => exact NewTabPage.sessionResume_of_event h
  | shell msg own => cases h
  | find msg => cases h
  | history msg => cases h

/-! ### Runs -/

theorem consistent_of_run (hstart : start.Consistent) (hrun : Run start tr w) : w.Consistent :=
  hrun.invariant (I := fun _ w => w.Consistent) hstart fun _ _ _ _ _ h hstep => by
    obtain rfl := Option.some.inj hstep
    exact h.update _

theorem consistent_new (profileName : Text) (commandBarEnabled : Bool) (nowMs : Int64) :
    (new profileName commandBarEnabled nowMs : Window ρ).Consistent := ⟨rfl, rfl, rfl, nofun⟩

/-- The shell of a window whose parts agree. -/
def ShellOf (s : AppState ρ) (w : Window ρ) : Prop := s = w.shell ∧ w.Consistent

/-- What the shell is told. -/
def told (x : Step (Window ρ) (Int64 × WindowMsg ρ)) : List (Message ρ) := [x.input.2.toMessage]

/-- A message to the window is followed by the shell. -/
theorem shellOf_step (w : Window ρ) (i : Int64 × WindowMsg ρ) (w' : Window ρ) (s : AppState ρ)
    (hstep : Transition.ofFun step w i w') (h : ShellOf s w) :
    ∃ tr' s', Transition.Run (Transition.ofFun fun s msg => some (s.update msg)) s tr' s' ∧
      tr'.map Step.input = told ⟨w, i, w'⟩ ∧ ShellOf s' w' := by
  obtain ⟨rfl, hconsistent⟩ := h
  obtain rfl := Option.some.inj hstep
  exact ⟨_, _, Transition.Run.nil.snoc rfl, rfl, (shell_update hconsistent i.2).symm,
    hconsistent.update i.2⟩

/-- **A run of the window is a run of the shell**, with the same messages but for what is in
those to the panels; and in every state of it the shell knows which panels are open, and the new
tab page has its mode. -/
theorem shell_of_run {profileName : Text} {commandBarEnabled : Bool}
    (hrun : Run (new profileName commandBarEnabled nowMs) tr w) :
    (∃ tr', Transition.Run (Transition.ofFun fun s msg => some (s.update msg))
        (AppState.new profileName) tr' w.shell ∧
      tr'.map Step.input = tr.map fun x => x.input.2.toMessage) ∧ w.Consistent := by
  have hstart : ShellOf (AppState.new profileName) (new profileName commandBarEnabled nowMs :
      Window ρ) := ⟨rfl, consistent_new profileName commandBarEnabled nowMs⟩
  obtain ⟨tr', s, hshell, hinputs, rfl, hconsistent⟩ := hrun.simulation hstart shellOf_step
  exact ⟨⟨tr', hshell, hinputs.trans List.map_eq_flatMap.symm⟩, hconsistent⟩

/-- A profile is loaded, the last session is offered, the history is opened and closed, and the
session is gone on with. -/
def exampleMsgs : List (Int64 × WindowMsg Rat) :=
  [(0, .shell (.profileLoaded "default".toList) trivial),
    (1, .newTab (.sessionResumeLoaded (some ⟨3, "lean-lang.org".toList⟩))),
    (2, .history .opened),
    (3, .shell .findEscape trivial),
    (4, .newTab .resumeSessionPressed)]

/-- The window runs through these messages. -/
theorem shell_of_run_example : ∃ tr w, Run (new "default".toList true 0) tr w ∧
    tr.map Step.input = exampleMsgs ∧ w.Consistent ∧
    ∃ tr', Transition.Run (Transition.ofFun fun s msg => some (s.update msg))
        (AppState.new "default".toList) tr' w.shell ∧
      tr'.map Step.input = tr.map fun x => x.input.2.toMessage := by
  have hexec : (Transition.exec step (new "default".toList true 0) exampleMsgs).isSome = true := rfl
  obtain ⟨tr, w, hrun, hinputs⟩ := Transition.exists_run hexec
  obtain ⟨hshell, hconsistent⟩ := shell_of_run hrun
  exact ⟨tr, w, hrun, hinputs, hconsistent, hshell⟩

/-- **What was done in the last session is gone on with** only if it was offered while the window
was Standard, the window has not been Strict since, and nothing else was offered. -/
theorem resume_since {profileName : Text} {commandBarEnabled : Bool}
    (hrun : Run (new profileName commandBarEnabled nowMs) tr w)
    {before after : List (Step (Window ρ) (Int64 × WindowMsg ρ))}
    {x : Step (Window ρ) (Int64 × WindowMsg ρ)} (htr : tr = before ++ x :: after)
    (hevent : (x.pre.update x.input.1 x.input.2).2 = some (.resumeSession resume)) :
    x.pre.shell.mode = .standard ∧
      Since (fun y => y.input.2 = .newTab (.sessionResumeLoaded (some resume)) ∧
          y.pre.shell.mode = .standard)
        (fun y => y.post.shell.mode = .standard ∧
          ∀ resume', y.input.2 ≠ .newTab (.sessionResumeLoaded resume')) before := by
  subst htr
  obtain ⟨hbefore, -, -⟩ := hrun.cut
  have hstart := consistent_new (ρ := ρ) profileName commandBarEnabled nowMs
  have hstandard : ∀ {w : Window ρ}, w.Consistent → w.newTab.sessionResume = some resume →
      w.shell.mode = .standard := by
    intro w hw hresume
    rw [← hw.mode]
    cases hmode : w.newTab.mode with
    | standard => rfl
    | strict => cases (hw.forgets hmode).symm.trans hresume
  have hoffer := sessionResume_of_event hevent
  refine ⟨hstandard (consistent_of_run hstart hbefore) hoffer, ?_⟩
  revert hoffer
  refine hbefore.invariant (I := fun tr w => w.newTab.sessionResume = some resume →
    Since (fun y => y.input.2 = .newTab (.sessionResumeLoaded (some resume)) ∧
        y.pre.shell.mode = .standard)
      (fun y => y.post.shell.mode = .standard ∧
        ∀ resume', y.input.2 ≠ .newTab (.sessionResumeLoaded resume')) tr)
    (fun hresume => by cases hresume) ?_
  intro tr w i w' hpast ih hstep hoffer
  obtain rfl := Option.some.inj hstep
  have hw := consistent_of_run hstart hpast
  rcases sessionResume_update hw hoffer with hloaded | ⟨hnone, hoffered⟩
  · exact Transition.since_snoc.mpr (.inl hloaded)
  · exact Transition.since_snoc.mpr
      (.inr ⟨ih hoffered, hstandard (hw.update i.2) hoffer, hnone⟩)

/-- The session is gone on with that was offered. -/
theorem resume_since_example : ∃ tr w before x,
    Run (new "default".toList true 0 : Window Rat) tr w ∧ tr = before ++ [x] ∧
      x.pre.shell.mode = .standard ∧
      Since (fun y => y.input.2 =
            .newTab (.sessionResumeLoaded (some ⟨3, "lean-lang.org".toList⟩)) ∧
          y.pre.shell.mode = .standard)
        (fun y => y.post.shell.mode = .standard ∧
          ∀ resume', y.input.2 ≠ .newTab (.sessionResumeLoaded resume')) before := by
  have hexec : (Transition.exec step (new "default".toList true 0) exampleMsgs).any
      (fun p => decide ((p.1.getLast?.map fun x => (x.pre.update x.input.1 x.input.2).2) =
        some (some (.resumeSession ⟨3, "lean-lang.org".toList⟩)))) = true := by decide +kernel
  obtain ⟨tr, w, hrun, -, htest⟩ := Transition.exists_run_where hexec
  obtain ⟨x, hx, hevent⟩ := Option.map_eq_some_iff.mp (of_decide_eq_true htest)
  obtain ⟨before, rfl⟩ := List.getLast?_eq_some_iff.mp hx
  exact ⟨_, w, before, x, hrun, rfl, resume_since hrun rfl hevent⟩

end Window

end Ui

end DevBrowse
