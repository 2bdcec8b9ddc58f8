import DevBrowse.Ui.AddressBar
import DevBrowse.Ui.Panels
import Mathlib.Data.List.ModifyLast

/-!
# The shell

The shell holds the tab bar, the address bar, the sidebar and the card view, and hands every
message to the one it is for. The mode of a window is kept four times: by the shell, by the tab
bar, by the address bar and by the active tab. After most messages that change the active tab
the shell brings them together again (`DevBrowse.Ui.AppState.syncActiveTabMode`), in some arms
by hand and in some not.
-/

namespace DevBrowse

namespace Ui

/-- The phases of the application. -/
inductive AppPhase where
  /-- The profile is not loaded yet. -/
  | starting
  | ready
  /-- The window is being converted to Strict. -/
  | transitioningMode
  | closing
  deriving DecidableEq

/-- The messages to a panel of which only matters whether it is open. -/
inductive PanelMsg where
  | opened
  | closed
  /-- One that leaves it as open as it is. -/
  | other

/-- **The messages to the shell.** -/
inductive Message (ρ : Type*) where
  | profileLoaded (name : Text)
  | profileLoadFailed
  | convertToStrict
  | morphTick (elapsedMs : ℕ)
  | reducedTransparencyChanged (v : Bool)
  | reducedMotionChanged (v : Bool)
  | windowCloseRequested
  | windowResized (id : ℕ) (width height : ρ)
  | closeWindow
  | minimizeWindow
  | maximizeWindow
  | dragWindow
  | addressBar (msg : AddressBarMsg)
  | tabBar (msg : TabBarMsg ρ)
  | sidebar (msg : SidebarMsg)
  | cardView (msg : CardViewMsg)
  /-- One to the new tab page, which is not modelled. -/
  | newTab
  | globalDragMove (x : ρ)
  | globalDragEnd
  | hideTooltip
  | find (msg : PanelMsg)
  | findEscape
  | history (msg : PanelMsg)
  | none

/-- **The state of the shell.** -/
structure AppState (ρ : Type*) where
  /-- The mode the window shows. -/
  mode : Mode
  /-- The phase it is in. -/
  phase : AppPhase
  /-- The name of the profile. -/
  profileName : Text
  /-- The width of the window. -/
  windowWidth : ρ
  /-- The height of the window. -/
  windowHeight : ρ
  /-- The window, once it is known. -/
  windowId : Option ℕ
  /-- Whether it fills the screen. -/
  isFullscreen : Bool
  /-- Whether there is to be less transparency. -/
  reducedTransparency : Bool
  /-- Whether there is to be less motion. -/
  reducedMotion : Bool
  /-- How long it has been converting. -/
  morphElapsedMs : ℕ
  /-- The address bar. -/
  addressBar : AddressBar
  /-- The tab bar. -/
  tabBar : TabBar ρ
  /-- The sidebar. -/
  sidebar : Sidebar
  /-- The card view. -/
  cardView : CardView
  /-- Whether the find bar is open. -/
  findOpen : Bool
  /-- Whether the history is open. -/
  historyOpen : Bool

/-- Whether a panel is open after a message. -/
def PanelMsg.apply (isOpen : Bool) : PanelMsg → Bool
  | .opened => true
  | .closed => false
  | .other => isOpen

namespace AppState

variable {ρ : Type*} [Px ρ]

/-- The state at the start. -/
def new (profileName : Text) : AppState ρ where
  mode := .standard
  phase := .starting
  profileName := profileName
  windowWidth := 1280.0
  windowHeight := 800.0
  windowId := none
  isFullscreen := false
  reducedTransparency := false
  reducedMotion := false
  morphElapsedMs := 0
  addressBar := .newStub .standard
  tabBar := TabBar.new.syncWindow 1280.0
  sidebar := .new
  cardView := .new
  findOpen := false
  historyOpen := false

/-! ### Bringing the modes together -/

/-- The title of a tab without an address. -/
def startPage : Text := "Start Page".toList

/-- A tab with the title of one without an address, if it has none. -/
def stamp (tab : TabEntry) : TabEntry :=
  if tab.url.isEmpty then { tab with title := startPage } else tab

/-- Give the last tab its title. -/
def stampStartPageTitle (s : AppState ρ) : AppState ρ :=
  { s with tabBar.tabs := s.tabBar.tabs.modifyLast stamp }

/-- **Show the mode of the active tab**, everywhere. -/
def syncActiveTabMode (s : AppState ρ) : AppState ρ :=
  match s.tabBar.tabOf s.tabBar.activeId with
  | none => s
  | some tab =>
    { s with
      mode := tab.mode
      tabBar := s.tabBar.syncMode tab.mode s.profileName
      addressBar := s.addressBar.resetForTab s.tabBar.activeId tab.url tab.mode }

/-- Show the page of a window without tabs. -/
def showHome (s : AppState ρ) : AppState ρ :=
  { s with
    mode := .standard
    tabBar := s.tabBar.syncMode .standard s.profileName
    addressBar := s.addressBar.resetForTab 0 [] .standard }

/-- The active tab becomes Strict. -/
def becomeStrict (s : AppState ρ) : AppState ρ :=
  { s with
    mode := .strict
    addressBar := s.addressBar.syncMode .strict
    tabBar := s.tabBar.syncMode .strict s.profileName }

/-- The address bar starts over for a tab that is new. -/
def resetForNewTab (s : AppState ρ) : AppState ρ :=
  { s with addressBar := s.addressBar.resetForTab s.tabBar.activeId [] s.mode }

/-! ### The arms of the update -/

/-- The profile is loaded. -/
def profileLoaded (s : AppState ρ) (name : Text) : AppState ρ :=
  let tabBar := s.tabBar.syncMode s.mode name
  syncActiveTabMode { s with
    profileName := name
    phase := .ready
    tabBar := { tabBar with tabs := tabBar.tabs.map stamp } }

/-- How long a conversion takes. -/
def modeConvertMs : ℕ := 600

/-- How long a conversion takes in this window. -/
def targetMs (s : AppState ρ) : ℕ := if s.reducedMotion then 0 else modeConvertMs

/-- The conversion goes on, and is done in the end. -/
def morphTick (s : AppState ρ) (elapsedMs : ℕ) : AppState ρ :=
  if s.phase = .transitioningMode then
    let ticked := { s with morphElapsedMs := min elapsedMs s.targetMs }
    if s.targetMs ≤ ticked.morphElapsedMs then { ticked.becomeStrict with phase := .ready }
    else ticked
  else s

/-- What the address bar asks for. -/
def onAddressBarEvent (s : AppState ρ) : AddressBarEvent → AppState ρ
  | .convertToStrictClicked =>
    if s.mode = .standard ∧ s.phase = .ready then s.becomeStrict else s
  | .navigationCommitted url mode =>
    if s.tabBar.tabs.isEmpty then
      let tabBar := (s.tabBar.update .newTabPressed).1
      let commit (tab : TabEntry) : TabEntry := { tab with url := url, mode := mode }
      syncActiveTabMode { s with tabBar := { tabBar with tabs := tabBar.tabs.modifyLast commit } }
    else s
  | .networkViewerRequested => s

/-- A message to the address bar. -/
def onAddressBar (s : AppState ρ) (msg : AddressBarMsg) : AppState ρ :=
  let (addressBar, event) := s.addressBar.update msg
  let updated := { s with addressBar := addressBar }
  match event with
  | some event => updated.onAddressBarEvent event
  | none => updated

/-- What the tab bar asks for, but for the freeze of the strip. -/
def onTabBarEvent (s : AppState ρ) : TabBarEvent → AppState ρ
  | .tabClosed id => syncActiveTabMode { s with addressBar := s.addressBar.forgetTab id }
  | .allTabsClosed => s.showHome
  | .newTabRequested => s.stampStartPageTitle.resetForNewTab
  | .tabScreenRequested => { s with cardView := s.cardView.openView s.tabBar.tabs.length }
  | .windowDragRequested | .stabilizeRequested _ => s

/-- A message to the tab bar. -/
def onTabBar (s : AppState ρ) (msg : TabBarMsg ρ) : AppState ρ :=
  let prevActive := s.tabBar.activeId
  let (tabBar, event) := s.tabBar.update msg
  let updated := { s with tabBar := tabBar }
  match event with
  | some (.stabilizeRequested _) =>
    if tabBar.activeId ≠ prevActive then
      syncActiveTabMode { updated with addressBar := s.addressBar.forgetTab prevActive }
    else updated
  | event =>
    let handled := match event with
      | some event => updated.onTabBarEvent event
      | none => updated
    -- the strip activates a tab without an event
    if handled.tabBar.activeId ≠ prevActive then handled.syncActiveTabMode else handled

/-- A tab is activated from elsewhere. -/
def activate (s : AppState ρ) (id : ℕ) : AppState ρ :=
  syncActiveTabMode { s with tabBar := (s.tabBar.update (.tabActivated id)).1 }

/-- What the sidebar asks for. -/
def onSidebarEvent (s : AppState ρ) : SidebarEvent → AppState ρ
  | .tabActivated id => s.activate id
  | .newTabRequested =>
    -- here the modes are not brought together
    resetForNewTab (stampStartPageTitle { s with tabBar := (s.tabBar.update .newTabPressed).1 })
  | .tabsReordered fromId toId =>
    match Keyed.position TabEntry.id fromId s.tabBar.tabs,
      Keyed.position TabEntry.id toId s.tabBar.tabs with
    | some f, some t => { s with tabBar.tabs := Keyed.swap f t s.tabBar.tabs }
    | _, _ => s
  | .tabCloseRequested id =>
    let (tabBar, event) := s.tabBar.update (.tabCloseRequested id)
    let updated := { s with tabBar := tabBar }
    match event with
    | some .allTabsClosed => updated.showHome
    | some (.tabClosed _) => updated.syncActiveTabMode
    | _ => updated
  | .searchRequested | .favoritesRequested | .gearRequested | .windowDragRequested
  | .tooltipPillLeft => s

/-- A message to the sidebar. -/
def onSidebar (s : AppState ρ) (msg : SidebarMsg) : AppState ρ :=
  let (sidebar, event) := s.sidebar.update msg
  let updated := { s with sidebar := sidebar }
  match event with
  | some event => updated.onSidebarEvent event
  | none => updated

/-- What the card view asks for. -/
def onCardViewEvent (s : AppState ρ) : CardViewEvent → AppState ρ
  | .tabActivated id => s.activate id
  | .tabCloseRequested id =>
    syncActiveTabMode { s with tabBar := (s.tabBar.update (.tabCloseRequested id)).1 }

/-- A message to the card view. -/
def onCardView (s : AppState ρ) (msg : CardViewMsg) : AppState ρ :=
  let (cardView, event) := s.cardView.update s.tabBar.tabs msg
  let updated := { s with cardView := cardView }
  match event with
  | some event => updated.onCardViewEvent event
  | none => updated

/-- The cursor moves outside the strip while a tab is dragged. -/
def globalDragMove (s : AppState ρ) (x : ρ) : AppState ρ :=
  if s.tabBar.dragActive then
    { s with
      tabBar := (s.tabBar.update (.stripMoved (max (x - TabBar.sidebarCollapsedPx) 0.0))).1 }
  else s

/-- The mouse is released outside the strip and the sidebar. -/
def globalDragEnd (s : AppState ρ) : AppState ρ :=
  { s with
    tabBar :=
      if s.tabBar.dragId.isSome || s.tabBar.dragActive then (s.tabBar.update .stripReleased).1
      else s.tabBar
    sidebar := if s.sidebar.dragging then (s.sidebar.update .sidebarReleased).1 else s.sidebar }

/-- Escape closes what is open: the find bar, else the history, else the card view. -/
def findEscape (s : AppState ρ) : AppState ρ :=
  if s.findOpen then { s with findOpen := PanelMsg.apply s.findOpen .closed }
  else if s.historyOpen then { s with historyOpen := PanelMsg.apply s.historyOpen .closed }
  else if s.cardView.isOpen then { s with cardView.isOpen := false }
  else s

/-- **What a message does to the shell.** -/
def update (s : AppState ρ) : Message ρ → AppState ρ
  | .profileLoaded name => s.profileLoaded name
  | .profileLoadFailed => s
  | .convertToStrict =>
    if s.mode = .standard ∧ s.phase = .ready then
      { s with phase := .transitioningMode, morphElapsedMs := 0 }
    else s
  | .morphTick elapsedMs => s.morphTick elapsedMs
  | .reducedTransparencyChanged v => { s with reducedTransparency := v }
  | .reducedMotionChanged v => { s with reducedMotion := v, addressBar.reducedMotion := v }
  | .windowResized id width height =>
    { s with
      windowId := some id
      windowWidth := width
      windowHeight := height
      tabBar := s.tabBar.syncWindow width }
  | .closeWindow | .minimizeWindow | .dragWindow => s
  | .maximizeWindow =>
    if s.windowId.isSome then { s with isFullscreen := !s.isFullscreen } else s
  | .windowCloseRequested => { s with phase := .closing }
  | .addressBar msg => s.onAddressBar msg
  | .tabBar msg => s.onTabBar msg
  | .sidebar msg => s.onSidebar msg
  | .cardView msg => s.onCardView msg
  | .newTab => s
  | .hideTooltip => { s with sidebar := s.sidebar.commitHide }
  | .globalDragMove x => s.globalDragMove x
  | .globalDragEnd => s.globalDragEnd
  | .find msg => { s with findOpen := msg.apply s.findOpen }
  | .history msg => { s with historyOpen := msg.apply s.historyOpen }
  | .findEscape => s.findEscape
  | .none => s

end AppState

/-! ### What bringing the modes together leaves -/

namespace AppState

variable {ρ : Type*} {s : AppState ρ} {tab : TabEntry}

@[simp] theorem tabs_syncActiveTabMode (s : AppState ρ) :
    s.syncActiveTabMode.tabBar.tabs = s.tabBar.tabs := by
  rw [syncActiveTabMode]
  split
  · rfl
  · rename_i tab htab
    refine Keyed.modify_eq_self fun tab' htab' => ?_
    obtain rfl : tab = tab' := Option.some.inj (htab.symm.trans htab')
    rfl

@[simp] theorem activeId_syncActiveTabMode (s : AppState ρ) :
    s.syncActiveTabMode.tabBar.activeId = s.tabBar.activeId := by
  rw [syncActiveTabMode]
  split <;> rfl

@[simp] theorem hoveredTabId_syncActiveTabMode (s : AppState ρ) :
    s.syncActiveTabMode.tabBar.hoveredTabId = s.tabBar.hoveredTabId := by
  rw [syncActiveTabMode]
  split <;> rfl

@[simp] theorem phase_syncActiveTabMode (s : AppState ρ) :
    s.syncActiveTabMode.phase = s.phase := by
  rw [syncActiveTabMode]
  split <;> rfl

/-- **Brought together, the modes are those of the active tab.** -/
theorem mode_syncActiveTabMode (hnodup : s.tabBar.ids.Nodup) (htab : tab ∈ s.tabBar.tabs)
    (hactive : tab.id = s.tabBar.activeId) :
    s.syncActiveTabMode.mode = tab.mode ∧ s.syncActiveTabMode.tabBar.mode = tab.mode ∧
      s.syncActiveTabMode.addressBar.mode = tab.mode := by
  have hfind : s.tabBar.tabOf s.tabBar.activeId = some tab :=
    (Keyed.find_eq_some_iff hnodup).mpr ⟨htab, hactive⟩
  rw [syncActiveTabMode, hfind]
  exact ⟨rfl, rfl, AddressBar.mode_resetForTab _ _ _ _⟩

/-- Without an active tab there is nothing to bring together. -/
theorem syncActiveTabMode_of_notMem (h : s.tabBar.activeId ∉ s.tabBar.ids) :
    s.syncActiveTabMode = s := by
  have hfind : s.tabBar.tabOf s.tabBar.activeId = none := Keyed.find_eq_none_iff.mpr h
  rw [syncActiveTabMode, hfind]

/-- A window without tabs has none on its page either. -/
theorem tabs_showHome (h : s.tabBar.tabs = []) : s.showHome.tabBar.tabs = [] := by
  show Keyed.modify TabEntry.id s.tabBar.activeId _ s.tabBar.tabs = []
  rw [h]
  rfl

/-! ### Identifier and mode of the tabs -/

/-- Identifier and mode of every tab. -/
def faces (tabs : List TabEntry) : List (ℕ × Mode) := tabs.map fun tab => (tab.id, tab.mode)

theorem mem_faces {tabs : List TabEntry} {id : ℕ} {mode : Mode} :
    (id, mode) ∈ faces tabs ↔ ∃ tab ∈ tabs, tab.id = id ∧ tab.mode = mode := by
  simp [faces]

theorem map_id_of_faces {tabs tabs' : List TabEntry} (h : faces tabs' = faces tabs) :
    tabs'.map TabEntry.id = tabs.map TabEntry.id := by
  have hfst := congrArg (List.map Prod.fst) h
  simpa [faces, Function.comp_def] using hfst

theorem eq_nil_of_faces {tabs tabs' : List TabEntry} (h : faces tabs' = faces tabs)
    (hnil : tabs' = []) : tabs = [] := by
  rw [hnil] at h
  exact List.map_eq_nil_iff.mp h.symm

theorem faces_stamp (tabs : List TabEntry) : faces (tabs.map stamp) = faces tabs := by
  rw [faces, List.map_map]
  refine List.map_congr_left fun tab _ => ?_
  rw [Function.comp_apply, stamp]
  split_ifs <;> rfl

theorem faces_stampStartPageTitle (s : AppState ρ) :
    faces s.stampStartPageTitle.tabBar.tabs = faces s.tabBar.tabs := by
  show faces (s.tabBar.tabs.modifyLast stamp) = _
  rcases List.eq_nil_or_concat s.tabBar.tabs with hnil | ⟨tabs, tab, hconcat⟩
  · rw [hnil]
    rfl
  · have hlast := faces_stamp [tab]
    rw [hconcat, List.concat_eq_append, List.modifyLast_concat, faces, List.map_append, faces,
      List.map_append]
    exact congrArg _ hlast

/-- An address is committed in the tab that was opened for it. -/
theorem ids_commit (s : AppState ρ) (url : Text) (mode : Mode) :
    ((s.tabBar.tabs ++ [s.tabBar.nextTab]).modifyLast fun tab : TabEntry =>
      { tab with url := url, mode := mode }).map TabEntry.id = s.tabBar.newTab.ids := by
  rw [List.modifyLast_concat, TabBar.ids, TabBar.newTab, List.map_append, List.map_append]
  rfl

end AppState

end Ui

end DevBrowse
