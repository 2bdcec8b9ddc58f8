import DevBrowse.Ui.OpenTabs
import DevBrowse.Ui.StrictOneWay

/-!
# The records of the tabs

The shell keeps a record of every tab, with the address it shows, and one address bar for all of
them. What a message does to the records is said once, `DevBrowse.Ui.AppState.recorded_update`:
it puts them in another order, closes a tab, or opens one. The address of a record is written
when the tab is opened and never after. What a message does to the address bar beside is little:
it starts over from the record of the active tab (`DevBrowse.Ui.AppState.StartsOver`), or shows
what it showed (`DevBrowse.Ui.AppState.keepsBar_cases`).
-/

namespace DevBrowse

namespace Ui

/-- What a pill of the sidebar asks to be closed is its tab. -/
theorem Sidebar.event_tabCloseRequested {sb : Sidebar} {msg : SidebarMsg} {id : ℕ}
    (h : (sb.update msg).2 = some (.tabCloseRequested id)) : msg = .pillClosePressed id := by
  cases msg with
  | pillClosePressed id' =>
    cases h
    rfl
  | pillReleased id' =>
    rw [Sidebar.update] at h
    split_ifs at h
    cases h
  | pillEntered toId =>
    rw [Sidebar.update] at h
    dsimp only at h
    split_ifs at h
    split at h
    · split_ifs at h
      cases h
    · cases h
  | dragRequested =>
    rw [Sidebar.update] at h
    split_ifs at h
    cases h
  | _ => cases h

namespace AppState

variable {ρ : Type*} {s s' : AppState ρ} {tabs tabs' : List TabEntry} {id : ℕ}
  {rs : List (ℕ × Text)}

/-- Identifier and address of every tab. -/
def records (tabs : List TabEntry) : List (ℕ × Text) := tabs.map fun tab => (tab.id, tab.url)

theorem mem_records {url : Text} :
    (id, url) ∈ records tabs ↔ ∃ tab ∈ tabs, tab.id = id ∧ tab.url = url := by
  simp [records]

theorem map_fst_records (tabs : List TabEntry) :
    (records tabs).map Prod.fst = tabs.map TabEntry.id := by
  simp [records, Function.comp_def]

@[simp] theorem records_syncMode (tb : TabBar ρ) (mode : Mode) (name : Text) :
    records (tb.syncMode mode name).tabs = records tb.tabs := Keyed.map_modify fun _ => rfl

theorem records_map_stamp (tabs : List TabEntry) : records (tabs.map stamp) = records tabs := by
  rw [records, List.map_map]
  refine List.map_congr_left fun tab _ => ?_
  rw [Function.comp_apply, stamp]
  split_ifs <;> rfl

@[simp] theorem records_stampStartPageTitle (s : AppState ρ) :
    records s.stampStartPageTitle.tabBar.tabs = records s.tabBar.tabs := by
  show records (s.tabBar.tabs.modifyLast stamp) = _
  rcases List.eq_nil_or_concat s.tabBar.tabs with hnil | ⟨tabs, tab, hconcat⟩
  · rw [hnil]
    rfl
  · have hlast := records_map_stamp [tab]
    rw [hconcat, List.concat_eq_append, List.modifyLast_concat, records, List.map_append, records,
      List.map_append]
    exact congrArg _ hlast

@[simp] theorem records_showHome (s : AppState ρ) :
    records s.showHome.tabBar.tabs = records s.tabBar.tabs :=
  records_syncMode s.tabBar .standard s.profileName

/-! ### What a message does to the records -/

/-- A tab that is asked to be closed is: there is no dialog for it. -/
def Unguarded (s : AppState ρ) (id : ℕ) : Prop :=
  ∀ tab, s.tabBar.tabOf id = some tab → ¬ tab.Guarded

variable [Px ρ]

/-- **The tabs a message closes**, where they are open. -/
def Closes (s : AppState ρ) : Message ρ → ℕ → Prop
  | .tabBar (.tabCloseRequested id'), id => id' = id ∧ s.Unguarded id
  | .tabBar .stripPressed, id => s.tabBar.hoveredTabId = some id ∧ s.tabBar.cursorInCloseZone = true
  | .tabBar .strictCloseConfirmed, id => s.tabBar.modal = .confirming id
  | .sidebar (.pillClosePressed id'), id => id' = id ∧ s.Unguarded id
  | .cardView msg, id => s.cardView.closeTarget s.tabBar.tabs msg = some id ∧ s.Unguarded id
  | _, _ => False

/-- The messages that open a tab without an address. -/
def Opens : Message ρ → Prop
  | .tabBar .newTabPressed | .sidebar .newTabPressed => True
  | _ => False

/-- **What a message does to the records.** -/
inductive Recorded (s : AppState ρ) : Message ρ → List (ℕ × Text) → Prop
  /-- Nothing, but for their order. -/
  | kept {msg : Message ρ} {rs : List (ℕ × Text)} (hperm : rs.Perm (records s.tabBar.tabs)) :
      Recorded s msg rs
  /-- A tab is closed. -/
  | closed {msg : Message ρ} {id : ℕ} (hcloses : s.Closes msg id) :
      Recorded s msg (records (Keyed.remove TabEntry.id id s.tabBar.tabs))
  /-- A tab is opened, without an address. -/
  | opened {msg : Message ρ} (hopens : Opens msg) :
      Recorded s msg (records s.tabBar.tabs ++ [(s.tabBar.nextId, [])])
  /-- A tab is opened for the address that is committed where there is none. -/
  | committed (hnil : s.tabBar.tabs = []) (hfocus : s.addressBar.barState = .focused) :
      Recorded s (.addressBar .navigatePressed) [(s.tabBar.nextId, s.addressBar.committedUrl)]

theorem recorded_of_eq {msg : Message ρ} (h : records tabs' = records s.tabBar.tabs) :
    Recorded s msg (records tabs') := .kept (.of_eq h)

/-- What a message to the tab bar does to the records, whoever sends it. -/
theorem recorded_of_effect {msg : Message ρ} {tbMsg : TabBarMsg ρ} {tb' : TabBar ρ}
    (heffect : TabBar.Effect s.tabBar tbMsg tb')
    (hcloses : ∀ id, s.Closes (.tabBar tbMsg) id → s.Closes msg id)
    (hopens : tbMsg = .newTabPressed → Opens msg) : Recorded s msg (records tb'.tabs) := by
  cases heffect with
  | kept _ htabs => exact .kept (htabs.map _)
  | asked _ _ htabs | cancelled htabs => exact recorded_of_eq (congrArg records htabs)
  | closed hfree htabs =>
    rw [htabs]
    exact .closed (hcloses _ ⟨rfl, hfree⟩)
  | pressed hhover hzone htabs =>
    rw [htabs]
    exact .closed (hcloses _ ⟨hhover, hzone⟩)
  | confirmed hasked htabs =>
    rw [htabs]
    exact .closed (hcloses _ hasked)
  | opened htabs =>
    rw [htabs, records, List.map_append]
    exact .opened (hopens rfl)

/-- What the shell does after a message to the tab bar leaves the records. -/
theorem records_onTabBar (s : AppState ρ) (msg : TabBarMsg ρ) :
    records (s.onTabBar msg).tabBar.tabs = records (s.tabBar.update msg).1.tabs := by
  have hlast : ∀ s' : AppState ρ, records s'.tabBar.tabs = records (s.tabBar.update msg).1.tabs →
      records (if s'.tabBar.activeId ≠ s.tabBar.activeId then s'.syncActiveTabMode
        else s').tabBar.tabs = records (s.tabBar.update msg).1.tabs := by
    intro s' h'
    split_ifs
    · rw [tabs_syncActiveTabMode, h']
    · exact h'
  rw [onTabBar]
  dsimp only
  split
  · split_ifs
    · rw [tabs_syncActiveTabMode]
    · rfl
  · refine hlast _ ?_
    cases (s.tabBar.update msg).2 with
    | none => rfl
    | some event =>
      cases event with
      | tabClosed id => exact congrArg records (tabs_syncActiveTabMode _)
      | allTabsClosed => exact records_showHome _
      | newTabRequested => exact records_stampStartPageTitle _
      | windowDragRequested | tabScreenRequested | stabilizeRequested => rfl

theorem recorded_onTabBar (s : AppState ρ) (msg : TabBarMsg ρ) :
    Recorded s (.tabBar msg) (records (s.onTabBar msg).tabBar.tabs) := by
  rw [records_onTabBar]
  refine recorded_of_effect (TabBar.effect_update s.tabBar msg) (fun _ => id) ?_
  rintro rfl
  trivial

theorem recorded_onSidebar (s : AppState ρ) (msg : SidebarMsg) :
    Recorded s (.sidebar msg) (records (s.onSidebar msg).tabBar.tabs) := by
  have hself : ∀ s' : AppState ρ, s'.tabBar = s.tabBar →
      Recorded s (.sidebar msg) (records s'.tabBar.tabs) :=
    fun s' h => recorded_of_eq (congrArg (fun tb => records tb.tabs) h)
  rw [onSidebar]
  dsimp only
  split
  · rename_i event hevent
    cases event with
    | tabActivated id =>
      rw [onSidebarEvent, activate, tabs_syncActiveTabMode]
      exact recorded_of_eq rfl
    | newTabRequested =>
      obtain rfl := (Sidebar.event_update hevent).2 rfl
      have hopened : Recorded s (.sidebar .newTabPressed) (records s.tabBar.newTab.tabs) :=
        recorded_of_effect (TabBar.effect_update s.tabBar .newTabPressed) (fun _ => False.elim)
          fun _ => trivial
      rw [← records_stampStartPageTitle { s with tabBar := s.tabBar.newTab }] at hopened
      exact hopened
    | tabsReordered fromId toId =>
      rw [onSidebarEvent]
      split
      · exact .kept ((Keyed.swap_perm _ _ _).map _)
      · exact hself _ rfl
    | tabCloseRequested id =>
      obtain rfl := Sidebar.event_tabCloseRequested hevent
      have hclosed : Recorded s (.sidebar (.pillClosePressed id))
          (records (s.tabBar.update (.tabCloseRequested id)).1.tabs) :=
        recorded_of_effect (TabBar.effect_update s.tabBar (.tabCloseRequested id))
          (fun _ h => h) (by rintro ⟨⟩)
      rw [onSidebarEvent]
      dsimp only
      split
      · rw [records_showHome]
        exact hclosed
      · rw [tabs_syncActiveTabMode]
        exact hclosed
      · exact hclosed
    | _ => exact hself _ rfl
  · exact hself _ rfl

theorem recorded_onCardView (s : AppState ρ) (msg : CardViewMsg) :
    Recorded s (.cardView msg) (records (s.onCardView msg).tabBar.tabs) := by
  rw [onCardView]
  dsimp only
  split
  · rename_i event hevent
    cases event with
    | tabActivated id =>
      rw [onCardViewEvent, activate, tabs_syncActiveTabMode]
      exact recorded_of_eq rfl
    | tabCloseRequested id =>
      have htarget := CardView.closeTarget_of_tabCloseRequested hevent
      rw [onCardViewEvent, tabs_syncActiveTabMode]
      refine recorded_of_effect (TabBar.effect_update s.tabBar (.tabCloseRequested id)) ?_
        (by rintro ⟨⟩)
      rintro _ ⟨rfl, hfree⟩
      exact ⟨htarget, hfree⟩
  · exact recorded_of_eq rfl

theorem recorded_onAddressBar (s : AppState ρ) (msg : AddressBarMsg) :
    Recorded s (.addressBar msg) (records (s.onAddressBar msg).tabBar.tabs) := by
  rw [onAddressBar]
  dsimp only
  split
  · rename_i event hevent
    cases event with
    | convertToStrictClicked =>
      rw [onAddressBarEvent]
      split_ifs
      · exact recorded_of_eq (records_syncMode s.tabBar .strict s.profileName)
      · exact recorded_of_eq rfl
    | navigationCommitted url mode =>
      obtain ⟨rfl, hfocus, rfl, -⟩ := AddressBar.event_update_commit hevent
      rw [onAddressBarEvent]
      dsimp only
      split_ifs with hempty
      · have hnil : s.tabBar.tabs = [] := List.isEmpty_iff.mp hempty
        rw [tabs_syncActiveTabMode]
        have hone : records ((s.tabBar.tabs ++ [s.tabBar.nextTab]).modifyLast fun tab : TabEntry =>
            { tab with url := s.addressBar.committedUrl, mode := mode }) =
            [(s.tabBar.nextId, s.addressBar.committedUrl)] := by
          rw [hnil, List.modifyLast_concat]
          rfl
        exact hone ▸ .committed hnil hfocus
      · exact recorded_of_eq rfl
    | networkViewerRequested => exact recorded_of_eq rfl
  · exact recorded_of_eq rfl

/-- **What a message to the shell does to the records.** -/
theorem recorded_update (s : AppState ρ) (msg : Message ρ) :
    Recorded s msg (records (s.update msg).tabBar.tabs) := by
  cases msg with
  | profileLoaded name =>
    rw [update, profileLoaded, tabs_syncActiveTabMode]
    refine recorded_of_eq ?_
    rw [records_map_stamp]
    exact records_syncMode s.tabBar s.mode name
  | morphTick elapsedMs =>
    rw [update, morphTick]
    dsimp only
    split_ifs
    · exact recorded_of_eq (records_syncMode s.tabBar .strict s.profileName)
    · exact recorded_of_eq rfl
    · exact recorded_of_eq rfl
  | addressBar msg => exact recorded_onAddressBar s msg
  | tabBar msg => exact recorded_onTabBar s msg
  | sidebar msg => exact recorded_onSidebar s msg
  | cardView msg => exact recorded_onCardView s msg
  | globalDragMove x =>
    rw [update, globalDragMove]
    split_ifs
    · exact .kept ((TabBar.tabs_stripMoved_perm s.tabBar _).map _)
    · exact recorded_of_eq rfl
  | globalDragEnd =>
    rw [update, globalDragEnd]
    split_ifs <;> exact recorded_of_eq rfl
  | convertToStrict | maximizeWindow | findEscape =>
    simp only [update, findEscape]
    split_ifs <;> exact recorded_of_eq rfl
  | _ => exact recorded_of_eq rfl

/-- **A message that closes a tab closes it.** -/
theorem records_of_closes {msg : Message ρ} (h : s.Closes msg id) :
    records (s.update msg).tabBar.tabs = records (Keyed.remove TabEntry.id id s.tabBar.tabs) := by
  -- a tab that needs no dialog
  have hask : ∀ {id}, s.Unguarded id →
      (s.tabBar.update (.tabCloseRequested id)).1.tabs =
        Keyed.remove TabEntry.id id s.tabBar.tabs := by
    intro id hfree
    rw [TabBar.update, TabBar.closeRequested_of_not_guarded hfree, TabBar.tabs_closeTab]
  cases msg with
  | tabBar tbMsg =>
    change records (s.onTabBar tbMsg).tabBar.tabs = _
    rw [records_onTabBar]
    cases tbMsg with
    | tabCloseRequested id' =>
      obtain ⟨rfl, hfree⟩ := h
      rw [hask hfree]
    | stripPressed =>
      rw [TabBar.update, TabBar.stripPressed_of_zone h.1 h.2, TabBar.tabs_closeTab]
    | strictCloseConfirmed =>
      have hmodal : s.tabBar.modal = .confirming id := h
      rw [TabBar.update, hmodal]
      dsimp only
      rw [TabBar.tabs_closeTab]
    | _ => exact h.elim
  | sidebar sbMsg =>
    cases sbMsg with
    | pillClosePressed id' =>
      obtain ⟨rfl, hfree⟩ := h
      rw [← hask hfree]
      change records (onSidebarEvent _ _).tabBar.tabs = _
      rw [onSidebarEvent]
      dsimp only
      split
      · exact records_showHome _
      · rw [tabs_syncActiveTabMode]
      · rfl
    | _ => exact h.elim
  | cardView cvMsg =>
    obtain ⟨htarget, hfree⟩ := h
    rw [← hask hfree]
    change records (s.onCardView cvMsg).tabBar.tabs = _
    rw [onCardView]
    dsimp only
    rw [CardView.event_of_closeTarget htarget]
    dsimp only
    rw [onCardViewEvent, tabs_syncActiveTabMode]
  | _ => exact h.elim

/-! ### What a message does to the address bar -/

omit [Px ρ] in
/-- The bar shows the record of the active tab: its address, and no button where it has one. -/
def Rebuilt (s : AppState ρ) : Prop :=
  ∀ tab, s.tabBar.tabOf s.tabBar.activeId = some tab →
    s.addressBar.currentUrl = tab.url ∧ (tab.url ≠ [] → s.addressBar.chipState = .hidden)

/-- The bar shows what it showed, and the same tab is active. -/
structure SameBar (s s' : AppState ρ) : Prop where
  /-- The same tab is active. -/
  active : s'.tabBar.activeId = s.tabBar.activeId
  /-- The button is as it was. -/
  chip : s'.addressBar.chipState = s.addressBar.chipState
  /-- The address is the same. -/
  url : s'.addressBar.currentUrl = s.addressBar.currentUrl

/-- **The messages that let the address bar start over** for a tab that is open: the one that is
active, or becomes active. -/
def StartsOver (s : AppState ρ) : Message ρ → ℕ → Prop
  | .profileLoaded _, id => id = s.tabBar.activeId
  | .tabBar msg, id => id = (s.tabBar.update msg).1.activeId ∧
    (id ≠ s.tabBar.activeId ∨ ∃ id', (s.tabBar.update msg).2 = some (.tabClosed id'))
  | .sidebar msg, id => (s.sidebar.update msg).2 = some (.tabActivated id) ∨
    ∃ id' id'', (s.sidebar.update msg).2 = some (.tabCloseRequested id') ∧
      (s.tabBar.update (.tabCloseRequested id')).2 = some (.tabClosed id'') ∧
      id = (s.tabBar.update (.tabCloseRequested id')).1.activeId
  | .cardView msg, id => (s.cardView.update s.tabBar.tabs msg).2 = some (.tabActivated id) ∨
    ∃ id', (s.cardView.update s.tabBar.tabs msg).2 = some (.tabCloseRequested id') ∧
      id = (s.tabBar.update (.tabCloseRequested id')).1.activeId
  | _, _ => False

omit [Px ρ] in
/-- The tab that is active was not open before, or no tab is. -/
def ShownFirst (s s' : AppState ρ) : Prop :=
  s'.tabBar.activeId ∉ s.tabBar.ids ∨ s'.tabBar.tabs = []

/-- What the shell leaves of the address bar, if it hands it no message and the bar starts over
for some tabs. -/
structure KeepsBar (starts : ℕ → Prop) (s s' : AppState ρ) : Prop where
  /-- It has touched the bar, at most. -/
  touched : s.addressBar.Touched s'.addressBar
  /-- A tab the bar starts over for is active, and the bar shows its record. -/
  rebuilt : ∀ id, starts id → s'.tabBar.activeId = id ∧ s'.Rebuilt
  /-- Where there is none the bar shows what it showed, or the record of a tab that is new. -/
  same : (∀ id, ¬ starts id) → SameBar s s' ∨ s'.Rebuilt ∧ ShownFirst s s'

section KeepsBar

omit [Px ρ]

variable {starts : ℕ → Prop}

theorem keepsBar_of_eq (hbar : s'.addressBar = s.addressBar)
    (hactive : s'.tabBar.activeId = s.tabBar.activeId) (hstarts : ∀ id, ¬ starts id) :
    KeepsBar starts s s' := by
  have htouched : s.addressBar.Touched s'.addressBar := hbar ▸ .refl
  have hsame : SameBar s s' := ⟨hactive, by rw [hbar], by rw [hbar]⟩
  exact ⟨htouched, fun id h => absurd h (hstarts id), fun _ => .inl hsame⟩

theorem rebuilt_of_tabs_eq_nil (h : s.tabBar.tabs = []) : s.Rebuilt := by
  intro tab hfind
  rw [TabBar.tabOf, h] at hfind
  cases hfind

/-- **Bringing the modes together lets the bar start over.** -/
theorem rebuilt_sync (s : AppState ρ) : s.syncActiveTabMode.Rebuilt := by
  intro tab hfind
  rw [activeId_syncActiveTabMode, TabBar.tabOf, tabs_syncActiveTabMode] at hfind
  have hbar : s.syncActiveTabMode.addressBar =
      s.addressBar.resetForTab s.tabBar.activeId tab.url tab.mode := by
    rw [syncActiveTabMode, TabBar.tabOf, hfind]
  rw [hbar]
  exact ⟨AddressBar.currentUrl_resetForTab _ _ _ _, AddressBar.chipState_resetForTab _ _ _⟩

theorem touched_sync {ab : AddressBar} (h : ab.Touched s.addressBar) :
    ab.Touched s.syncActiveTabMode.addressBar := by
  rw [syncActiveTabMode]
  split
  · exact h
  · exact .resetForTab _ _ _ h

theorem keepsBar_sync (h : s.addressBar.Touched s'.addressBar)
    (hstarts : ∀ id, starts id ↔ id = s'.tabBar.activeId) :
    KeepsBar starts s s'.syncActiveTabMode := by
  refine ⟨touched_sync h, fun id hid => ⟨?_, rebuilt_sync s'⟩, fun hno => ?_⟩
  · rw [activeId_syncActiveTabMode, (hstarts id).mp hid]
  · exact absurd ((hstarts _).mpr rfl) (hno _)

theorem keepsBar_showHome (hbar : s'.addressBar = s.addressBar) (hnil : s'.tabBar.tabs = [])
    (hstarts : ∀ id, starts id → id = s'.tabBar.activeId) : KeepsBar starts s s'.showHome := by
  have htouched : s.addressBar.Touched s'.addressBar := hbar ▸ .refl
  have hnone : s'.showHome.tabBar.tabs = [] := tabs_showHome hnil
  have hrebuilt : s'.showHome.Rebuilt := rebuilt_of_tabs_eq_nil hnone
  exact ⟨.resetForTab 0 [] .standard htouched, fun id hid => ⟨(hstarts id hid).symm, hrebuilt⟩,
    fun _ => .inr ⟨hrebuilt, .inr hnone⟩⟩

/-- **A tab that is opened without an address is not there before**, and its record has none. -/
theorem url_of_nextId {url : Text} (h : (s.tabBar.nextId, url) ∈ records s.tabBar.newTab.tabs) :
    url = [] := by
  rw [TabBar.newTab, records, List.map_append, List.mem_append] at h
  rcases h with hold | hnew
  · obtain ⟨tab, htab, hid, -⟩ := mem_records.mp hold
    exact absurd (hid ▸ List.mem_map_of_mem htab) s.tabBar.nextId_notMem
  · rw [List.map_singleton, List.mem_singleton] at hnew
    exact congrArg Prod.snd hnew

/-- The bar starts over for a tab that is opened without an address. -/
theorem keepsBar_newTab (hbar : s'.addressBar = s.addressBar)
    (htabBar : s'.tabBar = s.tabBar.newTab) (hstarts : ∀ id, starts id → id = s'.tabBar.activeId) :
    KeepsBar starts s s'.stampStartPageTitle.resetForNewTab := by
  have htouched : s.addressBar.Touched s'.addressBar := hbar ▸ .refl
  have hactive : s'.tabBar.activeId = s.tabBar.nextId := by rw [htabBar, TabBar.newTab]
  have hrebuilt : s'.stampStartPageTitle.resetForNewTab.Rebuilt := by
    intro tab hfind
    obtain ⟨htab, hid⟩ := Keyed.mem_of_find hfind
    have hrecord : (s'.tabBar.activeId, tab.url) ∈ records s'.stampStartPageTitle.tabBar.tabs :=
      mem_records.mpr ⟨tab, htab, hid, rfl⟩
    rw [records_stampStartPageTitle, htabBar] at hrecord
    have hurl := url_of_nextId hrecord
    rw [hurl]
    exact ⟨AddressBar.currentUrl_resetForTab _ _ _ _, fun hne => absurd rfl hne⟩
  refine ⟨.resetForTab s'.tabBar.activeId [] s'.mode htouched,
    fun id hid => ⟨(hstarts id hid).symm, hrebuilt⟩, fun _ => .inr ⟨hrebuilt, .inl ?_⟩⟩
  show s'.tabBar.activeId ∉ s.tabBar.ids
  rw [hactive]
  exact s.tabBar.nextId_notMem

end KeepsBar

theorem keepsBar_onTabBar (s : AppState ρ) (msg : TabBarMsg ρ) :
    KeepsBar (s.StartsOver (.tabBar msg)) s (s.onTabBar msg) := by
  -- another tab is active
  have hmoved : (s.tabBar.update msg).1.activeId ≠ s.tabBar.activeId → ∀ id,
      (s.StartsOver (.tabBar msg) id ↔ id = (s.tabBar.update msg).1.activeId) :=
    fun hactive id => ⟨And.left, fun hid => ⟨hid, .inl (hid ▸ hactive)⟩⟩
  -- the same one is, and none is closed
  have hstill : (s.tabBar.update msg).1.activeId = s.tabBar.activeId →
      (∀ id', (s.tabBar.update msg).2 ≠ some (.tabClosed id')) → ∀ id,
      ¬ s.StartsOver (.tabBar msg) id := by
    rintro hactive hevent id ⟨hid, hne | ⟨id', hclosed⟩⟩
    · exact hne (hid.trans hactive)
    · exact hevent id' hclosed
  have hlast : ∀ s' : AppState ρ, s'.tabBar.activeId = (s.tabBar.update msg).1.activeId →
      s.addressBar.Touched s'.addressBar →
      (s'.tabBar.activeId = s.tabBar.activeId → KeepsBar (s.StartsOver (.tabBar msg)) s s') →
      KeepsBar (s.StartsOver (.tabBar msg)) s
        (if s'.tabBar.activeId ≠ s.tabBar.activeId then s'.syncActiveTabMode else s') := by
    intro s' hsame htouched h'
    split_ifs with hactive
    · exact keepsBar_sync htouched (hsame ▸ hmoved (hsame ▸ hactive))
    · exact h' (not_not.mp hactive)
  rw [onTabBar]
  dsimp only
  split
  · rename_i gen hevent
    split_ifs with hactive
    · exact keepsBar_sync (.forgetTab _ .refl) (hmoved hactive)
    · exact keepsBar_of_eq rfl (not_not.mp hactive) (hstill (not_not.mp hactive) (by simp [hevent]))
  · cases hevent : (s.tabBar.update msg).2 with
    | none =>
      exact hlast _ rfl .refl fun hactive =>
        keepsBar_of_eq rfl hactive (hstill hactive (by simp [hevent]))
    | some event =>
      cases event with
      | tabClosed id =>
        have hforget : s.addressBar.Touched (s.addressBar.forgetTab id) := .forgetTab id .refl
        exact hlast _ (activeId_syncActiveTabMode _) (touched_sync hforget) fun _ =>
          keepsBar_sync hforget fun _ => and_iff_left (.inr ⟨id, hevent⟩)
      | allTabsClosed =>
        have hhome : KeepsBar (s.StartsOver (.tabBar msg)) s
            (showHome { s with tabBar := (s.tabBar.update msg).1 }) :=
          keepsBar_showHome rfl (TabBar.tabs_of_allTabsClosed hevent) fun _ => And.left
        exact hlast _ rfl hhome.touched fun _ => hhome
      | newTabRequested =>
        obtain rfl := (TabBar.msg_of_event hevent).1 rfl
        have hnew : KeepsBar (s.StartsOver (.tabBar .newTabPressed)) s (stampStartPageTitle
            { s with tabBar := s.tabBar.newTab }).resetForNewTab :=
          keepsBar_newTab rfl rfl fun _ => And.left
        exact hlast _ rfl hnew.touched fun _ => hnew
      | windowDragRequested | tabScreenRequested | stabilizeRequested =>
        exact hlast _ rfl .refl fun hactive =>
          keepsBar_of_eq rfl hactive (hstill hactive (by simp [hevent]))

theorem keepsBar_onSidebar (s : AppState ρ) (msg : SidebarMsg) :
    KeepsBar (s.StartsOver (.sidebar msg)) s (s.onSidebar msg) := by
  have hself : ∀ s' : AppState ρ, s'.addressBar = s.addressBar →
      s'.tabBar.activeId = s.tabBar.activeId → (∀ id, ¬ s.StartsOver (.sidebar msg) id) →
      KeepsBar (s.StartsOver (.sidebar msg)) s s' := fun _ => keepsBar_of_eq
  rw [onSidebar]
  dsimp only
  split
  · rename_i event hevent
    cases event with
    | tabActivated id =>
      refine keepsBar_sync .refl fun id' => ?_
      simp [StartsOver, hevent, TabBar.update, eq_comm]
    | newTabRequested =>
      exact keepsBar_newTab rfl rfl fun id h => by simp [StartsOver, hevent] at h
    | tabsReordered fromId toId =>
      rw [onSidebarEvent]
      split <;> exact hself _ rfl rfl (by simp [StartsOver, hevent])
    | tabCloseRequested id =>
      rw [onSidebarEvent]
      dsimp only
      split
      · rename_i hall
        exact keepsBar_showHome rfl (TabBar.tabs_of_allTabsClosed hall)
          fun _ h => by simp [StartsOver, hevent, hall] at h
      · rename_i hclosed
        exact keepsBar_sync .refl fun _ => by simp [StartsOver, hevent, hclosed]
      · rename_i hall hclosed
        have hask := TabBar.closeRequested_of_not_told hall hclosed
        refine hself _ rfl (by rw [TabBar.update, hask]) ?_
        rintro id' (hactivated | ⟨id₀, id₁, hrequested, htold, -⟩)
        · rw [hevent] at hactivated
          cases hactivated
        · obtain rfl : id = id₀ := by simpa [hevent] using hrequested
          exact hclosed id₁ htold
    | _ => exact hself _ rfl rfl (by simp [StartsOver, hevent])
  · rename_i hevent
    exact hself _ rfl rfl (by simp [StartsOver, hevent])

theorem keepsBar_onCardView (s : AppState ρ) (msg : CardViewMsg) :
    KeepsBar (s.StartsOver (.cardView msg)) s (s.onCardView msg) := by
  rw [onCardView]
  dsimp only
  split
  · rename_i event hevent
    cases event with
    | tabActivated id =>
      refine keepsBar_sync .refl fun id' => ?_
      simp [StartsOver, hevent, TabBar.update, eq_comm]
    | tabCloseRequested id =>
      exact keepsBar_sync .refl fun id' => by simp [StartsOver, hevent]
  · rename_i hevent
    exact keepsBar_of_eq rfl rfl (by simp [StartsOver, hevent])

/-- **What a message leaves of the address bar that is not for it.** -/
theorem keepsBar_update {msg : Message ρ} (hmsg : ∀ abMsg, msg ≠ .addressBar abMsg) :
    KeepsBar (s.StartsOver msg) s (s.update msg) := by
  cases msg with
  | addressBar abMsg => exact absurd rfl (hmsg abMsg)
  | profileLoaded name => exact keepsBar_sync .refl fun _ => Iff.rfl
  | morphTick elapsedMs =>
    rw [update, morphTick]
    dsimp only
    split_ifs
    · exact ⟨.syncMode .strict .refl, fun _ => False.elim, fun _ => .inl ⟨rfl, rfl, rfl⟩⟩
    · exact keepsBar_of_eq rfl rfl fun _ => id
    · exact keepsBar_of_eq rfl rfl fun _ => id
  | tabBar msg => exact keepsBar_onTabBar s msg
  | sidebar msg => exact keepsBar_onSidebar s msg
  | cardView msg => exact keepsBar_onCardView s msg
  | reducedMotionChanged v =>
    exact ⟨.reducedMotion v .refl, fun _ => False.elim, fun _ => .inl ⟨rfl, rfl, rfl⟩⟩
  | globalDragMove x =>
    rw [update, globalDragMove]
    split_ifs
    · exact keepsBar_of_eq rfl (TabBar.activeId_stripMoved s.tabBar _) fun _ => id
    · exact keepsBar_of_eq rfl rfl fun _ => id
  | globalDragEnd =>
    rw [update, globalDragEnd]
    split_ifs <;> exact keepsBar_of_eq rfl rfl fun _ => id
  | convertToStrict | maximizeWindow | findEscape =>
    simp only [update, findEscape]
    split_ifs <;> exact keepsBar_of_eq rfl rfl fun _ => id
  | _ => exact keepsBar_of_eq rfl rfl fun _ => id

/-- **What a message for the address bar leaves**: what the bar makes of it, or the record of the
tab that was opened for an address. -/
theorem keepsBar_addressBar (s : AppState ρ) (msg : AddressBarMsg) :
    KeepsBar (fun _ => False) { s with addressBar := (s.addressBar.update msg).1 }
      (s.update (.addressBar msg)) := by
  rw [update, onAddressBar]
  dsimp only
  split
  · rename_i event _
    cases event with
    | convertToStrictClicked =>
      rw [onAddressBarEvent]
      split_ifs
      · exact ⟨.syncMode .strict .refl, fun _ => False.elim, fun _ => .inl ⟨rfl, rfl, rfl⟩⟩
      · exact keepsBar_of_eq rfl rfl fun _ => id
    | navigationCommitted url mode =>
      rw [onAddressBarEvent]
      dsimp only
      split_ifs
      · refine ⟨touched_sync .refl, fun _ => False.elim,
          fun _ => .inr ⟨rebuilt_sync _, .inl ?_⟩⟩
        rw [activeId_syncActiveTabMode]
        exact s.tabBar.nextId_notMem
      · exact keepsBar_of_eq rfl rfl fun _ => id
    | networkViewerRequested => exact keepsBar_of_eq rfl rfl fun _ => id
  · exact keepsBar_of_eq rfl rfl fun _ => id

/-- **What a message leaves of the address bar**, after the bar has handled it if it is for the
bar. -/
theorem keepsBar_cases (s : AppState ρ) (msg : Message ρ) :
    KeepsBar (s.StartsOver msg) s (s.update msg) ∨ ∃ abMsg, msg = .addressBar abMsg ∧
      KeepsBar (fun _ => False) { s with addressBar := (s.addressBar.update abMsg).1 }
        (s.update msg) := by
  by_cases hmsg : ∃ abMsg, msg = .addressBar abMsg
  · obtain ⟨abMsg, rfl⟩ := hmsg
    exact .inr ⟨abMsg, rfl, keepsBar_addressBar s abMsg⟩
  · exact .inl (keepsBar_update fun abMsg heq => hmsg ⟨abMsg, heq⟩)

theorem touched_update (s : AppState ρ) (msg : Message ρ) :
    s.addressBar.Touched (s.update msg).addressBar ∨
      ∃ abMsg, msg = .addressBar abMsg ∧
        (s.addressBar.update abMsg).1.Touched (s.update msg).addressBar :=
  (keepsBar_cases s msg).imp KeepsBar.touched fun ⟨abMsg, hmsg, hkeeps⟩ =>
    ⟨abMsg, hmsg, hkeeps.touched⟩

theorem typed_update (h : s.addressBar.Typed) (msg : Message ρ) :
    (s.update msg).addressBar.Typed := by
  rcases touched_update s msg with htouched | ⟨abMsg, -, htouched⟩
  · exact htouched.typed h
  · exact htouched.typed (h.update abMsg)

end AppState

end Ui

end DevBrowse
