import DevBrowse.Ui.Shell

/-!
# The tabs that are meant are open

As long as messages name tabs that are open, the active tab is open while there is one, and so
is the tab the cursor is over (`DevBrowse.Ui.TabBar.WellFormed`). Closing the active tab makes
its neighbour the active one, and the identifiers that are remembered elsewhere, by the dialog or
the sidebar, do no harm when they are old (`DevBrowse.Ui.AppState.wellFormed_update`).
-/

namespace DevBrowse

namespace Ui

/-- A message to the tab bar names open tabs only. -/
def TabBarMsg.Live {ρ : Type*} (ids : List ℕ) : TabBarMsg ρ → Prop
  | .tabActivated id => id ∈ ids
  | .tabCloseRequested id => id ∈ ids
  | .tabHovered (some id) => id ∈ ids
  | _ => True

instance {ρ : Type*} (ids : List ℕ) (msg : TabBarMsg ρ) : Decidable (msg.Live ids) := by
  unfold TabBarMsg.Live
  split <;> infer_instance

namespace TabBar

variable {ρ : Type*} {tb tb' : TabBar ρ} {id : ℕ}

/-- **The tabs that are meant are open.** -/
structure WellFormed (tb : TabBar ρ) : Prop where
  /-- No two tabs share an identifier. -/
  nodup : tb.ids.Nodup
  /-- The cursor is over a tab that is open. -/
  hovered : ∀ id, tb.hoveredTabId = some id → id ∈ tb.ids
  /-- The active tab is open, while there is a tab. -/
  active : tb.tabs ≠ [] → tb.activeId ∈ tb.ids

theorem ids_eq_nil_iff : tb.ids = [] ↔ tb.tabs = [] := List.map_eq_nil_iff

theorem WellFormed.congr (h : tb.WellFormed) (hids : tb'.ids = tb.ids)
    (hactive : tb'.activeId = tb.activeId)
    (hhover : tb'.hoveredTabId = tb.hoveredTabId) : tb'.WellFormed where
  nodup := hids ▸ h.nodup
  hovered id hid := hids ▸ h.hovered id (hhover ▸ hid)
  active hne := by
    rw [hids, hactive]
    refine h.active fun hnil => hne ?_
    rw [← ids_eq_nil_iff, hids, ids_eq_nil_iff, hnil]

/-- Another order of the tabs, and another open tab that is active or under the cursor. -/
theorem WellFormed.of_perm (h : tb.WellFormed) (htabs : tb'.tabs.Perm tb.tabs)
    (hactive : tb'.activeId = tb.activeId ∨ tb'.activeId ∈ tb.ids)
    (hhover : ∀ id, tb'.hoveredTabId = some id → id ∈ tb.ids) : tb'.WellFormed := by
  have hids : tb'.ids.Perm tb.ids := htabs.map TabEntry.id
  refine ⟨hids.nodup_iff.mpr h.nodup, fun id hid => hids.mem_iff.mpr (hhover id hid), ?_⟩
  intro hne
  rw [hids.mem_iff]
  rcases hactive with hsame | hother
  · rw [hsame]
    refine h.active fun hnil => hne ?_
    rw [hnil] at htabs
    exact htabs.eq_nil
  · exact hother

/-- The successor of the active tab stays open. -/
theorem successor_mem (hnodup : tb.ids.Nodup) (hmem : id ∈ tb.ids) (hactive : tb.activeId = id)
    (hne : Keyed.remove TabEntry.id id tb.tabs ≠ []) :
    (tb.successor id).getD 0 ∈ (Keyed.remove TabEntry.id id tb.tabs).map TabEntry.id := by
  have hlen := Keyed.two_le_length hmem hne
  obtain ⟨i, hi⟩ := Keyed.exists_position hmem
  obtain ⟨tab, hneighbour, htab⟩ := Keyed.exists_neighbour hnodup hi hlen
  rw [successor, if_pos hactive, if_neg (by omega), hi]
  dsimp only [Option.getD_some]
  rw [hneighbour]
  exact List.mem_map_of_mem htab

theorem WellFormed.successor_mem (h : tb.WellFormed) (hactive : tb.activeId = id)
    (hne : Keyed.remove TabEntry.id id tb.tabs ≠ []) :
    (tb.successor id).getD 0 ∈ (Keyed.remove TabEntry.id id tb.tabs).map TabEntry.id := by
  refine TabBar.successor_mem h.nodup ?_ hactive hne
  rw [← hactive]
  refine h.active fun hnil => hne ?_
  rw [hnil]
  rfl

variable [Px ρ] {msg : TabBarMsg ρ}

/-- **Closing a tab, open or not, leaves an open tab active.** -/
theorem WellFormed.closeTab (h : tb.WellFormed) (id : ℕ) (fromStrip : Bool) :
    (tb.closeTab id fromStrip).1.WellFormed := by
  obtain ⟨_, _, _, hhover, hclose⟩ := exists_closeTab_eq tb id fromStrip
  rw [hclose]
  refine ⟨Keyed.nodup_remove h.nodup, hhover, fun hne => ?_⟩
  show (if tb.activeId = id then (tb.successor id).getD 0 else tb.activeId) ∈
    (Keyed.remove TabEntry.id id tb.tabs).map TabEntry.id
  split_ifs with hactive
  · exact h.successor_mem hactive hne
  · obtain ⟨tab, htab⟩ := List.exists_mem_of_ne_nil _ hne
    have hopen := h.active (List.ne_nil_of_mem (Keyed.mem_remove.mp htab).1)
    obtain ⟨tab₀, htab₀, hid₀⟩ := List.mem_map.mp hopen
    exact List.mem_map.mpr ⟨tab₀, Keyed.mem_remove.mpr ⟨htab₀, hid₀ ▸ hactive⟩, hid₀⟩

theorem WellFormed.newTab (h : tb.WellFormed) : tb.newTab.WellFormed where
  nodup := Effect.nodup (effect_update tb .newTabPressed) h.nodup
  hovered id hid := by cases hid
  active _ := by
    rw [ids, TabBar.newTab, List.map_append]
    exact List.mem_append_right _ (List.mem_singleton.mpr rfl)

theorem WellFormed.stripPressed (h : tb.WellFormed) : tb.stripPressed.1.WellFormed := by
  rw [TabBar.stripPressed]
  split
  · exact h
  · rename_i id hhover
    split_ifs
    · have hdropped : WellFormed { tb with dragId := none } := h.congr rfl rfl rfl
      exact hdropped.closeTab id true
    · exact h.of_perm (.refl _) (.inr (h.hovered id hhover)) h.hovered

theorem WellFormed.closeRequested (h : tb.WellFormed) (id : ℕ) :
    (tb.closeRequested id).1.WellFormed := by
  rcases tb.closeRequested_cases id with hask | hclose
  · rw [hask]
    exact h.congr rfl rfl rfl
  · rw [hclose]
    exact h.closeTab id false

/-- An open tab that is to be closed leaves no tab exactly if it is the only one and needs no
dialog. -/
theorem WellFormed.tabs_closeRequested_eq_nil_iff (h : tb.WellFormed) (hopen : id ∈ tb.ids) :
    (tb.closeRequested id).1.tabs = [] ↔ ∃ tab, tb.tabs = [tab] ∧ ¬ tab.Guarded := by
  obtain ⟨tab, hfind⟩ : ∃ tab, tb.tabOf id = some tab := Keyed.exists_find hopen
  have hmem : tab ∈ tb.tabs := (Keyed.mem_of_find hfind).1
  rw [TabBar.closeRequested, hfind]
  split_ifs with hany
  · have hguard : tab.Guarded := by simpa [TabEntry.Guarded] using hany
    refine iff_of_false (List.ne_nil_of_mem hmem) ?_
    rintro ⟨tab', htabs, hfree⟩
    rw [htabs, List.mem_singleton] at hmem
    exact hfree (hmem ▸ hguard)
  · have hfree : ¬ tab.Guarded := by simpa [TabEntry.Guarded] using hany
    rw [tabs_closeTab, Keyed.remove_eq_nil_iff h.nodup hopen]
    constructor
    · rintro ⟨tab', htabs, -⟩
      rw [htabs, List.mem_singleton] at hmem
      exact ⟨tab', htabs, hmem ▸ hfree⟩
    · rintro ⟨tab', htabs, -⟩
      rw [htabs, List.mem_singleton] at hmem
      exact ⟨tab', htabs, hmem ▸ (Keyed.mem_of_find hfind).2⟩

/-- **A message that names open tabs leaves the tabs that are meant open.** -/
theorem WellFormed.update (h : tb.WellFormed) (hmsg : msg.Live tb.ids) :
    (tb.update msg).1.WellFormed := by
  have hself : ∀ tb' : TabBar ρ, tb'.tabs = tb.tabs → tb'.activeId = tb.activeId →
      tb'.hoveredTabId = tb.hoveredTabId → tb'.WellFormed :=
    fun tb' htabs => h.congr (congrArg (List.map TabEntry.id) htabs)
  cases msg with
  | stripMoved x =>
    obtain ⟨_, _, _, hperm, hmoved⟩ := exists_stripMoved_eq tb x
    rw [TabBar.update, hmoved]
    exact h.of_perm hperm (.inl rfl) fun id hid => mem_of_tabIdAtX hid
  | stripPressed => exact h.stripPressed
  | stripExited =>
    rw [TabBar.update]
    dsimp only
    split_ifs <;> exact h.of_perm (.refl _) (.inl rfl) fun id hid => by cases hid
  | strictCloseConfirmed =>
    rw [TabBar.update]
    split
    · exact (hself { tb with modal := .hidden } rfl rfl rfl).closeTab _ false
    · exact h
  | newTabPressed => exact h.newTab
  | tabCloseRequested id => exact h.closeRequested id
  | tabActivated id => exact h.of_perm (.refl _) (.inr hmsg) h.hovered
  | tabHovered id =>
    refine h.of_perm (.refl _) (.inl rfl) ?_
    rintro id' rfl
    exact hmsg
  | stabilizeExpired gen =>
    rw [TabBar.update]
    split_ifs <;> exact hself _ rfl rfl rfl
  | strictCloseCancelled | stripReleased | noop | tabsGridPressed => exact hself _ rfl rfl rfl

omit [Px ρ] in
theorem WellFormed.syncMode (h : tb.WellFormed) (mode : Mode) (name : Text) :
    (tb.syncMode mode name).WellFormed :=
  h.congr (tb.ids_syncMode mode name) rfl rfl

end TabBar

/-! ### The shell -/

/-- A message to the sidebar names open tabs only. -/
def SidebarMsg.Live (ids : List ℕ) : SidebarMsg → Prop
  | .pillPressed id | .pillReleased id | .pillEntered id | .pillLeft id | .pillClosePressed id =>
    id ∈ ids
  | _ => True

instance (ids : List ℕ) (msg : SidebarMsg) : Decidable (msg.Live ids) := by
  unfold SidebarMsg.Live
  split <;> infer_instance

/-- A message to the card view names open tabs only. -/
def CardViewMsg.Live (ids : List ℕ) : CardViewMsg → Prop
  | .cardActivated id | .cardClosePressed id => id ∈ ids
  | _ => True

instance (ids : List ℕ) (msg : CardViewMsg) : Decidable (msg.Live ids) := by
  unfold CardViewMsg.Live
  split <;> infer_instance

/-- A tab is activated where its pill is released, and a new one comes from the button. -/
theorem Sidebar.event_update {sb : Sidebar} {msg : SidebarMsg} {event : SidebarEvent}
    (h : (sb.update msg).2 = some event) :
    (∀ id, event = .tabActivated id → msg = .pillReleased id) ∧
      (event = .newTabRequested → msg = .newTabPressed) := by
  cases msg with
  | pillReleased id' =>
    rw [Sidebar.update] at h
    split_ifs at h
    obtain rfl := Option.some.inj h
    exact ⟨by rintro id ⟨⟩; rfl, by rintro ⟨⟩⟩
  | pillEntered toId =>
    rw [Sidebar.update] at h
    dsimp only at h
    split_ifs at h
    split at h
    · split_ifs at h
      obtain rfl := Option.some.inj h
      exact ⟨by rintro id ⟨⟩, by rintro ⟨⟩⟩
    · cases h
  | dragRequested =>
    rw [Sidebar.update] at h
    split_ifs at h
    obtain rfl := Option.some.inj h
    exact ⟨by rintro id ⟨⟩, by rintro ⟨⟩⟩
  | newTabPressed => exact ⟨by cases h; rintro id ⟨⟩, fun _ => rfl⟩
  | pillPressed | sidebarMoved | sidebarReleased => cases h
  | pillLeft | searchPressed | favoritesPressed | gearPressed | pillClosePressed =>
    obtain rfl := Option.some.inj h
    exact ⟨by rintro id ⟨⟩, by rintro ⟨⟩⟩

namespace CardView

variable {cv : CardView} {tabs : List TabEntry} {msg : CardViewMsg} {id : ℕ}

/-- The tab a message asks to be closed. -/
def closeTarget (cv : CardView) (tabs : List TabEntry) : CardViewMsg → Option ℕ
  | .cardClosePressed id => some id
  | .keyNav .close => cv.focusedId tabs
  | _ => none

theorem event_keyNav {key : CardNavKey} {event : CardViewEvent}
    (h : (cv.update tabs (.keyNav key)).2 = some event) :
    ∃ id, cv.focusedId tabs = some id ∧
      (event = .tabActivated id ∨ key = .close ∧ event = .tabCloseRequested id) := by
  rw [update] at h
  split_ifs at h
  cases key with
  | enter =>
    rw [keyNav] at h
    split at h
    · rename_i id hid
      exact ⟨id, hid, .inl (Option.some.inj h).symm⟩
    · cases h
  | close =>
    obtain ⟨id, hid, hevent⟩ := Option.map_eq_some_iff.mp h
    exact ⟨id, hid, .inr ⟨rfl, hevent.symm⟩⟩
  | _ => cases h

theorem mem_of_tabActivated (hmsg : msg.Live (tabs.map TabEntry.id))
    (h : (cv.update tabs msg).2 = some (.tabActivated id)) : id ∈ tabs.map TabEntry.id := by
  cases msg with
  | cardActivated id' =>
    cases h
    exact hmsg
  | keyNav key =>
    obtain ⟨id', hid, hevent | ⟨-, hevent⟩⟩ := event_keyNav h
    · cases hevent
      exact mem_of_focusedId hid
    · cases hevent
  | _ => cases h

/-- **The tab that is to be closed is the one that was named, or has the focus.** -/
theorem closeTarget_of_tabCloseRequested
    (h : (cv.update tabs msg).2 = some (.tabCloseRequested id)) :
    cv.closeTarget tabs msg = some id := by
  cases msg with
  | cardClosePressed id' =>
    cases h
    rfl
  | keyNav key =>
    obtain ⟨id', hid, hevent | ⟨rfl, hevent⟩⟩ := event_keyNav h
    · cases hevent
    · cases hevent
      exact hid
  | _ => cases h

theorem event_of_closeTarget (h : cv.closeTarget tabs msg = some id) :
    (cv.update tabs msg).2 = some (.tabCloseRequested id) := by
  cases msg with
  | cardClosePressed id' =>
    cases h
    rfl
  | keyNav key =>
    cases key with
    | close =>
      have hfocus : cv.focusedId tabs = some id := h
      have hne : ¬ (cv.orderedIds tabs).isEmpty = true := by
        rw [List.isEmpty_iff]
        exact List.ne_nil_of_mem (mem_orderedIds.mpr (mem_of_focusedId hfocus))
      rw [update, if_neg hne, keyNav, hfocus]
      rfl
    | _ => cases h
  | _ => cases h

theorem mem_of_closeTarget (hmsg : msg.Live (tabs.map TabEntry.id))
    (h : cv.closeTarget tabs msg = some id) : id ∈ tabs.map TabEntry.id := by
  cases msg with
  | cardClosePressed id' =>
    cases h
    exact hmsg
  | keyNav key =>
    cases key with
    | close => exact mem_of_focusedId h
    | _ => cases h
  | _ => cases h

end CardView

namespace AppState

variable {ρ : Type*} {s s' : AppState ρ} {id : ℕ}

/-- **The messages the shell gets**: those to the tab bar, the sidebar and the card view name open
tabs, and nobody but the shell tells the address bar its mode. -/
def Admits (s : AppState ρ) : Message ρ → Prop
  | .tabBar msg => msg.Live s.tabBar.ids
  | .sidebar msg => msg.Live s.tabBar.ids
  | .cardView msg => msg.Live s.tabBar.ids
  | .addressBar (.modeChanged _) => False
  | _ => True

instance (s : AppState ρ) (msg : Message ρ) : Decidable (s.Admits msg) := by
  unfold Admits
  split <;> infer_instance

theorem wellFormed_of_faces (h : s.tabBar.WellFormed)
    (hfaces : faces s'.tabBar.tabs = faces s.tabBar.tabs)
    (hactive : s'.tabBar.activeId = s.tabBar.activeId)
    (hhover : s'.tabBar.hoveredTabId = s.tabBar.hoveredTabId) : s'.tabBar.WellFormed :=
  h.congr (map_id_of_faces hfaces) hactive hhover

theorem wellFormed_sync (h : s.tabBar.WellFormed) : s.syncActiveTabMode.tabBar.WellFormed :=
  wellFormed_of_faces h (congrArg faces (tabs_syncActiveTabMode s))
    (activeId_syncActiveTabMode s) (hoveredTabId_syncActiveTabMode s)

theorem wellFormed_stamp (h : s.tabBar.WellFormed) :
    s.stampStartPageTitle.tabBar.WellFormed :=
  wellFormed_of_faces h (faces_stampStartPageTitle s) rfl rfl

theorem wellFormed_profileLoaded (h : s.tabBar.WellFormed) (name : Text) :
    (s.profileLoaded name).tabBar.WellFormed := by
  refine wellFormed_sync ?_
  exact (h.syncMode s.mode name).congr (map_id_of_faces (faces_stamp _)) rfl rfl

theorem wellFormed_morphTick (h : s.tabBar.WellFormed) (elapsedMs : ℕ) :
    (s.morphTick elapsedMs).tabBar.WellFormed := by
  rw [morphTick]
  dsimp only
  split_ifs
  · exact h.syncMode .strict s.profileName
  · exact h
  · exact h

variable [Px ρ]

theorem wellFormed_onAddressBar (h : s.tabBar.WellFormed) (msg : AddressBarMsg) :
    (s.onAddressBar msg).tabBar.WellFormed := by
  rw [onAddressBar]
  dsimp only
  split
  · rename_i event _
    cases event with
    | convertToStrictClicked =>
      rw [onAddressBarEvent]
      split_ifs
      · exact h.syncMode .strict s.profileName
      · exact h
    | navigationCommitted url mode =>
      rw [onAddressBarEvent]
      dsimp only
      split_ifs
      · exact wellFormed_sync (h.newTab.congr (ids_commit s url mode) rfl rfl)
      · exact h
    | networkViewerRequested => exact h
  · exact h

theorem wellFormed_onTabBar {msg : TabBarMsg ρ} (h : s.tabBar.WellFormed)
    (hmsg : msg.Live s.tabBar.ids) : (s.onTabBar msg).tabBar.WellFormed := by
  have hupdate := h.update hmsg
  have hlast : ∀ s' : AppState ρ, s'.tabBar.WellFormed →
      (if s'.tabBar.activeId ≠ s.tabBar.activeId then s'.syncActiveTabMode else
        s').tabBar.WellFormed := by
    intro s' h'
    split_ifs
    · exact wellFormed_sync h'
    · exact h'
  rw [onTabBar]
  dsimp only
  split
  · split_ifs
    · exact wellFormed_sync hupdate
    · exact hupdate
  · refine hlast _ ?_
    cases (s.tabBar.update msg).2 with
    | none => exact hupdate
    | some event =>
      cases event with
      | tabClosed id => exact wellFormed_sync hupdate
      | allTabsClosed => exact hupdate.syncMode .standard s.profileName
      | newTabRequested => exact wellFormed_stamp hupdate
      | windowDragRequested | tabScreenRequested | stabilizeRequested => exact hupdate

theorem wellFormed_onSidebar {msg : SidebarMsg} (h : s.tabBar.WellFormed)
    (hmsg : msg.Live s.tabBar.ids) : (s.onSidebar msg).tabBar.WellFormed := by
  rw [onSidebar]
  dsimp only
  split
  · rename_i event hevent
    cases event with
    | tabActivated id =>
      obtain rfl := (Sidebar.event_update hevent).1 id rfl
      have hactivate : (TabBarMsg.tabActivated id : TabBarMsg ρ).Live s.tabBar.ids := hmsg
      exact wellFormed_sync (h.update hactivate)
    | newTabRequested => exact wellFormed_stamp h.newTab
    | tabsReordered fromId toId =>
      rw [onSidebarEvent]
      split
      · exact h.of_perm (Keyed.swap_perm _ _ _) (.inl rfl) h.hovered
      · exact h
    | tabCloseRequested id =>
      have hclose := h.closeRequested id
      rw [onSidebarEvent]
      dsimp only
      split
      · exact hclose.syncMode .standard s.profileName
      · exact wellFormed_sync hclose
      · exact hclose
    | _ => exact h
  · exact h

theorem wellFormed_onCardView {msg : CardViewMsg} (h : s.tabBar.WellFormed)
    (hmsg : msg.Live s.tabBar.ids) : (s.onCardView msg).tabBar.WellFormed := by
  rw [onCardView]
  dsimp only
  split
  · rename_i event hevent
    cases event with
    | tabActivated id =>
      have hactivate : (TabBarMsg.tabActivated id : TabBarMsg ρ).Live s.tabBar.ids :=
        CardView.mem_of_tabActivated hmsg hevent
      exact wellFormed_sync (h.update hactivate)
    | tabCloseRequested id => exact wellFormed_sync (h.closeRequested id)
  · exact h

/-- **The tabs that are meant are open, after every message the shell gets.** -/
theorem wellFormed_update {msg : Message ρ} (h : s.tabBar.WellFormed) (hmsg : s.Admits msg) :
    (s.update msg).tabBar.WellFormed := by
  cases msg with
  | profileLoaded name => exact wellFormed_profileLoaded h name
  | morphTick elapsedMs => exact wellFormed_morphTick h elapsedMs
  | addressBar msg => exact wellFormed_onAddressBar h msg
  | tabBar msg => exact wellFormed_onTabBar h hmsg
  | sidebar msg => exact wellFormed_onSidebar h hmsg
  | cardView msg => exact wellFormed_onCardView h hmsg
  | windowResized id width height => exact h.congr rfl rfl rfl
  | globalDragMove x =>
    rw [update, globalDragMove]
    split_ifs
    · exact h.update trivial
    · exact h
  | globalDragEnd =>
    rw [update, globalDragEnd]
    dsimp only
    split_ifs
    all_goals first | exact h | exact h.congr rfl rfl rfl
  | convertToStrict | maximizeWindow | findEscape =>
    simp only [update, findEscape]
    split_ifs <;> exact h
  | _ => exact h

end AppState

end Ui

end DevBrowse
