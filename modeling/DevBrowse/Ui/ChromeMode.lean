import DevBrowse.Lib.Transition
import DevBrowse.Ui.OpenTabs

/-!
# The mode the chrome shows

While a window is ready the shell, the tab bar and the address bar are to show the mode of the
active tab, and a window without tabs is to be Standard throughout. Of the messages that change
the active tab or its mode four do not see to it: a new tab from the sidebar beside a Strict one,
the last tab closed in the card view while something is Strict, and a conversion to Strict, at
once or at the end of its animation, where there is no tab. After all others everything shows
the right mode, and what is wrong while the window is not ready is put right when it becomes so
(`DevBrowse.Ui.AppState.chrome_shows_mode_iff`).
-/

namespace DevBrowse

namespace Ui

namespace AppState

variable {ρ : Type*} {s s' : AppState ρ} {tb : TabBar ρ} {tab : TabEntry} {id : ℕ}

open Transition (Step Run ofFun)

/-! ### What the chrome is to show -/

/-- Everything is Standard. -/
structure AllStandard (s : AppState ρ) : Prop where
  /-- The shell is. -/
  shell : s.mode = .standard
  /-- The tab bar is. -/
  bar : s.tabBar.mode = .standard
  /-- The address bar is. -/
  address : s.addressBar.mode = .standard

/-- **The chrome shows the mode of the tab the user looks at**, and Standard where there is
none. -/
def ShowsMode (s : AppState ρ) : Prop :=
  (s.phase = .ready → s.tabBar.tabs ≠ [] → ∃ tab, s.tabBar.tabOf s.tabBar.activeId = some tab ∧
    s.mode = tab.mode ∧ s.tabBar.mode = tab.mode ∧ s.addressBar.mode = tab.mode) ∧
  (s.tabBar.tabs = [] → s.AllStandard)

/-- The active tab, the tab bar and the address bar have the mode of the shell. -/
structure Agrees (s : AppState ρ) : Prop where
  /-- The active tab has it. -/
  active : ∀ tab ∈ s.tabBar.tabs, tab.id = s.tabBar.activeId → tab.mode = s.mode
  /-- The tab bar has it. -/
  bar : s.tabBar.mode = s.mode
  /-- The address bar has it. -/
  address : s.addressBar.mode = s.mode

/-- What is kept from message to message. -/
structure Shown (s : AppState ρ) : Prop where
  /-- The tabs that are meant are open. -/
  wellFormed : s.tabBar.WellFormed
  /-- A window that is ready shows one mode. -/
  agrees : s.phase = .ready → s.Agrees
  /-- A window without tabs is Standard. -/
  home : s.tabBar.tabs = [] → s.AllStandard

theorem shown_iff (hwf : s.tabBar.WellFormed) : s.Shown ↔ s.ShowsMode := by
  constructor
  · rintro ⟨-, hagrees, hhome⟩
    refine ⟨fun hready hne => ?_, hhome⟩
    obtain ⟨hactive, hbar, haddress⟩ := hagrees hready
    obtain ⟨tab, htab, hid⟩ := List.mem_map.mp (hwf.active hne)
    have hmode := hactive tab htab hid
    exact ⟨tab, (Keyed.find_eq_some_iff hwf.nodup).mpr ⟨htab, hid⟩, hmode.symm,
      hbar.trans hmode.symm, haddress.trans hmode.symm⟩
  · rintro ⟨hready, hhome⟩
    refine ⟨hwf, fun hphase => ?_, hhome⟩
    by_cases hnil : s.tabBar.tabs = []
    · obtain ⟨hshell, hbar, haddress⟩ := hhome hnil
      refine ⟨fun tab htab => ?_, hbar.trans hshell.symm, haddress.trans hshell.symm⟩
      rw [hnil] at htab
      cases htab
    · obtain ⟨tab, hfind, hshell, hbar, haddress⟩ := hready hphase hnil
      refine ⟨fun tab' htab' hid' => ?_, hbar.trans hshell.symm, haddress.trans hshell.symm⟩
      rw [← hid', TabBar.tabOf, (Keyed.find_eq_some_iff hwf.nodup).mpr ⟨htab', rfl⟩] at hfind
      rw [hshell, Option.some.inj hfind]

/-! ### Messages that bring the modes together -/

/-- **Where the modes are brought together they are right**, if they are where there is no
tab. -/
theorem shown_sync (hwf : s.tabBar.WellFormed) (hhome : s.tabBar.tabs = [] → s.AllStandard) :
    s.syncActiveTabMode.Shown := by
  by_cases hnil : s.tabBar.tabs = []
  · have hnone : s.tabBar.activeId ∉ s.tabBar.ids := by
      rw [TabBar.ids_eq_nil_iff.mpr hnil]
      exact List.not_mem_nil
    rw [syncActiveTabMode_of_notMem hnone]
    obtain ⟨hshell, hbar, haddress⟩ := hhome hnil
    refine ⟨hwf, fun _ => ⟨fun tab htab => ?_, hbar.trans hshell.symm,
      haddress.trans hshell.symm⟩, hhome⟩
    rw [hnil] at htab
    cases htab
  · obtain ⟨tab, htab, hid⟩ := List.mem_map.mp (hwf.active hnil)
    obtain ⟨hshell, hbar, haddress⟩ := mode_syncActiveTabMode hwf.nodup htab hid
    refine ⟨wellFormed_sync hwf, fun _ => ⟨fun tab' htab' hid' => ?_, hbar.trans hshell.symm,
      haddress.trans hshell.symm⟩, fun hnil' => ?_⟩
    · rw [tabs_syncActiveTabMode] at htab'
      rw [activeId_syncActiveTabMode] at hid'
      obtain rfl := List.inj_on_of_nodup_map hwf.nodup htab' htab (hid'.trans hid.symm)
      exact hshell.symm
    · rw [tabs_syncActiveTabMode] at hnil'
      exact absurd hnil' hnil

/-- Where nothing of it is changed what is shown stays right. -/
theorem Shown.of_faces (h : s.Shown) (hwf : s'.tabBar.WellFormed)
    (hfaces : (faces s'.tabBar.tabs).Perm (faces s.tabBar.tabs))
    (hactive : s'.tabBar.activeId = s.tabBar.activeId) (hmode : s'.mode = s.mode)
    (hbar : s'.tabBar.mode = s.tabBar.mode) (haddress : s'.addressBar.mode = s.addressBar.mode)
    (hphase : s'.phase = .ready → s.phase = .ready) : s'.Shown := by
  refine ⟨hwf, fun hready => ?_, fun hnil => ?_⟩
  · obtain ⟨hshown, hbar₀, haddress₀⟩ := h.agrees (hphase hready)
    refine ⟨fun tab htab hid => ?_, by rw [hbar, hbar₀, hmode], by rw [haddress, haddress₀, hmode]⟩
    obtain ⟨tab₀, htab₀, hid₀, hmode₀⟩ :=
      mem_faces.mp (hfaces.mem_iff.mp (mem_faces.mpr ⟨tab, htab, rfl, rfl⟩))
    rw [hmode, ← hmode₀]
    exact hshown tab₀ htab₀ (by rw [hid₀, hid, hactive])
  · rw [hnil] at hfaces
    have hnil₀ : s.tabBar.tabs = [] := List.map_eq_nil_iff.mp hfaces.symm.eq_nil
    obtain ⟨hshell₀, hbar₀, haddress₀⟩ := h.home hnil₀
    exact ⟨hmode.trans hshell₀, hbar.trans hbar₀, haddress.trans haddress₀⟩

/-- The page of a window without tabs. -/
theorem shown_showHome (hwf : s.tabBar.WellFormed) (hnil : s.tabBar.tabs = []) :
    s.showHome.Shown := by
  have htabs : s.showHome.tabBar.tabs = [] := tabs_showHome hnil
  refine ⟨hwf.syncMode .standard s.profileName, fun _ => ⟨fun tab htab => ?_, rfl, ?_⟩,
    fun _ => ⟨rfl, rfl, ?_⟩⟩
  · rw [htabs] at htab
    cases htab
  · exact AddressBar.mode_resetForTab _ _ _ _
  · exact AddressBar.mode_resetForTab _ _ _ _

/-- **A window becomes Strict as a whole exactly if it has a tab.** -/
theorem shown_becomeStrict_iff (hwf : s.tabBar.WellFormed)
    (htabBar : s'.tabBar = s.becomeStrict.tabBar) (hmode : s'.mode = .strict)
    (haddress : s'.addressBar.mode = .strict) : s'.Shown ↔ s.tabBar.tabs ≠ [] := by
  have hwf' : s'.tabBar.WellFormed := htabBar ▸ hwf.syncMode .strict s.profileName
  have hnil : s'.tabBar.tabs = [] ↔ s.tabBar.tabs = [] := by
    rw [← TabBar.ids_eq_nil_iff, ← TabBar.ids_eq_nil_iff, htabBar]
    exact iff_of_eq (congrArg (· = []) (s.tabBar.ids_syncMode .strict s.profileName))
  constructor
  · rintro ⟨-, -, hhome⟩ hempty
    cases hmode.symm.trans (hhome (hnil.mpr hempty)).shell
  · intro hne
    refine ⟨hwf', fun _ => ⟨fun tab htab hid => ?_, ?_, haddress.trans hmode.symm⟩,
      fun hempty => absurd (hnil.mp hempty) hne⟩
    · -- the active tab is the one that took the mode over
      have hfind : s'.tabBar.tabOf s'.tabBar.activeId = some tab :=
        (Keyed.find_eq_some_iff hwf'.nodup).mpr ⟨htab, hid⟩
      rw [htabBar, TabBar.tabOf] at hfind
      have htaken : Keyed.find TabEntry.id s.tabBar.activeId (s.becomeStrict.tabBar.tabs) =
          (s.tabBar.tabOf s.tabBar.activeId).map fun tab => { tab with mode := .strict } :=
        Keyed.find_modify fun _ => rfl
      obtain ⟨tab₀, -, rfl⟩ := Option.map_eq_some_iff.mp (htaken.symm.trans hfind)
      exact hmode.symm
    · rw [htabBar, hmode]
      rfl

/-! ### Messages to the tab bar -/

variable [Px ρ] {msg : TabBarMsg ρ}

/-- A tab bar without tabs that did not close the last one had none before. -/
theorem Shown.home_of_update (h : s.Shown)
    (hevent : (s.tabBar.update msg).2 ≠ some .allTabsClosed)
    (hfaces : faces s'.tabBar.tabs = faces (s.tabBar.update msg).1.tabs)
    (hmode : s'.mode = s.mode) (hbar : s'.tabBar.mode = (s.tabBar.update msg).1.mode)
    (haddress : s'.addressBar.mode = s.addressBar.mode ∨ s'.addressBar.mode = s.mode)
    (hnil : s'.tabBar.tabs = []) : s'.AllStandard := by
  have hnil' : (s.tabBar.update msg).1.tabs = [] := eq_nil_of_faces hfaces hnil
  have hbefore := (TabBar.event_of_tabs_eq_nil hnil').resolve_left hevent
  obtain ⟨hshell₀, hbar₀, haddress₀⟩ := h.home hbefore
  refine ⟨hmode.trans hshell₀, hbar.trans ?_, ?_⟩
  · rcases s.tabBar.mode_update msg with hsame | ⟨tab, htab, -⟩
    · exact hsame.trans hbar₀
    · rw [hnil'] at htab
      cases htab
  · rcases haddress with hsame | hshell
    · exact hsame.trans haddress₀
    · exact hshell.trans hshell₀

/-- **Where a message to the tab bar leaves the active tab, what is shown stays right**, also if
the modes are not brought together. -/
theorem Shown.of_update (h : s.Shown) (hwf : s'.tabBar.WellFormed)
    (hevent : (s.tabBar.update msg).2 ≠ some .allTabsClosed)
    (hfaces : faces s'.tabBar.tabs = faces (s.tabBar.update msg).1.tabs)
    (hupdated : s'.tabBar.activeId = (s.tabBar.update msg).1.activeId)
    (hactive : s'.tabBar.activeId = s.tabBar.activeId) (hmode : s'.mode = s.mode)
    (hbar : s'.tabBar.mode = (s.tabBar.update msg).1.mode)
    (haddress : s'.addressBar.mode = s.addressBar.mode ∨ s'.addressBar.mode = s.mode)
    (hphase : s'.phase = s.phase) : s'.Shown := by
  refine ⟨hwf, fun hready => ?_, h.home_of_update hevent hfaces hmode hbar haddress⟩
  obtain ⟨hshown, hbar₀, haddress₀⟩ := h.agrees (hphase ▸ hready)
  have hmodes : ∀ tab ∈ (s.tabBar.update msg).1.tabs, tab.id = s.tabBar.activeId →
      tab.mode = s.mode := by
    intro tab htab hid
    rcases (TabBar.effect_update s.tabBar msg).mem_or_eq htab with hold | rfl
    · exact hshown tab hold hid
    · -- the tab is new, and takes the place of an active tab that was not open
      have hnil : s.tabBar.tabs = [] := by
        by_contra hne
        have hopen := h.wellFormed.active hne
        rw [← hid] at hopen
        exact s.tabBar.nextId_notMem hopen
      exact (h.home hnil).shell.symm
  refine ⟨fun tab htab hid => ?_, ?_, ?_⟩
  · obtain ⟨tab₀, htab₀, hid₀, hmode₀⟩ := mem_faces.mp
      (hfaces ▸ mem_faces.mpr ⟨tab, htab, rfl, rfl⟩)
    rw [hmode, ← hmode₀]
    exact hmodes tab₀ htab₀ (by rw [hid₀, hid, hactive])
  · rw [hbar, hmode]
    rcases s.tabBar.mode_update msg with hsame | ⟨tab, htab, hid, hown⟩
    · rw [hsame, hbar₀]
    · rw [hown]
      exact hmodes tab htab (by rw [hid, ← hupdated, hactive])
  · rw [hmode]
    rcases haddress with hsame | hshell
    · rw [hsame, haddress₀]
    · exact hshell

/-- A message to the tab bar after which the modes are brought together. -/
theorem Shown.sync_of_update (h : s.Shown) (hwf : s'.tabBar.WellFormed)
    (hevent : (s.tabBar.update msg).2 ≠ some .allTabsClosed)
    (hfaces : faces s'.tabBar.tabs = faces (s.tabBar.update msg).1.tabs)
    (hmode : s'.mode = s.mode) (hbar : s'.tabBar.mode = (s.tabBar.update msg).1.mode)
    (haddress : s'.addressBar.mode = s.addressBar.mode ∨ s'.addressBar.mode = s.mode) :
    s'.syncActiveTabMode.Shown :=
  shown_sync hwf (h.home_of_update hevent hfaces hmode hbar haddress)

theorem Shown.onTabBar (h : s.Shown) (hmsg : msg.Live s.tabBar.ids) : (s.onTabBar msg).Shown := by
  have hwf := h.wellFormed.update hmsg
  -- a window that shows the right mode still does when the modes are brought together
  have hlast : ∀ s' : AppState ρ, s'.Shown →
      (if s'.tabBar.activeId ≠ s.tabBar.activeId then s'.syncActiveTabMode else s').Shown := by
    intro s' h'
    split_ifs
    · exact shown_sync h'.wellFormed h'.home
    · exact h'
  -- where the event leaves the modes, they are right already or brought together now
  have hchanged : ∀ s' : AppState ρ, (s.tabBar.update msg).2 ≠ some .allTabsClosed →
      s'.tabBar.WellFormed → faces s'.tabBar.tabs = faces (s.tabBar.update msg).1.tabs →
      s'.tabBar.activeId = (s.tabBar.update msg).1.activeId → s'.mode = s.mode →
      s'.tabBar.mode = (s.tabBar.update msg).1.mode →
      (s'.addressBar.mode = s.addressBar.mode ∨ s'.addressBar.mode = s.mode) →
      s'.phase = s.phase →
      (if s'.tabBar.activeId ≠ s.tabBar.activeId then s'.syncActiveTabMode else s').Shown := by
    intro s' hevent hwf' hfaces hupdated hmode hbar haddress hphase
    split_ifs with hactive
    · exact h.sync_of_update hwf' hevent hfaces hmode hbar haddress
    · exact h.of_update hwf' hevent hfaces hupdated (not_not.mp hactive) hmode hbar haddress hphase
  rw [AppState.onTabBar]
  dsimp only
  split
  · rename_i gen hevent
    have hnot : (s.tabBar.update msg).2 ≠ some .allTabsClosed := by
      rw [hevent]
      rintro ⟨⟩
    split_ifs with hactive
    · exact h.sync_of_update hwf hnot rfl rfl rfl (.inl rfl)
    · exact h.of_update hwf hnot rfl rfl (not_not.mp hactive) rfl rfl (.inl rfl) rfl
  · cases hevent : (s.tabBar.update msg).2 with
    | none => exact hchanged _ (by simp [hevent]) hwf rfl rfl rfl rfl (.inl rfl) rfl
    | some event =>
      cases event with
      | tabClosed id =>
        exact hlast _ (h.sync_of_update hwf (by simp [hevent]) rfl rfl rfl (.inl rfl))
      | allTabsClosed =>
        exact hlast _ (shown_showHome hwf (TabBar.tabs_of_allTabsClosed hevent))
      | newTabRequested =>
        have hstamped : (stampStartPageTitle
            { s with tabBar := (s.tabBar.update msg).1 }).tabBar.WellFormed := wellFormed_stamp hwf
        exact hchanged _ (by simp [hevent]) hstamped (faces_stampStartPageTitle _) rfl rfl rfl
          (.inr (AddressBar.mode_resetForTab _ _ _ _)) rfl
      | windowDragRequested | tabScreenRequested | stabilizeRequested =>
        exact hchanged _ (by simp [hevent]) hwf rfl rfl rfl rfl (.inl rfl) rfl

/-! ### The messages that see to it -/

omit [Px ρ] in
theorem Shown.profileLoaded (h : s.Shown) (name : Text) : (s.profileLoaded name).Shown := by
  have hwf := h.wellFormed.syncMode s.mode name
  refine shown_sync (hwf.congr (map_id_of_faces (faces_stamp _)) rfl rfl) fun hnil => ?_
  have hnil₀ : s.tabBar.tabs = [] := by
    rw [← TabBar.ids_eq_nil_iff, ← s.tabBar.ids_syncMode s.mode name, TabBar.ids_eq_nil_iff]
    exact List.map_eq_nil_iff.mp hnil
  obtain ⟨hshell, -, haddress⟩ := h.home hnil₀
  exact ⟨hshell, hshell, haddress⟩

/-- A tab that is open is activated. -/
theorem Shown.activate (h : s.Shown) (hopen : id ∈ s.tabBar.ids) : (s.activate id).Shown := by
  have hactivate : (TabBarMsg.tabActivated id : TabBarMsg ρ).Live s.tabBar.ids := hopen
  have hquiet : (s.tabBar.update (.tabActivated id)).2 ≠ some .allTabsClosed := by
    rintro ⟨⟩
  exact h.sync_of_update (h.wellFormed.update hactivate) hquiet rfl rfl rfl (.inl rfl)

theorem Shown.onSidebarEvent (h : s.Shown) {event : SidebarEvent}
    (hlive : ∀ id, event = .tabActivated id → id ∈ s.tabBar.ids)
    (hnew : event ≠ .newTabRequested) : (s.onSidebarEvent event).Shown := by
  cases event with
  | tabActivated id => exact h.activate (hlive id rfl)
  | newTabRequested => exact absurd rfl hnew
  | tabsReordered fromId toId =>
    rw [AppState.onSidebarEvent]
    split
    · rename_i f t _ _
      have hperm := Keyed.swap_perm f t s.tabBar.tabs
      exact h.of_faces (h.wellFormed.of_perm hperm (.inl rfl) h.wellFormed.hovered)
        (hperm.map _) rfl rfl rfl rfl id
    · exact h
  | tabCloseRequested id =>
    have hclose := h.wellFormed.closeRequested id
    rw [AppState.onSidebarEvent]
    dsimp only
    split
    · rename_i hevent
      exact shown_showHome hclose (TabBar.tabs_of_allTabsClosed hevent)
    · rename_i hevent
      exact h.sync_of_update hclose (by simp [hevent]) rfl rfl rfl (.inl rfl)
    · rename_i hall hclosed
      have hask := TabBar.closeRequested_of_not_told hall hclosed
      rw [TabBar.update, hask]
      exact h.of_faces (h.wellFormed.congr rfl rfl rfl) (.refl _) rfl rfl rfl rfl
        fun hready => hready
  | _ => exact h

omit [Px ρ] in
/-- A message to the address bar that asks for nothing. -/
theorem Shown.addressBar (h : s.Shown) {addressBar : AddressBar}
    (hmode : addressBar.mode = s.addressBar.mode) : Shown { s with addressBar := addressBar } :=
  h.of_faces h.wellFormed (.refl _) rfl rfl rfl hmode fun hready => hready

/-! ### The messages that do not -/

/-- **What keeps the chrome right**: nothing to watch but with a new tab from the sidebar, with
the last tab in the card view, and with a conversion. -/
def KeepsShown (s : AppState ρ) : Message ρ → Prop
  | .sidebar .newTabPressed => s.phase = .ready → s.mode = .standard
  | .cardView msg => ∀ id tab, s.cardView.closeTarget s.tabBar.tabs msg = some id →
      s.tabBar.tabs = [tab] → ¬ tab.Guarded → s.AllStandard
  | .addressBar .convertToStrictClicked => s.phase = .ready → s.tabBar.tabs ≠ []
  | .morphTick elapsedMs =>
    s.phase = .transitioningMode → s.targetMs ≤ elapsedMs → s.tabBar.tabs ≠ []
  | _ => True

/-- A new tab from the sidebar is Standard, whatever the window shows. -/
theorem Shown.newTab_iff (h : s.Shown) :
    (s.onSidebarEvent .newTabRequested).Shown ↔ (s.phase = .ready → s.mode = .standard) := by
  have hwf : (s.onSidebarEvent .newTabRequested).tabBar.WellFormed :=
    wellFormed_stamp (s := { s with tabBar := s.tabBar.newTab }) h.wellFormed.newTab
  have hfaces : faces (s.onSidebarEvent .newTabRequested).tabBar.tabs =
      faces (s.tabBar.tabs ++ [s.tabBar.nextTab]) := faces_stampStartPageTitle _
  have haddress : (s.onSidebarEvent .newTabRequested).addressBar.mode = s.mode :=
    AddressBar.mode_resetForTab _ _ _ _
  constructor
  · rintro ⟨-, hagrees, -⟩ hready
    exact (hagrees hready).bar.symm
  · intro hstandard
    refine ⟨hwf, fun hready => ⟨fun tab htab hid => ?_, (hstandard hready).symm, haddress⟩,
      fun hnil => ?_⟩
    · obtain ⟨tab₀, htab₀, hid₀, hmode₀⟩ := mem_faces.mp
        (hfaces ▸ mem_faces.mpr ⟨tab, htab, rfl, rfl⟩)
      rcases List.mem_append.mp htab₀ with hold | hnew
      · have hmem : tab₀.id ∈ s.tabBar.ids := List.mem_map_of_mem hold
        rw [hid₀, hid] at hmem
        exact absurd hmem s.tabBar.nextId_notMem
      · rw [← hmode₀, List.mem_singleton.mp hnew]
        exact (hstandard hready).symm
    · rw [hnil] at hfaces
      exact absurd (List.map_eq_nil_iff.mp hfaces.symm)
        (List.append_ne_nil_of_right_ne_nil _ (List.cons_ne_nil _ _))

theorem Shown.onSidebar_iff (h : s.Shown) {msg : SidebarMsg} (hmsg : msg.Live s.tabBar.ids) :
    (s.onSidebar msg).Shown ↔ s.KeepsShown (.sidebar msg) := by
  -- the sidebar has no part in what is shown
  have hupdated : ∀ sidebar : Sidebar, Shown { s with sidebar := sidebar } := fun _ =>
    h.of_faces h.wellFormed (.refl _) rfl rfl rfl rfl fun hready => hready
  by_cases hnew : msg = .newTabPressed
  · subst hnew
    exact (hupdated s.sidebar).newTab_iff
  · have hkeeps : s.KeepsShown (.sidebar msg) := by
      cases msg with
      | newTabPressed => exact absurd rfl hnew
      | _ => trivial
    refine iff_of_true ?_ hkeeps
    rw [AppState.onSidebar]
    dsimp only
    split
    · rename_i event hevent
      obtain ⟨hactivated, hrequested⟩ := Sidebar.event_update hevent
      refine (hupdated _).onSidebarEvent (fun id hid => ?_) fun hid => hnew (hrequested hid)
      rw [hactivated id hid] at hmsg
      exact hmsg
    · exact hupdated _

/-- **The last tab may be closed in the card view exactly if nothing is Strict.** -/
theorem Shown.closeCard_iff (h : s.Shown) (hopen : id ∈ s.tabBar.ids) :
    (s.onCardViewEvent (.tabCloseRequested id)).Shown ↔
      ∀ tab, s.tabBar.tabs = [tab] → ¬ tab.Guarded → s.AllStandard := by
  have hwf := h.wellFormed.closeRequested id
  have hlast := h.wellFormed.tabs_closeRequested_eq_nil_iff hopen
  by_cases hnil : (s.tabBar.closeRequested id).1.tabs = []
  · obtain ⟨tab, htab, hfree⟩ := hlast.mp hnil
    let closed : AppState ρ := { s with tabBar := (s.tabBar.closeRequested id).1 }
    have hbar : closed.tabBar.mode = s.tabBar.mode := by
      rcases s.tabBar.mode_update (.tabCloseRequested id) with hsame | ⟨tab', htab', -⟩
      · exact hsame
      · rw [show (s.tabBar.update (.tabCloseRequested id)).1.tabs = [] from hnil] at htab'
        cases htab'
    -- without a tab nothing is brought together
    have hsync : closed.syncActiveTabMode = closed := by
      refine syncActiveTabMode_of_notMem ?_
      rw [TabBar.ids_eq_nil_iff.mpr hnil]
      exact List.not_mem_nil
    constructor
    · intro hshown tab' _ _
      have hhome : closed.AllStandard := by
        rw [← hsync]
        refine hshown.home ?_
        show closed.syncActiveTabMode.tabBar.tabs = []
        rw [hsync, hnil]
      exact ⟨hhome.shell, hbar ▸ hhome.bar, hhome.address⟩
    · intro hall
      obtain ⟨hshell, hbar₀, haddress⟩ := hall tab htab hfree
      exact shown_sync hwf fun _ => ⟨hshell, hbar.trans hbar₀, haddress⟩
  · refine iff_of_true (shown_sync hwf fun hempty => absurd hempty hnil) fun tab htab hfree => ?_
    exact absurd (hlast.mpr ⟨tab, htab, hfree⟩) hnil

theorem Shown.onCardView_iff (h : s.Shown) {msg : CardViewMsg} (hmsg : msg.Live s.tabBar.ids) :
    (s.onCardView msg).Shown ↔ s.KeepsShown (.cardView msg) := by
  -- the card view has no part in what is shown
  have hupdated : ∀ cardView : CardView, Shown { s with cardView := cardView } := fun _ =>
    h.of_faces h.wellFormed (.refl _) rfl rfl rfl rfl fun hready => hready
  rw [AppState.onCardView]
  dsimp only
  cases hevent : (s.cardView.update s.tabBar.tabs msg).2 with
  | none =>
    refine iff_of_true (hupdated _) fun id tab htarget => ?_
    rw [CardView.event_of_closeTarget htarget] at hevent
    cases hevent
  | some event =>
    cases event with
    | tabActivated id =>
      refine iff_of_true ((hupdated _).activate (CardView.mem_of_tabActivated hmsg hevent)) ?_
      intro id' tab htarget
      rw [CardView.event_of_closeTarget htarget] at hevent
      cases hevent
    | tabCloseRequested id =>
      have htarget := CardView.closeTarget_of_tabCloseRequested hevent
      have hopen : id ∈ s.tabBar.ids := CardView.mem_of_closeTarget hmsg htarget
      have hclose := (hupdated (s.cardView.update s.tabBar.tabs msg).1).closeCard_iff hopen
      refine hclose.trans ⟨fun hall id' tab _ htab hfree => ?_, fun hall tab htab hfree => ?_⟩
      · obtain ⟨hshell, hbar, haddress⟩ := hall tab htab hfree
        exact ⟨hshell, hbar, haddress⟩
      · obtain ⟨hshell, hbar, haddress⟩ := hall id tab htarget htab hfree
        exact ⟨hshell, hbar, haddress⟩

omit [Px ρ] in
theorem Shown.morphTick_iff (h : s.Shown) (elapsedMs : ℕ) : (s.morphTick elapsedMs).Shown ↔
    (s.phase = .transitioningMode → s.targetMs ≤ elapsedMs → s.tabBar.tabs ≠ []) := by
  rw [morphTick]
  dsimp only
  split_ifs with hphase hdone
  · refine Iff.trans (b := s.tabBar.tabs ≠ [])
      (shown_becomeStrict_iff h.wellFormed rfl rfl rfl) ?_
    exact ⟨fun hne _ _ => hne, fun hne => hne hphase (hdone.trans (min_le_left _ _))⟩
  · refine iff_of_true ?_ fun _ hlong => absurd (le_min hlong le_rfl) hdone
    exact h.of_faces h.wellFormed (.refl _) rfl rfl rfl rfl fun hready => hready
  · exact iff_of_true h fun hmorph => absurd hmorph hphase

omit [Px ρ] in
theorem Shown.convert_iff (h : s.Shown) : (if s.addressBar.mode = .standard ∧
    s.mode = .standard ∧ s.phase = .ready then s.becomeStrict else s).Shown ↔
      (s.phase = .ready → s.tabBar.tabs ≠ []) := by
  split_ifs with haccepted
  · refine (shown_becomeStrict_iff h.wellFormed rfl rfl rfl).trans ?_
    exact ⟨fun hne _ => hne, fun hne => hne haccepted.2.2⟩
  · -- it is not accepted where something is Strict, and there is a tab then
    refine iff_of_true h fun hready hnil => haccepted ?_
    obtain ⟨hshell, -, haddress⟩ := h.home hnil
    exact ⟨haddress, hshell, hready⟩

/-- An address that is committed where there is no tab opens one. -/
theorem Shown.commit (h : s.Shown) (url : Text) (mode : Mode) :
    (s.onAddressBarEvent (.navigationCommitted url mode)).Shown := by
  rw [onAddressBarEvent]
  dsimp only
  split_ifs
  · refine shown_sync (h.wellFormed.newTab.congr ?_ rfl rfl) fun hnil => ?_
    · exact ids_commit s url mode
    · -- there is the tab that was opened
      have hids : s.tabBar.newTab.ids = [] :=
        (ids_commit s url mode).symm.trans (congrArg (List.map TabEntry.id) hnil)
      exact absurd (TabBar.ids_eq_nil_iff.mp hids)
        (List.append_ne_nil_of_right_ne_nil _ (List.cons_ne_nil _ _))
  · exact h

theorem onAddressBar_convert (s : AppState ρ) : s.onAddressBar .convertToStrictClicked =
    if s.addressBar.mode = .standard ∧ s.mode = .standard ∧ s.phase = .ready then s.becomeStrict
    else s := by
  rw [onAddressBar, AddressBar.update]
  by_cases haddress : s.addressBar.mode = .standard
  · simp only [haddress, if_true, true_and]
    rfl
  · simp only [haddress, if_false, false_and]

theorem Shown.onAddressBar_iff (h : s.Shown) {msg : AddressBarMsg}
    (hmsg : ∀ mode, msg ≠ .modeChanged mode) :
    (s.onAddressBar msg).Shown ↔ s.KeepsShown (.addressBar msg) := by
  have hmode : (s.addressBar.update msg).1.mode = s.addressBar.mode :=
    AddressBar.mode_update hmsg
  have hupdated := h.addressBar hmode
  by_cases hconvert : msg = .convertToStrictClicked
  · subst hconvert
    rw [onAddressBar_convert]
    exact h.convert_iff
  · have hkeeps : s.KeepsShown (.addressBar msg) := by
      cases msg with
      | convertToStrictClicked => exact absurd rfl hconvert
      | _ => trivial
    refine iff_of_true ?_ hkeeps
    rw [AppState.onAddressBar]
    dsimp only
    split
    · rename_i event hevent
      cases event with
      | convertToStrictClicked =>
        exact absurd (AddressBar.event_update_convert hevent).1 hconvert
      | navigationCommitted url mode => exact hupdated.commit url mode
      | networkViewerRequested => exact hupdated
    · exact hupdated

/-! ### Every message -/

theorem Shown.globalDragMove (h : s.Shown) (x : ρ) : (s.globalDragMove x).Shown := by
  rw [AppState.globalDragMove]
  split_ifs
  · have hmoved : (TabBarMsg.stripMoved (max (x - TabBar.sidebarCollapsedPx) 0.0)).Live
        s.tabBar.ids := trivial
    exact h.of_faces (h.wellFormed.update hmoved) ((TabBar.tabs_stripMoved_perm _ _).map _)
      (TabBar.activeId_stripMoved _ _) rfl (TabBar.mode_stripMoved _ _) rfl fun hready => hready
  · exact h

/-- **A message leaves the right mode shown exactly if it keeps it.** -/
theorem Shown.update_iff (h : s.Shown) {msg : Message ρ} (hmsg : s.Admits msg) :
    (s.update msg).Shown ↔ s.KeepsShown msg := by
  have hwf : (s.update msg).tabBar.WellFormed := wellFormed_update h.wellFormed hmsg
  have hsame : ∀ s' : AppState ρ, s'.tabBar.WellFormed → s'.tabBar.tabs = s.tabBar.tabs →
      s'.tabBar.activeId = s.tabBar.activeId → s'.mode = s.mode →
      s'.tabBar.mode = s.tabBar.mode → s'.addressBar.mode = s.addressBar.mode →
      (s'.phase = .ready → s.phase = .ready) → s'.Shown :=
    fun s' hwf htabs => h.of_faces hwf (.of_eq (congrArg faces htabs))
  cases msg with
  | sidebar msg => exact h.onSidebar_iff hmsg
  | cardView msg => exact h.onCardView_iff hmsg
  | morphTick elapsedMs => exact h.morphTick_iff elapsedMs
  | addressBar msg =>
    refine h.onAddressBar_iff ?_
    rintro mode rfl
    exact hmsg
  | profileLoaded name => exact iff_of_true (h.profileLoaded name) trivial
  | tabBar msg => exact iff_of_true (h.onTabBar hmsg) trivial
  | globalDragMove x => exact iff_of_true (h.globalDragMove x) trivial
  | globalDragEnd =>
    refine iff_of_true ?_ trivial
    rw [update, globalDragEnd] at hwf ⊢
    refine hsame _ hwf ?_ ?_ rfl ?_ rfl fun hready => hready
    all_goals
      dsimp only
      split_ifs <;> rfl
  | convertToStrict =>
    refine iff_of_true ?_ trivial
    rw [update] at hwf ⊢
    split_ifs at hwf ⊢
    · -- the window is not ready while it is being converted
      exact hsame _ hwf rfl rfl rfl rfl rfl (by rintro ⟨⟩)
    · exact h
  | windowCloseRequested =>
    exact iff_of_true (hsame _ hwf rfl rfl rfl rfl rfl (by rintro ⟨⟩)) trivial
  | maximizeWindow | findEscape =>
    refine iff_of_true ?_ trivial
    simp only [update, findEscape] at hwf ⊢
    split_ifs at hwf ⊢
    all_goals exact hsame _ hwf rfl rfl rfl rfl rfl fun hready => hready
  | _ => exact iff_of_true (hsame _ hwf rfl rfl rfl rfl rfl fun hready => hready) trivial

/-! ### Every run -/

/-- One message to the shell, of those it gets. -/
def stepAdmitted (s : AppState ρ) (msg : Message ρ) : Option (AppState ρ) :=
  if s.Admits msg then some (s.update msg) else none

variable {tr : List (Step (AppState ρ) (Message ρ))}

theorem admits_of_step {msg : Message ρ} (h : s.stepAdmitted msg = some s') :
    s.Admits msg ∧ s' = s.update msg := by
  rw [stepAdmitted] at h
  split_ifs at h with hmsg
  exact ⟨hmsg, (Option.some.inj h).symm⟩

theorem shown_new (name : Text) : (new name : AppState ρ).Shown where
  wellFormed := by
    refine ⟨?_, by rintro id ⟨⟩, fun _ => ?_⟩
    · show (TabBar.stubTabs.map TabEntry.id).Nodup
      decide
    · show 2 ∈ TabBar.stubTabs.map TabEntry.id
      decide
  agrees := by rintro ⟨⟩
  home := by rintro ⟨⟩

/-- **The chrome shows the right mode exactly as long as the messages keep it**: in every run of
the shell that starts with the profile loaded. -/
theorem chrome_shows_mode_iff {name name' : Text}
    (hrun : Run (ofFun stepAdmitted) ((new name : AppState ρ).update (.profileLoaded name')) tr s) :
    ((new name : AppState ρ).update (.profileLoaded name')).ShowsMode ∧
      ((∀ x ∈ tr, x.post.ShowsMode) ↔ ∀ x ∈ tr, x.pre.KeepsShown x.input) := by
  have hstart : ((new name : AppState ρ).update (.profileLoaded name')).Shown :=
    (shown_new name).profileLoaded name'
  have hwf : ∀ x ∈ tr, x.pre.tabBar.WellFormed ∧ x.post.tabBar.WellFormed := by
    refine hrun.forall_step (I := fun s => s.tabBar.WellFormed) hstart.wellFormed ?_
    rintro s msg s' hs hstep
    obtain ⟨hmsg, rfl⟩ := admits_of_step hstep
    exact wellFormed_update hs hmsg
  have hshown : (∀ x ∈ tr, x.post.Shown) ↔ ∀ x ∈ tr, x.pre.KeepsShown x.input := by
    refine hrun.forall_post_iff hstart ?_
    rintro _ s msg s' _ hs hstep
    obtain ⟨hmsg, rfl⟩ := admits_of_step hstep
    exact hs.update_iff hmsg
  refine ⟨(shown_iff hstart.wellFormed).mp hstart, ?_⟩
  rw [← hshown]
  exact forall₂_congr fun x hx => (shown_iff (hwf x hx).2).symm

/-- The Strict tab is shown, then a new one, which is converted. -/
theorem chrome_shows_mode_iff_converted : ∃ tr s,
    Run (ofFun stepAdmitted) ((new [] : AppState Rat).update (.profileLoaded [])) tr s ∧
      tr.map Step.input = [.tabBar (.tabActivated 4), .tabBar .newTabPressed,
        .addressBar .convertToStrictClicked] ∧ ∀ x ∈ tr, x.post.ShowsMode := by
  have hexec : (Transition.exec stepAdmitted ((new [] : AppState Rat).update (.profileLoaded []))
      [.tabBar (.tabActivated 4), .tabBar .newTabPressed,
        .addressBar .convertToStrictClicked]).any (fun p =>
          p.1.all fun x => !x.pre.tabBar.tabs.isEmpty) = true := by decide +kernel
  obtain ⟨tr, s, hrun, hinputs, htest⟩ := Transition.exists_run_where hexec
  refine ⟨tr, s, hrun, hinputs, (chrome_shows_mode_iff hrun).2.mpr fun x hx => ?_⟩
  have hopen : x.pre.tabBar.tabs ≠ [] := by
    simpa using List.all_eq_true.mp htest x hx
  have hmem : x.input ∈ tr.map Step.input := List.mem_map_of_mem hx
  rw [hinputs] at hmem
  rcases List.mem_cons.mp hmem with hinput | hmem
  · rw [hinput]
    trivial
  rcases List.mem_cons.mp hmem with hinput | hmem
  · rw [hinput]
    trivial
  · rw [List.mem_singleton.mp hmem]
    exact fun _ => hopen

/-- A new tab from the sidebar beside a Strict one is Standard, and the chrome is not. -/
theorem standard_tab_shown_strict : ∃ tr s,
    Run (ofFun stepAdmitted) ((new [] : AppState Rat).update (.profileLoaded [])) tr s ∧
      tr.map Step.input = [.tabBar (.tabActivated 4), .sidebar .newTabPressed] ∧
      ¬ s.ShowsMode := by
  have hexec : (Transition.exec stepAdmitted ((new [] : AppState Rat).update (.profileLoaded []))
      [.tabBar (.tabActivated 4), .sidebar .newTabPressed]).any (fun p =>
        decide (p.2.phase = .ready ∧ p.2.mode = .strict) &&
          (p.2.tabBar.tabOf p.2.tabBar.activeId).any fun tab => decide (tab.mode = .standard)) =
      true := by decide +kernel
  obtain ⟨tr, s, hrun, hinputs, htest⟩ := Transition.exists_run_where hexec
  rw [Bool.and_eq_true, decide_eq_true_eq] at htest
  obtain ⟨⟨hready, hstrict⟩, htest⟩ := htest
  obtain ⟨tab, hactive, hstandard⟩ := (Option.any_eq_true _ _).mp htest
  refine ⟨tr, s, hrun, hinputs, fun hshows => ?_⟩
  have hopen : s.tabBar.tabs ≠ [] := List.ne_nil_of_mem (Keyed.mem_of_find hactive).1
  obtain ⟨tab', hactive', hmode, -, -⟩ := hshows.1 hready hopen
  obtain rfl := Option.some.inj (hactive.symm.trans hactive')
  rw [hstrict, of_decide_eq_true hstandard] at hmode
  cases hmode

end AppState

end Ui

end DevBrowse
