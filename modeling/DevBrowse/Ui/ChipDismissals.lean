import DevBrowse.Ui.TabRecords

/-!
# The tabs where the button is not wanted

The user may dismiss the button that converts a tab to Strict, and the address bar remembers in
which tabs. It forgets a tab that is closed on some ways and not on others, and the identifier of
a tab that is closed goes to the next one. Where every tab that was dismissed is closed on a way
that forgets it, what is remembered is what the user did in tabs that are open, and in a new tab
the button is there (`DevBrowse.Ui.AppState.dismissals_local`).
-/

namespace DevBrowse

namespace Ui

/-- Whether the button that converts to Strict is to be drawn. -/
def AddressBar.showConvertChip (ab : AddressBar) : Bool :=
  decide (ab.mode = .standard) && decide (ab.chipState ≠ .hidden)

theorem AddressBar.showConvertChip_iff {ab : AddressBar} :
    ab.showConvertChip = true ↔ ab.mode = .standard ∧ ab.chipState ≠ .hidden := by
  rw [showConvertChip, Bool.and_eq_true, decide_eq_true_eq, decide_eq_true_eq]

/-- In a tab without an address the button is there, unless it was dismissed in it. -/
theorem AddressBar.showConvertChip_resetForTab {ab : AddressBar} {tabId : ℕ}
    (h : tabId ∉ ab.dismissedTabIds) :
    (ab.resetForTab tabId [] .standard).showConvertChip = true := by
  rw [showConvertChip_iff, mode_resetForTab, chipState_resetForTab_nil, if_neg h]
  exact ⟨rfl, by decide⟩

theorem TabBar.nextId_of_tabs_eq_nil {ρ : Type*} {tb : TabBar ρ} (h : tb.tabs = []) :
    tb.nextId = 0 := by
  rw [TabBar.nextId, TabBar.ids, h]
  rfl

namespace AppState

open Transition

variable {ρ : Type*} [Px ρ] {s s' : AppState ρ} {id : ℕ} {msg : Message ρ}
  {tr : List (Step (AppState ρ) (Message ρ))} {x : Step (AppState ρ) (Message ρ)}

/-- **A tab in which the user has dismissed the button**, and that has been open since. -/
def Dismissed (tr : List (Step (AppState ρ) (Message ρ))) (id : ℕ) : Prop :=
  Since (fun x => x.input = .addressBar .dismissConvertChip ∧ x.pre.tabBar.activeId = id ∧
    id ∈ x.pre.tabBar.ids) (fun x => id ∈ x.post.tabBar.ids) tr

/-- **What is remembered is what the user did** in tabs that are open, or where there is none. -/
def RemembersOpen (tr : List (Step (AppState ρ) (Message ρ))) (s : AppState ρ) : Prop :=
  ∀ id ∈ s.addressBar.dismissedTabIds,
    id ∈ s.tabBar.ids ∧ Dismissed tr id ∨ id = 0 ∧ s.tabBar.tabs = []

/-- An address is committed where no tab is open, and one is opened for it. -/
def CommitsHome (x : Step (AppState ρ) (Message ρ)) : Prop :=
  x.input = .addressBar .navigatePressed ∧ x.pre.tabBar.tabs = [] ∧
    x.pre.addressBar.barState = .focused

/-- **In a Standard tab that is new the button is there.** -/
def NewShown (x : Step (AppState ρ) (Message ρ)) : Prop :=
  ∀ tab ∈ x.post.tabBar.tabs, tab.id ∉ x.pre.tabBar.ids → tab.mode = .standard →
    x.post.addressBar.showConvertChip = true

/-- **In a Standard tab that is new the button is there**, unless it was opened for an address. -/
def FreshShown (x : Step (AppState ρ) (Message ρ)) : Prop :=
  ∀ tab ∈ x.post.tabBar.tabs, tab.id ∉ x.pre.tabBar.ids → tab.mode = .standard →
    (x.post.addressBar.showConvertChip = true ↔ tab.url = [])

/-- A tab is closed on a way on which it is forgotten: from the tab bar, beside others, and on the
strip only if it is the active one. -/
def Forgets (s : AppState ρ) : Message ρ → ℕ → Prop
  | .tabBar .stripPressed, id =>
    s.tabBar.activeId = id ∧ Keyed.remove TabEntry.id id s.tabBar.tabs ≠ []
  | .tabBar _, id => Keyed.remove TabEntry.id id s.tabBar.tabs ≠ []
  | _, _ => False

/-- **A message that leaves no dismissal behind**: the button is dismissed in the tab the address
bar is for, the first tab does not get an identifier that is remembered, a tab is not opened from
the sidebar while Strict is shown, and a tab that is remembered is forgotten when it is closed. -/
def Tidy (s : AppState ρ) : Message ρ → Prop
  | .addressBar .dismissConvertChip =>
    s.addressBar.currentTabId = s.tabBar.activeId ∧ s.tabBar.activeId ∈ s.tabBar.ids ∨
      s.addressBar.currentTabId = 0 ∧ s.tabBar.tabs = []
  | .tabBar .newTabPressed =>
    (s.tabBar.tabs = [] → s.tabBar.nextId ∉ s.addressBar.dismissedTabIds) ∧
      (s.tabBar.activeId = s.tabBar.nextId → s.mode = .standard)
  | .sidebar .newTabPressed =>
    (s.tabBar.tabs = [] → s.tabBar.nextId ∉ s.addressBar.dismissedTabIds) ∧ s.mode = .standard
  | msg => ∀ id ∈ s.addressBar.dismissedTabIds, s.Closes msg id →
    s.Forgets msg id ∨ id = 0 ∧ Keyed.remove TabEntry.id id s.tabBar.tabs = []

/-- What holds along a run whose messages leave no dismissal behind. -/
structure Remembered (tr : List (Step (AppState ρ) (Message ρ))) (s : AppState ρ) : Prop where
  /-- No two tabs share an identifier. -/
  nodup : s.tabBar.ids.Nodup
  /-- What is in the input was typed. -/
  typed : s.addressBar.Typed
  /-- What is remembered was dismissed in a tab that is open, or there is none. -/
  dismissed : RemembersOpen tr s

omit [Px ρ] in
/-- **The identifier of a new tab is not remembered**, if it is not where there is no tab. -/
theorem RemembersOpen.nextId_notMem (h : RemembersOpen tr s)
    (hnil : s.tabBar.tabs = [] → s.tabBar.nextId ∉ s.addressBar.dismissedTabIds) :
    s.tabBar.nextId ∉ s.addressBar.dismissedTabIds := by
  intro hmem
  rcases h _ hmem with ⟨hopen, -⟩ | ⟨-, hempty⟩
  · exact s.tabBar.nextId_notMem hopen
  · exact hnil hempty hmem

/-! ### Tabs that are forgotten -/

omit [Px ρ] in
theorem notMem_of_touched_forgetTab (ab : AddressBar) {ab' : AddressBar}
    (h : (ab.forgetTab id).Touched ab') : id ∉ ab'.dismissedTabIds :=
  fun hmem => Finset.notMem_erase id ab.dismissedTabIds (h.subset hmem)

/-- A tab the tab bar tells of is forgotten. -/
theorem notMem_of_tabClosed {tbMsg : TabBarMsg ρ}
    (hevent : (s.tabBar.update tbMsg).2 = some (.tabClosed id)) :
    id ∉ (s.onTabBar tbMsg).addressBar.dismissedTabIds := by
  refine notMem_of_touched_forgetTab s.addressBar ?_
  have hlast : ∀ s' : AppState ρ, (s.addressBar.forgetTab id).Touched s'.addressBar →
      (s.addressBar.forgetTab id).Touched (if s'.tabBar.activeId ≠ s.tabBar.activeId then
        s'.syncActiveTabMode else s').addressBar := by
    intro s' h
    split_ifs
    · exact touched_sync h
    · exact h
  rw [onTabBar]
  dsimp only
  rw [hevent]
  exact hlast _ (touched_sync .refl)

/-- The active tab is forgotten when it is closed on the strip. -/
theorem notMem_of_stabilizeRequested {tbMsg : TabBarMsg ρ} {gen : UInt32}
    (hevent : (s.tabBar.update tbMsg).2 = some (.stabilizeRequested gen))
    (hactive : (s.tabBar.update tbMsg).1.activeId ≠ s.tabBar.activeId) :
    s.tabBar.activeId ∉ (s.onTabBar tbMsg).addressBar.dismissedTabIds := by
  refine notMem_of_touched_forgetTab s.addressBar ?_
  rw [onTabBar]
  dsimp only
  rw [hevent]
  dsimp only
  rw [if_pos hactive]
  exact touched_sync .refl

/-- **On the ways on which a tab is forgotten it is.** -/
theorem notMem_of_forgets (hnodup : s.tabBar.ids.Nodup) (hcloses : s.Closes msg id)
    (h : s.Forgets msg id) : id ∉ (s.update msg).addressBar.dismissedTabIds := by
  cases msg with
  | tabBar tbMsg =>
    cases tbMsg with
    | tabCloseRequested id' =>
      obtain ⟨rfl, hfree⟩ := hcloses
      refine notMem_of_tabClosed ?_
      rw [TabBar.update, TabBar.closeRequested_of_not_guarded hfree, TabBar.event_closeTab,
        if_neg (mt List.isEmpty_iff.mp h), if_neg Bool.false_ne_true]
    | strictCloseConfirmed =>
      have hmodal : s.tabBar.modal = .confirming id := hcloses
      refine notMem_of_tabClosed ?_
      rw [TabBar.update, hmodal]
      dsimp only
      rw [TabBar.event_closeTab, if_neg (mt List.isEmpty_iff.mp h), if_neg Bool.false_ne_true]
    | stripPressed =>
      obtain ⟨hhover, hzone⟩ := hcloses
      obtain ⟨rfl, hleft⟩ := h
      have hmem := TabBar.mem_of_cursorInCloseZone hhover hzone
      have hclose := TabBar.stripPressed_of_zone hhover hzone
      have hactive : (s.tabBar.update .stripPressed).1.activeId ≠ s.tabBar.activeId := by
        rw [TabBar.update, hclose]
        obtain ⟨_, _, _, -, heq⟩ :=
          TabBar.exists_closeTab_eq { s.tabBar with dragId := none } s.tabBar.activeId true
        rw [heq]
        dsimp only
        rw [if_pos rfl]
        intro hsame
        have hsuccessor := TabBar.successor_mem hnodup hmem rfl hleft
        rw [show s.tabBar.successor s.tabBar.activeId =
          TabBar.successor { s.tabBar with dragId := none } s.tabBar.activeId from rfl,
          hsame] at hsuccessor
        obtain ⟨tab, htab, hid⟩ := List.mem_map.mp hsuccessor
        exact (Keyed.mem_remove.mp htab).2 hid
      have hevent : (s.tabBar.update .stripPressed).2 =
          some (.stabilizeRequested (s.tabBar.stabilizeGeneration + 1)) := by
        rw [TabBar.update, hclose, TabBar.event_closeTab, if_neg (mt List.isEmpty_iff.mp hleft),
          if_pos rfl]
      exact notMem_of_stabilizeRequested hevent hactive
    | _ => exact hcloses.elim
  | sidebar | cardView => exact h.elim
  | _ => exact hcloses.elim

theorem Tidy.forgets (h : s.Tidy msg) (hmem : id ∈ s.addressBar.dismissedTabIds)
    (hcloses : s.Closes msg id) :
    s.Forgets msg id ∨ id = 0 ∧ Keyed.remove TabEntry.id id s.tabBar.tabs = [] := by
  cases msg with
  | tabBar tbMsg =>
    cases tbMsg with
    | newTabPressed => exact hcloses.elim
    | _ => exact h id hmem hcloses
  | sidebar sbMsg =>
    cases sbMsg with
    | newTabPressed => exact hcloses.elim
    | _ => exact h id hmem hcloses
  | addressBar => exact hcloses.elim
  | _ => exact h id hmem hcloses

/-! ### What is remembered after a message -/

theorem dismissedTabIds_update (hmsg : msg ≠ .addressBar .dismissConvertChip) :
    (s.update msg).addressBar.dismissedTabIds ⊆ s.addressBar.dismissedTabIds := by
  rcases touched_update s msg with htouched | ⟨abMsg, rfl, htouched⟩
  · exact htouched.subset
  · have hown : (s.addressBar.update abMsg).1.dismissedTabIds = s.addressBar.dismissedTabIds := by
      cases abMsg with
      | dismissConvertChip => exact absurd rfl hmsg
      | focusLost | escPressed =>
        rw [AddressBar.update, AddressBar.unfocus]
        split_ifs <;> rfl
      | scrolledDown | scrolledUp | navigatePressed | autoDismissConvertChip =>
        rw [AddressBar.update]
        split_ifs <;> rfl
      | _ => rfl
    exact hown ▸ htouched.subset

/-- The bar starts over for the tab that is opened for an address. -/
theorem exists_resetForTab_commit (hnil : s.tabBar.tabs = [])
    (hfocus : s.addressBar.barState = .focused) : ∃ ab mode,
    (s.update (.addressBar .navigatePressed)).addressBar =
      AddressBar.resetForTab ab s.tabBar.nextId s.addressBar.committedUrl mode := by
  have hevent := (AddressBar.update_commit hfocus).2.2
  rw [update, onAddressBar]
  dsimp only
  rw [hevent]
  dsimp only [onAddressBarEvent]
  rw [if_pos (List.isEmpty_iff.mpr hnil), syncActiveTabMode]
  split
  · rename_i hnone
    refine absurd ?_ (Keyed.find_eq_none_iff.mp hnone)
    show s.tabBar.nextId ∈ _
    dsimp only [TabBar.update, TabBar.newTab]
    rw [hnil, List.modifyLast_concat]
    exact List.mem_singleton.mpr rfl
  · rename_i tab hfind
    have htab := (Keyed.mem_of_find hfind).1
    dsimp only [TabBar.update, TabBar.newTab] at htab
    rw [hnil, List.modifyLast_concat] at htab
    obtain rfl := List.mem_singleton.mp htab
    exact ⟨_, _, rfl⟩

/-! ### Tabs that are new -/

/-- **A tab that is new** is opened without an address, or for the address that is committed. -/
theorem new_cases {tab : TabEntry} (htab : tab ∈ (s.update msg).tabBar.tabs)
    (hnew : tab.id ∉ s.tabBar.ids) :
    Opens msg ∧ tab.id = s.tabBar.nextId ∧ tab.url = [] ∨
      CommitsHome ⟨s, msg, s.update msg⟩ ∧ tab.url = s.addressBar.committedUrl := by
  have hold : ∀ url, (tab.id, url) ∉ records s.tabBar.tabs := by
    intro url hmem
    obtain ⟨tab', htab', hid, -⟩ := mem_records.mp hmem
    exact hnew (hid ▸ List.mem_map_of_mem htab')
  have hrecord : (tab.id, tab.url) ∈ records (s.update msg).tabBar.tabs :=
    mem_records.mpr ⟨tab, htab, rfl, rfl⟩
  have hrecorded := recorded_update s msg
  generalize records (s.update msg).tabBar.tabs = rs at hrecord hrecorded
  cases hrecorded with
  | kept hperm => exact absurd (hperm.mem_iff.mp hrecord) (hold _)
  | closed =>
    obtain ⟨tab', htab', hid, hurl⟩ := mem_records.mp hrecord
    exact absurd (mem_records.mpr ⟨tab', (Keyed.mem_remove.mp htab').1, hid, hurl⟩) (hold _)
  | opened hopens =>
    rcases List.mem_append.mp hrecord with hmem | hlast
    · exact absurd hmem (hold _)
    · obtain ⟨hid, hurl⟩ := Prod.mk.inj (List.mem_singleton.mp hlast)
      exact .inl ⟨hopens, hid, hurl⟩
  | committed hnil hfocus =>
    obtain ⟨-, hurl⟩ := Prod.mk.inj (List.mem_singleton.mp hrecord)
    exact .inr ⟨⟨rfl, hnil, hfocus⟩, hurl⟩

/-- The button is there in a tab that is opened in the tab bar. -/
theorem showConvertChip_newTabPressed {tab : TabEntry} (htidy : s.Tidy (.tabBar .newTabPressed))
    (hforget : s.tabBar.nextId ∉ s.addressBar.dismissedTabIds)
    (hnodup : (s.update (.tabBar .newTabPressed)).tabBar.ids.Nodup)
    (htab : tab ∈ (s.update (.tabBar .newTabPressed)).tabBar.tabs)
    (hid : tab.id = s.tabBar.nextId) (hurl : tab.url = []) (hmode : tab.mode = .standard) :
    (s.update (.tabBar .newTabPressed)).addressBar.showConvertChip = true := by
  let started : AppState ρ :=
    (stampStartPageTitle { s with tabBar := s.tabBar.newTab }).resetForNewTab
  have hupdate : s.update (.tabBar .newTabPressed) =
      if started.tabBar.activeId ≠ s.tabBar.activeId then started.syncActiveTabMode
      else started := rfl
  have hforgotten : s.tabBar.nextId ∉ started.addressBar.dismissedTabIds := fun hmem =>
    hforget (AddressBar.dismissedTabIds_resetForTab_subset s.addressBar _ [] s.mode hmem)
  rw [hupdate] at hnodup htab ⊢
  split_ifs at hnodup htab ⊢ with hactive
  · rw [TabBar.ids, tabs_syncActiveTabMode] at hnodup
    rw [tabs_syncActiveTabMode] at htab
    have hfind : started.tabBar.tabOf s.tabBar.nextId = some tab :=
      (Keyed.find_eq_some_iff hnodup).mpr ⟨htab, hid⟩
    have hbar : started.syncActiveTabMode.addressBar =
        started.addressBar.resetForTab s.tabBar.nextId [] .standard := by
      rw [syncActiveTabMode, show started.tabBar.activeId = s.tabBar.nextId from rfl, hfind]
      dsimp only
      rw [hurl, hmode]
    rw [hbar]
    exact AddressBar.showConvertChip_resetForTab hforgotten
  · have hstandard : s.mode = .standard := htidy.2 (not_not.mp hactive).symm
    show (s.addressBar.resetForTab s.tabBar.nextId [] s.mode).showConvertChip = true
    rw [hstandard]
    exact AddressBar.showConvertChip_resetForTab hforget

/-- **In a tab that is new the button is there**, if what is remembered was dismissed in tabs that
are open. -/
theorem freshShown_update (hremembered : Remembered tr s) (htidy : s.Tidy msg)
    (hnodup : (s.update msg).tabBar.ids.Nodup) : FreshShown ⟨s, msg, s.update msg⟩ := by
  intro tab htab hnew hmode
  dsimp only at htab hnew ⊢
  rcases new_cases htab hnew with ⟨hopens, hid, hurl⟩ | ⟨⟨hinput, hnil, hfocus⟩, hurl⟩
  · refine iff_of_true ?_ hurl
    cases msg with
    | tabBar tbMsg =>
      cases tbMsg with
      | newTabPressed =>
        exact showConvertChip_newTabPressed htidy (hremembered.dismissed.nextId_notMem htidy.1)
          hnodup htab hid hurl hmode
      | _ => exact hopens.elim
    | sidebar sbMsg =>
      cases sbMsg with
      | newTabPressed =>
        show (s.addressBar.resetForTab s.tabBar.nextId [] s.mode).showConvertChip = true
        rw [htidy.2]
        exact AddressBar.showConvertChip_resetForTab
          (hremembered.dismissed.nextId_notMem htidy.1)
      | _ => exact hopens.elim
    | _ => exact hopens.elim
  · have hne := hremembered.typed.committedUrl_ne_nil
    refine iff_of_false (fun hshow => ?_) (hurl ▸ hne)
    obtain rfl : msg = .addressBar .navigatePressed := hinput
    obtain ⟨ab, mode, hbar⟩ := exists_resetForTab_commit hnil hfocus
    rw [hbar, AddressBar.showConvertChip_iff, AddressBar.chipState_resetForTab _ _ _ hne] at hshow
    exact hshow.2 rfl

/-- Where none is opened for an address, a tab that is new has none. -/
theorem FreshShown.newShown (h : FreshShown ⟨s, msg, s.update msg⟩)
    (hhome : ¬ CommitsHome ⟨s, msg, s.update msg⟩) : NewShown ⟨s, msg, s.update msg⟩ := by
  intro tab htab hnew hmode
  rcases new_cases htab hnew with ⟨-, -, hurl⟩ | ⟨hcommits, -⟩
  · exact (h tab htab hnew hmode).mpr hurl
  · exact absurd hcommits hhome

/-! ### Every run -/

omit [Px ρ] in
theorem tabs_eq_nil_of_records (h : records s.tabBar.tabs = []) : s.tabBar.tabs = [] :=
  List.map_eq_nil_iff.mp h

/-- **A tab that is remembered stays open**, unless it is the tab 0 and no tab is left. -/
theorem mem_ids_of_remembered (hnodup : s.tabBar.ids.Nodup) (htidy : s.Tidy msg)
    (hdismissed : id ∈ s.addressBar.dismissedTabIds)
    (hmem : id ∈ (s.update msg).addressBar.dismissedTabIds) (hopen : id ∈ s.tabBar.ids) :
    id ∈ (s.update msg).tabBar.ids ∨ id = 0 ∧ (s.update msg).tabBar.tabs = [] := by
  have hrecorded := recorded_update s msg
  have hids : ∀ tabs : List TabEntry, id ∈ tabs.map TabEntry.id ↔
      id ∈ (records tabs).map Prod.fst := fun tabs => by rw [map_fst_records]
  rw [TabBar.ids, hids] at hopen ⊢
  obtain ⟨rs, hrs⟩ : ∃ rs, records (s.update msg).tabBar.tabs = rs := ⟨_, rfl⟩
  rw [hrs] at hrecorded ⊢
  cases hrecorded with
  | kept hperm => exact .inl ((hperm.map Prod.fst).mem_iff.mpr hopen)
  | closed hcloses =>
    rename_i id'
    by_cases hid : id = id'
    · obtain rfl := hid
      rcases htidy.forgets hdismissed hcloses with hforgets | ⟨hzero, hlast⟩
      · exact absurd hmem (notMem_of_forgets hnodup hcloses hforgets)
      · refine .inr ⟨hzero, tabs_eq_nil_of_records ?_⟩
        rw [hrs, hlast]
        rfl
    · rw [← hids] at hopen ⊢
      obtain ⟨tab, htab, rfl⟩ := List.mem_map.mp hopen
      exact .inl (List.mem_map_of_mem (Keyed.mem_remove.mpr ⟨htab, hid⟩))
  | opened =>
    rw [List.map_append]
    exact .inl (List.mem_append_left _ hopen)
  | committed hnil =>
    rw [hnil] at hopen
    cases hopen

/-- As long as 0 is remembered where there is no tab there is none. -/
theorem tabs_eq_nil_of_remembered (htyped : s.addressBar.Typed) (htidy : s.Tidy msg)
    (hnil : s.tabBar.tabs = []) (hdismissed : 0 ∈ s.addressBar.dismissedTabIds)
    (hmem : 0 ∈ (s.update msg).addressBar.dismissedTabIds) : (s.update msg).tabBar.tabs = [] := by
  have hrecorded := recorded_update s msg
  have hnext := TabBar.nextId_of_tabs_eq_nil hnil
  refine tabs_eq_nil_of_records ?_
  obtain ⟨rs, hrs⟩ : ∃ rs, records (s.update msg).tabBar.tabs = rs := ⟨_, rfl⟩
  rw [hrs] at hrecorded ⊢
  cases hrecorded with
  | kept hperm =>
    rw [hnil] at hperm
    exact hperm.eq_nil
  | closed =>
    rw [hnil]
    rfl
  | opened hopens =>
    have hnew : s.tabBar.nextId ∉ s.addressBar.dismissedTabIds := by
      cases msg with
      | tabBar tbMsg =>
        cases tbMsg with
        | newTabPressed => exact htidy.1 hnil
        | _ => exact hopens.elim
      | sidebar sbMsg =>
        cases sbMsg with
        | newTabPressed => exact htidy.1 hnil
        | _ => exact hopens.elim
      | _ => exact hopens.elim
    exact absurd (hnext ▸ hdismissed) hnew
  | committed _ hfocus =>
    obtain ⟨ab, mode, hbar⟩ := exists_resetForTab_commit hnil hfocus
    have hne := htyped.committedUrl_ne_nil
    rw [hbar, AddressBar.dismissedTabIds_resetForTab _ _ _ hne, hnext] at hmem
    exact absurd hmem (Finset.notMem_erase 0 _)

/-- **A message that leaves no dismissal behind keeps what is remembered to the tabs that are
open.** -/
theorem Remembered.update (h : Remembered tr s) (htidy : s.Tidy msg)
    (hnodup : (s.update msg).tabBar.ids.Nodup) :
    Remembered (tr ++ [⟨s, msg, s.update msg⟩]) (s.update msg) := by
  refine ⟨hnodup, typed_update h.typed msg, fun id hmem => ?_⟩
  by_cases hdismiss : msg = .addressBar .dismissConvertChip
  · obtain rfl := hdismiss
    have hinserted : id ∈ insert s.addressBar.currentTabId s.addressBar.dismissedTabIds := hmem
    rcases Finset.mem_insert.mp hinserted with rfl | hbefore
    · rcases htidy with ⟨hcurrent, hopen⟩ | hhome
      · rw [← hcurrent] at hopen
        exact .inl ⟨hopen, since_snoc.mpr (.inl ⟨rfl, hcurrent.symm, hopen⟩)⟩
      · exact .inr hhome
    · rcases h.dismissed id hbefore with ⟨hopen, hdismissed⟩ | hhome
      · exact .inl ⟨hopen, since_snoc.mpr (.inr ⟨hdismissed, hopen⟩)⟩
      · exact .inr hhome
  · have hbefore := dismissedTabIds_update hdismiss hmem
    rcases h.dismissed id hbefore with ⟨hopen, hdismissed⟩ | ⟨rfl, hnil⟩
    · rcases mem_ids_of_remembered h.nodup htidy hbefore hmem hopen with hstill | hhome
      · exact .inl ⟨hstill, since_snoc.mpr (.inr ⟨hdismissed, hstill⟩)⟩
      · exact .inr hhome
    · exact .inr ⟨rfl, tabs_eq_nil_of_remembered h.typed htidy hnil hbefore hmem⟩

theorem remembered_of_run {name : Text} (h : Run (ofFun stepAny) (new name : AppState ρ) tr s)
    (htidy : ∀ x ∈ tr, x.pre.Tidy x.input) : Remembered tr s := by
  refine h.invariant_where (I := Remembered) ?_ ?_ htidy
  · exact ⟨(strictShown_new name).nodup, .inl rfl,
      fun id hmem => absurd hmem (Finset.notMem_empty id)⟩
  · rintro tr s msg s' hrun hremembered hstep hmsg
    obtain rfl : s.update msg = s' := Option.some.inj hstep
    have hshown := strictShown_of_run (hrun.snoc hstep) (strictShown_new name)
    exact hremembered.update hmsg hshown.nodup

/-- **What the user dismissed in a tab stays with that tab**, in every run from the start whose
messages leave no dismissal behind: in a Standard tab that is new the button is there, unless the
tab was opened for an address that is committed. -/
theorem dismissals_local {name : Text} (h : Run (ofFun stepAny) (new name : AppState ρ) tr s)
    (htidy : ∀ x ∈ tr, x.pre.Tidy x.input) :
    RemembersOpen tr s ∧ (∀ x ∈ tr, FreshShown x) ∧ ∀ x ∈ tr, ¬ CommitsHome x → NewShown x := by
  have hstep : ∀ x ∈ tr, x.pre.update x.input = x.post ∧ FreshShown x := by
    intro x hx
    obtain ⟨before, after, rfl, hrun, hstep, -⟩ := h.of_mem hx
    have hpost : x.pre.update x.input = x.post := Option.some.inj hstep
    have hremembered := remembered_of_run hrun fun y hy => htidy y (List.mem_append_left _ hy)
    have hshown := strictShown_of_run (hrun.snoc hstep) (strictShown_new name)
    obtain ⟨s, msg, s'⟩ := x
    obtain rfl : s.update msg = s' := hpost
    exact ⟨rfl, freshShown_update hremembered (htidy _ hx) hshown.nodup⟩
  refine ⟨(remembered_of_run h htidy).dismissed, fun x hx => (hstep x hx).2, ?_⟩
  rintro ⟨s, msg, s'⟩ hx hhome
  obtain ⟨hpost, hfresh⟩ := hstep _ hx
  obtain rfl : s.update msg = s' := hpost
  exact hfresh.newShown hhome

/-- The button is dismissed in a new tab, that tab is closed from the sidebar, and another one is
opened. -/
theorem not_dismissals_local :
    (¬ ∀ (tr : List (Step (AppState Rat) (Message Rat))) (s : AppState Rat),
      Run (ofFun stepAny) (new []) tr s → RemembersOpen tr s) ∧
    ¬ ∀ (tr : List (Step (AppState Rat) (Message Rat))) (s : AppState Rat),
      Run (ofFun stepAny) (new []) tr s → ∀ x ∈ tr, FreshShown x := by
  let s₁ : AppState Rat := (new []).update (.profileLoaded [])
  let s₂ : AppState Rat := s₁.update (.tabBar .newTabPressed)
  let s₃ : AppState Rat := s₂.update (.addressBar .dismissConvertChip)
  let s₄ : AppState Rat := s₃.update (.sidebar (.pillClosePressed 5))
  let s₅ : AppState Rat := s₄.update (.tabBar .newTabPressed)
  let tr : List (Step (AppState Rat) (Message Rat)) := [⟨new [], .profileLoaded [], s₁⟩,
    ⟨s₁, .tabBar .newTabPressed, s₂⟩, ⟨s₂, .addressBar .dismissConvertChip, s₃⟩,
    ⟨s₃, .sidebar (.pillClosePressed 5), s₄⟩]
  have hclosed : Run (ofFun stepAny) (new []) tr s₄ :=
    (((Run.nil.snoc rfl).snoc rfl).snoc rfl).snoc rfl
  have hopened : Run (ofFun stepAny) (new []) (tr ++ [⟨s₄, .tabBar .newTabPressed, s₅⟩]) s₅ :=
    hclosed.snoc rfl
  have hkept : decide (5 ∈ s₄.addressBar.dismissedTabIds) = true := by decide +kernel
  have hgone : 5 ∉ s₄.tabBar.ids := by decide +kernel
  have hnew : ∃ tab ∈ s₅.tabBar.tabs, tab.id = 5 ∧ tab.mode = .standard ∧ tab.url = [] := by
    decide +kernel
  have hhidden : s₅.addressBar.showConvertChip = false := by decide +kernel
  -- from here on only what was just evaluated matters
  clear_value s₅ s₄
  refine ⟨fun hall => ?_, fun hall => ?_⟩
  · have hremembers : RemembersOpen tr s₄ := hall tr s₄ hclosed
    have hor := hremembers 5 (of_decide_eq_true hkept)
    exact hor.elim (fun hopen => hgone hopen.1) fun hhome => by cases hhome.1
  · have hfresh : FreshShown ⟨s₄, .tabBar .newTabPressed, s₅⟩ :=
      hall _ _ hopened _ (List.mem_append_right tr (List.mem_singleton.mpr rfl))
    obtain ⟨tab, htab, hid, hmode, hurl⟩ := hnew
    have hshown := (hfresh tab htab (hid ▸ hgone) hmode).mpr hurl
    exact Bool.false_ne_true (hhidden.symm.trans hshown)

/-- The same, with the tab closed from the tab bar. -/
theorem dismissals_local_tabBar : ∃ (tr : List (Step (AppState Rat) (Message Rat)))
    (s : AppState Rat), Run (ofFun stepAny) (new []) tr s ∧ tr.map Step.input =
      [.profileLoaded [], .tabBar .newTabPressed, .addressBar .dismissConvertChip,
        .tabBar (.tabCloseRequested 5), .tabBar .newTabPressed] ∧
      RemembersOpen tr s ∧ (∀ x ∈ tr, FreshShown x) ∧ ∀ x ∈ tr, NewShown x := by
  let s₁ : AppState Rat := (new []).update (.profileLoaded [])
  let s₂ : AppState Rat := s₁.update (.tabBar .newTabPressed)
  let s₃ : AppState Rat := s₂.update (.addressBar .dismissConvertChip)
  let s₄ : AppState Rat := s₃.update (.tabBar (.tabCloseRequested 5))
  let s₅ : AppState Rat := s₄.update (.tabBar .newTabPressed)
  have hrun : Run (ofFun stepAny) (new []) [⟨new [], .profileLoaded [], s₁⟩,
      ⟨s₁, .tabBar .newTabPressed, s₂⟩, ⟨s₂, .addressBar .dismissConvertChip, s₃⟩,
      ⟨s₃, .tabBar (.tabCloseRequested 5), s₄⟩, ⟨s₄, .tabBar .newTabPressed, s₅⟩] s₅ :=
    ((((Run.nil.snoc rfl).snoc rfl).snoc rfl).snoc rfl).snoc rfl
  obtain ⟨hremembers, hfresh, hnew⟩ := dismissals_local hrun (by
    simp only [List.forall_mem_cons]
    refine ⟨fun id _ hcloses => hcloses.elim, ⟨by decide +kernel, by decide +kernel⟩,
      .inl ⟨by decide +kernel, by decide +kernel⟩, ?_, ⟨by decide +kernel, by decide +kernel⟩,
      by simp⟩
    rintro _ _ ⟨rfl, -⟩
    left
    show Keyed.remove TabEntry.id 5 s₃.tabBar.tabs ≠ []
    decide +kernel)
  refine ⟨_, s₅, hrun, rfl, hremembers, hfresh, fun x hx => hnew x hx fun hhome => ?_⟩
  -- no address is committed
  have hinput : x.input ∈ [.profileLoaded [], .tabBar .newTabPressed,
      .addressBar .dismissConvertChip, .tabBar (.tabCloseRequested 5), .tabBar .newTabPressed] :=
    List.mem_map_of_mem hx
  simp [hhome.1] at hinput

end AppState

end Ui

end DevBrowse
