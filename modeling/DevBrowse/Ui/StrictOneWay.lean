import DevBrowse.Lib.Transition
import DevBrowse.Ui.Shell

/-!
# Strict is one-way for a tab

A tab that is Strict stays Strict for as long as it is open, whatever messages the shell gets
and whatever identifiers they carry (`DevBrowse.Ui.AppState.strict_one_way`). The modes of the
tabs are overwritten in one place, where the active tab takes over a mode of the shell: the mode
of the shell may then be an old one, but never Standard while the active tab is Strict
(`DevBrowse.Ui.AppState.StrictShown`).
-/

namespace DevBrowse

namespace Ui

namespace AppState

variable {ρ : Type*} {s s' : AppState ρ} {tabs tabs' : List TabEntry} {id : ℕ} {mode : Mode}

open Transition (Step Run ofFun)

/-! ### What a step keeps -/

/-- A Strict tab that is still open is still Strict. -/
def KeepsStrict (tabs tabs' : List TabEntry) : Prop :=
  ∀ tab ∈ tabs, tab.mode = .strict → ∀ tab' ∈ tabs', tab'.id = tab.id → tab'.mode = .strict

/-- No two tabs share an identifier, and the shell shows Strict where the active tab is. -/
structure StrictShown (s : AppState ρ) : Prop where
  /-- No two tabs share an identifier. -/
  nodup : s.tabBar.ids.Nodup
  /-- A Strict active tab is shown as such. -/
  shown : ∀ tab ∈ s.tabBar.tabs, tab.id = s.tabBar.activeId → tab.mode = .strict →
    s.mode = .strict

/-- What a step from one state to another is to keep. -/
structure OneWay (s s' : AppState ρ) : Prop extends StrictShown s' where
  /-- A Strict tab that is still open is still Strict. -/
  keeps : KeepsStrict s.tabBar.tabs s'.tabBar.tabs

theorem keepsStrict_iff : KeepsStrict tabs tabs' ↔
    ∀ id mode, (id, .strict) ∈ faces tabs → (id, mode) ∈ faces tabs' → mode = .strict := by
  simp only [mem_faces]
  constructor
  · rintro h id mode ⟨tab, htab, rfl, hstrict⟩ ⟨tab', htab', hid, rfl⟩
    exact h tab htab hstrict tab' htab' hid
  · rintro h tab htab hstrict tab' htab' hid
    exact h tab.id tab'.mode ⟨tab, htab, rfl, hstrict⟩ ⟨tab', htab', hid, rfl⟩

theorem KeepsStrict.congr (h : KeepsStrict tabs tabs') {tabs'' : List TabEntry}
    (hfaces : faces tabs'' = faces tabs') : KeepsStrict tabs tabs'' := by
  rw [keepsStrict_iff] at h ⊢
  rwa [hfaces]

theorem nodup_of_faces (hfaces : faces tabs' = faces tabs)
    (hnodup : (tabs.map TabEntry.id).Nodup) : (tabs'.map TabEntry.id).Nodup := by
  rwa [map_id_of_faces hfaces]

/-- The tabs that were there before keep their mode. -/
theorem keepsStrict_of_mem (hnodup : (tabs.map TabEntry.id).Nodup)
    (h : ∀ tab ∈ tabs', tab ∈ tabs ∨ tab.id ∉ tabs.map TabEntry.id) : KeepsStrict tabs tabs' := by
  intro tab htab hstrict tab' htab' hid
  rcases h tab' htab' with hold | hnew
  · obtain rfl := List.inj_on_of_nodup_map hnodup hold htab hid
    exact hstrict
  · rw [hid] at hnew
    exact absurd (List.mem_map_of_mem htab) hnew

/-- Where the tabs and their modes are the same, and what is active and shown, all is kept. -/
theorem StrictShown.oneWay_of_faces (h : StrictShown s)
    (hfaces : faces s'.tabBar.tabs = faces s.tabBar.tabs)
    (hactive : s'.tabBar.activeId = s.tabBar.activeId) (hmode : s'.mode = s.mode) :
    OneWay s s' := by
  have hkeeps : KeepsStrict s.tabBar.tabs s'.tabBar.tabs :=
    (keepsStrict_of_mem h.nodup fun tab htab => .inl htab).congr hfaces
  refine ⟨⟨nodup_of_faces hfaces h.nodup, fun tab htab hid hstrict => ?_⟩, hkeeps⟩
  have hmem : (tab.id, Mode.strict) ∈ faces s.tabBar.tabs :=
    hfaces ▸ mem_faces.mpr ⟨tab, htab, rfl, hstrict⟩
  obtain ⟨tab₀, htab₀, hid₀, hstrict₀⟩ := mem_faces.mp hmem
  rw [hmode]
  exact h.shown tab₀ htab₀ (by rw [hid₀, hid, hactive]) hstrict₀

/-- **Bringing the modes together is safe after every step that keeps the Strict tabs.** -/
theorem oneWay_sync (hnodup : s'.tabBar.ids.Nodup)
    (hkeeps : KeepsStrict s.tabBar.tabs s'.tabBar.tabs) : OneWay s s'.syncActiveTabMode where
  nodup := by
    rw [TabBar.ids, tabs_syncActiveTabMode]
    exact hnodup
  shown := by
    intro tab htab hid hstrict
    rw [tabs_syncActiveTabMode] at htab
    rw [activeId_syncActiveTabMode] at hid
    rw [(mode_syncActiveTabMode hnodup htab hid).1, hstrict]
  keeps := by rwa [tabs_syncActiveTabMode]

theorem oneWay_of_tabs_eq_nil (h : s'.tabBar.tabs = []) : OneWay s s' := by
  refine ⟨⟨?_, ?_⟩, ?_⟩
  · rw [TabBar.ids, h]
    exact List.nodup_nil
  · intro tab htab
    rw [h] at htab
    cases htab
  · rw [h]
    exact fun _ _ _ _ htab' => absurd htab' List.not_mem_nil

/-! ### The active tab takes over a mode -/

/-- A mode that is Strict where the active tab is Strict may be taken over by it. -/
theorem StrictShown.keeps_syncMode (h : StrictShown s) {name : Text}
    (htabs : s'.tabBar.tabs = (s.tabBar.syncMode mode name).tabs)
    (hmode : ∀ tab ∈ s.tabBar.tabs, tab.id = s.tabBar.activeId → tab.mode = .strict →
      mode = .strict) :
    s'.tabBar.ids.Nodup ∧ KeepsStrict s.tabBar.tabs s'.tabBar.tabs := by
  have hids : s'.tabBar.ids = s.tabBar.ids := by
    rw [TabBar.ids, htabs]
    exact s.tabBar.ids_syncMode mode name
  refine ⟨hids ▸ h.nodup, fun tab htab hstrict tab' htab' hid => ?_⟩
  rw [htabs] at htab'
  rcases Keyed.mem_modify htab' with hold | ⟨tab₀, hfind, rfl⟩
  · obtain rfl := List.inj_on_of_nodup_map h.nodup hold htab hid
    exact hstrict
  · obtain ⟨htab₀, hid₀⟩ := Keyed.mem_of_find hfind
    obtain rfl := List.inj_on_of_nodup_map h.nodup htab₀ htab hid
    exact hmode tab₀ htab₀ hid₀ hstrict

theorem StrictShown.oneWay_profileLoaded (h : StrictShown s) (name : Text) :
    OneWay s (s.profileLoaded name) := by
  let loaded : AppState ρ := { s with tabBar := s.tabBar.syncMode s.mode name }
  have hloaded : loaded.tabBar.ids.Nodup ∧ KeepsStrict s.tabBar.tabs loaded.tabBar.tabs :=
    h.keeps_syncMode rfl h.shown
  have hfaces := faces_stamp loaded.tabBar.tabs
  exact oneWay_sync (nodup_of_faces hfaces hloaded.1) (hloaded.2.congr hfaces)

theorem StrictShown.oneWay_becomeStrict (h : StrictShown s) : OneWay s s.becomeStrict := by
  have hstrict : s.becomeStrict.tabBar.ids.Nodup ∧
      KeepsStrict s.tabBar.tabs s.becomeStrict.tabBar.tabs :=
    h.keeps_syncMode rfl fun _ _ _ _ => rfl
  exact ⟨⟨hstrict.1, fun _ _ _ _ => rfl⟩, hstrict.2⟩

theorem StrictShown.oneWay_morphTick (h : StrictShown s) (elapsedMs : ℕ) :
    OneWay s (s.morphTick elapsedMs) := by
  rw [morphTick]
  dsimp only
  split_ifs
  · obtain ⟨⟨hnodup, hshown⟩, hkeeps⟩ := h.oneWay_becomeStrict
    exact ⟨⟨hnodup, hshown⟩, hkeeps⟩
  · exact h.oneWay_of_faces rfl rfl rfl
  · exact h.oneWay_of_faces rfl rfl rfl

/-! ### The tab bar changes -/

variable [Px ρ] {tb' : TabBar ρ} {msg : TabBarMsg ρ}

theorem StrictShown.keeps_effect (h : StrictShown s) (heffect : TabBar.Effect s.tabBar msg tb') :
    tb'.ids.Nodup ∧ KeepsStrict s.tabBar.tabs tb'.tabs := by
  refine ⟨heffect.nodup h.nodup, keepsStrict_of_mem h.nodup fun tab htab => ?_⟩
  rcases heffect.mem_or_eq htab with hold | rfl
  · exact .inl hold
  · exact .inr s.tabBar.nextId_notMem

/-- A message to the tab bar keeps all if the shell shows Strict where it leaves such a tab
active. A tab that is new is not Strict. -/
theorem StrictShown.oneWay_of_shown (h : StrictShown s)
    (heffect : TabBar.Effect s.tabBar msg tb') (hfaces : faces s'.tabBar.tabs = faces tb'.tabs)
    (hshown : ∀ tab ∈ s.tabBar.tabs, tab.id = s'.tabBar.activeId → tab.mode = .strict →
      s'.mode = .strict) : OneWay s s' := by
  obtain ⟨hnodup, hkeeps⟩ := h.keeps_effect heffect
  refine ⟨⟨nodup_of_faces hfaces hnodup, fun tab htab hid hstrict => ?_⟩, hkeeps.congr hfaces⟩
  obtain ⟨tab', htab', hid', hstrict'⟩ := mem_faces.mp
    (hfaces ▸ mem_faces.mpr ⟨tab, htab, rfl, hstrict⟩)
  rcases heffect.mem_or_eq htab' with hold | rfl
  · exact hshown tab' hold (hid'.trans hid) hstrict'
  · cases hstrict'

/-- Where a message to the tab bar leaves the active tab, all is kept without more. -/
theorem StrictShown.oneWay_of_effect (h : StrictShown s)
    (heffect : TabBar.Effect s.tabBar msg tb') (hfaces : faces s'.tabBar.tabs = faces tb'.tabs)
    (hactive : s'.tabBar.activeId = s.tabBar.activeId) (hmode : s'.mode = s.mode) :
    OneWay s s' := by
  refine h.oneWay_of_shown heffect hfaces ?_
  rw [hactive, hmode]
  exact h.shown

/-- A message to the tab bar, after which the modes are brought together. -/
theorem StrictShown.oneWay_sync_of_effect (h : StrictShown s)
    (heffect : TabBar.Effect s.tabBar msg tb') (hfaces : faces s'.tabBar.tabs = faces tb'.tabs) :
    OneWay s s'.syncActiveTabMode := by
  obtain ⟨hnodup, hkeeps⟩ := h.keeps_effect heffect
  exact oneWay_sync (nodup_of_faces hfaces hnodup) (hkeeps.congr hfaces)

theorem StrictShown.oneWay_onTabBar (h : StrictShown s) (msg : TabBarMsg ρ) :
    OneWay s (s.onTabBar msg) := by
  have heffect := TabBar.effect_update s.tabBar msg
  -- where the active tab is another one the modes are brought together
  have hlast : ∀ s', OneWay s s'.syncActiveTabMode →
      (s'.tabBar.activeId = s.tabBar.activeId → OneWay s s') →
      OneWay s (if s'.tabBar.activeId ≠ s.tabBar.activeId then s'.syncActiveTabMode else s') := by
    intro s' hsync hsame
    split_ifs with hactive
    · exact hsync
    · exact hsame (not_not.mp hactive)
  have hchanged : ∀ s', faces s'.tabBar.tabs = faces (s.tabBar.update msg).1.tabs →
      s'.mode = s.mode →
      OneWay s (if s'.tabBar.activeId ≠ s.tabBar.activeId then s'.syncActiveTabMode else s') :=
    fun s' hfaces hmode => hlast s' (h.oneWay_sync_of_effect heffect hfaces)
      fun hactive => h.oneWay_of_effect heffect hfaces hactive hmode
  rw [onTabBar]
  dsimp only
  split
  · split_ifs with hactive
    · exact h.oneWay_sync_of_effect heffect rfl
    · exact h.oneWay_of_effect heffect rfl (not_not.mp hactive) rfl
  · cases hevent : (s.tabBar.update msg).2 with
    | none => exact hchanged _ rfl rfl
    | some event =>
      cases event with
      | tabClosed id =>
        refine hlast _ ?_ fun _ => h.oneWay_sync_of_effect heffect rfl
        exact h.oneWay_sync_of_effect heffect (congrArg faces (tabs_syncActiveTabMode _))
      | allTabsClosed =>
        have hnil := tabs_showHome (s := { s with tabBar := (s.tabBar.update msg).1 })
          (TabBar.tabs_of_allTabsClosed hevent)
        refine hlast _ (oneWay_of_tabs_eq_nil ?_) fun _ => oneWay_of_tabs_eq_nil hnil
        rw [tabs_syncActiveTabMode]
        exact hnil
      | newTabRequested => exact hchanged _ (faces_stampStartPageTitle _) rfl
      | windowDragRequested | tabScreenRequested | stabilizeRequested => exact hchanged _ rfl rfl

/-! ### The other arms -/

/-- A tab that is new and active is not Strict, so nothing is wrong whatever is shown. -/
theorem StrictShown.oneWay_newTab (h : StrictShown s)
    (hfaces : faces s'.tabBar.tabs = faces s.tabBar.newTab.tabs)
    (hactive : s'.tabBar.activeId = s.tabBar.nextId) : OneWay s s' := by
  have heffect : TabBar.Effect s.tabBar .newTabPressed s.tabBar.newTab :=
    TabBar.effect_update s.tabBar .newTabPressed
  refine h.oneWay_of_shown heffect hfaces fun tab htab hid _ => ?_
  have hopen : tab.id ∈ s.tabBar.ids := List.mem_map_of_mem htab
  rw [hid, hactive] at hopen
  exact absurd hopen s.tabBar.nextId_notMem

theorem StrictShown.oneWay_closeRequested (h : StrictShown s) (id : ℕ) :
    OneWay s (s.onSidebarEvent (.tabCloseRequested id)) := by
  have heffect := TabBar.effect_update s.tabBar (.tabCloseRequested id)
  rw [onSidebarEvent]
  dsimp only
  split
  · rename_i hevent
    exact oneWay_of_tabs_eq_nil (tabs_showHome (TabBar.tabs_of_allTabsClosed hevent))
  · exact h.oneWay_sync_of_effect heffect rfl
  · rename_i hall hclosed
    have hask := TabBar.closeRequested_of_not_told hall hclosed
    exact h.oneWay_of_effect heffect rfl (by rw [TabBar.update, hask]) rfl

theorem StrictShown.oneWay_onSidebarEvent (h : StrictShown s) (event : SidebarEvent) :
    OneWay s (s.onSidebarEvent event) := by
  have hself : OneWay s s := h.oneWay_of_faces rfl rfl rfl
  cases event with
  | tabActivated id =>
    exact h.oneWay_sync_of_effect (TabBar.effect_update s.tabBar (.tabActivated id)) rfl
  | newTabRequested => exact h.oneWay_newTab (faces_stampStartPageTitle _) rfl
  | tabsReordered fromId toId =>
    rw [onSidebarEvent]
    split
    · rename_i f t _ _
      let swapped : TabBar ρ := { s.tabBar with tabs := Keyed.swap f t s.tabBar.tabs }
      have heffect : TabBar.Effect s.tabBar .noop swapped :=
        .kept trivial (Keyed.swap_perm f t _) rfl
      exact h.oneWay_of_effect heffect rfl rfl rfl
    · exact hself
  | tabCloseRequested id => exact h.oneWay_closeRequested id
  | _ => exact hself

theorem StrictShown.oneWay_onAddressBar (h : StrictShown s) (msg : AddressBarMsg) :
    OneWay s (s.onAddressBar msg) := by
  rw [onAddressBar]
  dsimp only
  split
  · rename_i event hevent
    cases event with
    | convertToStrictClicked =>
      rw [onAddressBarEvent]
      split_ifs
      · exact ⟨⟨h.oneWay_becomeStrict.nodup, fun _ _ _ _ => rfl⟩, h.oneWay_becomeStrict.keeps⟩
      · exact h.oneWay_of_faces rfl rfl rfl
    | navigationCommitted url mode =>
      rw [onAddressBarEvent]
      dsimp only
      split_ifs with hempty
      · -- there is one tab then, whatever mode it was given
        have hnil : s.tabBar.tabs = [] := List.isEmpty_iff.mp hempty
        refine oneWay_sync ?_ ?_
        · show ((List.modifyLast _ (s.tabBar.tabs ++ [s.tabBar.nextTab])).map TabEntry.id).Nodup
          rw [hnil, List.modifyLast_concat]
          exact List.nodup_singleton _
        · rw [hnil]
          exact fun _ htab => absurd htab List.not_mem_nil
      · exact h.oneWay_of_faces rfl rfl rfl
    | networkViewerRequested => exact h.oneWay_of_faces rfl rfl rfl
  · exact h.oneWay_of_faces rfl rfl rfl

theorem StrictShown.oneWay_onCardView (h : StrictShown s) (msg : CardViewMsg) :
    OneWay s (s.onCardView msg) := by
  rw [onCardView]
  dsimp only
  split
  · rename_i event hevent
    cases event with
    | tabActivated id =>
      exact h.oneWay_sync_of_effect (TabBar.effect_update s.tabBar (.tabActivated id)) rfl
    | tabCloseRequested id =>
      exact h.oneWay_sync_of_effect (TabBar.effect_update s.tabBar (.tabCloseRequested id)) rfl
  · exact h.oneWay_of_faces rfl rfl rfl

theorem StrictShown.oneWay_globalDragMove (h : StrictShown s) (x : ρ) :
    OneWay s (s.globalDragMove x) := by
  rw [globalDragMove]
  split_ifs
  · exact h.oneWay_of_effect (TabBar.effect_update s.tabBar (.stripMoved _)) rfl
      (TabBar.activeId_stripMoved _ _) rfl
  · exact h.oneWay_of_faces rfl rfl rfl

theorem StrictShown.oneWay_globalDragEnd (h : StrictShown s) : OneWay s s.globalDragEnd := by
  rw [globalDragEnd]
  split_ifs <;> exact h.oneWay_of_faces rfl rfl rfl

/-- **No message makes a Strict tab Standard.** -/
theorem StrictShown.oneWay_update (h : StrictShown s) (msg : Message ρ) :
    OneWay s (s.update msg) := by
  have hself : OneWay s s := h.oneWay_of_faces rfl rfl rfl
  cases msg with
  | profileLoaded name => exact h.oneWay_profileLoaded name
  | morphTick elapsedMs => exact h.oneWay_morphTick elapsedMs
  | addressBar msg => exact h.oneWay_onAddressBar msg
  | tabBar msg => exact h.oneWay_onTabBar msg
  | sidebar msg =>
    rw [update, onSidebar]
    dsimp only
    split
    · rename_i event _
      -- the sidebar has no part in what is kept
      have hupdated : StrictShown { s with sidebar := (s.sidebar.update msg).1 } :=
        ⟨h.nodup, h.shown⟩
      obtain ⟨hshown, hkeeps⟩ := hupdated.oneWay_onSidebarEvent event
      exact ⟨hshown, hkeeps⟩
    · exact h.oneWay_of_faces rfl rfl rfl
  | cardView msg => exact h.oneWay_onCardView msg
  | globalDragMove x => exact h.oneWay_globalDragMove x
  | globalDragEnd => exact h.oneWay_globalDragEnd
  | convertToStrict | maximizeWindow | findEscape =>
    simp only [update, findEscape]
    split_ifs <;> exact h.oneWay_of_faces rfl rfl rfl
  | _ => exact h.oneWay_of_faces rfl rfl rfl

/-! ### Every run -/

/-- One message to the shell. -/
def stepAny (s : AppState ρ) (msg : Message ρ) : Option (AppState ρ) := some (s.update msg)

variable {tr tr' : List (Step (AppState ρ) (Message ρ))} {name : Text}

theorem strictShown_new (name : Text) : StrictShown (new name : AppState ρ) where
  nodup := by
    show (TabBar.stubTabs.map TabEntry.id).Nodup
    decide
  shown := by
    show ∀ tab ∈ TabBar.stubTabs, tab.id = 2 → tab.mode = .strict → Mode.standard = .strict
    decide

theorem strictShown_of_run (h : Run (ofFun stepAny) s tr s') (hs : StrictShown s) :
    StrictShown s' := by
  refine h.invariant (I := fun _ => StrictShown) hs ?_
  rintro _ s msg s' _ hshown hstep
  obtain rfl : s.update msg = s' := Option.some.inj hstep
  exact (hshown.oneWay_update msg).toStrictShown

/-- A Strict tab stays Strict along a run through which it stays open. -/
theorem StrictShown.strict_of_run (hs : StrictShown s) (h : Run (ofFun stepAny) s tr s')
    (htab : ∃ tab ∈ s.tabBar.tabs, tab.id = id ∧ tab.mode = .strict)
    (hopen : ∀ x ∈ tr, id ∈ x.post.tabBar.ids) :
    ∃ tab ∈ s'.tabBar.tabs, tab.id = id ∧ tab.mode = .strict := by
  refine h.invariant_where (I := fun _ s => ∃ tab ∈ s.tabBar.tabs, tab.id = id ∧
    tab.mode = .strict) htab ?_ hopen
  rintro _ s₁ msg s₂ hrun ⟨tab₁, htab₁, rfl, hstrict⟩ hstep hstill
  obtain rfl : s₁.update msg = s₂ := Option.some.inj hstep
  obtain ⟨tab₂, htab₂, hid⟩ := List.mem_map.mp hstill
  have honeWay := (strictShown_of_run hrun hs).oneWay_update msg
  exact ⟨tab₂, htab₂, hid, honeWay.keeps tab₁ htab₁ hstrict tab₂ htab₂ hid⟩

/-- **Strict is one-way for a tab**: in every run of the shell, a tab that is Strict is Strict
in every later state up to which it was open all the time. -/
theorem strict_one_way (hrun : Run (ofFun stepAny) (new name : AppState ρ) tr s)
    (hlater : Run (ofFun stepAny) s tr' s') (hopen : ∀ x ∈ tr', id ∈ x.post.tabBar.ids)
    {tab tab' : TabEntry} (htab : tab ∈ s.tabBar.tabs) (hid : tab.id = id)
    (hstrict : tab.mode = .strict) (htab' : tab' ∈ s'.tabBar.tabs) (hid' : tab'.id = id) :
    tab'.mode = .strict := by
  have hs := strictShown_of_run hrun (strictShown_new name)
  obtain ⟨tab₀, htab₀, hid₀, hstrict₀⟩ := hs.strict_of_run hlater ⟨tab, htab, hid, hstrict⟩ hopen
  have hnodup := (strictShown_of_run hlater hs).nodup
  obtain rfl := List.inj_on_of_nodup_map hnodup htab' htab₀ (hid'.trans hid₀.symm)
  exact hstrict₀

/-- A new tab beside the Strict one, the profile loaded again, and back. -/
theorem strict_one_way_reloaded : ∃ (tr tr' : List (Step (AppState Rat) (Message Rat)))
    (s s' : AppState Rat), Run (ofFun stepAny) (new []) tr s ∧ Run (ofFun stepAny) s tr' s' ∧
      tr'.map Step.input = [.tabBar (.tabActivated 4), .sidebar .newTabPressed,
        .profileLoaded [], .tabBar (.tabActivated 0)] ∧
      ∃ tab' ∈ s'.tabBar.tabs, tab'.id = 4 ∧ tab'.mode = .strict := by
  let s : AppState Rat := (new []).update (.profileLoaded [])
  have hrun : Run (ofFun stepAny) (new []) [⟨new [], .profileLoaded [], s⟩] s :=
    Run.nil.snoc rfl
  have hexec : (Transition.exec stepAny s [.tabBar (.tabActivated 4), .sidebar .newTabPressed,
      .profileLoaded [], .tabBar (.tabActivated 0)]).any (fun p =>
        p.1.all (fun x => decide (4 ∈ x.post.tabBar.ids)) && decide (4 ∈ p.2.tabBar.ids)) =
      true := by decide +kernel
  obtain ⟨tr', s', hlater, hinputs, htest⟩ := Transition.exists_run_where hexec
  rw [Bool.and_eq_true, decide_eq_true_eq] at htest
  obtain ⟨tab', htab', hid'⟩ := List.mem_map.mp htest.2
  have hopen : ∀ x ∈ tr', 4 ∈ x.post.tabBar.ids := fun x hx =>
    of_decide_eq_true (List.all_eq_true.mp htest.1 x hx)
  have hbank : TabBar.stubTabs[4] ∈ s.tabBar.tabs := by decide +kernel
  exact ⟨_, tr', s, s', hrun, hlater, hinputs, tab', htab', hid',
    strict_one_way hrun hlater hopen hbank rfl rfl htab' hid'⟩

end AppState

end Ui

end DevBrowse
