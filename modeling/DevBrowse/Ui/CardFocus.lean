import DevBrowse.Lib.Transition
import DevBrowse.Ui.TabRecords

/-!
# The focus of the card view

The card view keeps the place of the card with the focus, and the tabs are kept elsewhere. Opening
the view, choosing how the cards are grouped and the keys put the focus on a card there is. A tab
that is closed takes its card away without a word to the card view, so the focus is lost where
it was on the last card and others are left. It stays on a card exactly if no tab is closed while
the last of several cards has it (`DevBrowse.Ui.AppState.focusOnCard_iff`).
-/

namespace DevBrowse

namespace Ui

open Transition (Step Run ofFun)

namespace CardView

variable {cv : CardView} {tabs : List TabEntry} {n m i : ℕ}

/-- **The cards are the tabs**, in another order at most. -/
theorem orderedIds_perm (cv : CardView) (tabs : List TabEntry) :
    (cv.orderedIds tabs).Perm (tabs.map TabEntry.id) := by
  rw [orderedIds]
  split
  · exact .refl _
  · rw [← List.map_append]
    refine List.Perm.map _ ?_
    have hmode : (fun tab : TabEntry => decide (tab.mode = .strict)) =
        fun tab => !decide (tab.mode = .standard) := by
      funext tab
      cases tab.mode <;> rfl
    rw [hmode]
    exact List.filter_append_perm _ tabs

theorem length_orderedIds (cv : CardView) (tabs : List TabEntry) :
    (cv.orderedIds tabs).length = tabs.length := by
  rw [(orderedIds_perm cv tabs).length_eq, List.length_map]

/-- The focus of an open card view is on one of so many cards, or on the first place. -/
def Focused (cv : CardView) (n : ℕ) : Prop :=
  cv.isOpen = true → ∀ i, cv.focusedIdx = some i → i < n ∨ i = 0

theorem focused_of_closed (h : cv.isOpen = false) : Focused cv n := by
  intro hopen
  rw [h] at hopen
  cases hopen

theorem Focused.mono (h : Focused cv n) (hle : n ≤ m) : Focused cv m := by
  intro hopen i hi
  rcases h hopen i hi with hlt | hzero
  · exact .inl (Nat.lt_of_lt_of_le hlt hle)
  · exact .inr hzero

theorem focused_openView (cv : CardView) (count : ℕ) : Focused (cv.openView count) n := by
  intro _ i hi
  simp only [openView] at hi
  split_ifs at hi
  exact .inr (Option.some.inj hi).symm

/-- The keys move the focus to a card. -/
theorem focused_keyNav (h : Focused cv tabs.length) (key : CardNavKey) :
    Focused (cv.keyNav tabs key).1 tabs.length := by
  have hlen := length_orderedIds cv tabs
  have hcurrent : cv.isOpen = true → cv.focusedIdx.getD 0 < tabs.length ∨
      cv.focusedIdx.getD 0 = 0 := by
    intro hopen
    cases hfocus : cv.focusedIdx with
    | none => exact .inr rfl
    | some i => exact h hopen i hfocus
  cases key with
  | left | up =>
    intro hopen i hi
    have hpast := hcurrent hopen
    obtain rfl := Option.some.inj hi
    omega
  | right | down =>
    intro hopen i hi
    obtain rfl := Option.some.inj hi
    omega
  | enter =>
    rw [keyNav]
    split
    · exact focused_of_closed rfl
    · exact h
  | close => exact h

/-- **A message to the card view keeps the focus on a card.** -/
theorem focused_update (h : Focused cv tabs.length) (msg : CardViewMsg) :
    Focused (cv.update tabs msg).1 tabs.length := by
  cases msg with
  | close | cardActivated => exact focused_of_closed rfl
  | chipSelected chip =>
    intro _ i hi
    simp only [update] at hi
    split_ifs at hi
    exact .inr (Option.some.inj hi).symm
  | cardClosePressed => exact h
  | keyNav key =>
    rw [update]
    split_ifs
    · exact h
    · exact focused_keyNav h key

/-- A message that asks for a tab to be closed leaves the card view. -/
theorem update_of_closeTarget {msg : CardViewMsg} {id : ℕ}
    (h : cv.closeTarget tabs msg = some id) : (cv.update tabs msg).1 = cv := by
  cases msg with
  | cardClosePressed => rfl
  | keyNav key =>
    cases key with
    | close =>
      rw [update]
      split_ifs <;> rfl
    | _ => cases h
  | _ => cases h

end CardView

namespace AppState

variable {ρ : Type*} {s s' : AppState ρ} {msg : Message ρ} {id n : ℕ}

/-! ### What a message does to the card view -/

@[simp] theorem cardView_syncActiveTabMode (s : AppState ρ) :
    s.syncActiveTabMode.cardView = s.cardView := by
  rw [syncActiveTabMode]
  split <;> rfl

variable [Px ρ]

/-- The tab bar opens the card view, where its button is pressed. -/
theorem cardView_onTabBar (s : AppState ρ) (msg : TabBarMsg ρ) :
    (s.onTabBar msg).cardView = s.cardView ∨
      msg = .tabsGridPressed ∧ ∃ count, (s.onTabBar msg).cardView = s.cardView.openView count := by
  have hlast : ∀ s' : AppState ρ, (if s'.tabBar.activeId ≠ s.tabBar.activeId then
      s'.syncActiveTabMode else s').cardView = s'.cardView := by
    intro s'
    split_ifs
    · exact cardView_syncActiveTabMode s'
    · rfl
  rw [onTabBar]
  dsimp only
  split
  · split_ifs
    · exact .inl (cardView_syncActiveTabMode _)
    · exact .inl rfl
  · rw [hlast]
    split
    · rename_i event hevent
      cases event with
      | tabClosed => exact .inl (cardView_syncActiveTabMode _)
      | tabScreenRequested => exact .inr ⟨(TabBar.msg_of_event hevent).2 rfl, _, rfl⟩
      | allTabsClosed | newTabRequested | windowDragRequested | stabilizeRequested =>
        exact .inl rfl
    · exact .inl rfl

theorem cardView_onSidebar (s : AppState ρ) (msg : SidebarMsg) :
    (s.onSidebar msg).cardView = s.cardView := by
  rw [onSidebar]
  dsimp only
  split
  · rename_i event _
    cases event with
    | tabActivated => exact cardView_syncActiveTabMode _
    | tabsReordered =>
      rw [onSidebarEvent]
      split <;> rfl
    | tabCloseRequested =>
      rw [onSidebarEvent]
      dsimp only
      split
      · rfl
      · exact cardView_syncActiveTabMode _
      · rfl
    | _ => rfl
  · rfl

theorem cardView_onCardView (s : AppState ρ) (msg : CardViewMsg) :
    (s.onCardView msg).cardView = (s.cardView.update s.tabBar.tabs msg).1 := by
  rw [onCardView]
  dsimp only
  split
  · rename_i event _
    cases event with
    | tabActivated | tabCloseRequested => exact cardView_syncActiveTabMode _
  · rfl

theorem cardView_onAddressBar (s : AppState ρ) (msg : AddressBarMsg) :
    (s.onAddressBar msg).cardView = s.cardView := by
  rw [onAddressBar]
  dsimp only
  split
  · rename_i event _
    cases event with
    | convertToStrictClicked =>
      rw [onAddressBarEvent]
      split_ifs <;> rfl
    | navigationCommitted =>
      rw [onAddressBarEvent]
      dsimp only
      split_ifs
      · exact cardView_syncActiveTabMode _
      · rfl
    | networkViewerRequested => rfl
  · rfl

/-- **What a message does to the card view**: only messages to it change it, but for the button
that opens it and the key that closes it. -/
theorem cardView_update (s : AppState ρ) (msg : Message ρ) :
    (s.update msg).cardView = s.cardView ∨
      (∃ m, msg = .cardView m ∧
        (s.update msg).cardView = (s.cardView.update s.tabBar.tabs m).1) ∨
      (msg = .tabBar .tabsGridPressed ∧
        ∃ count, (s.update msg).cardView = s.cardView.openView count) ∨
      msg = .findEscape ∧ (s.update msg).cardView.isOpen = false := by
  cases msg with
  | profileLoaded => exact .inl (cardView_syncActiveTabMode _)
  | morphTick =>
    rw [update, morphTick]
    dsimp only
    split_ifs <;> exact .inl rfl
  | addressBar msg => exact .inl (cardView_onAddressBar s msg)
  | tabBar msg =>
    rcases cardView_onTabBar s msg with hsame | ⟨rfl, hopened⟩
    · exact .inl hsame
    · exact .inr (.inr (.inl ⟨rfl, hopened⟩))
  | sidebar msg => exact .inl (cardView_onSidebar s msg)
  | cardView msg => exact .inr (.inl ⟨msg, rfl, cardView_onCardView s msg⟩)
  | findEscape =>
    rw [show s.update .findEscape = s.findEscape from rfl, findEscape]
    split_ifs
    · exact .inl rfl
    · exact .inl rfl
    · exact .inr (.inr (.inr ⟨rfl, rfl⟩))
    · exact .inl rfl
  | globalDragMove =>
    rw [update, globalDragMove]
    split_ifs <;> exact .inl rfl
  | convertToStrict | maximizeWindow =>
    simp only [update]
    split_ifs <;> exact .inl rfl
  | _ => exact .inl rfl

/-- The message keeps the focus on a card, as long as the tabs stay. -/
theorem focused_cardView_update (h : s.cardView.Focused s.tabBar.tabs.length)
    (msg : Message ρ) : (s.update msg).cardView.Focused s.tabBar.tabs.length := by
  rcases cardView_update s msg with hsame | ⟨m, -, hown⟩ | ⟨-, count, hopened⟩ | ⟨-, hclosed⟩
  · rw [hsame]
    exact h
  · rw [hown]
    exact CardView.focused_update h m
  · rw [hopened]
    exact CardView.focused_openView _ _
  · exact CardView.focused_of_closed hclosed

/-! ### What closing a tab does -/

/-- A message that closes a tab leaves the card view. -/
theorem cardView_of_closes (h : s.Closes msg id) : (s.update msg).cardView = s.cardView := by
  rcases cardView_update s msg with hsame | ⟨m, rfl, hown⟩ | ⟨rfl, -⟩ | ⟨rfl, -⟩
  · exact hsame
  · rw [hown]
    exact CardView.update_of_closeTarget h.1
  · exact h.elim
  · exact h.elim

/-! ### Every run -/

/-- **The focus is on a card**: where the card view is open and there are tabs, the card with the
focus is that of an open tab, which the keys to activate and to close it act on. -/
def FocusOnCard (s : AppState ρ) : Prop :=
  s.cardView.isOpen = true → s.tabBar.tabs ≠ [] → ∀ i, s.cardView.focusedIdx = some i →
    ∃ id ∈ s.tabBar.ids, (s.cardView.orderedIds s.tabBar.tabs)[i]? = some id ∧
      (s.cardView.update s.tabBar.tabs (.keyNav .enter)).2 = some (.tabActivated id) ∧
      (s.cardView.update s.tabBar.tabs (.keyNav .close)).2 = some (.tabCloseRequested id)

/-- No tab is closed while the card view is open and the last of several cards has the focus. -/
def LastCardStays (x : Step (AppState ρ) (Message ρ)) : Prop :=
  x.pre.cardView.isOpen = true → 1 < x.pre.tabBar.tabs.length →
    x.pre.cardView.focusedIdx = some (x.pre.tabBar.tabs.length - 1) →
    ∀ id ∈ x.pre.tabBar.ids, ¬ x.pre.Closes x.input id

/-- What holds along a run in which the focus is on a card. -/
structure CardKept (s : AppState ρ) : Prop where
  /-- No two tabs share an identifier. -/
  shown : StrictShown s
  /-- The focus is on a card, or the first place. -/
  focused : s.cardView.Focused s.tabBar.tabs.length

omit [Px ρ] in
theorem CardKept.focusOnCard (h : CardKept s) : FocusOnCard s := by
  intro hopen htabs i hi
  have hlen := CardView.length_orderedIds s.cardView s.tabBar.tabs
  have hpos : 0 < s.tabBar.tabs.length := List.length_pos_of_ne_nil htabs
  have hlt : i < (s.cardView.orderedIds s.tabBar.tabs).length := by
    rcases h.focused hopen i hi with hlt | rfl <;> omega
  have hid := List.getElem?_eq_getElem hlt
  have hfocus : s.cardView.focusedId s.tabBar.tabs =
      some (s.cardView.orderedIds s.tabBar.tabs)[i] := by
    rw [CardView.focusedId, hi]
    exact hid
  have hcards : ¬ (s.cardView.orderedIds s.tabBar.tabs).isEmpty = true := by
    rw [List.isEmpty_iff]
    exact List.ne_nil_of_length_pos (by omega)
  refine ⟨_, CardView.mem_orderedIds.mp (List.getElem_mem hlt), hid, ?_, ?_⟩
  · rw [CardView.update, if_neg hcards, CardView.keyNav, hfocus]
  · rw [CardView.update, if_neg hcards, CardView.keyNav, hfocus]
    rfl

omit [Px ρ] in
theorem length_of_records {tabs tabs' : List TabEntry} (h : records tabs' = records tabs) :
    tabs'.length = tabs.length := by
  simpa [records] using congrArg List.length h

/-- **Closing a tab takes the focus off the last card.** -/
theorem CardKept.lastCardStays (h : CardKept s) (hfocus : FocusOnCard (s.update msg)) :
    LastCardStays ⟨s, msg, s.update msg⟩ := by
  intro hopen hlen hlast id hid hcloses
  dsimp only at hopen hlen hlast hid hcloses
  have hview := cardView_of_closes hcloses
  have hshort : (s.update msg).tabBar.tabs.length + 1 = s.tabBar.tabs.length := by
    rw [length_of_records (records_of_closes hcloses)]
    exact Keyed.length_remove h.shown.nodup hid
  obtain ⟨id', -, hcard, -⟩ := hfocus (hview ▸ hopen)
    (List.ne_nil_of_length_pos (by omega)) _ (hview ▸ hlast)
  have hbound := (List.getElem?_eq_some_iff.mp hcard).1
  rw [CardView.length_orderedIds] at hbound
  omega

/-- **Otherwise the focus stays on a card.** -/
theorem CardKept.update (h : CardKept s) (hstays : LastCardStays ⟨s, msg, s.update msg⟩) :
    CardKept (s.update msg) := by
  refine ⟨(h.shown.oneWay_update msg).toStrictShown, ?_⟩
  have hfocused := focused_cardView_update h.focused msg
  have hrecorded := recorded_update s msg
  generalize hrs : records (s.update msg).tabBar.tabs = rs at hrecorded
  have hlen : (s.update msg).tabBar.tabs.length = rs.length := by
    rw [← hrs, records, List.length_map]
  rw [hlen]
  have hself : (records s.tabBar.tabs).length = s.tabBar.tabs.length := List.length_map _
  cases hrecorded with
  | kept hperm => exact hfocused.mono (by rw [hperm.length_eq, hself])
  | opened => exact hfocused.mono (by rw [List.length_append, hself]; omega)
  | committed hnil => exact hfocused.mono (by rw [hnil]; exact Nat.zero_le _)
  | @closed _ id hcloses =>
    rw [records, List.length_map]
    by_cases hid : id ∈ s.tabBar.ids
    · -- the card view is left, and one card fewer is there
      have hshort := Keyed.length_remove h.shown.nodup hid
      rw [cardView_of_closes hcloses]
      intro hopen i hi
      rcases h.focused hopen i hi with hlt | hzero
      · by_cases hlast : i + 1 = s.tabBar.tabs.length
        · refine .inr ?_
          by_contra hpos
          exact hstays hopen (show 1 < s.tabBar.tabs.length by omega)
            (hi.trans (congrArg some (show i = s.tabBar.tabs.length - 1 by omega))) id hid hcloses
        · exact .inl (by omega)
      · exact .inr hzero
    · rw [Keyed.remove_of_notMem hid]
      exact hfocused

/-- **The focus stays on a card exactly if no tab is closed while the card view is open and the
last of several cards has it.** The cards are always the tabs that are open. -/
theorem focusOnCard_iff {name : Text} {tr : List (Step (AppState ρ) (Message ρ))}
    (h : Run (ofFun stepAny) (new name : AppState ρ) tr s) :
    (∀ x ∈ tr, FocusOnCard x.post ∧
        (x.post.cardView.orderedIds x.post.tabBar.tabs).Perm x.post.tabBar.ids) ↔
      ∀ x ∈ tr, LastCardStays x := by
  have init : CardKept (new name : AppState ρ) :=
    ⟨strictShown_new name, CardView.focused_of_closed rfl⟩
  refine h.forall_iff (I := CardKept) init ?_ ?_
  · rintro s msg s' hkept hstep ⟨hfocus, -⟩
    obtain rfl : s.update msg = s' := Option.some.inj hstep
    exact hkept.lastCardStays hfocus
  · rintro s msg s' hkept hstep hstays
    obtain rfl : s.update msg = s' := Option.some.inj hstep
    have hkept' := hkept.update hstays
    exact ⟨⟨hkept'.focusOnCard, CardView.orderedIds_perm _ _⟩, hkept'⟩

/-- The keys move the focus from card to card, tabs are closed by a card and by a key and opened
from the tab strip, and the key that activates finds the card with the focus. -/
theorem focusOnCard_iff_session : ∃ (tr : List (Step (AppState Rat) (Message Rat)))
    (s : AppState Rat), Run (ofFun stepAny) (new []) tr s ∧
      tr.map Step.input = [.tabBar .tabsGridPressed, .cardView (.keyNav .down),
        .cardView (.keyNav .left), .cardView (.cardClosePressed 0), .cardView (.keyNav .left),
        .cardView (.keyNav .close), .cardView (.chipSelected .byMode), .tabBar .newTabPressed,
        .cardView (.keyNav .right), .cardView (.keyNav .enter)] ∧
      s.tabBar.ids = [1, 3, 4, 5] ∧ s.tabBar.activeId = 3 ∧ s.cardView.isOpen = false ∧
      ∀ x ∈ tr, FocusOnCard x.post ∧
        (x.post.cardView.orderedIds x.post.tabBar.tabs).Perm x.post.tabBar.ids := by
  -- the last card never has the focus
  have hexec : (Transition.exec stepAny (new [] : AppState Rat) [.tabBar .tabsGridPressed,
      .cardView (.keyNav .down), .cardView (.keyNav .left), .cardView (.cardClosePressed 0),
      .cardView (.keyNav .left), .cardView (.keyNav .close), .cardView (.chipSelected .byMode),
      .tabBar .newTabPressed, .cardView (.keyNav .right), .cardView (.keyNav .enter)]).any
      (fun p => decide (p.2.tabBar.ids = [1, 3, 4, 5] ∧ p.2.tabBar.activeId = 3 ∧
        p.2.cardView.isOpen = false ∧ ∀ x ∈ p.1,
          x.pre.cardView.focusedIdx ≠ some (x.pre.tabBar.tabs.length - 1))) = true := by
    decide +kernel
  obtain ⟨tr, s, hrun, hinputs, htest⟩ := Transition.exists_run_where hexec
  obtain ⟨hids, hactive, hclosed, hnever⟩ := of_decide_eq_true htest
  refine ⟨tr, s, hrun, hinputs, hids, hactive, hclosed, (focusOnCard_iff hrun).mpr ?_⟩
  intro x hx _ _ hlast
  exact absurd hlast (hnever x hx)

/-- **The first of the tabs is closed while the last card has the focus**, and the keys do nothing
any more. -/
theorem focus_lost : ∃ (tr : List (Step (AppState Rat) (Message Rat))) (s : AppState Rat),
    Run (ofFun stepAny) (new []) tr s ∧
      tr.map Step.input = [.tabBar .tabsGridPressed, .cardView (.keyNav .down),
        .cardView (.keyNav .down), .cardView (.cardClosePressed 0)] ∧
      s.cardView.isOpen = true ∧ s.cardView.focusedIdx = some 4 ∧
      s.tabBar.tabs.length = 4 ∧
      (s.cardView.update s.tabBar.tabs (.keyNav .enter)).2 = none ∧
      (s.cardView.update s.tabBar.tabs (.keyNav .close)).2 = none ∧
      ¬ ∀ x ∈ tr, FocusOnCard x.post ∧
        (x.post.cardView.orderedIds x.post.tabBar.tabs).Perm x.post.tabBar.ids := by
  let s₁ : AppState Rat := (new []).update (.tabBar .tabsGridPressed)
  let s₂ := s₁.update (.cardView (.keyNav .down))
  let s₃ := s₂.update (.cardView (.keyNav .down))
  let s₄ := s₃.update (.cardView (.cardClosePressed 0))
  have hrun : Run (ofFun stepAny) (new []) [⟨new [], .tabBar .tabsGridPressed, s₁⟩,
      ⟨s₁, .cardView (.keyNav .down), s₂⟩, ⟨s₂, .cardView (.keyNav .down), s₃⟩,
      ⟨s₃, .cardView (.cardClosePressed 0), s₄⟩] s₄ :=
    (((Run.nil.snoc rfl).snoc rfl).snoc rfl).snoc rfl
  have hopen : s₄.cardView.isOpen = true := by decide +kernel
  have hfocus : s₄.cardView.focusedIdx = some 4 := by decide +kernel
  have hlen : s₄.tabBar.tabs.length = 4 := by decide +kernel
  refine ⟨_, s₄, hrun, rfl, hopen, hfocus, hlen, by decide +kernel, by decide +kernel,
    fun h => ?_⟩
  obtain ⟨hlast, -⟩ := h ⟨s₃, .cardView (.cardClosePressed 0), s₄⟩ (by simp)
  obtain ⟨id, -, hcard, -⟩ :=
    hlast hopen (List.ne_nil_of_length_pos (hlen ▸ by decide)) 4 hfocus
  have hbound := (List.getElem?_eq_some_iff.mp hcard).1
  rw [CardView.length_orderedIds] at hbound
  exact absurd hbound (by rw [hlen]; decide)

end AppState

end Ui

end DevBrowse
