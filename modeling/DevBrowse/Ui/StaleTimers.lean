import DevBrowse.Lib.Timers
import DevBrowse.Ui.TabRecords

/-!
# Stale timers

Three timers run in the shell: the button that converts to Strict is shown for 30 s after an
address has come from outside, what it opens stays for 150 ms after the cursor has left it, and a
tooltip stays for 200 ms after the cursor has left its pill. None of them is cancelled, and their
messages do not say which one they are from, as those of the tab bar do. So the message of a timer
that is stale is harmless exactly if it finds nothing to end
(`DevBrowse.Ui.AppState.stale_timers_ignored_iff`).
-/

namespace DevBrowse

namespace Ui

/-! ### What sets the flags -/

namespace AddressBar

variable {ab ab' : AddressBar} {msg : AddressBarMsg}

/-- The button is shown for an address from outside only where one comes. -/
theorem externalUrl_update (h : (ab.update msg).1.chipState = .externalUrl) :
    ab.chipState = .externalUrl ∨ ∃ url, msg = .navigatedExternally url := by
  cases msg with
  | navigatedExternally url => exact .inr ⟨url, rfl⟩
  | dismissConvertChip => cases h
  | navigatePressed =>
    rw [update] at h
    split_ifs at h
    exact .inl h
  | autoDismissConvertChip =>
    rw [update] at h
    split_ifs at h
    exact .inl h
  | focusLost | escPressed =>
    rw [update, unfocus] at h
    split_ifs at h <;> exact .inl h
  | scrolledDown | scrolledUp =>
    rw [update] at h
    split_ifs at h <;> exact .inl h
  | _ => exact .inl h

/-- What the button opens gets its time only where the cursor leaves the button. -/
theorem grace_update (h : (ab.update msg).1.strictPopupGrace = true) :
    ab.strictPopupGrace = true ∨ msg = .convertChipExited := by
  cases msg with
  | convertChipExited => exact .inr rfl
  | convertPopupEntered | strictPopupGracePeriodEnd | modeChanged => cases h
  | focusLost | escPressed =>
    rw [update, unfocus] at h
    split_ifs at h <;> exact .inl h
  | scrolledDown | scrolledUp | navigatePressed | autoDismissConvertChip =>
    rw [update] at h
    split_ifs at h <;> exact .inl h
  | _ => exact .inl h

theorem Touched.externalUrl (h : ab.Touched ab') (hchip : ab'.chipState = .externalUrl) :
    ab.chipState = .externalUrl := by
  induction h with
  | refl => exact hchip
  | syncMode _ _ ih | forgetTab _ _ ih | reducedMotion _ _ ih => exact ih hchip
  | resetForTab tabId tabUrl mode _ _ =>
    by_cases hurl : tabUrl = []
    · rw [hurl, chipState_resetForTab_nil] at hchip
      split_ifs at hchip
    · rw [chipState_resetForTab _ _ _ hurl] at hchip
      cases hchip

theorem Touched.grace (h : ab.Touched ab') (hgrace : ab'.strictPopupGrace = true) :
    ab.strictPopupGrace = true := by
  induction h with
  | refl => exact hgrace
  | syncMode => cases hgrace
  | forgetTab _ _ ih | reducedMotion _ _ ih => exact ih hgrace
  | resetForTab =>
    rw [AddressBar.resetForTab] at hgrace
    dsimp only at hgrace
    split_ifs at hgrace
    all_goals cases hgrace

end AddressBar

namespace Sidebar

variable {sb : Sidebar} {msg : SidebarMsg}

/-- A tooltip is shown, and about to be hidden. -/
def Hiding (sb : Sidebar) : Prop := sb.tooltipHidePending = true ∧ sb.tooltipPillId ≠ none

theorem not_hiding_commitHide (sb : Sidebar) : ¬ sb.commitHide.Hiding := by
  rw [commitHide]
  split_ifs with hpending
  · exact fun h => h.2 rfl
  · exact fun h => hpending h.1

/-- A tooltip that is shown stays exactly if it is not about to be hidden. -/
theorem tooltipPillId_commitHide_iff {id : ℕ} (hid : sb.tooltipPillId = some id) :
    sb.commitHide.tooltipPillId = some id ↔ ¬ sb.Hiding := by
  rw [commitHide]
  split_ifs with hpending
  · exact iff_of_false nofun (not_not.mpr ⟨hpending, by simp [hid]⟩)
  · exact iff_of_true hid fun h => hpending h.1

/-- A tooltip is about to be hidden only where the cursor leaves a pill. -/
theorem hiding_update (h : (sb.update msg).1.Hiding) :
    sb.Hiding ∨ (sb.update msg).2 = some .tooltipPillLeft := by
  cases msg with
  | pillLeft id => exact .inr rfl
  | pillEntered id =>
    obtain ⟨hpending, -⟩ := h
    rw [update] at hpending
    dsimp only at hpending
    split at hpending
    · split at hpending
      all_goals cases hpending
    · cases hpending
  | sidebarMoved =>
    rw [update] at h
    split_ifs at h <;> exact .inl h
  | _ => exact .inl h

end Sidebar

namespace AppState

open Transition Timers Timers.System

variable {ρ : Type*} [Px ρ] {s : AppState ρ}

/-! ### What a message does to the sidebar -/

omit [Px ρ] in
@[simp] theorem sidebar_syncActiveTabMode (s : AppState ρ) :
    s.syncActiveTabMode.sidebar = s.sidebar := by
  rw [syncActiveTabMode]
  split <;> rfl

theorem sidebar_onAddressBar (s : AppState ρ) (msg : AddressBarMsg) :
    (s.onAddressBar msg).sidebar = s.sidebar := by
  rw [onAddressBar]
  dsimp only
  split
  · rename_i event _
    cases event with
    | convertToStrictClicked =>
      rw [onAddressBarEvent]
      split_ifs <;> rfl
    | navigationCommitted url mode =>
      rw [onAddressBarEvent]
      split_ifs
      · exact sidebar_syncActiveTabMode _
      · rfl
    | networkViewerRequested => rfl
  · rfl

theorem sidebar_onTabBar (s : AppState ρ) (msg : TabBarMsg ρ) :
    (s.onTabBar msg).sidebar = s.sidebar := by
  have hlast : ∀ s' : AppState ρ, s'.sidebar = s.sidebar →
      (if s'.tabBar.activeId ≠ s.tabBar.activeId then s'.syncActiveTabMode else s').sidebar =
        s.sidebar := by
    intro s' h'
    split_ifs
    · rw [sidebar_syncActiveTabMode, h']
    · exact h'
  rw [onTabBar]
  dsimp only
  split
  · split_ifs
    · exact sidebar_syncActiveTabMode _
    · rfl
  · cases hevent : (s.tabBar.update msg).2 with
    | none => exact hlast _ rfl
    | some event =>
      cases event with
      | tabClosed id => exact hlast _ (sidebar_syncActiveTabMode _)
      | _ => exact hlast _ rfl

theorem sidebar_onSidebar (s : AppState ρ) (msg : SidebarMsg) :
    (s.onSidebar msg).sidebar = (s.sidebar.update msg).1 := by
  rw [onSidebar]
  dsimp only
  split
  · rename_i event _
    cases event with
    | tabActivated id => exact sidebar_syncActiveTabMode _
    | tabsReordered fromId toId =>
      rw [onSidebarEvent]
      split <;> rfl
    | tabCloseRequested id =>
      rw [onSidebarEvent]
      dsimp only
      split
      · rfl
      · exact sidebar_syncActiveTabMode _
      · rfl
    | _ => rfl
  · rfl

theorem sidebar_onCardView (s : AppState ρ) (msg : CardViewMsg) :
    (s.onCardView msg).sidebar = s.sidebar := by
  rw [onCardView]
  dsimp only
  split
  · rename_i event _
    cases event <;> exact sidebar_syncActiveTabMode _
  · rfl

/-- **A message that is not for the sidebar sets no tooltip to be hidden.** -/
theorem hiding_update {msg : Message ρ} (h : (s.update msg).sidebar.Hiding) :
    s.sidebar.Hiding ∨ ∃ sbMsg, msg = .sidebar sbMsg ∧
      (s.sidebar.update sbMsg).2 = some .tooltipPillLeft := by
  cases msg with
  | sidebar sbMsg =>
    rw [update, sidebar_onSidebar] at h
    exact (Sidebar.hiding_update h).imp id fun hleft => ⟨sbMsg, rfl, hleft⟩
  | hideTooltip => exact absurd h (Sidebar.not_hiding_commitHide s.sidebar)
  | addressBar msg =>
    rw [update, sidebar_onAddressBar] at h
    exact .inl h
  | tabBar msg =>
    rw [update, sidebar_onTabBar] at h
    exact .inl h
  | cardView msg =>
    rw [update, sidebar_onCardView] at h
    exact .inl h
  | profileLoaded name =>
    rw [update, profileLoaded, sidebar_syncActiveTabMode] at h
    exact .inl h
  | morphTick elapsedMs =>
    rw [update, morphTick] at h
    dsimp only at h
    split_ifs at h <;> exact .inl h
  | globalDragMove x =>
    rw [update, globalDragMove] at h
    split_ifs at h <;> exact .inl h
  | globalDragEnd =>
    rw [update, globalDragEnd] at h
    dsimp only at h
    split_ifs at h <;> exact .inl h
  | convertToStrict | maximizeWindow | findEscape =>
    simp only [update, findEscape] at h
    split_ifs at h <;> exact .inl h
  | _ => exact .inl h

/-! ### The timers -/

/-- The timers of the shell that are not cancelled. -/
inductive TimerKind where
  /-- 30 s after an address has come from outside. -/
  | autoDismissConvertChip
  /-- 150 ms after the cursor has left the button. -/
  | strictPopupGracePeriodEnd
  /-- 200 ms after the cursor has left a pill. -/
  | hideTooltip
  deriving DecidableEq

/-- The timer that is started with a message. -/
def timerOf (s : AppState ρ) : Message ρ → Option TimerKind
  | .addressBar (.navigatedExternally _) => some .autoDismissConvertChip
  | .addressBar .convertChipExited => some .strictPopupGracePeriodEnd
  | .sidebar msg =>
    if (s.sidebar.update msg).2 = some .tooltipPillLeft then some .hideTooltip else none
  | _ => none

/-- The message of a timer. -/
def dueMessage : TimerKind → Message ρ
  | .autoDismissConvertChip => .addressBar .autoDismissConvertChip
  | .strictPopupGracePeriodEnd => .addressBar .strictPopupGracePeriodEnd
  | .hideTooltip => .hideTooltip

/-- **The shell with its timers.** -/
def timers : Timers.System (AppState ρ) (Message ρ) TimerKind where
  update := update
  starts := timerOf
  due := dueMessage
  starts_due := by
    intro k s
    cases k <;> rfl

/-- What a timer of a kind would end. -/
def Ends : TimerKind → AppState ρ → Prop
  | .autoDismissConvertChip, s => s.addressBar.chipState = .externalUrl
  | .strictPopupGracePeriodEnd, s => s.addressBar.strictPopupGrace = true
  | .hideTooltip, s => s.sidebar.Hiding

theorem ends_addressBar (s : AppState ρ) (msg : Message ρ) :
    ((s.update msg).addressBar.chipState = .externalUrl →
      s.addressBar.chipState = .externalUrl ∨ s.timerOf msg = some .autoDismissConvertChip) ∧
    ((s.update msg).addressBar.strictPopupGrace = true →
      s.addressBar.strictPopupGrace = true ∨
        s.timerOf msg = some .strictPopupGracePeriodEnd) := by
  rcases touched_update s msg with htouched | ⟨abMsg, rfl, htouched⟩
  · exact ⟨fun h => .inl (htouched.externalUrl h), fun h => .inl (htouched.grace h)⟩
  · constructor
    · intro h
      refine (AddressBar.externalUrl_update (htouched.externalUrl h)).imp id ?_
      rintro ⟨url, rfl⟩
      rfl
    · intro h
      refine (AddressBar.grace_update (htouched.grace h)).imp id ?_
      rintro rfl
      rfl

/-- **What a timer would end begins where one is started**, and is over after its message. -/
theorem guards_timers :
    Guards (timers : Timers.System (AppState ρ) (Message ρ) TimerKind) Ends where
  clears := by
    intro k s h
    cases k with
    | autoDismissConvertChip =>
      have hchip : ((s.addressBar.update .autoDismissConvertChip).1).chipState = .externalUrl := h
      rw [AddressBar.update] at hchip
      split_ifs at hchip with hshown
      exact hshown hchip
    | strictPopupGracePeriodEnd => cases h
    | hideTooltip => exact Sidebar.not_hiding_commitHide s.sidebar h
  sets := by
    intro k s msg h
    cases k with
    | autoDismissConvertChip => exact (ends_addressBar s msg).1 h
    | strictPopupGracePeriodEnd => exact (ends_addressBar s msg).2 h
    | hideTooltip =>
      refine (hiding_update h).imp id ?_
      rintro ⟨sbMsg, rfl, hleft⟩
      exact if_pos hleft

/-! ### Stale timers -/

/-- A step of the shell with its timers. -/
abbrev TimedStep (ρ : Type*) := Step (Timed (AppState ρ) TimerKind) (Event (Message ρ) TimerKind)

variable {name : Text}

/-- The chip that was shown by a later address from outside stays. -/
def ChipKept (before : List (TimedStep ρ)) (x : TimedStep ρ) : Prop :=
  ∀ timer, x.input = .due timer → timer.kind = .autoDismissConvertChip →
    timers.Stale before timer → x.pre.state.addressBar.chipState = .externalUrl →
    x.post.state.addressBar.chipState = .externalUrl

/-- The time that began when the cursor left the button later goes on. -/
def GraceKept (before : List (TimedStep ρ)) (x : TimedStep ρ) : Prop :=
  ∀ timer, x.input = .due timer → timer.kind = .strictPopupGracePeriodEnd →
    timers.Stale before timer → x.pre.state.addressBar.strictPopupGrace = true →
    x.post.state.addressBar.strictPopupGrace = true

/-- A tooltip stays while the timer of a cursor that left a pill later runs. -/
def TooltipKept (x : TimedStep ρ) : Prop :=
  ∀ timer, x.input = .due timer → timer.kind = .hideTooltip →
    (∃ later ∈ x.pre.running, later.kind = .hideTooltip ∧ timer.number < later.number) →
    ∀ id, x.pre.state.sidebar.tooltipPillId = some id →
      x.post.state.sidebar.tooltipPillId = some id

/-- The message of a stale timer finds nothing to end. -/
def NothingToEnd (before : List (TimedStep ρ)) (x : TimedStep ρ) : Prop :=
  ∀ timer, x.input = .due timer → timers.Stale before timer → ¬ Ends timer.kind x.pre.state

theorem not_ends_new : ∀ k, ¬ Ends k (AppState.new name : AppState ρ)
  | .autoDismissConvertChip => fun h => by cases h
  | .strictPopupGracePeriodEnd => fun h => by cases h
  | .hideTooltip => fun h => by cases h.1

/-- The message of one timer ends nothing that began later exactly if it finds nothing to end,
where it is stale. -/
theorem kept_iff {before : List (TimedStep ρ)} {x : TimedStep ρ}
    (hrun : Run timers.Steps (start (.new name)) before x.pre)
    (hstep : timers.Steps x.pre x.input x.post) :
    ChipKept before x ∧ GraceKept before x ∧ TooltipKept x ↔ NothingToEnd before x := by
  constructor
  · rintro ⟨hchip, hgrace, htooltip⟩ timer hinput hstale hends
    rw [hinput] at hstep
    have hover := guards_timers.clears timer.kind x.pre.state
    rw [← state_of_due hstep] at hover
    cases hkind : timer.kind with
    | autoDismissConvertChip =>
      rw [hkind] at hover hends
      exact hover (hchip timer hinput hkind hstale hends)
    | strictPopupGracePeriodEnd =>
      rw [hkind] at hover hends
      exact hover (hgrace timer hinput hkind hstale hends)
    | hideTooltip =>
      -- as the tooltip is about to be hidden, a later timer runs
      obtain ⟨later, hlater, hsame, hlt⟩ :=
        guards_timers.exists_later not_ends_new hrun hends hstale
      rw [hkind] at hends hsame
      obtain ⟨id, hid⟩ := Option.ne_none_iff_exists'.mp hends.2
      have hstill := htooltip timer hinput hkind ⟨later, hlater, hsame, hlt⟩ id hid
      rw [state_of_due hstep, hkind] at hstill
      exact (Sidebar.tooltipPillId_commitHide_iff hid).mp hstill hends
  · intro hnothing
    refine ⟨?_, ?_, ?_⟩
    · intro timer hinput hkind hstale hshown
      refine absurd ?_ (hnothing timer hinput hstale)
      rw [hkind]
      exact hshown
    · intro timer hinput hkind hstale hgrace
      refine absurd ?_ (hnothing timer hinput hstale)
      rw [hkind]
      exact hgrace
    · rintro timer hinput hkind ⟨later, hlater, hsame, hlt⟩ id hid
      have hstale := stale_of_later hrun hlater (hsame.trans hkind.symm) hlt
      have hnot := hnothing timer hinput hstale
      rw [hkind] at hnot
      rw [hinput] at hstep
      rw [state_of_due hstep, hkind]
      exact (Sidebar.tooltipPillId_commitHide_iff hid).mpr hnot

/-- **The message of a stale timer ends nothing that began later exactly if it finds nothing to
end**, in every run. -/
theorem stale_timers_ignored_iff {s : Timed (AppState ρ) TimerKind} {tr : List (TimedStep ρ)}
    (h : Run timers.Steps (start (.new name)) tr s) :
    (∀ before x after, tr = before ++ x :: after →
      ChipKept before x ∧ GraceKept before x ∧ TooltipKept x) ↔
    ∀ before x after, tr = before ++ x :: after → NothingToEnd before x := by
  constructor
  · rintro hkept before x after rfl
    obtain ⟨hrun, hstep, -⟩ := h.cut
    exact (kept_iff hrun hstep).mp (hkept before x after rfl)
  · rintro hnothing before x after rfl
    obtain ⟨hrun, hstep, -⟩ := h.cut
    exact (kept_iff hrun hstep).mpr (hnothing before x after rfl)

theorem not_due_of_ne {msg : Message ρ} (hchip : msg ≠ .addressBar .autoDismissConvertChip)
    (hgrace : msg ≠ .addressBar .strictPopupGracePeriodEnd) (htooltip : msg ≠ .hideTooltip) :
    ∀ k, msg ≠ timers.due k
  | .autoDismissConvertChip => hchip
  | .strictPopupGracePeriodEnd => hgrace
  | .hideTooltip => htooltip

/-- The cursor leaves a pill, then another one to which it returns before the first timer is
over. -/
theorem stale_timers_ignored_reentered :
    ∃ (tr : List (TimedStep Rat)) (s : Timed (AppState Rat) TimerKind),
      Run timers.Steps (start (.new [])) tr s ∧
      tr.map Step.input = [.message (.sidebar (.pillEntered 1)),
        .message (.sidebar (.pillLeft 1)), .message (.sidebar (.pillEntered 2)),
        .message (.sidebar (.pillLeft 2)), .message (.sidebar (.pillEntered 2)),
        .due ⟨.hideTooltip, 1⟩] ∧
      ∀ before x after, tr = before ++ x :: after →
        ChipKept before x ∧ GraceKept before x ∧ TooltipKept x := by
  have hnil : Run timers.Steps (start (.new [])) [] (start (.new [] : AppState Rat)) := .nil
  have hleft := ((hnil.snoc
    (.message (.sidebar (.pillEntered 1)) (not_due_of_ne nofun nofun nofun))).snoc
    (.message (.sidebar (.pillLeft 1)) (not_due_of_ne nofun nofun nofun)))
  have hback := (((hleft.snoc
    (.message (.sidebar (.pillEntered 2)) (not_due_of_ne nofun nofun nofun))).snoc
    (.message (.sidebar (.pillLeft 2)) (not_due_of_ne nofun nofun nofun))).snoc
    (.message (.sidebar (.pillEntered 2)) (not_due_of_ne nofun nofun nofun)))
  have hrun := hback.snoc (.due ⟨.hideTooltip, 1⟩ (.head _))
  refine ⟨_, _, hrun, rfl, (stale_timers_ignored_iff hrun).mpr ?_⟩
  intro before x after htr timer hinput _ hends
  have hx := List.mem_append_right before (List.mem_cons_self (a := x) (l := after))
  rw [← htr] at hx
  -- only the last step is that of a timer
  rcases List.mem_append.mp hx with hx | hx
  · simp only [List.nil_append, List.cons_append, List.mem_cons, List.not_mem_nil, or_false] at hx
    rcases hx with rfl | rfl | rfl | rfl | rfl <;> cases hinput
  · obtain rfl := List.mem_singleton.mp hx
    obtain ⟨⟩ := hinput
    cases hends.1

/-- **What ends something is done twice**, and the first timer ends what began with the second. -/
theorem not_stale_timers_ignored :
    (¬ ∀ (tr : List (TimedStep Rat)) s, Run timers.Steps (start (.new [])) tr s →
      ∀ before x after, tr = before ++ x :: after → ChipKept before x) ∧
    (¬ ∀ (tr : List (TimedStep Rat)) s, Run timers.Steps (start (.new [])) tr s →
      ∀ before x after, tr = before ++ x :: after → GraceKept before x) ∧
    ¬ ∀ (tr : List (TimedStep Rat)) s, Run timers.Steps (start (.new [])) tr s →
      ∀ before x after, tr = before ++ x :: after → TooltipKept x := by
  have hnil : Run timers.Steps (start (.new [])) [] (start (.new [] : AppState Rat)) := .nil
  refine ⟨fun hall => ?_, fun hall => ?_, fun hall => ?_⟩
  · have hrun := ((hnil.snoc
      (.message (.addressBar (.navigatedExternally ['a'])) (not_due_of_ne nofun nofun nofun))).snoc
      (.message (.addressBar (.navigatedExternally ['b'])) (not_due_of_ne nofun nofun nofun))).snoc
      (.due ⟨.autoDismissConvertChip, 0⟩ (.head _))
    have hshown := hall _ _ hrun _ _ [] rfl ⟨.autoDismissConvertChip, 0⟩ rfl rfl
      ⟨_, List.mem_append_right _ (List.mem_singleton.mpr rfl), ⟨_, rfl, rfl⟩, Nat.zero_lt_one⟩ rfl
    cases hshown
  · have hrun := ((hnil.snoc
      (.message (.addressBar .convertChipExited) (not_due_of_ne nofun nofun nofun))).snoc
      (.message (.addressBar .convertChipExited) (not_due_of_ne nofun nofun nofun))).snoc
      (.due ⟨.strictPopupGracePeriodEnd, 0⟩ (.head _))
    have hgrace := hall _ _ hrun _ _ [] rfl ⟨.strictPopupGracePeriodEnd, 0⟩ rfl rfl
      ⟨_, List.mem_append_right _ (List.mem_singleton.mpr rfl), ⟨_, rfl, rfl⟩, Nat.zero_lt_one⟩ rfl
    cases hgrace
  · have hrun := ((((hnil.snoc
      (.message (.sidebar (.pillEntered 1)) (not_due_of_ne nofun nofun nofun))).snoc
      (.message (.sidebar (.pillLeft 1)) (not_due_of_ne nofun nofun nofun))).snoc
      (.message (.sidebar (.pillEntered 2)) (not_due_of_ne nofun nofun nofun))).snoc
      (.message (.sidebar (.pillLeft 2)) (not_due_of_ne nofun nofun nofun))).snoc
      (.due ⟨.hideTooltip, 1⟩ (.head _))
    have hshown := hall _ _ hrun _ _ [] rfl ⟨.hideTooltip, 1⟩ rfl rfl
      ⟨⟨.hideTooltip, 3⟩, .tail _ (.head _), rfl, by decide⟩ 2 rfl
    cases hshown

end AppState

end Ui

end DevBrowse
