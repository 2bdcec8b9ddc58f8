import DevBrowse.Lib.Transition
import DevBrowse.Ui.OpenTabs

/-!
# The list of the tabs

What a message to the tab bar does to the list: the tabs are put in another order, there is one
more at the end, or one less (`DevBrowse.Ui.TabBar.Change`). After a tab is closed on the strip
the widths are frozen, so that the next close button comes to stand under the cursor. A timer
ends that, and every close starts one; they are told apart by the number of the freeze
(`DevBrowse.Ui.TabBar.Freeze`).
-/

namespace DevBrowse

namespace Ui

open Transition

/-- A message that activates a tab, or says which the cursor is over, names an open one. -/
def TabBarMsg.Named {ρ : Type*} (ids : List ℕ) : TabBarMsg ρ → Prop
  | .tabActivated id => id ∈ ids
  | .tabHovered (some id) => id ∈ ids
  | _ => True

instance {ρ : Type*} (ids : List ℕ) : (msg : TabBarMsg ρ) → Decidable (msg.Named ids)
  | .tabActivated id | .tabHovered (some id) => inferInstanceAs (Decidable (id ∈ ids))
  | .tabHovered none | .stripMoved _ | .stripPressed | .stripReleased | .stripExited
  | .strictCloseConfirmed | .strictCloseCancelled | .newTabPressed | .noop
  | .stabilizeExpired _ | .tabsGridPressed | .tabCloseRequested _ => .isTrue trivial

namespace TabBar

variable {ρ : Type*} [Px ρ] {tb tb' : TabBar ρ} {msg : TabBarMsg ρ} {id : ℕ}

theorem WellFormed.update_of_named (h : tb.WellFormed) (hmsg : msg.Named tb.ids) :
    (tb.update msg).1.WellFormed := by
  cases msg with
  | tabCloseRequested id => exact h.closeRequested id
  | tabHovered id => cases id <;> exact h.update hmsg
  | _ => exact h.update hmsg

theorem wellFormed_new : (new : TabBar ρ).WellFormed where
  nodup := by
    show (stubTabs.map TabEntry.id).Nodup
    decide
  hovered _ hid := by cases hid
  active _ := by
    show 2 ∈ stubTabs.map TabEntry.id
    decide

/-! ### The list -/

/-- **How the list of the tabs changes.** -/
inductive Change (tb tb' : TabBar ρ) : Prop
  /-- The tabs are the same, maybe in another order. -/
  | kept (htabs : tb'.tabs.Perm tb.tabs)
  /-- There is one more at the end, whose identifier is larger than all there were. -/
  | opened (tab : TabEntry) (htabs : tb'.tabs = tb.tabs ++ [tab])
      (hnew : ∀ id ∈ tb.ids, id < tab.id)
  /-- There is one less. If it was the active one its right neighbour becomes active, or the left
  one if it has no right one. -/
  | closed (l : List TabEntry) (tab : TabEntry) (r : List TabEntry)
      (htabs : tb.tabs = l ++ tab :: r) (hleft : tb'.tabs = l ++ r)
      (hactive : tb.activeId = tab.id →
        ∀ next, r.head?.or l.getLast? = some next → tb'.activeId = next.id)
      (hother : tb.activeId ≠ tab.id → tb'.activeId = tb.activeId)

omit [Px ρ] in
/-- The successor of the active tab, between the others. -/
theorem successor_of_append {l r : List TabEntry} {tab next : TabEntry} (h : tb.WellFormed)
    (htabs : tb.tabs = l ++ tab :: r) (hactive : tb.activeId = tab.id)
    (hnext : r.head?.or l.getLast? = some next) : tb.successor tab.id = some next.id := by
  have hlen : ¬ tb.tabs.length ≤ 1 := by
    rw [htabs, List.length_append, List.length_cons]
    cases r with
    | cons => rw [List.length_cons]; omega
    | nil =>
      rw [List.head?_nil, Option.none_or] at hnext
      have hpos := List.length_pos_of_mem (List.mem_of_getLast? hnext)
      omega
  have hplace : Keyed.position TabEntry.id tab.id tb.tabs = some l.length := by
    have hnodup := h.nodup
    rw [ids, htabs, List.map_append, List.map_cons, List.nodup_middle, List.nodup_cons] at hnodup
    rw [htabs]
    exact Keyed.position_append_cons fun hin => hnodup.1 (List.mem_append_left _ hin)
  rw [successor, if_pos hactive, if_neg hlen, hplace, htabs]
  dsimp only [Option.getD_some]
  rw [Keyed.neighbour_append_cons, hnext]
  rfl

theorem WellFormed.change_closeTab (h : tb.WellFormed) (id : ℕ) (fromStrip : Bool) :
    Change tb (tb.closeTab id fromStrip).1 := by
  obtain ⟨_, _, _, -, hclose⟩ := exists_closeTab_eq tb id fromStrip
  rw [hclose]
  by_cases hmem : id ∈ tb.ids
  · obtain ⟨l, tab, r, htabs, rfl⟩ := Keyed.exists_append_of_mem hmem
    refine .closed l tab r htabs ?_ (fun hactive next hnext => ?_) fun hother => if_neg hother
    · have hnodup : ((l ++ tab :: r).map TabEntry.id).Nodup := htabs ▸ h.nodup
      show Keyed.remove TabEntry.id tab.id tb.tabs = l ++ r
      rw [htabs, Keyed.remove_append_cons hnodup]
    · show (if tb.activeId = tab.id then (tb.successor tab.id).getD 0 else tb.activeId) = next.id
      rw [if_pos hactive, successor_of_append h htabs hactive hnext]
      rfl
  · exact .kept (.of_eq (Keyed.remove_of_notMem hmem))

theorem WellFormed.change_closeRequested (h : tb.WellFormed) (id : ℕ) :
    Change tb (tb.closeRequested id).1 := by
  rcases tb.closeRequested_cases id with hask | hclose
  · rw [hask]
    exact .kept (.refl _)
  · rw [hclose]
    exact h.change_closeTab id false

omit [Px ρ] in
/-- A bar with the same tabs, of which the same is active, changes in the same way. -/
theorem Change.congr {tb₀ : TabBar ρ} (h : Change tb₀ tb') (htabs : tb₀.tabs = tb.tabs)
    (hactive : tb₀.activeId = tb.activeId) : Change tb tb' := by
  cases h with
  | kept hperm => exact .kept (htabs ▸ hperm)
  | opened tab hopened hnew =>
    refine .opened tab (htabs ▸ hopened) fun id hid => hnew id ?_
    rwa [ids, htabs]
  | closed l tab r hold hleft hnext hother =>
    exact .closed l tab r (htabs ▸ hold) hleft (hactive ▸ hnext) (hactive ▸ hother)

/-- **How a message changes the list.** -/
theorem WellFormed.change_update (h : tb.WellFormed) (msg : TabBarMsg ρ) :
    Change tb (tb.update msg).1 := by
  cases msg with
  | stripMoved x => exact .kept (tabs_stripMoved_perm tb x)
  | stripPressed =>
    rw [TabBar.update, TabBar.stripPressed]
    split
    · exact .kept (.refl _)
    · rename_i id _
      split_ifs
      · have hdropped : WellFormed { tb with dragId := none } := h.congr rfl rfl rfl
        exact (hdropped.change_closeTab id true).congr rfl rfl
      · exact .kept (.refl _)
  | strictCloseConfirmed =>
    rw [TabBar.update]
    split
    · rename_i id _
      have hanswered : WellFormed { tb with modal := .hidden } := h.congr rfl rfl rfl
      exact (hanswered.change_closeTab id false).congr rfl rfl
    · exact .kept (.refl _)
  | tabCloseRequested id => exact h.change_closeRequested id
  | newTabPressed => exact .opened tb.nextTab rfl fun _ => lt_nextId
  | stripExited =>
    rw [TabBar.update]
    dsimp only
    split_ifs <;> exact .kept (.refl _)
  | stabilizeExpired gen =>
    rw [TabBar.update]
    split_ifs <;> exact .kept (.refl _)
  | stripReleased | strictCloseCancelled | noop | tabsGridPressed | tabActivated | tabHovered =>
    exact .kept (.refl _)

/-! ### The freeze of the widths -/

/-- Whether a message closes a tab on the strip. -/
def closesOnStrip (tb : TabBar ρ) : TabBarMsg ρ → Bool
  | .stripPressed => tb.cursorInCloseZone
  | _ => false

/-- **What a message does to the freeze of the widths.** -/
inductive Freeze (tb : TabBar ρ) : TabBarMsg ρ → TabBar ρ × Option TabBarEvent → Prop
  /-- A tab is closed on the strip and others are left: the widths are frozen, and a timer is
  started. -/
  | started {tb' : TabBar ρ} (hzone : tb.cursorInCloseZone = true)
      (hgen : tb'.stabilizeGeneration = tb.stabilizeGeneration + 1) (hleft : tb'.tabs ≠ [])
      (hfrozen : tb'.frozenChipPx ≠ none) :
      Freeze tb .stripPressed (tb', some (.stabilizeRequested tb'.stabilizeGeneration))
  /-- The last tab is closed on the strip. -/
  | emptied {tb' : TabBar ρ} (hzone : tb.cursorInCloseZone = true)
      (hgen : tb'.stabilizeGeneration = tb.stabilizeGeneration + 1) (hnil : tb'.tabs = [])
      (hfrozen : tb'.frozenChipPx = none) : Freeze tb .stripPressed (tb', some .allTabsClosed)
  /-- The widths stay as frozen as they are. -/
  | kept {msg : TabBarMsg ρ} {tb' : TabBar ρ} {event : Option TabBarEvent}
      (hzone : tb.closesOnStrip msg = false)
      (hevent : ∀ gen, event ≠ some (.stabilizeRequested gen))
      (hgen : tb'.stabilizeGeneration = tb.stabilizeGeneration)
      (hfrozen : tb'.frozenChipPx = tb.frozenChipPx) : Freeze tb msg (tb', event)
  /-- The widths are free again. -/
  | thawed {msg : TabBarMsg ρ} {tb' : TabBar ρ} {event : Option TabBarEvent}
      (hzone : tb.closesOnStrip msg = false)
      (hevent : ∀ gen, event ≠ some (.stabilizeRequested gen))
      (hgen : tb'.stabilizeGeneration = tb.stabilizeGeneration)
      (hfrozen : tb'.frozenChipPx = none)
      (hcause : msg = .stripExited ∨ msg = .newTabPressed ∨ tb'.tabs = [] ∨
        msg = .stabilizeExpired tb.stabilizeGeneration) : Freeze tb msg (tb', event)

theorem freeze_closeTab_strip (hzone : tb.cursorInCloseZone = true) (id : ℕ) :
    Freeze tb .stripPressed (closeTab { tb with dragId := none } id true) := by
  rw [closeTab]
  dsimp only
  by_cases hnil : (Keyed.remove TabEntry.id id tb.tabs).isEmpty = true
  · simp only [if_true, if_pos hnil]
    exact .emptied hzone rfl (List.isEmpty_iff.mp hnil) rfl
  · simp only [if_true, if_neg hnil]
    exact .started hzone rfl (fun h => hnil (List.isEmpty_iff.mpr h)) (Option.some_ne_none _)

/-- A close from elsewhere leaves the freeze, unless no tab is left. -/
theorem freeze_closeTab_button (tb₀ : TabBar ρ) (hzone : tb.closesOnStrip msg = false)
    (hgen : tb₀.stabilizeGeneration = tb.stabilizeGeneration)
    (hfrozen : tb₀.frozenChipPx = tb.frozenChipPx) (id : ℕ) :
    Freeze tb msg (tb₀.closeTab id false) := by
  rw [closeTab]
  dsimp only
  by_cases hnil : (Keyed.remove TabEntry.id id tb₀.tabs).isEmpty = true
  · have hempty := List.isEmpty_iff.mp hnil
    simp only [Bool.false_eq_true, if_false, if_pos hnil]
    exact .thawed hzone (by rintro gen ⟨⟩) hgen rfl (.inr (.inr (.inl hempty)))
  · simp only [Bool.false_eq_true, if_false, if_neg hnil]
    exact .kept hzone (by rintro gen ⟨⟩) hgen hfrozen

theorem freeze_update (tb : TabBar ρ) (msg : TabBarMsg ρ) : Freeze tb msg (tb.update msg) := by
  cases msg with
  | stripMoved x =>
    obtain ⟨_, _, _, -, hmoved⟩ := exists_stripMoved_eq tb x
    rw [TabBar.update, hmoved]
    exact .kept rfl (by rintro gen ⟨⟩) rfl rfl
  | stripPressed =>
    rw [TabBar.update]
    cases hzone : tb.cursorInCloseZone with
    | true =>
      obtain ⟨id, hhover⟩ : ∃ id, tb.hoveredTabId = some id := by
        cases hhover : tb.hoveredTabId with
        | none => simp [cursorInCloseZone, hhover] at hzone
        | some id => exact ⟨id, rfl⟩
      rw [stripPressed_of_zone hhover hzone]
      exact freeze_closeTab_strip hzone id
    | false =>
      rw [TabBar.stripPressed]
      split
      · exact .kept hzone (by rintro gen ⟨⟩) rfl rfl
      · rw [if_neg (by rw [hzone]; exact Bool.false_ne_true)]
        exact .kept hzone (by rintro gen ⟨⟩) rfl rfl
  | stripExited =>
    rw [TabBar.update]
    dsimp only
    split_ifs <;> exact .thawed rfl (by rintro gen ⟨⟩) rfl rfl (.inl rfl)
  | newTabPressed => exact .thawed rfl (by rintro gen ⟨⟩) rfl rfl (.inr (.inl rfl))
  | stabilizeExpired gen =>
    rw [TabBar.update]
    split_ifs with hgen
    · exact .thawed rfl (by rintro gen ⟨⟩) rfl rfl (.inr (.inr (.inr (hgen ▸ rfl))))
    · exact .kept rfl (by rintro gen ⟨⟩) rfl rfl
  | tabCloseRequested id =>
    rw [TabBar.update]
    rcases tb.closeRequested_cases id with hask | hclose
    · rw [hask]
      exact .kept rfl (by rintro gen ⟨⟩) rfl rfl
    · rw [hclose]
      exact freeze_closeTab_button tb rfl rfl rfl id
  | strictCloseConfirmed =>
    rw [TabBar.update]
    split
    · rename_i id _
      have hzone : tb.closesOnStrip .strictCloseConfirmed = false := rfl
      exact freeze_closeTab_button { tb with modal := .hidden } hzone rfl rfl id
    · exact .kept rfl (by rintro gen ⟨⟩) rfl rfl
  | stripReleased | strictCloseCancelled | noop | tabsGridPressed | tabActivated | tabHovered =>
    exact .kept rfl (by rintro gen ⟨⟩) rfl rfl

theorem frozen_of_closesOnStrip (hzone : tb.closesOnStrip msg = true)
    (hleft : (tb.update msg).1.tabs ≠ []) : (tb.update msg).1.frozenChipPx ≠ none := by
  have hfreeze := freeze_update tb msg
  generalize tb.update msg = p at hfreeze hleft ⊢
  cases hfreeze with
  | started _ _ _ hfrozen => exact hfrozen
  | emptied _ _ hnil => exact absurd hnil hleft
  | kept hno | thawed hno =>
    rw [hno] at hzone
    cases hzone

/-! ### Every run -/

/-- One message to the bar. -/
def stepNamed (tb : TabBar ρ) (msg : TabBarMsg ρ) : Option (TabBar ρ) :=
  if msg.Named tb.ids then some (tb.update msg).1 else none

theorem of_stepNamed (h : ofFun stepNamed tb msg tb') :
    msg.Named tb.ids ∧ (tb.update msg).1 = tb' := by
  rw [ofFun, stepNamed] at h
  split_ifs at h with hmsg
  exact ⟨hmsg, Option.some.inj h⟩

theorem stepNamed_of_named (msg : TabBarMsg ρ) (hmsg : msg.Named tb.ids) :
    ofFun stepNamed tb msg (tb.update msg).1 := if_pos hmsg

variable {tr past : List (Step (TabBar ρ) (TabBarMsg ρ))} {x y : Step (TabBar ρ) (TabBarMsg ρ)}

/-- The closes on the strip, in a history. -/
def stripCloses (tr : List (Step (TabBar ρ) (TabBarMsg ρ))) :
    List (Step (TabBar ρ) (TabBarMsg ρ)) :=
  tr.filter fun x => x.pre.closesOnStrip x.input

/-- The timer that a step starts: the number of its freeze. -/
def timer (x : Step (TabBar ρ) (TabBarMsg ρ)) : Option UInt32 :=
  match (x.pre.update x.input).2 with
  | some (.stabilizeRequested gen) => some gen
  | _ => none

/-- **What ends a freeze**: the cursor leaves the strip, a new tab opens, no tab is left, or the
time has come that the latest close on the strip has set. -/
def Thaws (past : List (Step (TabBar ρ) (TabBarMsg ρ))) (x : Step (TabBar ρ) (TabBarMsg ρ)) :
    Prop :=
  x.input = .stripExited ∨ x.input = .newTabPressed ∨ x.post.tabs = [] ∨
    ∃ gen, x.input = .stabilizeExpired gen ∧ (stripCloses past).getLast?.bind timer = some gen

/-- What holds of the freezes along a run. -/
structure Counted (tr : List (Step (TabBar ρ) (TabBarMsg ρ))) (tb : TabBar ρ) : Prop where
  /-- The freezes are counted, in 32 bits. -/
  count : tb.stabilizeGeneration = .ofNat (stripCloses tr).length
  /-- A freeze is that of the latest close on the strip. -/
  latest : tb.frozenChipPx ≠ none →
    (stripCloses tr).getLast?.bind timer = some tb.stabilizeGeneration

theorem counted_nil : Counted [] (new : TabBar ρ) := ⟨rfl, fun h => absurd rfl h⟩

theorem stripCloses_snoc (tr : List (Step (TabBar ρ) (TabBarMsg ρ))) :
    stripCloses (tr ++ [⟨tb, msg, tb'⟩]) =
      stripCloses tr ++ if tb.closesOnStrip msg then [⟨tb, msg, tb'⟩] else [] := by
  rw [stripCloses, List.filter_append, stripCloses, List.filter_cons, List.filter_nil]

theorem timer_eq_some_iff {gen : UInt32} :
    timer x = some gen ↔ (x.pre.update x.input).2 = some (.stabilizeRequested gen) := by
  rw [timer]
  split
  · rename_i gen' hevent
    rw [hevent]
    simp
  · rename_i hnone
    simpa using hnone gen

/-- One more message keeps what holds of the freezes. -/
theorem Counted.snoc (h : Counted tr tb) (msg : TabBarMsg ρ) :
    Counted (tr ++ [⟨tb, msg, (tb.update msg).1⟩]) (tb.update msg).1 := by
  have hfreeze := freeze_update tb msg
  have htimer : ∀ gen, (tb.update msg).2 = some (.stabilizeRequested gen) →
      timer ⟨tb, msg, (tb.update msg).1⟩ = some gen := fun gen h => timer_eq_some_iff.mpr h
  generalize tb.update msg = p at hfreeze htimer ⊢
  have hnext : tb.closesOnStrip msg = true → p.1.stabilizeGeneration = tb.stabilizeGeneration + 1 →
      p.1.stabilizeGeneration = .ofNat (stripCloses (tr ++ [⟨tb, msg, p.1⟩])).length := by
    intro hzone hgen
    rw [hgen, h.count, stripCloses_snoc, hzone, if_pos rfl, List.length_append,
      List.length_singleton, UInt32.ofNat_add]
    rfl
  have hsame : tb.closesOnStrip msg = false →
      stripCloses (tr ++ [⟨tb, msg, p.1⟩]) = stripCloses tr := by
    intro hzone
    rw [stripCloses_snoc, hzone, if_neg Bool.false_ne_true, List.append_nil]
  cases hfreeze with
  | started hzone hgen hleft hfrozen =>
    refine ⟨hnext hzone hgen, fun _ => ?_⟩
    have hclose : tb.closesOnStrip .stripPressed = true := hzone
    rw [stripCloses_snoc, hclose, if_pos rfl, List.getLast?_concat]
    exact htimer _ rfl
  | emptied hzone hgen hnil hfrozen => exact ⟨hnext hzone hgen, fun hset => absurd hfrozen hset⟩
  | kept hzone hevent hgen hfrozen =>
    refine ⟨?_, fun hset => ?_⟩
    · rw [hgen, hsame hzone]
      exact h.count
    · rw [hgen, hsame hzone]
      exact h.latest (hfrozen ▸ hset)
  | thawed hzone hevent hgen hfrozen =>
    refine ⟨?_, fun hset => absurd hfrozen hset⟩
    rw [hgen, hsame hzone]
    exact h.count

theorem wellFormed_of_run (h : Run (ofFun stepNamed) (new : TabBar ρ) tr tb) :
    tb.WellFormed := by
  refine h.invariant (I := fun _ => WellFormed) wellFormed_new ?_
  intro _ tb msg tb' _ hwell hstep
  obtain ⟨hmsg, rfl⟩ := of_stepNamed hstep
  exact hwell.update_of_named hmsg

theorem counted_of_run (h : Run (ofFun stepNamed) (new : TabBar ρ) tr tb) : Counted tr tb := by
  refine h.invariant (I := Counted) counted_nil ?_
  intro tr tb msg tb' _ hcounted hstep
  obtain ⟨-, rfl⟩ := of_stepNamed hstep
  exact hcounted.snoc msg

/-- **What is frozen stays frozen until something thaws it.** -/
theorem frozen_or_thaws {tr' : List (Step (TabBar ρ) (TabBarMsg ρ))} (hcounted : Counted tr tb)
    (hfrozen : tb.frozenChipPx ≠ none) (h : Run (ofFun stepNamed) tb tr' tb') :
    tb'.frozenChipPx ≠ none ∨ ∃ l y r, tr' = l ++ y :: r ∧ Thaws (tr ++ l) y := by
  suffices hinv : Counted (tr ++ tr') tb' ∧ (tb'.frozenChipPx ≠ none ∨
      ∃ l y r, tr' = l ++ y :: r ∧ Thaws (tr ++ l) y) from hinv.2
  refine h.invariant (I := fun tr' tb' => Counted (tr ++ tr') tb' ∧ (tb'.frozenChipPx ≠ none ∨
    ∃ l y r, tr' = l ++ y :: r ∧ Thaws (tr ++ l) y)) ?_ ?_
  · rw [List.append_nil]
    exact ⟨hcounted, .inl hfrozen⟩
  · rintro tr' tb₁ msg tb₂ - ⟨hcounted₁, hpast⟩ hstep
    obtain ⟨-, rfl⟩ := of_stepNamed hstep
    refine ⟨by rw [← List.append_assoc]; exact hcounted₁.snoc msg, ?_⟩
    rcases hpast with hfrozen₁ | ⟨l, y, r, rfl, hthaws⟩
    · by_cases hset : (tb₁.update msg).1.frozenChipPx ≠ none
      · exact .inl hset
      · refine .inr ⟨tr', _, [], rfl, ?_⟩
        have hlatest := hcounted₁.latest hfrozen₁
        have hfreeze := freeze_update tb₁ msg
        rw [Thaws]
        dsimp only
        generalize tb₁.update msg = p at hfreeze hset ⊢
        cases hfreeze with
        | started _ _ _ hfrozen₂ => exact absurd hfrozen₂ hset
        | emptied _ _ hnil => exact .inr (.inr (.inl hnil))
        | kept _ _ _ hfrozen₂ => exact absurd (hfrozen₂ ▸ hfrozen₁) hset
        | thawed _ _ _ _ hcause =>
          exact hcause.imp_right (.imp_right (.imp_right fun hmsg => ⟨_, hmsg, hlatest⟩))
    · exact .inr ⟨l, y, r ++ [⟨tb₁, msg, (tb₁.update msg).1⟩], by simp, hthaws⟩

/-- A timer has the number of the freeze it is started for. -/
theorem gen_of_timer {gen : UInt32} (h : timer x = some gen) :
    (x.pre.update x.input).1.stabilizeGeneration = gen := by
  obtain ⟨tb, msg, tb'⟩ := x
  have hevent := timer_eq_some_iff.mp h
  have hfreeze := freeze_update tb msg
  dsimp only at hevent ⊢
  generalize tb.update msg = p at hevent hfreeze ⊢
  cases hfreeze with
  | started =>
    obtain ⟨rfl⟩ := Option.some.inj hevent
    rfl
  | emptied => cases hevent
  | kept _ hnone | thawed _ hnone => exact absurd hevent (hnone gen)

/-- **A timer of an earlier close does nothing**, as long as the number of the freeze has not come
round. -/
theorem update_of_earlier_timer {mid : List (Step (TabBar ρ) (TabBarMsg ρ))} {gen : UInt32}
    (h : Run (ofFun stepNamed) (new : TabBar ρ) (past ++ x :: mid) tb)
    (hfew : (stripCloses (past ++ x :: mid)).length < 2 ^ 32) (htimer : timer x = some gen)
    (hy : y ∈ stripCloses mid) : (tb.update (.stabilizeExpired gen)).1 = tb := by
  obtain ⟨hbefore, hstep, -⟩ := h.cut
  obtain ⟨-, hpost⟩ := of_stepNamed hstep
  have hx : x.post.stabilizeGeneration = .ofNat (stripCloses (past ++ [x])).length :=
    (counted_of_run (hbefore.snoc hstep)).count
  have htb := (counted_of_run h).count
  have hmore : (stripCloses (past ++ x :: mid)).length =
      (stripCloses (past ++ [x])).length + (stripCloses mid).length := by
    rw [List.append_cons, stripCloses, List.filter_append, List.length_append]
    rfl
  have hlater : 0 < (stripCloses mid).length := List.length_pos_of_mem hy
  rw [TabBar.update, if_neg]
  intro heq
  rw [← gen_of_timer htimer, hpost, hx, htb] at heq
  have hnat := congrArg UInt32.toNat heq
  rw [UInt32.toNat_ofNat', UInt32.toNat_ofNat'] at hnat
  omega

/-- **The list of the tabs in every run**: no identifier is there twice, the active tab and the
one under the cursor are open, every message changes the list in one of three ways, in the one it
is for, and what is frozen by a close on the strip stays so until something other than an earlier
timer thaws it. -/
theorem tab_list_integrity (h : Run (ofFun stepNamed) (new : TabBar ρ) tr tb) :
    tb.WellFormed ∧ (∀ x ∈ tr, Change x.pre x.post ∧ Effect x.pre x.input x.post) ∧
      (∀ past x later, tr = past ++ x :: later → x.pre.closesOnStrip x.input = true →
        x.post.tabs ≠ [] → tb.frozenChipPx ≠ none ∨
          ∃ l y r, later = l ++ y :: r ∧ Thaws (past ++ x :: l) y) ∧
      ((stripCloses tr).length < 2 ^ 32 → ∀ past x mid y later gen,
        tr = past ++ x :: mid ++ y :: later → timer x = some gen → stripCloses mid ≠ [] →
          y.input = .stabilizeExpired gen → y.post = y.pre) := by
  refine ⟨wellFormed_of_run h, fun x hx => ?_, ?_, ?_⟩
  · obtain ⟨_, _, -, hbefore, hstep, -⟩ := h.of_mem hx
    obtain ⟨-, hpost⟩ := of_stepNamed hstep
    rw [← hpost]
    exact ⟨(wellFormed_of_run hbefore).change_update x.input, effect_update x.pre x.input⟩
  · rintro past x later rfl hzone hleft
    obtain ⟨hbefore, hstep, hafter⟩ := h.cut
    have hcounted : Counted (past ++ [x]) x.post := counted_of_run (hbefore.snoc hstep)
    have hfrozen : x.post.frozenChipPx ≠ none := by
      obtain ⟨-, hpost⟩ := of_stepNamed hstep
      exact hpost ▸ frozen_of_closesOnStrip hzone (hpost ▸ hleft)
    rcases frozen_or_thaws hcounted hfrozen hafter with hstill | ⟨l, y, r, hlater, hthaws⟩
    · exact .inl hstill
    · exact .inr ⟨l, y, r, hlater, by rwa [List.append_cons]⟩
  · rintro hfew past x mid y later gen rfl htimer hmid hinput
    obtain ⟨hbefore, hstep, -⟩ := h.cut
    obtain ⟨-, hpost⟩ := of_stepNamed hstep
    obtain ⟨z, hz⟩ := List.exists_mem_of_ne_nil _ hmid
    have hfewer : (stripCloses (past ++ x :: mid)).length < 2 ^ 32 := by
      rw [stripCloses, List.filter_append, List.length_append] at hfew
      exact Nat.lt_of_le_of_lt (Nat.le_add_right _ _) hfew
    rw [← hpost, hinput]
    exact update_of_earlier_timer hbefore hfewer htimer hz

/-- Two tabs are closed on the strip, and the timer of the first close comes after the second. -/
theorem tab_list_integrity_twoCloses :
    ∃ (tr : List (Step (TabBar Rat) (TabBarMsg Rat))) (tb : TabBar Rat),
      Run (ofFun stepNamed) new tr tb ∧ (stripCloses tr).length = 2 ∧ tb.WellFormed ∧
        (tb.update (.stabilizeExpired 1)).1 = tb := by
  let s₁ : TabBar Rat := (new.update (.stripMoved 230)).1
  let s₂ : TabBar Rat := (s₁.update .stripPressed).1
  let s₃ : TabBar Rat := (s₂.update .stripPressed).1
  let s₄ : TabBar Rat := (s₃.update (.stabilizeExpired 1)).1
  have hmoved : Run (ofFun stepNamed) new [⟨new, .stripMoved 230, s₁⟩] s₁ :=
    Run.nil.snoc (stepNamed_of_named _ trivial)
  have hclosed := (hmoved.snoc (stepNamed_of_named .stripPressed trivial)).snoc
    (stepNamed_of_named .stripPressed trivial)
  have hlate := hclosed.snoc (stepNamed_of_named (.stabilizeExpired 1) trivial)
  have hfew : (stripCloses [⟨new, .stripMoved 230, s₁⟩, ⟨s₁, .stripPressed, s₂⟩,
      ⟨s₂, .stripPressed, s₃⟩]).length = 2 := by decide +kernel
  have htimer : timer ⟨s₁, .stripPressed, s₂⟩ = some 1 := by decide +kernel
  have hclose : 0 < (stripCloses [⟨s₂, .stripPressed, s₃⟩]).length := by decide +kernel
  obtain ⟨-, -, -, hstale⟩ := tab_list_integrity hlate
  refine ⟨_, s₃, hclosed, hfew, (tab_list_integrity hclosed).1, ?_⟩
  exact hstale (by decide +kernel) [⟨new, .stripMoved 230, s₁⟩] ⟨s₁, .stripPressed, s₂⟩
    [⟨s₂, .stripPressed, s₃⟩] ⟨s₃, .stabilizeExpired 1, s₄⟩ [] 1 rfl htimer
    (List.ne_nil_of_length_pos hclose) rfl

end TabBar

end Ui

end DevBrowse
