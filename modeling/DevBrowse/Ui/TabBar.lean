import DevBrowse.Basic
import DevBrowse.Lib.Keyed
import DevBrowse.Lib.Text

/-!
# The tab bar

The tabs of a window, the active one, the strip the cursor moves over and the dialog that
is asked before a Strict tab with unsaved input is closed. A message changes the bar and may
leave an event for the shell.

Where on the strip a tab stands is computed in pixels, of whose arithmetic nothing is assumed
(`DevBrowse.Ui.Px`): whatever it is, the cursor is over a tab of the bar or over none
(`DevBrowse.Ui.TabBar.mem_of_tabIdAtX`).

What a message does to the tabs and the dialog is said once,
`DevBrowse.Ui.TabBar.effect_update`.
-/

namespace DevBrowse

namespace Ui

/-! ### Pixels -/

/-- The arithmetic of pixels. -/
class Px (ρ : Type*) extends Add ρ, Sub ρ, Mul ρ, Div ρ, NatCast ρ, OfScientific ρ, Max ρ, Min ρ,
    LT ρ, LE ρ where
  /-- The distance from zero. -/
  abs : ρ → ρ
  /-- `<` can be tested. -/
  decidableLT : DecidableLT ρ
  /-- `≤` can be tested. -/
  decidableLE : DecidableLE ρ

attribute [reducible, instance] Px.decidableLT Px.decidableLE

/-- Exact arithmetic. -/
instance : Px Rat where
  max a b := if a ≤ b then b else a
  min a b := if a ≤ b then a else b
  abs a := if a < 0 then -a else a
  decidableLT := inferInstance
  decidableLE := inferInstance

/-! ### Tabs -/

/-- A tab. -/
structure TabEntry where
  /-- Its identifier. -/
  id : ℕ
  /-- The title of its page. -/
  title : Text
  /-- Its mode. -/
  mode : Mode
  /-- Whether it is pinned. -/
  isPinned : Bool
  /-- Whether the renderer reports an input element that is not saved. -/
  hasUnsavedInput : Bool
  /-- The address it shows. -/
  url : Text
  deriving DecidableEq

/-- A tab that is not to be closed without being asked about. -/
def TabEntry.Guarded (tab : TabEntry) : Prop := tab.mode = .strict ∧ tab.hasUnsavedInput = true

instance (tab : TabEntry) : Decidable tab.Guarded := inferInstanceAs (Decidable (_ ∧ _))

/-- The dialog before a Strict tab is closed. -/
inductive StrictCloseModal where
  /-- It is not shown. -/
  | hidden
  /-- It asks whether to close the tab. -/
  | confirming (id : ℕ)
  deriving DecidableEq

/-- The messages to the tab bar. -/
inductive TabBarMsg (ρ : Type*) where
  | stripMoved (x : ρ)
  | stripPressed
  | stripReleased
  | stripExited
  | strictCloseConfirmed
  | strictCloseCancelled
  | newTabPressed
  | noop
  | stabilizeExpired (gen : UInt32)
  | tabsGridPressed
  | tabActivated (id : ℕ)
  | tabCloseRequested (id : ℕ)
  | tabHovered (id : Option ℕ)

/-- What the tab bar tells the shell. -/
inductive TabBarEvent where
  | tabClosed (id : ℕ)
  /-- The last tab was closed. -/
  | allTabsClosed
  | newTabRequested
  | windowDragRequested
  | stabilizeRequested (gen : UInt32)
  | tabScreenRequested
  deriving DecidableEq

/-- **The tab bar.** -/
structure TabBar (ρ : Type*) where
  /-- The tabs, in the order of the strip. -/
  tabs : List TabEntry
  /-- The identifier of the active tab. -/
  activeId : ℕ
  /-- The tab the cursor is over. -/
  hoveredTabId : Option ℕ
  /-- The dialog before a Strict tab is closed. -/
  modal : StrictCloseModal
  /-- The mode the bar shows. -/
  mode : Mode
  /-- The name in the identity capsule. -/
  profileName : Text
  /-- The width of the window. -/
  windowWidth : ρ
  /-- Where on the strip the cursor is. -/
  cursorStripX : ρ
  /-- The tab that is dragged. -/
  dragId : Option ℕ
  /-- Where the drag was started. -/
  dragStartX : ρ
  /-- Whether the cursor has moved enough for a drag. -/
  dragActive : Bool
  /-- Where the last two tabs were swapped. -/
  dragLastSwapX : ρ
  /-- The widths of the active and of the other tabs, as long as they are frozen. -/
  frozenChipPx : Option (ρ × ρ)
  /-- Which freeze this is. -/
  stabilizeGeneration : UInt32

namespace TabBar

variable {ρ : Type*} [Px ρ]

/-- The tabs a bar starts with. -/
def stubTabs : List TabEntry :=
  [⟨0, "github.com".toList, .standard, false, false, "https://github.com".toList⟩,
    ⟨1, "figma.com".toList, .standard, false, false, "https://figma.com".toList⟩,
    ⟨2, "github / devbrowse".toList, .standard, false, false,
      "https://github.com/devbrowse".toList⟩,
    ⟨3, "NYT · Opinion".toList, .standard, false, false, "https://nytimes.com/opinion".toList⟩,
    ⟨4, "strict · banking".toList, .strict, false, true, "https://bank.example".toList⟩]

/-- The bar at the start. -/
def new : TabBar ρ :=
  ⟨stubTabs, 2, none, .hidden, .standard, [], 1280.0, 0.0, none, 0.0, false, 0.0, none, 0⟩

/-- The identifiers of the tabs. -/
def ids (tb : TabBar ρ) : List ℕ := tb.tabs.map TabEntry.id

/-- The first tab with an identifier. -/
def tabOf (tb : TabBar ρ) (id : ℕ) : Option TabEntry := Keyed.find TabEntry.id id tb.tabs

/-- **Show a mode**, which the active tab takes over. -/
def syncMode (tb : TabBar ρ) (mode : Mode) (profileName : Text) : TabBar ρ :=
  { tb with
    mode := mode
    profileName := profileName
    tabs := Keyed.modify TabEntry.id tb.activeId (fun tab => { tab with mode := mode }) tb.tabs }

/-- Take over the width of the window. -/
def syncWindow (tb : TabBar ρ) (windowWidth : ρ) : TabBar ρ :=
  { tb with windowWidth := windowWidth }

omit [Px ρ] in
@[simp] theorem ids_syncMode (tb : TabBar ρ) (mode : Mode) (profileName : Text) :
    (tb.syncMode mode profileName).ids = tb.ids := Keyed.map_modify fun _ => rfl

/-! ### Where the tabs stand -/

/-- The width of the collapsed sidebar. -/
def sidebarCollapsedPx : ρ := 52.0

/-- The space before the first tab. -/
def spaceS4 : ρ := 8.0

/-- The widths of the active tab and of the others. -/
def chipWidths (tb : TabBar ρ) : ρ × ρ :=
  match tb.frozenChipPx with
  | some frozen => if tb.tabs.isEmpty then (0.0, 0.0) else frozen
  | none =>
    let n := tb.tabs.length
    if n = 0 then (0.0, 0.0)
    else
      let activeMinPx : ρ := 80.0
      let rowPad : ρ := spaceS4 * 2.0
      let totalSpacing : ρ := 1.0 * ((n : ρ) - 1.0)
      let available := max (tb.windowWidth - sidebarCollapsedPx - rowPad - totalSpacing) 0.0
      let equalPx := available / (n : ρ)
      if n = 1 then (max available activeMinPx, max available activeMinPx)
      else if 80.0 ≤ equalPx then
        let activePx := min (equalPx * 1.30) (available - ((n : ρ) - 1.0) * 80.0)
        (activePx, max ((available - activePx) / ((n : ρ) - 1.0)) 80.0)
      else
        let activePx := min activeMinPx available
        (activePx,
          if activePx < available then (available - activePx) / ((n : ρ) - 1.0) else 0.0)

/-- Identifier, start and width of some tabs that stand from a place on. -/
def positionsFrom (activeId : ℕ) (widths : ρ × ρ) : ρ → List TabEntry → List (ℕ × ρ × ρ)
  | _, [] => []
  | x, tab :: tabs =>
    let w := if tab.id = activeId then widths.1 else widths.2
    (tab.id, x, w) :: positionsFrom activeId widths (x + (w + 1.0)) tabs

/-- Identifier, start and width of every tab. -/
def tabPositions (tb : TabBar ρ) : List (ℕ × ρ × ρ) :=
  positionsFrom tb.activeId tb.chipWidths spaceS4 tb.tabs

/-- Whether a place is in a tab that has the given start and width. -/
def inSlot (x : ρ) (slot : ℕ × ρ × ρ) : Bool :=
  decide (slot.2.1 ≤ x) && decide (x < slot.2.1 + slot.2.2)

/-- The tab a place is in. -/
def tabIdAtX (tb : TabBar ρ) (x : ρ) : Option ℕ := (tb.tabPositions.find? (inSlot x)).map Prod.fst

/-- The index of the tab a place is in, of the first or the last for a place off the strip. -/
def tabIdxAtX (tb : TabBar ρ) (x : ρ) : Option ℕ :=
  let positions := tb.tabPositions
  match positions.findIdx? (inSlot x) with
  | some i => some i
  | none =>
    if positions.head?.any fun slot => decide (x < slot.2.1) then some 0
    else if positions.getLast?.any fun slot => decide (slot.2.1 + slot.2.2 ≤ x) then
      some (positions.length - 1)
    else none

/-- Whether the cursor is on the close button of the tab it is over. A pinned tab has none,
and a narrow one neither. -/
def cursorInCloseZone (tb : TabBar ρ) : Bool :=
  match tb.hoveredTabId with
  | none => false
  | some id =>
    if ((tb.tabOf id).map TabEntry.isPinned).getD true then false
    else
      match tb.tabPositions.find? fun slot => slot.1 = id with
      | none => false
      | some (_, xStart, w) =>
        if w < 80.0 then false else decide (xStart + w - 26.0 < tb.cursorStripX)

/-! ### Messages -/

/-- The cursor moves over the strip, and swaps the tab it drags with the one it is over. -/
def stripMoved (tb : TabBar ρ) (x : ρ) : TabBar ρ :=
  let moved := { tb with cursorStripX := x, hoveredTabId := tb.tabIdAtX x }
  match moved.dragId with
  | none => moved
  | some dragId =>
    let active := moved.dragActive || decide (8.0 < Px.abs (x - moved.dragStartX))
    let dragged := { moved with dragActive := active }
    if active && decide (30.0 < Px.abs (x - moved.dragLastSwapX)) then
      match Keyed.position TabEntry.id dragId dragged.tabs, dragged.tabIdxAtX x with
      | some di, some ti =>
        if di = ti then dragged
        else { dragged with tabs := Keyed.swap di ti dragged.tabs, dragLastSwapX := x }
      | _, _ => dragged
    else dragged

/-- The tab that is active after one is closed. -/
def successor (tb : TabBar ρ) (id : ℕ) : Option ℕ :=
  if tb.activeId = id then
    if tb.tabs.length ≤ 1 then none
    else
      let idx := (Keyed.position TabEntry.id id tb.tabs).getD 0
      (Keyed.neighbour idx tb.tabs).map TabEntry.id
  else none

/-- **Close a tab**, with the widths frozen where it is closed on the strip. -/
def closeTab (tb : TabBar ρ) (id : ℕ) (fromStrip : Bool) : TabBar ρ × Option TabBarEvent :=
  let frozen :=
    if fromStrip then
      { tb with
        frozenChipPx := some tb.chipWidths
        stabilizeGeneration := tb.stabilizeGeneration + 1 }
    else tb
  let removed :=
    { frozen with
      tabs := Keyed.remove TabEntry.id id tb.tabs
      activeId := if tb.activeId = id then (tb.successor id).getD 0 else tb.activeId }
  let closed := { removed with hoveredTabId := removed.tabIdAtX removed.cursorStripX }
  if closed.tabs.isEmpty then ({ closed with frozenChipPx := none }, some .allTabsClosed)
  else if fromStrip then (closed, some (.stabilizeRequested closed.stabilizeGeneration))
  else (closed, some (.tabClosed id))

/-- The strip is pressed: on the close button of a tab, on a tab, or beside the tabs. -/
def stripPressed (tb : TabBar ρ) : TabBar ρ × Option TabBarEvent :=
  match tb.hoveredTabId with
  | none => (tb, some .windowDragRequested)
  | some id =>
    if tb.cursorInCloseZone then closeTab { tb with dragId := none } id true
    else
      ({ tb with
          activeId := id
          dragId := some id
          dragStartX := tb.cursorStripX
          dragLastSwapX := tb.cursorStripX
          dragActive := false
          mode := ((tb.tabOf id).map TabEntry.mode).getD tb.mode }, none)

/-- Ask for a tab to be closed. For a Strict tab with unsaved input a dialog is shown. -/
def closeRequested (tb : TabBar ρ) (id : ℕ) : TabBar ρ × Option TabBarEvent :=
  if (tb.tabOf id).any fun tab => tab.mode = .strict && tab.hasUnsavedInput then
    ({ tb with modal := .confirming id }, none)
  else tb.closeTab id false

/-- The identifier of the next tab. -/
def nextId (tb : TabBar ρ) : ℕ := (tb.ids.max?.map (· + 1)).getD 0

/-- The next tab. -/
def nextTab (tb : TabBar ρ) : TabEntry :=
  ⟨tb.nextId, "New Tab ".toList ++ Nat.toDigits 10 (tb.nextId + 1), .standard, false, false, []⟩

/-- A new tab, which is the active one. -/
def newTab (tb : TabBar ρ) : TabBar ρ :=
  { tb with
    tabs := tb.tabs ++ [tb.nextTab]
    activeId := tb.nextId
    mode := .standard
    hoveredTabId := none
    frozenChipPx := none }

/-- **What a message does to the tab bar.** -/
def update (tb : TabBar ρ) : TabBarMsg ρ → TabBar ρ × Option TabBarEvent
  | .stripMoved x => (tb.stripMoved x, none)
  | .stripPressed => tb.stripPressed
  | .stripReleased => ({ tb with dragId := none, dragActive := false }, none)
  | .stripExited =>
    let left := { tb with hoveredTabId := none, frozenChipPx := none }
    (if left.dragActive then left else { left with cursorStripX := 0.0, dragId := none }, none)
  | .tabActivated id => ({ tb with activeId := id }, none)
  | .tabHovered id => ({ tb with hoveredTabId := id }, none)
  | .tabCloseRequested id => tb.closeRequested id
  | .strictCloseConfirmed =>
    match tb.modal with
    | .confirming id => closeTab { tb with modal := .hidden } id false
    | .hidden => (tb, none)
  | .strictCloseCancelled => ({ tb with modal := .hidden }, none)
  | .newTabPressed => (tb.newTab, some .newTabRequested)
  | .noop => (tb, none)
  | .tabsGridPressed => (tb, some .tabScreenRequested)
  | .stabilizeExpired gen =>
    (if gen = tb.stabilizeGeneration then { tb with frozenChipPx := none } else tb, none)

/-! ### What the messages leave -/

variable {tb : TabBar ρ} {x : ρ} {id : ℕ}

theorem map_fst_positionsFrom (activeId : ℕ) (widths : ρ × ρ) (x : ρ) (tabs : List TabEntry) :
    (positionsFrom activeId widths x tabs).map Prod.fst = tabs.map TabEntry.id := by
  induction tabs generalizing x with
  | nil => rfl
  | cons tab tabs ih => rw [positionsFrom, List.map_cons, ih, List.map_cons]

/-- The cursor is over a tab of the bar. -/
theorem mem_of_tabIdAtX (h : tb.tabIdAtX x = some id) : id ∈ tb.ids := by
  obtain ⟨slot, hslot, rfl⟩ := Option.map_eq_some_iff.mp h
  rw [ids, ← map_fst_positionsFrom tb.activeId tb.chipWidths spaceS4]
  exact List.mem_map_of_mem (List.mem_of_find?_eq_some hslot)

/-- **Moving the cursor at most changes the order of the tabs**, and the tab it is over. -/
theorem exists_stripMoved_eq (tb : TabBar ρ) (x : ρ) : ∃ tabs active lastSwap,
    tabs.Perm tb.tabs ∧ tb.stripMoved x =
      { tb with
        tabs := tabs
        hoveredTabId := tb.tabIdAtX x
        cursorStripX := x
        dragActive := active
        dragLastSwapX := lastSwap } := by
  rw [stripMoved]
  dsimp only
  split
  · exact ⟨_, _, _, .refl _, rfl⟩
  · split_ifs
    · split
      · split_ifs
        · exact ⟨_, _, _, .refl _, rfl⟩
        · exact ⟨_, _, _, Keyed.swap_perm _ _ _, rfl⟩
      · exact ⟨_, _, _, .refl _, rfl⟩
    · exact ⟨_, _, _, .refl _, rfl⟩

theorem tabs_stripMoved_perm (tb : TabBar ρ) (x : ρ) : (tb.stripMoved x).tabs.Perm tb.tabs := by
  obtain ⟨_, _, _, hperm, hmoved⟩ := exists_stripMoved_eq tb x
  rwa [hmoved]

@[simp] theorem activeId_stripMoved (tb : TabBar ρ) (x : ρ) :
    (tb.stripMoved x).activeId = tb.activeId := by
  obtain ⟨_, _, _, -, hmoved⟩ := exists_stripMoved_eq tb x
  rw [hmoved]

@[simp] theorem mode_stripMoved (tb : TabBar ρ) (x : ρ) : (tb.stripMoved x).mode = tb.mode := by
  obtain ⟨_, _, _, -, hmoved⟩ := exists_stripMoved_eq tb x
  rw [hmoved]

/-- **What closing a tab leaves**: the other tabs, and a freeze where the strip asks for it. -/
theorem exists_closeTab_eq (tb : TabBar ρ) (id : ℕ) (fromStrip : Bool) : ∃ hovered frozen gen,
    (∀ id', hovered = some id' → id' ∈ (Keyed.remove TabEntry.id id tb.tabs).map TabEntry.id) ∧
    (tb.closeTab id fromStrip).1 =
      { tb with
        tabs := Keyed.remove TabEntry.id id tb.tabs
        activeId := if tb.activeId = id then (tb.successor id).getD 0 else tb.activeId
        hoveredTabId := hovered
        frozenChipPx := frozen
        stabilizeGeneration := gen } := by
  cases fromStrip <;> rw [closeTab] <;> dsimp only <;> split_ifs <;>
    exact ⟨_, _, _, fun id' => mem_of_tabIdAtX, rfl⟩

@[simp] theorem tabs_closeTab (tb : TabBar ρ) (id : ℕ) (fromStrip : Bool) :
    (tb.closeTab id fromStrip).1.tabs = Keyed.remove TabEntry.id id tb.tabs := by
  obtain ⟨_, _, _, -, hclose⟩ := exists_closeTab_eq tb id fromStrip
  rw [hclose]

@[simp] theorem mode_closeTab (tb : TabBar ρ) (id : ℕ) (fromStrip : Bool) :
    (tb.closeTab id fromStrip).1.mode = tb.mode := by
  obtain ⟨_, _, _, -, hclose⟩ := exists_closeTab_eq tb id fromStrip
  rw [hclose]

/-- Closing the last tab tells so, and nothing else does. -/
theorem event_closeTab (tb : TabBar ρ) (id : ℕ) (fromStrip : Bool) :
    (tb.closeTab id fromStrip).2 =
      if (Keyed.remove TabEntry.id id tb.tabs).isEmpty then some .allTabsClosed
      else if fromStrip then some (.stabilizeRequested (tb.stabilizeGeneration + 1))
      else some (.tabClosed id) := by
  rw [closeTab]
  dsimp only
  split_ifs <;> rfl

/-- A tab that is to be closed is closed, or the dialog is shown. -/
theorem closeRequested_cases (tb : TabBar ρ) (id : ℕ) :
    tb.closeRequested id = ({ tb with modal := .confirming id }, none) ∨
      tb.closeRequested id = tb.closeTab id false := by
  rw [closeRequested]
  split_ifs
  · exact .inl rfl
  · exact .inr rfl

/-- A tab that is not guarded is closed. -/
theorem closeRequested_of_not_guarded (h : ∀ tab, tb.tabOf id = some tab → ¬ tab.Guarded) :
    tb.closeRequested id = tb.closeTab id false := by
  refine if_neg fun hany => ?_
  obtain ⟨tab, htab, hguard⟩ := (Option.any_eq_true _ _).mp hany
  exact h tab htab (by simpa [TabEntry.Guarded] using hguard)

/-- Where it is not told that a tab was closed the dialog is shown. -/
theorem closeRequested_of_not_told (hall : (tb.closeRequested id).2 ≠ some .allTabsClosed)
    (hclosed : ∀ id', (tb.closeRequested id).2 ≠ some (.tabClosed id')) :
    tb.closeRequested id = ({ tb with modal := .confirming id }, none) := by
  refine (tb.closeRequested_cases id).resolve_right fun hclose => ?_
  have hevent := tb.event_closeTab id false
  rw [← hclose, if_neg Bool.false_ne_true] at hevent
  split_ifs at hevent
  · exact hall hevent
  · exact hclosed id hevent

theorem stripPressed_of_zone (hhover : tb.hoveredTabId = some id)
    (hzone : tb.cursorInCloseZone = true) :
    tb.stripPressed = closeTab { tb with dragId := none } id true := by
  rw [stripPressed]
  split
  · rename_i hnone
    cases hnone.symm.trans hhover
  · rename_i id' hsome
    obtain rfl := Option.some.inj (hsome.symm.trans hhover)
    rw [if_pos hzone]

/-- Only a tab that is open has a close button. -/
theorem mem_of_cursorInCloseZone (hhover : tb.hoveredTabId = some id)
    (hzone : tb.cursorInCloseZone = true) : id ∈ tb.ids := by
  by_contra hmem
  have hfind : tb.tabOf id = none := Keyed.find_eq_none_iff.mpr hmem
  rw [cursorInCloseZone, hhover] at hzone
  dsimp only at hzone
  rw [hfind] at hzone
  cases hzone

omit [Px ρ] in
/-- The identifier of the next tab is larger than all there are. -/
theorem lt_nextId (h : id ∈ tb.ids) : id < tb.nextId := by
  rw [nextId]
  cases hmax : tb.ids.max? with
  | none =>
    rw [List.max?_eq_none_iff.mp hmax] at h
    cases h
  | some m =>
    have hle : id ≤ m := (List.max?_eq_some_iff.mp hmax).2 _ h
    simpa using Nat.lt_succ_of_le hle

omit [Px ρ] in
theorem nextId_notMem (tb : TabBar ρ) : tb.nextId ∉ tb.ids :=
  fun hmem => (lt_nextId hmem).false

/-! ### What a message does -/

variable {tb' : TabBar ρ} {msg : TabBarMsg ρ} {tab : TabEntry}

/-- The messages that neither open nor close a tab, nor change the dialog. -/
def Quiet (tb : TabBar ρ) : TabBarMsg ρ → Prop
  | .newTabPressed | .tabCloseRequested _ | .strictCloseCancelled => False
  | .strictCloseConfirmed => tb.modal = .hidden
  | .stripPressed => tb.hoveredTabId = none ∨ tb.cursorInCloseZone = false
  | _ => True

/-- **What a message does to the tabs and the dialog.** -/
inductive Effect (tb : TabBar ρ) : TabBarMsg ρ → TabBar ρ → Prop
  /-- Nothing, but for the order of the tabs. -/
  | kept {msg : TabBarMsg ρ} {tb' : TabBar ρ} (hquiet : tb.Quiet msg)
      (htabs : tb'.tabs.Perm tb.tabs) (hmodal : tb'.modal = tb.modal) : Effect tb msg tb'
  /-- The dialog is shown, for the tab that was to be closed. -/
  | asked {tab : TabEntry} {tb' : TabBar ρ} (htab : tb.tabOf tab.id = some tab)
      (hguard : tab.Guarded) (htabs : tb'.tabs = tb.tabs)
      (hmodal : tb'.modal = .confirming tab.id) :
      Effect tb (.tabCloseRequested tab.id) tb'
  /-- A tab that needs no dialog is closed. -/
  | closed {id : ℕ} {tb' : TabBar ρ} (hfree : ∀ tab, tb.tabOf id = some tab → ¬ tab.Guarded)
      (htabs : tb'.tabs = Keyed.remove TabEntry.id id tb.tabs) (hmodal : tb'.modal = tb.modal) :
      Effect tb (.tabCloseRequested id) tb'
  /-- A tab is closed on the strip. -/
  | pressed {id : ℕ} {tb' : TabBar ρ} (hhover : tb.hoveredTabId = some id)
      (hzone : tb.cursorInCloseZone = true)
      (htabs : tb'.tabs = Keyed.remove TabEntry.id id tb.tabs) (hmodal : tb'.modal = tb.modal) :
      Effect tb .stripPressed tb'
  /-- The tab the dialog asks about is closed. -/
  | confirmed {id : ℕ} {tb' : TabBar ρ} (hasked : tb.modal = .confirming id)
      (htabs : tb'.tabs = Keyed.remove TabEntry.id id tb.tabs) (hmodal : tb'.modal = .hidden) :
      Effect tb .strictCloseConfirmed tb'
  /-- The dialog is taken back. -/
  | cancelled {tb' : TabBar ρ} (htabs : tb'.tabs = tb.tabs) (hmodal : tb'.modal = .hidden) :
      Effect tb .strictCloseCancelled tb'
  /-- There is one more tab. -/
  | opened {tb' : TabBar ρ} (htabs : tb'.tabs = tb.tabs ++ [tb.nextTab])
      (hmodal : tb'.modal = tb.modal) : Effect tb .newTabPressed tb'

theorem effect_closeRequested (tb : TabBar ρ) (id : ℕ) :
    Effect tb (.tabCloseRequested id) (tb.closeRequested id).1 := by
  rw [closeRequested]
  split_ifs with hany
  · obtain ⟨tab, htab, hguard⟩ := (Option.any_eq_true _ _).mp hany
    obtain rfl := (Keyed.mem_of_find htab).2
    exact .asked htab (by simpa [TabEntry.Guarded] using hguard) rfl rfl
  · obtain ⟨_, _, _, -, hclose⟩ := exists_closeTab_eq tb id false
    rw [hclose]
    refine .closed (fun tab htab hguard => hany ?_) rfl rfl
    simpa [htab, TabEntry.Guarded] using hguard

theorem effect_stripPressed (tb : TabBar ρ) : Effect tb .stripPressed tb.stripPressed.1 := by
  rw [stripPressed]
  split
  · rename_i hnone
    exact .kept (.inl hnone) (.refl _) rfl
  · rename_i id hhover
    split_ifs with hzone
    · obtain ⟨_, _, _, -, hclose⟩ := exists_closeTab_eq { tb with dragId := none } id true
      rw [hclose]
      exact .pressed hhover hzone rfl rfl
    · exact .kept (.inr (Bool.eq_false_of_not_eq_true hzone)) (.refl _) rfl

theorem effect_update (tb : TabBar ρ) (msg : TabBarMsg ρ) : Effect tb msg (tb.update msg).1 := by
  cases msg with
  | stripMoved x =>
    obtain ⟨_, _, _, htabs, hmoved⟩ := exists_stripMoved_eq tb x
    rw [update, hmoved]
    exact .kept trivial htabs rfl
  | stripPressed => exact effect_stripPressed tb
  | strictCloseConfirmed =>
    rw [update]
    split
    · rename_i id hasked
      obtain ⟨_, _, _, -, hclose⟩ := exists_closeTab_eq { tb with modal := .hidden } id false
      rw [hclose]
      exact .confirmed hasked rfl rfl
    · rename_i hhidden
      exact .kept hhidden (.refl _) rfl
  | tabCloseRequested id => exact effect_closeRequested tb id
  | strictCloseCancelled => exact .cancelled rfl rfl
  | newTabPressed => exact .opened rfl rfl
  | stripExited =>
    rw [update]
    dsimp only
    split_ifs <;> exact .kept trivial (.refl _) rfl
  | stabilizeExpired gen =>
    rw [update]
    split_ifs <;> exact .kept trivial (.refl _) rfl
  | stripReleased | noop | tabsGridPressed | tabActivated | tabHovered =>
    exact .kept trivial (.refl _) rfl

theorem Effect.nodup (h : Effect tb msg tb') (hnodup : tb.ids.Nodup) : tb'.ids.Nodup := by
  have hremove : ∀ id, ((Keyed.remove TabEntry.id id tb.tabs).map TabEntry.id).Nodup :=
    fun id => Keyed.nodup_remove hnodup
  cases h with
  | kept _ htabs => exact ((htabs.map TabEntry.id).nodup_iff).mpr hnodup
  | asked _ _ htabs | cancelled htabs => rwa [ids, htabs]
  | closed _ htabs | pressed _ _ htabs | confirmed _ htabs =>
    rw [ids, htabs]
    exact hremove _
  | opened htabs =>
    rw [ids, htabs, List.map_append, List.nodup_append]
    refine ⟨hnodup, List.nodup_singleton _, ?_⟩
    rintro id hid _ hnew rfl
    rw [List.map_singleton, List.mem_singleton] at hnew
    rw [hnew] at hid
    exact tb.nextId_notMem hid

/-- The tabs after a message are those before it, or the one that is new. -/
theorem Effect.mem_or_eq (h : Effect tb msg tb') (htab : tab ∈ tb'.tabs) :
    tab ∈ tb.tabs ∨ tab = tb.nextTab := by
  cases h with
  | kept _ htabs => exact .inl (htabs.mem_iff.mp htab)
  | asked _ _ htabs | cancelled htabs => exact .inl (htabs ▸ htab)
  | closed _ htabs | pressed _ _ htabs | confirmed _ htabs =>
    rw [htabs] at htab
    exact .inl (Keyed.mem_remove.mp htab).1
  | opened htabs =>
    rw [htabs, List.mem_append, List.mem_singleton] at htab
    exact htab

/-- **A message closes a tab, or it leaves a tab where there was one.** In the second case the
bar shows the mode it showed before, or that of the active tab. -/
theorem closes_or_keeps (tb : TabBar ρ) (msg : TabBarMsg ρ) :
    (∃ tb₀ id fromStrip, tb₀.tabs = tb.tabs ∧ tb₀.mode = tb.mode ∧
      tb.update msg = closeTab tb₀ id fromStrip) ∨
    ((tb.update msg).2 ≠ some .allTabsClosed ∧ ((tb.update msg).1.tabs = [] → tb.tabs = []) ∧
      ((tb.update msg).1.mode = tb.mode ∨ ∃ tab ∈ (tb.update msg).1.tabs,
        tab.id = (tb.update msg).1.activeId ∧ (tb.update msg).1.mode = tab.mode)) := by
  cases msg with
  | stripMoved x =>
    refine .inr ⟨by rintro ⟨⟩, fun hnil => ?_, .inl (mode_stripMoved tb x)⟩
    have hperm := tabs_stripMoved_perm tb x
    rw [show (tb.stripMoved x).tabs = [] from hnil] at hperm
    exact hperm.symm.eq_nil
  | stripPressed =>
    rw [update, stripPressed]
    split
    · exact .inr ⟨by rintro ⟨⟩, id, .inl rfl⟩
    · rename_i id _
      split_ifs
      · exact .inl ⟨{ tb with dragId := none }, id, true, rfl, rfl, rfl⟩
      · refine .inr ⟨by rintro ⟨⟩, fun hnil => hnil, ?_⟩
        cases hfind : tb.tabOf id with
        | none => exact .inl rfl
        | some tab =>
          obtain ⟨htab, hid⟩ := Keyed.mem_of_find hfind
          exact .inr ⟨tab, htab, hid, rfl⟩
  | strictCloseConfirmed =>
    rw [update]
    split
    · exact .inl ⟨{ tb with modal := .hidden }, _, false, rfl, rfl, rfl⟩
    · exact .inr ⟨by rintro ⟨⟩, id, .inl rfl⟩
  | tabCloseRequested id =>
    rw [update]
    rcases tb.closeRequested_cases id with hask | hclose
    · rw [hask]
      exact .inr ⟨by rintro ⟨⟩, fun hnil => hnil, .inl rfl⟩
    · exact .inl ⟨tb, id, false, rfl, rfl, hclose⟩
  | newTabPressed =>
    refine .inr ⟨by rintro ⟨⟩, fun hnil => absurd hnil ?_, .inr ⟨tb.nextTab, ?_, rfl, rfl⟩⟩
    · exact List.append_ne_nil_of_right_ne_nil _ (List.cons_ne_nil _ _)
    · exact List.mem_append_right _ (List.mem_singleton.mpr rfl)
  | stripExited =>
    rw [update]
    dsimp only
    split_ifs <;> exact .inr ⟨by rintro ⟨⟩, id, .inl rfl⟩
  | stabilizeExpired gen =>
    rw [update]
    split_ifs <;> exact .inr ⟨by rintro ⟨⟩, id, .inl rfl⟩
  | strictCloseCancelled | stripReleased | noop | tabsGridPressed | tabActivated | tabHovered =>
    exact .inr ⟨by rintro ⟨⟩, fun hnil => hnil, .inl rfl⟩

theorem event_closeTab_eq_iff (tb : TabBar ρ) (id : ℕ) (fromStrip : Bool) :
    (tb.closeTab id fromStrip).2 = some .allTabsClosed ↔
      (tb.closeTab id fromStrip).1.tabs = [] := by
  rw [event_closeTab, tabs_closeTab, ← List.isEmpty_iff]
  split_ifs with hempty <;> simp [hempty]

/-- **When it is told that all tabs are closed there are none.** -/
theorem tabs_of_allTabsClosed (h : (tb.update msg).2 = some .allTabsClosed) :
    (tb.update msg).1.tabs = [] := by
  rcases closes_or_keeps tb msg with ⟨tb₀, id, fromStrip, -, -, hclose⟩ | ⟨hevent, -⟩
  · rw [hclose] at h ⊢
    exact (tb₀.event_closeTab_eq_iff id fromStrip).mp h
  · exact absurd h hevent

/-- **Where there are no tabs left it is told that all are closed**, or there were none. -/
theorem event_of_tabs_eq_nil (h : (tb.update msg).1.tabs = []) :
    (tb.update msg).2 = some .allTabsClosed ∨ tb.tabs = [] := by
  rcases closes_or_keeps tb msg with ⟨tb₀, id, fromStrip, -, -, hclose⟩ | ⟨-, hnil, -⟩
  · rw [hclose] at h ⊢
    exact .inl ((tb₀.event_closeTab_eq_iff id fromStrip).mpr h)
  · exact .inr (hnil h)

/-- **A new tab and the grid of the tabs are each asked for with their own button.** -/
theorem msg_of_event {event : TabBarEvent} (h : (tb.update msg).2 = some event) :
    (event = .newTabRequested → msg = .newTabPressed) ∧
      (event = .tabScreenRequested → msg = .tabsGridPressed) := by
  -- a tab that is closed asks for neither
  have hclose : ∀ {tb₀ : TabBar ρ} {id : ℕ} {fromStrip : Bool},
      (tb₀.closeTab id fromStrip).2 = some event →
        event ≠ .newTabRequested ∧ event ≠ .tabScreenRequested := by
    intro tb₀ id fromStrip hevent
    rw [event_closeTab] at hevent
    split_ifs at hevent
    all_goals
      cases hevent
      exact ⟨nofun, nofun⟩
  have hneither (hne : event ≠ .newTabRequested ∧ event ≠ .tabScreenRequested) :
      (event = .newTabRequested → msg = .newTabPressed) ∧
        (event = .tabScreenRequested → msg = .tabsGridPressed) :=
    ⟨fun heq => absurd heq hne.1, fun heq => absurd heq hne.2⟩
  cases msg with
  | newTabPressed =>
    cases h
    exact ⟨fun _ => rfl, nofun⟩
  | tabsGridPressed =>
    cases h
    exact ⟨nofun, fun _ => rfl⟩
  | stripPressed =>
    rw [update, stripPressed] at h
    split at h
    · cases h
      exact ⟨nofun, nofun⟩
    · split_ifs at h
      exact hneither (hclose h)
  | strictCloseConfirmed =>
    rw [update] at h
    split at h
    · exact hneither (hclose h)
    · cases h
  | tabCloseRequested id =>
    rw [update] at h
    rcases tb.closeRequested_cases id with hask | hclosed
    · rw [hask] at h
      cases h
    · rw [hclosed] at h
      exact hneither (hclose h)
  | _ => cases h

/-- The bar shows the mode it showed before, or that of the active tab. -/
theorem mode_update (tb : TabBar ρ) (msg : TabBarMsg ρ) :
    (tb.update msg).1.mode = tb.mode ∨ ∃ tab ∈ (tb.update msg).1.tabs,
      tab.id = (tb.update msg).1.activeId ∧ (tb.update msg).1.mode = tab.mode := by
  rcases closes_or_keeps tb msg with ⟨tb₀, id, fromStrip, -, hmode, hclose⟩ | ⟨-, -, hmode⟩
  · rw [hclose, mode_closeTab]
    exact .inl hmode
  · exact hmode

end TabBar

end Ui

end DevBrowse
