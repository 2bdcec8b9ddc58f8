import DevBrowse.Ui.TabBar

/-!
# The sidebar and the card view

Two more places that show the tabs. Neither owns them: a press on a pill of the sidebar or on
a card tells the shell which tab is meant. The identifiers the card view hands on are those of
tabs that are open or were named in the message (`DevBrowse.Ui.CardView.mem_orderedIds`).
-/

namespace DevBrowse

namespace Ui

/-! ### The sidebar -/

/-- The messages to the sidebar. -/
inductive SidebarMsg where
  | pillPressed (id : ℕ)
  | pillReleased (id : ℕ)
  | pillEntered (id : ℕ)
  | sidebarMoved
  | sidebarReleased
  | searchPressed
  | favoritesPressed
  | gearPressed
  | newTabPressed
  | pillLeft (id : ℕ)
  | pillClosePressed (id : ℕ)
  | dragRequested

/-- What the sidebar tells the shell. -/
inductive SidebarEvent where
  | searchRequested
  | newTabRequested
  | favoritesRequested
  | gearRequested
  | tabActivated (id : ℕ)
  | tabCloseRequested (id : ℕ)
  | tooltipPillLeft
  | windowDragRequested
  /-- Two tabs are to be swapped. -/
  | tabsReordered (fromId toId : ℕ)
  deriving DecidableEq

/-- **The sidebar.** -/
structure Sidebar where
  /-- The pill that is pressed. -/
  dragId : Option ℕ
  /-- Whether the cursor has moved since. -/
  dragging : Bool
  /-- The pill that is drawn as dragged. -/
  dragHoveredId : Option ℕ
  /-- The pill whose tooltip is shown. -/
  tooltipPillId : Option ℕ
  /-- Whether the tooltip is about to be hidden. -/
  tooltipHidePending : Bool
  deriving DecidableEq

namespace Sidebar

/-- The sidebar at the start. -/
def new : Sidebar := ⟨none, false, none, none, false⟩

/-- No pill is pressed. -/
def released (sb : Sidebar) : Sidebar :=
  { sb with dragId := none, dragging := false, dragHoveredId := none }

/-- **What a message does to the sidebar.** -/
def update (sb : Sidebar) : SidebarMsg → Sidebar × Option SidebarEvent
  | .pillPressed id =>
    ({ sb with dragId := some id, dragging := false, dragHoveredId := none }, none)
  | .pillReleased id => (sb.released, if !sb.dragging then some (.tabActivated id) else none)
  | .pillEntered toId =>
    let entered := { sb with tooltipPillId := some toId, tooltipHidePending := false }
    if sb.dragging then
      match sb.dragId with
      | some fromId =>
        -- the pill that is dragged stays the one that was pressed, also after a swap
        ({ entered with dragHoveredId := some fromId },
          if fromId ≠ toId then some (.tabsReordered fromId toId) else none)
      | none => (entered, none)
    else (entered, none)
  | .sidebarMoved => (if sb.dragId.isSome then { sb with dragging := true } else sb, none)
  | .sidebarReleased => (sb.released, none)
  | .dragRequested =>
    (sb, if sb.dragId.isNone && !sb.dragging then some .windowDragRequested else none)
  | .pillLeft _ => ({ sb with tooltipHidePending := true }, some .tooltipPillLeft)
  | .searchPressed => (sb, some .searchRequested)
  | .favoritesPressed => (sb, some .favoritesRequested)
  | .gearPressed => (sb, some .gearRequested)
  | .newTabPressed => (sb, some .newTabRequested)
  | .pillClosePressed id => (sb, some (.tabCloseRequested id))

/-- The time to hide the tooltip has come. -/
def commitHide (sb : Sidebar) : Sidebar :=
  if sb.tooltipHidePending then { sb with tooltipPillId := none, tooltipHidePending := false }
  else sb

end Sidebar

/-! ### The card view -/

/-- How the cards are grouped. -/
inductive CardViewChip where
  | all
  | byMode
  deriving DecidableEq

/-- The keys of the card view. -/
inductive CardNavKey where
  | left
  | right
  | up
  | down
  | enter
  | close
  deriving DecidableEq

/-- The messages to the card view. -/
inductive CardViewMsg where
  | close
  | chipSelected (chip : CardViewChip)
  | cardActivated (id : ℕ)
  | cardClosePressed (id : ℕ)
  | keyNav (key : CardNavKey)

/-- What the card view tells the shell. -/
inductive CardViewEvent where
  | tabActivated (id : ℕ)
  | tabCloseRequested (id : ℕ)
  deriving DecidableEq

/-- **The card view.** -/
structure CardView where
  /-- Whether it is shown. -/
  isOpen : Bool
  /-- How the cards are grouped. -/
  chip : CardViewChip
  /-- The card with the focus. -/
  focusedIdx : Option ℕ
  deriving DecidableEq

namespace CardView

/-- The card view at the start. -/
def new : CardView := ⟨false, .all, none⟩

/-- Show the cards. -/
def openView (cv : CardView) (tabCount : ℕ) : CardView :=
  { cv with isOpen := true, focusedIdx := if tabCount = 0 then none else some 0 }

/-- Hide the cards. -/
def close (cv : CardView) : CardView := { cv with isOpen := false, focusedIdx := none }

/-- The identifiers of the tabs, in the order of the cards. -/
def orderedIds (cv : CardView) (tabs : List TabEntry) : List ℕ :=
  match cv.chip with
  | .all => tabs.map TabEntry.id
  | .byMode =>
    (tabs.filter fun tab => tab.mode = .standard).map TabEntry.id ++
      (tabs.filter fun tab => tab.mode = .strict).map TabEntry.id

/-- The number of cards in a row. -/
def cols : ℕ := 3

/-- The tab of the card with the focus. -/
def focusedId (cv : CardView) (tabs : List TabEntry) : Option ℕ :=
  cv.focusedIdx.bind fun idx => (cv.orderedIds tabs)[idx]?

/-- A key is pressed while the card view shows a card. -/
def keyNav (cv : CardView) (tabs : List TabEntry) : CardNavKey → CardView × Option CardViewEvent
  | .left => ({ cv with focusedIdx := some (cv.focusedIdx.getD 0 - 1) }, none)
  | .right =>
    ({ cv with
        focusedIdx := some (min (cv.focusedIdx.getD 0 + 1) ((cv.orderedIds tabs).length - 1)) },
      none)
  | .up => ({ cv with focusedIdx := some (cv.focusedIdx.getD 0 - cols) }, none)
  | .down =>
    ({ cv with
        focusedIdx := some (min (cv.focusedIdx.getD 0 + cols) ((cv.orderedIds tabs).length - 1)) },
      none)
  | .enter =>
    match cv.focusedId tabs with
    | some id => (cv.close, some (.tabActivated id))
    | none => (cv, none)
  | .close => (cv, (cv.focusedId tabs).map .tabCloseRequested)

/-- **What a message does to the card view.** -/
def update (cv : CardView) (tabs : List TabEntry) : CardViewMsg → CardView × Option CardViewEvent
  | .close => (cv.close, none)
  | .chipSelected chip =>
    ({ cv with chip := chip, focusedIdx := if tabs.isEmpty then none else some 0 }, none)
  | .cardActivated id => (cv.close, some (.tabActivated id))
  | .cardClosePressed id => (cv, some (.tabCloseRequested id))
  | .keyNav key =>
    if (cv.orderedIds tabs).isEmpty then (cv, none) else cv.keyNav tabs key

/-- The cards are the tabs. -/
theorem mem_orderedIds {cv : CardView} {tabs : List TabEntry} {id : ℕ} :
    id ∈ cv.orderedIds tabs ↔ id ∈ tabs.map TabEntry.id := by
  rw [orderedIds]
  split
  · rfl
  · have hmode : ∀ tab : TabEntry, tab.mode = .standard ∨ tab.mode = .strict := fun tab => by
      cases tab.mode <;> simp
    simp only [List.mem_append, List.mem_map, List.mem_filter, decide_eq_true_eq]
    constructor
    · rintro (⟨tab, ⟨htab, -⟩, rfl⟩ | ⟨tab, ⟨htab, -⟩, rfl⟩) <;> exact ⟨tab, htab, rfl⟩
    · rintro ⟨tab, htab, rfl⟩
      exact (hmode tab).imp (fun h => ⟨tab, ⟨htab, h⟩, rfl⟩) fun h => ⟨tab, ⟨htab, h⟩, rfl⟩

theorem mem_of_focusedId {cv : CardView} {tabs : List TabEntry} {id : ℕ}
    (h : cv.focusedId tabs = some id) : id ∈ tabs.map TabEntry.id := by
  obtain ⟨idx, -, hidx⟩ := Option.bind_eq_some_iff.mp h
  exact mem_orderedIds.mp (List.mem_of_getElem? hidx)

end CardView

end Ui

end DevBrowse
