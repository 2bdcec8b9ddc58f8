import DevBrowse.Lib.Text
import DevBrowse.Lib.Transition

/-!
# The history panel

The panel lists the pages that were visited, or those that match what is searched for. One row
of the list may have the focus, and the focus is always on a row that is shown
(`DevBrowse.Ui.HistoryPanel.focusVisible_update`). What the panel shows is settled anew by most
messages, but opening it settles that for the search that is forgotten in the same step; and
all entries are forgotten on a confirmation, whether it was asked for or not. What an open panel
shows is what it should be, and the history is only cleared in the dialog, exactly if neither of
these happens (`DevBrowse.Ui.HistoryPanel.coherent_iff`).

How long the history is kept is not used here and left out.
-/

namespace DevBrowse

namespace Ui

/-- A page that was visited. -/
structure HistoryEntry where
  /-- Its identifier. -/
  id : ℕ
  /-- Its title, empty if there is none. -/
  title : Text
  /-- The domain of its address. -/
  domain : Text
  /-- Its address. -/
  url : Text
  /-- When it was visited, in milliseconds. -/
  timestampMs : Int64
  deriving DecidableEq

/-- What the panel shows. -/
inductive HistoryPhase where
  | loading
  | empty
  | populated
  /-- The entries that match. -/
  | searching
  /-- The dialog that asks whether all entries are to be forgotten. -/
  | clearing
  | loadError
  | corruptedWarning
  deriving DecidableEq

/-- What the panel tells the shell. -/
inductive HistoryEvent where
  | navigate (url : Text)
  | navigateNewTab (url : Text)
  | navigateStrictTab (url : Text)
  | entryDeleted (id : ℕ)
  | allCleared
  deriving DecidableEq

/-- The messages to the panel. -/
inductive HistoryMsg where
  | opened
  | closed
  | entriesLoaded (entries : List HistoryEntry)
  | loadError
  | storageCorrupted
  | searchChanged (q : Text)
  | entryOpen (id : ℕ)
  | entryOpenNewTab (id : ℕ)
  | entryOpenStrictTab (id : ℕ)
  | entryDelete (id : ℕ)
  | focusUp
  | focusDown
  | focusActivate
  | focusDelete
  | clearRequested
  | clearConfirmed
  | clearCancelled
  | clearFailed
  deriving DecidableEq

/-- **The history panel.** -/
structure HistoryPanel where
  /-- Whether it is shown. -/
  isOpen : Bool
  /-- What it shows. -/
  phase : HistoryPhase
  /-- The pages that were visited. -/
  entries : List HistoryEntry
  /-- What is searched for. -/
  searchQuery : Text
  /-- The row that has the focus. -/
  focusedRow : Option ℕ
  /-- The time when it was opened or its entries came, in milliseconds. -/
  nowMs : Int64

/-- The entries that match: a text in the title or the domain, whatever the case. -/
def filtered (query : Text) (entries : List HistoryEntry) : List HistoryEntry :=
  let q := query.toAsciiLowercase
  entries.filter fun e =>
    q.isEmpty || (Text.findStr q e.title.toAsciiLowercase).isSome ||
      (Text.findStr q e.domain.toAsciiLowercase).isSome

/-- The number of entries that match. -/
def visibleCountOf (query : Text) (entries : List HistoryEntry) : ℕ :=
  (filtered query entries).length

namespace HistoryPanel

/-- A panel that is not shown yet. -/
def new (nowMs : Int64) : HistoryPanel := ⟨false, .loading, [], [], none, nowMs⟩

/-- What is to be shown. -/
def recomputePhase (panel : HistoryPanel) : HistoryPhase :=
  if panel.entries.isEmpty then .empty
  else if panel.searchQuery.isEmpty then .populated
  else .searching

/-- The panel that shows what is to be shown. -/
def recomputed (panel : HistoryPanel) : HistoryPanel :=
  { panel with phase := panel.recomputePhase }

/-- The entry of an identifier. -/
def find (panel : HistoryPanel) (id : ℕ) : Option HistoryEntry :=
  panel.entries.find? fun e => e.id = id

/-- The entry of a row that is shown. -/
def rowAt (panel : HistoryPanel) (idx : ℕ) : Option HistoryEntry :=
  (filtered panel.searchQuery panel.entries)[idx]?

/-- **What a message does to the panel**, at a time the clock shows. -/
def update (panel : HistoryPanel) (nowMs : Int64) :
    HistoryMsg → HistoryPanel × Option HistoryEvent
  | .opened =>
    -- the search is forgotten after it was settled what to show
    ({ panel with
        isOpen := true
        phase := panel.recomputePhase
        searchQuery := []
        focusedRow := none
        nowMs := nowMs }, none)
  | .closed =>
    let closed := { panel with isOpen := false, searchQuery := [], focusedRow := none }
    (if closed.phase = .clearing then closed.recomputed else closed, none)
  | .entriesLoaded entries =>
    (recomputed { panel with entries := entries, nowMs := nowMs, focusedRow := none }, none)
  | .loadError => ({ panel with phase := .loadError }, none)
  | .storageCorrupted => ({ panel with phase := .corruptedWarning }, none)
  | .searchChanged q => (recomputed { panel with searchQuery := q, focusedRow := none }, none)
  | .entryOpen id => (panel, (panel.find id).map fun e => .navigate e.url)
  | .entryOpenNewTab id => (panel, (panel.find id).map fun e => .navigateNewTab e.url)
  | .entryOpenStrictTab id => (panel, (panel.find id).map fun e => .navigateStrictTab e.url)
  | .entryDelete id =>
    (recomputed { panel with
        entries := panel.entries.filter fun e => e.id ≠ id
        focusedRow := none }, some (.entryDeleted id))
  | .focusUp =>
    let len := visibleCountOf panel.searchQuery panel.entries
    (if 0 < len then
        { panel with
          focusedRow := some (match panel.focusedRow with
            | none | some 0 => len - 1
            | some i => i - 1) }
      else panel, none)
  | .focusDown =>
    let len := visibleCountOf panel.searchQuery panel.entries
    (if 0 < len then
        { panel with
          focusedRow := some (match panel.focusedRow with
            | none => 0
            | some i => (i + 1) % len) }
      else panel, none)
  | .focusActivate =>
    (panel, (panel.focusedRow.bind panel.rowAt).map fun e => .navigate e.url)
  | .focusDelete =>
    match panel.focusedRow with
    | none => (panel, none)
    | some idx =>
      match panel.rowAt idx with
      | none => (panel, none)
      | some entry =>
        let entries := panel.entries.filter fun e => e.id ≠ entry.id
        let len := visibleCountOf panel.searchQuery entries
        (recomputed { panel with
            entries := entries
            focusedRow := if len = 0 then none else some (min idx (len - 1)) },
          some (.entryDeleted entry.id))
  | .clearRequested =>
    (if panel.phase = .populated ∨ panel.phase = .searching then
        { panel with phase := .clearing }
      else panel, none)
  | .clearConfirmed =>
    ({ panel with entries := [], searchQuery := [], focusedRow := none, phase := .empty },
      some .allCleared)
  | .clearCancelled => (panel.recomputed, none)
  | .clearFailed => (panel.recomputed, none)

/-! ### The focus -/

/-- The focus is on a row that is shown. -/
def FocusVisible (panel : HistoryPanel) : Prop :=
  ∀ i, panel.focusedRow = some i → i < visibleCountOf panel.searchQuery panel.entries

variable {panel panel' start : HistoryPanel} {nowMs : Int64} {msg : HistoryMsg}

theorem focusVisible_of_none (h : panel.focusedRow = none) : FocusVisible panel := by
  intro i hi
  rw [h] at hi
  cases hi

/-- A row of the list may have the focus. -/
theorem focusVisible_of_some {i : ℕ} (h : panel.focusedRow = some i)
    (hi : i < visibleCountOf panel.searchQuery panel.entries) : FocusVisible panel := by
  intro j hj
  obtain rfl := Option.some.inj (h.symm.trans hj)
  exact hi

theorem focusVisible_focusUp (h : FocusVisible panel) :
    FocusVisible (panel.update nowMs .focusUp).1 := by
  simp only [update]
  split
  · rename_i hlen
    refine focusVisible_of_some rfl ?_
    -- the row above, or the last one from the first
    cases hfocus : panel.focusedRow with
    | none => exact Nat.sub_one_lt_of_lt hlen
    | some i =>
      have hi := h i hfocus
      cases i with
      | zero => exact Nat.sub_one_lt_of_lt hlen
      | succ i => exact Nat.lt_of_succ_lt hi
  · exact h

theorem focusVisible_focusDown (h : FocusVisible panel) :
    FocusVisible (panel.update nowMs .focusDown).1 := by
  simp only [update]
  split
  · rename_i hlen
    refine focusVisible_of_some rfl ?_
    -- the row below, or the first one from the last
    cases panel.focusedRow with
    | none => exact hlen
    | some i => exact Nat.mod_lt _ hlen
  · exact h

theorem focusVisible_focusDelete (h : FocusVisible panel) :
    FocusVisible (panel.update nowMs .focusDelete).1 := by
  simp only [update]
  split
  · exact h
  · rename_i idx _
    split
    · exact h
    · rename_i entry _
      by_cases hlen : visibleCountOf panel.searchQuery
          (panel.entries.filter fun e => e.id ≠ entry.id) = 0
      · exact focusVisible_of_none (if_pos hlen)
      · refine focusVisible_of_some (if_neg hlen) ?_
        exact Nat.lt_of_le_of_lt (Nat.min_le_right _ _) (Nat.sub_one_lt hlen)

/-- **The focus stays on a row that is shown.** -/
theorem focusVisible_update (h : FocusVisible panel) :
    FocusVisible (panel.update nowMs msg).1 := by
  cases msg with
  | opened | entriesLoaded | searchChanged | entryDelete | clearConfirmed =>
    exact focusVisible_of_none rfl
  | closed =>
    refine focusVisible_of_none ?_
    rw [update]
    split <;> rfl
  | loadError | storageCorrupted | entryOpen | entryOpenNewTab | entryOpenStrictTab |
      focusActivate | clearCancelled | clearFailed => exact h
  | clearRequested =>
    rw [update]
    split <;> exact h
  | focusUp => exact focusVisible_focusUp h
  | focusDown => exact focusVisible_focusDown h
  | focusDelete => exact focusVisible_focusDelete h

/-! ### What is shown -/

/-- An open panel that lists entries, or none, shows what is to be shown. -/
def Settled (panel : HistoryPanel) : Prop :=
  panel.isOpen = true →
    panel.phase = .empty ∨ panel.phase = .populated ∨ panel.phase = .searching →
    panel.phase = panel.recomputePhase

theorem settled_recomputed (panel : HistoryPanel) : Settled panel.recomputed := fun _ _ => rfl

/-- **Opening the panel shows the right thing** exactly if nothing was searched for, or there is
nothing to show. -/
theorem settled_opened_iff : Settled (panel.update nowMs .opened).1 ↔
    panel.searchQuery = [] ∨ panel.entries = [] := by
  cases hentries : panel.entries with
  | nil => simp [Settled, update, recomputePhase, hentries]
  | cons e entries =>
    cases hquery : panel.searchQuery with
    | nil => simp [Settled, update, recomputePhase, hentries, hquery]
    | cons c q => simp [Settled, update, recomputePhase, hentries, hquery]

/-- **All other messages keep that the right thing is shown.** -/
theorem settled_update (h : Settled panel) (hmsg : msg ≠ .opened) :
    Settled (panel.update nowMs msg).1 := by
  cases msg with
  | opened => exact absurd rfl hmsg
  | closed =>
    have hclosed : (panel.update nowMs .closed).1.isOpen = false := by
      rw [update]
      split <;> rfl
    intro hopen
    rw [hclosed] at hopen
    cases hopen
  | entriesLoaded | searchChanged | entryDelete | clearCancelled | clearFailed =>
    exact settled_recomputed _
  | loadError | storageCorrupted =>
    rintro - (hphase | hphase | hphase) <;> cases hphase
  | entryOpen | entryOpenNewTab | entryOpenStrictTab | focusActivate => exact h
  | focusUp | focusDown =>
    rw [update]
    split <;> exact h
  | focusDelete =>
    rw [update]
    split
    · exact h
    · split
      · exact h
      · exact settled_recomputed _
  | clearRequested =>
    rw [update]
    split
    · rintro - (hphase | hphase | hphase) <;> cases hphase
    · exact h
  | clearConfirmed => exact fun _ _ => rfl

/-! ### What the shell is told -/

/-- **The shell is told to forget everything** on a confirmation, and only then. -/
theorem allCleared_iff :
    (panel.update nowMs msg).2 = some .allCleared ↔ msg = .clearConfirmed := by
  cases msg with
  | entryOpen | entryOpenNewTab | entryOpenStrictTab => simp [update, Option.map_eq_some_iff]
  | focusActivate =>
    simp only [update]
    cases panel.focusedRow.bind panel.rowAt <;> simp
  | focusDelete =>
    simp only [update]
    split
    · simp
    · split <;> simp
  | _ => simp [update]

/-- **The entry the shell is told to forget** is the one that was chosen, or that of the row with
the focus. -/
theorem entryDeleted_iff {id : ℕ} :
    (panel.update nowMs msg).2 = some (.entryDeleted id) ↔
      msg = .entryDelete id ∨
        msg = .focusDelete ∧ ∃ i entry, panel.focusedRow = some i ∧
          panel.rowAt i = some entry ∧ entry.id = id := by
  cases msg with
  | entryOpen | entryOpenNewTab | entryOpenStrictTab => simp [update, Option.map_eq_some_iff]
  | focusActivate =>
    simp only [update]
    cases panel.focusedRow.bind panel.rowAt <;> simp
  | entryDelete id' => simp [update]
  | focusDelete =>
    simp only [update]
    split
    · simp_all
    · rename_i idx hfocus
      split
      · simp_all
      · simp_all
  | _ => simp [update]

/-! ### Every run -/

open Transition (Step Run ofFun run_cons run_nil)

/-- One message to the panel, at a time the clock shows. -/
def step (panel : HistoryPanel) (input : HistoryMsg × Int64) : Option HistoryPanel :=
  some (panel.update input.2 input.1).1

/-- What the shell is told in a step. -/
def emitted (x : Step HistoryPanel (HistoryMsg × Int64)) : Option HistoryEvent :=
  (x.pre.update x.input.2 x.input.1).2

/-- **A step of the panel is coherent**: the focus is on a row that is shown, an open panel shows
what is to be shown, everything is forgotten in the dialog only, and an entry that is
forgotten is the one that was chosen or that had the focus. -/
structure Coherent (x : Step HistoryPanel (HistoryMsg × Int64)) : Prop where
  /-- The focus is on a row that is shown. -/
  focus : FocusVisible x.post
  /-- An open panel shows what is to be shown. -/
  settled : Settled x.post
  /-- Everything is forgotten on a confirmation in the dialog only. -/
  cleared : emitted x = some .allCleared →
    x.input.1 = .clearConfirmed ∧ x.pre.phase = .clearing
  /-- An entry is forgotten where it was chosen or has the focus. -/
  deleted : ∀ id, emitted x = some (.entryDeleted id) →
    x.input.1 = .entryDelete id ∨
      x.input.1 = .focusDelete ∧ ∃ i entry, x.pre.focusedRow = some i ∧
        x.pre.rowAt i = some entry ∧ entry.id = id

/-- The panel is opened where nothing is searched for or there is nothing to show, and a
confirmation comes while the dialog is shown. -/
structure InOrder (x : Step HistoryPanel (HistoryMsg × Int64)) : Prop where
  /-- The panel is opened where nothing is searched for or there is nothing to show. -/
  opened : x.input.1 = .opened → x.pre.searchQuery = [] ∨ x.pre.entries = []
  /-- A confirmation comes while the dialog is shown. -/
  confirmed : x.input.1 = .clearConfirmed → x.pre.phase = .clearing

variable {tr : List (Step HistoryPanel (HistoryMsg × Int64))}
  {x : Step HistoryPanel (HistoryMsg × Int64)}

/-- **A step is coherent exactly if it is in order**, from a panel that is. -/
theorem coherent_step (hfocus : FocusVisible x.pre) (hsettled : Settled x.pre)
    (hstep : ofFun step x.pre x.input x.post) : Coherent x ↔ InOrder x := by
  obtain ⟨pre, ⟨msg, nowMs⟩, post⟩ := x
  obtain rfl : (pre.update nowMs msg).1 = post := Option.some.inj hstep
  constructor
  · intro h
    refine ⟨?_, fun hmsg => (h.cleared (allCleared_iff.mpr hmsg)).2⟩
    intro hmsg
    obtain rfl : msg = .opened := hmsg
    exact settled_opened_iff.mp h.settled
  · intro h
    refine ⟨focusVisible_update hfocus, ?_, fun hevent => ?_, fun id => entryDeleted_iff.mp⟩
    · by_cases hmsg : msg = .opened
      · subst hmsg
        exact settled_opened_iff.mpr (h.opened rfl)
      · exact settled_update hsettled hmsg
    · have hmsg : msg = .clearConfirmed := allCleared_iff.mp hevent
      exact ⟨hmsg, h.confirmed hmsg⟩

/-- **The panel is coherent in every step exactly if every step is in order**: it is opened where
nothing is searched for or there is nothing to show, and a confirmation comes while the dialog
is shown. -/
theorem coherent_iff (h : Run (ofFun step) (new nowMs) tr panel) :
    (∀ x ∈ tr, Coherent x) ↔ ∀ x ∈ tr, InOrder x := by
  have init : FocusVisible (new nowMs) ∧ Settled (new nowMs) :=
    ⟨focusVisible_of_none rfl, fun hopen => absurd hopen Bool.false_ne_true⟩
  refine h.forall_iff (I := fun panel => FocusVisible panel ∧ Settled panel) init ?_ ?_
  · rintro s i s' ⟨hfocus, hsettled⟩ hstep hx
    exact (coherent_step hfocus hsettled hstep).mp hx
  · rintro s i s' ⟨hfocus, hsettled⟩ hstep hx
    have hcoherent := (coherent_step hfocus hsettled hstep).mpr hx
    exact ⟨hcoherent, hcoherent.focus, hcoherent.settled⟩

instance : Decidable (InOrder x) :=
  decidable_of_iff
    ((x.input.1 = .opened → x.pre.searchQuery = [] ∨ x.pre.entries = []) ∧
      (x.input.1 = .clearConfirmed → x.pre.phase = .clearing))
    ⟨fun h => ⟨h.1, h.2⟩, fun h => ⟨h.opened, h.confirmed⟩⟩

/-- A page that was visited. -/
def examplePage : HistoryEntry := ⟨1, "Example".toList, "example.org".toList, [], 0⟩

/-- A page that was visited later. -/
def laterPage : HistoryEntry := ⟨2, "Another example".toList, "another.org".toList, [], 60000⟩

/-- Two pages are there, and match what is searched for. The keys move the focus to the second
one and forget it, and everything is forgotten in the dialog. -/
theorem coherent_iff_session :
    ∃ tr panel, Run (ofFun step) (new 0) tr panel ∧
      tr.map Step.input = [(.opened, 70000), (.entriesLoaded [laterPage, examplePage], 70001),
        (.searchChanged ['e', 'x', 'a'], 70002), (.focusDown, 70003), (.focusDown, 70004),
        (.focusDelete, 70005), (.clearRequested, 70006), (.clearCancelled, 70007),
        (.clearRequested, 70008), (.clearConfirmed, 70009), (.closed, 70010)] ∧
      tr.filterMap emitted = [.entryDeleted examplePage.id, .allCleared] ∧
      ∀ x ∈ tr, Coherent x := by
  have hexec : (Transition.exec step (new 0) [(.opened, 70000),
      (.entriesLoaded [laterPage, examplePage], 70001), (.searchChanged ['e', 'x', 'a'], 70002),
      (.focusDown, 70003), (.focusDown, 70004), (.focusDelete, 70005), (.clearRequested, 70006),
      (.clearCancelled, 70007), (.clearRequested, 70008), (.clearConfirmed, 70009),
      (.closed, 70010)]).any (fun p =>
        decide (p.1.filterMap emitted = [.entryDeleted examplePage.id, .allCleared] ∧
          ∀ x ∈ p.1, InOrder x)) = true := by
    decide +kernel
  obtain ⟨tr, panel, hrun, hinputs, htest⟩ := Transition.exists_run_where hexec
  obtain ⟨hevents, horder⟩ := of_decide_eq_true htest
  exact ⟨tr, panel, hrun, hinputs, hevents, (coherent_iff hrun).mpr horder⟩

/-- **The panel is opened while something is searched for**, and shows an open search for nothing;
in another run a page is there, and everything is forgotten without the dialog. -/
theorem not_coherent :
    (∃ tr panel, Run (ofFun step) (new 0) tr panel ∧
      tr.map Step.input = [(.entriesLoaded [examplePage], 0), (.searchChanged ['a'], 0),
        (.opened, 0)] ∧
      panel.isOpen = true ∧ panel.phase = .searching ∧ panel.recomputePhase = .populated ∧
      ¬ ∀ x ∈ tr, Coherent x) ∧
    ∃ tr panel, Run (ofFun step) (new 0) tr panel ∧
      tr.map Step.input = [(.opened, 0), (.entriesLoaded [examplePage], 0),
        (.clearConfirmed, 0)] ∧
      (∃ x ∈ tr, emitted x = some .allCleared ∧ x.pre.phase = .populated) ∧
      ¬ ∀ x ∈ tr, Coherent x := by
  constructor
  · let s₁ := ((new 0).update 0 (.entriesLoaded [examplePage])).1
    let s₂ := (s₁.update 0 (.searchChanged ['a'])).1
    let s₃ := (s₂.update 0 .opened).1
    refine ⟨[⟨new 0, (.entriesLoaded [examplePage], 0), s₁⟩, ⟨s₁, (.searchChanged ['a'], 0), s₂⟩,
      ⟨s₂, (.opened, 0), s₃⟩], s₃, ?_, rfl, rfl, rfl, rfl, fun h => ?_⟩
    · exact ((Run.nil.snoc rfl).snoc rfl).snoc rfl
    have hlast : s₃.phase = s₃.recomputePhase :=
      (h ⟨s₂, (.opened, 0), s₃⟩ (by simp)).settled rfl (by decide)
    exact absurd hlast (by decide)
  · let s₁ := ((new 0).update 0 .opened).1
    let s₂ := (s₁.update 0 (.entriesLoaded [examplePage])).1
    let s₃ := (s₂.update 0 .clearConfirmed).1
    refine ⟨[⟨new 0, (.opened, 0), s₁⟩, ⟨s₁, (.entriesLoaded [examplePage], 0), s₂⟩,
      ⟨s₂, (.clearConfirmed, 0), s₃⟩], s₃, ?_, rfl,
      ⟨⟨s₂, (.clearConfirmed, 0), s₃⟩, by simp, rfl, rfl⟩, fun h => ?_⟩
    · exact ((Run.nil.snoc rfl).snoc rfl).snoc rfl
    have hlast := (h ⟨s₂, (.clearConfirmed, 0), s₃⟩ (by simp)).cleared rfl
    exact absurd hlast.2 (by decide)

end HistoryPanel

end Ui

end DevBrowse
