import DevBrowse.Identity.Registry
import Mathlib.Data.Finset.Max

/-!
# The renderer scheduler

The scheduler decides whether a tab reuses a renderer process or needs a fresh one,
and tracks which tabs live on which renderer. Its rule is that two tabs may share a
renderer only if both profiles are in Standard mode and have the same `profile_id`.

Every operation is followed by the one lemma its callers use: what it returned, and
what that says about the slots.
-/

namespace DevBrowse

namespace Identity

/-- A renderer process, as the lifecycle layer numbers them. -/
structure RendererId where
  /-- The number minted for it. -/
  val : ℕ
  deriving DecidableEq

/-- A tab, as the lifecycle layer numbers them. -/
structure TabId where
  /-- The number minted for it. -/
  val : ℕ
  deriving DecidableEq

instance : LinearOrder TabId :=
  LinearOrder.lift' TabId.val fun a b h => by cases a; cases b; exact congrArg _ h

/-- What the scheduler answers to a tab that needs a renderer. -/
inductive RendererDecision where
  /-- Reuse this renderer. -/
  | reuse (renderer : RendererId)
  /-- Spawn a fresh renderer. -/
  | spawnNew
  deriving DecidableEq

/-- The errors of the scheduler. -/
inductive SchedulerError where
  /-- The renderer is not registered, or not for this identity. -/
  | unknownRenderer (renderer : RendererId)
  /-- The renderer is already registered. -/
  | duplicateRenderer (renderer : RendererId)
  /-- The tab is not attached to the renderer. -/
  | tabNotAttached (renderer : RendererId) (tab : TabId)
  /-- The tab is already attached to the renderer. -/
  | tabAlreadyAttached (renderer : RendererId) (tab : TabId)
  deriving DecidableEq

/-- The bookkeeping of one renderer: the sharing key, and the tabs on it. -/
structure RendererSlot where
  /-- The profile the renderer was spawned for. -/
  profileId : Uuid
  /-- The mode it was spawned in. -/
  mode : Mode
  /-- The tabs attached to it. -/
  tabs : Finset TabId
  deriving DecidableEq

/-- The scheduler: the registered renderers. -/
structure Scheduler where
  /-- The slot of each registered renderer. -/
  renderers : HashMap RendererId RendererSlot

namespace Scheduler

/-- The scheduler without renderers. -/
def new : Scheduler := ⟨∅⟩

/-- Reuse a renderer or spawn a fresh one. The loop over the slots stops at the first
matching one in the order of iteration. -/
def schedule (s : Scheduler) (profile : IdentityProfile) : RendererDecision :=
  -- Strict short-circuits before any comparison of profiles.
  if profile.mode = .strict then .spawnNew
  else
    match s.renderers.findEntry fun slot =>
        slot.mode = .standard && slot.profileId = profile.profileId with
    | some (id, _) => .reuse id
    | none => .spawnNew

/-- Register a freshly spawned renderer, with no tabs yet. -/
def registerRenderer (s : Scheduler) (renderer : RendererId) (profile : IdentityProfile) :
    Except SchedulerError Scheduler :=
  if renderer ∈ s.renderers then .error (.duplicateRenderer renderer)
  else .ok ⟨s.renderers.insert renderer ⟨profile.profileId, profile.mode, ∅⟩⟩

/-- Attach a tab to a registered renderer of the tab's own identity. A Strict slot
that holds a tab is refused with a tab it holds; which one is up to the set's
iteration, and the least is reported here. -/
def attachTab (s : Scheduler) (renderer : RendererId) (tab : TabId) (profile : IdentityProfile) :
    Except SchedulerError Scheduler :=
  match s.renderers.lookup renderer with
  | none => .error (.unknownRenderer renderer)
  | some slot =>
    if slot.profileId ≠ profile.profileId ∨ slot.mode ≠ profile.mode then
      .error (.unknownRenderer renderer)
    else if h : slot.mode = .strict ∧ slot.tabs.Nonempty then
      .error (.tabAlreadyAttached renderer (slot.tabs.min' h.2))
    else if tab ∈ slot.tabs then .error (.tabAlreadyAttached renderer tab)
    else .ok ⟨s.renderers.insert renderer { slot with tabs := insert tab slot.tabs }⟩

/-- Detach a tab; the renderer stays registered even when it is left without tabs. -/
def detachTab (s : Scheduler) (renderer : RendererId) (tab : TabId) :
    Except SchedulerError Scheduler :=
  match s.renderers.lookup renderer with
  | none => .error (.unknownRenderer renderer)
  | some slot =>
    if tab ∈ slot.tabs then
      .ok ⟨s.renderers.insert renderer { slot with tabs := slot.tabs.erase tab }⟩
    else .error (.tabNotAttached renderer tab)

/-- Retire a renderer, returning the tabs that were still on it. -/
def retireRenderer (s : Scheduler) (renderer : RendererId) :
    Except SchedulerError (Finset TabId × Scheduler) :=
  match s.renderers.lookup renderer with
  | none => .error (.unknownRenderer renderer)
  | some slot => .ok (slot.tabs, ⟨s.renderers.erase renderer⟩)

/-- The number of tabs on a renderer, if it is registered. -/
def tabCount (s : Scheduler) (renderer : RendererId) : Option ℕ :=
  (s.renderers.lookup renderer).map fun slot => slot.tabs.card

/-- Whether a renderer is registered. -/
def isRegistered (s : Scheduler) (renderer : RendererId) : Bool :=
  decide (renderer ∈ s.renderers)

variable {s : Scheduler} {renderer : RendererId} {tab : TabId} {profile : IdentityProfile}
  {slot : RendererSlot}

theorem isRegistered_iff :
    s.isRegistered renderer = true ↔ ∃ slot, s.renderers.lookup renderer = some slot := by
  rw [isRegistered, decide_eq_true_iff, HashMap.mem_iff_lookup]

/-- **A reused renderer is a Standard one of the same profile**, and the profile that
reuses it is Standard. -/
theorem of_schedule_reuse (h : s.schedule profile = .reuse renderer) :
    profile.mode = .standard ∧ ∃ slot, s.renderers.lookup renderer = some slot ∧
      slot.mode = .standard ∧ slot.profileId = profile.profileId := by
  unfold schedule at h
  split at h
  · simp at h
  · rename_i hmode
    split at h
    · rename_i id slot hfind
      obtain rfl : id = renderer := by simpa using h
      obtain ⟨hslot, hp⟩ := HashMap.lookup_of_findEntry hfind
      refine ⟨?_, slot, hslot, by simpa using hp⟩
      cases hm : profile.mode with
      | standard => rfl
      | strict => exact absurd hm hmode
    · simp at h

/-- **A fresh renderer is asked for** by a Strict profile, or where no Standard
renderer of the profile is registered. -/
theorem of_schedule_spawnNew (h : s.schedule profile = .spawnNew) :
    profile.mode = .strict ∨ ∀ r slot, s.renderers.lookup r = some slot →
      slot.mode = .standard → slot.profileId ≠ profile.profileId := by
  unfold schedule at h
  split at h
  · rename_i hmode
    exact Or.inl hmode
  · split at h
    · simp at h
    · rename_i hfind
      refine Or.inr fun r slot hslot hstd hid => ?_
      have := HashMap.not_of_findEntry_eq_none hfind hslot
      simp [hstd, hid] at this

theorem registerRenderer_eq (h : s.renderers.lookup renderer = none) :
    s.registerRenderer renderer profile =
      .ok ⟨s.renderers.insert renderer ⟨profile.profileId, profile.mode, ∅⟩⟩ :=
  if_neg (AList.lookup_eq_none.mp h)

theorem attachTab_eq (hslot : s.renderers.lookup renderer = some slot)
    (hid : slot.profileId = profile.profileId) (hmode : slot.mode = profile.mode)
    (hstrict : slot.mode = .strict → slot.tabs = ∅) (htab : tab ∉ slot.tabs) :
    s.attachTab renderer tab profile =
      .ok ⟨s.renderers.insert renderer { slot with tabs := insert tab slot.tabs }⟩ := by
  have h1 : ¬(slot.profileId ≠ profile.profileId ∨ slot.mode ≠ profile.mode) := by
    rintro (h | h)
    · exact h hid
    · exact h hmode
  have h2 : ¬(slot.mode = .strict ∧ slot.tabs.Nonempty) := by
    rintro ⟨hm, hne⟩
    rw [hstrict hm] at hne
    exact Finset.not_nonempty_empty hne
  simp only [attachTab, hslot]
  rw [if_neg h1, dif_neg h2, if_neg htab]

theorem detachTab_eq (hslot : s.renderers.lookup renderer = some slot) (htab : tab ∈ slot.tabs) :
    s.detachTab renderer tab =
      .ok ⟨s.renderers.insert renderer { slot with tabs := slot.tabs.erase tab }⟩ := by
  simp only [detachTab, hslot]
  rw [if_pos htab]

theorem retireRenderer_eq (hslot : s.renderers.lookup renderer = some slot) :
    s.retireRenderer renderer = .ok (slot.tabs, ⟨s.renderers.erase renderer⟩) := by
  simp only [retireRenderer, hslot]

theorem tabCount_eq (hslot : s.renderers.lookup renderer = some slot) :
    s.tabCount renderer = some slot.tabs.card := by
  rw [tabCount, hslot, Option.map_some]

end Scheduler

end Identity

end DevBrowse
