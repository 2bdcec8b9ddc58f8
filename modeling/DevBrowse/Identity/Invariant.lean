import DevBrowse.Identity.Lifecycle

/-!
# What every run of the lifecycle manager keeps

The tab records and the scheduler's slots are two maps that five operations change
separately, some of them through several fallible steps. This file finds the invariant
that holds them together, `DevBrowse.Identity.LifecycleManager.Consistent`, and shows
that under it the fallible steps do not fail: a spawn of a known profile always
succeeds (`spawnTab_cases`), a close of a recorded tab always succeeds
(`closeTab_cases`), and the renderer a tab was just detached from is still known.

Ids are handed out by counters that only go up, so the history of a run carries the
second half of the argument: the tabs a run has spawned have pairwise distinct
numbers, and each is bound to the one profile it was spawned for
(`DevBrowse.Identity.LifecycleManager.Bound`).
-/

namespace DevBrowse

namespace Identity

namespace LifecycleManager

/-- The slot of a renderer, if it is registered. -/
def slot (lm : LifecycleManager) (r : RendererId) : Option RendererSlot :=
  lm.scheduler.renderers.lookup r

/-- **The tab records and the renderer slots agree.** -/
structure Consistent (lm : LifecycleManager) : Prop where
  /-- A recorded tab is in the slot of the renderer its record names. -/
  in_slot : ∀ t rec, lm.tabs.lookup t = some rec →
    ∃ s, lm.slot rec.renderer = some s ∧ t ∈ s.tabs
  /-- A tab in a slot is recorded, and its record names that renderer. -/
  recorded : ∀ r s t, lm.slot r = some s → t ∈ s.tabs →
    ∃ rec, lm.tabs.lookup t = some rec ∧ rec.renderer = r
  /-- A registered renderer has a tab. -/
  nonempty : ∀ r s, lm.slot r = some s → s.tabs.Nonempty
  /-- A Strict renderer has exactly one. -/
  strict_card : ∀ r s, lm.slot r = some s → s.mode = .strict → s.tabs.card = 1
  /-- A tab was spawned for the profile of its renderer. -/
  same_profile : ∀ t rec s, lm.tabs.lookup t = some rec → lm.slot rec.renderer = some s →
    rec.profileId = s.profileId
  /-- A profile has at most one Standard renderer. -/
  standard_unique : ∀ r r' s s', lm.slot r = some s → lm.slot r' = some s' →
    s.mode = .standard → s'.mode = .standard → s.profileId = s'.profileId → r = r'
  /-- Tab numbers in use have been minted. -/
  tab_lt : ∀ t rec, lm.tabs.lookup t = some rec → t.val < lm.nextTabId
  /-- Renderer numbers in use have been minted. -/
  renderer_lt : ∀ r s, lm.slot r = some s → r.val < lm.nextRendererId
  /-- A tab has a suspend reason exactly when it is suspended. -/
  suspended_iff : ∀ t rec, lm.tabs.lookup t = some rec →
    (rec.suspendReason.isSome = true ↔ rec.state = .suspended)

theorem consistent_new (registry : ProfileRegistry) : Consistent (new registry) := by
  constructor <;> simp [new, slot, Scheduler.new]

variable {lm : LifecycleManager} {t : TabId} {r : RendererId} {pid : Uuid}
  {p : IdentityProfile} {s : RendererSlot} {rec : TabRecord}

theorem Consistent.fresh_tab (h : Consistent lm) : lm.tabs.lookup ⟨lm.nextTabId⟩ = none := by
  by_contra hne
  obtain ⟨rec, hrec⟩ := Option.ne_none_iff_exists'.mp hne
  exact absurd (h.tab_lt _ _ hrec) (lt_irrefl _)

theorem Consistent.fresh_tab_slot (h : Consistent lm) (hs : lm.slot r = some s) :
    ⟨lm.nextTabId⟩ ∉ s.tabs := by
  intro hmem
  obtain ⟨rec, hrec, -⟩ := h.recorded _ _ _ hs hmem
  exact absurd (h.fresh_tab.symm.trans hrec) (by simp)

theorem Consistent.fresh_renderer (h : Consistent lm) : lm.slot ⟨lm.nextRendererId⟩ = none := by
  by_contra hne
  obtain ⟨s, hs⟩ := Option.ne_none_iff_exists'.mp hne
  exact absurd (h.renderer_lt _ _ hs) (lt_irrefl _)

/-! ### Spawning -/

/-- The manager with one more tab, numbered by the counter, on the renderer `r`, whose
slot becomes `s`. -/
def place (lm : LifecycleManager) (r : RendererId) (s : RendererSlot) (pid : Uuid) :
    LifecycleManager :=
  { lm with
    scheduler := ⟨lm.scheduler.renderers.insert r s⟩
    tabs := lm.tabs.insert ⟨lm.nextTabId⟩ ⟨pid, r, .active, none⟩
    nextTabId := lm.nextTabId + 1
    nextRendererId := max lm.nextRendererId (r.val + 1) }

/-- **What a spawn of a known profile does**: it joins the Standard renderer of the
profile, or it registers a fresh renderer holding the new tab alone. It does not
fail. -/
theorem spawnTab_cases (h : Consistent lm) (hp : lm.registry.get pid = some p) :
    (∃ r s, lm.slot r = some s ∧ s.mode = .standard ∧ p.mode = .standard ∧ s.profileId = pid ∧
      lm.spawnTab pid = (.ok (.attachToExisting r ⟨lm.nextTabId⟩ pid),
        lm.place r { s with tabs := insert ⟨lm.nextTabId⟩ s.tabs } pid)) ∨
    ((p.mode = .standard → ∀ r s, lm.slot r = some s → s.mode = .standard → s.profileId ≠ pid) ∧
      lm.spawnTab pid =
        (.ok (.spawnRenderer ⟨lm.nextRendererId⟩ ⟨lm.nextTabId⟩ pid p.mode),
        lm.place ⟨lm.nextRendererId⟩ ⟨pid, p.mode, {⟨lm.nextTabId⟩}⟩ pid)) := by
  obtain rfl : p.profileId = pid := ProfileRegistry.profileId_of_get hp
  cases hdec : lm.scheduler.schedule p with
  | reuse r =>
    obtain ⟨hpm, s, hs, hsm, hsp⟩ := Scheduler.of_schedule_reuse hdec
    have hattach : lm.scheduler.attachTab r ⟨lm.nextTabId⟩ p = _ :=
      Scheduler.attachTab_eq hs hsp (hsm.trans hpm.symm)
        (fun hstrict => by rw [hsm] at hstrict; simp at hstrict) (h.fresh_tab_slot hs)
    have hmax : max lm.nextRendererId (r.val + 1) = lm.nextRendererId :=
      max_eq_left (h.renderer_lt _ _ hs)
    refine Or.inl ⟨r, s, hs, hsm, hpm, hsp, ?_⟩
    simp only [spawnTab, hp, mintTab, hdec, hattach, place, hmax]
  | spawnNew =>
    have hreg : lm.scheduler.registerRenderer ⟨lm.nextRendererId⟩ p = _ :=
      Scheduler.registerRenderer_eq h.fresh_renderer
    have hattach : Scheduler.attachTab ⟨lm.scheduler.renderers.insert ⟨lm.nextRendererId⟩
        ⟨p.profileId, p.mode, ∅⟩⟩ ⟨lm.nextRendererId⟩ ⟨lm.nextTabId⟩ p = _ :=
      Scheduler.attachTab_eq (AList.lookup_insert _) rfl rfl (fun _ => rfl)
        (Finset.notMem_empty _)
    refine Or.inr ⟨fun hpm => ?_, ?_⟩
    · rcases Scheduler.of_schedule_spawnNew hdec with hstrict | hnone
      · rw [hpm] at hstrict
        simp at hstrict
      · exact hnone
    · simp only [spawnTab, hp, mintTab, hdec, mintRenderer, hreg, hattach, place,
        AList.insert_insert]
      simp

theorem slot_place (pid : Uuid) (r' : RendererId) :
    (lm.place r s pid).slot r' = if r' = r then some s else lm.slot r' :=
  HashMap.lookup_insert_eq _ _ _ _

/-- A slot after a tab was placed is the new one or was there before. -/
theorem slot_place_cases {s' : RendererSlot} {r' : RendererId}
    (hs' : (lm.place r s pid).slot r' = some s') :
    r' = r ∧ s' = s ∨ r' ≠ r ∧ lm.slot r' = some s' :=
  HashMap.lookup_insert_cases hs'

/-- Placing a tab on a renderer keeps the records and the slots in agreement, where the
new slot is the old one with the tab added and respects the sharing rule. -/
theorem Consistent.place (h : Consistent lm)
    (htabs : ∀ t, t ∈ s.tabs ↔ t = ⟨lm.nextTabId⟩ ∨ ∃ s₀, lm.slot r = some s₀ ∧ t ∈ s₀.tabs)
    (hstrict : s.mode = .strict → s.tabs.card = 1)
    (hsame : ∀ s₀, lm.slot r = some s₀ → s₀.profileId = s.profileId)
    (hunique : s.mode = .standard → ∀ r' s', lm.slot r' = some s' → s'.mode = .standard →
      s'.profileId = s.profileId → r' = r) :
    Consistent (lm.place r s s.profileId) := by
  have hold : ∀ t rec, lm.tabs.lookup t = some rec → t ≠ ⟨lm.nextTabId⟩ := by
    rintro t rec hlook rfl
    rw [h.fresh_tab] at hlook
    cases hlook
  obtain ⟨hin, hrec, hne, hcard, hprof, huniq, htab, hren, hsus⟩ := h
  constructor
  case in_slot =>
    intro t rec hlook
    rw [slot_place]
    rcases HashMap.lookup_insert_cases hlook with ⟨hnew, rfl⟩ | ⟨-, hlook₀⟩
    · exact ⟨s, if_pos rfl, (htabs t).mpr (.inl hnew)⟩
    · obtain ⟨s', hs', hmem⟩ := hin t rec hlook₀
      by_cases hr : rec.renderer = r
      · exact ⟨s, if_pos hr, (htabs t).mpr (.inr ⟨s', hr ▸ hs', hmem⟩)⟩
      · exact ⟨s', (if_neg hr).trans hs', hmem⟩
  case recorded =>
    intro r' s' t hs' hmem
    have hkept : ∀ s₀, lm.slot r' = some s₀ → t ∈ s₀.tabs →
        ∃ rec, (lm.place r s s.profileId).tabs.lookup t = some rec ∧ rec.renderer = r' := by
      intro s₀ hs₀ hmem₀
      obtain ⟨rec, hlook, hr⟩ := hrec r' s₀ t hs₀ hmem₀
      exact ⟨rec, (AList.lookup_insert_ne (hold t rec hlook)).trans hlook, hr⟩
    rcases slot_place_cases hs' with ⟨rfl, rfl⟩ | ⟨-, hs₀⟩
    · rcases (htabs t).mp hmem with rfl | ⟨s₀, hs₀, hmem₀⟩
      · exact ⟨_, AList.lookup_insert _, rfl⟩
      · exact hkept s₀ hs₀ hmem₀
    · exact hkept s' hs₀ hmem
  case nonempty =>
    intro r' s' hs'
    rcases slot_place_cases hs' with ⟨-, rfl⟩ | ⟨-, hs₀⟩
    · exact ⟨_, (htabs _).mpr (Or.inl rfl)⟩
    · exact hne r' s' hs₀
  case strict_card =>
    intro r' s' hs' hmode
    rcases slot_place_cases hs' with ⟨-, rfl⟩ | ⟨-, hs₀⟩
    · exact hstrict hmode
    · exact hcard r' s' hs₀ hmode
  case same_profile =>
    intro t rec s' hlook hs'
    rcases HashMap.lookup_insert_cases hlook with ⟨-, rfl⟩ | ⟨-, hlook₀⟩
    · rw [slot_place, if_pos rfl] at hs'
      rw [← Option.some.inj hs']
    · rcases slot_place_cases hs' with ⟨hr, rfl⟩ | ⟨-, hs₀⟩
      · -- an old tab of the renderer is of the profile the old slot was of
        obtain ⟨s₀, hs₀, -⟩ := hin t rec hlook₀
        exact (hprof t rec s₀ hlook₀ hs₀).trans (hsame s₀ (hr ▸ hs₀))
      · exact hprof t rec s' hlook₀ hs₀
  case standard_unique =>
    intro r₁ r₂ s₁ s₂ h₁ h₂ hm₁ hm₂ hp
    rcases slot_place_cases h₁ with ⟨rfl, rfl⟩ | ⟨-, hold₁⟩
    · rcases slot_place_cases h₂ with ⟨rfl, -⟩ | ⟨-, hold₂⟩
      · rfl
      · exact (hunique hm₁ r₂ s₂ hold₂ hm₂ hp.symm).symm
    · rcases slot_place_cases h₂ with ⟨rfl, rfl⟩ | ⟨-, hold₂⟩
      · exact hunique hm₂ r₁ s₁ hold₁ hm₁ hp
      · exact huniq r₁ r₂ s₁ s₂ hold₁ hold₂ hm₁ hm₂ hp
  case tab_lt =>
    intro t rec hlook
    rcases HashMap.lookup_insert_cases hlook with ⟨rfl, -⟩ | ⟨-, hlook₀⟩
    · exact Nat.lt_succ_self _
    · exact Nat.lt_succ_of_lt (htab t rec hlook₀)
  case renderer_lt =>
    intro r' s' hs'
    rcases slot_place_cases hs' with ⟨rfl, -⟩ | ⟨-, hs₀⟩
    · exact lt_max_of_lt_right (Nat.lt_succ_self _)
    · exact lt_max_of_lt_left (hren r' s' hs₀)
  case suspended_iff =>
    intro t rec hlook
    rcases HashMap.lookup_insert_cases hlook with ⟨-, rfl⟩ | ⟨-, hlook₀⟩
    · simp
    · exact hsus t rec hlook₀

theorem Consistent.spawnTab (h : Consistent lm) (pid : Uuid) : Consistent (lm.spawnTab pid).2 := by
  cases hp : lm.registry.get pid with
  | none => simpa only [LifecycleManager.spawnTab, hp] using h
  | some p =>
    rcases spawnTab_cases h hp with ⟨r, s, hs, hsm, -, rfl, heq⟩ | ⟨hnone, heq⟩
    · rw [heq]
      refine h.place (s := { s with tabs := insert ⟨lm.nextTabId⟩ s.tabs }) ?_ ?_ ?_ ?_
      · intro t
        simp [hs]
      · intro hstrict
        exact absurd (hsm.symm.trans hstrict) (by simp)
      · intro s₀ hs₀
        rw [hs, Option.some.injEq] at hs₀
        rw [hs₀]
      · exact fun _ r' s' hs' hm' hp' => h.standard_unique _ _ _ _ hs' hs hm' hsm hp'
    · rw [heq]
      have hfresh := h.fresh_renderer
      refine h.place (s := ⟨pid, p.mode, {⟨lm.nextTabId⟩}⟩) ?_ ?_ ?_ ?_
      · intro t
        simp [hfresh]
      · exact fun _ => Finset.card_singleton _
      · intro s₀ hs₀
        simp [hfresh] at hs₀
      · exact fun hm r' s' hs' hm' hp' => absurd hp' (hnone hm r' s' hs' hm')

/-! ### Closing -/

/-- The manager without the tab `t`, which was on the renderer `r` with slot `s`: the
renderer is retired when `t` was alone on it. -/
def drop (lm : LifecycleManager) (t : TabId) (r : RendererId) (s : RendererSlot) :
    LifecycleManager :=
  let renderers := lm.scheduler.renderers.insert r { s with tabs := s.tabs.erase t }
  { lm with
    scheduler := ⟨if s.tabs.erase t = ∅ then renderers.erase r else renderers⟩
    tabs := lm.tabs.erase t }

/-- **What a close of a recorded tab does**: it takes the tab out of its slot, retiring
the renderer when the slot is left empty. It neither fails nor panics. -/
theorem closeTab_cases (h : Consistent lm) (hrec : lm.tabs.lookup t = some rec) :
    ∃ s, lm.slot rec.renderer = some s ∧ t ∈ s.tabs ∧
      lm.closeTab t = some
        (.ok (if s.tabs.erase t = ∅ then .detachAndKillRenderer rec.renderer t
          else .detachOnly rec.renderer t), lm.drop t rec.renderer s) := by
  obtain ⟨s, hs, hmem⟩ := h.in_slot _ _ hrec
  refine ⟨s, hs, hmem, ?_⟩
  have hdetach := Scheduler.detachTab_eq (s := lm.scheduler) hs hmem
  have hcount := Scheduler.tabCount_eq
    (s := ⟨lm.scheduler.renderers.insert rec.renderer { s with tabs := s.tabs.erase t }⟩)
    (AList.lookup_insert _)
  have hretire := Scheduler.retireRenderer_eq
    (s := ⟨lm.scheduler.renderers.insert rec.renderer { s with tabs := s.tabs.erase t }⟩)
    (AList.lookup_insert _)
  simp only [closeTab, hrec, hdetach, hcount, drop]
  by_cases hempty : s.tabs.erase t = ∅
  · simp only [hempty, Finset.card_empty] at hretire ⊢
    simp only [hretire, if_true]
  · obtain ⟨n, hn⟩ := Nat.exists_eq_succ_of_ne_zero (Finset.card_ne_zero.mpr
      (Finset.nonempty_iff_ne_empty.mpr hempty))
    simp only [hn, if_neg hempty]

theorem closeTab_unknown (hrec : lm.tabs.lookup t = none) :
    lm.closeTab t = some (.error (.unknownTab t), lm) := by
  simp only [closeTab, hrec]

theorem slot_drop (r' : RendererId) : (lm.drop t r s).slot r' =
    if r' = r then (if s.tabs.erase t = ∅ then none else some { s with tabs := s.tabs.erase t })
    else lm.slot r' := by
  simp only [slot, drop]
  split
  · rw [HashMap.lookup_erase_eq, HashMap.lookup_insert_eq]
    split <;> rfl
  · exact HashMap.lookup_insert_eq _ _ _ _

/-- A slot after a tab was dropped is what is left of its slot, if anything is, or was there
before. -/
theorem slot_drop_cases {s' : RendererSlot} {r' : RendererId}
    (hs' : (lm.drop t r s).slot r' = some s') :
    r' = r ∧ (s.tabs.erase t).Nonempty ∧ s' = { s with tabs := s.tabs.erase t } ∨
      r' ≠ r ∧ lm.slot r' = some s' := by
  rw [slot_drop] at hs'
  split at hs'
  · rename_i hr
    split at hs'
    · cases hs'
    · rename_i hempty
      exact Or.inl ⟨hr, Finset.nonempty_iff_ne_empty.mpr hempty, (Option.some.inj hs').symm⟩
  · rename_i hr
    exact Or.inr ⟨hr, hs'⟩

theorem Consistent.drop (h : Consistent lm) (hrec : lm.tabs.lookup t = some rec)
    (hs : lm.slot rec.renderer = some s) : Consistent (lm.drop t rec.renderer s) := by
  have htabs : ∀ t' rec', (lm.drop t rec.renderer s).tabs.lookup t' = some rec' →
      t' ≠ t ∧ lm.tabs.lookup t' = some rec' := fun _ _ => HashMap.lookup_erase_eq_some_iff.mp
  -- a slot that is left was there before, for the same profile and mode
  have hslot : ∀ r' s', (lm.drop t rec.renderer s).slot r' = some s' →
      ∃ s₀, lm.slot r' = some s₀ ∧ s'.profileId = s₀.profileId ∧ s'.mode = s₀.mode := by
    intro r' s' hs'
    rcases slot_drop_cases hs' with ⟨rfl, -, rfl⟩ | ⟨-, hs₀⟩
    · exact ⟨s, hs, rfl, rfl⟩
    · exact ⟨s', hs₀, rfl, rfl⟩
  obtain ⟨hin, hback, hne, hcard, hprof, huniq, htab, hren, hsus⟩ := h
  constructor
  case in_slot =>
    intro t' rec' hlook
    obtain ⟨ht, hlook⟩ := htabs t' rec' hlook
    obtain ⟨s', hs', hmem⟩ := hin t' rec' hlook
    rw [slot_drop]
    split
    · rename_i hr
      -- `t'` is still in the slot, so it is not the last tab of it that was closed
      obtain rfl : s' = s := Option.some.inj (hs'.symm.trans (hr ▸ hs))
      have hleft : t' ∈ s'.tabs.erase t := Finset.mem_erase.mpr ⟨ht, hmem⟩
      exact ⟨_, if_neg (Finset.ne_empty_of_mem hleft), hleft⟩
    · exact ⟨s', hs', hmem⟩
  case recorded =>
    intro r' s' t' hs' hmem
    have hkept : ∀ s₀, lm.slot r' = some s₀ → t' ∈ s₀.tabs → t' ≠ t →
        ∃ rec', (lm.drop t rec.renderer s).tabs.lookup t' = some rec' ∧ rec'.renderer = r' := by
      intro s₀ hs₀ hmem₀ hne'
      obtain ⟨rec', hlook, hr⟩ := hback r' s₀ t' hs₀ hmem₀
      exact ⟨rec', HashMap.lookup_erase_eq_some_iff.mpr ⟨hne', hlook⟩, hr⟩
    rcases slot_drop_cases hs' with ⟨rfl, -, rfl⟩ | ⟨hr, hs₀⟩
    · obtain ⟨hne', hmem₀⟩ := Finset.mem_erase.mp hmem
      exact hkept s hs hmem₀ hne'
    · refine hkept s' hs₀ hmem ?_
      rintro rfl
      obtain ⟨rec', hlook, hr'⟩ := hback r' s' _ hs₀ hmem
      obtain rfl := Option.some.inj (hlook.symm.trans hrec)
      exact hr hr'.symm
  case nonempty =>
    intro r' s' hs'
    rcases slot_drop_cases hs' with ⟨-, hleft, rfl⟩ | ⟨-, hs₀⟩
    · exact hleft
    · exact hne r' s' hs₀
  case strict_card =>
    intro r' s' hs' hstrict
    rcases slot_drop_cases hs' with ⟨-, hleft, rfl⟩ | ⟨-, hs₀⟩
    · -- a Strict slot held one tab, so erasing a tab of it leaves none or changes nothing
      have hone := hcard _ _ hs hstrict
      have hle := Finset.card_le_card (Finset.erase_subset t s.tabs)
      have hpos := Finset.card_pos.mpr hleft
      exact le_antisymm (hone ▸ hle) hpos
    · exact hcard _ _ hs₀ hstrict
  case same_profile =>
    intro t' rec' s' hlook hs'
    obtain ⟨s₀, hs₀, hp⟩ := hslot _ _ hs'
    exact (hprof t' rec' s₀ (htabs t' rec' hlook).2 hs₀).trans hp.1.symm
  case standard_unique =>
    intro r₁ r₂ s₁ s₂ h₁ h₂ hm₁ hm₂ hp
    obtain ⟨s₁', h₁', hp₁, hm₁'⟩ := hslot _ _ h₁
    obtain ⟨s₂', h₂', hp₂, hm₂'⟩ := hslot _ _ h₂
    exact huniq r₁ r₂ s₁' s₂' h₁' h₂' (hm₁' ▸ hm₁) (hm₂' ▸ hm₂) (hp₁ ▸ hp₂ ▸ hp)
  case tab_lt =>
    intro t' rec' hlook
    exact htab t' rec' (htabs t' rec' hlook).2
  case renderer_lt =>
    intro r' s' hs'
    obtain ⟨s₀, hs₀, -⟩ := hslot _ _ hs'
    exact hren r' s₀ hs₀
  case suspended_iff =>
    intro t' rec' hlook
    exact hsus t' rec' (htabs t' rec' hlook).2

theorem Consistent.closeTab (h : Consistent lm)
    {out : Except LifecycleError CloseAction × LifecycleManager}
    (hclose : lm.closeTab t = some out) : Consistent out.2 := by
  cases hrec : lm.tabs.lookup t with
  | none =>
    rw [closeTab_unknown hrec, Option.some.injEq] at hclose
    rwa [← hclose]
  | some rec =>
    obtain ⟨s, hs, -, heq⟩ := closeTab_cases h hrec
    rw [heq, Option.some.injEq] at hclose
    rw [← hclose]
    exact h.drop hrec hs

/-- Closing a tab never panics. -/
theorem Consistent.closeTab_ne_none (h : Consistent lm) (t : TabId) : lm.closeTab t ≠ none := by
  cases hrec : lm.tabs.lookup t with
  | none => simp [closeTab_unknown hrec]
  | some rec =>
    obtain ⟨s, -, -, heq⟩ := closeTab_cases h hrec
    simp [heq]

/-! ### The other calls -/

/-- A record may change its state, as long as the reason goes with it. -/
theorem Consistent.restate (h : Consistent lm) (hrec : lm.tabs.lookup t = some rec)
    {state : TabState} {reason : Option SuspendReason}
    (hreason : reason.isSome = true ↔ state = .suspended) :
    Consistent
      { lm with tabs := lm.tabs.insert t ⟨rec.profileId, rec.renderer, state, reason⟩ } := by
  have htabs : ∀ t' rec',
      (lm.tabs.insert t ⟨rec.profileId, rec.renderer, state, reason⟩).lookup t' = some rec' →
        ∃ rec₀, lm.tabs.lookup t' = some rec₀ ∧ rec'.profileId = rec₀.profileId ∧
          rec'.renderer = rec₀.renderer := by
    intro t' rec' hlook
    rcases HashMap.lookup_insert_cases hlook with ⟨rfl, rfl⟩ | ⟨-, hold⟩
    · exact ⟨rec, hrec, rfl, rfl⟩
    · exact ⟨rec', hold, rfl, rfl⟩
  constructor
  case in_slot =>
    intro t' rec' hlook
    obtain ⟨rec₀, hlook₀, -, hr⟩ := htabs t' rec' hlook
    rw [hr]
    exact h.in_slot t' rec₀ hlook₀
  case recorded =>
    intro r s t' hs hmem
    obtain ⟨rec', hlook, hr⟩ := h.recorded r s t' hs hmem
    simp only [HashMap.lookup_insert_eq]
    split
    · rename_i ht
      obtain rfl : rec' = rec := Option.some.inj (hlook.symm.trans (ht ▸ hrec))
      exact ⟨_, rfl, hr⟩
    · exact ⟨rec', hlook, hr⟩
  case nonempty => exact h.nonempty
  case strict_card => exact h.strict_card
  case same_profile =>
    intro t' rec' s hlook hs
    obtain ⟨rec₀, hlook₀, hp, hr⟩ := htabs t' rec' hlook
    rw [hp]
    exact h.same_profile t' rec₀ s hlook₀ (hr ▸ hs)
  case standard_unique => exact h.standard_unique
  case tab_lt =>
    intro t' rec' hlook
    obtain ⟨rec₀, hlook₀, -, -⟩ := htabs t' rec' hlook
    exact h.tab_lt t' rec₀ hlook₀
  case renderer_lt => exact h.renderer_lt
  case suspended_iff =>
    intro t' rec' hlook
    rcases HashMap.lookup_insert_cases hlook with ⟨-, rfl⟩ | ⟨-, hold⟩
    · exact hreason
    · exact h.suspended_iff t' rec' hold

theorem Consistent.suspendTab (h : Consistent lm) (t : TabId) (reason : SuspendReason) :
    Consistent (lm.suspendTab t reason).2 := by
  rcases lm.suspendTab_cases t reason with heq | ⟨rec, hrec, heq⟩
  · rw [heq]
    exact h
  · rw [heq]
    exact h.restate hrec (by simp)

theorem Consistent.resumeTab (h : Consistent lm) (t : TabId) :
    Consistent (lm.resumeTab t).2 := by
  rcases lm.resumeTab_cases t with heq | ⟨rec, hrec, heq⟩
  · rw [heq]
    exact h
  · rw [heq]
    exact h.restate hrec (by simp)

/-- The invariant does not look at the registry, nor at the order of the slots. -/
theorem Consistent.of_lookup_eq {lm' : LifecycleManager} (h : Consistent lm)
    (htabs : lm'.tabs = lm.tabs) (hslot : ∀ r, lm'.slot r = lm.slot r)
    (htab : lm'.nextTabId = lm.nextTabId) (hren : lm'.nextRendererId = lm.nextRendererId) :
    Consistent lm' := by
  obtain ⟨hin, hback, hne, hcard, hprof, huniq, hlt, hlt', hsus⟩ := h
  constructor <;> simpa only [htabs, hslot, htab, hren]

theorem slot_reiterate {renderers : HashMap RendererId RendererSlot}
    (h : HashMap.Reordered lm.scheduler.renderers renderers) (r : RendererId) :
    slot { lm with scheduler := ⟨renderers⟩ } r = lm.slot r :=
  (h.lookup_eq r).symm

/-- **Every call keeps the records and the slots in agreement.** -/
theorem Consistent.step {lm' : LifecycleManager} {c : Call} (h : Consistent lm)
    (hstep : lm.step c = some lm') : Consistent lm' := by
  cases c with
  | spawnTab pid =>
    obtain rfl := Option.some.inj hstep
    exact h.spawnTab pid
  | closeTab t =>
    obtain ⟨out, hout, rfl⟩ := Option.map_eq_some_iff.mp hstep
    exact h.closeTab hout
  | abortSpawn t =>
    obtain ⟨out, hout, rfl⟩ := Option.map_eq_some_iff.mp hstep
    exact h.closeTab hout
  | suspendTab t reason =>
    obtain rfl := Option.some.inj hstep
    exact h.suspendTab t reason
  | resumeTab t =>
    obtain rfl := Option.some.inj hstep
    exact h.resumeTab t
  | registryInsert profile =>
    simp only [LifecycleManager.step] at hstep
    split at hstep <;> obtain rfl := Option.some.inj hstep
    · exact h.of_lookup_eq rfl (fun _ => rfl) rfl rfl
    · exact h
  | registryRemove pid =>
    obtain rfl := Option.some.inj hstep
    exact h.of_lookup_eq rfl (fun _ => rfl) rfl rfl
  | reiterate renderers =>
    simp only [LifecycleManager.step] at hstep
    split at hstep
    · rename_i hre
      obtain rfl := Option.some.inj hstep
      exact h.of_lookup_eq rfl (slot_reiterate hre) rfl rfl
    · simp at hstep

theorem consistent_of_run {registry : ProfileRegistry}
    {tr : List (Transition.Step LifecycleManager Call)} (h : Run registry tr lm) : Consistent lm :=
  h.invariant (I := fun _ lm => Consistent lm) (consistent_new registry)
    fun _ _ _ _ _ hc hstep => hc.step hstep

end LifecycleManager

end Identity

end DevBrowse
