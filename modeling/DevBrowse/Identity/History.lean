import DevBrowse.Identity.Invariant

/-!
# The history of a run of the lifecycle manager

`DevBrowse.Identity.LifecycleManager.Consistent` speaks of one state. What it cannot
say is that a number is never handed out twice, nor in which mode the profile of a tab
was when the tab was spawned: the registry may have dropped that profile since, and
stored another under the same identifier. Both are read off the steps of the run
(`DevBrowse.Identity.LifecycleManager.Spawns`), and both are proved from one inversion
of the step function, `DevBrowse.Identity.LifecycleManager.step_cases`: a call places a
tab, drops a tab, or leaves every slot as it was.
-/

namespace DevBrowse

namespace Identity

namespace LifecycleManager

open Transition (Step)

variable {registry : ProfileRegistry} {lm lm' : LifecycleManager} {c : Call} {t : TabId}
  {r : RendererId} {s : RendererSlot} {p : IdentityProfile} {a : ProcessAction}
  {tr : List (Step LifecycleManager Call)} {x : Step LifecycleManager Call}

/-! ### What a step can do -/

/-- The slot a successful spawn leaves behind: the slot of the Standard renderer it
joined with the tab added, or a fresh slot with the tab alone. -/
def Placed (lm : LifecycleManager) (p : IdentityProfile) (a : ProcessAction) (s : RendererSlot) :
    Prop :=
  (∃ s₀, lm.slot a.renderer = some s₀ ∧ s₀.mode = .standard ∧ s₀.profileId = p.profileId ∧
    p.mode = .standard ∧ a = .attachToExisting a.renderer ⟨lm.nextTabId⟩ p.profileId ∧
    s = { s₀ with tabs := insert ⟨lm.nextTabId⟩ s₀.tabs }) ∨
  (a = .spawnRenderer ⟨lm.nextRendererId⟩ ⟨lm.nextTabId⟩ p.profileId p.mode ∧
    s = ⟨p.profileId, p.mode, {⟨lm.nextTabId⟩}⟩)

theorem Placed.tab_eq (h : Placed lm p a s) : a.tab = ⟨lm.nextTabId⟩ := by
  rcases h with ⟨_, -, -, -, -, ha, -⟩ | ⟨ha, -⟩ <;> rw [ha] <;> rfl

theorem Placed.identity (h : Placed lm p a s) : s.profileId = p.profileId ∧ s.mode = p.mode := by
  rcases h with ⟨s₀, -, hm, hp, hpm, -, rfl⟩ | ⟨-, rfl⟩
  · exact ⟨hp, hm.trans hpm.symm⟩
  · exact ⟨rfl, rfl⟩

theorem Placed.tab_mem (h : Placed lm p a s) : ⟨lm.nextTabId⟩ ∈ s.tabs := by
  rcases h with ⟨s₀, -, -, -, -, -, rfl⟩ | ⟨-, rfl⟩
  · exact Finset.mem_insert_self _ _
  · exact Finset.mem_singleton_self _

/-- The tabs of the slot are the new one, and those it had. -/
theorem Placed.mem_tabs (h : Placed lm p a s) (ht : t ∈ s.tabs) :
    t = ⟨lm.nextTabId⟩ ∨ ∃ s₀, lm.slot a.renderer = some s₀ ∧ t ∈ s₀.tabs ∧
      s₀.profileId = s.profileId ∧ s₀.mode = s.mode := by
  rcases h with ⟨s₀, hs₀, -, -, -, -, rfl⟩ | ⟨-, rfl⟩
  · rcases Finset.mem_insert.mp ht with ht | ht
    · exact Or.inl ht
    · exact Or.inr ⟨s₀, hs₀, ht, rfl, rfl⟩
  · exact Or.inl (Finset.mem_singleton.mp ht)

/-- The calls that leave every slot, every counter, and the profile and the renderer
of every record as they were. -/
structure Quiet (lm lm' : LifecycleManager) : Prop where
  /-- No slot has changed. -/
  slot_eq : ∀ r, lm'.slot r = lm.slot r
  /-- No record names another profile or renderer. -/
  tabs_eq : ∀ t, (lm'.tabs.lookup t).map (fun rec => (rec.profileId, rec.renderer)) =
    (lm.tabs.lookup t).map fun rec => (rec.profileId, rec.renderer)
  /-- No tab was minted. -/
  nextTabId_eq : lm'.nextTabId = lm.nextTabId
  /-- No renderer was minted. -/
  nextRendererId_eq : lm'.nextRendererId = lm.nextRendererId

theorem Quiet.refl (lm : LifecycleManager) : Quiet lm lm :=
  ⟨fun _ => rfl, fun _ => rfl, rfl, rfl⟩

theorem quiet_restate {rec : TabRecord} (hrec : lm.tabs.lookup t = some rec) (state : TabState)
    (reason : Option SuspendReason) :
    Quiet lm { lm with
      tabs := lm.tabs.insert t ⟨rec.profileId, rec.renderer, state, reason⟩ } := by
  refine ⟨fun _ => rfl, fun t' => ?_, rfl, rfl⟩
  rw [HashMap.lookup_insert_eq]
  split
  · rename_i ht
    rw [ht, hrec]
    rfl
  · rfl

/-- **A spawn of a known profile succeeds**, and places the tab it answers with. -/
theorem spawnTab_ok (h : Consistent lm) (hp : lm.registry.get p.profileId = some p) :
    ∃ a s, Placed lm p a s ∧
      lm.spawnTab p.profileId = (.ok a, lm.place a.renderer s p.profileId) := by
  rcases spawnTab_cases h hp with ⟨r, s, hs, hsm, hpm, hsp, heq⟩ | ⟨-, heq⟩
  · exact ⟨.attachToExisting r ⟨lm.nextTabId⟩ p.profileId, _,
      Or.inl ⟨s, hs, hsm, hsp, hpm, rfl, rfl⟩, heq⟩
  · exact ⟨_, _, Or.inr ⟨rfl, rfl⟩, heq⟩

theorem spawnTab_unknown {pid : Uuid} (hp : lm.registry.get pid = none) :
    lm.spawnTab pid = (.error (.unknownProfile pid), lm) := by
  simp only [spawnTab, hp]

/-- **What a call can do**: place a tab, drop a tab, or leave every slot as it was. -/
theorem step_cases (h : Consistent lm) (hstep : lm.step c = some lm') :
    (∃ p a s, c = .spawnTab p.profileId ∧ lm.registry.get p.profileId = some p ∧
      Placed lm p a s ∧ lm.spawnTab p.profileId = (.ok a, lm') ∧
      lm' = lm.place a.renderer s p.profileId) ∨
    (∃ t rec s, (c = .closeTab t ∨ c = .abortSpawn t) ∧ lm.tabs.lookup t = some rec ∧
      lm.slot rec.renderer = some s ∧ t ∈ s.tabs ∧ lm' = lm.drop t rec.renderer s) ∨
    (Quiet lm lm' ∧ ∀ pid, c = .spawnTab pid →
      lm.spawnTab pid = (.error (.unknownProfile pid), lm)) := by
  -- an abort of a spawn is a close of its tab
  have hclose : ∀ t, (lm.closeTab t).map (·.2) = some lm' →
      (∃ rec s, lm.tabs.lookup t = some rec ∧ lm.slot rec.renderer = some s ∧ t ∈ s.tabs ∧
        lm' = lm.drop t rec.renderer s) ∨ lm' = lm := by
    intro t hstep
    cases hrec : lm.tabs.lookup t with
    | none =>
      rw [closeTab_unknown hrec] at hstep
      exact Or.inr (Option.some.inj hstep).symm
    | some rec =>
      obtain ⟨s, hs, hmem, heq⟩ := closeTab_cases h hrec
      rw [heq] at hstep
      exact Or.inl ⟨rec, s, rfl, hs, hmem, (Option.some.inj hstep).symm⟩
  cases c with
  | spawnTab pid =>
    obtain rfl := Option.some.inj hstep
    cases hp : lm.registry.get pid with
    | none =>
      have herr := spawnTab_unknown hp
      refine Or.inr (Or.inr ⟨by rw [herr]; exact Quiet.refl lm, fun pid' hpid => ?_⟩)
      obtain rfl : pid = pid' := by simpa using hpid
      exact herr
    | some p =>
      obtain rfl : p.profileId = pid := ProfileRegistry.profileId_of_get hp
      obtain ⟨a, s, hplaced, heq⟩ := spawnTab_ok h hp
      refine Or.inl ⟨p, a, s, rfl, hp, hplaced, ?_, ?_⟩ <;> rw [heq]
  | closeTab t =>
    rcases hclose t hstep with ⟨rec, s, hrec, hs, hmem, rfl⟩ | rfl
    · exact Or.inr (Or.inl ⟨t, rec, s, Or.inl rfl, hrec, hs, hmem, rfl⟩)
    · exact Or.inr (Or.inr ⟨Quiet.refl _, by simp⟩)
  | abortSpawn t =>
    rcases hclose t hstep with ⟨rec, s, hrec, hs, hmem, rfl⟩ | rfl
    · exact Or.inr (Or.inl ⟨t, rec, s, Or.inr rfl, hrec, hs, hmem, rfl⟩)
    · exact Or.inr (Or.inr ⟨Quiet.refl _, by simp⟩)
  | suspendTab t reason =>
    -- refused, or one record is rewritten, which no slot shows
    obtain rfl := Option.some.inj hstep
    refine Or.inr (Or.inr ⟨?_, by simp⟩)
    rcases lm.suspendTab_cases t reason with heq | ⟨rec, hrec, heq⟩
    · rw [heq]
      exact Quiet.refl _
    · rw [heq]
      exact quiet_restate hrec _ _
  | resumeTab t =>
    obtain rfl := Option.some.inj hstep
    refine Or.inr (Or.inr ⟨?_, by simp⟩)
    rcases lm.resumeTab_cases t with heq | ⟨rec, hrec, heq⟩
    · rw [heq]
      exact Quiet.refl _
    · rw [heq]
      exact quiet_restate hrec _ _
  | registryInsert profile =>
    refine Or.inr (Or.inr ⟨?_, by simp⟩)
    simp only [step] at hstep
    split at hstep <;> obtain rfl := Option.some.inj hstep
    · exact ⟨fun _ => rfl, fun _ => rfl, rfl, rfl⟩
    · exact Quiet.refl _
  | registryRemove pid =>
    obtain rfl := Option.some.inj hstep
    exact Or.inr (Or.inr ⟨⟨fun _ => rfl, fun _ => rfl, rfl, rfl⟩, by simp⟩)
  | reiterate renderers =>
    refine Or.inr (Or.inr ⟨?_, by simp⟩)
    simp only [step] at hstep
    split at hstep
    · rename_i hre
      obtain rfl := Option.some.inj hstep
      exact ⟨slot_reiterate hre, fun _ => rfl, rfl, rfl⟩
    · simp at hstep

/-! ### What a run has spawned -/

/-- A step that is a successful spawn for the profile `p`, and its answer. -/
def Spawns (x : Step LifecycleManager Call) (p : IdentityProfile) (a : ProcessAction) : Prop :=
  x.input = .spawnTab p.profileId ∧ x.pre.registry.get p.profileId = some p ∧
    (x.pre.spawnTab p.profileId).1 = .ok a

/-- The tab was spawned for the profile at some step. -/
def Spawned (tr : List (Step LifecycleManager Call)) (t : TabId) (p : IdentityProfile) : Prop :=
  ∃ x ∈ tr, ∃ a, Spawns x p a ∧ a.tab = t

theorem Spawned.append (h : Spawned tr t p) (x : Step LifecycleManager Call) :
    Spawned (tr ++ [x]) t p := by
  obtain ⟨y, hy, hspawn⟩ := h
  exact ⟨y, List.mem_append_left _ hy, hspawn⟩

/-- **Every tab on a renderer was spawned for the identity of the renderer**, in the
mode of the renderer. -/
def Bound (tr : List (Step LifecycleManager Call)) (lm : LifecycleManager) : Prop :=
  ∀ r s t, lm.slot r = some s → t ∈ s.tabs →
    ∃ p, Spawned tr t p ∧ p.profileId = s.profileId ∧ p.mode = s.mode

theorem Bound.step (hb : Bound tr lm) (hc : Consistent lm) (hstep : lm.step c = some lm') :
    Bound (tr ++ [⟨lm, c, lm'⟩]) lm' := by
  -- a tab that was on a renderer of the same identity before keeps its witness
  have hold : ∀ r (s s' : RendererSlot) t, lm.slot r = some s → t ∈ s.tabs →
      s.profileId = s'.profileId →
      s.mode = s'.mode → ∃ p, Spawned (tr ++ [⟨lm, c, lm'⟩]) t p ∧
        p.profileId = s'.profileId ∧ p.mode = s'.mode := by
    intro r s s' t hs hmem hp hm
    obtain ⟨p, hspawned, hpp, hpm⟩ := hb r s t hs hmem
    exact ⟨p, hspawned.append _, hpp.trans hp, hpm.trans hm⟩
  intro r' s' t' hs' hmem'
  rcases step_cases hc hstep with ⟨p, a, s, rfl, hp, hplaced, heq, rfl⟩ |
    ⟨t, rec, s, -, -, hs, -, rfl⟩ | ⟨hquiet, -⟩
  · rcases slot_place_cases hs' with ⟨-, rfl⟩ | ⟨-, hs₀⟩
    · rcases hplaced.mem_tabs hmem' with rfl | ⟨s₀, hs₀, hmem₀, hp₀, hm₀⟩
      · have hspawns : Spawns
            ⟨lm, .spawnTab p.profileId, lm.place a.renderer s' p.profileId⟩ p a :=
          ⟨rfl, hp, by rw [heq]⟩
        exact ⟨p, ⟨_, by simp, a, hspawns, hplaced.tab_eq⟩, hplaced.identity.1.symm,
          hplaced.identity.2.symm⟩
      · exact hold _ _ _ _ hs₀ hmem₀ hp₀ hm₀
    · exact hold _ _ _ _ hs₀ hmem' rfl rfl
  · rcases slot_drop_cases hs' with ⟨-, -, rfl⟩ | ⟨-, hs₀⟩
    · exact hold _ _ _ _ hs (Finset.mem_of_mem_erase hmem') rfl rfl
    · exact hold _ _ _ _ hs₀ hmem' rfl rfl
  · rw [hquiet.slot_eq] at hs'
    exact hold _ _ _ _ hs' hmem' rfl rfl

/-- The numbers in an answer have been handed out: the counters are past them. -/
def Minted (tr : List (Step LifecycleManager Call)) (lm : LifecycleManager) : Prop :=
  ∀ x ∈ tr, ∀ p a, Spawns x p a → a.tab.val < lm.nextTabId ∧ a.renderer.val < lm.nextRendererId

/-- A later spawn hands out a larger tab number, and if it asks for a fresh renderer, a
larger renderer number, than an earlier one did. -/
def Later (x y : Step LifecycleManager Call) : Prop :=
  ∀ p a p' a', Spawns x p a → Spawns y p' a' → a.tab.val < a'.tab.val ∧
    ∀ r t pid mode, a' = .spawnRenderer r t pid mode → a.renderer.val < r.val

/-- No call lowers a counter. -/
theorem counters_le (hc : Consistent lm) (hstep : lm.step c = some lm') :
    lm.nextTabId ≤ lm'.nextTabId ∧ lm.nextRendererId ≤ lm'.nextRendererId := by
  rcases step_cases hc hstep with ⟨p, a, s, -, -, -, -, rfl⟩ | ⟨t, rec, s, -, -, -, -, rfl⟩ |
    ⟨hquiet, -⟩
  · exact ⟨Nat.le_succ _, le_max_left _ _⟩
  · exact ⟨le_rfl, le_rfl⟩
  · exact ⟨hquiet.nextTabId_eq.ge, hquiet.nextRendererId_eq.ge⟩

/-- What a spawn answers with was minted by it. -/
theorem spawns_step (hc : Consistent lm) (hstep : lm.step c = some lm')
    (hspawns : Spawns ⟨lm, c, lm'⟩ p a) :
    ∃ s, Placed lm p a s ∧ lm' = lm.place a.renderer s p.profileId := by
  obtain ⟨rfl, hp, hok⟩ := hspawns
  obtain ⟨a', s, hplaced, heq⟩ := spawnTab_ok hc hp
  simp only [step, Option.some.injEq] at hstep
  obtain rfl : a' = a := by simpa [heq] using hok
  exact ⟨s, hplaced, by rw [← hstep, heq]⟩

theorem Minted.step (hm : Minted tr lm) (hc : Consistent lm) (hstep : lm.step c = some lm') :
    Minted (tr ++ [⟨lm, c, lm'⟩]) lm' := by
  obtain ⟨htab, hren⟩ := counters_le hc hstep
  intro x hx p a hspawns
  rcases List.mem_append.mp hx with hx | hx
  · obtain ⟨h1, h2⟩ := hm x hx p a hspawns
    exact ⟨h1.trans_le htab, h2.trans_le hren⟩
  · obtain rfl := List.mem_singleton.mp hx
    obtain ⟨s, hplaced, rfl⟩ := spawns_step hc hstep hspawns
    rw [hplaced.tab_eq]
    exact ⟨Nat.lt_succ_self _, (Nat.lt_succ_self _).trans_le (le_max_right _ _)⟩

theorem later_step (hm : Minted tr lm) (hc : Consistent lm) (hstep : lm.step c = some lm')
    (hx : x ∈ tr) : Later x ⟨lm, c, lm'⟩ := by
  intro p a p' a' hspawns hspawns'
  obtain ⟨htab, hren⟩ := hm x hx p a hspawns
  obtain ⟨s, hplaced, -⟩ := spawns_step hc hstep hspawns'
  refine ⟨by rwa [hplaced.tab_eq], fun r t pid mode ha' => ?_⟩
  rcases hplaced with ⟨_, -, -, -, -, ha'', -⟩ | ⟨ha'', -⟩
  · simp [ha'] at ha''
  · obtain ⟨rfl, -⟩ : r = ⟨lm.nextRendererId⟩ ∧ _ := by simpa [ha'] using ha''
    exact hren

/-- What the history of a run keeps. -/
theorem history_of_run (h : Run registry tr lm) :
    Bound tr lm ∧ Minted tr lm ∧ tr.Pairwise Later := by
  refine h.invariant (I := fun tr lm => Bound tr lm ∧ Minted tr lm ∧ tr.Pairwise Later)
    ⟨?_, by simp [Minted], List.Pairwise.nil⟩ ?_
  · intro r s t hs
    simp [new, slot, Scheduler.new] at hs
  · rintro tr lm c lm' hrun ⟨hb, hm, hl⟩ hstep
    have hc := consistent_of_run hrun
    refine ⟨hb.step hc hstep, hm.step hc hstep, List.pairwise_append.mpr ⟨hl, by simp, ?_⟩⟩
    intro x hx y hy
    obtain rfl := List.mem_singleton.mp hy
    exact later_step hm hc hstep hx

/-- Two spawns that answered with the same tab were for the same profile: they are one
step. -/
theorem Spawned.unique (hl : tr.Pairwise Later) {p' : IdentityProfile} (h : Spawned tr t p)
    (h' : Spawned tr t p') : p = p' := by
  obtain ⟨x, hx, a, hspawns, rfl⟩ := h
  obtain ⟨y, hy, a', hspawns', htab⟩ := h'
  obtain ⟨i, hi, rfl⟩ := List.mem_iff_getElem.mp hx
  obtain ⟨j, hj, rfl⟩ := List.mem_iff_getElem.mp hy
  rcases lt_trichotomy i j with hij | rfl | hij
  · have := (List.pairwise_iff_getElem.mp hl i j hi hj hij p a p' a' hspawns hspawns').1
    rw [htab] at this
    omega
  · have hid : p.profileId = p'.profileId := by simpa [hspawns.1] using hspawns'.1
    exact Option.some.inj (hspawns.2.1.symm.trans (hid ▸ hspawns'.2.1))
  · have := (List.pairwise_iff_getElem.mp hl j i hj hi hij p' a' p a hspawns' hspawns).1
    rw [htab] at this
    omega

/-! ### The reachable states -/

/-- A tab and the profile it was spawned for, which its record names. -/
def SpawnedFor (tr : List (Step LifecycleManager Call)) (lm : LifecycleManager) (t : TabId)
    (p : IdentityProfile) : Prop :=
  Spawned tr t p ∧ ∃ rec, lm.tabs.lookup t = some rec ∧ rec.profileId = p.profileId

/-- **What every run of the manager satisfies**, at every state it passes through. -/
structure Sound (tr : List (Step LifecycleManager Call)) (lm : LifecycleManager) : Prop where
  /-- A record names a renderer exactly when the tab is in the slot of that renderer. -/
  record_iff : ∀ t r, (∃ rec, lm.tabs.lookup t = some rec ∧ rec.renderer = r) ↔
    ∃ s, lm.slot r = some s ∧ t ∈ s.tabs
  /-- A tab is in one slot only. -/
  one_slot : ∀ t r r' s s', lm.slot r = some s → lm.slot r' = some s' → t ∈ s.tabs →
    t ∈ s'.tabs → r = r'
  /-- No registered renderer is without tabs. -/
  nonempty : ∀ r s, lm.slot r = some s → s.tabs.Nonempty
  /-- A Strict renderer has exactly one tab. -/
  strict_card : ∀ r s, lm.slot r = some s → s.mode = .strict → s.tabs.card = 1
  /-- Two tabs that share a renderer are both Standard, of one profile. -/
  sharing : ∀ r s t t', lm.slot r = some s → t ∈ s.tabs → t' ∈ s.tabs → t ≠ t' →
    s.mode = .standard ∧ ∃ p p', SpawnedFor tr lm t p ∧ SpawnedFor tr lm t' p' ∧
      p.mode = .standard ∧ p'.mode = .standard ∧ p.profileId = p'.profileId
  /-- A profile has at most one Standard renderer. -/
  standard_unique : ∀ r r' s s', lm.slot r = some s → lm.slot r' = some s' →
    s.mode = .standard → s'.mode = .standard → s.profileId = s'.profileId → r = r'
  /-- The counter is past every tab in use. -/
  tab_lt : ∀ t rec, lm.tabs.lookup t = some rec → t.val < lm.nextTabId
  /-- The counter is past every renderer in use. -/
  renderer_lt : ∀ r s, lm.slot r = some s → r.val < lm.nextRendererId
  /-- No spawn answers with a number an earlier one answered with. -/
  never_reused : tr.Pairwise Later
  /-- A tab has a suspend reason exactly when it is suspended. -/
  suspended_iff : ∀ t rec, lm.tabs.lookup t = some rec →
    (rec.suspendReason.isSome = true ↔ rec.state = .suspended)
  /-- A spawn whose profile is registered succeeds. -/
  spawnTab_ok : ∀ pid p, lm.registry.get pid = some p → ∃ a, (lm.spawnTab pid).1 = .ok a
  /-- It records the tab it answers with as running on the renderer it answers with, whose slot has
  the tab and is of the profile. -/
  spawnTab_records : ∀ pid p a, lm.registry.get pid = some p → (lm.spawnTab pid).1 = .ok a →
    (lm.spawnTab pid).2.tabs.lookup a.tab = some ⟨pid, a.renderer, .active, none⟩ ∧
      ∃ s, (lm.spawnTab pid).2.slot a.renderer = some s ∧ a.tab ∈ s.tabs ∧ s.profileId = pid ∧
        s.mode = p.mode
  /-- It leaves the other tabs as they were. -/
  spawnTab_others : ∀ pid a t, (lm.spawnTab pid).1 = .ok a → t ≠ a.tab →
    (lm.spawnTab pid).2.tabs.lookup t = lm.tabs.lookup t
  /-- A close of a recorded tab succeeds. -/
  closeTab_ok : ∀ t rec, lm.tabs.lookup t = some rec →
    ∃ a lm', lm.closeTab t = some (.ok a, lm')
  /-- The tab count that a close expects to find is there. -/
  no_panic : ∀ t, lm.closeTab t ≠ none ∧ lm.abortSpawn t ≠ none

/-- A slot with two tabs is not Strict. -/
theorem Consistent.standard_of_ne (h : Consistent lm) {t' : TabId} (hs : lm.slot r = some s)
    (ht : t ∈ s.tabs) (ht' : t' ∈ s.tabs) (hne : t ≠ t') : s.mode = .standard := by
  cases hm : s.mode with
  | standard => rfl
  | strict =>
    obtain ⟨u, hu⟩ := Finset.card_eq_one.mp (h.strict_card r s hs hm)
    rw [hu, Finset.mem_singleton] at ht ht'
    exact absurd (ht.trans ht'.symm) hne

theorem Bound.spawnedFor (hb : Bound tr lm) (h : Consistent lm) (hs : lm.slot r = some s)
    (ht : t ∈ s.tabs) :
    ∃ p, SpawnedFor tr lm t p ∧ p.profileId = s.profileId ∧ p.mode = s.mode := by
  obtain ⟨p, hspawned, hp, hm⟩ := hb r s t hs ht
  obtain ⟨rec, hrec, rfl⟩ := h.recorded r s t hs ht
  exact ⟨p, ⟨hspawned, rec, hrec, (h.same_profile t rec s hrec hs).trans hp.symm⟩, hp, hm⟩

/-- **The lifecycle manager is sound**: in every state of every run the records and the
slots agree, no renderer is shared across identities, numbers are not reused, and the
error paths behind a successful lookup are dead. -/
theorem lifecycle_sound (h : Run registry tr lm) : Sound tr lm := by
  have hc := consistent_of_run h
  obtain ⟨hb, -, hl⟩ := history_of_run h
  constructor
  case record_iff =>
    intro t r
    constructor
    · rintro ⟨rec, hrec, rfl⟩
      exact hc.in_slot t rec hrec
    · rintro ⟨s, hs, hmem⟩
      exact hc.recorded r s t hs hmem
  case one_slot =>
    intro t r r' s s' hs hs' hmem hmem'
    obtain ⟨rec, hrec, rfl⟩ := hc.recorded r s t hs hmem
    obtain ⟨rec', hrec', rfl⟩ := hc.recorded r' s' t hs' hmem'
    rw [Option.some.inj (hrec.symm.trans hrec')]
  case nonempty => exact hc.nonempty
  case strict_card => exact hc.strict_card
  case sharing =>
    intro r s t t' hs ht ht' hne
    have hm := hc.standard_of_ne hs ht ht' hne
    obtain ⟨p, hfor, hp, hpm⟩ := hb.spawnedFor hc hs ht
    obtain ⟨p', hfor', hp', hpm'⟩ := hb.spawnedFor hc hs ht'
    exact ⟨hm, p, p', hfor, hfor', hpm.trans hm, hpm'.trans hm, hp.trans hp'.symm⟩
  case standard_unique => exact hc.standard_unique
  case tab_lt => exact hc.tab_lt
  case renderer_lt => exact hc.renderer_lt
  case never_reused => exact hl
  case suspended_iff => exact hc.suspended_iff
  case spawnTab_ok =>
    intro pid p hp
    obtain rfl := ProfileRegistry.profileId_of_get hp
    obtain ⟨a, s, -, heq⟩ := LifecycleManager.spawnTab_ok hc hp
    exact ⟨a, by rw [heq]⟩
  case spawnTab_records =>
    intro pid p a hp ha
    obtain rfl := ProfileRegistry.profileId_of_get hp
    obtain ⟨a', s, hplaced, heq⟩ := LifecycleManager.spawnTab_ok hc hp
    obtain rfl : a' = a := by simpa [heq] using ha
    rw [heq, hplaced.tab_eq]
    refine ⟨AList.lookup_insert _, s, ?_, hplaced.tab_mem, hplaced.identity.1, hplaced.identity.2⟩
    rw [slot_place, if_pos rfl]
  case spawnTab_others =>
    intro pid a t ha ht
    cases hp : lm.registry.get pid with
    | none =>
      rw [spawnTab_unknown hp] at ha
      cases ha
    | some p =>
      obtain rfl := ProfileRegistry.profileId_of_get hp
      obtain ⟨a', s, hplaced, heq⟩ := LifecycleManager.spawnTab_ok hc hp
      obtain rfl : a' = a := by simpa [heq] using ha
      rw [hplaced.tab_eq] at ht
      rw [heq]
      exact AList.lookup_insert_ne ht
  case closeTab_ok =>
    intro t rec hrec
    obtain ⟨s, -, -, heq⟩ := closeTab_cases hc hrec
    exact ⟨_, _, heq⟩
  case no_panic => exact fun t => ⟨hc.closeTab_ne_none t, hc.closeTab_ne_none t⟩

/-- Two tabs of a Standard profile come up on one renderer, and the first is closed. -/
theorem lifecycle_sound_shared :
    ∃ registry tr lm, Run registry tr lm ∧ tr.map Step.input =
        [.registryInsert ⟨Uuid.splat 1, "Personal", .standard⟩, .spawnTab (Uuid.splat 1),
          .spawnTab (Uuid.splat 1), .closeTab ⟨1⟩] ∧ Sound tr lm := by
  have hexec : (Transition.exec LifecycleManager.step (new .newInMemory)
      [.registryInsert ⟨Uuid.splat 1, "Personal", .standard⟩, .spawnTab (Uuid.splat 1),
        .spawnTab (Uuid.splat 1), .closeTab ⟨1⟩]).isSome = true := by decide
  obtain ⟨tr, lm, hrun, hinputs⟩ := Transition.exists_run hexec
  exact ⟨.newInMemory, tr, lm, hrun, hinputs, lifecycle_sound hrun⟩

end LifecycleManager

end Identity

end DevBrowse
