import DevBrowse.Identity.History

/-!
# The spawn protocol

`spawn_tab` changes the manager's state before any process exists: the orchestrator is
then told to spawn the renderer, and when the operating system refuses, it calls
`abort_spawn` for the tab to roll the state back. Between the two, other calls run, and
a spawn for the same Standard profile is told to attach to the renderer that is still
pending.

The system of this file is the manager together with the spawns the orchestrator has
not finished. The question is what an abort leaves behind. It takes the renderer with it
exactly when no other tab had joined it
(`DevBrowse.Identity.Orchestrator.rollsBack_iff`); when one had, the renderer stays
registered although its process never came up, and goes on to attract further tabs
(`DevBrowse.Identity.Orchestrator.not_rollsBack_joined`).
-/

namespace DevBrowse

namespace Identity

open Transition (Step)

/-- How far the operating system has got with a renderer it was asked to spawn. -/
inductive OsSpawn where
  /-- Asked, not answered. -/
  | requested
  /-- Refused, and not rolled back yet. -/
  | failed
  deriving DecidableEq

/-- **The orchestrator's view**: the manager, and the renderers asked for that are not
up, each with the tab it was asked for. -/
structure Orchestrator where
  /-- The lifecycle manager. -/
  lifecycle : LifecycleManager
  /-- The spawns that are not finished. -/
  pending : HashMap RendererId (TabId × OsSpawn)

namespace Orchestrator

open LifecycleManager

/-- The orchestrator over a manager without tabs. -/
def new (registry : ProfileRegistry) : Orchestrator := ⟨.new registry, ∅⟩

/-- What can happen: a call on the manager, and the three things that can become of a
renderer that was asked for. -/
inductive Event where
  /-- A call on the manager. -/
  | call (c : Call)
  /-- The process of the renderer came up. -/
  | osSpawned (renderer : RendererId)
  /-- The process of the renderer could not be spawned. -/
  | osFailed (renderer : RendererId)
  /-- `abort_spawn`, for the tab whose renderer could not be spawned. -/
  | abortSpawn (renderer : RendererId)

/-- The unfinished spawns after a call: a spawn told to spawn a renderer is one more. -/
def pendingAfter (o : Orchestrator) : Call → HashMap RendererId (TabId × OsSpawn)
  | .spawnTab profileId =>
    match (o.lifecycle.spawnTab profileId).1 with
    | .ok (.spawnRenderer renderer tab _ _) => o.pending.insert renderer (tab, .requested)
    | _ => o.pending
  | _ => o.pending

/-- **One event.** -/
def step (o : Orchestrator) : Event → Option Orchestrator
  | .call c => (o.lifecycle.step c).map fun lifecycle => ⟨lifecycle, o.pendingAfter c⟩
  | .osSpawned renderer =>
    match o.pending.lookup renderer with
    | some (_, .requested) => some { o with pending := o.pending.erase renderer }
    | _ => none
  | .osFailed renderer =>
    match o.pending.lookup renderer with
    | some (tab, .requested) =>
      some { o with pending := o.pending.insert renderer (tab, .failed) }
    | _ => none
  | .abortSpawn renderer =>
    match o.pending.lookup renderer with
    | some (tab, .failed) =>
      (o.lifecycle.abortSpawn tab).map fun out => ⟨out.2, o.pending.erase renderer⟩
    | _ => none

/-- The runs of the spawn protocol. -/
abbrev Run (registry : ProfileRegistry) :
    List (Step Orchestrator Event) → Orchestrator → Prop :=
  Transition.Run (Transition.ofFun step) (new registry)

variable {registry : ProfileRegistry} {o o' : Orchestrator} {e : Event} {c : Call}
  {r : RendererId} {t : TabId} {lm lm' : LifecycleManager}
  {tr : List (Step Orchestrator Event)}

/-! ### What an event does to the manager -/

/-- An event is a call on the manager, or it leaves the manager alone. An abort is the
call `abort_spawn` for the tab the renderer was asked for. -/
theorem step_lifecycle (h : o.step e = some o') :
    (∃ c, o.lifecycle.step c = some o'.lifecycle ∧
      ∀ r, e = .abortSpawn r → ∃ t, o.pending.lookup r = some (t, .failed) ∧
        c = .abortSpawn t) ∨
    (o'.lifecycle = o.lifecycle ∧ ∀ r, e ≠ .abortSpawn r) := by
  cases e with
  | call c =>
    obtain ⟨lifecycle, hstep, rfl⟩ := Option.map_eq_some_iff.mp h
    exact Or.inl ⟨c, hstep, by simp⟩
  | osSpawned r =>
    simp only [step] at h
    split at h
    · obtain rfl := Option.some.inj h
      exact Or.inr ⟨rfl, by simp⟩
    · simp at h
  | osFailed r =>
    simp only [step] at h
    split at h
    · obtain rfl := Option.some.inj h
      exact Or.inr ⟨rfl, by simp⟩
    · simp at h
  | abortSpawn r =>
    simp only [step] at h
    split at h
    · rename_i t hpending
      obtain ⟨out, hout, rfl⟩ := Option.map_eq_some_iff.mp h
      refine Or.inl ⟨.abortSpawn t, ?_, fun r' hr' => ?_⟩
      · simp [LifecycleManager.step, hout]
      · obtain rfl : r = r' := by simpa using hr'
        exact ⟨t, hpending, rfl⟩
    · simp at h

theorem consistent_step (hc : Consistent o.lifecycle) (h : o.step e = some o') :
    Consistent o'.lifecycle := by
  rcases step_lifecycle h with ⟨c, hstep, -⟩ | ⟨heq, -⟩
  · exact hc.step hstep
  · rwa [heq]

theorem consistent_of_run (h : Run registry tr o) : Consistent o.lifecycle :=
  h.invariant (I := fun _ o => Consistent o.lifecycle) (consistent_new registry)
    fun _ _ _ _ _ hc hstep => consistent_step hc hstep

/-! ### The unfinished spawns -/

/-- An unfinished spawn is about minted numbers, and its tab, as long as it is recorded,
lives on its renderer. -/
def Tracked (lm : LifecycleManager) (r : RendererId) (t : TabId) : Prop :=
  r.val < lm.nextRendererId ∧ t.val < lm.nextTabId ∧
    ∀ rec, lm.tabs.lookup t = some rec → rec.renderer = r

theorem Tracked.step (hk : Tracked lm r t) (hc : Consistent lm) (h : lm.step c = some lm') :
    Tracked lm' r t := by
  obtain ⟨hr, ht, hrec⟩ := hk
  obtain ⟨htab, hren⟩ := counters_le hc h
  refine ⟨hr.trans_le hren, ht.trans_le htab, fun rec hlook => ?_⟩
  rcases step_cases hc h with ⟨p, a, s, -, -, -, -, rfl⟩ | ⟨t', rec', s, -, -, -, -, rfl⟩ |
    ⟨hquiet, -⟩
  · have hne : t ≠ ⟨lm.nextTabId⟩ := by
      rintro rfl
      exact lt_irrefl _ ht
    exact hrec rec ((AList.lookup_insert_ne hne).symm.trans hlook)
  · exact hrec rec (HashMap.lookup_erase_eq_some_iff.mp hlook).2
  · have heq := hquiet.tabs_eq t
    rw [hlook, Option.map_some, eq_comm, Option.map_eq_some_iff] at heq
    obtain ⟨rec₀, hlook₀, hpair⟩ := heq
    exact (Prod.ext_iff.mp hpair).2.symm.trans (hrec rec₀ hlook₀)

/-- A spawn that asks for a renderer records its tab on that renderer. -/
theorem tracked_spawn {p : IdentityProfile} {a : ProcessAction} {s : RendererSlot} {mode : Mode}
    {pid : Uuid} (hplaced : Placed lm p a s) (ha : a = .spawnRenderer r t pid mode) :
    Tracked (lm.place a.renderer s p.profileId) r t := by
  subst ha
  rcases hplaced with ⟨_, -, -, -, -, ha, -⟩ | ⟨ha, -⟩
  · simp at ha
  · obtain ⟨rfl, rfl, -⟩ : r = ⟨lm.nextRendererId⟩ ∧ t = ⟨lm.nextTabId⟩ ∧ _ := by simpa using ha
    refine ⟨(Nat.lt_succ_self _).trans_le (le_max_right _ _), Nat.lt_succ_self _,
      fun rec hlook => ?_⟩
    have hlook' : some _ = some rec := (AList.lookup_insert _).symm.trans hlook
    rw [← Option.some.inj hlook']
    rfl

/-- Every unfinished spawn is tracked. -/
def AllTracked (o : Orchestrator) : Prop :=
  ∀ r t st, o.pending.lookup r = some (t, st) → Tracked o.lifecycle r t

theorem AllTracked.step (hk : AllTracked o) (hc : Consistent o.lifecycle)
    (h : o.step e = some o') : AllTracked o' := by
  intro r t st hlook
  cases e with
  | call c =>
    obtain ⟨lifecycle, hstep, rfl⟩ := Option.map_eq_some_iff.mp h
    have hold : ∀ st, o.pending.lookup r = some (t, st) → Tracked lifecycle r t :=
      fun st hlook => (hk r t st hlook).step hc hstep
    cases c with
    | spawnTab pid =>
      simp only [pendingAfter] at hlook
      split at hlook
      · rename_i r' t' pid' mode hok
        rcases HashMap.lookup_insert_cases hlook with ⟨rfl, hmade⟩ | ⟨-, hlook⟩
        · -- the entry just made, for the spawn that was just answered
          obtain ⟨rfl, -⟩ := Prod.ext_iff.mp hmade
          rcases step_cases hc hstep with ⟨p, a, s, hcall, -, hplaced, heq, rfl⟩ |
            ⟨_, _, _, hcall | hcall, -⟩ | ⟨-, herr⟩
          · obtain rfl : pid = p.profileId := by simpa using hcall
            rw [heq, Except.ok.injEq] at hok
            exact tracked_spawn hplaced hok
          · simp at hcall
          · simp at hcall
          · rw [herr pid rfl] at hok
            simp at hok
        · exact hold st hlook
      · exact hold st hlook
    | _ => exact hold st hlook
  | osSpawned r' =>
    simp only [Orchestrator.step] at h
    split at h
    · obtain rfl := Option.some.inj h
      exact hk r t st (HashMap.lookup_erase_eq_some_iff.mp hlook).2
    · simp at h
  | osFailed r' =>
    -- the entry stays, marked as failed
    simp only [Orchestrator.step] at h
    split at h
    · rename_i t' hpending
      obtain rfl := Option.some.inj h
      rcases HashMap.lookup_insert_cases hlook with ⟨rfl, hmade⟩ | ⟨-, hold⟩
      · obtain ⟨rfl, -⟩ := Prod.ext_iff.mp hmade
        exact hk r t .requested hpending
      · exact hk r t st hold
    · simp at h
  | abortSpawn r' =>
    simp only [Orchestrator.step] at h
    split at h
    · rename_i t' hpending
      obtain ⟨out, hout, rfl⟩ := Option.map_eq_some_iff.mp h
      have hstep : o.lifecycle.step (.abortSpawn t') = some out.2 := by
        simp [LifecycleManager.step, hout]
      exact (hk r t st (HashMap.lookup_erase_eq_some_iff.mp hlook).2).step hc hstep
    · simp at h

theorem allTracked_of_run (h : Run registry tr o) : AllTracked o := by
  refine h.invariant (I := fun _ o => AllTracked o) (fun r t st hlook => ?_) ?_
  · simp [new] at hlook
  · exact fun _ _ _ _ hrun hk hstep => hk.step (consistent_of_run hrun) hstep

/-! ### What an abort leaves behind -/

/-- The renderer is not registered, and no record names it. -/
def Unused (lm : LifecycleManager) (r : RendererId) : Prop :=
  lm.scheduler.isRegistered r = false ∧ ∀ t rec, lm.tabs.lookup t = some rec → rec.renderer ≠ r

theorem unused_iff (hc : Consistent lm) : Unused lm r ↔ lm.slot r = none := by
  have hreg : lm.scheduler.isRegistered r = false ↔ lm.slot r = none := by
    rw [← Bool.not_eq_true, Scheduler.isRegistered_iff, ← Option.isSome_iff_exists,
      Bool.not_eq_true, Option.isSome_eq_false_iff, Option.isNone_iff_eq_none]
    rfl
  constructor
  · exact fun h => hreg.mp h.1
  · refine fun h => ⟨hreg.mpr h, fun t rec hrec hr => ?_⟩
    obtain ⟨s, hs, -⟩ := hc.in_slot t rec hrec
    rw [hr, h] at hs
    simp at hs

/-- A renderer that is gone: minted once, and registered no more. -/
def Gone (lm : LifecycleManager) (r : RendererId) : Prop :=
  lm.slot r = none ∧ r.val < lm.nextRendererId

/-- **A renderer that is gone stays gone**, since a registration only takes a number
that was not minted before. -/
theorem Gone.step (hg : Gone lm r) (hc : Consistent lm) (h : lm.step c = some lm') :
    Gone lm' r := by
  obtain ⟨hslot, hr⟩ := hg
  refine ⟨?_, hr.trans_le (counters_le hc h).2⟩
  rcases step_cases hc h with ⟨p, a, s, -, -, hplaced, -, rfl⟩ | ⟨t, rec, s, -, -, hs, -, rfl⟩ |
    ⟨hquiet, -⟩
  · rw [slot_place]
    split
    · rename_i hra
      -- the renderer a tab is placed on was registered, or is numbered by the counter
      rcases hplaced with ⟨s₀, hs₀, -⟩ | ⟨rfl, -⟩
      · rw [← hra, hslot] at hs₀
        simp at hs₀
      · subst hra
        exact absurd hr (lt_irrefl _)
    · exact hslot
  · rw [slot_drop]
    split
    · rename_i hr
      rw [← hr, hslot] at hs
      simp at hs
    · exact hslot
  · rw [hquiet.slot_eq, hslot]

theorem Gone.orchestrate (hg : Gone o.lifecycle r) (hc : Consistent o.lifecycle)
    (h : o.step e = some o') : Gone o'.lifecycle r := by
  rcases step_lifecycle h with ⟨c, hstep, -⟩ | ⟨heq, -⟩
  · exact hg.step hc hstep
  · rwa [heq]

/-- No spawn attaches to a renderer that is gone. -/
theorem Gone.not_attach (hg : Gone lm r) (hc : Consistent lm) (pid pid' : Uuid) (t : TabId) :
    (lm.spawnTab pid).1 ≠ .ok (.attachToExisting r t pid') := by
  cases hp : lm.registry.get pid with
  | none =>
    rw [spawnTab_unknown hp]
    simp
  | some p =>
    obtain rfl := ProfileRegistry.profileId_of_get hp
    obtain ⟨a, s, hplaced, heq⟩ := spawnTab_ok hc hp
    rw [heq]
    rintro hok
    obtain rfl : a = .attachToExisting r t pid' := by simpa using hok
    rcases hplaced with ⟨s₀, hs₀, -⟩ | ⟨ha, -⟩
    · have hs₀' : lm.slot r = some s₀ := hs₀
      rw [hg.1] at hs₀'
      simp at hs₀'
    · simp at ha

/-- No tab but `t` is on the renderer. -/
def Alone (lm : LifecycleManager) (r : RendererId) (t : TabId) : Prop :=
  ∀ s, lm.slot r = some s → ∀ t' ∈ s.tabs, t' = t

/-- **An abort removes the renderer exactly when the tab was alone on it.** -/
theorem slot_abortSpawn (hc : Consistent lm) (hk : Tracked lm r t)
    (h : lm.step (.abortSpawn t) = some lm') : lm'.slot r = none ↔ Alone lm r t := by
  obtain ⟨out, hout, rfl⟩ := Option.map_eq_some_iff.mp h
  have hout' : lm.closeTab t = some out := hout
  cases hrec : lm.tabs.lookup t with
  | none =>
    rw [closeTab_unknown hrec, Option.some.injEq] at hout'
    subst hout'
    constructor
    · intro hslot s hs
      rw [hslot] at hs
      simp at hs
    · intro halone
      by_contra hne
      obtain ⟨s, hs⟩ := Option.ne_none_iff_exists'.mp hne
      obtain ⟨u, hu⟩ := hc.nonempty r s hs
      obtain rfl := halone s hs u hu
      obtain ⟨rec, hrec', -⟩ := hc.recorded r s u hs hu
      rw [hrec] at hrec'
      simp at hrec'
  | some rec =>
    obtain rfl := hk.2.2 rec hrec
    obtain ⟨s, hs, hmem, heq⟩ := closeTab_cases hc hrec
    rw [heq, Option.some.injEq] at hout'
    subst hout'
    rw [slot_drop, if_pos rfl]
    have hempty : s.tabs.erase t = ∅ ↔ ∀ t' ∈ s.tabs, t' = t := by
      rw [Finset.eq_empty_iff_forall_notMem]
      refine forall_congr' fun t' => ?_
      rw [Finset.mem_erase]
      tauto
    constructor
    · intro hslot s' hs'
      obtain rfl : s = s' := Option.some.inj (hs.symm.trans hs')
      refine hempty.mp ?_
      by_contra hne
      rw [if_neg hne] at hslot
      simp at hslot
    · exact fun halone => if_pos (hempty.mpr (halone s hs))

/-- **Rollback**: after the abort for the tab that was told to spawn `r`, and ever
after, `r` is not registered, no record names it, and no spawn is told to attach to
it. -/
def RollsBack (tr : List (Step Orchestrator Event)) : Prop :=
  ∀ before x after r, tr = before ++ x :: after → x.input = .abortSpawn r →
    Unused x.post.lifecycle r ∧
      ∀ y ∈ after, Unused y.post.lifecycle r ∧
        ∀ pid pid' t, y.input = .call (.spawnTab pid) →
          (y.pre.lifecycle.spawnTab pid).1 ≠ .ok (.attachToExisting r t pid')

/-- Every tab an abort was made for was alone on its renderer, just before. -/
def AbortsAlone (tr : List (Step Orchestrator Event)) : Prop :=
  ∀ x ∈ tr, ∀ r t, x.input = .abortSpawn r → x.pre.pending.lookup r = some (t, .failed) →
    Alone x.pre.lifecycle r t

/-- What the abort for the tab that was told to spawn `r` does to `r`. -/
theorem gone_abortSpawn (h : Run registry tr o) (hstep : o.step (.abortSpawn r) = some o') :
    ∃ t, o.pending.lookup r = some (t, .failed) ∧
      (o'.lifecycle.slot r = none ↔ Alone o.lifecycle r t) ∧
      r.val < o'.lifecycle.nextRendererId := by
  have hc := consistent_of_run h
  rcases step_lifecycle hstep with ⟨c, hcall, habort⟩ | ⟨-, hne⟩
  · obtain ⟨t, hpending, rfl⟩ := habort r rfl
    have hk := allTracked_of_run h r t _ hpending
    exact ⟨t, hpending, slot_abortSpawn hc hk hcall, hk.1.trans_le (counters_le hc hcall).2⟩
  · exact absurd rfl (hne r)

/-- A renderer that is gone at some point of a run is unused from there on, and no
spawn attaches to it. -/
theorem Gone.rest {o₁ : Orchestrator} {after : List (Step Orchestrator Event)}
    (hg : Gone o₁.lifecycle r) (hc : Consistent o₁.lifecycle)
    (h : Transition.Run (Transition.ofFun Orchestrator.step) o₁ after o) :
    ∀ y ∈ after, Unused y.post.lifecycle r ∧ ∀ pid pid' t, y.input = .call (.spawnTab pid) →
      (y.pre.lifecycle.spawnTab pid).1 ≠ .ok (.attachToExisting r t pid') := by
  intro y hy
  obtain ⟨⟨hc₁, hg₁⟩, hc₂, hg₂⟩ := h.forall_step
    (I := fun o => Consistent o.lifecycle ∧ Gone o.lifecycle r) ⟨hc, hg⟩
    (fun _ _ _ hi hstep => ⟨consistent_step hi.1 hstep, hi.2.orchestrate hi.1 hstep⟩) y hy
  exact ⟨(unused_iff hc₂).mpr hg₂.1, fun pid pid' t _ => hg₁.not_attach hc₁ pid pid' t⟩

/-- **When the protocol rolls back**: a run keeps its promise exactly when every aborted
tab was the only one on the renderer it was told to spawn. -/
theorem rollsBack_iff (h : Run registry tr o) : RollsBack tr ↔ AbortsAlone tr := by
  constructor
  · intro hback x hx r t hinput hpending
    obtain ⟨before, after, htr, hrun, hstep, -⟩ := h.of_mem hx
    have hunused := (hback before x after r htr hinput).1
    rw [hinput] at hstep
    obtain ⟨t', hpending', hiff, -⟩ := gone_abortSpawn hrun hstep
    obtain rfl : t' = t := by simpa [hpending] using hpending'.symm
    exact hiff.mp ((unused_iff (consistent_step (consistent_of_run hrun) hstep)).mp hunused)
  · intro halone before x after r htr hinput
    obtain ⟨hrun, hstep, hafter⟩ := (htr ▸ h).cut
    rw [hinput] at hstep
    obtain ⟨t, hpending, hiff, hlt⟩ := gone_abortSpawn hrun hstep
    have hc := consistent_step (consistent_of_run hrun) hstep
    have hslot := hiff.mpr (halone x (by simp [htr]) r t hinput hpending)
    have hg : Gone x.post.lifecycle r := ⟨hslot, hlt⟩
    exact ⟨(unused_iff hc).mpr hslot, hg.rest hc hafter⟩

/-- The spawn for a lone tab fails and is rolled back. -/
theorem rollsBack_lone :
    ∃ tr o, Run .newInMemory tr o ∧ tr.map Step.input =
        [.call (.registryInsert ⟨Uuid.splat 1, "Personal", .standard⟩),
          .call (.spawnTab (Uuid.splat 1)), .osFailed ⟨1⟩, .abortSpawn ⟨1⟩] ∧
      (RollsBack tr ↔ AbortsAlone tr) := by
  have hexec : (Transition.exec step (new .newInMemory)
      [.call (.registryInsert ⟨Uuid.splat 1, "Personal", .standard⟩),
        .call (.spawnTab (Uuid.splat 1)), .osFailed ⟨1⟩, .abortSpawn ⟨1⟩]).isSome = true := by
    decide
  obtain ⟨tr, o, hrun, hinputs⟩ := Transition.exists_run hexec
  exact ⟨tr, o, hrun, hinputs, rollsBack_iff hrun⟩

/-- **A second tab joins the pending renderer**: the first tab's renderer fails to come
up and its spawn is aborted, but the renderer stays registered for the second. -/
theorem not_rollsBack_joined :
    ∃ tr o, Run .newInMemory tr o ∧ tr.map Step.input =
        [.call (.registryInsert ⟨Uuid.splat 1, "Personal", .standard⟩),
          .call (.spawnTab (Uuid.splat 1)), .call (.spawnTab (Uuid.splat 1)), .osFailed ⟨1⟩,
          .abortSpawn ⟨1⟩] ∧ ¬ RollsBack tr := by
  have hexec : (Transition.exec step (new .newInMemory)
      [.call (.registryInsert ⟨Uuid.splat 1, "Personal", .standard⟩),
        .call (.spawnTab (Uuid.splat 1)), .call (.spawnTab (Uuid.splat 1)), .osFailed ⟨1⟩,
        .abortSpawn ⟨1⟩]).any (fun p => p.2.lifecycle.scheduler.isRegistered ⟨1⟩) = true := by
    decide
  obtain ⟨tr, o, hrun, hinputs, hreg⟩ := Transition.exists_run_where hexec
  refine ⟨tr, o, hrun, hinputs, fun hback => ?_⟩
  rcases hrun.eq_or_snoc with ⟨rfl, -⟩ | ⟨tr', m, e, rfl, -, -⟩
  · simp at hinputs
  · rw [List.map_append] at hinputs
    have hlast := congrArg List.getLast? hinputs
    obtain rfl : e = .abortSpawn ⟨1⟩ := by simpa using hlast
    have hunused := (hback tr' _ [] ⟨1⟩ rfl rfl).1.1
    rw [hreg] at hunused
    simp at hunused

end Orchestrator

end Identity

end DevBrowse
