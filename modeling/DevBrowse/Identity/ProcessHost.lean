import DevBrowse.Identity.Invariant
import Mathlib.Logic.Function.Basic

/-!
# The processes behind the lifecycle manager

The manager starts and kills no process. It changes its own records, and answers with what is to
be done about it: spawn a renderer, attach a tab to one, detach a tab, kill a renderer, freeze a
tab or wake it. What such answers are good for is seen against the processes they are about.

A host (`DevBrowse.Identity.Host`) is these processes, with the tabs attached to each. It obeys a
command only where the command makes sense: a renderer is spawned under a number that no process
has had, a tab is attached to a process that runs for its profile, the process that is killed is
left by its last tab. The manager's answers, carried out in their order from a host without
processes, are all obeyed, and what comes of it is what the manager has on record
(`DevBrowse.Identity.LifecycleManager.commands_obeyed`).

Every spawn comes up here. A spawn that is aborted is closed like any other tab.
-/

namespace DevBrowse

namespace Identity

open Transition (Step)

/-! ### The host -/

/-- What has become of the process of a renderer. -/
inductive ProcessLife where
  /-- There has been none. -/
  | unborn
  /-- It runs, for a profile. -/
  | running (profileId : Uuid) (mode : Mode)
  /-- It was killed. -/
  | killed
  deriving DecidableEq

/-- **The processes of the renderers**, and where the tabs are. -/
structure Host where
  /-- What has become of each process. -/
  life : RendererId → ProcessLife
  /-- The renderer each tab is attached to, and whether it is frozen there. -/
  seat : TabId → Option (RendererId × TabState)

/-- What a host is told to do. -/
inductive Command where
  /-- What a spawn answers with. -/
  | process (action : ProcessAction)
  /-- What a close answers with. -/
  | close (action : CloseAction)
  /-- What suspending answers with. -/
  | suspend (action : SuspendAction)
  /-- What resuming answers with. -/
  | resume (action : ResumeAction)
  deriving DecidableEq

namespace Host

/-- No process has been started. -/
def idle : Host := ⟨fun _ => .unborn, fun _ => none⟩

/-- **A host obeys a command**, where the command makes sense. -/
inductive Obeys : Host → Command → Host → Prop
  /-- A process is started under a new number, for a tab that is attached to it. -/
  | spawn {host : Host} {r : RendererId} {t : TabId} {profileId : Uuid} {mode : Mode} :
      host.life r = .unborn → host.seat t = none →
      Obeys host (.process (.spawnRenderer r t profileId mode))
        ⟨Function.update host.life r (.running profileId mode),
          Function.update host.seat t (some (r, .active))⟩
  /-- A tab is attached to a Standard process of its profile. -/
  | attach {host : Host} {r : RendererId} {t : TabId} {profileId : Uuid} :
      host.life r = .running profileId .standard → host.seat t = none →
      Obeys host (.process (.attachToExisting r t profileId))
        ⟨host.life, Function.update host.seat t (some (r, .active))⟩
  /-- A tab is detached from a process that has another. -/
  | detach {host : Host} {r : RendererId} {t t' : TabId} {state state' : TabState} :
      host.seat t = some (r, state) → t' ≠ t → host.seat t' = some (r, state') →
      Obeys host (.close (.detachOnly r t)) ⟨host.life, Function.update host.seat t none⟩
  /-- A running process is killed with its last tab. -/
  | kill {host : Host} {r : RendererId} {t : TabId} {state : TabState} {profileId : Uuid}
      {mode : Mode} :
      host.life r = .running profileId mode → host.seat t = some (r, state) →
      (∀ t', t' ≠ t → ∀ state', host.seat t' ≠ some (r, state')) →
      Obeys host (.close (.detachAndKillRenderer r t))
        ⟨Function.update host.life r .killed, Function.update host.seat t none⟩
  /-- A tab that is not frozen is frozen. -/
  | suspend {host : Host} {action : SuspendAction} :
      host.seat action.tab = some (action.renderer, .active) →
      Obeys host (.suspend action) ⟨host.life,
        Function.update host.seat action.tab (some (action.renderer, .suspended))⟩
  /-- A frozen tab is woken. -/
  | resume {host : Host} {action : ResumeAction} :
      host.seat action.tab = some (action.renderer, .suspended) →
      Obeys host (.resume action) ⟨host.life,
        Function.update host.seat action.tab (some (action.renderer, .active))⟩

end Host

namespace LifecycleManager

/-! ### What the manager answers with -/

/-- The command a call answers with, if it does not fail. -/
def commandOf (lm : LifecycleManager) : Call → Option Command
  | .spawnTab profileId =>
    match (lm.spawnTab profileId).1 with
    | .ok action => some (.process action)
    | .error _ => none
  | .closeTab tab =>
    match lm.closeTab tab with
    | some (.ok action, _) => some (.close action)
    | _ => none
  | .abortSpawn tab =>
    match lm.abortSpawn tab with
    | some (.ok action, _) => some (.close action)
    | _ => none
  | .suspendTab tab reason =>
    match (lm.suspendTab tab reason).1 with
    | .ok action => some (.suspend action)
    | .error _ => none
  | .resumeTab tab =>
    match (lm.resumeTab tab).1 with
    | .ok action => some (.resume action)
    | .error _ => none
  | _ => none

/-- The commands of a step: one, or none. -/
def commands (x : Step LifecycleManager Call) : List Command := (x.pre.commandOf x.input).toList

/-! ### The host the manager has on record -/

/-- What the manager takes the process of a renderer to be. -/
def lifeOf (lm : LifecycleManager) (r : RendererId) : ProcessLife :=
  match lm.slot r with
  | some s => .running s.profileId s.mode
  | none => if 1 ≤ r.val ∧ r.val < lm.nextRendererId then .killed else .unborn

/-- Where the manager takes a tab to be. -/
def seatOf (lm : LifecycleManager) (t : TabId) : Option (RendererId × TabState) :=
  (lm.tabs.lookup t).map fun rec => (rec.renderer, rec.state)

/-- **The host the manager has on record.** -/
def hostOf (lm : LifecycleManager) : Host := ⟨lm.lifeOf, lm.seatOf⟩

variable {lm lm' : LifecycleManager} {c : Call} {t : TabId} {r : RendererId} {pid : Uuid}
  {s : RendererSlot} {rec : TabRecord} {registry : ProfileRegistry}
  {tr : List (Step LifecycleManager Call)}

theorem lifeOf_of_slot (hs : lm.slot r = some s) : lm.lifeOf r = .running s.profileId s.mode := by
  rw [lifeOf, hs]

theorem lifeOf_eq_running_iff {mode : Mode} :
    lm.lifeOf r = .running pid mode ↔ ∃ s, lm.slot r = some s ∧ s.profileId = pid ∧
      s.mode = mode := by
  rw [lifeOf]
  cases lm.slot r with
  | none =>
    refine iff_of_false (fun h => ?_) (by simp)
    dsimp only at h
    split at h <;> cases h
  | some s => simp

theorem seatOf_of_lookup (hrec : lm.tabs.lookup t = some rec) :
    lm.seatOf t = some (rec.renderer, rec.state) := by
  rw [seatOf, hrec]
  rfl

theorem hostOf_new (registry : ProfileRegistry) : (new registry).hostOf = Host.idle := by
  have hlife : (new registry).lifeOf = Host.idle.life := funext fun r => by
    have hnone : (new registry).slot r = none := rfl
    rw [lifeOf, hnone]
    exact if_neg fun h => absurd h.2 (Nat.not_lt.mpr h.1)
  rw [hostOf, hlife]
  rfl

/-! ### One call -/

/-- A tab that is placed is attached to its renderer, and the process of that runs. -/
theorem hostOf_place (hr : r.val ≤ lm.nextRendererId) (pid : Uuid) :
    (lm.place r s pid).hostOf = ⟨Function.update lm.lifeOf r (.running s.profileId s.mode),
      Function.update lm.seatOf ⟨lm.nextTabId⟩ (some (r, .active))⟩ := by
  have hlife : (lm.place r s pid).lifeOf =
      Function.update lm.lifeOf r (.running s.profileId s.mode) := funext fun r' => by
    by_cases hr' : r' = r
    · rw [hr', Function.update_self, lifeOf, slot_place, if_pos rfl]
    · -- a process was started under a number before exactly if it is below the counter now
      have hcounter : r'.val < (lm.place r s pid).nextRendererId ↔ r'.val < lm.nextRendererId := by
        have hne : r'.val ≠ r.val := fun h => hr' (congrArg RendererId.mk h)
        show r'.val < max lm.nextRendererId (r.val + 1) ↔ _
        omega
      rw [Function.update_of_ne hr', lifeOf, lifeOf, slot_place, if_neg hr']
      simp only [hcounter]
  have hseat : (lm.place r s pid).seatOf =
      Function.update lm.seatOf ⟨lm.nextTabId⟩ (some (r, .active)) := funext fun t => by
    rw [seatOf, place, HashMap.lookup_insert_eq]
    by_cases ht : t = ⟨lm.nextTabId⟩
    · rw [if_pos ht, ht, Function.update_self]
      rfl
    · rw [if_neg ht, Function.update_of_ne ht]
      rfl
  rw [hostOf, hlife, hseat]

/-- A tab that is dropped is detached, and with the last tab of a renderer its process is
killed. -/
theorem hostOf_drop (h : Consistent lm) (hpos : 1 ≤ r.val) (hs : lm.slot r = some s) :
    (lm.drop t r s).hostOf =
      ⟨if s.tabs.erase t = ∅ then Function.update lm.lifeOf r .killed else lm.lifeOf,
        Function.update lm.seatOf t none⟩ := by
  have hlife : (lm.drop t r s).lifeOf =
      if s.tabs.erase t = ∅ then Function.update lm.lifeOf r .killed else lm.lifeOf :=
    funext fun r' => by
      by_cases hr' : r' = r
      · rw [hr', lifeOf, slot_drop, if_pos rfl]
        by_cases hempty : s.tabs.erase t = ∅
        · rw [if_pos hempty, if_pos hempty, Function.update_self]
          exact if_pos ⟨hpos, h.renderer_lt r s hs⟩
        · rw [if_neg hempty, if_neg hempty, lifeOf_of_slot hs]
      · have hsame : (lm.drop t r s).lifeOf r' = lm.lifeOf r' := by
          rw [lifeOf, lifeOf, slot_drop, if_neg hr']
          rfl
        rw [hsame]
        split
        · rw [Function.update_of_ne hr']
        · rfl
  have hseat : (lm.drop t r s).seatOf = Function.update lm.seatOf t none := funext fun t' => by
    rw [seatOf, drop, HashMap.lookup_erase_eq]
    by_cases ht : t' = t
    · rw [if_pos ht, ht, Function.update_self]
      rfl
    · rw [if_neg ht, Function.update_of_ne ht]
      rfl
  rw [hostOf, hlife, hseat]

/-- A record that is rewritten changes the state of its tab. -/
theorem hostOf_restate (rec : TabRecord) (state : TabState) (reason : Option SuspendReason) :
    hostOf { lm with tabs := lm.tabs.insert t ⟨rec.profileId, rec.renderer, state, reason⟩ } =
      ⟨lm.lifeOf, Function.update lm.seatOf t (some (rec.renderer, state))⟩ := by
  refine congrArg (Host.mk lm.lifeOf) (funext fun t' => ?_)
  rw [seatOf, HashMap.lookup_insert_eq]
  by_cases ht : t' = t
  · rw [if_pos ht, ht, Function.update_self]
    rfl
  · rw [if_neg ht, Function.update_of_ne ht]
    rfl

/-- Renderers are numbered from one on. -/
structure Numbered (lm : LifecycleManager) : Prop where
  /-- The next number is one at least. -/
  next : 1 ≤ lm.nextRendererId
  /-- So are the numbers in use. -/
  slot : ∀ r s, lm.slot r = some s → 1 ≤ r.val

theorem numbered_new (registry : ProfileRegistry) : Numbered (new registry) :=
  ⟨Nat.le_refl 1, fun _ _ hs => by cases hs⟩

theorem Numbered.place (hn : Numbered lm) (hpos : 1 ≤ r.val) (pid : Uuid) :
    Numbered (lm.place r s pid) := by
  refine ⟨hn.next.trans (Nat.le_max_left _ _), fun r' s' hs' => ?_⟩
  rcases slot_place_cases hs' with ⟨rfl, -⟩ | ⟨-, hold⟩
  · exact hpos
  · exact hn.slot r' s' hold

theorem Numbered.drop (hn : Numbered lm) (t : TabId) (hs : lm.slot r = some s) :
    Numbered (lm.drop t r s) := by
  refine ⟨hn.next, fun r' s' hs' => ?_⟩
  rcases slot_drop_cases hs' with ⟨rfl, -, -⟩ | ⟨-, hold⟩
  · exact hn.slot r' s hs
  · exact hn.slot r' s' hold

/-- What a command leads to: the host obeys it, or there is none and the host stays as it is. -/
def Followed (lm : LifecycleManager) (c : Call) (lm' : LifecycleManager) : Prop :=
  (lm.commandOf c = none ∧ lm'.hostOf = lm.hostOf) ∨
    ∃ command, lm.commandOf c = some command ∧ Host.Obeys lm.hostOf command lm'.hostOf

/-- **A spawn is obeyed.** -/
theorem followed_spawnTab (h : Consistent lm) (hn : Numbered lm) (pid : Uuid) :
    Followed lm (.spawnTab pid) (lm.spawnTab pid).2 ∧ Numbered (lm.spawnTab pid).2 := by
  cases hp : lm.registry.get pid with
  | none =>
    have herr : lm.spawnTab pid = (.error (.unknownProfile pid), lm) := by
      simp only [spawnTab, hp]
    refine ⟨.inl ⟨?_, ?_⟩, ?_⟩
    · rw [commandOf, herr]
    · rw [herr]
    · rw [herr]
      exact hn
  | some p =>
    have hseat : lm.seatOf ⟨lm.nextTabId⟩ = none := by
      rw [seatOf, h.fresh_tab]
      rfl
    rcases spawnTab_cases h hp with ⟨r, s, hs, hsm, -, hsp, heq⟩ | ⟨-, heq⟩
    · -- the process of the renderer runs on
      have hlife := lifeOf_of_slot hs
      have hhost := hostOf_place (s := { s with tabs := insert ⟨lm.nextTabId⟩ s.tabs })
        (Nat.le_of_lt (h.renderer_lt r s hs)) pid
      rw [← hlife, Function.update_eq_self] at hhost
      refine ⟨.inr ⟨.process (.attachToExisting r ⟨lm.nextTabId⟩ pid), ?_, ?_⟩, ?_⟩
      · rw [commandOf, heq]
      · rw [heq, hhost]
        exact .attach (hlife.trans (by rw [hsp, hsm])) hseat
      · rw [heq]
        exact hn.place (hn.slot r s hs) pid
    · have hunborn : lm.lifeOf ⟨lm.nextRendererId⟩ = .unborn := by
        rw [lifeOf, h.fresh_renderer]
        exact if_neg fun hlt => absurd hlt.2 (Nat.lt_irrefl _)
      have hhost := hostOf_place (r := ⟨lm.nextRendererId⟩)
        (s := ⟨pid, p.mode, {⟨lm.nextTabId⟩}⟩) (Nat.le_refl _) pid
      refine ⟨.inr ⟨.process (.spawnRenderer ⟨lm.nextRendererId⟩ ⟨lm.nextTabId⟩ pid p.mode),
        ?_, ?_⟩, ?_⟩
      · rw [commandOf, heq]
      · rw [heq, hhost]
        exact .spawn hunborn hseat
      · rw [heq]
        exact hn.place hn.next pid

/-- **A close is obeyed**, also where it aborts a spawn. -/
theorem followed_closeTab (h : Consistent lm) (hn : Numbered lm) (t : TabId)
    (hc : c = .closeTab t ∨ c = .abortSpawn t) {answer : Except LifecycleError CloseAction}
    (hclose : lm.closeTab t = some (answer, lm')) : Followed lm c lm' ∧ Numbered lm' := by
  have hcommand : lm.commandOf c = match lm.closeTab t with
      | some (.ok action, _) => some (.close action)
      | _ => none := by
    rcases hc with rfl | rfl <;> rfl
  cases hrec : lm.tabs.lookup t with
  | none =>
    have herr := closeTab_unknown hrec
    rw [herr] at hclose hcommand
    obtain rfl : lm = lm' := by cases hclose; rfl
    exact ⟨.inl ⟨hcommand, rfl⟩, hn⟩
  | some rec =>
    obtain ⟨s, hs, hmem, heq⟩ := closeTab_cases h hrec
    rw [heq] at hclose hcommand
    obtain rfl : lm.drop t rec.renderer s = lm' := by cases hclose; rfl
    have hhost := hostOf_drop (t := t) h (hn.slot _ s hs) hs
    have hseat : lm.hostOf.seat t = some (rec.renderer, rec.state) := seatOf_of_lookup hrec
    refine ⟨.inr ⟨_, hcommand, ?_⟩, hn.drop t hs⟩
    rw [hhost]
    by_cases hempty : s.tabs.erase t = ∅
    · rw [if_pos hempty, if_pos hempty]
      refine .kill (lifeOf_of_slot hs) hseat fun t' ht' state' hseat' => ?_
      -- another tab there would be left in the slot
      obtain ⟨rec', hrec', hat⟩ := Option.map_eq_some_iff.mp hseat'
      obtain ⟨s', hs', hmem'⟩ := h.in_slot t' rec' hrec'
      obtain rfl : s = s' := by
        have hr : rec'.renderer = rec.renderer := congrArg Prod.fst hat
        exact Option.some.inj (hs.symm.trans (hr ▸ hs'))
      exact Finset.notMem_empty t' (hempty ▸ Finset.mem_erase.mpr ⟨ht', hmem'⟩)
    · rw [if_neg hempty, if_neg hempty]
      obtain ⟨t', ht'⟩ := Finset.nonempty_iff_ne_empty.mpr hempty
      obtain ⟨hne, hmem'⟩ := Finset.mem_erase.mp ht'
      obtain ⟨rec', hrec', hr⟩ := h.recorded _ s t' hs hmem'
      have hseat' := seatOf_of_lookup hrec'
      rw [hr] at hseat'
      exact .detach hseat hne hseat'

/-- What suspending a tab answers with: an error, or that the tab is to be frozen. -/
theorem suspendTab_answer (lm : LifecycleManager) (t : TabId) (reason : SuspendReason) :
    (∃ e, lm.suspendTab t reason = (.error e, lm)) ∨
      ∃ rec : TabRecord, lm.seatOf t = some (rec.renderer, .active) ∧
        lm.suspendTab t reason = (.ok ⟨t, rec.renderer, reason⟩, { lm with
          tabs := lm.tabs.insert t ⟨rec.profileId, rec.renderer, .suspended, some reason⟩ }) := by
  cases hrec : lm.tabs.lookup t with
  | none => exact .inl ⟨.unknownTab t, by simp only [suspendTab, hrec]⟩
  | some rec =>
    cases hstate : rec.state with
    | suspended => exact .inl ⟨.noStateChange t, by simp only [suspendTab, hrec, hstate, if_true]⟩
    | active =>
      refine .inr ⟨rec, ?_, by simp [suspendTab, hrec, hstate]⟩
      rw [seatOf_of_lookup hrec, hstate]

/-- What resuming a tab answers with: an error, or that the tab is to be woken. -/
theorem resumeTab_answer (lm : LifecycleManager) (t : TabId) :
    (∃ e, lm.resumeTab t = (.error e, lm)) ∨
      ∃ rec : TabRecord, lm.seatOf t = some (rec.renderer, .suspended) ∧
        lm.resumeTab t = (.ok ⟨t, rec.renderer⟩, { lm with
          tabs := lm.tabs.insert t ⟨rec.profileId, rec.renderer, .active, none⟩ }) := by
  cases hrec : lm.tabs.lookup t with
  | none => exact .inl ⟨.unknownTab t, by simp only [resumeTab, hrec]⟩
  | some rec =>
    cases hstate : rec.state with
    | active => exact .inl ⟨.noStateChange t, by simp only [resumeTab, hrec, hstate, if_true]⟩
    | suspended =>
      refine .inr ⟨rec, ?_, by simp [resumeTab, hrec, hstate]⟩
      rw [seatOf_of_lookup hrec, hstate]

/-- **Suspending is obeyed.** -/
theorem followed_suspendTab (hn : Numbered lm) (t : TabId) (reason : SuspendReason) :
    Followed lm (.suspendTab t reason) (lm.suspendTab t reason).2 ∧
      Numbered (lm.suspendTab t reason).2 := by
  rcases lm.suspendTab_answer t reason with ⟨e, heq⟩ | ⟨rec, hseat, heq⟩
  · rw [heq]
    exact ⟨.inl ⟨by rw [commandOf, heq], rfl⟩, hn⟩
  · rw [heq]
    refine ⟨.inr ⟨.suspend ⟨t, rec.renderer, reason⟩, by rw [commandOf, heq], ?_⟩,
      ⟨hn.next, hn.slot⟩⟩
    rw [hostOf_restate]
    exact .suspend hseat

/-- **Resuming is obeyed.** -/
theorem followed_resumeTab (hn : Numbered lm) (t : TabId) :
    Followed lm (.resumeTab t) (lm.resumeTab t).2 ∧ Numbered (lm.resumeTab t).2 := by
  rcases lm.resumeTab_answer t with ⟨e, heq⟩ | ⟨rec, hseat, heq⟩
  · rw [heq]
    exact ⟨.inl ⟨by rw [commandOf, heq], rfl⟩, hn⟩
  · rw [heq]
    refine ⟨.inr ⟨.resume ⟨t, rec.renderer⟩, by rw [commandOf, heq], ?_⟩, ⟨hn.next, hn.slot⟩⟩
    rw [hostOf_restate]
    exact .resume hseat

/-- The host the manager has on record does not depend on the registry, nor on the order of the
slots. -/
theorem followed_of_lookup_eq (hn : Numbered lm) (hc : lm.commandOf c = none)
    (htabs : lm'.tabs = lm.tabs) (hslot : ∀ r, lm'.slot r = lm.slot r)
    (hnext : lm'.nextRendererId = lm.nextRendererId) : Followed lm c lm' ∧ Numbered lm' := by
  have hlife : lm'.lifeOf = lm.lifeOf := funext fun r => by rw [lifeOf, lifeOf, hslot, hnext]
  have hseat : lm'.seatOf = lm.seatOf := funext fun t => by rw [seatOf, seatOf, htabs]
  refine ⟨.inl ⟨hc, by rw [hostOf, hlife, hseat, ← hostOf]⟩, ⟨hnext ▸ hn.next, fun r s hs => ?_⟩⟩
  exact hn.slot r s ((hslot r).symm.trans hs)

/-- **Whatever a call answers with is obeyed.** -/
theorem followed_step (h : Consistent lm) (hn : Numbered lm) (hstep : lm.step c = some lm') :
    Followed lm c lm' ∧ Numbered lm' := by
  cases c with
  | spawnTab pid =>
    obtain rfl := Option.some.inj hstep
    exact followed_spawnTab h hn pid
  | closeTab t =>
    obtain ⟨⟨answer, lm₁⟩, hclose, rfl⟩ := Option.map_eq_some_iff.mp hstep
    exact followed_closeTab h hn t (.inl rfl) hclose
  | abortSpawn t =>
    obtain ⟨⟨answer, lm₁⟩, hclose, rfl⟩ := Option.map_eq_some_iff.mp hstep
    exact followed_closeTab h hn t (.inr rfl) hclose
  | suspendTab t reason =>
    obtain rfl := Option.some.inj hstep
    exact followed_suspendTab hn t reason
  | resumeTab t =>
    obtain rfl := Option.some.inj hstep
    exact followed_resumeTab hn t
  | registryInsert profile =>
    simp only [step] at hstep
    split at hstep <;> obtain rfl := Option.some.inj hstep
    · exact followed_of_lookup_eq hn rfl rfl (fun _ => rfl) rfl
    · exact ⟨.inl ⟨rfl, rfl⟩, hn⟩
  | registryRemove pid =>
    obtain rfl := Option.some.inj hstep
    exact followed_of_lookup_eq hn rfl rfl (fun _ => rfl) rfl
  | reiterate renderers =>
    simp only [step] at hstep
    split at hstep
    · rename_i hre
      obtain rfl := Option.some.inj hstep
      exact followed_of_lookup_eq hn rfl rfl (slot_reiterate hre) rfl
    · cases hstep

/-! ### Runs -/

/-- The host is the one the manager has on record, and its records agree with each other. -/
structure Tracked (host : Host) (lm : LifecycleManager) : Prop where
  /-- The manager knows the host. -/
  host_eq : host = lm.hostOf
  /-- The tabs and the slots agree. -/
  consistent : Consistent lm
  /-- The renderers are numbered from one on. -/
  numbered : Numbered lm

theorem tracked_new (registry : ProfileRegistry) : Tracked Host.idle (new registry) :=
  ⟨(hostOf_new registry).symm, consistent_new registry, numbered_new registry⟩

/-- A host that is told what a call answers with is tracked on. -/
theorem tracked_step (lm : LifecycleManager) (c : Call) (lm' : LifecycleManager) (host : Host)
    (hstep : Transition.ofFun step lm c lm') (h : Tracked host lm) :
    ∃ told host', Transition.Run Host.Obeys host told host' ∧
      told.map Step.input = commands ⟨lm, c, lm'⟩ ∧ Tracked host' lm' := by
  obtain ⟨rfl, hcons, hn⟩ := h
  obtain ⟨hfollowed, hn'⟩ := followed_step hcons hn hstep
  have hcons' : Consistent lm' := hcons.step hstep
  rcases hfollowed with ⟨hnone, hsame⟩ | ⟨command, hsome, hobey⟩
  · refine ⟨[], _, .nil, ?_, hsame.symm, hcons', hn'⟩
    rw [commands, hnone]
    rfl
  · refine ⟨[⟨_, command, _⟩], _, .snoc .nil hobey, ?_, rfl, hcons', hn'⟩
    rw [commands, hsome]
    rfl

/-- **The commands of a run are obeyed**, one after the other, from a host without processes. What
they come to is the host the manager has on record, and no process there runs without a tab. -/
theorem commands_obeyed (hrun : Run registry tr lm) :
    (∃ told, Transition.Run Host.Obeys Host.idle told lm.hostOf ∧
      told.map Step.input = tr.flatMap commands) ∧
    ∀ r profileId mode, lm.hostOf.life r = .running profileId mode →
      ∃ t state, lm.hostOf.seat t = some (r, state) := by
  obtain ⟨told, host, hobeys, htold, rfl, hcons, -⟩ :=
    Transition.Run.simulation (tracked_new registry) tracked_step hrun
  refine ⟨⟨told, hobeys, htold⟩, fun r profileId mode hlife => ?_⟩
  obtain ⟨s, hs, -, -⟩ := lifeOf_eq_running_iff.mp hlife
  obtain ⟨t, ht⟩ := hcons.nonempty r s hs
  obtain ⟨rec, hrec, hr⟩ := hcons.recorded r s t hs ht
  exact ⟨t, rec.state, (seatOf_of_lookup hrec).trans (by rw [hr])⟩

/-- Two tabs come up on one renderer, one is frozen, and both are closed. -/
theorem commands_obeyed_shared :
    ∃ registry tr lm, Run registry tr lm ∧ tr.map Step.input =
        [.registryInsert ⟨Uuid.splat 1, "Personal", .standard⟩, .spawnTab (Uuid.splat 1),
          .spawnTab (Uuid.splat 1), .suspendTab ⟨2⟩ .userRequested, .closeTab ⟨1⟩,
          .closeTab ⟨2⟩] ∧
      ∃ told, Transition.Run Host.Obeys Host.idle told lm.hostOf ∧
        told.map Step.input = tr.flatMap commands := by
  have hexec : (Transition.exec LifecycleManager.step (new .newInMemory)
      [.registryInsert ⟨Uuid.splat 1, "Personal", .standard⟩, .spawnTab (Uuid.splat 1),
        .spawnTab (Uuid.splat 1), .suspendTab ⟨2⟩ .userRequested, .closeTab ⟨1⟩,
        .closeTab ⟨2⟩]).isSome = true := by decide
  obtain ⟨tr, lm, hrun, hinputs⟩ := Transition.exists_run hexec
  exact ⟨.newInMemory, tr, lm, hrun, hinputs, (commands_obeyed hrun).1⟩

end LifecycleManager

end Identity

end DevBrowse
