import DevBrowse.Identity.Scheduler
import DevBrowse.Lib.Transition

/-!
# The tab lifecycle manager

The manager owns the tab records and drives the scheduler. It spawns no process: every
operation answers with the action the orchestrator has to carry out, and the manager's
state is changed optimistically before that.

The `u64` counters are kept as natural numbers. They only ever go up by one, and the
release profile turns an overflow into an abort, so a run that has not aborted never
sees one wrap.

An operation that can hit `expect` has its answer in an `Option`, `none` being the
panic.
-/

namespace DevBrowse

namespace Identity

/-- Why a tab was suspended. -/
inductive SuspendReason where
  /-- The user asked for it. -/
  | userRequested
  /-- The tab was inactive for too long; reserved. -/
  | backgroundIdle
  /-- The system ran short of memory; reserved. -/
  | memoryPressure
  deriving DecidableEq

/-- What the orchestrator must do when a tab is suspended. -/
structure SuspendAction where
  /-- The suspended tab. -/
  tab : TabId
  /-- The renderer it lives on. -/
  renderer : RendererId
  /-- Why. -/
  reason : SuspendReason
  deriving DecidableEq

/-- What the orchestrator must do when a tab is resumed. -/
structure ResumeAction where
  /-- The resumed tab. -/
  tab : TabId
  /-- The renderer it lives on. -/
  renderer : RendererId
  deriving DecidableEq

/-- The errors of the manager. -/
inductive LifecycleError where
  /-- No profile is stored under this identifier. -/
  | unknownProfile (profileId : Uuid)
  /-- There is no such tab. -/
  | unknownTab (tab : TabId)
  /-- The tab is already in the requested state. -/
  | noStateChange (tab : TabId)
  /-- The scheduler refused. -/
  | scheduler (e : SchedulerError)
  deriving DecidableEq

/-- The runtime state of a tab. -/
inductive TabState where
  /-- Running. -/
  | active
  /-- Frozen, but still on its renderer. -/
  | suspended
  deriving DecidableEq

/-- What the orchestrator must do to realize a spawn. -/
inductive ProcessAction where
  /-- Attach the tab to an existing renderer process. -/
  | attachToExisting (renderer : RendererId) (tab : TabId) (profileId : Uuid)
  /-- Spawn a fresh renderer process, then attach the tab. -/
  | spawnRenderer (renderer : RendererId) (tab : TabId) (profileId : Uuid) (mode : Mode)
  deriving DecidableEq

/-- The tab an action is about. -/
def ProcessAction.tab : ProcessAction → TabId
  | .attachToExisting _ tab _ => tab
  | .spawnRenderer _ tab _ _ => tab

/-- The renderer an action is about. -/
def ProcessAction.renderer : ProcessAction → RendererId
  | .attachToExisting renderer _ _ => renderer
  | .spawnRenderer renderer _ _ _ => renderer

/-- What the orchestrator must do to realize a close. -/
inductive CloseAction where
  /-- The tab is detached; its renderer has other tabs. -/
  | detachOnly (renderer : RendererId) (tab : TabId)
  /-- The tab is detached and its renderer is empty: kill the process. -/
  | detachAndKillRenderer (renderer : RendererId) (tab : TabId)
  deriving DecidableEq

/-- What the manager remembers of a tab. -/
structure TabRecord where
  /-- The profile the tab was spawned for. -/
  profileId : Uuid
  /-- The renderer it lives on. -/
  renderer : RendererId
  /-- Its runtime state. -/
  state : TabState
  /-- Why it is suspended. -/
  suspendReason : Option SuspendReason
  deriving DecidableEq

/-- **The lifecycle manager.** -/
structure LifecycleManager where
  /-- The identity profiles. -/
  registry : ProfileRegistry
  /-- The renderers. -/
  scheduler : Scheduler
  /-- The tab records. -/
  tabs : HashMap TabId TabRecord
  /-- The next tab number to mint. -/
  nextTabId : ℕ
  /-- The next renderer number to mint. -/
  nextRendererId : ℕ

namespace LifecycleManager

/-- The manager without tabs. -/
def new (registry : ProfileRegistry) : LifecycleManager :=
  ⟨registry, .new, ∅, 1, 1⟩

/-- Mint a tab number. -/
def mintTab (lm : LifecycleManager) : TabId × LifecycleManager :=
  (⟨lm.nextTabId⟩, { lm with nextTabId := lm.nextTabId + 1 })

/-- Mint a renderer number. -/
def mintRenderer (lm : LifecycleManager) : RendererId × LifecycleManager :=
  (⟨lm.nextRendererId⟩, { lm with nextRendererId := lm.nextRendererId + 1 })

/-- Spawn a tab for a profile. The counters are advanced before the scheduler is asked,
and stay advanced when it refuses. -/
def spawnTab (lm : LifecycleManager) (profileId : Uuid) :
    Except LifecycleError ProcessAction × LifecycleManager :=
  match lm.registry.get profileId with
  | none => (.error (.unknownProfile profileId), lm)
  | some profile =>
    let (tab, lm) := lm.mintTab
    match lm.scheduler.schedule profile with
    | .reuse renderer =>
      match lm.scheduler.attachTab renderer tab profile with
      | .error e => (.error (.scheduler e), lm)
      | .ok scheduler =>
        (.ok (.attachToExisting renderer tab profileId),
          { lm with scheduler, tabs := lm.tabs.insert tab ⟨profileId, renderer, .active, none⟩ })
    | .spawnNew =>
      let (renderer, lm) := lm.mintRenderer
      match lm.scheduler.registerRenderer renderer profile with
      | .error e => (.error (.scheduler e), lm)
      | .ok scheduler =>
        match scheduler.attachTab renderer tab profile with
        | .error e => (.error (.scheduler e), { lm with scheduler })
        | .ok scheduler =>
          (.ok (.spawnRenderer renderer tab profileId profile.mode),
            { lm with scheduler, tabs := lm.tabs.insert tab ⟨profileId, renderer, .active, none⟩ })

/-- Close a tab, retiring its renderer when no tab is left on it. `none` is the panic
of the `expect` on the tab count. -/
def closeTab (lm : LifecycleManager) (tab : TabId) :
    Option (Except LifecycleError CloseAction × LifecycleManager) :=
  match lm.tabs.lookup tab with
  | none => some (.error (.unknownTab tab), lm)
  | some record =>
    let lm := { lm with tabs := lm.tabs.erase tab }
    match lm.scheduler.detachTab record.renderer tab with
    | .error e => some (.error (.scheduler e), lm)
    | .ok scheduler =>
      match scheduler.tabCount record.renderer with
      | none => none
      | some 0 =>
        match scheduler.retireRenderer record.renderer with
        | .error e => some (.error (.scheduler e), { lm with scheduler })
        | .ok (_, scheduler) =>
          some (.ok (.detachAndKillRenderer record.renderer tab), { lm with scheduler })
      | some (_ + 1) => some (.ok (.detachOnly record.renderer tab), { lm with scheduler })

/-- Roll back a spawn whose process never came up. -/
def abortSpawn (lm : LifecycleManager) (tab : TabId) :
    Option (Except LifecycleError CloseAction × LifecycleManager) :=
  lm.closeTab tab

/-- Suspend an active tab. -/
def suspendTab (lm : LifecycleManager) (tab : TabId) (reason : SuspendReason) :
    Except LifecycleError SuspendAction × LifecycleManager :=
  match lm.tabs.lookup tab with
  | none => (.error (.unknownTab tab), lm)
  | some record =>
    if record.state = .suspended then (.error (.noStateChange tab), lm)
    else
      let record := { record with state := .suspended, suspendReason := some reason }
      (.ok ⟨tab, record.renderer, reason⟩, { lm with tabs := lm.tabs.insert tab record })

/-- Resume a suspended tab. -/
def resumeTab (lm : LifecycleManager) (tab : TabId) :
    Except LifecycleError ResumeAction × LifecycleManager :=
  match lm.tabs.lookup tab with
  | none => (.error (.unknownTab tab), lm)
  | some record =>
    if record.state = .active then (.error (.noStateChange tab), lm)
    else
      let record := { record with state := .active, suspendReason := none }
      (.ok ⟨tab, record.renderer⟩, { lm with tabs := lm.tabs.insert tab record })

/-- Suspending a tab rewrites its record, or changes nothing. -/
theorem suspendTab_cases (lm : LifecycleManager) (tab : TabId) (reason : SuspendReason) :
    (lm.suspendTab tab reason).2 = lm ∨ ∃ record, lm.tabs.lookup tab = some record ∧
      (lm.suspendTab tab reason).2 = { lm with
        tabs := lm.tabs.insert tab
          ⟨record.profileId, record.renderer, .suspended, some reason⟩ } := by
  rw [suspendTab]
  split
  · exact Or.inl rfl
  · rename_i record hrecord
    split
    · exact Or.inl rfl
    · exact Or.inr ⟨record, hrecord, rfl⟩

/-- Resuming a tab rewrites its record, or changes nothing. -/
theorem resumeTab_cases (lm : LifecycleManager) (tab : TabId) :
    (lm.resumeTab tab).2 = lm ∨ ∃ record, lm.tabs.lookup tab = some record ∧
      (lm.resumeTab tab).2 = { lm with
        tabs := lm.tabs.insert tab ⟨record.profileId, record.renderer, .active, none⟩ } := by
  rw [resumeTab]
  split
  · exact Or.inl rfl
  · rename_i record hrecord
    split
    · exact Or.inl rfl
    · exact Or.inr ⟨record, hrecord, rfl⟩

/-! ### The manager as a transition system -/

/-- The calls a run is made of. `reiterate` is not a call of the program: it is the
slot map coming up in another order of iteration. -/
inductive Call where
  /-- `spawn_tab`. -/
  | spawnTab (profileId : Uuid)
  /-- `close_tab`. -/
  | closeTab (tab : TabId)
  /-- `abort_spawn`. -/
  | abortSpawn (tab : TabId)
  /-- `suspend_tab`. -/
  | suspendTab (tab : TabId) (reason : SuspendReason)
  /-- `resume_tab`. -/
  | resumeTab (tab : TabId)
  /-- `registry_mut().insert`. -/
  | registryInsert (profile : IdentityProfile)
  /-- `registry_mut().remove`. -/
  | registryRemove (profileId : Uuid)
  /-- The slots are iterated in another order from here on. -/
  | reiterate (renderers : HashMap RendererId RendererSlot)

/-- **One call.** A failing call is a step too; only a panic is not. -/
def step (lm : LifecycleManager) : Call → Option LifecycleManager
  | .spawnTab profileId => some (lm.spawnTab profileId).2
  | .closeTab tab => (lm.closeTab tab).map (·.2)
  | .abortSpawn tab => (lm.abortSpawn tab).map (·.2)
  | .suspendTab tab reason => some (lm.suspendTab tab reason).2
  | .resumeTab tab => some (lm.resumeTab tab).2
  | .registryInsert profile =>
    match lm.registry.insert profile with
    | .ok registry => some { lm with registry }
    | .error _ => some lm
  | .registryRemove profileId =>
    some { lm with registry := (lm.registry.remove profileId).2 }
  | .reiterate renderers =>
    if HashMap.Reordered lm.scheduler.renderers renderers then
      some { lm with scheduler := ⟨renderers⟩ }
    else none

/-- The runs of the manager. -/
abbrev Run (registry : ProfileRegistry) :
    List (Transition.Step LifecycleManager Call) → LifecycleManager → Prop :=
  Transition.Run (Transition.ofFun step) (new registry)

end LifecycleManager

end Identity

end DevBrowse
