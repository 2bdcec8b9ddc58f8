import DevBrowse.Gpu.BudgetHistory
import DevBrowse.Gpu.Queue

/-!
# Recovery of the GPU system

The coordinator moves to a new epoch when it recovers from a loss, and the budget and the
queue learn of it only when their `on_recovery` is called with that epoch. Nothing orders
these calls: between a recovery and the call it results in, the coordinator may be lost
and recovered again. The notifications that are still under way are therefore part of the
state here, and a run may deliver any of them next.

A token is accepted under exactly the epoch it was issued under, and `on_recovery` adopts
whatever epoch it is given. So a component's epoch moves backwards when a notification
overtakes a later one, and then the tokens of the older epoch are good again
(`DevBrowse.Gpu.GpuSystem.not_permanent_overtaken`). As long as none carries an epoch below
the component's own, what has become stale stays so
(`DevBrowse.Gpu.GpuSystem.permanent_iff`), which is the case when every component gets its
notifications in the order of the recoveries (`DevBrowse.Gpu.GpuSystem.permanent_of_fifo`).
-/

namespace DevBrowse

namespace Gpu

open Transition (Step)

/-- The components that are told of a recovery. -/
inductive Component where
  /-- The memory budget. -/
  | budget
  /-- The queue scheduler. -/
  | queue
  deriving DecidableEq

/-- **The GPU system**: the coordinator, the two components, and what is under way. -/
structure GpuSystem where
  /-- The coordinator. -/
  coordinator : GpuCoordinator
  /-- The memory budget. -/
  budget : MemoryBudget
  /-- The queue scheduler. -/
  queue : QueueScheduler
  /-- The recoveries a component has not been told of yet, the oldest in front. -/
  inFlight : List (Component × UInt64)
  /-- The tokens issued so far. -/
  issued : List ScopeToken

namespace GpuSystem

/-- The system before its first token, the components at the given epochs. -/
def new (profile : BudgetProfile) (budgetEpoch queueEpoch : UInt64) : GpuSystem :=
  ⟨.new, .new profile budgetEpoch, .new queueEpoch, [], []⟩

/-- The events of the system. A component is only ever called with a token that was
issued: there is no other way to obtain one. -/
inductive Event where
  /-- The adapter is lost. -/
  | adapterLoss
  /-- The adapter is recovered, and both components are to be told. -/
  | recover
  /-- A token is issued. -/
  | issue (profileId : Uuid) (mode : Mode)
  /-- `on_recovery` is called on a component, with the epoch of a recovery. -/
  | deliver (comp : Component) (newEpoch : UInt64)
  /-- `try_allocate` is called on the budget. -/
  | tryAllocate (token : ScopeToken) (sizeBytes : UInt64)
  /-- `touch` is called on the budget. -/
  | touch (token : ScopeToken) (id : AllocationId)
  /-- `release` is called on the budget. -/
  | release (token : ScopeToken) (id : AllocationId)
  /-- `submit` is called on the queue. -/
  | submit (token : ScopeToken)
  /-- `dequeue` is called on the queue. -/
  | dequeue

/-- Tell a component of a recovery. -/
def onRecovery (s : GpuSystem) (newEpoch : UInt64) : Component → GpuSystem
  | .budget => { s with budget := s.budget.onRecovery newEpoch }
  | .queue => { s with queue := s.queue.onRecovery newEpoch }

/-- **One event.** -/
def step (s : GpuSystem) : Event → Option GpuSystem
  | .adapterLoss => some { s with coordinator := s.coordinator.onAdapterLoss }
  | .recover =>
    let coordinator := s.coordinator.recoverAfterLoss
    some { s with
      coordinator
      inFlight := s.inFlight ++ [(.budget, coordinator.epoch), (.queue, coordinator.epoch)] }
  | .issue profileId mode =>
    match s.coordinator.issueScopeToken profileId mode with
    | .ok token => some { s with issued := token :: s.issued }
    | .error _ => some s
  | .deliver comp newEpoch =>
    if (comp, newEpoch) ∈ s.inFlight then
      some { s.onRecovery newEpoch comp with inFlight := s.inFlight.erase (comp, newEpoch) }
    else none
  | .tryAllocate token sizeBytes =>
    if token ∈ s.issued then some { s with budget := (s.budget.tryAllocate token sizeBytes).2 }
    else none
  | .touch token id =>
    if token ∈ s.issued then some { s with budget := (s.budget.touch token id).2 } else none
  | .release token id =>
    if token ∈ s.issued then some { s with budget := (s.budget.release token id).2 } else none
  | .submit token =>
    if token ∈ s.issued then some { s with queue := (s.queue.submit token).2 } else none
  | .dequeue => some { s with queue := s.queue.dequeue.2 }

/-- The runs of the system. -/
abbrev Run (profile : BudgetProfile) (budgetEpoch queueEpoch : UInt64) :
    List (Step GpuSystem Event) → GpuSystem → Prop :=
  Transition.Run (Transition.ofFun step) (new profile budgetEpoch queueEpoch)

variable {s s' : GpuSystem} {e : Event} {comp : Component} {newEpoch : UInt64}
  {token : ScopeToken} {profile : BudgetProfile} {budgetEpoch queueEpoch : UInt64}
  {tr : List (Step GpuSystem Event)}

/-! ### The epoch of a component -/

/-- The current epoch of a component. -/
def epochOf (s : GpuSystem) : Component → UInt64
  | .budget => s.budget.epoch
  | .queue => s.queue.epoch

theorem epoch_dequeueLoop (q : QueueScheduler) (order : List Uuid) :
    (q.dequeueLoop order).2.epoch = q.epoch := by
  induction order with
  | nil => rfl
  | cons pid order ih =>
    rw [QueueScheduler.dequeueLoop]
    split
    · exact ih
    · split
      · exact ih
      · rfl

theorem epoch_submit (q : QueueScheduler) (token : ScopeToken) :
    (q.submit token).2.epoch = q.epoch := by
  rw [QueueScheduler.submit]
  split <;> rfl

theorem epochOf_onRecovery (s : GpuSystem) (newEpoch : UInt64) (comp comp' : Component) :
    (s.onRecovery newEpoch comp).epochOf comp' =
      if comp' = comp then newEpoch else s.epochOf comp' := by
  cases comp <;> cases comp' <;> rfl

/-- **What a delivery does**: the component adopts the epoch of the notification, and the
other one notices nothing. -/
theorem epochOf_deliver (hstep : s.step (.deliver comp newEpoch) = some s') :
    (comp, newEpoch) ∈ s.inFlight ∧ s'.coordinator = s.coordinator ∧
      s'.inFlight = s.inFlight.erase (comp, newEpoch) ∧
      ∀ comp', s'.epochOf comp' = if comp' = comp then newEpoch else s.epochOf comp' := by
  simp only [step, Option.ite_none_right_eq_some, Option.some.injEq] at hstep
  obtain ⟨hmem, rfl⟩ := hstep
  exact ⟨hmem, by cases comp <;> rfl, rfl, epochOf_onRecovery s newEpoch comp⟩

/-- **Nothing but a delivery changes the epoch of a component.** -/
theorem epochOf_step (hstep : s.step e = some s')
    (hnot : ∀ comp newEpoch, e ≠ .deliver comp newEpoch) (comp : Component) :
    s'.epochOf comp = s.epochOf comp := by
  cases e with
  | deliver comp' newEpoch => exact absurd rfl (hnot comp' newEpoch)
  | adapterLoss | recover =>
    obtain rfl := Option.some.inj hstep
    cases comp <;> rfl
  | issue profileId mode =>
    simp only [step] at hstep
    split at hstep <;> obtain rfl := Option.some.inj hstep <;> cases comp <;> rfl
  | tryAllocate token size =>
    simp only [step, Option.ite_none_right_eq_some, Option.some.injEq] at hstep
    obtain ⟨-, rfl⟩ := hstep
    cases comp with
    | budget => exact (MemoryBudget.frame_tryAllocate s.budget token size).epoch_eq
    | queue => rfl
  | touch token id =>
    simp only [step, Option.ite_none_right_eq_some, Option.some.injEq] at hstep
    obtain ⟨-, rfl⟩ := hstep
    cases comp with
    | budget => exact (MemoryBudget.frame_touch s.budget token id).epoch_eq
    | queue => rfl
  | release token id =>
    simp only [step, Option.ite_none_right_eq_some, Option.some.injEq] at hstep
    obtain ⟨-, rfl⟩ := hstep
    cases comp with
    | budget => exact (MemoryBudget.frame_release s.budget token id).epoch_eq
    | queue => rfl
  | submit token =>
    simp only [step, Option.ite_none_right_eq_some, Option.some.injEq] at hstep
    obtain ⟨-, rfl⟩ := hstep
    cases comp with
    | budget => rfl
    | queue => exact epoch_submit s.queue token
  | dequeue =>
    obtain rfl := Option.some.inj hstep
    cases comp with
    | budget => rfl
    | queue => exact epoch_dequeueLoop s.queue s.queue.scheduleOrder

/-! ### What a component accepts -/

/-- The component would accept the token: one of the calls it can be given with it, with
some other arguments, would succeed. -/
def Accepts (s : GpuSystem) : Component → ScopeToken → Prop
  | .budget, token =>
    (∃ size id, (s.budget.tryAllocate token size).1 = .ok id) ∨
      (∃ id, (s.budget.touch token id).1 = .ok ()) ∨
        ∃ id, (s.budget.release token id).1 = .ok ()
  | .queue, token => ∃ id, (s.queue.submit token).1 = .ok id

/-- **A token is accepted under its own epoch only.** -/
theorem Accepts.epoch_eq (h : s.Accepts comp token) : token.epoch = s.epochOf comp := by
  cases comp with
  | budget =>
    rcases h with ⟨size, id, hok⟩ | ⟨id, hok⟩ | ⟨id, hok⟩
    · by_contra hne
      have hnot : ¬ MemoryBudget.Admitted s.budget token size := fun hadm => hne hadm.2.2
      simp [MemoryBudget.tryAllocate_refused hnot] at hok
    · rcases MemoryBudget.touch_cases s.budget token id with ⟨hholds, -⟩ | ⟨-, heq⟩
      · exact hholds.1
      · simp [heq] at hok
    · rcases MemoryBudget.release_cases s.budget token id with ⟨-, hholds, -⟩ | ⟨-, heq⟩
      · exact hholds.1
      · simp [heq] at hok
  | queue =>
    obtain ⟨id, hok⟩ := h
    by_contra hne
    have hne' : token.epoch ≠ s.queue.epoch := hne
    simp [QueueScheduler.submit_stale hne'] at hok

/-! ### Staleness -/

/-- **Staleness is permanent**: a component that was told of an epoch past that of a token
does not accept the token from then on, and the epoch of a component never decreases. -/
structure Permanent (tr : List (Step GpuSystem Event)) : Prop where
  /-- No component's epoch decreases. -/
  monotone : ∀ x ∈ tr, ∀ comp, x.pre.epochOf comp ≤ x.post.epochOf comp
  /-- A token that was left behind is never accepted again. -/
  stale : ∀ before x after comp newEpoch token, tr = before ++ x :: after →
    x.input = .deliver comp newEpoch → token.epoch < newEpoch →
      ∀ y ∈ x :: after, ¬ y.post.Accepts comp token

/-- No notification that is delivered carries an epoch below the component's own. -/
def InOrder (tr : List (Step GpuSystem Event)) : Prop :=
  ∀ x ∈ tr, ∀ comp newEpoch, x.input = .deliver comp newEpoch → x.pre.epochOf comp ≤ newEpoch

theorem epochOf_le_of_step (hstep : s.step e = some s')
    (horder : ∀ comp newEpoch, e = .deliver comp newEpoch → s.epochOf comp ≤ newEpoch)
    (comp : Component) : s.epochOf comp ≤ s'.epochOf comp := by
  by_cases hdeliver : ∃ comp' newEpoch, e = .deliver comp' newEpoch
  · obtain ⟨comp', newEpoch, rfl⟩ := hdeliver
    rw [(epochOf_deliver hstep).2.2.2]
    split
    · rename_i hcomp
      exact hcomp ▸ horder comp' newEpoch rfl
    · exact UInt64.le_refl _
  · have hnot : ∀ comp newEpoch, e ≠ .deliver comp newEpoch := fun comp newEpoch heq =>
      hdeliver ⟨comp, newEpoch, heq⟩
    rw [epochOf_step hstep hnot]
    exact UInt64.le_refl _

/-- Along the steps that are in order a component only moves to later epochs. -/
theorem epochOf_le_of_run (h : Transition.Run (Transition.ofFun step) s tr s')
    (horder : InOrder tr) (comp : Component) :
    s.epochOf comp ≤ s'.epochOf comp ∧ ∀ y ∈ tr, s.epochOf comp ≤ y.post.epochOf comp := by
  induction tr generalizing s with
  | nil =>
    obtain rfl := Transition.run_nil.mp h
    exact ⟨UInt64.le_refl _, by simp⟩
  | cons x tr ih =>
    obtain ⟨rfl, hstep, hrest⟩ := Transition.run_cons.mp h
    have hle := epochOf_le_of_step hstep (horder x List.mem_cons_self) comp
    obtain ⟨hend, hmem⟩ := ih hrest fun y hy => horder y (List.mem_cons_of_mem _ hy)
    refine ⟨UInt64.le_trans hle hend, fun y hy => ?_⟩
    rcases List.mem_cons.mp hy with rfl | hy
    · exact hle
    · exact UInt64.le_trans hle (hmem y hy)

/-- **When staleness is permanent**: exactly when no notification that is delivered
carries an epoch below the component's own. -/
theorem permanent_iff (h : Run profile budgetEpoch queueEpoch tr s) :
    Permanent tr ↔ InOrder tr := by
  constructor
  · rintro ⟨hmono, -⟩ x hx comp newEpoch hinput
    obtain ⟨-, -, -, -, hstep, -⟩ := h.of_mem hx
    have hstep : x.pre.step x.input = some x.post := hstep
    rw [hinput] at hstep
    have hpost := (epochOf_deliver hstep).2.2.2 comp
    rw [if_pos rfl] at hpost
    exact hpost ▸ hmono x hx comp
  · intro horder
    refine ⟨fun x hx comp => ?_, ?_⟩
    · obtain ⟨-, -, -, -, hstep, -⟩ := h.of_mem hx
      exact epochOf_le_of_step hstep (horder x hx) comp
    · rintro before x after comp newEpoch token rfl hinput hlt y hy haccepts
      obtain ⟨-, hstep, hafter⟩ := h.cut
      have hstep : x.pre.step x.input = some x.post := hstep
      rw [hinput] at hstep
      have hpost := (epochOf_deliver hstep).2.2.2 comp
      rw [if_pos rfl] at hpost
      have horder' : InOrder after := fun z hz =>
        horder z (List.mem_append_right _ (List.mem_cons_of_mem _ hz))
      -- from the delivery on, the epoch is at least the one delivered
      have hge : newEpoch ≤ y.post.epochOf comp := by
        rcases List.mem_cons.mp hy with rfl | hy
        · exact hpost ▸ UInt64.le_refl _
        · exact hpost ▸ (epochOf_le_of_run hafter horder' comp).2 y hy
      rw [haccepts.epoch_eq] at hlt
      exact absurd (UInt64.lt_of_le_of_lt hge hlt) (UInt64.lt_irrefl _)

/-- A recovery whose notification reaches the queue: the token issued before it is
rejected from then on. -/
theorem permanent_iff_delivered :
    ∃ tr s, Run ⟨10⟩ 1 1 tr s ∧ tr.map Step.input = [.issue (Uuid.splat 1) .standard,
      .recover, .deliver .queue 2, .submit ⟨Uuid.splat 1, .standard, 1⟩] ∧
      (Permanent tr ↔ InOrder tr) := by
  have hexec : (Transition.exec step (new ⟨10⟩ 1 1) [.issue (Uuid.splat 1) .standard,
      .recover, .deliver .queue 2, .submit ⟨Uuid.splat 1, .standard, 1⟩]).isSome = true := by decide
  obtain ⟨tr, s, hrun, hinputs⟩ := Transition.exists_run hexec
  exact ⟨tr, s, hrun, hinputs, permanent_iff hrun⟩

/-- The queue would accept the token; what the counterexample is tested with. -/
def queueAccepts (s : GpuSystem) (token : ScopeToken) : Bool :=
  match (s.queue.submit token).1 with
  | .ok _ => true
  | .error _ => false

theorem accepts_of_queueAccepts (h : s.queueAccepts token = true) : s.Accepts .queue token := by
  simp only [queueAccepts] at h
  split at h
  · exact ⟨_, by assumption⟩
  · simp at h

/-- **A notification that is overtaken brings a token back.** The token is issued under
epoch `2` and left behind when the queue is told of epoch `3`; then the notification of
epoch `2` arrives. -/
theorem not_permanent_overtaken :
    ∃ tr s, Run ⟨10⟩ 1 1 tr s ∧ tr.map Step.input = [.recover, .issue (Uuid.splat 1) .standard,
      .recover, .deliver .queue 3, .deliver .queue 2] ∧
      s.Accepts .queue ⟨Uuid.splat 1, .standard, 2⟩ ∧ ¬ Permanent tr := by
  have hexec : (Transition.exec step (new ⟨10⟩ 1 1) [.recover, .issue (Uuid.splat 1) .standard,
      .recover, .deliver .queue 3, .deliver .queue 2]).any
        (fun p => p.2.queueAccepts ⟨Uuid.splat 1, .standard, 2⟩) = true := by decide
  obtain ⟨tr, s, hrun, hinputs, htest⟩ := Transition.exists_run_where hexec
  refine ⟨tr, s, hrun, hinputs, accepts_of_queueAccepts htest, fun hperm => ?_⟩
  -- cut the run at the two deliveries
  have hcut : tr.map Step.input = [.recover, .issue (Uuid.splat 1) .standard, .recover] ++
      [.deliver .queue 3, .deliver .queue 2] := hinputs
  obtain ⟨before, rest, htr, -, hrest⟩ := List.map_eq_append_iff.mp hcut
  obtain ⟨x, rest, rfl, hx, hrest⟩ := List.map_eq_cons_iff.mp hrest
  obtain ⟨y, rest, rfl, -, hrest⟩ := List.map_eq_cons_iff.mp hrest
  obtain rfl := List.map_eq_nil_iff.mp hrest
  rw [htr] at hrun
  obtain ⟨-, -, hrun⟩ := hrun.cut
  obtain ⟨-, -, hrun⟩ := Transition.run_cons.mp hrun
  obtain rfl := Transition.run_nil.mp hrun
  exact hperm.stale before x [y] .queue 3 ⟨Uuid.splat 1, .standard, 2⟩ htr hx (by decide) y
    (by simp) (accepts_of_queueAccepts htest)

/-! ### Notifications that stay in order -/

/-- The recoveries a component has not been told of yet, the oldest in front. -/
def notifications (s : GpuSystem) (comp : Component) : List UInt64 :=
  s.inFlight.filterMap fun n => if n.1 = comp then some n.2 else none

/-- A step that keeps to the order: a component is told of the oldest recovery it does
not know of, and the epoch counter of the coordinator does not wrap. -/
def Fifo (x : Step GpuSystem Event) : Prop :=
  match x.input with
  | .deliver comp newEpoch => (x.pre.notifications comp).head? = some newEpoch
  | .recover => x.pre.coordinator.epoch < x.post.coordinator.epoch
  | _ => True

theorem filterMap_erase (l : List (Component × UInt64)) (comp comp' : Component)
    (newEpoch : UInt64) :
    (l.erase (comp, newEpoch)).filterMap (fun n => if n.1 = comp' then some n.2 else none) =
      if comp' = comp then
        (l.filterMap fun n => if n.1 = comp' then some n.2 else none).erase newEpoch
      else l.filterMap fun n => if n.1 = comp' then some n.2 else none := by
  induction l with
  | nil => split <;> rfl
  | cons n l ih =>
    obtain ⟨c, e⟩ := n
    by_cases hn : (c, e) = (comp, newEpoch)
    · obtain ⟨rfl, rfl⟩ := Prod.mk.inj hn
      by_cases hcomp : comp' = c
      · subst hcomp
        simp
      · simp [hcomp, Ne.symm hcomp]
    · rw [List.erase_cons_tail (by simpa using hn)]
      by_cases hc : c = comp'
      · subst hc
        by_cases hcomp : c = comp
        · subst hcomp
          have he : e ≠ newEpoch := fun heq => hn (by rw [heq])
          rw [if_pos rfl] at ih
          simp [ih, List.erase_cons_tail, he]
        · rw [if_neg hcomp] at ih
          simp [ih, hcomp]
      · simpa [hc] using ih

/-- What a component knows of, what it is yet to be told of, and where the coordinator
is, in this order. -/
def timeline (s : GpuSystem) (comp : Component) : List UInt64 :=
  s.epochOf comp :: (s.notifications comp ++ [s.coordinator.epoch])

/-- **The epochs of the timeline only grow.** -/
def Ordered (s : GpuSystem) : Prop := ∀ comp, (s.timeline comp).Pairwise (· ≤ ·)

theorem ordered_new : Ordered (new profile 1 1) := by
  intro comp
  have hone : (new profile 1 1).timeline comp = [1, 1] := by cases comp <;> rfl
  rw [hone]
  decide

/-- The oldest recovery is taken off the timeline of the component that is told of it. -/
theorem timeline_deliver (hstep : s.step (.deliver comp newEpoch) = some s')
    (hhead : (s.notifications comp).head? = some newEpoch) (comp' : Component) :
    s'.timeline comp' = if comp' = comp then (s.timeline comp').tail else s.timeline comp' := by
  obtain ⟨-, hcoord, hflight, hepoch⟩ := epochOf_deliver hstep
  have hnot : s'.notifications comp' =
      if comp' = comp then (s.notifications comp').erase newEpoch else s.notifications comp' := by
    rw [notifications, hflight, filterMap_erase]
    rfl
  by_cases hcomp : comp' = comp
  · subst hcomp
    obtain ⟨rest, hrest⟩ := List.head?_eq_some_iff.mp hhead
    rw [if_pos rfl, hrest, List.erase_cons_head] at hnot
    rw [if_pos rfl, timeline, timeline, hepoch, if_pos rfl, hnot, hcoord, hrest]
    rfl
  · rw [if_neg hcomp] at hnot
    rw [if_neg hcomp, timeline, timeline, hepoch, if_neg hcomp, hnot, hcoord]

/-- A recovery puts its epoch at the end of every timeline. -/
theorem timeline_recover (hstep : s.step .recover = some s') (comp : Component) :
    s'.timeline comp = s.epochOf comp :: (s.notifications comp ++
      [s'.coordinator.epoch, s'.coordinator.epoch]) := by
  obtain rfl := Option.some.inj hstep
  cases comp <;> simp [timeline, notifications, epochOf, List.filterMap_append]

/-- The other events leave the timelines as they are. -/
theorem timeline_step (hstep : s.step e = some s')
    (hnot : ∀ comp newEpoch, e ≠ .deliver comp newEpoch) (hrecover : e ≠ .recover)
    (comp : Component) : s'.timeline comp = s.timeline comp := by
  have hsame : s'.inFlight = s.inFlight ∧ s'.coordinator.epoch = s.coordinator.epoch := by
    cases e with
    | deliver comp' newEpoch => exact absurd rfl (hnot comp' newEpoch)
    | recover => exact absurd rfl hrecover
    | adapterLoss | dequeue =>
      obtain rfl := Option.some.inj hstep
      exact ⟨rfl, rfl⟩
    | issue profileId mode =>
      simp only [step] at hstep
      split at hstep <;> obtain rfl := Option.some.inj hstep <;> exact ⟨rfl, rfl⟩
    | tryAllocate | touch | release | submit =>
      simp only [step, Option.ite_none_right_eq_some, Option.some.injEq] at hstep
      obtain ⟨-, rfl⟩ := hstep
      exact ⟨rfl, rfl⟩
  rw [timeline, timeline, epochOf_step hstep hnot, notifications, notifications, hsame.1, hsame.2]

theorem Ordered.step (h : Ordered s) (hstep : s.step e = some s') (hfifo : Fifo ⟨s, e, s'⟩) :
    Ordered s' := by
  intro comp
  have hpast := h comp
  cases e with
  | deliver comp' newEpoch =>
    rw [timeline_deliver hstep hfifo]
    split
    · exact hpast.tail
    · exact hpast
  | recover =>
    have hlt : s.coordinator.epoch ≤ s'.coordinator.epoch := UInt64.le_of_lt hfifo
    rw [timeline_recover hstep]
    simp only [timeline, ← List.cons_append, List.pairwise_append] at hpast ⊢
    obtain ⟨hfront, -, hlast⟩ := hpast
    refine ⟨hfront, by simp, fun a ha b hb => ?_⟩
    have hle := UInt64.le_trans (hlast a ha _ (by simp)) hlt
    simp only [List.mem_cons, List.not_mem_nil, or_false, or_self] at hb
    exact hb ▸ hle
  | adapterLoss | issue | tryAllocate | touch | release | submit | dequeue =>
    rw [timeline_step hstep (by simp) (by simp)]
    exact hpast

theorem ordered_of_run (h : Run profile 1 1 tr s) (hfifo : ∀ x ∈ tr, Fifo x) : Ordered s :=
  h.invariant_where (I := fun _ s => Ordered s) (C := Fifo) ordered_new
    (fun _ _ _ _ _ hi hstep hx => hi.step hstep hx) hfifo

/-- **First come, first served is enough**: when every component is told of the recoveries
in their order, staleness is permanent. -/
theorem permanent_of_fifo (h : Run profile 1 1 tr s) (hfifo : ∀ x ∈ tr, Fifo x) :
    Permanent tr := by
  refine (permanent_iff h).mpr fun x hx comp newEpoch hinput => ?_
  obtain ⟨before, after, htr, hrun, -, -⟩ := h.of_mem hx
  have hord := ordered_of_run hrun fun y hy => hfifo y (htr ▸ List.mem_append_left _ hy)
  have hhead := hfifo x hx
  simp only [Fifo, hinput] at hhead
  obtain ⟨rest, hrest⟩ := List.head?_eq_some_iff.mp hhead
  have hsorted := hord comp
  rw [timeline, hrest] at hsorted
  exact List.rel_of_pairwise_cons hsorted (by simp)

end GpuSystem

end Gpu

end DevBrowse
