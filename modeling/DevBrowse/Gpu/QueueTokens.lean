import DevBrowse.Gpu.Queue

/-!
# The token behind a command

A command carries the identity, the mode and the epoch it is to be executed under. The
identity and the epoch are those of the token its buffer was submitted under
(`DevBrowse.Gpu.QueueScheduler.Traced`). The mode is not kept with the buffer: it is the one
of the identity's queue, which is opened by the first submission after a recovery and stays
open when it runs empty. So a command carries the mode of its token exactly when that is the
mode of the token the queue was opened with
(`DevBrowse.Gpu.QueueScheduler.carries_iff`).
-/

namespace DevBrowse

namespace Gpu

open Transition (Step)

namespace QueueScheduler

variable {s s' : QueueScheduler} {pid : Uuid} {token : ScopeToken} {initialEpoch : UInt64}
  {command : DequeuedCommand} {tr : List (Step QueueScheduler Call)}

/-! ### The submissions of an identity -/

/-- The submissions accepted for an identity since the last recovery, after one more step. -/
def submittedBy (pid : Uuid) (submissions : List (ScopeToken × CommandBufferId))
    (x : Step QueueScheduler Call) : List (ScopeToken × CommandBufferId) :=
  match x.input with
  | .submit token =>
    match (x.pre.submit token).1 with
    | .ok id => if token.profileId = pid then submissions ++ [(token, id)] else submissions
    | .error _ => submissions
  | .dequeue => submissions
  | .onRecovery _ => []

/-- The submissions accepted for an identity since the last recovery, in order. -/
def submitted (pid : Uuid) (tr : List (Step QueueScheduler Call)) :
    List (ScopeToken × CommandBufferId) :=
  tr.foldl (submittedBy pid) []

/-- The submission an identity's queue was opened with. -/
def opening (pid : Uuid) (tr : List (Step QueueScheduler Call)) :
    Option (ScopeToken × CommandBufferId) :=
  (submitted pid tr).head?

/-- The oldest submission of an identity that has not been delivered. -/
def nextInLine (pid : Uuid) (tr : List (Step QueueScheduler Call)) :
    Option (ScopeToken × CommandBufferId) :=
  (submitted pid tr)[(delivered pid tr).length]?

theorem map_snd_submittedBy (pid : Uuid) (submissions : List (ScopeToken × CommandBufferId))
    (x : Step QueueScheduler Call) :
    acceptedBy pid (submissions.map Prod.snd) x =
      (submittedBy pid submissions x).map Prod.snd := by
  rw [submittedBy, acceptedBy]
  cases x.input with
  | submit token =>
    dsimp only
    cases (x.pre.submit token).1 with
    | error e => rfl
    | ok id =>
      dsimp only
      split
      · rw [List.map_append]
        rfl
      · rfl
  | dequeue => rfl
  | onRecovery newEpoch => rfl

/-- The buffers accepted are those of the submissions. -/
theorem map_snd_submitted (pid : Uuid) (tr : List (Step QueueScheduler Call)) :
    (submitted pid tr).map Prod.snd = accepted pid tr :=
  (List.foldl_hom (List.map Prod.snd) (map_snd_submittedBy pid)).symm

/-! ### The mode of a queue -/

/-- The mode of an identity's queue. -/
def modeOf (s : QueueScheduler) (pid : Uuid) : Option Mode :=
  (s.queues.lookup pid).map fun q => q.mode

/-- A submission opens the queue under the mode of its token, if it is not open. -/
theorem modeOf_submit (h : token.epoch = s.epoch) (pid : Uuid) :
    (s.submit token).2.modeOf pid =
      if pid = token.profileId then some ((s.modeOf pid).getD token.mode) else s.modeOf pid := by
  simp only [submit, h, ne_eq, not_true_eq_false, if_false, modeOf, HashMap.lookup_insert_eq]
  split
  · rename_i hpid
    rw [hpid]
    cases s.queues.lookup token.profileId <;> rfl
  · rfl

theorem epoch_submit (token : ScopeToken) : (s.submit token).2.epoch = s.epoch := by
  rw [submit]
  split <;> rfl

/-- **What the loop hands out**: the mode of the queue, and the epoch of the scheduler. It
changes neither. -/
theorem dequeueLoop_spec (s : QueueScheduler) (order : List Uuid) :
    (∀ command, (s.dequeueLoop order).1 = some command →
      s.modeOf command.profileId = some command.mode ∧ command.epoch = s.epoch) ∧
    (∀ pid, (s.dequeueLoop order).2.modeOf pid = s.modeOf pid) ∧
    (s.dequeueLoop order).2.epoch = s.epoch := by
  induction order with
  | nil => exact ⟨by simp [dequeueLoop], fun pid => rfl, rfl⟩
  | cons pid order ih =>
    rw [dequeueLoop]
    split
    · exact ih
    · rename_i queue hqueue
      split
      · exact ih
      · refine ⟨fun command hcommand => ?_, fun pid' => ?_, rfl⟩
        · obtain rfl := Option.some.inj hcommand
          exact ⟨by simp [modeOf, hqueue], rfl⟩
        · simp only [modeOf, HashMap.lookup_insert_eq]
          split
          · rename_i hpid
            rw [hpid, hqueue]
            rfl
          · rfl

/-! ### What the tokens have left behind -/

/-- **The scheduler's state, told by the tokens it was given.** -/
structure Traced (tr : List (Step QueueScheduler Call)) (s : QueueScheduler) : Prop where
  /-- What was submitted for an identity was submitted under its tokens, of this epoch. -/
  token : ∀ pid, ∀ p ∈ submitted pid tr, p.1.profileId = pid ∧ p.1.epoch = s.epoch
  /-- A queue has the mode of the token it was opened with. -/
  mode : ∀ pid, s.modeOf pid = (opening pid tr).map fun p => p.1.mode

theorem Traced.step {c : Call} (h : Traced tr s) (hstep : s.step c = some s') :
    Traced (tr ++ [⟨s, c, s'⟩]) s' := by
  have hnext : ∀ pid, submitted pid (tr ++ [⟨s, c, s'⟩]) =
      submittedBy pid (submitted pid tr) ⟨s, c, s'⟩ := fun pid => by
    rw [submitted, List.foldl_append]
    rfl
  cases c with
  | submit token =>
    obtain rfl := Option.some.inj hstep
    by_cases hepoch : token.epoch = s.epoch
    · have hsub : ∀ pid, submitted pid (tr ++ [⟨s, .submit token, (s.submit token).2⟩]) =
          if token.profileId = pid then submitted pid tr ++ [(token, ⟨s.nextId⟩)]
          else submitted pid tr := fun pid => by
        rw [hnext, submittedBy]
        simp only [(submit_eq hepoch).1]
      refine ⟨fun pid p hp => ?_, fun pid => ?_⟩
      · rw [epoch_submit]
        rw [hsub] at hp
        split at hp
        · rename_i hpid
          rcases List.mem_append.mp hp with hp | hp
          · exact h.token pid p hp
          · rw [List.mem_singleton.mp hp]
            exact ⟨hpid, hepoch⟩
        · exact h.token pid p hp
      · rw [modeOf_submit hepoch, h.mode, opening, opening, hsub]
        by_cases hpid : pid = token.profileId
        · rw [if_pos hpid, if_pos hpid.symm]
          cases submitted pid tr <;> rfl
        · rw [if_neg hpid, if_neg (Ne.symm hpid)]
    · have hsub : ∀ pid, submitted pid (tr ++ [⟨s, .submit token, (s.submit token).2⟩]) =
          submitted pid tr := fun pid => by
        rw [hnext, submittedBy]
        simp only [submit_stale hepoch]
      have hstale : (s.submit token).2 = s := by rw [submit_stale hepoch]
      rw [hstale] at hsub ⊢
      exact ⟨fun pid p hp => h.token pid p (hsub pid ▸ hp), fun pid => by
        rw [h.mode, opening, opening, hsub]⟩
  | dequeue =>
    obtain rfl := Option.some.inj hstep
    obtain ⟨-, hmode, hepoch⟩ := dequeueLoop_spec s s.scheduleOrder
    have hsub : ∀ pid, submitted pid (tr ++ [⟨s, .dequeue, s.dequeue.2⟩]) = submitted pid tr :=
      hnext
    refine ⟨fun pid p hp => ?_, fun pid => ?_⟩
    · rw [hsub] at hp
      exact ⟨(h.token pid p hp).1, (h.token pid p hp).2.trans hepoch.symm⟩
    · rw [opening, hsub]
      exact (hmode pid).trans (h.mode pid)
  | onRecovery newEpoch =>
    obtain rfl := Option.some.inj hstep
    have hsub : ∀ pid, submitted pid (tr ++ [⟨s, .onRecovery newEpoch, s.onRecovery newEpoch⟩]) =
        [] := hnext
    refine ⟨fun pid p hp => ?_, fun pid => ?_⟩
    · rw [hsub] at hp
      exact absurd hp (by simp)
    · rw [opening, hsub]
      rfl

theorem traced_of_run (h : Run initialEpoch tr s) : Traced tr s :=
  h.invariant (I := Traced) ⟨fun pid p hp => absurd hp (by simp [submitted]), fun pid => rfl⟩
    fun _ _ _ _ _ ht hstep => ht.step hstep

/-! ### What a command carries -/

/-- The command a step hands out carries the identity, the mode and the epoch of the token
its buffer was submitted under. -/
def Carries (before : List (Step QueueScheduler Call)) (x : Step QueueScheduler Call) : Prop :=
  x.input = .dequeue → ∀ command, x.pre.dequeue.1 = some command →
    ∃ token, nextInLine command.profileId before = some (token, command.bufferId) ∧
      command.profileId = token.profileId ∧ command.mode = token.mode ∧
      command.epoch = token.epoch

/-- The identity in front of the rotation has its next buffer submitted under the mode its
queue was opened with. -/
def OneMode (before : List (Step QueueScheduler Call)) (x : Step QueueScheduler Call) : Prop :=
  x.input = .dequeue → ∀ pid ∈ x.pre.scheduleOrder.head?,
    (nextInLine pid before).map (fun p => p.1.mode) =
      (opening pid before).map fun p => p.1.mode

/-- The next in line is what a dequeue takes. -/
theorem exists_nextInLine {id : CommandBufferId} {pending : List CommandBufferId}
    (h : Run initialEpoch tr s) (hpending : s.pendingOf pid = id :: pending) :
    ∃ token, nextInLine pid tr = some (token, id) ∧ token.profileId = pid ∧
      token.epoch = s.epoch := by
  have haccepted : (accepted pid tr)[(delivered pid tr).length]? = some id := by
    rw [← delivered_of_run h pid, hpending, List.getElem?_append_right (le_refl _), Nat.sub_self]
    rfl
  rw [← map_snd_submitted, List.getElem?_map, Option.map_eq_some_iff] at haccepted
  obtain ⟨⟨token, id'⟩, hnext, rfl⟩ := haccepted
  have htoken := (traced_of_run h).token pid _ (List.mem_of_getElem? hnext)
  exact ⟨token, hnext, htoken⟩

/-- One step, from what happened before it. -/
theorem carries_iff_oneMode {x : Step QueueScheduler Call} (h : Run initialEpoch tr x.pre) :
    Carries tr x ↔ OneMode tr x := by
  refine imp_congr_right fun _ => ?_
  rcases dequeue_cases (rotation_of_run h) with ⟨horder, hnone, -⟩ |
    ⟨pid, order, mode, id, pending, horder, hpending, hsome, -⟩
  · simp [horder, hnone]
  · obtain ⟨token, hnext, hpid, hepoch⟩ := exists_nextInLine h hpending
    have hmode : x.pre.modeOf pid = some mode := ((dequeueLoop_spec _ _).1 _ hsome).1
    rw [(traced_of_run h).mode] at hmode
    constructor
    · intro hcarries pid' hpid'
      obtain rfl : pid = pid' := by simpa [horder] using hpid'
      obtain ⟨token', hnext', -, hmode', -⟩ := hcarries _ hsome
      obtain rfl : token = token' := by simpa [hnext] using hnext'
      rw [hnext, hmode]
      exact congrArg some hmode'.symm
    · intro hone command hcommand
      obtain rfl := Option.some.inj (hsome.symm.trans hcommand)
      have heq := hone pid (by simp [horder])
      rw [hnext, hmode] at heq
      exact ⟨token, hnext, hpid.symm, (Option.some.inj heq).symm, hepoch.symm⟩

/-- **Commands carry their token** exactly if no identity in front of the rotation is served a
buffer that was submitted under another mode than its queue was opened with. -/
theorem carries_iff (h : Run initialEpoch tr s) :
    (∀ before x after, tr = before ++ x :: after → Carries before x) ↔
      ∀ before x after, tr = before ++ x :: after → OneMode before x := by
  refine forall_congr' fun before => forall_congr' fun x => forall_congr' fun after => ?_
  refine forall_congr' fun htr => ?_
  subst htr
  exact carries_iff_oneMode h.cut.1

/-- Two buffers of one identity, both in Strict mode. -/
theorem carries_iff_strict :
    ∃ tr s, Run 1 tr s ∧ tr.map Step.input = [.submit ⟨Uuid.splat 1, .strict, 1⟩,
        .submit ⟨Uuid.splat 1, .strict, 1⟩, .dequeue, .dequeue] ∧
      ((∀ before x after, tr = before ++ x :: after → Carries before x) ↔
        ∀ before x after, tr = before ++ x :: after → OneMode before x) := by
  have hexec : (Transition.exec step (new 1) [.submit ⟨Uuid.splat 1, .strict, 1⟩,
      .submit ⟨Uuid.splat 1, .strict, 1⟩, .dequeue, .dequeue]).isSome = true := by decide
  obtain ⟨tr, s, hrun, hinputs⟩ := Transition.exists_run hexec
  exact ⟨tr, s, hrun, hinputs, carries_iff hrun⟩

/-- **A Strict buffer is handed out as a Standard one.** The coordinator issues both tokens
for one identity, and the queue the first one opened has run empty in between. -/
theorem not_carries_mixed :
    GpuCoordinator.new.issueScopeToken (Uuid.splat 1) .standard =
        .ok ⟨Uuid.splat 1, .standard, 1⟩ ∧
      GpuCoordinator.new.issueScopeToken (Uuid.splat 1) .strict =
        .ok ⟨Uuid.splat 1, .strict, 1⟩ ∧
      ∃ before x s, Run 1 (before ++ [x]) s ∧
        (before ++ [x]).map Step.input = [.submit ⟨Uuid.splat 1, .standard, 1⟩, .dequeue,
          .submit ⟨Uuid.splat 1, .strict, 1⟩, .dequeue] ∧
        nextInLine (Uuid.splat 1) before = some (⟨Uuid.splat 1, .strict, 1⟩, ⟨2⟩) ∧
        x.pre.dequeue.1 = some ⟨Uuid.splat 1, .standard, 1, ⟨2⟩⟩ ∧ ¬ Carries before x := by
  refine ⟨rfl, rfl, ?_⟩
  let s₁ := ((new 1).submit ⟨Uuid.splat 1, .standard, 1⟩).2
  let s₂ := s₁.dequeue.2
  let s₃ := (s₂.submit ⟨Uuid.splat 1, .strict, 1⟩).2
  let before : List (Step QueueScheduler Call) :=
    [⟨new 1, .submit ⟨Uuid.splat 1, .standard, 1⟩, s₁⟩, ⟨s₁, .dequeue, s₂⟩,
      ⟨s₂, .submit ⟨Uuid.splat 1, .strict, 1⟩, s₃⟩]
  have hrun : Run 1 (before ++ [⟨s₃, .dequeue, s₃.dequeue.2⟩]) s₃.dequeue.2 :=
    (((Transition.Run.nil.snoc rfl).snoc rfl).snoc rfl).snoc rfl
  have hnext : nextInLine (Uuid.splat 1) before = some (⟨Uuid.splat 1, .strict, 1⟩, ⟨2⟩) := by
    decide +kernel
  have hsome : s₃.dequeue.1 = some ⟨Uuid.splat 1, .standard, 1, ⟨2⟩⟩ := by decide +kernel
  refine ⟨before, _, _, hrun, rfl, hnext, hsome, fun hcarries => ?_⟩
  obtain ⟨token, hnext', -, hmode, -⟩ := hcarries rfl _ hsome
  rw [hnext] at hnext'
  obtain rfl := (Prod.mk.inj (Option.some.inj hnext')).1
  exact absurd hmode (by decide)

end QueueScheduler

end Gpu

end DevBrowse
