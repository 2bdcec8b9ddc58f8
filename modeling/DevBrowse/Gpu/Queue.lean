import DevBrowse.Gpu.Coordinator
import DevBrowse.Lib.HashMap
import DevBrowse.Lib.Transition

/-!
# The GPU queue scheduler

Every identity has a queue of its own, and a rotation list says which identity is
serviced next. An identity is in the rotation exactly as long as its queue is not empty
(`DevBrowse.Gpu.QueueScheduler.Rotation`), which no single operation checks. From that
follow the two things the scheduler is for: the queues are faithful, whatever is
accepted for an identity comes out for it, in order, unless a recovery drops it
(`DevBrowse.Gpu.QueueScheduler.Delivered`), and the rotation is fair
(`DevBrowse.Gpu.QueueScheduler.serviced`).
-/

namespace DevBrowse

namespace Gpu

open Transition (Step)

/-- A command buffer, as the scheduler numbers them. -/
structure CommandBufferId where
  /-- The number. -/
  val : UInt64
  deriving DecidableEq

/-- A command buffer pulled from the scheduler. -/
structure DequeuedCommand where
  /-- The identity it was submitted under. -/
  profileId : Uuid
  /-- The mode of that identity's queue. -/
  mode : Mode
  /-- The epoch of the scheduler. -/
  epoch : UInt64
  /-- The buffer. -/
  bufferId : CommandBufferId
  deriving DecidableEq

/-- The errors of the scheduler. -/
inductive QueueError where
  /-- The token was issued under another epoch. -/
  | staleToken
  deriving DecidableEq

/-- The queue of one identity. -/
structure IdentityQueue where
  /-- The mode of the token that opened it. -/
  mode : Mode
  /-- The buffers waiting, the next one in front. -/
  pending : List CommandBufferId
  deriving DecidableEq

/-- The queue without buffers. -/
def IdentityQueue.new (mode : Mode) : IdentityQueue := ⟨mode, []⟩

/-- **The queue scheduler.** -/
structure QueueScheduler where
  /-- The current epoch. -/
  epoch : UInt64
  /-- The next buffer number. -/
  nextId : UInt64
  /-- The queue of each identity. -/
  queues : HashMap Uuid IdentityQueue
  /-- The rotation: the identity in front is serviced next. -/
  scheduleOrder : List Uuid

namespace QueueScheduler

/-- The scheduler without queues. -/
def new (initialEpoch : UInt64) : QueueScheduler := ⟨initialEpoch, 1, ∅, []⟩

/-- The number of buffers waiting for the identity of a token. -/
def pendingFor (s : QueueScheduler) (token : ScopeToken) : ℕ :=
  if token.epoch ≠ s.epoch then 0
  else ((s.queues.lookup token.profileId).map fun q => q.pending.length).getD 0

/-- Submit a command buffer under the identity of a token. -/
def submit (s : QueueScheduler) (token : ScopeToken) :
    Except QueueError CommandBufferId × QueueScheduler :=
  if token.epoch ≠ s.epoch then (.error .staleToken, s)
  else
    let id : CommandBufferId := ⟨s.nextId⟩
    let queue := (s.queues.lookup token.profileId).getD (.new token.mode)
    let wasEmpty := queue.pending.isEmpty
    let queue := { queue with pending := queue.pending ++ [id] }
    (.ok id,
      { s with
        nextId := s.nextId + 1
        queues := s.queues.insert token.profileId queue
        -- an identity that re-enters the rotation goes to the back of it
        scheduleOrder :=
          if wasEmpty then s.scheduleOrder ++ [token.profileId] else s.scheduleOrder })

/-- The loop of `dequeue` over the rotation `order`: identities without a queue, or with
an empty one, are skipped and dropped. -/
def dequeueLoop (s : QueueScheduler) : List Uuid → Option DequeuedCommand × QueueScheduler
  | [] => (none, { s with scheduleOrder := [] })
  | pid :: order =>
    match s.queues.lookup pid with
    | none => s.dequeueLoop order
    | some queue =>
      match queue.pending with
      | [] => s.dequeueLoop order
      | bufferId :: pending =>
        (some ⟨pid, queue.mode, s.epoch, bufferId⟩,
          { s with
            queues := s.queues.insert pid { queue with pending }
            scheduleOrder := if pending.isEmpty then order else order ++ [pid] })

/-- Pop the next command buffer of the rotation. -/
def dequeue (s : QueueScheduler) : Option DequeuedCommand × QueueScheduler :=
  s.dequeueLoop s.scheduleOrder

/-- Drop every queue, and adopt the epoch. -/
def onRecovery (s : QueueScheduler) (newEpoch : UInt64) : QueueScheduler :=
  { s with epoch := newEpoch, queues := ∅, scheduleOrder := [] }

/-- The calls a run is made of. -/
inductive Call where
  /-- `submit`. -/
  | submit (token : ScopeToken)
  /-- `dequeue`. -/
  | dequeue
  /-- `on_recovery`. -/
  | onRecovery (newEpoch : UInt64)

/-- **One call.** -/
def step (s : QueueScheduler) : Call → Option QueueScheduler
  | .submit token => some (s.submit token).2
  | .dequeue => some s.dequeue.2
  | .onRecovery newEpoch => some (s.onRecovery newEpoch)

/-- The runs of the scheduler. -/
abbrev Run (initialEpoch : UInt64) : List (Step QueueScheduler Call) → QueueScheduler → Prop :=
  Transition.Run (Transition.ofFun step) (new initialEpoch)

variable {s s' : QueueScheduler} {pid : Uuid} {token : ScopeToken} {initialEpoch : UInt64}
  {tr : List (Step QueueScheduler Call)}

/-! ### The rotation -/

/-- The buffers waiting for an identity, in order. -/
def pendingOf (s : QueueScheduler) (pid : Uuid) : List CommandBufferId :=
  ((s.queues.lookup pid).map fun q => q.pending).getD []

/-- **The rotation lists exactly the identities with pending work**, each once. -/
structure Rotation (s : QueueScheduler) : Prop where
  /-- No identity is listed twice. -/
  nodup : s.scheduleOrder.Nodup
  /-- The identities listed are those with pending work. -/
  mem_iff : ∀ pid, pid ∈ s.scheduleOrder ↔ s.pendingOf pid ≠ []

theorem rotation_new : Rotation (new initialEpoch) :=
  ⟨List.nodup_nil, fun pid => by simp [new, pendingOf]⟩

/-- **What an accepted submission does.** -/
theorem submit_eq (h : token.epoch = s.epoch) :
    (s.submit token).1 = .ok ⟨s.nextId⟩ ∧
    (∀ pid, (s.submit token).2.pendingOf pid =
      if pid = token.profileId then s.pendingOf pid ++ [⟨s.nextId⟩] else s.pendingOf pid) ∧
    (s.submit token).2.scheduleOrder = if s.pendingOf token.profileId = [] then
      s.scheduleOrder ++ [token.profileId] else s.scheduleOrder := by
  have hqueue : ((s.queues.lookup token.profileId).getD (.new token.mode)).pending =
      s.pendingOf token.profileId := by
    simp only [pendingOf]
    cases s.queues.lookup token.profileId <;> rfl
  simp only [submit, h, ne_eq, not_true_eq_false, if_false, hqueue, List.isEmpty_iff, true_and,
    and_true]
  intro pid
  simp only [pendingOf, HashMap.lookup_insert_eq]
  split
  · rename_i hpid
    rw [hpid]
    rfl
  · rfl

theorem submit_stale (h : token.epoch ≠ s.epoch) : s.submit token = (.error .staleToken, s) :=
  if_pos h

/-- **What a dequeue does**: under the rotation invariant the identity in front has a
buffer, so none is skipped. -/
theorem dequeue_cases (h : Rotation s) :
    (s.scheduleOrder = [] ∧ s.dequeue.1 = none ∧ (∀ pid, s.dequeue.2.pendingOf pid = []) ∧
      s.dequeue.2.scheduleOrder = []) ∨
    ∃ pid order mode id pending, s.scheduleOrder = pid :: order ∧ s.pendingOf pid = id :: pending ∧
      s.dequeue.1 = some ⟨pid, mode, s.epoch, id⟩ ∧
      (∀ pid', s.dequeue.2.pendingOf pid' = if pid' = pid then pending else s.pendingOf pid') ∧
      s.dequeue.2.scheduleOrder = if pending = [] then order else order ++ [pid] := by
  cases horder : s.scheduleOrder with
  | nil =>
    refine Or.inl ⟨rfl, ?_⟩
    have hnone : ∀ pid, s.pendingOf pid = [] := by
      intro pid
      by_contra hne
      have hmem := (h.mem_iff pid).mpr hne
      rw [horder] at hmem
      simp at hmem
    rw [dequeue, horder]
    exact ⟨rfl, hnone, rfl⟩
  | cons pid order =>
    have hne := (h.mem_iff pid).mp (horder ▸ List.mem_cons_self)
    obtain ⟨id, pending, hpending⟩ := List.exists_cons_of_ne_nil hne
    obtain ⟨queue, hqueue, hq⟩ : ∃ queue, s.queues.lookup pid = some queue ∧
        queue.pending = id :: pending := by
      simp only [pendingOf] at hpending
      cases hlook : s.queues.lookup pid with
      | none => simp [hlook] at hpending
      | some queue => exact ⟨queue, rfl, by simpa [hlook] using hpending⟩
    refine Or.inr ⟨pid, order, queue.mode, id, pending, rfl, hpending, ?_⟩
    simp only [dequeue, horder, dequeueLoop, hqueue, hq, List.isEmpty_iff, true_and, and_true]
    intro pid'
    simp only [pendingOf, HashMap.lookup_insert_eq]
    split <;> rfl

theorem pendingOf_onRecovery (newEpoch : UInt64) (pid : Uuid) :
    (s.onRecovery newEpoch).pendingOf pid = [] := by
  simp [onRecovery, pendingOf]

theorem Rotation.submit (h : Rotation s) (token : ScopeToken) : Rotation (s.submit token).2 := by
  by_cases hepoch : token.epoch = s.epoch
  · obtain ⟨-, hpending, horder⟩ := submit_eq hepoch
    have hmem : token.profileId ∈ s.scheduleOrder ↔ s.pendingOf token.profileId ≠ [] :=
      h.mem_iff _
    constructor
    · rw [horder]
      split
      · rename_i hempty
        exact List.nodup_append.mpr ⟨h.nodup, List.nodup_singleton _, by
          intro a ha b hb
          rw [List.mem_singleton] at hb
          rintro rfl
          exact hmem.mp (hb ▸ ha) hempty⟩
      · exact h.nodup
    · intro pid
      rw [hpending, horder]
      by_cases hpid : pid = token.profileId
      · rw [if_pos hpid, hpid]
        split
        · simp
        · rename_i hne
          simp [hmem, hne]
      · rw [if_neg hpid, ← h.mem_iff pid]
        split <;> simp [hpid]
  · rw [submit_stale hepoch]
    exact h

theorem Rotation.dequeue (h : Rotation s) : Rotation s.dequeue.2 := by
  rcases dequeue_cases h with ⟨-, -, hpending, horder⟩ |
    ⟨pid, order, mode, id, pending, horder, hpid, -, hpending, horder'⟩
  · exact ⟨by rw [horder]; exact List.nodup_nil, fun pid => by simp [hpending, horder]⟩
  · have hnodup := h.nodup
    rw [horder, List.nodup_cons] at hnodup
    have hrest : ∀ pid', pid' ≠ pid → (pid' ∈ order ↔ s.pendingOf pid' ≠ []) := by
      intro pid' hne
      rw [← h.mem_iff pid', horder, List.mem_cons]
      simp [hne]
    constructor
    · rw [horder']
      split
      · exact hnodup.2
      · rw [← List.concat_eq_append]
        exact hnodup.2.concat hnodup.1
    · intro pid'
      rw [hpending, horder']
      by_cases hpid' : pid' = pid
      · subst hpid'
        by_cases hempty : pending = []
        · simp [hempty, hnodup.1]
        · simp [hempty]
      · rw [if_neg hpid', ← hrest pid' hpid']
        split <;> simp [hpid']

theorem Rotation.step {c : Call} (h : Rotation s) (hstep : s.step c = some s') : Rotation s' := by
  cases c with
  | submit token =>
    obtain rfl := Option.some.inj hstep
    exact h.submit token
  | dequeue =>
    obtain rfl := Option.some.inj hstep
    exact h.dequeue
  | onRecovery newEpoch =>
    obtain rfl := Option.some.inj hstep
    exact ⟨List.nodup_nil, fun pid => by simp [onRecovery, pendingOf]⟩

theorem rotation_of_run (h : Run initialEpoch tr s) : Rotation s :=
  h.invariant (I := fun _ s => Rotation s) rotation_new fun _ _ _ _ _ hr hstep => hr.step hstep

/-! ### What was submitted comes out -/

/-- The buffers accepted for an identity since the last recovery, after one more step. -/
def acceptedBy (pid : Uuid) (ids : List CommandBufferId) (x : Step QueueScheduler Call) :
    List CommandBufferId :=
  match x.input with
  | .submit token =>
    match (x.pre.submit token).1 with
    | .ok id => if token.profileId = pid then ids ++ [id] else ids
    | .error _ => ids
  | .dequeue => ids
  | .onRecovery _ => []

/-- The buffers accepted for an identity since the last recovery, in order. -/
def accepted (pid : Uuid) (tr : List (Step QueueScheduler Call)) : List CommandBufferId :=
  tr.foldl (acceptedBy pid) []

/-- The buffers delivered for an identity since the last recovery, after one more step. -/
def deliveredBy (pid : Uuid) (ids : List CommandBufferId) (x : Step QueueScheduler Call) :
    List CommandBufferId :=
  match x.input with
  | .submit _ => ids
  | .dequeue =>
    match x.pre.dequeue.1 with
    | some command => if command.profileId = pid then ids ++ [command.bufferId] else ids
    | none => ids
  | .onRecovery _ => []

/-- The buffers delivered for an identity since the last recovery, in order. -/
def delivered (pid : Uuid) (tr : List (Step QueueScheduler Call)) : List CommandBufferId :=
  tr.foldl (deliveredBy pid) []

/-- What was delivered for an identity, and what is still waiting, is what was accepted
for it. -/
def Delivered (tr : List (Step QueueScheduler Call)) (s : QueueScheduler) : Prop :=
  ∀ pid, delivered pid tr ++ s.pendingOf pid = accepted pid tr

theorem Delivered.step {c : Call} (hd : Delivered tr s) (h : Rotation s)
    (hstep : s.step c = some s') : Delivered (tr ++ [⟨s, c, s'⟩]) s' := by
  intro pid
  have hpast := hd pid
  simp only [delivered, accepted, List.foldl_append, List.foldl_cons, List.foldl_nil] at hpast ⊢
  cases c with
  | submit token =>
    obtain rfl := Option.some.inj hstep
    by_cases hepoch : token.epoch = s.epoch
    · obtain ⟨hok, hpending, -⟩ := submit_eq hepoch
      simp only [acceptedBy, deliveredBy, hok, hpending]
      by_cases hpid : token.profileId = pid
      · rw [if_pos hpid, if_pos hpid.symm, ← List.append_assoc, hpast]
      · rw [if_neg hpid, if_neg (Ne.symm hpid), hpast]
    · simp only [acceptedBy, deliveredBy, submit_stale hepoch]
      exact hpast
  | dequeue =>
    obtain rfl := Option.some.inj hstep
    rcases dequeue_cases h with ⟨horder, hnone, hpending, -⟩ |
      ⟨pid', order, mode, id, pending, -, hpid', hsome, hpending, -⟩
    · have hempty : s.pendingOf pid = [] := by
        by_contra hne
        have hmem := (h.mem_iff pid).mpr hne
        simp [horder] at hmem
      simp only [acceptedBy, deliveredBy, hnone, hpending]
      rw [← hpast, hempty]
    · simp only [acceptedBy, deliveredBy, hsome, hpending]
      by_cases hpid : pid' = pid
      · rw [if_pos hpid, if_pos hpid.symm, ← hpast, ← hpid, hpid', List.append_assoc]
        rfl
      · rw [if_neg hpid, if_neg (Ne.symm hpid), hpast]
  | onRecovery newEpoch =>
    obtain rfl := Option.some.inj hstep
    simp only [acceptedBy, deliveredBy, pendingOf_onRecovery]
    rfl

theorem delivered_of_run (h : Run initialEpoch tr s) : Delivered tr s := by
  refine h.invariant (I := fun tr s => Delivered tr s) (fun pid => ?_) ?_
  · simp [new, pendingOf, delivered, accepted]
  · exact fun _ _ _ _ hrun hd hstep => hd.step (rotation_of_run hrun) hstep

/-! ### Fairness -/

/-- Whether a call is a dequeue. -/
def Call.isDequeue : Call → Bool
  | .dequeue => true
  | _ => false

/-- Whether a call is a recovery. -/
def Call.isRecovery : Call → Bool
  | .onRecovery _ => true
  | _ => false

/-- The number of dequeues among the steps. -/
def dequeues (tr : List (Step QueueScheduler Call)) : ℕ :=
  tr.countP fun x => x.input.isDequeue

/-- The identity is serviced by one of the first `n` dequeues among the steps. -/
def ServicedWithin (pid : Uuid) (n : ℕ) (tr : List (Step QueueScheduler Call)) : Prop :=
  ∃ before x after, tr = before ++ x :: after ∧ dequeues before < n ∧ x.input = .dequeue ∧
    ∃ command, x.pre.dequeue.1 = some command ∧ command.profileId = pid

theorem ServicedWithin.cons {n : ℕ} {x : Step QueueScheduler Call}
    (h : ServicedWithin pid n tr) : ServicedWithin pid (dequeues [x] + n) (x :: tr) := by
  obtain ⟨before, y, after, rfl, hlt, hy⟩ := h
  refine ⟨x :: before, y, after, rfl, ?_, hy⟩
  have hcons : dequeues (x :: before) = dequeues [x] + dequeues before := by
    rw [← List.singleton_append, dequeues, List.countP_append]
    rfl
  omega

/-- **No identity starves**: the identity at position `k` of the rotation is serviced by
one of the next `k + 1` dequeues, whatever is submitted in between. -/
theorem serviced {k : ℕ} (h : Rotation s) (hk : s.scheduleOrder[k]? = some pid)
    (hrun : Transition.Run (Transition.ofFun QueueScheduler.step) s tr s')
    (hrec : ∀ x ∈ tr, x.input.isRecovery = false) (hcount : k < dequeues tr) :
    ServicedWithin pid (k + 1) tr := by
  induction tr generalizing s k with
  | nil => simp [dequeues] at hcount
  | cons x tr ih =>
    obtain ⟨s₁, c, m⟩ := x
    obtain ⟨hpre, hstep, hrest⟩ := Transition.run_cons.mp hrun
    obtain rfl : s₁ = s := hpre
    have hstep : s₁.step c = some m := hstep
    have hrec' : ∀ x ∈ tr, x.input.isRecovery = false := fun y hy =>
      hrec y (List.mem_cons_of_mem _ hy)
    have hm := h.step hstep
    cases c with
    | submit token =>
      obtain rfl := Option.some.inj hstep
      have hpos : (s₁.submit token).2.scheduleOrder[k]? = some pid := by
        by_cases hepoch : token.epoch = s₁.epoch
        · rw [(submit_eq hepoch).2.2]
          split
          · rw [List.getElem?_append_left (List.getElem?_eq_some_iff.mp hk).1, hk]
          · exact hk
        · rwa [submit_stale hepoch]
      have hlt : k < dequeues tr := by simpa [dequeues, Call.isDequeue] using hcount
      have hzero : dequeues [⟨s₁, .submit token, (s₁.submit token).2⟩] + (k + 1) = k + 1 :=
        Nat.zero_add _
      exact hzero ▸ (ih hm hpos hrest hrec' hlt).cons
    | dequeue =>
      obtain rfl := Option.some.inj hstep
      rcases dequeue_cases h with ⟨horder, -⟩ |
        ⟨pid', order, mode, id, pending, horder, -, hsome, -, horder'⟩
      · simp [horder] at hk
      · cases k with
        | zero =>
          -- the identity is in front: this dequeue is the one
          obtain rfl : pid' = pid := by simpa [horder] using hk
          exact ⟨[], _, tr, rfl, by simp [dequeues], rfl, _, hsome, rfl⟩
        | succ k =>
          have hk' : order[k]? = some pid := by simpa [horder] using hk
          have hpos : s₁.dequeue.2.scheduleOrder[k]? = some pid := by
            rw [horder']
            split
            · exact hk'
            · rw [List.getElem?_append_left (List.getElem?_eq_some_iff.mp hk').1, hk']
          have hlt : k < dequeues tr := by simpa [dequeues, Call.isDequeue] using hcount
          have hone : dequeues [⟨s₁, .dequeue, s₁.dequeue.2⟩] + (k + 1) = k + 1 + 1 := by
            simp [dequeues, Call.isDequeue, add_comm]
          exact hone ▸ (ih hm hpos hrest hrec' hlt).cons
    | onRecovery newEpoch =>
      have := hrec _ List.mem_cons_self
      simp [Call.isRecovery] at this

/-! ### Every run -/

/-- **What every run of the scheduler satisfies**, at every state it passes through. -/
structure Sound (tr : List (Step QueueScheduler Call)) (s : QueueScheduler) : Prop where
  /-- No identity is in the rotation twice. -/
  nodup : s.scheduleOrder.Nodup
  /-- The rotation lists exactly the identities with pending work. -/
  mem_iff : ∀ pid, pid ∈ s.scheduleOrder ↔ s.pendingOf pid ≠ []
  /-- What came out for an identity since the last recovery, followed by what is waiting
  for it, is what was accepted for it, in order. -/
  faithful : ∀ pid, delivered pid tr ++ s.pendingOf pid = accepted pid tr
  /-- A submission under the current epoch is accepted, and waits behind what its identity has;
  what the others have is as it was. -/
  submit_accepts : ∀ token : ScopeToken, token.epoch = s.epoch → ∃ id,
    (s.submit token).1 = .ok id ∧ ∀ pid, (s.submit token).2.pendingOf pid =
      if pid = token.profileId then s.pendingOf pid ++ [id] else s.pendingOf pid
  /-- Any other is refused and changes nothing. -/
  submit_refuses : ∀ token : ScopeToken, token.epoch ≠ s.epoch →
    s.submit token = (.error .staleToken, s)
  /-- A dequeue comes back empty-handed exactly when nothing is waiting. -/
  dequeue_none : s.dequeue.1 = none ↔ ∀ pid, s.pendingOf pid = []
  /-- An identity at position `k` is serviced within `k + 1` dequeues. -/
  fair : ∀ k pid tr' s', s.scheduleOrder[k]? = some pid →
    Transition.Run (Transition.ofFun step) s tr' s' →
      (∀ x ∈ tr', x.input.isRecovery = false) → k < dequeues tr' →
        ServicedWithin pid (k + 1) tr'

/-- **The queue scheduler is faithful and fair.** -/
theorem queue_sound (h : Run initialEpoch tr s) : Sound tr s := by
  have hr := rotation_of_run h
  refine ⟨hr.nodup, hr.mem_iff, delivered_of_run h,
    fun token hepoch => ⟨_, (submit_eq hepoch).1, (submit_eq hepoch).2.1⟩,
    fun token => submit_stale, ?_,
    fun k pid tr' s' hk hrun hrec hcount => serviced hr hk hrun hrec hcount⟩
  rcases dequeue_cases hr with ⟨horder, hnone, -⟩ |
    ⟨pid, order, mode, id, pending, -, hpid, hsome, -⟩
  · refine iff_of_true hnone fun pid => ?_
    by_contra hne
    have hmem := (hr.mem_iff pid).mpr hne
    simp [horder] at hmem
  · refine iff_of_false (by simp [hsome]) fun hall => ?_
    rw [hall] at hpid
    simp at hpid

/-- Two identities submit, and one of them is serviced. -/
theorem queue_sound_two :
    ∃ tr s, Run 1 tr s ∧ tr.map Step.input = [.submit ⟨Uuid.splat 1, .standard, 1⟩,
      .submit ⟨Uuid.splat 2, .strict, 1⟩, .dequeue] ∧ Sound tr s := by
  have hexec : (Transition.exec step (new 1) [.submit ⟨Uuid.splat 1, .standard, 1⟩,
      .submit ⟨Uuid.splat 2, .strict, 1⟩, .dequeue]).isSome = true := by decide
  obtain ⟨tr, s, hrun, hinputs⟩ := Transition.exists_run hexec
  exact ⟨tr, s, hrun, hinputs, queue_sound hrun⟩

end QueueScheduler

end Gpu

end DevBrowse
