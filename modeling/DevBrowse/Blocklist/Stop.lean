import DevBrowse.Blocklist.Live
import DevBrowse.Lib.Transition

/-!
# Stopping the scheduler

The scheduler is a task of its own. It waits for about an hour, makes a tick, and waits again.
Whoever holds its handle may stop it: the task is signalled, and `stop` waits for it to exit.

The signal wakes a task that is waiting and is not kept for one that is not. So it is lost
where it comes while a tick is in flight, and the task goes on
(`DevBrowse.Blocklist.SchedulerTask.ticks_after_stop`); it is lost as well where a task that is
woken finds its time over too and takes that for the reason. Everywhere else it is heeded
(`DevBrowse.Blocklist.SchedulerTask.stop_heeded_iff`). A request that was lost is not made good
later: `stop` waits for good (`DevBrowse.Blocklist.SchedulerTask.Lost.run`).
-/

namespace DevBrowse

namespace Blocklist

open Transition (Step)

/-- The seconds between two ticks, on average. -/
def refreshInterval : ℕ := 60 * 60

/-- The seconds a wait may be longer or shorter than that. -/
def refreshJitter : ℕ := 5 * 60

/-- The next word of the generator the waits are taken from. -/
def advanceSeed (seed : UInt64) : UInt64 :=
  let seed := seed ^^^ (seed <<< 13)
  let seed := seed ^^^ (seed >>> 7)
  seed ^^^ (seed <<< 17)

/-- The seconds to wait, by the word of the generator. -/
def nextWait (seed : UInt64) : ℕ :=
  let jitterSecs : ℤ := (seed.toNat % (refreshJitter * 2) : ℕ) - (refreshJitter : ℤ)
  if 0 ≤ jitterSecs then refreshInterval + jitterSecs.toNat
  else refreshInterval - (-jitterSecs).toNat

/-- A wait is an hour, give or take five minutes. -/
theorem nextWait_bounds (seed : UInt64) :
    refreshInterval - refreshJitter ≤ nextWait seed ∧
      nextWait seed < refreshInterval + refreshJitter := by
  have hlt : seed.toNat % (refreshJitter * 2) < refreshJitter * 2 := Nat.mod_lt _ (by decide)
  have hjitter : refreshJitter = 300 := rfl
  have hinterval : refreshInterval = 3600 := rfl
  rw [nextWait]
  generalize seed.toNat % (refreshJitter * 2) = jitter at hlt
  by_cases hlate : (0 : ℤ) ≤ (jitter : ℤ) - refreshJitter
  · rw [if_pos hlate]
    omega
  · rw [if_neg hlate]
    omega

/-- Where the task of the scheduler is in its loop. -/
inductive TaskPhase where
  /-- Between two waits, with no tick in flight. -/
  | starting
  /-- It waits for the signal or for its time: how long, and which of the two has come. -/
  | waiting (next : ℕ) (notified elapsed : Bool)
  /-- A tick is in flight: the version it has looked at. -/
  | loading (current : UInt64)
  /-- It has left the loop. -/
  | exited
  deriving DecidableEq

namespace TaskPhase

/-- The signal: it reaches a task that waits, and nothing is left of it for another. -/
def notifyWaiters : TaskPhase → TaskPhase
  | waiting next _ elapsed => waiting next true elapsed
  | phase => phase

/-- The signal has come. -/
def notified : TaskPhase → Bool
  | waiting _ notified _ => notified
  | _ => false

/-- The task is in its loop, and does not wait. -/
def betweenWaits : TaskPhase → Bool
  | starting | loading _ => true
  | waiting .. | exited => false

end TaskPhase

/-- What has become of the handle of the scheduler. -/
inductive SchedulerHandle where
  /-- Nothing yet. -/
  | held
  /-- `stop` was called and waits for the task. -/
  | stopping
  /-- `stop` has returned. -/
  | returned
  /-- It was dropped, by its holder or with a call of `stop` that was given up. -/
  | dropped
  deriving DecidableEq

/-- **The task of the scheduler**, with its handle. -/
structure SchedulerTask where
  /-- The word of the generator. -/
  seed : UInt64
  /-- Where it is in its loop. -/
  phase : TaskPhase
  /-- The blocklist. -/
  live : Live
  /-- The warnings given. -/
  warnings : List Text
  /-- The handle. -/
  handle : SchedulerHandle
  /-- Whether `stop` was called. -/
  stopRequested : Bool

namespace SchedulerTask

/-- The task when it is spawned. -/
def spawn (seed : UInt64) (live : Live) : SchedulerTask :=
  ⟨seed, .starting, live, [], .held, false⟩

/-- The branches of the wait. -/
inductive Branch where
  /-- The signal has come: leave the loop. -/
  | notified
  /-- The time is over: make a tick. -/
  | slept
  deriving DecidableEq

/-- What can happen. -/
inductive Event where
  /-- The task begins to wait. -/
  | arm
  /-- The time of its wait is over. -/
  | elapse
  /-- It wakes and takes a branch, any of those that are ready. -/
  | wake (branch : Branch)
  /-- The loader of its tick comes back. -/
  | loaded (result : Except LoaderError Manifest)
  /-- `stop` is called. -/
  | stop
  /-- `stop` returns. -/
  | joined
  /-- The handle is dropped. -/
  | drop
  deriving DecidableEq

/-- **One event.** -/
def step (s : SchedulerTask) : Event → Option SchedulerTask
  | .arm =>
    match s.phase with
    | .starting =>
      let seed := advanceSeed s.seed
      some { s with seed := seed, phase := .waiting (nextWait seed) false false }
    | _ => none
  | .elapse =>
    match s.phase with
    | .waiting next notified _ => some { s with phase := .waiting next notified true }
    | _ => none
  | .wake .notified =>
    match s.phase with
    | .waiting _ true _ => some { s with phase := .exited }
    | _ => none
  | .wake .slept =>
    match s.phase with
    | .waiting _ _ true => some { s with phase := .loading s.live.contentVersion }
    | _ => none
  | .loaded result =>
    match s.phase with
    | .loading _ =>
      let ticked := settle s.live result
      some { s with
        phase := .starting, live := ticked.live, warnings := s.warnings ++ ticked.warnings }
    | _ => none
  | .stop =>
    match s.handle with
    | .held => some { s with
        phase := s.phase.notifyWaiters, handle := .stopping, stopRequested := true }
    | _ => none
  | .joined =>
    match s.handle, s.phase with
    | .stopping, .exited => some { s with handle := .returned }
    | _, _ => none
  | .drop =>
    match s.handle with
    | .held | .stopping => some { s with phase := s.phase.notifyWaiters, handle := .dropped }
    | _ => none

/-- The runs of a scheduler from when it is spawned. -/
abbrev Run (seed : UInt64) (live : Live) :
    List (Step SchedulerTask Event) → SchedulerTask → Prop :=
  Transition.Run (Transition.ofFun step) (spawn seed live)

/-- **After `stop` was called no tick begins.** -/
def NoTickAfterStop (tr : List (Step SchedulerTask Event)) : Prop :=
  tr.Pairwise fun x y => x.input = .stop → y.input ≠ .wake .slept

/-- **The request to stop is lost**: the task has not heeded it, and there is nothing left of
the signal. -/
def Lost (s : SchedulerTask) : Prop :=
  s.stopRequested = true ∧ s.phase ≠ .exited ∧ s.phase.notified = false

/-- **The signal is taken**: `stop` does not find the task between two waits, and a task that
wakes after `stop` with the signal in hand leaves the loop. -/
def SignalTaken (x : Step SchedulerTask Event) : Prop :=
  (x.input = .stop → x.pre.phase.betweenWaits = false) ∧
  (x.input = .wake .slept → x.pre.stopRequested = true → x.pre.phase.notified = false)

instance : DecidablePred SignalTaken := fun x =>
  inferInstanceAs (Decidable ((x.input = .stop → x.pre.phase.betweenWaits = false) ∧
    (x.input = .wake .slept → x.pre.stopRequested = true → x.pre.phase.notified = false)))

variable {seed : UInt64} {live : Live} {s s' : SchedulerTask} {e : Event}
  {tr : List (Step SchedulerTask Event)}

/-! ### What an event does -/

theorem step_arm (h : s.step .arm = some s') :
    s.phase = .starting ∧ s'.phase = .waiting (nextWait s'.seed) false false ∧
      s'.stopRequested = s.stopRequested := by
  simp only [step] at h
  split at h
  · rename_i hphase
    obtain rfl := Option.some.inj h
    exact ⟨hphase, rfl, rfl⟩
  · cases h

theorem step_elapse (h : s.step .elapse = some s') :
    s'.phase.notified = s.phase.notified ∧ s'.phase ≠ .exited ∧
      s'.stopRequested = s.stopRequested := by
  simp only [step] at h
  split at h
  · rename_i hphase
    obtain rfl := Option.some.inj h
    exact ⟨by rw [hphase]; rfl, TaskPhase.noConfusion, rfl⟩
  · cases h

theorem step_wake_notified (h : s.step (.wake .notified) = some s') :
    s.phase.notified = true ∧ s'.phase = .exited ∧ s'.stopRequested = s.stopRequested := by
  simp only [step] at h
  split at h
  · rename_i hphase
    obtain rfl := Option.some.inj h
    exact ⟨by rw [hphase]; rfl, rfl, rfl⟩
  · cases h

theorem step_wake_slept (h : s.step (.wake .slept) = some s') :
    s.phase ≠ .exited ∧ s'.phase = .loading s.live.contentVersion ∧
      s'.stopRequested = s.stopRequested := by
  simp only [step] at h
  split at h
  · rename_i hphase
    obtain rfl := Option.some.inj h
    exact ⟨by rw [hphase]; exact TaskPhase.noConfusion, rfl, rfl⟩
  · cases h

theorem step_loaded {result : Except LoaderError Manifest}
    (h : s.step (.loaded result) = some s') :
    (∃ current, s.phase = .loading current) ∧ s'.phase = .starting ∧
      s'.stopRequested = s.stopRequested := by
  simp only [step] at h
  split at h
  · rename_i current hphase
    obtain rfl := Option.some.inj h
    exact ⟨⟨current, hphase⟩, rfl, rfl⟩
  · cases h

theorem step_stop (h : s.step .stop = some s') :
    s.handle = .held ∧ s'.phase = s.phase.notifyWaiters ∧ s'.stopRequested = true := by
  simp only [step] at h
  split at h
  · rename_i hheld
    obtain rfl := Option.some.inj h
    exact ⟨hheld, rfl, rfl⟩
  · cases h

theorem step_joined (h : s.step .joined = some s') :
    s.phase = .exited ∧ s'.phase = .exited ∧ s'.stopRequested = s.stopRequested := by
  simp only [step] at h
  split at h
  · rename_i hphase
    obtain rfl := Option.some.inj h
    exact ⟨hphase, hphase, rfl⟩
  · cases h

theorem step_drop (h : s.step .drop = some s') :
    s'.phase = s.phase.notifyWaiters ∧ s'.stopRequested = s.stopRequested := by
  simp only [step] at h
  split at h
  · obtain rfl := Option.some.inj h
    exact ⟨rfl, rfl⟩
  · obtain rfl := Option.some.inj h
    exact ⟨rfl, rfl⟩
  · cases h

/-- A request is not taken back. -/
theorem stopRequested_step (h : s.step e = some s') (hreq : s.stopRequested = true) :
    s'.stopRequested = true := by
  cases e with
  | arm => exact (step_arm h).2.2.trans hreq
  | elapse => exact (step_elapse h).2.2.trans hreq
  | wake branch =>
    cases branch with
    | notified => exact (step_wake_notified h).2.2.trans hreq
    | slept => exact (step_wake_slept h).2.2.trans hreq
  | loaded result => exact (step_loaded h).2.2.trans hreq
  | stop => exact (step_stop h).2.2
  | joined => exact (step_joined h).2.2.trans hreq
  | drop => exact (step_drop h).2.trans hreq

/-! ### Where a request is lost -/

/-- The signal reaches a task unless it is between two waits. -/
theorem lost_notifyWaiters_iff (phase : TaskPhase) :
    (phase.notifyWaiters ≠ .exited ∧ phase.notifyWaiters.notified = false) ↔
      phase.betweenWaits = true := by
  cases phase <;> simp [TaskPhase.notifyWaiters, TaskPhase.notified, TaskPhase.betweenWaits]

/-- What is neither requested nor between two waits is not lost in the loop. -/
theorem not_requested_of_not_lost (hlost : ¬ s.Lost) (hexited : s.phase ≠ .exited)
    (hnotified : s.phase.notified = false) : s.stopRequested ≠ true :=
  fun hreq => hlost ⟨hreq, hexited, hnotified⟩

/-- **A step loses the request exactly if it does not take the signal.** -/
theorem not_lost_step_iff (hlost : ¬ s.Lost) (h : s.step e = some s') :
    ¬ s'.Lost ↔ SignalTaken ⟨s, e, s'⟩ := by
  cases e with
  | arm =>
    obtain ⟨hphase, -, hreq⟩ := step_arm h
    have hnot : s.stopRequested ≠ true :=
      not_requested_of_not_lost hlost (by simp [hphase]) (by simp [hphase, TaskPhase.notified])
    exact iff_of_true (fun hs' => hnot (hreq ▸ hs'.1)) (by simp [SignalTaken])
  | elapse =>
    obtain ⟨hnotified, -, hreq⟩ := step_elapse h
    refine iff_of_true (fun hs' => ?_) (by simp [SignalTaken])
    have hexited : s.phase ≠ .exited := by
      intro heq
      rw [step, heq] at h
      cases h
    exact hlost ⟨hreq ▸ hs'.1, hexited, hnotified ▸ hs'.2.2⟩
  | wake branch =>
    cases branch with
    | notified =>
      obtain ⟨-, hexited, -⟩ := step_wake_notified h
      exact iff_of_true (fun hs' => hs'.2.1 hexited) (by simp [SignalTaken])
    | slept =>
      obtain ⟨hexited, hphase, hreq⟩ := step_wake_slept h
      -- the tick that begins is one too many if there was a signal to heed
      simp only [SignalTaken, Lost, hphase, hreq]
      constructor
      · intro hs'
        refine ⟨by simp, fun _ hrequested => ?_⟩
        exact absurd ⟨hrequested, by simp, rfl⟩ hs'
      · rintro ⟨-, htaken⟩ ⟨hrequested, -, -⟩
        exact hlost ⟨hrequested, hexited, htaken trivial hrequested⟩
  | loaded result =>
    obtain ⟨⟨current, hphase⟩, -, hreq⟩ := step_loaded h
    have hnot : s.stopRequested ≠ true :=
      not_requested_of_not_lost hlost (by simp [hphase]) (by simp [hphase, TaskPhase.notified])
    exact iff_of_true (fun hs' => hnot (hreq ▸ hs'.1)) (by simp [SignalTaken])
  | stop =>
    obtain ⟨-, hphase, hreq⟩ := step_stop h
    have hiff := lost_notifyWaiters_iff s.phase
    rw [← hphase] at hiff
    simp only [SignalTaken, Lost, hreq, true_and, hiff]
    simp
  | joined =>
    obtain ⟨-, hexited, -⟩ := step_joined h
    exact iff_of_true (fun hs' => hs'.2.1 hexited) (by simp [SignalTaken])
  | drop =>
    obtain ⟨hphase, hreq⟩ := step_drop h
    refine iff_of_true (fun hs' => ?_) (by simp [SignalTaken])
    obtain ⟨hrequested, hloop⟩ := hs'
    rw [hphase, lost_notifyWaiters_iff] at hloop
    refine hlost ⟨hreq ▸ hrequested, ?_⟩
    cases hs : s.phase <;> rw [hs] at hloop
    case starting | loading => exact ⟨TaskPhase.noConfusion, rfl⟩
    case waiting | exited => cases hloop

/-! ### What becomes of a run -/

theorem stopRequested_of_run (hrun : Run seed live tr s)
    (hstop : ∃ x ∈ tr, x.input = .stop) : s.stopRequested = true := by
  refine hrun.invariant (I := fun tr s => (∃ x ∈ tr, x.input = .stop) → s.stopRequested = true)
    (by simp) ?_ hstop
  rintro tr s e s' - ih hstep ⟨x, hx, hinput⟩
  rcases List.mem_append.mp hx with hx | hx
  · exact stopRequested_step hstep (ih ⟨x, hx, hinput⟩)
  · rw [List.mem_singleton.mp hx] at hinput
    subst hinput
    exact (step_stop hstep).2.2

/-- **Where the request is not lost no tick begins after it.** -/
theorem noTickAfterStop_of_not_lost (hrun : Run seed live tr s)
    (hlost : ∀ x ∈ tr, ¬ x.post.Lost) : NoTickAfterStop tr := by
  refine hrun.invariant_where (I := fun tr _ => NoTickAfterStop tr) (C := fun x => ¬ x.post.Lost)
    List.Pairwise.nil ?_ hlost
  intro tr s e s' hpast ih hstep hkept
  refine List.pairwise_append.mpr ⟨ih, List.pairwise_singleton _ _, ?_⟩
  intro x hx y hy hstop hslept
  rw [List.mem_singleton.mp hy] at hslept
  subst hslept
  -- the request stands when the tick begins, and the tick would lose it
  obtain ⟨-, hphase, hreq⟩ := step_wake_slept hstep
  refine hkept ⟨hreq.trans (stopRequested_of_run hpast ⟨x, hx, hstop⟩), ?_, ?_⟩
  · simp [hphase]
  · simp [hphase, TaskPhase.notified]

/-- **The request is heeded exactly where the signal is taken**, and where it is taken no tick
begins after `stop` was called. -/
theorem stop_heeded_iff (hrun : Run seed live tr s) :
    ((∀ x ∈ tr, ¬ x.post.Lost) ↔ ∀ x ∈ tr, SignalTaken x) ∧
      ((∀ x ∈ tr, SignalTaken x) → NoTickAfterStop tr) := by
  have hiff : (∀ x ∈ tr, ¬ x.post.Lost) ↔ ∀ x ∈ tr, SignalTaken x := by
    refine hrun.forall_post_iff (I := fun s => ¬ s.Lost) (C := SignalTaken) ?_ ?_
    · exact fun hlost => absurd hlost.1 (by simp [spawn])
    · exact fun _ _ _ _ _ hlost hstep => not_lost_step_iff hlost hstep
  exact ⟨hiff, fun htaken => noTickAfterStop_of_not_lost hrun (hiff.mpr htaken)⟩

/-- The request is heeded where `stop` finds the task in its wait. -/
theorem stop_heeded_iff_waiting : ∃ tr s, Run 1 .empty tr s ∧
    tr.map Step.input = [.arm, .stop, .wake .notified, .joined] ∧
    (((∀ x ∈ tr, ¬ x.post.Lost) ↔ ∀ x ∈ tr, SignalTaken x) ∧
      ((∀ x ∈ tr, SignalTaken x) → NoTickAfterStop tr)) ∧
    ∀ x ∈ tr, SignalTaken x := by
  have hexec : (Transition.exec step (spawn 1 .empty)
      [.arm, .stop, .wake .notified, .joined]).any (fun p =>
      p.1.all fun x => decide (SignalTaken x)) = true := by decide
  obtain ⟨tr, s, hrun, hinputs, htaken⟩ := Transition.exists_run_where hexec
  refine ⟨tr, s, hrun, hinputs, stop_heeded_iff hrun, fun x hx => ?_⟩
  exact of_decide_eq_true (List.all_eq_true.mp htaken x hx)

/-- **A tick begins after `stop` was called**: the signal came while a tick was in flight. -/
theorem ticks_after_stop : ¬ ∀ (seed : UInt64) (live : Live)
    (tr : List (Step SchedulerTask Event)) (s : SchedulerTask),
    Run seed live tr s → NoTickAfterStop tr := by
  intro h
  have hexec : (Transition.exec step (spawn 1 .empty)
      [.arm, .elapse, .wake .slept, .stop, .loaded (.error .noNewContent), .arm, .elapse,
        .wake .slept]).isSome = true := by decide
  obtain ⟨tr, s, hrun, hinputs⟩ := Transition.exists_run hexec
  have hnone : (tr.map Step.input).Pairwise fun i j => i = .stop → j ≠ .wake .slept :=
    List.pairwise_map.mpr (h 1 .empty tr s hrun)
  rw [hinputs] at hnone
  revert hnone
  decide

/-! ### A lost request -/

theorem held_step (h : s.step e = some s') (hheld : s'.handle = .held) :
    s.handle = .held ∧ s'.stopRequested = s.stopRequested := by
  cases e with
  | stop | joined | drop =>
    -- where these are accepted the handle is held no longer
    simp only [step] at h
    split at h <;> cases h <;> cases hheld
  | wake branch =>
    cases branch <;>
    · simp only [step] at h
      split at h
      · have hs' := Option.some.inj h
        rw [← hs'] at hheld ⊢
        exact ⟨hheld, rfl⟩
      · cases h
  | arm | elapse | loaded =>
    simp only [step] at h
    split at h
    · have hs' := Option.some.inj h
      rw [← hs'] at hheld ⊢
      exact ⟨hheld, rfl⟩
    · cases h

/-- `stop` takes the handle, so it is called once. -/
theorem not_requested_of_held (hrun : Run seed live tr s) :
    s.handle = .held → s.stopRequested = false := by
  refine hrun.invariant (I := fun _ s => s.handle = .held → s.stopRequested = false)
    (fun _ => rfl) ?_
  intro _ _ _ _ _ ih hstep hheld
  obtain ⟨hbefore, hreq⟩ := held_step hstep hheld
  exact hreq.trans (ih hbefore)

/-- A lost request stays lost unless the call of `stop` is given up, and `stop` does not
return meanwhile. -/
theorem Lost.step (hlost : s.Lost) (hheld : s.handle ≠ .held) (h : s.step e = some s')
    (hdrop : e ≠ .drop) : s'.Lost ∧ e ≠ .joined := by
  obtain ⟨hrequested, hexited, hnotified⟩ := hlost
  have hrequested' := stopRequested_step h hrequested
  cases e with
  | arm =>
    obtain ⟨-, hphase, -⟩ := step_arm h
    exact ⟨⟨hrequested', by simp [hphase], by simp [hphase, TaskPhase.notified]⟩, by simp⟩
  | elapse =>
    obtain ⟨hsame, hexited', -⟩ := step_elapse h
    exact ⟨⟨hrequested', hexited', hsame.trans hnotified⟩, by simp⟩
  | wake branch =>
    cases branch with
    | notified =>
      rw [(step_wake_notified h).1] at hnotified
      cases hnotified
    | slept =>
      obtain ⟨-, hphase, -⟩ := step_wake_slept h
      exact ⟨⟨hrequested', by simp [hphase], by simp [hphase, TaskPhase.notified]⟩, by simp⟩
  | loaded result =>
    obtain ⟨-, hphase, -⟩ := step_loaded h
    exact ⟨⟨hrequested', by simp [hphase], by simp [hphase, TaskPhase.notified]⟩, by simp⟩
  | stop => exact absurd (step_stop h).1 hheld
  | joined => exact absurd (step_joined h).1 hexited
  | drop => exact absurd rfl hdrop

/-- **A lost request is not made good**: as long as the call of `stop` is not given up it does
not return. -/
theorem Lost.run {after : List (Step SchedulerTask Event)} (hrun : Run seed live tr s)
    (hlost : s.Lost) (hafter : Transition.Run (Transition.ofFun SchedulerTask.step) s after s')
    (hdrop : ∀ x ∈ after, x.input ≠ .drop) : s'.Lost ∧ ∀ x ∈ after, x.input ≠ .joined := by
  refine hafter.invariant_where (I := fun after s => s.Lost ∧ ∀ x ∈ after, x.input ≠ .joined)
    (C := fun x => x.input ≠ .drop) ⟨hlost, by simp⟩ ?_ hdrop
  rintro after s₁ e s₂ hmid ⟨hs₁, hjoined⟩ hstep hinput
  have hheld : s₁.handle ≠ .held := by
    intro hheld
    have hreq := not_requested_of_held (hrun.trans hmid) hheld
    rw [hs₁.1] at hreq
    cases hreq
  obtain ⟨hs₂, he⟩ := hs₁.step hheld hstep hinput
  refine ⟨hs₂, fun x hx => ?_⟩
  rcases List.mem_append.mp hx with hx | hx
  · exact hjoined x hx
  · rw [List.mem_singleton.mp hx]
    exact he

end SchedulerTask

end Blocklist

end DevBrowse
