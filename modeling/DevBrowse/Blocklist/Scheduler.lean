import DevBrowse.Blocklist.Live
import DevBrowse.Lib.Calls
import DevBrowse.Lib.Snapshot

/-!
# Ticks that overtake each other

A tick looks at the version of the live blocklist, waits for its loader, and swaps to the
manifest it gets without looking again. While it waits other ticks may swap. What it gets is
newer than what it looked at, but it may be older than what is live by then: the tick that
comes in last wins, and the version goes back
(`DevBrowse.Blocklist.Scheduler.not_monotone_overtaken`). The version never goes back exactly
if no tick swaps to a manifest older than the one that was swapped to last since it looked; and
a tick that does not swap changes nothing (`DevBrowse.Blocklist.Scheduler.monotone_iff`).
-/

namespace DevBrowse

namespace Blocklist

open Transition (Step)

/-- How far a tick has come. -/
inductive TickPhase where
  /-- It waits for its loader. -/
  | loading
  /-- The loader has come back. -/
  | loaded (result : Except LoaderError Manifest)
  /-- It is done. -/
  | returned (outcome : TickOutcome)
  deriving DecidableEq

/-- A call of `tick_once`. -/
structure Tick where
  /-- The version it has looked at. -/
  current : UInt64
  /-- How far it has come. -/
  phase : TickPhase
  deriving DecidableEq

/-- The manifest a tick has loaded. -/
def Tick.manifest (tick : Tick) : Option Manifest :=
  match tick.phase with
  | .loaded (.ok m) => some m
  | _ => none

/-- The version a tick that is done has updated to, if it has. -/
def Tick.updatedTo (tick : Tick) : Option UInt64 :=
  match tick.phase with
  | .returned (.updated v) => some v
  | _ => none

/-- **The blocklist and the ticks made on it.** -/
structure Scheduler where
  /-- The blocklist. -/
  live : Live
  /-- The warnings given. -/
  warnings : List Text
  /-- The ticks, in the order they began. -/
  ticks : List Tick

namespace Scheduler

/-- A blocklist before the first tick. -/
def new (live : Live) : Scheduler := ⟨live, [], []⟩

/-- What can happen. -/
inductive Event where
  /-- A tick begins: it looks at the version and calls its loader. -/
  | tick
  /-- The loader of a tick comes back. -/
  | loaded (i : ℕ) (result : Except LoaderError Manifest)
  /-- A tick ends. -/
  | settle (i : ℕ)
  deriving DecidableEq

/-- What a loader may come back with: its contract is to hand out no manifest that is not
strictly newer than the version it was told. -/
def mayLoad (current : UInt64) : Except LoaderError Manifest → Bool
  | .ok m => current < m.contentVersion
  | .error _ => true

/-- **One event.** -/
def step (s : Scheduler) : Event → Option Scheduler
  | .tick => some { s with ticks := s.ticks ++ [⟨s.live.contentVersion, .loading⟩] }
  | .loaded i result =>
    match s.ticks[i]? with
    | some ⟨current, .loading⟩ =>
      if mayLoad current result then
        some { s with ticks := s.ticks.set i ⟨current, .loaded result⟩ }
      else none
    | _ => none
  | .settle i =>
    match s.ticks[i]? with
    | some ⟨current, .loaded result⟩ =>
      -- the version is not looked at again
      let ticked := Blocklist.settle s.live result
      some ⟨ticked.live, s.warnings ++ ticked.warnings,
        s.ticks.set i ⟨current, .returned ticked.outcome⟩⟩
    | _ => none

/-- The runs of ticks on a blocklist. -/
abbrev Run (live : Live) : List (Step Scheduler Event) → Scheduler → Prop :=
  Transition.Run (Transition.ofFun step) (new live)

/-- The manifest a step swaps to, if it does. -/
def swapsTo (x : Step Scheduler Event) : Option Manifest :=
  match x.input with
  | .settle i => (x.pre.ticks[i]?).bind Tick.manifest
  | _ => none

/-- The step is the beginning of the `i`-th tick. -/
def begins (i : ℕ) (x : Step Scheduler Event) : Bool :=
  x.input = .tick && x.pre.ticks.length = i

/-- The versions swapped to since the `i`-th tick began. -/
def versionsSince (i : ℕ) (tr : List (Step Scheduler Event)) : List UInt64 :=
  Transition.writesSince (begins i) (fun x => (swapsTo x).map Manifest.contentVersion) tr

/-- The step is one of the `i`-th tick. -/
def OfTick (i : ℕ) (x : Step Scheduler Event) : Prop :=
  match x.input with
  | .tick => i = x.pre.ticks.length
  | .loaded j _ | .settle j => i = j

/-- The version does not go back. -/
def Monotone (x : Step Scheduler Event) : Prop :=
  x.pre.live.contentVersion ≤ x.post.live.contentVersion

/-- **A tick that did not update changed nothing.** -/
def FailsClean (tr : List (Step Scheduler Event)) (s : Scheduler) : Prop :=
  ∀ (i : ℕ) tick, s.ticks[i]? = some tick → tick.updatedTo = none →
    ∀ x ∈ tr, OfTick i x → x.post.live = x.pre.live

/-- **No tick is overtaken by a newer one**: where a tick swaps, it does so to a manifest that
is not older than the one swapped to last since it began. -/
def NotOvertaken (tr : List (Step Scheduler Event)) : Prop :=
  ∀ before x after, tr = before ++ x :: after →
    ∀ (i : ℕ) tick m, x.input = .settle i → x.pre.ticks[i]? = some tick →
      tick.manifest = some m →
      ∀ v, (versionsSince i before).getLast? = some v → v ≤ m.contentVersion

variable {live : Live} {s s' : Scheduler} {e : Event} {i : ℕ} {tick : Tick}
  {tr : List (Step Scheduler Event)}

/-! ### What an event does -/

/-- A loader that comes back changes its tick only. -/
theorem step_loaded {result : Except LoaderError Manifest}
    (h : s.step (.loaded i result) = some s') :
    ∃ current, s.ticks[i]? = some ⟨current, .loading⟩ ∧
      (∀ m, result = .ok m → current < m.contentVersion) ∧
      s' = { s with ticks := s.ticks.set i ⟨current, .loaded result⟩ } := by
  simp only [step] at h
  split at h
  · rename_i current hi
    split at h
    · rename_i hnewer
      obtain rfl := Option.some.inj h
      refine ⟨current, hi, ?_, rfl⟩
      rintro m rfl
      simpa [mayLoad] using hnewer
    · simp at h
  · simp at h

/-- A tick that ends swaps to the manifest it has loaded, or leaves the blocklist alone. -/
theorem step_settle (h : s.step (.settle i) = some s') :
    ∃ current result outcome, s.ticks[i]? = some ⟨current, .loaded result⟩ ∧
      s'.ticks = s.ticks.set i ⟨current, .returned outcome⟩ ∧
      ((∃ m, result = .ok m ∧ outcome = .updated m.contentVersion ∧
          s'.live = .fromManifest m) ∨
        ∃ e, result = .error e ∧ s'.live = s.live) := by
  simp only [step] at h
  split at h
  · rename_i current result hi
    obtain rfl := Option.some.inj h
    refine ⟨current, result, (settle s.live result).outcome, hi, rfl, ?_⟩
    rcases settle_cases s.live result with ⟨m, rfl, heq⟩ | ⟨e, rfl, hlive, -⟩
    · exact Or.inl ⟨m, rfl, by rw [heq], by rw [heq]⟩
    · exact Or.inr ⟨e, rfl, hlive⟩
  · simp at h

/-! ### Ticks in progress -/

/-- Every tick in progress stands where it did, with the version it looked at. -/
theorem current_step (h : s.step e = some s') (htick : s'.ticks[i]? = some tick) :
    (e = .tick ∧ i = s.ticks.length ∧ tick = ⟨s.live.contentVersion, .loading⟩) ∨
      ∃ before, s.ticks[i]? = some before ∧ before.current = tick.current := by
  cases e with
  | tick =>
    obtain rfl := Option.some.inj h
    rcases Calls.getElem?_concat_cases htick with hold | ⟨hi, rfl⟩
    · exact Or.inr ⟨tick, hold, rfl⟩
    · exact Or.inl ⟨rfl, hi, rfl⟩
  | loaded j result =>
    obtain ⟨current, hj, -, rfl⟩ := step_loaded h
    rcases Calls.getElem?_set_cases htick with ⟨rfl, rfl⟩ | ⟨-, hold⟩
    · exact Or.inr ⟨_, hj, rfl⟩
    · exact Or.inr ⟨tick, hold, rfl⟩
  | settle j =>
    obtain ⟨current, result, outcome, hj, hticks, -⟩ := step_settle h
    rw [hticks] at htick
    rcases Calls.getElem?_set_cases htick with ⟨rfl, rfl⟩ | ⟨-, hold⟩
    · exact Or.inr ⟨_, hj, rfl⟩
    · exact Or.inr ⟨tick, hold, rfl⟩

/-- The version of the blocklist is the version of the manifest swapped to, if one is. -/
theorem contentVersion_step (h : s.step e = some s') :
    s'.live.contentVersion =
      ((swapsTo ⟨s, e, s'⟩).map Manifest.contentVersion).getD s.live.contentVersion := by
  cases e with
  | tick =>
    obtain rfl := Option.some.inj h
    rfl
  | loaded j result =>
    obtain ⟨current, -, -, rfl⟩ := step_loaded h
    rfl
  | settle j =>
    obtain ⟨current, result, outcome, hj, -, ⟨m, rfl, -, hlive⟩ | ⟨e, rfl, hlive⟩⟩ :=
      step_settle h
    · simp [swapsTo, hj, Tick.manifest, hlive, Live.fromManifest]
    · simp [swapsTo, hj, Tick.manifest, hlive]

/-- **What a tick has looked at is a snapshot of the version.** -/
theorem snapshot_current (i : ℕ) :
    Transition.Snapshot (Transition.ofFun step) (fun s => s.live.contentVersion)
      (fun s => (s.ticks[i]?).map Tick.current) (begins i)
      (fun x => (swapsTo x).map Manifest.contentVersion) where
  fresh x hstep htaken v hv := by
    obtain ⟨s, e, s'⟩ := x
    obtain ⟨rfl, hi⟩ : e = .tick ∧ s.ticks.length = i := by simpa [begins] using htaken
    have hs' := Option.some.inj hstep
    rw [← hs'] at hv ⊢
    simpa [← hi] using hv
  kept x hstep htaken v hv := by
    obtain ⟨tick, htick, rfl⟩ := Option.map_eq_some_iff.mp hv
    rcases current_step hstep htick with ⟨he, hi, -⟩ | ⟨before, hbefore, hcurrent⟩
    · simp [begins, he, hi] at htaken
    · rw [hbefore, Option.map_some, hcurrent]
  written x hstep := contentVersion_step hstep

/-- A tick has loaded what is newer than what it looked at. -/
def Newer (s : Scheduler) : Prop :=
  ∀ (i : ℕ) tick m, s.ticks[i]? = some tick → tick.manifest = some m →
    tick.current < m.contentVersion

theorem Newer.step (hnewer : Newer s) (h : s.step e = some s') : Newer s' := by
  intro i tick m htick hm
  cases e with
  | tick =>
    obtain rfl := Option.some.inj h
    rcases Calls.getElem?_concat_cases htick with hold | ⟨-, rfl⟩
    · exact hnewer i tick m hold hm
    · simp [Tick.manifest] at hm
  | loaded j result =>
    obtain ⟨current, -, hmay, rfl⟩ := step_loaded h
    rcases Calls.getElem?_set_cases htick with ⟨-, rfl⟩ | ⟨-, hold⟩
    · cases result with
      | ok m' =>
        obtain rfl : m' = m := by simpa [Tick.manifest] using hm
        exact hmay m' rfl
      | error e => simp [Tick.manifest] at hm
    · exact hnewer i tick m hold hm
  | settle j =>
    obtain ⟨current, result, outcome, -, hticks, -⟩ := step_settle h
    rw [hticks] at htick
    rcases Calls.getElem?_set_cases htick with ⟨-, rfl⟩ | ⟨-, hold⟩
    · -- a tick that has returned holds no manifest any more
      simp [Tick.manifest] at hm
    · exact hnewer i tick m hold hm

theorem newer_of_run (h : Run live tr s) : Newer s :=
  h.invariant (I := fun _ s => Newer s) (by simp [Newer, new])
    fun _ _ _ _ _ hi hstep => hi.step hstep

/-- A tick that has returned stays as it is. -/
theorem tick_stays (h : s.step e = some s') (htick : s.ticks[i]? = some tick)
    (hreturned : ∃ outcome, tick.phase = .returned outcome) : s'.ticks[i]? = some tick := by
  obtain ⟨outcome, hphase⟩ := hreturned
  cases e with
  | tick =>
    obtain rfl := Option.some.inj h
    exact Calls.getElem?_concat_of_some htick
  | loaded j result =>
    obtain ⟨current, hj, -, rfl⟩ := step_loaded h
    refine Calls.getElem?_set_of_ne htick hj ?_
    rintro rfl
    cases hphase
  | settle j =>
    obtain ⟨current, result, outcome', hj, hticks, -⟩ := step_settle h
    rw [hticks]
    refine Calls.getElem?_set_of_ne htick hj ?_
    rintro rfl
    cases hphase

/-! ### Versions -/

/-- What a step of a tick does: it leaves the blocklist alone, or the tick has updated. -/
theorem ofTick_cases (h : s.step e = some s') (hof : OfTick i ⟨s, e, s'⟩) :
    s'.live = s.live ∨
      ∃ tick v, s'.ticks[i]? = some tick ∧ tick.phase = .returned (.updated v) := by
  cases e with
  | tick =>
    obtain rfl := Option.some.inj h
    exact Or.inl rfl
  | loaded j result =>
    obtain ⟨current, -, -, rfl⟩ := step_loaded h
    exact Or.inl rfl
  | settle j =>
    obtain rfl : i = j := hof
    obtain ⟨current, result, outcome, hj, hticks, ⟨m, -, rfl, -⟩ | ⟨e, -, hlive⟩⟩ :=
      step_settle h
    · refine Or.inr ⟨⟨current, .returned (.updated m.contentVersion)⟩, _, ?_, rfl⟩
      rw [hticks]
      exact Calls.getElem?_set_self hj
    · exact Or.inl hlive

theorem failsClean_of_run (h : Run live tr s) : FailsClean tr s := by
  rintro i tick htick hnot x hx hof
  obtain ⟨-, -, -, -, hstep, -⟩ := h.of_mem hx
  rcases ofTick_cases hstep hof with heq | ⟨tick', v, htick', hphase⟩
  · exact heq
  · -- a tick that has updated would still show that it has
    have hend : s.ticks[i]? = some tick' :=
      Calls.getElem?_of_run Scheduler.ticks tick_stays h hx htick' ⟨_, hphase⟩
    obtain rfl := Option.some.inj (htick.symm.trans hend)
    simp [Tick.updatedTo, hphase] at hnot

/-- One event lets the version not go back if and only if its tick is not overtaken. -/
theorem monotone_step_iff (hrun : Run live tr s) (h : s.step e = some s') :
    Monotone ⟨s, e, s'⟩ ↔ ∀ (i : ℕ) tick m, e = .settle i → s.ticks[i]? = some tick →
      tick.manifest = some m →
      ∀ v, (versionsSince i tr).getLast? = some v → v ≤ m.contentVersion := by
  cases e with
  | tick =>
    obtain rfl := Option.some.inj h
    exact iff_of_true (UInt64.le_refl _) fun i tick m he => by cases he
  | loaded j result =>
    obtain ⟨current, -, -, rfl⟩ := step_loaded h
    exact iff_of_true (UInt64.le_refl _) fun i tick m he => by cases he
  | settle j =>
    obtain ⟨current, result, outcome, hj, -, ⟨m, rfl, -, hlive⟩ | ⟨e, rfl, hlive⟩⟩ :=
      step_settle h
    · -- what is live is what was swapped to last since the tick began
      have hcell : s.live.contentVersion = (versionsSince j tr).getLast?.getD current :=
        (snapshot_current j).cell_eq (by simp [new]) hrun current (by simp [hj])
      have hnewer : current < m.contentVersion := newer_of_run hrun j _ m hj rfl
      rw [Monotone, hlive, hcell]
      constructor
      · rintro hle i tick m' he htick hm' v hv
        obtain rfl := Event.settle.inj he
        obtain rfl := Option.some.inj (hj.symm.trans htick)
        obtain rfl : m = m' := by simpa [Tick.manifest] using hm'
        rwa [hv] at hle
      · intro hnot
        cases hlast : (versionsSince j tr).getLast? with
        | none => exact UInt64.le_of_lt hnewer
        | some v => exact hnot j _ m rfl hj rfl v hlast
    · refine iff_of_true ?_ ?_
      · rw [Monotone, hlive]
        exact UInt64.le_refl _
      · rintro i tick m he htick hm v -
        obtain rfl := Event.settle.inj he
        obtain rfl := Option.some.inj (hj.symm.trans htick)
        simp [Tick.manifest] at hm

/-- **When the version never goes back**: at no step of a run, while ticks that do not update
change nothing, exactly if no tick swaps to a manifest older than the one that was swapped to
last since it began. -/
theorem monotone_iff (hrun : Run live tr s) :
    ((∀ x ∈ tr, Monotone x) ∧ FailsClean tr s) ↔ NotOvertaken tr := by
  rw [and_iff_left (failsClean_of_run hrun)]
  constructor
  · rintro hmono before x after rfl
    obtain ⟨hbefore, hstep, -⟩ := hrun.cut
    exact (monotone_step_iff hbefore hstep).mp (hmono x (by simp))
  · intro hnot x hx
    obtain ⟨before, after, htr, hbefore, hstep, -⟩ := hrun.of_mem hx
    exact (monotone_step_iff hbefore hstep).mpr (hnot before x after htr)

/-- A tick that nothing comes between, event by event. -/
theorem run_tickOnce {load : UInt64 → Except LoaderError Manifest}
    (hload : ∀ v m, load v = .ok m → v < m.contentVersion) (s : Scheduler) :
    ∃ tr s', Transition.Run (Transition.ofFun step) s tr s' ∧
      s'.live = (tickOnce load s.live).live ∧
      s'.warnings = s.warnings ++ (tickOnce load s.live).warnings := by
  have hmay : mayLoad s.live.contentVersion (load s.live.contentVersion) = true := by
    cases hresult : load s.live.contentVersion with
    | ok m => exact decide_eq_true (hload _ m hresult)
    | error e => rfl
  have hbegun : s.step .tick =
      some { s with ticks := s.ticks ++ [⟨s.live.contentVersion, .loading⟩] } := rfl
  have hloaded : step { s with ticks := s.ticks ++ [⟨s.live.contentVersion, .loading⟩] }
      (.loaded s.ticks.length (load s.live.contentVersion)) =
      some { s with ticks := s.ticks ++
        [⟨s.live.contentVersion, .loaded (load s.live.contentVersion)⟩] } := by
    simp [step, hmay]
  have hsettled : ∃ s', step { s with ticks := s.ticks ++
      [⟨s.live.contentVersion, .loaded (load s.live.contentVersion)⟩] }
      (.settle s.ticks.length) = some s' ∧ s'.live = (tickOnce load s.live).live ∧
        s'.warnings = s.warnings ++ (tickOnce load s.live).warnings := by
    simp [step, tickOnce]
  obtain ⟨s', hs', hlive, hwarnings⟩ := hsettled
  exact ⟨_, s', ((Transition.Run.nil.snoc hbegun).snoc hloaded).snoc hs', hlive, hwarnings⟩

/-- A manifest of a version that blocks one host. -/
def manifestOf (version : UInt64) (host : String) : Manifest :=
  ⟨version, [.host host.toList .ad], []⟩

/-- Two ticks, one after the other. -/
theorem monotone_iff_in_order :
    ∃ tr s, Run .empty tr s ∧
      tr.map Step.input = [.tick, .loaded 0 (.ok (manifestOf 1 "first.example")), .settle 0,
        .tick, .loaded 1 (.ok (manifestOf 2 "second.example")), .settle 1] ∧
      (((∀ x ∈ tr, Monotone x) ∧ FailsClean tr s) ↔ NotOvertaken tr) := by
  have hexec : (Transition.exec step (new .empty)
      [.tick, .loaded 0 (.ok (manifestOf 1 "first.example")), .settle 0, .tick,
        .loaded 1 (.ok (manifestOf 2 "second.example")), .settle 1]).isSome = true := rfl
  obtain ⟨tr, s, hrun, hinputs⟩ := Transition.exists_run hexec
  exact ⟨tr, s, hrun, hinputs, monotone_iff hrun⟩

/-- **A tick that is overtaken**: two ticks look at the same version, and the one that got the
newer manifest swaps first. -/
theorem not_monotone_overtaken :
    ∃ tr s, Run .empty tr s ∧
      tr.map Step.input = [.tick, .tick, .loaded 0 (.ok (manifestOf 1 "first.example")),
        .loaded 1 (.ok (manifestOf 2 "second.example")), .settle 1, .settle 0] ∧
      ∃ x ∈ tr, ¬ Monotone x := by
  have hexec : (Transition.exec step (new .empty)
      [.tick, .tick, .loaded 0 (.ok (manifestOf 1 "first.example")),
        .loaded 1 (.ok (manifestOf 2 "second.example")), .settle 1, .settle 0]).any (fun p =>
      p.1.any fun x => decide (x.post.live.contentVersion < x.pre.live.contentVersion)) = true := by
    decide +kernel
  obtain ⟨tr, s, hrun, hinputs, htest⟩ := Transition.exists_run_where hexec
  obtain ⟨x, hx, hdecide⟩ := List.any_eq_true.mp htest
  exact ⟨tr, s, hrun, hinputs, x, hx, UInt64.not_le.mpr (of_decide_eq_true hdecide)⟩

end Scheduler

end Blocklist

end DevBrowse
