import Mathlib.Data.List.Basic
import Mathlib.Logic.Relation

/-!
# Runs of a labelled transition system

A system is a relation `R s i s'` between a state, an input and the state the
input leads to. A *run* is kept with everything that happened in it: the list of
its steps, each with the state before, the input and the state after
(`Transition.Step`). Histories are read off that list, so an invariant may speak
about the past of a run and not only about the state it has arrived at.

The two rules everything else is proved with are

* `Transition.Run.invariant`: what holds of the empty history and is kept by every
  step holds of every run;
* `Transition.Run.invariant_where`: the same when the step rule is only known for
  the steps that meet a condition, for the runs all of whose steps meet it.

A property of *every* state on the way is then obtained from
`Transition.Run.of_mem`, which cuts a run at one of its steps. Two systems are compared by
`Transition.Run.simulation`.
-/

namespace Transition

variable {σ ι : Type*}

/-- One step of a run: the state before, the input, the state after. -/
structure Step (σ ι : Type*) where
  /-- The state the step is taken in. -/
  pre : σ
  /-- What is asked of the system. -/
  input : ι
  /-- The state the step leads to. -/
  post : σ

/-- **The runs of a system from `s₀`**, with the list of their steps. -/
inductive Run (R : σ → ι → σ → Prop) (s₀ : σ) : List (Step σ ι) → σ → Prop
  /-- Nothing has happened yet. -/
  | nil : Run R s₀ [] s₀
  /-- One more step at the end. -/
  | snoc {tr : List (Step σ ι)} {s s' : σ} {i : ι} :
      Run R s₀ tr s → R s i s' → Run R s₀ (tr ++ [⟨s, i, s'⟩]) s'

variable {R : σ → ι → σ → Prop} {s₀ s s' : σ} {tr tr' : List (Step σ ι)}

theorem Run.trans (h : Run R s₀ tr s) (h' : Run R s tr' s') : Run R s₀ (tr ++ tr') s' := by
  induction h' with
  | nil => simpa using h
  | snoc _ hstep ih => simpa using ih.snoc hstep

theorem Run.eq_or_snoc (h : Run R s₀ tr s) :
    (tr = [] ∧ s = s₀) ∨
      ∃ tr' m i, tr = tr' ++ [⟨m, i, s⟩] ∧ Run R s₀ tr' m ∧ R m i s := by
  cases h with
  | nil => exact Or.inl ⟨rfl, rfl⟩
  | snoc hrun hstep => exact Or.inr ⟨_, _, _, rfl, hrun, hstep⟩

@[simp] theorem run_nil : Run R s₀ [] s ↔ s = s₀ := by
  constructor
  · intro h
    rcases h.eq_or_snoc with ⟨-, rfl⟩ | ⟨_, _, _, hnil, -, -⟩
    · rfl
    · simp at hnil
  · rintro rfl
    exact Run.nil

/-- A run that begins with a step is that step, and a run from where it leads. -/
theorem run_cons {x : Step σ ι} :
    Run R s₀ (x :: tr) s ↔ x.pre = s₀ ∧ R x.pre x.input x.post ∧ Run R x.post tr s := by
  constructor
  · intro h
    obtain ⟨l, hl⟩ : ∃ l, l = x :: tr := ⟨_, rfl⟩
    rw [← hl] at h
    induction h generalizing tr with
    | nil => simp at hl
    | @snoc tr₀ s₁ s₂ i hrun hstep ih =>
      cases tr₀ with
      | nil =>
        obtain ⟨rfl, rfl⟩ : ⟨s₁, i, s₂⟩ = x ∧ tr = [] := by simpa [eq_comm] using hl
        obtain rfl := run_nil.mp hrun
        exact ⟨rfl, hstep, Run.nil⟩
      | cons y tr₁ =>
        obtain ⟨rfl, rfl⟩ : y = x ∧ tr = tr₁ ++ [⟨s₁, i, s₂⟩] := by simpa [eq_comm] using hl
        obtain ⟨hpre, hfirst, hrest⟩ := ih rfl
        exact ⟨hpre, hfirst, hrest.snoc hstep⟩
  · rintro ⟨rfl, hstep, hrest⟩
    have hfirst : Run R x.pre [x] x.post := Run.nil.snoc hstep
    exact hfirst.trans hrest

/-- **Cutting a run in two.** -/
theorem run_append :
    Run R s₀ (tr ++ tr') s ↔ ∃ m, Run R s₀ tr m ∧ Run R m tr' s := by
  constructor
  · intro h
    induction tr generalizing s₀ with
    | nil => exact ⟨s₀, Run.nil, h⟩
    | cons x tr ih =>
      obtain ⟨hpre, hstep, hrest⟩ := run_cons.mp h
      obtain ⟨m, hm, hm'⟩ := ih hrest
      exact ⟨m, run_cons.mpr ⟨hpre, hstep, hm⟩, hm'⟩
  · rintro ⟨m, h, h'⟩
    exact h.trans h'

/-- **Cutting a run at one of its steps.** -/
theorem Run.cut {x : Step σ ι} (h : Run R s₀ (tr ++ x :: tr') s) :
    Run R s₀ tr x.pre ∧ R x.pre x.input x.post ∧ Run R x.post tr' s := by
  obtain ⟨m, hbefore, hrest⟩ := run_append.mp h
  obtain ⟨rfl, hstep, hafter⟩ := run_cons.mp hrest
  exact ⟨hbefore, hstep, hafter⟩

/-- Every step of a run is one to cut it at. -/
theorem Run.of_mem {x : Step σ ι} (h : Run R s₀ tr s) (hx : x ∈ tr) :
    ∃ before after, tr = before ++ x :: after ∧ Run R s₀ before x.pre ∧
      R x.pre x.input x.post ∧ Run R x.post after s := by
  obtain ⟨before, after, rfl⟩ := List.append_of_mem hx
  exact ⟨before, after, rfl, h.cut⟩

/-- **A run that goes on for one more step is cut there**, or where the shorter one is cut. -/
theorem append_singleton_eq_cut_iff {x₀ x : Step σ ι} {past later : List (Step σ ι)} :
    tr ++ [x₀] = past ++ x :: later ↔
      tr = past ∧ x₀ = x ∧ later = [] ∨
        ∃ later', later = later' ++ [x₀] ∧ tr = past ++ x :: later' := by
  constructor
  · intro hcut
    rcases later.eq_nil_or_concat' with rfl | ⟨later, z, rfl⟩
    · obtain ⟨htr, hlast⟩ := List.append_inj' hcut rfl
      exact .inl ⟨htr, List.singleton_inj.mp hlast, rfl⟩
    · rw [← List.cons_append, ← List.append_assoc] at hcut
      obtain ⟨htr, hlast⟩ := List.append_inj' hcut rfl
      obtain rfl := List.singleton_inj.mp hlast
      exact .inr ⟨later, rfl, htr⟩
  · rintro (⟨rfl, rfl, rfl⟩ | ⟨later, rfl, rfl⟩)
    · rfl
    · rw [List.append_assoc, List.cons_append]

/-- There is a cut with a property there, or where the shorter one is cut. -/
theorem exists_cut_snoc {x₀ : Step σ ι}
    {P : List (Step σ ι) → Step σ ι → List (Step σ ι) → Prop} :
    (∃ past x later, tr ++ [x₀] = past ++ x :: later ∧ P past x later) ↔
      P tr x₀ [] ∨ ∃ past x later, tr = past ++ x :: later ∧ P past x (later ++ [x₀]) := by
  constructor
  · rintro ⟨past, x, later, hcut, h⟩
    rcases append_singleton_eq_cut_iff.mp hcut with ⟨rfl, rfl, rfl⟩ | ⟨later, rfl, rfl⟩
    · exact .inl h
    · exact .inr ⟨past, x, later, rfl, h⟩
  · rintro (h | ⟨past, x, later, htr, h⟩)
    · exact ⟨tr, x₀, [], rfl, h⟩
    · exact ⟨past, x, _, append_singleton_eq_cut_iff.mpr (.inr ⟨later, rfl, htr⟩), h⟩

/-- All cuts have a property if there it holds, and wherever the shorter one is cut. -/
theorem forall_cut_snoc {x₀ : Step σ ι} {P : List (Step σ ι) → Step σ ι → Prop} :
    (∀ past x later, tr ++ [x₀] = past ++ x :: later → P past x) ↔
      (∀ past x later, tr = past ++ x :: later → P past x) ∧ P tr x₀ := by
  constructor
  · intro h
    refine ⟨fun past x later htr => h past x (later ++ [x₀]) ?_, h tr x₀ [] rfl⟩
    exact append_singleton_eq_cut_iff.mpr (.inr ⟨later, rfl, htr⟩)
  · rintro ⟨hpast, hlast⟩ past x later hcut
    rcases append_singleton_eq_cut_iff.mp hcut with ⟨rfl, rfl, -⟩ | ⟨later, -, htr⟩
    · exact hlast
    · exact hpast past x later htr

/-- There is nowhere to cut a run without steps. -/
theorem forall_cut_nil {P : List (Step σ ι) → Step σ ι → Prop} :
    ∀ past x later, ([] : List (Step σ ι)) = past ++ x :: later → P past x := by
  intro past x later hnil
  simp at hnil

/-- **Induction along a run**: what the empty history satisfies and every step
keeps, every run satisfies. -/
theorem Run.invariant {I : List (Step σ ι) → σ → Prop} (init : I [] s₀)
    (step : ∀ tr s i s', Run R s₀ tr s → I tr s → R s i s' → I (tr ++ [⟨s, i, s'⟩]) s')
    (h : Run R s₀ tr s) : I tr s := by
  induction h with
  | nil => exact init
  | snoc hrun hstep ih => exact step _ _ _ _ hrun ih hstep

/-- **Induction along the runs whose steps all meet a condition.** -/
theorem Run.invariant_where {I : List (Step σ ι) → σ → Prop} {C : Step σ ι → Prop}
    (init : I [] s₀)
    (step : ∀ tr s i s', Run R s₀ tr s → I tr s → R s i s' → C ⟨s, i, s'⟩ →
      I (tr ++ [⟨s, i, s'⟩]) s')
    (h : Run R s₀ tr s) (hC : ∀ x ∈ tr, C x) : I tr s := by
  induction h with
  | nil => exact init
  | @snoc tr s s' i hrun hstep ih =>
    have hpast : I tr s := ih fun x hx => hC x (List.mem_append_left _ hx)
    exact step _ _ _ _ hrun hpast hstep (hC _ (by simp))

/-- An invariant of the state alone holds before and after every step of a run. -/
theorem Run.forall_step {I : σ → Prop} (init : I s₀)
    (step : ∀ s i s', I s → R s i s' → I s') (h : Run R s₀ tr s) :
    ∀ x ∈ tr, I x.pre ∧ I x.post := by
  intro x hx
  obtain ⟨before, after, -, hrun, hstep, -⟩ := h.of_mem hx
  have hpre : I x.pre :=
    hrun.invariant (I := fun _ => I) init fun _ _ _ _ _ hi hs => step _ _ _ hi hs
  exact ⟨hpre, step _ _ _ hpre hstep⟩

/-- What holds at the start and after every step of a run holds before every step of it. -/
theorem Run.forall_pre {I : σ → Prop} (init : I s₀) (h : Run R s₀ tr s)
    (hpost : ∀ x ∈ tr, I x.post) : ∀ x ∈ tr, I x.pre := by
  intro x hx
  obtain ⟨before, after, rfl, hrun, -, -⟩ := h.of_mem hx
  rcases hrun.eq_or_snoc with ⟨-, hpre⟩ | ⟨before', m, i, rfl, -, -⟩
  · rw [hpre]
    exact init
  · exact hpost ⟨m, i, x.pre⟩ (by simp)

/-- **A property of a run that a step keeps exactly if it meets a condition** on what has happened
before it holds after every step exactly if every step meets the condition. -/
theorem Run.forall_reached_iff {P : List (Step σ ι) → σ → Prop}
    {C : List (Step σ ι) → Step σ ι → Prop} (init : P [] s₀)
    (step : ∀ tr s i s', Run R s₀ tr s → P tr s → R s i s' →
      (P (tr ++ [⟨s, i, s'⟩]) s' ↔ C tr ⟨s, i, s'⟩))
    (h : Run R s₀ tr s) :
    (∀ before x after, tr = before ++ x :: after → P (before ++ [x]) x.post) ↔
      ∀ before x after, tr = before ++ x :: after → C before x := by
  -- along the run, with the property of the run so far in hand for the next step
  suffices hall : ((∀ before x after, tr = before ++ x :: after → P (before ++ [x]) x.post) ↔
      ∀ before x after, tr = before ++ x :: after → C before x) ∧
      ((∀ before x after, tr = before ++ x :: after → C before x) → P tr s) from hall.1
  induction h with
  | nil => exact ⟨iff_of_true forall_cut_nil forall_cut_nil, fun _ => init⟩
  | @snoc tr s s' i hrun hstep ih =>
    obtain ⟨hiff, hpast⟩ := ih
    have hkeeps := fun hC => step tr s i s' hrun (hpast hC) hstep
    simp only [forall_cut_snoc (P := fun before x => P (before ++ [x]) x.post), forall_cut_snoc]
    refine ⟨⟨fun ⟨hbefore, hlast⟩ => ?_, fun ⟨hC, hlast⟩ => ?_⟩, fun ⟨hC, hlast⟩ => ?_⟩
    · have hC := hiff.mp hbefore
      exact ⟨hC, (hkeeps hC).mp hlast⟩
    · exact ⟨hiff.mpr hC, (hkeeps hC).mpr hlast⟩
    · exact (hkeeps hC).mpr hlast

/-- The same for a property of the state the run has come to. -/
theorem Run.forall_post_iff_history {I : σ → Prop} {C : List (Step σ ι) → Step σ ι → Prop}
    (init : I s₀)
    (step : ∀ tr s i s', Run R s₀ tr s → I s → R s i s' → (I s' ↔ C tr ⟨s, i, s'⟩))
    (h : Run R s₀ tr s) :
    (∀ x ∈ tr, I x.post) ↔ ∀ before x after, tr = before ++ x :: after → C before x := by
  rw [← h.forall_reached_iff (P := fun _ => I) init step]
  constructor
  · rintro hpost before x after rfl
    exact hpost x (by simp)
  · intro hcut x hx
    obtain ⟨before, after, htr⟩ := List.append_of_mem hx
    exact hcut before x after htr

/-- The same for a condition on the step alone. -/
theorem Run.forall_post_iff {I : σ → Prop} {C : Step σ ι → Prop} (init : I s₀)
    (step : ∀ tr s i s', Run R s₀ tr s → I s → R s i s' → (I s' ↔ C ⟨s, i, s'⟩))
    (h : Run R s₀ tr s) : (∀ x ∈ tr, I x.post) ↔ ∀ x ∈ tr, C x := by
  rw [h.forall_post_iff_history (C := fun _ x => C x) init step]
  constructor
  · intro hC x hx
    obtain ⟨before, after, htr⟩ := List.append_of_mem hx
    exact hC before x after htr
  · rintro hC before x after rfl
    exact hC x (by simp)

/-- **Steps that have a property exactly if they meet a condition**: if the property asks for the
condition wherever an invariant holds, and the condition gives the property and keeps the
invariant, then all steps of a run have the property exactly if all meet the condition. -/
theorem Run.forall_iff {I : σ → Prop} {P C : Step σ ι → Prop} (init : I s₀)
    (necessary : ∀ s i s', I s → R s i s' → P ⟨s, i, s'⟩ → C ⟨s, i, s'⟩)
    (sufficient : ∀ s i s', I s → R s i s' → C ⟨s, i, s'⟩ → P ⟨s, i, s'⟩ ∧ I s')
    (h : Run R s₀ tr s) : (∀ x ∈ tr, P x) ↔ ∀ x ∈ tr, C x := by
  -- along the run, with the invariant in hand for the next step
  suffices hall : ((∀ x ∈ tr, P x) ↔ ∀ x ∈ tr, C x) ∧ ((∀ x ∈ tr, C x) → I s) from hall.1
  induction h with
  | nil => exact ⟨by simp, fun _ => init⟩
  | @snoc tr s s' i hrun hstep ih =>
    obtain ⟨hiff, hinv⟩ := ih
    simp only [List.mem_append, List.mem_singleton, or_imp, forall_and, forall_eq]
    refine ⟨⟨fun ⟨hpast, hlast⟩ => ?_, fun ⟨hpast, hlast⟩ => ?_⟩, fun ⟨hpast, hlast⟩ => ?_⟩
    · have hC := hiff.mp hpast
      exact ⟨hC, necessary s i s' (hinv hC) hstep hlast⟩
    · exact ⟨hiff.mpr hpast, (sufficient s i s' (hinv hpast) hstep hlast).1⟩
    · exact (sufficient s i s' (hinv hpast) hstep hlast).2

/-- A run of a system is one of a system with more steps. -/
theorem Run.mono {R' : σ → ι → σ → Prop} (himp : ∀ s i s', R s i s' → R' s i s')
    (h : Run R s₀ tr s) : Run R' s₀ tr s := by
  induction h with
  | nil => exact .nil
  | snoc _ hstep ih => exact ih.snoc (himp _ _ _ hstep)

/-- **A run whose steps all make a measure fall is short.** -/
theorem Run.length_add_le {μ : σ → ℕ} (hfall : ∀ s i s', R s i s' → μ s' < μ s)
    (h : Run R s₀ tr s) : tr.length + μ s ≤ μ s₀ := by
  induction h with
  | nil => exact Nat.le_of_eq (Nat.zero_add _)
  | @snoc tr s s' i _ hstep ih =>
    have hlt := hfall s i s' hstep
    rw [List.length_append, List.length_singleton]
    omega

/-! ### Runs that are followed by another system -/

section Simulation

variable {τ κ : Type*} {R' : τ → κ → τ → Prop} {rel : τ → σ → Prop} {out : Step σ ι → List κ}
  {t₀ : τ}

/-- **A run is followed by another system**: if the two are related at the start, and whatever a
step gives out takes the other system on to a state that is related again, then so does whatever
the run gives out. -/
theorem Run.simulation (init : rel t₀ s₀)
    (step : ∀ s i s' t, R s i s' → rel t s →
      ∃ tr' t', Run R' t tr' t' ∧ tr'.map Step.input = out ⟨s, i, s'⟩ ∧ rel t' s')
    (h : Run R s₀ tr s) :
    ∃ tr' t, Run R' t₀ tr' t ∧ tr'.map Step.input = tr.flatMap out ∧ rel t s := by
  induction h with
  | nil => exact ⟨[], t₀, .nil, rfl, init⟩
  | @snoc tr s s' i _ hstep ih =>
    obtain ⟨past, t, hpast, hout, hrel⟩ := ih
    obtain ⟨last, t', hlast, hout', hrel'⟩ := step s i s' t hstep hrel
    refine ⟨past ++ last, t', hpast.trans hlast, ?_, hrel'⟩
    rw [List.map_append, hout, hout', List.flatMap_append, List.flatMap_singleton]

end Simulation

/-! ### What has happened since -/

section Since

variable {A B : Step σ ι → Prop} {x : Step σ ι}

/-- **Something has happened, and something else has held since**: of the history there is a step
with the first property, after which all steps have the second. -/
def Since (A B : Step σ ι → Prop) (tr : List (Step σ ι)) : Prop :=
  ∃ past x later, tr = past ++ x :: later ∧ A x ∧ ∀ y ∈ later, B y

theorem not_since_nil : ¬ Since A B [] := by
  rintro ⟨past, x, later, hnil, -⟩
  simp at hnil

theorem since_snoc : Since A B (tr ++ [x]) ↔ A x ∨ Since A B tr ∧ B x := by
  rw [Since, exists_cut_snoc (P := fun _ y later => A y ∧ ∀ z ∈ later, B z)]
  constructor
  · rintro (⟨hx, -⟩ | ⟨past, y, later, rfl, hy, hlater⟩)
    · exact .inl hx
    · exact .inr ⟨⟨past, y, later, rfl, hy, fun z hz => hlater z (List.mem_append_left _ hz)⟩,
        hlater x (List.mem_append_right _ (List.mem_singleton.mpr rfl))⟩
  · rintro (hx | ⟨⟨past, y, later, rfl, hy, hlater⟩, hx⟩)
    · exact .inl ⟨hx, fun z hz => absurd hz List.not_mem_nil⟩
    · refine .inr ⟨past, y, later, rfl, hy, fun z hz => ?_⟩
      rcases List.mem_append.mp hz with hz | hz
      · exact hlater z hz
      · rw [List.mem_singleton.mp hz]
        exact hx

end Since

/-! ### Systems given by a function -/

section Functional

variable {f : σ → ι → Option σ}

/-- The system of a partial function: an input is accepted where the function has
a value. -/
def ofFun (f : σ → ι → Option σ) (s : σ) (i : ι) (s' : σ) : Prop := f s i = some s'

/-- The steps a list of inputs leads through, and the state it ends in. -/
def exec (f : σ → ι → Option σ) : σ → List ι → Option (List (Step σ ι) × σ)
  | s, [] => some ([], s)
  | s, i :: is => (f s i).bind fun s' =>
      (exec f s' is).map fun p => (⟨s, i, s'⟩ :: p.1, p.2)

/-- **What is executed is a run.** -/
theorem run_of_exec {is : List ι} {p : List (Step σ ι) × σ} (h : exec f s₀ is = some p) :
    Run (ofFun f) s₀ p.1 p.2 := by
  induction is generalizing s₀ p with
  | nil =>
    obtain rfl : p = ([], s₀) := by simpa [exec, eq_comm] using h
    exact Run.nil
  | cons i is ih =>
    simp only [exec, Option.bind_eq_some_iff, Option.map_eq_some_iff] at h
    obtain ⟨s', hs', q, hq, rfl⟩ := h
    exact run_cons.mpr ⟨rfl, hs', ih hq⟩

theorem inputs_of_exec {is : List ι} {p : List (Step σ ι) × σ} (h : exec f s₀ is = some p) :
    p.1.map Step.input = is := by
  induction is generalizing s₀ p with
  | nil =>
    obtain rfl : p = ([], s₀) := by simpa [exec, eq_comm] using h
    rfl
  | cons i is ih =>
    simp only [exec, Option.bind_eq_some_iff, Option.map_eq_some_iff] at h
    obtain ⟨s', -, q, hq, rfl⟩ := h
    rw [List.map_cons, ih hq]

/-- Where the inputs are accepted one after the other and what happens passes a test,
there is a run over them that passes it. -/
theorem exists_run_where {is : List ι} {q : List (Step σ ι) × σ → Bool}
    (h : (exec f s₀ is).any q = true) :
    ∃ tr s, Run (ofFun f) s₀ tr s ∧ tr.map Step.input = is ∧ q (tr, s) = true := by
  obtain ⟨p, hp, hq⟩ := (Option.any_eq_true _ _).mp h
  exact ⟨p.1, p.2, run_of_exec hp, inputs_of_exec hp, hq⟩

/-- Where the inputs are accepted one after the other, there is a run over them. -/
theorem exists_run {is : List ι} (h : (exec f s₀ is).isSome = true) :
    ∃ tr s, Run (ofFun f) s₀ tr s ∧ tr.map Step.input = is := by
  obtain ⟨p, hp⟩ := Option.isSome_iff_exists.mp h
  exact ⟨p.1, p.2, run_of_exec hp, inputs_of_exec hp⟩

end Functional

end Transition
