import DevBrowse.Lib.Transition

/-!
# Timers that are not cancelled

Some messages to a system start a timer, and when its time is over it sends a message back, which
says what kind of timer it was but not which one. So when a timer was started, and another one of
its kind after it, the message of the first is *stale*: it is taken for that of the second.

Time itself is not tracked: any timer that runs may be the next whose time is over. A timer is
known by the number of messages before the one that started it, which the system does not see.

A flag that is set only where a timer of its kind is started, and cleared by the message of each,
is set only while the newest timer of its kind still runs (`Timers.Guards.exists_running`). So a
stale message that finds it set comes while a later timer runs
(`Timers.Guards.exists_later`).
-/

namespace Timers

open Transition

variable {σ μ κ : Type*}

/-- **A system with timers**, of the kinds `κ`. -/
structure System (σ μ κ : Type*) where
  /-- What a message does. -/
  update : σ → μ → σ
  /-- The timer that is started with it. -/
  starts : σ → μ → Option κ
  /-- The message of a timer whose time is over. -/
  due : κ → μ
  /-- Such a message starts no timer. -/
  starts_due : ∀ k a, starts a (due k) = none

/-- A timer: its kind, and how many messages had been handled when it was started. -/
structure Timer (κ : Type*) where
  /-- Its kind. -/
  kind : κ
  /-- The number of messages before it. -/
  number : ℕ
  deriving DecidableEq

/-- The system with the timers that run. -/
structure Timed (σ κ : Type*) where
  /-- The system. -/
  state : σ
  /-- The timers that run. -/
  running : List (Timer κ)
  /-- How many messages have been handled, without those of timers. -/
  count : ℕ

/-- What happens to the system. -/
inductive Event (μ κ : Type*) where
  /-- It gets a message that is not from a timer. -/
  | message (msg : μ)
  /-- The time of a timer is over. -/
  | due (timer : Timer κ)

namespace System

/-- The system at the start, without timers. -/
def start (a : σ) : Timed σ κ := ⟨a, [], 0⟩

variable [DecidableEq κ] (S : System σ μ κ)

/-- **What happens to the system, and to the timers.** -/
inductive Steps (s : Timed σ κ) : Event μ κ → Timed σ κ → Prop
  /-- A message is handled, and may start a timer. -/
  | message (msg : μ) (h : ∀ k, msg ≠ S.due k) :
      Steps s (.message msg)
        ⟨S.update s.state msg, s.running ++ (S.starts s.state msg).toList.map (⟨·, s.count⟩),
          s.count + 1⟩
  /-- The message of a timer is handled, whichever it is. -/
  | due (timer : Timer κ) (h : timer ∈ s.running) :
      Steps s (.due timer)
        { s with
          state := S.update s.state (S.due timer.kind)
          running := s.running.erase timer }

omit [DecidableEq κ] in
/-- A timer of a kind is started. -/
def Starts (k : κ) (x : Step (Timed σ κ) (Event μ κ)) : Prop :=
  ∃ msg, x.input = .message msg ∧ S.starts x.pre.state msg = some k

omit [DecidableEq κ] in
/-- **A timer is stale**: after it another one of its kind was started. -/
def Stale (tr : List (Step (Timed σ κ) (Event μ κ))) (timer : Timer κ) : Prop :=
  ∃ x ∈ tr, S.Starts timer.kind x ∧ timer.number < x.pre.count

variable {S} {s s' : Timed σ κ} {ev : Event μ κ} {a : σ} {k : κ} {timer : Timer κ}
  {tr : List (Step (Timed σ κ) (Event μ κ))}

theorem state_of_due (h : S.Steps s (.due timer) s') :
    s'.state = S.update s.state (S.due timer.kind) := by
  cases h
  rfl

theorem count_le_of_steps (h : S.Steps s ev s') : s.count ≤ s'.count := by
  cases h with
  | message => exact Nat.le_succ _
  | due => exact Nat.le_refl _

/-- The messages are counted. -/
theorem count_le_of_run (h : Run S.Steps (start a) tr s) : ∀ x ∈ tr, x.pre.count ≤ s.count := by
  refine h.invariant (I := fun tr s => ∀ x ∈ tr, x.pre.count ≤ s.count) (by simp) ?_
  intro tr s ev s' _ hpast hstep x hx
  have hle := count_le_of_steps hstep
  rcases List.mem_append.mp hx with hx | hx
  · exact Nat.le_trans (hpast x hx) hle
  · rw [List.mem_singleton.mp hx]
    exact hle

/-- A timer that runs was started by the message it is known by. -/
theorem exists_starts_of_running (h : Run S.Steps (start a) tr s) :
    ∀ timer ∈ s.running, ∃ x ∈ tr, S.Starts timer.kind x ∧ x.pre.count = timer.number := by
  refine h.invariant (I := fun tr s =>
    ∀ timer ∈ s.running, ∃ x ∈ tr, S.Starts timer.kind x ∧ x.pre.count = timer.number)
    (by simp [start]) ?_
  intro tr s ev s' _ hpast hstep timer htimer
  have hold : timer ∈ s.running → ∃ x ∈ tr ++ [⟨s, ev, s'⟩],
      S.Starts timer.kind x ∧ x.pre.count = timer.number := fun hmem => by
    obtain ⟨x, hx, hstarts⟩ := hpast timer hmem
    exact ⟨x, List.mem_append_left _ hx, hstarts⟩
  cases hstep with
  | message =>
    rcases List.mem_append.mp htimer with hmem | hnew
    · exact hold hmem
    · obtain ⟨k, hk, rfl⟩ := List.mem_map.mp hnew
      exact ⟨_, List.mem_append_right _ (List.mem_singleton.mpr rfl),
        ⟨_, rfl, Option.mem_toList.mp hk⟩, rfl⟩
  | due => exact hold (List.mem_of_mem_erase htimer)

/-- A timer is stale while a later one of its kind runs. -/
theorem stale_of_later {later : Timer κ} (h : Run S.Steps (start a) tr s)
    (hlater : later ∈ s.running) (hkind : later.kind = timer.kind)
    (hlt : timer.number < later.number) : S.Stale tr timer := by
  obtain ⟨x, hx, hstarts, hcount⟩ := exists_starts_of_running h later hlater
  exact ⟨x, hx, hkind ▸ hstarts, hcount ▸ hlt⟩

/-! ### Flags -/

omit [DecidableEq κ] in
/-- **A flag for each kind of timer**, that is set only where one is started and cleared when
the time of one is over. -/
structure Guards (S : System σ μ κ) (flag : κ → σ → Prop) : Prop where
  /-- When the time of a timer is over, its flag is cleared. -/
  clears : ∀ k a, ¬ flag k (S.update a (S.due k))
  /-- A message sets a flag only where it starts a timer. -/
  sets : ∀ k a msg, flag k (S.update a msg) → flag k a ∨ S.starts a msg = some k

variable {flag : κ → σ → Prop}

/-- **While a flag is set the newest timer of its kind runs.** -/
theorem Guards.exists_running (hflag : S.Guards flag) (hclear : ∀ k, ¬ flag k a)
    (h : Run S.Steps (start a) tr s) :
    ∀ k, flag k s.state → ∃ timer ∈ s.running, timer.kind = k ∧
      ∀ x ∈ tr, S.Starts k x → x.pre.count ≤ timer.number := by
  refine h.invariant (I := fun tr s => ∀ k, flag k s.state → ∃ timer ∈ s.running,
    timer.kind = k ∧ ∀ x ∈ tr, S.Starts k x → x.pre.count ≤ timer.number)
    (fun k hk => absurd hk (hclear k)) ?_
  intro tr s ev s' hrun hpast hstep k hk
  cases hstep with
  | message msg =>
    by_cases hstarts : S.starts s.state msg = some k
    · -- the timer that is started now is the newest
      refine ⟨⟨k, s.count⟩, List.mem_append_right _ ?_, rfl, fun x hx _ => ?_⟩
      · rw [hstarts]
        exact List.mem_singleton.mpr rfl
      · rcases List.mem_append.mp hx with hx | hx
        · exact count_le_of_run hrun x hx
        · obtain rfl := List.mem_singleton.mp hx
          exact Nat.le_refl _
    · obtain ⟨timer, hmem, hkind, hnewest⟩ :=
        hpast k ((hflag.sets k s.state msg hk).resolve_right hstarts)
      refine ⟨timer, List.mem_append_left _ hmem, hkind, fun x hx hx' => ?_⟩
      rcases List.mem_append.mp hx with hx | hx
      · exact hnewest x hx hx'
      · obtain rfl := List.mem_singleton.mp hx
        obtain ⟨_, ⟨⟩, hnow⟩ := hx'
        exact absurd hnow hstarts
  | due ended =>
    have hold : flag k s.state :=
      (hflag.sets k s.state _ hk).resolve_right (by simp [S.starts_due])
    obtain ⟨timer, hmem, hkind, hnewest⟩ := hpast k hold
    have hne : timer ≠ ended := by
      rintro rfl
      rw [← hkind] at hk
      exact hflag.clears _ _ hk
    refine ⟨timer, (List.mem_erase_of_ne hne).mpr hmem, hkind, fun x hx hx' => ?_⟩
    rcases List.mem_append.mp hx with hx | hx
    · exact hnewest x hx hx'
    · obtain rfl := List.mem_singleton.mp hx
      obtain ⟨_, ⟨⟩, -⟩ := hx'

/-- **A stale timer whose flag is set comes while a later one runs.** -/
theorem Guards.exists_later (hflag : S.Guards flag) (hclear : ∀ k, ¬ flag k a)
    (h : Run S.Steps (start a) tr s) (hset : flag timer.kind s.state) (hstale : S.Stale tr timer) :
    ∃ later ∈ s.running, later.kind = timer.kind ∧ timer.number < later.number := by
  obtain ⟨later, hlater, hkind, hnewest⟩ := hflag.exists_running hclear h timer.kind hset
  obtain ⟨x, hx, hstarts, hlt⟩ := hstale
  exact ⟨later, hlater, hkind, Nat.lt_of_lt_of_le hlt (hnewest x hx hstarts)⟩

end System

end Timers
