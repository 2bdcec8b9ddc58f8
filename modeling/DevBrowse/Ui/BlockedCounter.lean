import DevBrowse.Lib.Tally
import DevBrowse.Lib.Transition
import DevBrowse.Ui.AddressBar
import Mathlib.Data.Finset.Card
import Mathlib.Data.Finset.Dedup

/-!
# What the badge counts

The badge does not store the browsing mode: it is read off what was shown before. Still what is
shown is at any time what the mode taken over last and the count ask for, and the list of the
popover is the tally of the domains blocked since the page was loaded
(`DevBrowse.Ui.BadgeSlot.counts_of_run`). The counts of the rows fall short of the count of the
badge only after a row was given up, and rows are given up in the order they came in.

Numbers are not bounded: a page that blocks `2 ^ 32` requests is not modelled.
-/

namespace DevBrowse

namespace Ui

/-- What is done to a badge. -/
inductive BadgeOp where
  | event (ev : BadgeEvent)
  | syncMode (browsingMode : Mode)

namespace BadgeOp

/-- The mode that is taken over. -/
def mode? : BadgeOp → Option Mode
  | .syncMode browsingMode => some browsingMode
  | .event _ => none

/-- The domain that was blocked. -/
def domain? : BadgeOp → Option Text
  | .event (.blockIncrement domain) => some domain
  | _ => none

/-- Whether another page is loaded. -/
def isReset : BadgeOp → Bool
  | .event .reset => true
  | _ => false

/-- The mode taken over last. -/
def lastMode (start : Mode) (ops : List BadgeOp) : Mode :=
  (ops.reverse.findSome? mode?).getD start

/-- **The domains that were blocked since the last reset**, one for each time. -/
def sinceReset (ops : List BadgeOp) : List Text :=
  ((ops.reverse.takeWhile fun op => !op.isReset).filterMap domain?).reverse

variable {start : Mode} {ops : List BadgeOp} {op : BadgeOp}

theorem lastMode_snoc :
    lastMode start (ops ++ [op]) = (mode? op).getD (lastMode start ops) := by
  rw [lastMode, List.reverse_append, List.reverse_singleton, List.singleton_append,
    List.findSome?_cons]
  cases h : mode? op with
  | none => rfl
  | some m => rfl

theorem sinceReset_snoc : sinceReset (ops ++ [op]) =
    if op.isReset then [] else sinceReset ops ++ (domain? op).toList := by
  rw [sinceReset, List.reverse_append, List.reverse_singleton, List.singleton_append,
    List.takeWhile_cons]
  cases op.isReset with
  | true => rfl
  | false =>
    rw [if_neg Bool.false_ne_true]
    simp only [Bool.not_false, if_true, List.filterMap_cons]
    cases domain? op with
    | none => simp [sinceReset]
    | some d => simp [sinceReset]

end BadgeOp

namespace BadgeSlot

open Transition (Step Run ofFun)

open BadgeOp (lastMode sinceReset)

/-- One step of a badge. -/
def step (badge : BadgeSlot) : BadgeOp → Option BadgeSlot
  | .event ev => some (badge.update ev)
  | .syncMode browsingMode => some (badge.syncMode browsingMode)

/-- The domains of the list. -/
def domains (badge : BadgeSlot) : List Text := Tally.keys badge.rows

variable {badge badge' : BadgeSlot} {op : BadgeOp} {start : Mode} {d d' : Text}
  {tr : List (Step BadgeSlot BadgeOp)}

/-! ### One step -/

/-- The list counts as a tally does. -/
theorem addRow_eq (domain : Text) (rows : List (Text × ℕ)) :
    addRow domain rows = Tally.bump domain rows := by
  induction rows with
  | nil => rfl
  | cons row rows ih => rw [addRow, Tally.bump, ih]

theorem rows_blockIncrement (badge : BadgeSlot) (d : Text) :
    (badge.update (.blockIncrement d)).rows = Tally.push maxRows d badge.rows := by
  rw [Tally.push, ← addRow_eq]
  rfl

/-- The mode is read off what was shown, since only a Strict badge is shown as one. -/
theorem mode_of_shown {mode : Mode} {count : ℕ}
    (h : badge.mode = .fromModeAndCount mode count) :
    (if badge.mode = .strict then Mode.strict else .standard) = mode := by
  rw [h]
  cases mode with
  | strict => rfl
  | standard =>
    rw [BadgeMode.fromModeAndCount]
    split <;> rfl

/-- **What a step does to the list**: a blocked request is entered, a reset empties it, and
everything else leaves it. -/
theorem rows_step (h : badge.step op = some badge') : badge'.rows =
    if op.isReset then []
    else match op.domain? with
      | some d => Tally.push maxRows d badge.rows
      | none => badge.rows := by
  cases op with
  | syncMode m =>
    obtain rfl := Option.some.inj h
    rfl
  | event ev =>
    obtain rfl := Option.some.inj h
    cases ev with
    | blockIncrement d => exact rows_blockIncrement badge d
    | popoverToggled | popoverClosed | reset => rfl

theorem blockCount_step (h : badge.step op = some badge') : badge'.blockCount =
    if op.isReset then 0 else badge.blockCount + op.domain?.toList.length := by
  cases op with
  | syncMode m =>
    obtain rfl := Option.some.inj h
    rfl
  | event ev =>
    obtain rfl := Option.some.inj h
    cases ev with
    | blockIncrement d | popoverToggled | popoverClosed | reset => rfl

/-- **A step shows what the mode and the count ask for**, where that was shown before it. -/
theorem mode_step {mode : Mode} (h : badge.step op = some badge')
    (hmode : badge.mode = .fromModeAndCount mode badge.blockCount) :
    badge'.mode = .fromModeAndCount (op.mode?.getD mode) badge'.blockCount := by
  cases op with
  | syncMode m =>
    obtain rfl := Option.some.inj h
    rfl
  | event ev =>
    obtain rfl := Option.some.inj h
    cases ev with
    | blockIncrement d =>
      have hread := mode_of_shown hmode
      change BadgeMode.fromModeAndCount _ _ = _
      rw [hread]
      rfl
    | popoverToggled | popoverClosed => exact hmode
    | reset =>
      change (if badge.mode = .strict then BadgeMode.strict else .hidden) =
        .fromModeAndCount mode 0
      rw [hmode]
      cases mode with
      | strict => rfl
      | standard =>
        rw [BadgeMode.fromModeAndCount]
        split <;> rfl

/-! ### Every run -/

/-- What was asked of the badge in a run. -/
def ops (tr : List (Step BadgeSlot BadgeOp)) : List BadgeOp := tr.map Step.input

/-- **How long the row of a domain is in the list**: the number of steps since the last one in
which it came in. -/
def age (tr : List (Step BadgeSlot BadgeOp)) (d : Text) : ℕ :=
  tr.reverse.findIdx fun x => !x.pre.domains.contains d && x.post.domains.contains d

/-- A row leaves with a reset, or as the oldest one when a domain without a row comes and
there are as many rows as there may be. -/
def LeavesInOrder (tr : List (Step BadgeSlot BadgeOp)) : Prop :=
  ∀ before x after, tr = before ++ x :: after → ∀ d ∈ x.pre.domains, d ∉ x.post.domains →
    x.input = .event .reset ∨
      ∃ d', x.input = .event (.blockIncrement d') ∧ d' ∉ x.pre.domains ∧
        x.pre.rows.length = maxRows ∧
        ∀ other ∈ x.pre.domains, other ≠ d → age before other < age before d

/-- **What a badge shows and counts** after a run. -/
structure Counts (start : Mode) (tr : List (Step BadgeSlot BadgeOp)) (badge : BadgeSlot) :
    Prop where
  /-- It shows what the mode taken over last and the count ask for. -/
  mode_eq : badge.mode = .fromModeAndCount (lastMode start (ops tr)) badge.blockCount
  /-- The count is the number of blocks since the last reset. -/
  count_eq : badge.blockCount = (sinceReset (ops tr)).length
  /-- No two rows are of one domain. -/
  nodup : badge.domains.Nodup
  /-- There are not too many rows. -/
  length_le : badge.rows.length ≤ maxRows
  /-- The rows count no more than was blocked. -/
  total_le : Tally.total badge.rows ≤ badge.blockCount
  /-- Where there are not too many domains, the rows are theirs and count all of it. -/
  total_eq : (sinceReset (ops tr)).toFinset.card ≤ maxRows →
    Tally.total badge.rows = badge.blockCount ∧
      badge.domains.toFinset = (sinceReset (ops tr)).toFinset
  /-- The rows stand in the order they came in. -/
  sorted : badge.domains.Pairwise fun d d' => age tr d' < age tr d

theorem ops_snoc : ops (tr ++ [⟨badge, op, badge'⟩]) = ops tr ++ [op] := by
  rw [ops, List.map_append]
  rfl

/-- A row that has just come in is new, and all others are a step older. -/
theorem age_snoc : age (tr ++ [⟨badge, op, badge'⟩]) d =
    if d ∉ badge.domains ∧ d ∈ badge'.domains then 0 else age tr d + 1 := by
  rw [age, List.reverse_append, List.reverse_singleton, List.singleton_append,
    List.findIdx_cons]
  have hnew : (!badge.domains.contains d && badge'.domains.contains d) =
      decide (d ∉ badge.domains ∧ d ∈ badge'.domains) := by
    rw [Bool.eq_iff_iff]
    simp
  simp only [hnew]
  by_cases h : d ∉ badge.domains ∧ d ∈ badge'.domains
  · simp [h]
  · simp only [h, decide_false, cond_false, if_false]
    rfl

theorem Counts.init : Counts start [] (new start) where
  mode_eq := rfl
  count_eq := rfl
  nodup := List.nodup_nil
  length_le := Nat.zero_le _
  total_le := Nat.le_refl _
  total_eq _ := ⟨rfl, rfl⟩
  sorted := .nil

/-- The order of the rows that stay is the order they were in. -/
theorem Counts.sorted_of_sublist (h : Counts start tr badge) {l : List Text}
    (hl : l.Sublist badge.domains) :
    l.Pairwise fun d d' =>
      age (tr ++ [⟨badge, op, badge'⟩]) d' < age (tr ++ [⟨badge, op, badge'⟩]) d := by
  have hold : ∀ d ∈ badge.domains,
      age (tr ++ [⟨badge, op, badge'⟩]) d = age tr d + 1 := by
    intro d hd
    rw [age_snoc, if_neg fun hnew => hnew.1 hd]
  refine List.Pairwise.imp_of_mem ?_ (h.sorted.sublist hl)
  intro d d' hd hd' hlt
  rw [hold d (hl.subset hd), hold d' (hl.subset hd')]
  exact Nat.succ_lt_succ hlt

/-- A blocked request keeps the order: its row is a new one at the end, if it has none yet. -/
theorem Counts.sorted_push (h : Counts start tr badge)
    (hrows : badge'.rows = Tally.push maxRows d badge.rows) :
    badge'.domains.Pairwise fun d d' =>
      age (tr ++ [⟨badge, op, badge'⟩]) d' < age (tr ++ [⟨badge, op, badge'⟩]) d := by
  have hdomains : badge'.domains = Tally.keys (Tally.push maxRows d badge.rows) :=
    congrArg Tally.keys hrows
  rcases Tally.keys_push_cases d h.length_le (by decide) with
    ⟨-, hsame⟩ | ⟨hd, gone, rest, hsplit, hsnoc, -⟩
  · rw [hdomains, hsame]
    exact h.sorted_of_sublist (List.Sublist.refl _)
  · rw [hsnoc] at hdomains
    have hrest : rest.Sublist badge.domains := by
      rw [domains, hsplit]
      exact List.sublist_append_right gone.toList rest
    have hzero : age (tr ++ [⟨badge, op, badge'⟩]) d = 0 := by
      rw [age_snoc, if_pos ⟨hd, by simp [hdomains]⟩]
    rw [hdomains, List.pairwise_append]
    refine ⟨h.sorted_of_sublist hrest, List.pairwise_singleton _ _, fun other hother e he => ?_⟩
    have hold : age (tr ++ [⟨badge, op, badge'⟩]) other = age tr other + 1 := by
      rw [age_snoc, if_neg fun hnew => hnew.1 (hrest.subset hother)]
    rw [List.mem_singleton.mp he, hzero, hold]
    exact Nat.succ_pos _

/-- **Where there are not too many domains, a blocked request costs no row.** -/
theorem Counts.total_push (h : Counts start tr badge)
    (hcard : (sinceReset (ops tr) ++ [d]).toFinset.card ≤ maxRows) :
    Tally.total (Tally.push maxRows d badge.rows) = badge.blockCount + 1 ∧
      (Tally.keys (Tally.push maxRows d badge.rows)).toFinset =
        (sinceReset (ops tr) ++ [d]).toFinset := by
  have hinsert : (sinceReset (ops tr) ++ [d]).toFinset =
      insert d (sinceReset (ops tr)).toFinset := by
    ext other
    simp
  rw [hinsert] at hcard ⊢
  obtain ⟨htotal, hsame⟩ :=
    h.total_eq ((Finset.card_le_card (Finset.subset_insert d _)).trans hcard)
  have hlen : badge.rows.length = (sinceReset (ops tr)).toFinset.card := by
    rw [← hsame, List.toFinset_card_of_nodup h.nodup, domains, Tally.length_keys]
  by_cases hd : d ∈ Tally.keys badge.rows
  · have hmem : d ∈ (sinceReset (ops tr)).toFinset := hsame ▸ List.mem_toFinset.mpr hd
    rw [Tally.push_of_mem hd h.length_le, Tally.total_bump, htotal, Tally.keys_bump, if_pos hd,
      Finset.insert_eq_of_mem hmem]
    exact ⟨rfl, hsame⟩
  · have hnew : d ∉ (sinceReset (ops tr)).toFinset := by
      rw [← hsame]
      exact fun hmem => hd (List.mem_toFinset.mp hmem)
    rw [Finset.card_insert_of_notMem hnew, ← hlen] at hcard
    have hroom : badge.rows.length ≠ maxRows := by omega
    have hbump : (Tally.bump d badge.rows).length ≤ maxRows := by
      rw [Tally.length_bump_of_notMem hd]
      exact hcard
    rw [Tally.total_push_of_le hbump, htotal, Tally.keys_push d h.length_le, if_neg hd,
      if_neg hroom]
    refine ⟨rfl, ?_⟩
    rw [← hsame]
    ext other
    simp [domains]

/-- **A step keeps what the badge shows and counts.** -/
theorem Counts.step (h : Counts start tr badge) (hstep : badge.step op = some badge') :
    Counts start (tr ++ [⟨badge, op, badge'⟩]) badge' := by
  have hrows := rows_step hstep
  have hcount := blockCount_step hstep
  have hsince : sinceReset (ops (tr ++ [⟨badge, op, badge'⟩])) =
      if op.isReset then [] else sinceReset (ops tr) ++ op.domain?.toList := by
    rw [ops_snoc, BadgeOp.sinceReset_snoc]
  have hmode : badge'.mode =
      .fromModeAndCount (lastMode start (ops (tr ++ [⟨badge, op, badge'⟩]))) badge'.blockCount := by
    rw [ops_snoc, BadgeOp.lastMode_snoc]
    exact mode_step hstep h.mode_eq
  cases hreset : op.isReset with
  | true =>
    rw [hreset, if_pos rfl] at hrows hcount hsince
    have hdomains : badge'.domains = [] := congrArg Tally.keys hrows
    refine ⟨hmode, ?_, ?_, ?_, ?_, fun _ => ?_, ?_⟩
    · rw [hcount, hsince]
      rfl
    · rw [hdomains]
      exact List.nodup_nil
    · rw [hrows]
      exact Nat.zero_le _
    · rw [hrows]
      exact Nat.zero_le _
    · rw [hrows, hdomains, hcount, hsince]
      exact ⟨rfl, rfl⟩
    · rw [hdomains]
      exact .nil
  | false =>
    rw [hreset, if_neg Bool.false_ne_true] at hrows hcount hsince
    cases hdomain : op.domain? with
    | none =>
      rw [hdomain] at hrows hcount hsince
      simp only [Option.toList_none, List.length_nil, Nat.add_zero, List.append_nil]
        at hrows hcount hsince
      have hdomains : badge'.domains = badge.domains := congrArg Tally.keys hrows
      refine ⟨hmode, ?_, ?_, ?_, ?_, ?_, ?_⟩
      · rw [hcount, hsince, h.count_eq]
      · rw [hdomains]
        exact h.nodup
      · rw [hrows]
        exact h.length_le
      · rw [hrows, hcount]
        exact h.total_le
      · rw [hsince, hrows, hcount, hdomains]
        exact h.total_eq
      · rw [hdomains]
        exact h.sorted_of_sublist (List.Sublist.refl _)
    | some d =>
      rw [hdomain] at hrows hcount hsince
      simp only [Option.toList_some, List.length_singleton] at hrows hcount hsince
      have hdomains : badge'.domains = Tally.keys (Tally.push maxRows d badge.rows) :=
        congrArg Tally.keys hrows
      refine ⟨hmode, ?_, ?_, ?_, ?_, ?_, h.sorted_push hrows⟩
      · rw [hcount, hsince, h.count_eq, List.length_append, List.length_singleton]
      · rw [hdomains]
        exact Tally.nodup_keys_push h.nodup h.length_le
      · rw [hrows]
        exact Tally.length_push_le h.length_le
      · rw [hrows, hcount]
        exact (Tally.total_push_le maxRows d badge.rows).trans (Nat.succ_le_succ h.total_le)
      · rw [hsince, hrows, hcount, hdomains]
        exact h.total_push

/-- What a badge shows and counts, after any run. -/
theorem Counts.of_run (h : Run (ofFun BadgeSlot.step) (new start) tr badge) :
    Counts start tr badge :=
  h.invariant (I := Counts start) .init fun _ _ _ _ _ hi hstep => hi.step hstep

/-- **A row that is gone was the oldest one**, where it was not a reset that took it. -/
theorem Counts.leaves (h : Counts start tr badge) (hstep : badge.step op = some badge')
    (hd : d ∈ badge.domains) (hgone : d ∉ badge'.domains) :
    op = .event .reset ∨ ∃ d', op = .event (.blockIncrement d') ∧ d' ∉ badge.domains ∧
      badge.rows.length = maxRows ∧
      ∀ other ∈ badge.domains, other ≠ d → age tr other < age tr d := by
  cases op with
  | syncMode m =>
    obtain rfl := Option.some.inj hstep
    exact absurd hd hgone
  | event ev =>
    obtain rfl := Option.some.inj hstep
    cases ev with
    | popoverToggled | popoverClosed => exact absurd hd hgone
    | reset => exact .inl rfl
    | blockIncrement d' =>
      refine .inr ⟨d', rfl, ?_⟩
      rw [domains, rows_blockIncrement] at hgone
      rcases Tally.keys_push_cases d' h.length_le (by decide) with
        ⟨-, hsame⟩ | ⟨hd', gone, rest, hsplit, hsnoc, hfull⟩
      · rw [hsame] at hgone
        exact absurd hd hgone
      · have hfirst : gone = some d := by
          rw [hsnoc] at hgone
          rw [domains, hsplit] at hd
          rcases List.mem_append.mp hd with hfirst | hrest
          · exact Option.mem_toList.mp hfirst
          · exact absurd (List.mem_append_left _ hrest) hgone
        subst hfirst
        have hdomains : badge.domains = d :: rest := hsplit
        have hsorted := h.sorted
        rw [hdomains] at hsorted ⊢
        refine ⟨hdomains ▸ hd', hfull (by simp), fun other hother hne => ?_⟩
        rcases List.mem_cons.mp hother with heq | hrest
        · exact absurd heq hne
        · exact (List.pairwise_cons.mp hsorted).1 other hrest

/-- **The badge shows and counts what it should, in every run**: it shows what the mode taken over
last and the count ask for, the count is that of the requests blocked since the page was
loaded, and no more rows than fit are kept, each domain in one, the oldest given up first. -/
theorem counts_of_run (h : Run (ofFun BadgeSlot.step) (new start) tr badge) :
    Counts start tr badge ∧ (badge.mode = .strict ↔ lastMode start (ops tr) = .strict) ∧
      LeavesInOrder tr := by
  have hcounts := Counts.of_run h
  refine ⟨hcounts, ?_, ?_⟩
  · rw [hcounts.mode_eq]
    cases lastMode start (ops tr) with
    | strict => exact iff_of_true rfl rfl
    | standard =>
      refine iff_of_false (fun hstrict => ?_) (by simp)
      rw [BadgeMode.fromModeAndCount] at hstrict
      split at hstrict <;> cases hstrict
  · rintro before ⟨pre, op, post⟩ after rfl d hd hgone
    obtain ⟨hbefore, hstep, -⟩ := h.cut
    exact (Counts.of_run hbefore).leaves hstep hd hgone

/-- A request is blocked, then the mode changes to Strict. -/
theorem counts_of_block_then_strict :
    let first := (new .standard).update (.blockIncrement "ads.example".toList)
    let tr := [⟨new .standard, .event (.blockIncrement "ads.example".toList), first⟩] ++
      [⟨first, .syncMode .strict, first.syncMode .strict⟩]
    Counts .standard tr (first.syncMode .strict) ∧
      ((first.syncMode .strict).mode = .strict ↔ lastMode .standard (ops tr) = .strict) ∧
      LeavesInOrder tr :=
  counts_of_run ((Run.nil.snoc rfl).snoc rfl)

end BadgeSlot

end Ui

end DevBrowse
