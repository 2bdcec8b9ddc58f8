import Mathlib.Data.List.Basic
import Mathlib.Data.List.Induction
import Mathlib.Data.List.Pairwise

/-!
# Lists in sections

A list is put into sections from front to back: an element goes into the last section if that has
its key, and begins a new one otherwise. Put together again the sections are the list, and the
key of a section is that of its elements (`Sections.cut_spec`). A key may come back in a later
section, unless the list is sorted by what the keys stand for (`Sections.pairwise_cut`).
-/

namespace Sections

variable {α β : Type*} [DecidableEq β] {key : α → β} {k : β} {a : α} {l : List α}
  {groups : List (β × List α)}

/-- One more element: in the last section, if that has its key, or else in one of its own. -/
def push (groups : List (β × List α)) (k : β) (a : α) : List (β × List α) :=
  match groups.getLast? with
  | some last =>
    if last.1 = k then groups.dropLast ++ [(last.1, last.2 ++ [a])] else groups ++ [(k, [a])]
  | none => groups ++ [(k, [a])]

/-- **The list in sections** by a key. -/
def cut (key : α → β) (l : List α) : List (β × List α) :=
  l.foldl (fun groups a => push groups (key a) a) []

theorem cut_snoc : cut key (l ++ [a]) = push (cut key l) (key a) a := by
  rw [cut, List.foldl_append]
  rfl

/-- An element goes into the last section, or into a new one after a last one of another key. -/
theorem push_cases (groups : List (β × List α)) (k : β) (a : α) :
    (∃ init as, groups = init ++ [(k, as)] ∧ push groups k a = init ++ [(k, as ++ [a])]) ∨
      push groups k a = groups ++ [(k, [a])] ∧
        ∀ init last, groups = init ++ [last] → last.1 ≠ k := by
  rcases List.eq_nil_or_concat groups with rfl | ⟨init, last, rfl⟩
  · refine .inr ⟨rfl, fun init last h => ?_⟩
    exact absurd h.symm (by simp)
  · rw [List.concat_eq_append]
    have hpush : push (init ++ [last]) k a =
        if last.1 = k then init ++ [(last.1, last.2 ++ [a])]
        else init ++ [last] ++ [(k, [a])] := by
      rw [push, List.getLast?_concat]
      simp only [List.dropLast_concat]
    by_cases hlast : last.1 = k
    · subst hlast
      exact .inl ⟨init, last.2, rfl, by rw [hpush, if_pos rfl]⟩
    · refine .inr ⟨by rw [hpush, if_neg hlast], fun init' last' h => ?_⟩
      obtain ⟨-, hsame⟩ := List.append_inj' h rfl
      rw [← List.singleton_inj.mp hsame]
      exact hlast

/-- What sections of a list are to be. -/
structure Cut (key : α → β) (l : List α) (groups : List (β × List α)) : Prop where
  /-- Put together they are the list. -/
  flatMap_eq : groups.flatMap Prod.snd = l
  /-- The key of a section is that of its elements. -/
  key_eq : ∀ g ∈ groups, ∀ a ∈ g.2, key a = g.1
  /-- No section is empty. -/
  ne_nil : ∀ g ∈ groups, g.2 ≠ []

omit [DecidableEq β] in
/-- The elements of a section are elements of the list. -/
theorem Cut.mem (h : Cut key l groups) {g : β × List α} (hg : g ∈ groups) (ha : a ∈ g.2) :
    a ∈ l := by
  rw [← h.flatMap_eq]
  exact List.mem_flatMap.mpr ⟨g, hg, ha⟩

theorem Cut.push (h : Cut key l groups) (a : α) :
    Cut key (l ++ [a]) (push groups (key a) a) := by
  rcases push_cases groups (key a) a with ⟨init, as, rfl, hpush⟩ | ⟨hpush, -⟩
  · rw [hpush]
    refine ⟨?_, fun g hg b hb => ?_, fun g hg => ?_⟩
    · rw [← h.flatMap_eq]
      simp
    · rcases List.mem_append.mp hg with hg | hg
      · exact h.key_eq g (List.mem_append_left _ hg) b hb
      · obtain rfl := List.mem_singleton.mp hg
        rcases List.mem_append.mp hb with hb | hb
        · exact h.key_eq (key a, as) (by simp) b hb
        · rw [List.mem_singleton.mp hb]
    · rcases List.mem_append.mp hg with hg | hg
      · exact h.ne_nil g (List.mem_append_left _ hg)
      · obtain rfl := List.mem_singleton.mp hg
        simp
  · rw [hpush]
    refine ⟨?_, fun g hg b hb => ?_, fun g hg => ?_⟩
    · rw [← h.flatMap_eq]
      simp
    · rcases List.mem_append.mp hg with hg | hg
      · exact h.key_eq g hg b hb
      · obtain rfl := List.mem_singleton.mp hg
        rw [List.mem_singleton.mp hb]
    · rcases List.mem_append.mp hg with hg | hg
      · exact h.ne_nil g hg
      · obtain rfl := List.mem_singleton.mp hg
        simp

/-- **The sections of a list** are what they are to be. -/
theorem cut_spec (key : α → β) (l : List α) : Cut key l (cut key l) := by
  induction l using List.reverseRecOn with
  | nil => exact ⟨rfl, by simp [cut], by simp [cut]⟩
  | append_singleton l a ih =>
    rw [cut_snoc]
    exact ih.push a

/-- **In a sorted list no key comes back**: the sections are strictly sorted, where two keys that
stand for the same rank are the same. -/
theorem pairwise_cut {rank : β → ℕ}
    (hinj : ∀ a ∈ l, ∀ a' ∈ l, rank (key a) = rank (key a') → key a = key a')
    (hsorted : l.Pairwise fun a a' => rank (key a) ≤ rank (key a')) :
    (cut key l).Pairwise fun g g' => rank g.1 < rank g'.1 := by
  induction l using List.reverseRecOn with
  | nil => exact .nil
  | append_singleton l a ih =>
    obtain ⟨hl, -, hle⟩ := List.pairwise_append.mp hsorted
    have hpast := ih (fun b hb b' hb' => hinj b (by simp [hb]) b' (by simp [hb'])) hl
    have hcut := cut_spec key l
    rw [cut_snoc]
    rcases push_cases (cut key l) (key a) a with ⟨init, as, hsplit, hpush⟩ | ⟨hpush, hnew⟩
    · rw [hsplit] at hpast
      rw [hpush]
      obtain ⟨hinit, -, hlt⟩ := List.pairwise_append.mp hpast
      refine List.pairwise_append.mpr ⟨hinit, List.pairwise_singleton _ _, ?_⟩
      intro g hg g' hg'
      rw [List.mem_singleton.mp hg']
      exact hlt g hg (key a, as) (by simp)
    · rw [hpush]
      refine List.pairwise_append.mpr ⟨hpast, List.pairwise_singleton _ _, ?_⟩
      intro g hg g' hg'
      rw [List.mem_singleton.mp hg']
      rcases List.eq_nil_or_concat (cut key l) with hnil | ⟨init, last, hsplit⟩
      · simp [hnil] at hg
      · rw [List.concat_eq_append] at hsplit
        -- the last section is before the new one, and all others are before the last
        have hlast : rank last.1 < rank (key a) := by
          have hmem : last ∈ cut key l := by simp [hsplit]
          obtain ⟨b, hb⟩ := List.exists_mem_of_ne_nil _ (hcut.ne_nil last hmem)
          have hbl : b ∈ l := hcut.mem hmem hb
          rw [← hcut.key_eq last hmem b hb]
          refine Nat.lt_of_le_of_ne (hle b hbl a (by simp)) fun heq => ?_
          refine hnew init last hsplit ?_
          rw [← hcut.key_eq last hmem b hb]
          exact hinj b (by simp [hbl]) a (by simp) heq
        rw [hsplit] at hpast hg
        obtain ⟨-, -, hlt⟩ := List.pairwise_append.mp hpast
        rcases List.mem_append.mp hg with hg | hg
        · exact Nat.lt_trans (hlt g hg last (by simp)) hlast
        · rw [List.mem_singleton.mp hg]
          exact hlast

end Sections
