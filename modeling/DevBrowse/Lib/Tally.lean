import Mathlib.Algebra.BigOperators.Group.List.Basic
import Mathlib.Algebra.GroupWithZero.Nat
import Mathlib.Data.List.Basic
import Mathlib.Data.List.Nodup

/-!
# Tallies

A tally counts how often each key came, in a list of rows of a key and a count. A key that
comes again raises its row, a new key gets a row at the end; a tally of bounded size gives up
its first row where there are too many. No two rows are of one key, the counts sum up to what
came as long as no row was given up, and the keys stand in the order they came in
(`Tally.keys_push`).
-/

namespace Tally

variable {κ : Type*} [DecidableEq κ] {k : κ} {rows : List (κ × ℕ)} {cap : ℕ}

/-- The keys of the rows. -/
def keys (rows : List (κ × ℕ)) : List κ := rows.map Prod.fst

/-- The sum of the counts. -/
def total (rows : List (κ × ℕ)) : ℕ := (rows.map Prod.snd).sum

/-- One more of a key. -/
def bump (k : κ) : List (κ × ℕ) → List (κ × ℕ)
  | [] => [(k, 1)]
  | row :: rows => if row.1 = k then (row.1, row.2 + 1) :: rows else row :: bump k rows

/-- **One more of a key**, in a tally of so many rows. -/
def push (cap : ℕ) (k : κ) (rows : List (κ × ℕ)) : List (κ × ℕ) :=
  if cap < (bump k rows).length then (bump k rows).drop 1 else bump k rows

omit [DecidableEq κ] in
@[simp] theorem length_keys (rows : List (κ × ℕ)) : (keys rows).length = rows.length :=
  List.length_map _

omit [DecidableEq κ] in
theorem keys_drop (n : ℕ) (rows : List (κ × ℕ)) : keys (rows.drop n) = (keys rows).drop n :=
  List.map_drop

theorem keys_bump (k : κ) (rows : List (κ × ℕ)) :
    keys (bump k rows) = if k ∈ keys rows then keys rows else keys rows ++ [k] := by
  induction rows with
  | nil => simp [bump, keys]
  | cons row rows ih =>
    rw [bump]
    by_cases hrow : row.1 = k
    · simp [keys, hrow]
    · rw [if_neg hrow]
      have hcons : ∀ rows : List (κ × ℕ), keys (row :: rows) = row.1 :: keys rows :=
        fun _ => rfl
      rw [hcons, hcons, ih]
      by_cases hk : k ∈ keys rows
      · simp [hk]
      · simp [hk, Ne.symm hrow]

/-- **One more is counted.** -/
@[simp] theorem total_bump (k : κ) (rows : List (κ × ℕ)) :
    total (bump k rows) = total rows + 1 := by
  induction rows with
  | nil => rfl
  | cons row rows ih =>
    have hcons : ∀ (row : κ × ℕ) rows, total (row :: rows) = row.2 + total rows := by
      intro row rows
      rw [total, total, List.map_cons, List.sum_cons]
    rw [bump]
    split
    · rw [hcons, hcons]
      omega
    · rw [hcons, hcons, ih, Nat.add_assoc]

omit [DecidableEq κ] in
theorem total_drop_le (n : ℕ) (rows : List (κ × ℕ)) : total (rows.drop n) ≤ total rows := by
  have hsplit : total rows = total (rows.take n) + total (rows.drop n) := by
    rw [total, total, total, ← List.sum_append, ← List.map_append, List.take_append_drop]
  omega

theorem length_bump_of_mem (hk : k ∈ keys rows) : (bump k rows).length = rows.length := by
  rw [← length_keys, keys_bump, if_pos hk, length_keys]

theorem length_bump_of_notMem (hk : k ∉ keys rows) :
    (bump k rows).length = rows.length + 1 := by
  rw [← length_keys, keys_bump, if_neg hk, List.length_append, length_keys,
    List.length_singleton]

/-- A key that is there costs no row. -/
theorem push_of_mem (hk : k ∈ keys rows) (hlen : rows.length ≤ cap) :
    push cap k rows = bump k rows := by
  rw [push, length_bump_of_mem hk, if_neg (Nat.not_lt.mpr hlen)]

/-- **The keys after one more came**: they are the same, or the new one stands at the end, and
the first one is given up where there were as many as there may be. -/
theorem keys_push (k : κ) (hlen : rows.length ≤ cap) :
    keys (push cap k rows) =
      if k ∈ keys rows then keys rows
      else if rows.length = cap then (keys rows ++ [k]).drop 1
      else keys rows ++ [k] := by
  by_cases hk : k ∈ keys rows
  · rw [push_of_mem hk hlen, keys_bump]
    simp only [if_pos hk]
  · rw [push, length_bump_of_notMem hk, if_neg hk]
    by_cases hfull : rows.length = cap
    · rw [if_pos (by omega), if_pos hfull, keys_drop, keys_bump, if_neg hk]
    · rw [if_neg (by omega), if_neg hfull, keys_bump, if_neg hk]

theorem nodup_keys_push (h : (keys rows).Nodup) (hlen : rows.length ≤ cap) :
    (keys (push cap k rows)).Nodup := by
  rw [keys_push k hlen]
  by_cases hk : k ∈ keys rows
  · rw [if_pos hk]
    exact h
  · have hsnoc : (keys rows ++ [k]).Nodup :=
      (List.perm_append_singleton k _).nodup_iff.mpr (List.nodup_cons.mpr ⟨hk, h⟩)
    rw [if_neg hk]
    split
    · exact hsnoc.sublist (List.drop_sublist 1 _)
    · exact hsnoc

/-- There are never too many rows. -/
theorem length_push_le (hlen : rows.length ≤ cap) : (push cap k rows).length ≤ cap := by
  by_cases hk : k ∈ keys rows
  · rw [push_of_mem hk hlen, length_bump_of_mem hk]
    exact hlen
  · rw [push, length_bump_of_notMem hk]
    split
    · rw [List.length_drop, length_bump_of_notMem hk]
      omega
    · rw [length_bump_of_notMem hk]
      omega

theorem total_push_le (cap : ℕ) (k : κ) (rows : List (κ × ℕ)) :
    total (push cap k rows) ≤ total rows + 1 := by
  rw [push, ← total_bump k]
  split
  · exact total_drop_le 1 _
  · exact Nat.le_refl _

/-- Where no row is given up, the sum goes up by one. -/
theorem total_push_of_le (h : (bump k rows).length ≤ cap) :
    total (push cap k rows) = total rows + 1 := by
  rw [push, if_neg (Nat.not_lt.mpr h), total_bump]

/-- **What becomes of the keys**: they stay, or the new one comes to the end, and the one in front
is given up where there were as many as there may be. -/
theorem keys_push_cases (k : κ) (hlen : rows.length ≤ cap) (hcap : 0 < cap) :
    (k ∈ keys rows ∧ keys (push cap k rows) = keys rows) ∨
      (k ∉ keys rows ∧ ∃ (gone : Option κ) (rest : List κ), keys rows = gone.toList ++ rest ∧
        keys (push cap k rows) = rest ++ [k] ∧ (gone ≠ none → rows.length = cap)) := by
  rw [keys_push k hlen]
  by_cases hk : k ∈ keys rows
  · exact .inl ⟨hk, if_pos hk⟩
  · rw [if_neg hk]
    refine .inr ⟨hk, ?_⟩
    by_cases hfull : rows.length = cap
    · rw [if_pos hfull]
      cases hkeys : keys rows with
      | nil =>
        have hzero : rows.length = 0 := by rw [← length_keys, hkeys, List.length_nil]
        omega
      | cons first rest => exact ⟨some first, rest, rfl, rfl, fun _ => hfull⟩
    · rw [if_neg hfull]
      exact ⟨none, keys rows, rfl, rfl, fun h => absurd rfl h⟩

end Tally
