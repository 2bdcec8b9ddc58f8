import Mathlib.Data.List.Dedup
import Mathlib.Algebra.BigOperators.Group.List.Basic
import Mathlib.Algebra.GroupWithZero.Nat

/-!
# Recency lists under a budget

A cache with eviction of the least recently used entry is, abstractly, a list of keys
with sizes, the least recently used in front. Making room for a new entry drops the
shortest prefix after which it fits (`Lru.fit`, `Lru.exists_fit_eq_drop`), using an entry
moves it to the back (`Lru.touch`), and releasing one takes it out (`Lru.remove`). Where every
entry counts the same the list is one of keys, and using a key is all there is
(`Lru.access`), and there are no more keys than the cap (`Lru.length_access_le`).

The order the operations maintain is the order of last use, which is what `List.dedup`
computes from the list of all uses: it keeps an element where it occurs last, and one
more use moves the element to the end (`Lru.dedup_concat`).
-/

namespace Lru

variable {κ : Type*}

/-- The total size of the entries. -/
def weight (c : List (κ × ℕ)) : ℕ := (c.map Prod.snd).sum

@[simp] theorem weight_nil : weight ([] : List (κ × ℕ)) = 0 := rfl

@[simp] theorem weight_cons (e : κ × ℕ) (c : List (κ × ℕ)) : weight (e :: c) = e.2 + weight c := by
  simp [weight]

@[simp] theorem weight_append (c d : List (κ × ℕ)) : weight (c ++ d) = weight c + weight d := by
  simp [weight]

theorem weight_take_add_drop (n : ℕ) (c : List (κ × ℕ)) :
    weight (c.take n) + weight (c.drop n) = weight c := by
  rw [← weight_append, List.take_append_drop]

/-! ### Making room -/

/-- Drop entries from the front until an entry of the given size fits under the cap. -/
def fit (cap size : ℕ) : List (κ × ℕ) → List (κ × ℕ)
  | [] => []
  | e :: c => if cap < weight (e :: c) + size then fit cap size c else e :: c

variable {cap size : ℕ} {c : List (κ × ℕ)}

/-- **Room is made by dropping the shortest prefix that suffices.** -/
theorem exists_fit_eq_drop (h : size ≤ cap) :
    ∃ n, fit cap size c = c.drop n ∧ weight (c.drop n) + size ≤ cap ∧
      ∀ m < n, cap < weight (c.drop m) + size := by
  induction c with
  | nil => exact ⟨0, rfl, by simpa using h, by simp⟩
  | cons e c ih =>
    rw [fit]
    split
    · rename_i hover
      obtain ⟨n, heq, hle, hlt⟩ := ih
      refine ⟨n + 1, heq, hle, fun m hm => ?_⟩
      cases m with
      | zero => exact hover
      | succ m => exact hlt m (by omega)
    · rename_i hfits
      exact ⟨0, rfl, Nat.le_of_not_lt hfits, by simp⟩

/-! ### Using and releasing an entry -/

section DecidableEq

variable [DecidableEq κ]

/-- Take the entry of a key out. -/
def remove (k : κ) (c : List (κ × ℕ)) : List (κ × ℕ) := c.filter fun e => e.1 ≠ k

/-- Move the entry of a key to the back. -/
def touch (k : κ) (c : List (κ × ℕ)) : List (κ × ℕ) :=
  remove k c ++ c.filter fun e => e.1 = k

/-! ### Keys that all count the same -/

/-- Use a key: it moves to the back, and comes in there if it is new, for the one in front if
there is no room. -/
def access (cap : ℕ) (k : κ) (keys : List κ) : List κ :=
  if k ∈ keys then keys.erase k ++ [k]
  else if cap ≤ keys.length then keys.tail ++ [k]
  else keys ++ [k]

section Access

variable {keys : List κ} {k : κ}

/-- **There are no more keys than the cap.** -/
theorem length_access_le (hcap : 0 < cap) (h : keys.length ≤ cap) :
    (access cap k keys).length ≤ cap := by
  rw [access]
  split
  · rename_i hk
    have hpos := List.length_pos_of_mem hk
    rw [List.length_append, List.length_erase_of_mem hk, List.length_singleton]
    omega
  · split
    · rw [List.length_append, List.length_tail, List.length_singleton]
      omega
    · rw [List.length_append, List.length_singleton]
      omega

end Access

/-! ### The order of last use -/

variable {uses keys : List κ} {k : κ}

/-- **One more use moves an element to the end** of the order of last use. -/
theorem dedup_concat (uses : List κ) (k : κ) :
    (uses ++ [k]).dedup = (uses.dedup.filter fun x => x ≠ k) ++ [k] := by
  induction uses with
  | nil => simp
  | cons a uses ih =>
    rw [List.cons_append]
    by_cases hmem : a ∈ uses
    · rw [List.dedup_cons_of_mem hmem, List.dedup_cons_of_mem (List.mem_append_left _ hmem), ih]
    · by_cases hak : a = k
      · have hin : a ∈ uses ++ [k] := by simp [hak]
        rw [List.dedup_cons_of_mem hin, List.dedup_cons_of_notMem hmem, ih]
        simp [hak]
      · have hout : a ∉ uses ++ [k] := by simp [hmem, hak]
        rw [List.dedup_cons_of_notMem hout, List.dedup_cons_of_notMem hmem, ih]
        simp [hak]

/-- A list of keys in the order of last use stays so when a key is used and moved to the
end. -/
theorem sublist_dedup_use (h : keys.Sublist uses.dedup) :
    ((keys.filter fun x => x ≠ k) ++ [k]).Sublist (uses ++ [k]).dedup := by
  rw [dedup_concat]
  exact (h.filter _).append (List.Sublist.refl _)

end DecidableEq

end Lru
