import Mathlib.Data.List.Basic

/-!
# Tries, and the longest prefix with a value

A trie maps paths to values, one node for each prefix of a path that was written to. All
that is ever read off a trie is the value at a path (`Trie.get`), so the node structure is
dealt with once, in `Trie.get_alter`.

`Trie.deepest` is what a lookup along a path asks for: of the values a partial function
has at the non-empty prefixes of the path, the one at the longest.
-/

/-- A trie over the labels `κ` with values in `τ`. -/
inductive Trie (κ τ : Type*) where
  /-- A node, with its children by label and the value that ends at it. -/
  | node (children : List (κ × Trie κ τ)) (terminal : Option τ)

namespace Trie

variable {κ τ β : Type*}

/-- The children of a node, by label. -/
def children : Trie κ τ → List (κ × Trie κ τ)
  | .node children _ => children

/-- The value that ends at a node. -/
def terminal : Trie κ τ → Option τ
  | .node _ terminal => terminal

/-- The trie without values. -/
def empty : Trie κ τ := .node [] none

section Paths

variable [DecidableEq κ]

/-- The child of a node under a label. -/
def child (t : Trie κ τ) (k : κ) : Option (Trie κ τ) := t.children.lookup k

/-- The value at a path. -/
def get : List κ → Trie κ τ → Option τ
  | [], t => t.terminal
  | k :: path, t => (t.child k).bind (get path)

/-- Change the value at a path, with the nodes on the way created where there are none. -/
def alter (f : Option τ → Option τ) : List κ → Trie κ τ → Trie κ τ
  | [], t => .node t.children (f t.terminal)
  | k :: path, t =>
    .node ((k, alter f path ((t.child k).getD empty)) :: t.children.filter fun c => c.1 ≠ k)
      t.terminal

@[simp] theorem get_empty (path : List κ) : get path (empty : Trie κ τ) = none := by
  cases path <;> rfl

theorem lookup_filter_ne (k k' : κ) (h : k' ≠ k) (children : List (κ × Trie κ τ)) :
    (children.filter fun c => c.1 ≠ k).lookup k' = children.lookup k' := by
  induction children with
  | nil => rfl
  | cons c children ih =>
    obtain ⟨a, t⟩ := c
    by_cases ha : a = k
    · have hne : (k' == a) = false := by simp [ha, h]
      rw [List.filter_cons_of_neg (by simp [ha]), ih, List.lookup_cons, hne]
    · rw [List.filter_cons_of_pos (by simp [ha]), List.lookup_cons, List.lookup_cons, ih]

/-- **Reading back a change.** -/
theorem get_alter (f : Option τ → Option τ) (path path' : List κ) (t : Trie κ τ) :
    get path' (alter f path t) = if path' = path then f (get path t) else get path' t := by
  induction path generalizing path' t with
  | nil =>
    cases path' with
    | nil => rfl
    | cons k path' => rfl
  | cons k path ih =>
    cases path' with
    | nil => rfl
    | cons k' path' =>
      by_cases hk : k' = k
      · subst hk
        have hget : get path ((t.child k').getD empty) = get (k' :: path) t := by
          rw [get]
          cases t.child k' <;> simp
        have hget' : get path' ((t.child k').getD empty) = get (k' :: path') t := by
          rw [get]
          cases t.child k' <;> simp
        simp only [alter, get, child, children, List.lookup_cons, beq_self_eq_true,
          Option.bind_some] at ih hget hget' ⊢
        rw [ih, hget, hget']
        simp
      · have hne : (k' == k) = false := by simp [hk]
        simp only [alter, get, child, children, List.lookup_cons, hne]
        rw [lookup_filter_ne k k' hk, if_neg (by simp [hk])]

end Paths

/-! ### The longest prefix with a value -/

/-- The value of `f` at the longest non-empty prefix of the path where it has one. -/
def deepest (f : List κ → Option β) : List κ → Option β
  | [] => none
  | k :: path => (deepest (fun p => f (k :: p)) path).or (f [k])

theorem deepest_eq_none_iff {f : List κ → Option β} {path : List κ} :
    deepest f path = none ↔ ∀ p, p ≠ [] → p <+: path → f p = none := by
  induction path generalizing f with
  | nil => exact iff_of_true rfl fun p hp hpre => absurd (List.prefix_nil.mp hpre) hp
  | cons k path ih =>
    rw [deepest, Option.or_eq_none_iff, ih]
    constructor
    · rintro ⟨hdeep, htop⟩ p hp hpre
      cases p with
      | nil => exact absurd rfl hp
      | cons a p =>
        obtain ⟨rfl, htail⟩ := List.cons_prefix_cons.mp hpre
        by_cases hnil : p = []
        · exact hnil ▸ htop
        · exact hdeep p hnil htail
    · intro h
      exact ⟨fun p _ hpre => h (k :: p) (by simp) (List.cons_prefix_cons.mpr ⟨rfl, hpre⟩),
        h [k] (by simp) (by simp)⟩

/-- **The longest prefix wins.** -/
theorem deepest_eq_some_iff {f : List κ → Option β} {path : List κ} {b : β} :
    deepest f path = some b ↔ ∃ p, p ≠ [] ∧ p <+: path ∧ f p = some b ∧
      ∀ q, q <+: path → p.length < q.length → f q = none := by
  induction path generalizing f with
  | nil =>
    refine iff_of_false (by simp [deepest]) ?_
    rintro ⟨p, hp, hpre, -⟩
    exact hp (List.prefix_nil.mp hpre)
  | cons k path ih =>
    rw [deepest, Option.or_eq_some_iff, ih, deepest_eq_none_iff]
    constructor
    · rintro (⟨p, hp, hpre, hfp, hlong⟩ | ⟨hnone, hfk⟩)
      · refine ⟨k :: p, by simp, List.cons_prefix_cons.mpr ⟨rfl, hpre⟩, hfp, fun q hq hlen => ?_⟩
        cases q with
        | nil => simp at hlen
        | cons a q =>
          obtain ⟨rfl, htail⟩ := List.cons_prefix_cons.mp hq
          exact hlong q htail (by simpa using hlen)
      · refine ⟨[k], by simp, by simp, hfk, fun q hq hlen => ?_⟩
        cases q with
        | nil => simp at hlen
        | cons a q =>
          obtain ⟨rfl, htail⟩ := List.cons_prefix_cons.mp hq
          have hne : q ≠ [] := by
            rintro rfl
            simp at hlen
          exact hnone q hne htail
    · rintro ⟨p, hp, hpre, hfp, hlong⟩
      cases p with
      | nil => exact absurd rfl hp
      | cons a p =>
        obtain ⟨rfl, htail⟩ := List.cons_prefix_cons.mp hpre
        by_cases hnil : p = []
        · subst hnil
          refine Or.inr ⟨fun q hq hqpre => ?_, hfp⟩
          have hpos := List.length_pos_of_ne_nil hq
          exact hlong (a :: q) (List.cons_prefix_cons.mpr ⟨rfl, hqpre⟩) (by simpa using hpos)
        · refine Or.inl ⟨p, hnil, htail, hfp, fun q hq hlen => ?_⟩
          exact hlong (a :: q) (List.cons_prefix_cons.mpr ⟨rfl, hq⟩) (by simpa using hlen)

end Trie
