import DevBrowse.Blocklist.Rule
import DevBrowse.Lib.Trie
import Mathlib.Data.List.Induction

/-!
# The blocklist tree

The hostnames of the rules are kept in a trie of their labels from the right, with the
kind and the scope of the rule at the node its hostname ends at. There is one such slot
for each hostname, and a rule that comes later takes it
(`DevBrowse.Blocklist.RadixTree.get_fromRules`).

A lookup walks down the labels of a host and keeps the last slot it passes that applies:
the slot of an inclusive rule, or any slot at the host itself
(`DevBrowse.Blocklist.RadixTree.matchHost_eq`).
-/

namespace DevBrowse

namespace Blocklist

/-- What ends at a node: the kind and the scope of a rule. -/
structure Terminal where
  /-- The kind. -/
  kind : BlockKind
  /-- Whether subdomains match as well. -/
  appliesToSubdomains : Bool
  deriving DecidableEq

/-- A node of the tree. -/
abbrev Node := Trie Text Terminal

/-- **The blocklist tree.** -/
structure RadixTree where
  /-- The node every hostname starts from. -/
  root : Node

/-- The labels of a hostname from the right, without the empty ones that leading,
trailing and consecutive dots leave. -/
def labels (hostname : Text) : List Text :=
  (hostname.splitOn '.').reverse.filter fun label => !label.isEmpty

namespace RadixTree

/-- The terminal of a rule. -/
def terminalOf (rule : Rule) : Terminal := ⟨rule.kind, rule.appliesToSubdomains⟩

/-- What becomes of the terminal of a node when a rule is inserted there. -/
def replaceTerminal (newTerm : Terminal) : Option Terminal → Option Terminal
  | none => some newTerm
  | some existing =>
    if existing.appliesToSubdomains && !newTerm.appliesToSubdomains then some newTerm
    -- not the old terminal either: the later rule takes the slot in every case
    else some newTerm

/-- Insert a rule. One without labels is ignored. -/
def insert (root : Node) (rule : Rule) : Node :=
  if labels rule.hostname = [] then root
  else root.alter (replaceTerminal (terminalOf rule)) (labels rule.hostname)

/-- The tree without rules. -/
def empty : RadixTree := ⟨.empty⟩

/-- The tree of a list of rules. -/
def fromRules (rules : List Rule) : RadixTree := ⟨rules.foldl insert .empty⟩

/-- The walk down the labels of a host, with the best match so far. -/
def matchLoop (node : Node) (best : Option BlockKind) : List Text → Option BlockKind
  | [] => best
  | label :: rest =>
    match node.child label with
    | none => best
    | some child =>
      let best :=
        match child.terminal with
        | some t => if t.appliesToSubdomains || rest.isEmpty then some t.kind else best
        | none => best
      matchLoop child best rest

/-- The walk over a host in lower case. -/
def matchHostInternal (tree : RadixTree) (hostLower : Text) : Option BlockKind :=
  if labels hostLower = [] then none else matchLoop tree.root none (labels hostLower)

/-- The kind of the rule that blocks a host, if any. -/
def matchHost (tree : RadixTree) (host : Text) : Option BlockKind :=
  tree.matchHostInternal host.toAsciiLowercase

variable {rules : List Rule} {rule : Rule} {path p : List Text} {best : Option BlockKind}

/-! ### What is in the tree -/

theorem insert_eq (root : Node) (rule : Rule) : insert root rule =
    if labels rule.hostname = [] then root
    else root.alter (fun _ => some (terminalOf rule)) (labels rule.hostname) := by
  have hreplace : replaceTerminal (terminalOf rule) = fun _ => some (terminalOf rule) := by
    funext terminal
    cases terminal with
    | none => rfl
    | some existing =>
      rw [replaceTerminal]
      split <;> rfl
  rw [insert, hreplace]

/-- The last rule of the list for the hostname with these labels. -/
def lastFor (rules : List Rule) (path : List Text) : Option Rule :=
  rules.reverse.find? fun rule => labels rule.hostname = path

theorem lastFor_concat (rules : List Rule) (rule : Rule) (path : List Text) :
    lastFor (rules ++ [rule]) path =
      if labels rule.hostname = path then some rule else lastFor rules path := by
  rw [lastFor, List.reverse_append, List.reverse_singleton, List.singleton_append, List.find?_cons]
  by_cases h : labels rule.hostname = path <;> simp [h, lastFor]

/-- **The slot of a hostname holds the last rule for it.** -/
theorem get_fromRules (hpath : path ≠ []) :
    (fromRules rules).root.get path = (lastFor rules path).map terminalOf := by
  induction rules using List.reverseRecOn with
  | nil => simp [fromRules, lastFor]
  | append_singleton rules rule ih =>
    have hfold : (fromRules (rules ++ [rule])).root = insert (fromRules rules).root rule := by
      simp [fromRules]
    rw [hfold, insert_eq, lastFor_concat]
    by_cases hnil : labels rule.hostname = []
    · rw [if_pos hnil, ih, if_neg (by rw [hnil]; exact Ne.symm hpath)]
    · rw [if_neg hnil, Trie.get_alter]
      by_cases heq : path = labels rule.hostname
      · rw [if_pos heq, if_pos heq.symm]
        rfl
      · rw [if_neg heq, if_neg (Ne.symm heq), ih]

/-! ### What a lookup returns -/

/-- The kind a slot stands for at a host, for the part `p` of the host's labels. -/
def hit (path p : List Text) (terminal : Option Terminal) : Option BlockKind :=
  terminal.bind fun t => if t.appliesToSubdomains || p = path then some t.kind else none

/-- **The walk returns the deepest slot that applies**, or what it started with. -/
theorem matchLoop_eq (node : Node) (best : Option BlockKind) (path : List Text) :
    matchLoop node best path = (Trie.deepest (fun p => hit path p (node.get p)) path).or best := by
  induction path generalizing node best with
  | nil => rfl
  | cons label rest ih =>
    rw [matchLoop, Trie.deepest]
    cases hchild : node.child label with
    | none =>
      -- the walk ends here, and there is nothing below to be deeper
      have hnone : ∀ p, hit (label :: rest) (label :: p) (node.get (label :: p)) = none := by
        intro p
        rw [Trie.get, hchild]
        rfl
      have hdeep : Trie.deepest (fun p => hit (label :: rest) (label :: p) (node.get (label :: p)))
          rest = none := Trie.deepest_eq_none_iff.mpr fun p _ _ => hnone p
      rw [hdeep, hnone]
      rfl
    | some child =>
      have hget : ∀ p, hit (label :: rest) (label :: p) (node.get (label :: p)) =
          hit rest p (child.get p) := by
        intro p
        rw [Trie.get, hchild]
        simp [hit]
      have htop : (match child.terminal with
          | some t => if t.appliesToSubdomains || rest.isEmpty then some t.kind else best
          | none => best) = (hit rest [] (child.get [])).or best := by
        rw [Trie.get]
        cases child.terminal with
        | none => rfl
        | some t =>
          cases rest with
          | nil => simp [hit]
          | cons label' rest =>
            simp only [hit, Option.bind_some, List.isEmpty_cons, Bool.or_false]
            split <;> simp_all
      simp only [hget]
      rw [htop, ih, Option.or_assoc]

/-- **What a lookup returns**: the kind of the deepest slot of the tree on the way to the
host that applies to it. -/
theorem matchHost_eq (tree : RadixTree) (host : Text) :
    tree.matchHost host = Trie.deepest (fun p => hit (labels host.toAsciiLowercase) p
      (tree.root.get p)) (labels host.toAsciiLowercase) := by
  rw [matchHost, matchHostInternal]
  split
  · rename_i hnil
    rw [hnil]
    rfl
  · rw [matchLoop_eq, Option.or_none]

end RadixTree

end Blocklist

end DevBrowse
