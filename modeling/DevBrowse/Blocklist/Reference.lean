import DevBrowse.Blocklist.RadixTree

/-!
# What a blocklist means

A rule applies to the host it names, and if it is inclusive to every subdomain. Among the
rules that apply, the one with the most labels wins; for the hostname that is the host
itself an exact rule wins over an inclusive one; and a later rule wins over an earlier one
of the same hostname and scope (`DevBrowse.Blocklist.RadixTree.Wins`).

The tree keeps one slot for each hostname, and the last rule for the hostname takes it
whatever its scope. So the tree returns the deepest of the rules that apply *and* are the
last for their hostname (`DevBrowse.Blocklist.RadixTree.matchHost_eq_some_iff`), and where
an exact rule took the slot of an inclusive one, the subdomains are no longer blocked
(`DevBrowse.Blocklist.RadixTree.not_meetsSpec_overwritten`).
-/

namespace DevBrowse

namespace Blocklist

namespace RadixTree

variable {rules before after : List Rule} {r w w' : Rule} {host : Text} {path p : List Text}

/-- The labels of a hostname in any case. -/
def hostLabels (hostname : Text) : List Text := labels hostname.toAsciiLowercase

theorem hostLabels_hostname (r : Rule) : hostLabels r.hostname = labels r.hostname := by
  rw [hostLabels, r.lowercase]

/-- The rule applies to the host. -/
def Applies (r : Rule) (host : Text) : Prop :=
  hostLabels r.hostname ≠ [] ∧
    if r.appliesToSubdomains then hostLabels r.hostname <+: hostLabels host
    else hostLabels r.hostname = hostLabels host

instance : Decidable (Applies r host) := inferInstanceAs (Decidable (_ ∧ ite _ _ _))

/-- How specific a rule is: by its number of labels, and exact before inclusive. -/
def rank (r : Rule) : ℕ :=
  2 * (hostLabels r.hostname).length + if r.appliesToSubdomains then 0 else 1

/-- **The rule that wins at a host**: it applies, no rule that applies is more specific, and
none that comes later is as specific. -/
def Wins (rules : List Rule) (host : Text) (w : Rule) : Prop :=
  ∃ before after, rules = before ++ w :: after ∧ Applies w host ∧
    (∀ r ∈ before, Applies r host → rank r ≤ rank w) ∧
      ∀ r ∈ after, Applies r host → rank r < rank w

/-- **The tree means what the rules mean** at a host. -/
structure MeetsSpec (rules : List Rule) (host : Text) : Prop where
  /-- It matches exactly where some rule applies. -/
  isSome_iff : ((fromRules rules).matchHost host).isSome = true ↔ ∃ r ∈ rules, Applies r host
  /-- It returns the kind of the rule that wins. -/
  kind_eq : ∀ w, Wins rules host w → (fromRules rules).matchHost host = some w.kind

theorem Applies.prefix (h : Applies r host) : hostLabels r.hostname <+: hostLabels host := by
  have hscope := h.2
  split at hscope
  · exact hscope
  · exact hscope ▸ List.prefix_rfl

theorem Wins.applies (h : Wins rules host w) : w ∈ rules ∧ Applies w host := by
  obtain ⟨before, after, rfl, happ, -⟩ := h
  exact ⟨by simp, happ⟩

theorem Wins.rank_le (h : Wins rules host w) (hr : r ∈ rules) (happ : Applies r host) :
    rank r ≤ rank w := by
  obtain ⟨before, after, rfl, -, hbefore, hafter⟩ := h
  rcases List.mem_append.mp hr with hmem | hmem
  · exact hbefore r hmem happ
  · rcases List.mem_cons.mp hmem with rfl | hmem
    · exact Nat.le_refl _
    · exact Nat.le_of_lt (hafter r hmem happ)

/-- Where a rule applies, one wins. -/
theorem exists_wins (h : ∃ r ∈ rules, Applies r host) : ∃ w, Wins rules host w := by
  induction rules using List.reverseRecOn with
  | nil => simp at h
  | append_singleton rules r ih =>
    by_cases hpast : ∃ r ∈ rules, Applies r host
    · obtain ⟨w, hw⟩ := ih hpast
      by_cases hlast : Applies r host ∧ rank w ≤ rank r
      · exact ⟨r, rules, [], rfl, hlast.1, fun r' hr' happ =>
          Nat.le_trans (hw.rank_le hr' happ) hlast.2, by simp⟩
      · obtain ⟨before, after, rfl, happ, hbefore, hafter⟩ := hw
        refine ⟨w, before, after ++ [r], by simp, happ, hbefore, fun r' hr' happ' => ?_⟩
        rcases List.mem_append.mp hr' with hmem | hmem
        · exact hafter r' hmem happ'
        · obtain rfl := List.mem_singleton.mp hmem
          by_contra hnot
          exact hlast ⟨happ', by omega⟩
    · obtain ⟨r', hr', happ⟩ := h
      rcases List.mem_append.mp hr' with hmem | hmem
      · exact absurd ⟨r', hmem, happ⟩ hpast
      · obtain rfl := List.mem_singleton.mp hmem
        exact ⟨r', rules, [], rfl, happ, fun r hr happ => absurd ⟨r, hr, happ⟩ hpast, by simp⟩

/-! ### The last rule for a hostname -/

theorem mem_of_lastFor (h : lastFor rules path = some r) :
    r ∈ rules ∧ hostLabels r.hostname = path := by
  have hlabels := List.find?_some h
  rw [decide_eq_true_eq] at hlabels
  exact ⟨List.mem_reverse.mp (List.mem_of_find?_eq_some h), by rw [hostLabels_hostname, hlabels]⟩

theorem lastFor_append (before after : List Rule) (path : List Text) :
    lastFor (before ++ after) path = (lastFor after path).or (lastFor before path) := by
  rw [lastFor, List.reverse_append, List.find?_append]
  rfl

/-- The rule is the last one for its hostname. -/
def LastOfHostname (rules : List Rule) (r : Rule) : Prop :=
  lastFor rules (hostLabels r.hostname) = some r

instance : Decidable (LastOfHostname rules r) := inferInstanceAs (Decidable (_ = _))

/-- **The rule that decides at a host**: the deepest that applies among those that are the
last for their hostname. -/
structure Decides (rules : List Rule) (host : Text) (w : Rule) : Prop where
  /-- It is the last for its hostname. -/
  last : LastOfHostname rules w
  /-- It applies. -/
  applies : Applies w host
  /-- No other such rule has more labels. -/
  deepest : ∀ r, LastOfHostname rules r → Applies r host →
    (hostLabels r.hostname).length ≤ (hostLabels w.hostname).length

theorem hit_eq_some_iff (hp : p ≠ []) (hpre : p <+: hostLabels host) {kind : BlockKind} :
    hit (hostLabels host) p ((lastFor rules p).map terminalOf) = some kind ↔
      ∃ r, lastFor rules p = some r ∧ Applies r host ∧ r.kind = kind := by
  cases hlast : lastFor rules p with
  | none => simp [hit]
  | some r =>
    obtain ⟨-, rfl⟩ := mem_of_lastFor hlast
    simp only [hit, Option.map_some, Option.bind_some, terminalOf, Option.some.injEq,
      Applies, ne_eq, hp, not_false_eq_true, true_and, exists_eq_left']
    cases hscope : r.appliesToSubdomains <;> simp [hpre]

/-- **What the tree returns**: the kind of the rule that decides. -/
theorem matchHost_eq_some_iff {kind : BlockKind} :
    (fromRules rules).matchHost host = some kind ↔ ∃ w, Decides rules host w ∧ w.kind = kind := by
  have hpath : labels host.toAsciiLowercase = hostLabels host := rfl
  rw [matchHost_eq, Trie.deepest_eq_some_iff, hpath]
  constructor
  · rintro ⟨p, hp, hpre, hhit, hlong⟩
    rw [get_fromRules hp, hit_eq_some_iff hp hpre] at hhit
    obtain ⟨w, hlast, happ, hkind⟩ := hhit
    obtain ⟨-, hlabels⟩ := mem_of_lastFor hlast
    refine ⟨w, ⟨by rw [LastOfHostname, hlabels, hlast], happ, fun r hr happ' => ?_⟩, hkind⟩
    by_contra hlen
    -- a deeper one would have been hit
    have hnone := hlong _ happ'.prefix (by rw [← hlabels]; omega)
    have hsome : hit (hostLabels host) (hostLabels r.hostname)
        ((lastFor rules (hostLabels r.hostname)).map terminalOf) = some r.kind :=
      (hit_eq_some_iff happ'.1 happ'.prefix).mpr ⟨r, hr, happ', rfl⟩
    rw [get_fromRules happ'.1, hsome] at hnone
    simp at hnone
  · rintro ⟨w, ⟨hlast, happ, hdeep⟩, hkind⟩
    refine ⟨hostLabels w.hostname, happ.1, happ.prefix, ?_, fun q hq hlen => ?_⟩
    · rw [get_fromRules happ.1, hit_eq_some_iff happ.1 happ.prefix]
      exact ⟨w, hlast, happ, hkind⟩
    · have hne : q ≠ [] := List.ne_nil_of_length_pos (by omega)
      cases hhit : hit (hostLabels host) q ((fromRules rules).root.get q) with
      | none => rfl
      | some kind' =>
        rw [get_fromRules hne, hit_eq_some_iff hne hq] at hhit
        obtain ⟨r, hr, happ', -⟩ := hhit
        obtain ⟨-, rfl⟩ := mem_of_lastFor hr
        exact absurd (hdeep r hr happ') (by omega)

/-- A match is always owed to a rule that applies. -/
theorem exists_applies (h : ((fromRules rules).matchHost host).isSome = true) :
    ∃ r ∈ rules, Applies r host := by
  obtain ⟨kind, hkind⟩ := Option.isSome_iff_exists.mp h
  obtain ⟨w, hdecides, -⟩ := matchHost_eq_some_iff.mp hkind
  exact ⟨w, (mem_of_lastFor hdecides.last).1, hdecides.applies⟩

/-! ### Where the tree means what the rules mean -/

/-- The rule that wins at the host is not overwritten: it is the last one for its hostname,
or what is then found in its stead has its kind. -/
def Kept (rules : List Rule) (host : Text) : Prop :=
  ∀ w, Wins rules host w → LastOfHostname rules w ∨
    ∃ w', Decides rules host w' ∧ w'.kind = w.kind

/-- The winner decides if it is the last one for its hostname. -/
theorem Wins.decides (h : Wins rules host w) (hlast : LastOfHostname rules w) :
    Decides rules host w := by
  refine ⟨hlast, h.applies.2, fun r hr happ => ?_⟩
  have hle := h.rank_le (mem_of_lastFor hr).1 happ
  simp only [rank] at hle
  split at hle <;> split at hle <;> omega

theorem Kept.matchHost_eq (h : Kept rules host) (hw : Wins rules host w) :
    (fromRules rules).matchHost host = some w.kind := by
  rcases h w hw with hlast | hdecides
  · exact matchHost_eq_some_iff.mpr ⟨w, hw.decides hlast, rfl⟩
  · exact matchHost_eq_some_iff.mpr hdecides

theorem Kept.isSome_iff (h : Kept rules host) :
    ((fromRules rules).matchHost host).isSome = true ↔ ∃ r ∈ rules, Applies r host := by
  refine ⟨exists_applies, fun happ => ?_⟩
  obtain ⟨w, hw⟩ := exists_wins happ
  rw [h.matchHost_eq hw]
  rfl

/-- **Where the tree means what the rules mean**: exactly where the rule that wins is not
overwritten. There a further rule, if it overwrites none that wins, blocks no less. -/
theorem meetsSpec_iff (rules : List Rule) (host : Text) :
    (MeetsSpec rules host ↔ Kept rules host) ∧
      ∀ r, Kept (rules ++ [r]) host → ((fromRules rules).matchHost host).isSome = true →
        ((fromRules (rules ++ [r])).matchHost host).isSome = true := by
  refine ⟨⟨fun h w hw => ?_, fun h => ⟨h.isSome_iff, fun w hw => h.matchHost_eq hw⟩⟩, ?_⟩
  · exact Or.inr (matchHost_eq_some_iff.mp (h.kind_eq w hw))
  · intro r hkept hsome
    obtain ⟨r', hr', happ⟩ := exists_applies hsome
    exact hkept.isSome_iff.mpr ⟨r', List.mem_append_left _ hr', happ⟩

/-- Nothing is overwritten when the rules for one hostname all have the same scope. -/
theorem kept_of_scope (h : ∀ r ∈ rules, ∀ r' ∈ rules, hostLabels r.hostname =
    hostLabels r'.hostname → r.appliesToSubdomains = r'.appliesToSubdomains) (host : Text) :
    Kept rules host := by
  rintro w ⟨before, after, rfl, happ, hbefore, hafter⟩
  refine Or.inl ?_
  have hself : lastFor [w] (hostLabels w.hostname) = some w := by
    simp [lastFor, hostLabels_hostname]
  rw [LastOfHostname, List.append_cons, lastFor_append, lastFor_append, hself]
  cases hlater : lastFor after (hostLabels w.hostname) with
  | none => rfl
  | some r =>
    -- a later rule for the hostname would be as specific
    obtain ⟨hr, hlabels⟩ := mem_of_lastFor hlater
    have hscope := h r (by simp [hr]) w (by simp) hlabels
    have happ' : Applies r host := by
      rw [Applies, hlabels, hscope]
      exact happ
    have hlt := hafter r hr happ'
    simp only [rank, hlabels, hscope] at hlt
    omega

/-- **An exact rule that comes after the inclusive one** for the same hostname unblocks the
subdomains, although the inclusive rule applies to them. -/
theorem not_meetsSpec_overwritten :
    (fromRules [.host "example.com".toList .ad]).matchHost "sub.example.com".toList = some .ad ∧
    (fromRules [.host "example.com".toList .ad, .hostExact "example.com".toList .tracker]).matchHost
      "sub.example.com".toList = none ∧
    ¬ MeetsSpec [.host "example.com".toList .ad, .hostExact "example.com".toList .tracker]
      "sub.example.com".toList := by
  have hnone : (fromRules [.host "example.com".toList .ad,
      .hostExact "example.com".toList .tracker]).matchHost "sub.example.com".toList = none := by
    decide
  refine ⟨by decide, hnone, fun h => ?_⟩
  have happ : Applies (.host "example.com".toList .ad) "sub.example.com".toList := by decide
  have hsome := h.isSome_iff.mpr ⟨_, List.mem_cons_self, happ⟩
  rw [hnone] at hsome
  simp at hsome

end RadixTree

end Blocklist

end DevBrowse
