import DevBrowse.Lib.Text
import Mathlib.Data.List.DropRight

/-!
# The host in an authority

The authority of a URL is `userinfo@host:port`, where the userinfo and the port may be
missing and the host may stand in brackets. Two readings of it are fixed here, both by
where the text is cut and not by how a scanner gets there: the userinfo ends at the *last*
`@` (`Authority.hostPort`), and the host ends at the first `:`, or at the first `]` where it
begins with `[` (`Authority.hostOf`). The host the URL names is the second of the first,
`Authority.connectedHost`.

The lemmas on `Authority.hostOf` are one for each shape of the text it reads, so that a
proof cuts the text once and rewrites.
-/

namespace Authority

/-- The characters an authority ends before. -/
def ends (c : Char) : Bool := c == '/' || c == '?' || c == '#'

/-- The authority at the beginning of a text. -/
def cut (s : Text) : Text := s.takeWhile fun c => !ends c

/-- **The userinfo removed**: what follows the last `@`. -/
def hostPort (authority : Text) : Text := authority.rtakeWhile fun c => c != '@'

/-- A host, unless it is empty. -/
def nonempty (host : Text) : Option Text := if host = [] then none else some host

/-- **The port and the brackets removed.** -/
def hostOf : Text → Option Text
  | '[' :: inner => if ']' ∈ inner then nonempty (inner.takeWhile fun c => c != ']') else none
  | plain => nonempty (plain.takeWhile fun c => c != ':')

/-- **The host of an authority.** -/
def connectedHost (authority : Text) : Option Text := hostOf (hostPort authority)

variable {u v h p q s : Text} {c : Char}

/-! ### What follows the last `@` -/

theorem hostPort_of_notMem (hat : '@' ∉ h) : hostPort h = h := by
  rw [hostPort, List.rtakeWhile_eq_self_iff]
  intro c hc
  rw [bne_iff_ne]
  rintro rfl
  exact hat hc

theorem hostPort_append_cons (hat : '@' ∉ h) : hostPort (u ++ '@' :: h) = h := by
  have hrev : (u ++ '@' :: h).reverse = h.reverse ++ '@' :: u.reverse := by simp
  have hpass : ∀ c ∈ h.reverse, (c != '@') = true := by
    intro c hc
    rw [bne_iff_ne]
    rintro rfl
    exact hat (List.mem_reverse.mp hc)
  rw [hostPort, List.rtakeWhile, hrev, Text.takeWhile_append hpass (by simp),
    List.reverse_reverse]

/-- A text with an `@` in it can be cut at the last one. -/
theorem exists_last_at (hat : '@' ∈ s) : ∃ u h, s = u ++ '@' :: h ∧ '@' ∉ h := by
  obtain ⟨h, u, hs, hh⟩ := List.eq_append_cons_of_mem (List.mem_reverse.mpr hat)
  refine ⟨u.reverse, h.reverse, ?_, by simpa using hh⟩
  rw [← List.reverse_reverse s, hs]
  simp

/-! ### The shapes of a host with its port -/

@[simp] theorem nonempty_eq_some_iff : nonempty h = some p ↔ h = p ∧ p ≠ [] := by
  rw [nonempty]
  split
  · rename_i hnil
    simp [hnil, eq_comm]
  · rename_i hne
    rw [Option.some.injEq]
    exact ⟨fun heq => ⟨heq, heq ▸ hne⟩, And.left⟩

theorem nonempty_of_ne (hne : h ≠ []) : nonempty h = some h := if_neg hne

theorem takeWhile_ne_append (hp : c ∉ p) (hq : q.head? = none ∨ q.head? = some c) :
    (p ++ q).takeWhile (fun d => d != c) = p := by
  refine Text.takeWhile_append (fun d hd => ?_) (fun d hd => ?_)
  · rw [bne_iff_ne]
    rintro rfl
    exact hp hd
  · rcases hq with hnil | hc
    · rw [hnil] at hd
      exact absurd hd (by simp)
    · rw [hc] at hd
      obtain rfl := Option.some.inj hd
      exact bne_self_eq_false' c

/-- A host in brackets. -/
theorem hostOf_bracket (hp : ']' ∉ p) : hostOf ('[' :: (p ++ ']' :: q)) = nonempty p := by
  have hcut : (p ++ ']' :: q).takeWhile (fun c => c != ']') = p :=
    takeWhile_ne_append hp (.inr rfl)
  rw [hostOf, if_pos (by simp), hcut]

/-- A bracket that is left open. -/
theorem hostOf_open (hp : ']' ∉ p) : hostOf ('[' :: p) = none := by
  rw [hostOf, if_neg hp]

theorem hostOf_eq_nonempty (hhead : s.head? ≠ some '[') :
    hostOf s = nonempty (s.takeWhile fun c => c != ':') := by
  rw [hostOf]
  rintro inner rfl
  exact hhead rfl

/-- A host that is not in brackets ends at the first `:`, or at the end of the text. -/
theorem hostOf_plain (hhead : p.head? ≠ some '[') (hp : ':' ∉ p)
    (hq : q.head? = none ∨ q.head? = some ':') : hostOf (p ++ q) = nonempty p := by
  have hhead' : (p ++ q).head? ≠ some '[' := by
    cases p with
    | nil =>
      rw [List.nil_append]
      rcases hq with hq | hq <;> simp [hq]
    | cons d p => simpa using hhead
  rw [hostOf_eq_nonempty hhead', takeWhile_ne_append hp hq]

/-- Every text can be cut before the first occurrence of a character. -/
theorem exists_cut_ne (c : Char) (s : Text) :
    ∃ p q, s = p ++ q ∧ c ∉ p ∧ (q.head? = none ∨ q.head? = some c) := by
  obtain ⟨p, q, rfl, hp, hq⟩ := Text.exists_cut (fun d => d == c) s
  refine ⟨p, q, rfl, fun hmem => ?_, ?_⟩
  · simpa using hp c hmem
  · cases q with
    | nil => exact .inl rfl
    | cons d q => exact .inr (congrArg some (by simpa using hq d rfl))

/-- A text that is cut before a character begins with it, or is empty, where nothing stands
before the cut. -/
theorem head?_append_iff (hp : c ∉ p) (hq : q.head? = none ∨ q.head? = some c) :
    (p ++ q).head? = none ∨ (p ++ q).head? = some c ↔ p = [] := by
  constructor
  · rintro (hnil | hhead)
    · exact (List.append_eq_nil_iff.mp (List.head?_eq_none_iff.mp hnil)).1
    · cases p with
      | nil => rfl
      | cons d p =>
        obtain rfl : d = c := by simpa using hhead
        exact absurd List.mem_cons_self hp
  · rintro rfl
    exact hq

/-- Every text has one of the shapes above. -/
theorem hostOf_cases (s : Text) :
    (∃ p q, s = '[' :: (p ++ ']' :: q) ∧ ']' ∉ p) ∨ (∃ p, s = '[' :: p ∧ ']' ∉ p) ∨
      ∃ p q, s = p ++ q ∧ p.head? ≠ some '[' ∧ ':' ∉ p ∧
        (q.head? = none ∨ q.head? = some ':') := by
  by_cases hhead : s.head? = some '['
  · obtain ⟨inner, rfl⟩ := List.head?_eq_some_iff.mp hhead
    by_cases hmem : ']' ∈ inner
    · obtain ⟨p, q, rfl, hp⟩ := List.eq_append_cons_of_mem hmem
      exact .inl ⟨p, q, rfl, hp⟩
    · exact .inr (.inl ⟨inner, rfl, hmem⟩)
  · obtain ⟨p, q, rfl, hp, hq⟩ := exists_cut_ne ':' s
    refine .inr (.inr ⟨p, q, rfl, fun hp' => hhead ?_, hp, hq⟩)
    rw [List.head?_append, hp', Option.some_or]

/-- A host is made of the characters of the text it is read from. -/
theorem mem_of_mem_hostOf (hhost : hostOf s = some h) (hc : c ∈ h) : c ∈ s := by
  rcases hostOf_cases s with ⟨p, q, rfl, hp⟩ | ⟨p, rfl, hp⟩ | ⟨p, q, rfl, hhead, hp, hq⟩
  · rw [hostOf_bracket hp] at hhost
    obtain ⟨rfl, -⟩ := nonempty_eq_some_iff.mp hhost
    simp [hc]
  · rw [hostOf_open hp] at hhost
    exact absurd hhost (by simp)
  · rw [hostOf_plain hhead hp hq] at hhost
    obtain ⟨rfl, -⟩ := nonempty_eq_some_iff.mp hhost
    exact List.mem_append_left q hc

end Authority
