import DevBrowse.Lib.Authority
import DevBrowse.Network.Url

/-!
# The host the blocklist sees

`DevBrowse.Network.parseHost` takes the userinfo to end at the first `@` of the authority, a
connection takes it to end at the last one. Behind the userinfo the two read the same host
(`DevBrowse.Network.hostOfAuthority_eq`), so they agree on every authority with at most one
`@`. With more of them the blocklist reads its host out of the userinfo, and agrees with the
connection only where what stands there ends before the next `@` and is the host of the
connection already (`DevBrowse.Network.SameHost`).
-/

namespace DevBrowse

namespace Network

open Authority

variable {scheme a u v h rest : Text}

/-! ### The host behind the userinfo -/

/-- Both cut the port and the brackets alike. -/
theorem hostOfAuthority_eq (s : Text) : hostOfAuthority s = hostOf s := by
  have hfilter : ∀ p : Text, (some p).filter (fun host => !host.isEmpty) = nonempty p := by
    intro p
    cases p <;> rfl
  unfold hostOfAuthority
  split
  · rename_i hnil
    rw [hnil]
    rfl
  dsimp only
  split
  · rename_i inner _
    by_cases hmem : ']' ∈ inner
    · obtain ⟨p, q, rfl, hp⟩ := List.eq_append_cons_of_mem hmem
      rw [Text.find_append_cons hp, Option.map_some, List.take_left, hfilter, hostOf_bracket hp]
    · rw [Text.find_eq_none_iff.mpr hmem, hostOf_open hmem]
      rfl
  · rename_i hplain
    have hhead : s.head? ≠ some '[' := by
      intro hhead
      obtain ⟨inner, rfl⟩ := List.head?_eq_some_iff.mp hhead
      exact hplain inner rfl
    rw [hostOf_eq_nonempty hhead]
    by_cases hmem : ':' ∈ s
    · obtain ⟨p, q, rfl, hp⟩ := List.eq_append_cons_of_mem hmem
      rw [takeWhile_ne_append hp (.inr rfl)]
      simp only [Text.find_append_cons hp, List.take_left, hfilter]
    · have hall : s.takeWhile (fun c => c != ':') = s := by
        simpa using takeWhile_ne_append hmem (.inl List.head?_nil)
      rw [hall]
      simp only [Text.find_eq_none_iff.mpr hmem, hfilter]

/-! ### More than one `@` -/

/-- What stands between the first `@` of an authority and the last one names the host that
follows the last one: it is closed by a `:` or by a bracket, or it leaves a bracket open that
stays open. -/
def SameHost (between hostPort : Text) : Prop :=
  (∃ p q, between = p ++ ':' :: q ∧ p.head? ≠ some '[' ∧ ':' ∉ p ∧ hostOf hostPort = nonempty p) ∨
    (∃ p q, between = '[' :: (p ++ ']' :: q) ∧ ']' ∉ p ∧ hostOf hostPort = nonempty p) ∨
    ∃ p, between = '[' :: p ∧ ']' ∉ p ∧ ']' ∉ hostPort ∧ hostOf hostPort = none

/-- Everything up to an `@` is no host that follows it. -/
theorem nonempty_append_ne (hat : '@' ∉ h) (p q : Text) :
    nonempty (p ++ '@' :: q) ≠ hostOf h := by
  intro heq
  rw [nonempty_of_ne (by simp)] at heq
  exact hat (mem_of_mem_hostOf heq.symm (by simp))

theorem hostOf_append_at_iff (hat : '@' ∉ h) :
    hostOf (v ++ '@' :: h) = hostOf h ↔ SameHost v h := by
  constructor
  · intro heq
    rcases hostOf_cases v with ⟨p, q, rfl, hp⟩ | ⟨p, rfl, hp⟩ | ⟨p, q, rfl, hhead, hp, hq⟩
    · rw [List.cons_append, List.append_assoc, List.cons_append, hostOf_bracket hp] at heq
      exact .inr (.inl ⟨p, q, rfl, hp, heq.symm⟩)
    · by_cases hclose : ']' ∈ h
      · -- the bracket closes behind the `@`, which is then part of the host
        obtain ⟨s, t, rfl, hs⟩ := List.eq_append_cons_of_mem hclose
        have hcut : '[' :: p ++ '@' :: (s ++ ']' :: t) = '[' :: (p ++ '@' :: s ++ ']' :: t) := by
          simp
        have hnot : ']' ∉ p ++ '@' :: s := by simp [hp, hs]
        rw [hcut, hostOf_bracket hnot] at heq
        exact absurd heq (nonempty_append_ne hat p s)
      · have hnot : ']' ∉ p ++ '@' :: h := by simp [hp, hclose]
        rw [List.cons_append, hostOf_open hnot] at heq
        exact .inr (.inr ⟨p, rfl, hp, hclose, heq.symm⟩)
    · cases q with
      | cons c q =>
        obtain rfl : c = ':' := by simpa using hq
        rw [List.append_assoc, hostOf_plain hhead hp (.inr rfl)] at heq
        exact .inl ⟨p, q, rfl, hhead, hp, heq.symm⟩
      | nil =>
        -- the host runs on over the `@`
        obtain ⟨s, t, rfl, hs, ht⟩ := exists_cut_ne ':' h
        have hcut : p ++ [] ++ '@' :: (s ++ t) = p ++ '@' :: s ++ t := by simp
        have hnot : ':' ∉ p ++ '@' :: s := by simp [hp, hs]
        have hhead' : (p ++ '@' :: s).head? ≠ some '[' := by
          cases p with
          | nil => simp
          | cons d p => simpa using hhead
        rw [hcut, hostOf_plain hhead' hnot ht] at heq
        exact absurd heq (nonempty_append_ne hat p s)
  · rintro (⟨p, q, rfl, hhead, hp, heq⟩ | ⟨p, q, rfl, hp, heq⟩ | ⟨p, rfl, hp, hclose, heq⟩)
    · rw [List.append_assoc, List.cons_append, hostOf_plain hhead hp (.inr rfl), heq]
    · rw [List.cons_append, List.append_assoc, List.cons_append, hostOf_bracket hp, heq]
    · have hnot : ']' ∉ p ++ '@' :: h := by simp [hp, hclose]
      rw [List.cons_append, hostOf_open hnot, heq]

/-- The userinfo of an authority ends at one place: there is one `@` at most, or what stands
between the first and the last one makes no difference. -/
def OneHost (authority : Text) : Prop :=
  authority.count '@' ≤ 1 ∨ ∃ u v h, authority = u ++ '@' :: (v ++ '@' :: h) ∧ '@' ∉ u ∧
    '@' ∉ h ∧ SameHost v h

/-- The ways to cut an authority at its first and its last `@`. -/
theorem at_cases (a : Text) :
    '@' ∉ a ∨ (∃ u h, a = u ++ '@' :: h ∧ '@' ∉ u ∧ '@' ∉ h) ∨
      ∃ u v h, a = u ++ '@' :: (v ++ '@' :: h) ∧ '@' ∉ u ∧ '@' ∉ h := by
  by_cases hat : '@' ∈ a
  · obtain ⟨u, w, rfl, hu⟩ := List.eq_append_cons_of_mem hat
    by_cases hat' : '@' ∈ w
    · obtain ⟨v, h, rfl, hh⟩ := exists_last_at hat'
      exact .inr (.inr ⟨u, v, h, rfl, hu, hh⟩)
    · exact .inr (.inl ⟨u, w, rfl, hu, hat'⟩)
  · exact .inl hat

/-- With one `@` at most there is nothing to mistake. -/
theorem hostOf_afterUserinfo_of_count (ha : ∀ c ∈ a, endsAuthority c = false)
    (hcount : a.count '@' ≤ 1) : hostOf (afterUserinfo a) = connectedHost a := by
  rcases at_cases a with hat | ⟨u, h, rfl, hu, hh⟩ | ⟨u, v, h, rfl, hu, hh⟩
  · rw [connectedHost, afterUserinfo_of_notMem hat, hostPort_of_notMem hat]
  · have hu' : ∀ c ∈ u, endsAuthority c = false := fun c hc => ha c (by simp [hc])
    rw [connectedHost, afterUserinfo_append_cons hu' hu, hostPort_append_cons hh]
  · simp only [List.count_append, List.count_cons_self] at hcount
    omega

/-- With more of them the first and the last one differ. -/
theorem hostOf_afterUserinfo_append_iff
    (ha : ∀ c ∈ u ++ '@' :: (v ++ '@' :: h), endsAuthority c = false) (hu : '@' ∉ u)
    (hh : '@' ∉ h) :
    hostOf (afterUserinfo (u ++ '@' :: (v ++ '@' :: h))) =
        connectedHost (u ++ '@' :: (v ++ '@' :: h)) ↔ SameHost v h := by
  have hu' : ∀ c ∈ u, endsAuthority c = false := fun c hc => ha c (by simp [hc])
  have hlast : hostPort (u ++ '@' :: (v ++ '@' :: h)) = h := by
    have hcut : u ++ '@' :: (v ++ '@' :: h) = (u ++ '@' :: v) ++ '@' :: h := by simp
    rw [hcut, hostPort_append_cons hh]
  rw [connectedHost, hlast, afterUserinfo_append_cons hu' hu, hostOf_append_at_iff hh]

/-- **The userinfo as the blocklist reads it, and as the connection does.** -/
theorem hostOf_afterUserinfo_iff (ha : ∀ c ∈ a, endsAuthority c = false) :
    hostOf (afterUserinfo a) = connectedHost a ↔ OneHost a := by
  constructor
  · intro heq
    by_cases hcount : a.count '@' ≤ 1
    · exact .inl hcount
    · rcases at_cases a with hat | ⟨u, h, rfl, hu, hh⟩ | ⟨u, v, h, rfl, hu, hh⟩
      · exact .inl (by simp [List.count_eq_zero_of_not_mem hat])
      · exact .inl (by
          simp [List.count_eq_zero_of_not_mem hu, List.count_eq_zero_of_not_mem hh])
      · exact .inr ⟨u, v, h, rfl, hu, hh, (hostOf_afterUserinfo_append_iff ha hu hh).mp heq⟩
  · rintro (hcount | ⟨u, v, h, rfl, hu, hh, hsame⟩)
    · exact hostOf_afterUserinfo_of_count ha hcount
    · exact (hostOf_afterUserinfo_append_iff ha hu hh).mpr hsame

/-- **The host that is checked is the host of the URL** exactly where its userinfo ends at one
place. -/
theorem parseHost_eq_connectedHost_iff (hscheme : ':' ∉ scheme)
    (ha : ∀ c ∈ a, endsAuthority c = false) (hrest : ∀ c ∈ rest.head?, endsAuthority c = true) :
    parseHost (scheme ++ "://".toList ++ (a ++ rest)) = connectedHost a ↔ OneHost a := by
  rw [parseHost_append hscheme ha hrest, hostOfAuthority_eq, hostOf_afterUserinfo_iff ha]

/-- A request to a host behind a password. -/
theorem parseHost_eq_connectedHost_userinfo :
    parseHost "https://user:pw@example.com:8443/a".toList = some "example.com".toList := by
  have hone : OneHost "user:pw@example.com:8443".toList := .inl (by decide)
  have hscheme : ':' ∉ "https".toList := by decide
  have ha : ∀ c ∈ "user:pw@example.com:8443".toList, endsAuthority c = false := by
    simp [endsAuthority]
  have hrest : ∀ c ∈ "/a".toList.head?, endsAuthority c = true := by
    rintro c ⟨⟩
    decide
  have heq := (parseHost_eq_connectedHost_iff hscheme ha hrest).mpr hone
  exact heq.trans (by decide)

/-- **An `@` in the password hides the host from the blocklist.** -/
theorem parseHost_ne_connectedHost :
    parseHost "https://a@b@evil.com/".toList = some "b@evil.com".toList ∧
      connectedHost "a@b@evil.com".toList = some "evil.com".toList := by
  decide +kernel

end Network

end DevBrowse
