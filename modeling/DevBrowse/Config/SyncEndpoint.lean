import DevBrowse.Config.Loader
import DevBrowse.Lib.Authority

/-!
# Where a relay may be

The address of the user's own relay is either `https`, or `http` on this device. The check of
the configuration looks at how the address begins, and an address may begin with the name of
this device and yet name another host: its host may go on behind that name, or the name may
be a userinfo. `Config.safeEndpoint_iff` says which of the addresses that pass the check are
those of this device.
-/

namespace DevBrowse

namespace Config

open Authority

/-- The names of this device. -/
def localHosts : List Text := ["localhost".toList, "127.0.0.1".toList]

/-- **An address that a relay may have**: over `https`, or over `http` on this device. -/
def SafeEndpoint (url : Text) : Prop :=
  (∃ rest, url = "https://".toList ++ rest) ∨
    ∃ rest, url = "http://".toList ++ rest ∧
      ∃ host ∈ localHosts, connectedHost (cut rest) = some host

/-- What may follow a name of this device in an authority: nothing, or a port; or, where the
name is in the userinfo, an `@` with a name of this device behind it. -/
def Contained (tail : Text) : Prop :=
  ('@' ∉ tail ∧ (tail.head? = none ∨ tail.head? = some ':')) ∨
    ∃ u s, tail = u ++ '@' :: s ∧ '@' ∉ s ∧ ∃ host ∈ localHosts, hostOf s = some host

variable {quoted : Text → Text} {cfg : Config} {url host rest tail p : Text}

/-! ### The authority behind the name of this device -/

theorem forall_localHosts {P : Text → Prop} :
    (∀ host ∈ localHosts, P host) ↔ P "localhost".toList ∧ P "127.0.0.1".toList := by
  simp [localHosts]

/-- None of the names of this device is the beginning of the other. -/
theorem append_mem_localHosts_iff (hhost : host ∈ localHosts) :
    host ++ p ∈ localHosts ↔ p = [] := by
  revert host
  rw [forall_localHosts]
  constructor <;> simp [localHosts]

/-- The names of this device have no character that means something in an authority. -/
theorem plain_of_mem_localHosts (hhost : host ∈ localHosts) :
    '@' ∉ host ∧ ':' ∉ host ∧ (∀ c ∈ host, ends c = false) ∧
      host.head? ≠ some '[' ∧ host ≠ [] := by
  revert host
  rw [forall_localHosts]
  simp [ends]

theorem cut_append (hhost : host ∈ localHosts) : cut (host ++ rest) = host ++ cut rest := by
  obtain ⟨-, -, hends, -, -⟩ := plain_of_mem_localHosts hhost
  rw [cut, List.takeWhile_append_of_pos fun c hc => by rw [hends c hc]; rfl]
  rfl

/-- **What an authority that begins with a name of this device is the host of.** -/
theorem exists_connectedHost_iff (hhost : host ∈ localHosts) :
    (∃ h ∈ localHosts, connectedHost (host ++ tail) = some h) ↔ Contained tail := by
  obtain ⟨hat, hcolon, -, hbracket, hne⟩ := plain_of_mem_localHosts hhost
  by_cases htail : '@' ∈ tail
  · obtain ⟨u, s, rfl, hs⟩ := exists_last_at htail
    have hcut : host ++ (u ++ '@' :: s) = (host ++ u) ++ '@' :: s := by simp
    rw [hcut, connectedHost, hostPort_append_cons hs]
    constructor
    · intro h
      exact .inr ⟨u, s, rfl, hs, h⟩
    · rintro (⟨hno, -⟩ | ⟨u', s', heq, hs', h⟩)
      · exact absurd htail hno
      · have hlast := congrArg hostPort heq
        rw [hostPort_append_cons hs, hostPort_append_cons hs'] at hlast
        rwa [hlast]
  · -- the host goes on up to a `:`
    obtain ⟨p, q, rfl, hp, hq⟩ := exists_cut_ne ':' tail
    have hno : '@' ∉ host ++ (p ++ q) := by
      rw [List.mem_append, not_or]
      exact ⟨hat, htail⟩
    have hhead : (host ++ p).head? ≠ some '[' := by
      rw [List.head?_append_of_ne_nil host hne]
      exact hbracket
    have hplain : ':' ∉ host ++ p := by
      rw [List.mem_append, not_or]
      exact ⟨hcolon, hp⟩
    rw [connectedHost, hostPort_of_notMem hno, ← List.append_assoc, hostOf_plain hhead hplain hq,
      nonempty_of_ne (by simp [hne])]
    constructor
    · rintro ⟨h, hh, heq⟩
      refine .inl ⟨htail, (head?_append_iff hp hq).mpr ((append_mem_localHosts_iff hhost).mp ?_)⟩
      rwa [Option.some.inj heq]
    · rintro (⟨-, h⟩ | ⟨u, s, heq, -⟩)
      · refine ⟨host ++ p, ?_, rfl⟩
        exact (append_mem_localHosts_iff hhost).mpr ((head?_append_iff hp hq).mp h)
      · exact absurd (heq ▸ by simp) htail

/-- An address that is `http` is not `https`. -/
theorem https_ne_http (rest rest' : Text) :
    "https://".toList ++ rest ≠ "http://".toList ++ rest' := by
  simp

/-- **When an address that passes the check is that of this device.** -/
theorem safeEndpoint_iff (hvalid : validate quoted cfg = .ok ())
    (hurl : cfg.sync.backend = some (.webDav url)) :
    SafeEndpoint url ↔ ∀ host ∈ localHosts, ∀ rest,
      url = "http://".toList ++ (host ++ rest) → Contained (cut rest) := by
  have hallowed := (validate_eq_ok_iff.mp hvalid).webDav url hurl
  constructor
  · rintro (⟨rest, rfl⟩ | ⟨rest, rfl, hsafe⟩) host hhost rest' heq
    · exact absurd heq (https_ne_http rest _)
    · obtain rfl := List.append_cancel_left heq
      rw [cut_append hhost] at hsafe
      exact (exists_connectedHost_iff hhost).mp hsafe
  · intro h
    rcases hallowed with ⟨rest, rfl⟩ | hlocal
    · exact .inl ⟨rest, rfl⟩
    · obtain ⟨host, hhost, rest, rfl⟩ : ∃ host ∈ localHosts, ∃ rest,
          url = "http://".toList ++ (host ++ rest) := by
        rcases hlocal with ⟨rest, rfl⟩ | ⟨rest, rfl⟩
        · exact ⟨_, List.mem_cons_self, rest, rfl⟩
        · exact ⟨_, List.mem_cons_of_mem _ List.mem_cons_self, rest, rfl⟩
      refine .inr ⟨host ++ rest, rfl, ?_⟩
      rw [cut_append hhost]
      exact (exists_connectedHost_iff hhost).mpr (h host hhost rest rfl)

/-- What is configured for a relay at an address. -/
def relayAt (url : String) : Config :=
  { sync := { enabled := true, backend := some (.webDav url.toList) } }

theorem safeEndpoint_iff_port : SafeEndpoint "http://localhost:8080/dav".toList := by
  have hvalid : validate id (relayAt "http://localhost:8080/dav") = .ok () := by decide
  rw [safeEndpoint_iff hvalid rfl, forall_localHosts]
  constructor
  · intro rest heq
    obtain rfl : ":8080/dav".toList = rest := by simpa using heq
    exact .inl (by decide)
  · intro rest heq
    exact absurd heq (by simp)

/-- The host may go on behind the name of this device, or the name may be a userinfo. -/
theorem not_safeEndpoint_accepted :
    (validate id (relayAt "http://localhost.evil.com/dav") = .ok () ∧
        ¬ SafeEndpoint "http://localhost.evil.com/dav".toList) ∧
      validate id (relayAt "http://localhost:pw@evil.com/") = .ok () ∧
        ¬ SafeEndpoint "http://localhost:pw@evil.com/".toList := by
  refine ⟨⟨by decide, ?_⟩, by decide, ?_⟩
  · rintro (⟨rest, heq⟩ | ⟨rest, heq, host, hhost, hconnected⟩)
    · exact absurd heq (by simp)
    · obtain rfl : "localhost.evil.com/dav".toList = rest := by simpa using heq
      revert host
      decide
  · rintro (⟨rest, heq⟩ | ⟨rest, heq, host, hhost, hconnected⟩)
    · exact absurd heq (by simp)
    · obtain rfl : "localhost:pw@evil.com/".toList = rest := by simpa using heq
      revert host
      decide

end Config

end DevBrowse
