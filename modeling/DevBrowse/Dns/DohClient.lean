import DevBrowse.Dns.Rebinding
import DevBrowse.Dns.WireSafety

/-!
# The resolver over HTTPS

A query is encoded, posted to the server and its response decoded. The response is rejected
as a whole if any of its addresses is not public, and of an accepted one the addresses of the
type asked for are kept.

What an accepted response is good for is `Protected`. All of it holds, but for IPv6 addresses
that an IPv4 address is mapped to: these are public to the filter whatever the IPv4 address is
(`resolve_protected_iff`).
-/

namespace DevBrowse

namespace Dns

open Checked

open Network (NetworkError)

/-- The error a malformed message becomes. -/
def mapWireError : WireError → NetworkError
  | .nxDomain => .resolveNxDomain
  | .serverFailure => .resolveTransport
  | .formatError => .resolveTransport
  | _ => .resolveProtocol

/-- The client of a server. -/
structure DohClient where
  /-- What the server answers to a message, if the transport does not fail. -/
  postDnsMessage : List UInt8 → Except NetworkError Buf

/-- The address of a record. -/
def DnsRecord.ip : DnsRecord → IpAddr
  | .a v4 => .v4 v4
  | .aaaa v6 => .v6 v6

/-- Whether a record is of a type. -/
def DnsRecord.hasType : DnsRecord → QueryType → Bool
  | .a _, .a => true
  | .aaaa _, .aaaa => true
  | _, _ => false

/-- A word between two bounds. -/
def clamp (w low high : UInt32) : UInt32 :=
  if w.toNat < low.toNat then low else if high.toNat < w.toNat then high else w

namespace DohClient

/-- What the response to a query says. -/
def answer (client : DohClient) (query : ResolveQuery) : Checked NetworkError DecodedAnswer :=
  match encodeQuery query.qname query.qtype with
  | .error e => fail (mapWireError e)
  | .ok body =>
    match client.postDnsMessage body with
    | .error e => fail e
    | .ok respBytes =>
      match decodeResponse respBytes with
      | .error (.returned e) => fail (mapWireError e)
      | .error .panicked => .error .panicked
      | .error .unfinished => .error .unfinished
      | .ok answer => .ok answer

/-- What a query is answered with. -/
def resolve (client : DohClient) (query : ResolveQuery) : Checked NetworkError ResolveResult := do
  let answer ← client.answer query
  -- one address that is not public spoils the whole response, whatever its type
  if answer.records.any fun rec => !isPublic rec.ip then fail .resolveRebinding
  else
    let filtered := answer.records.filter fun r => r.hasType query.qtype
    if filtered = [] then fail .resolveNxDomain
    else pure ⟨filtered, clamp answer.minTtl 1 maxPositiveTtl⟩

/-! ### What an accepted response is -/

/-- What an accepted response is to be. -/
structure Protected (query : ResolveQuery) (result : ResolveResult) : Prop where
  /-- It has a record. -/
  ne_nil : result.records ≠ []
  /-- Its records are of the type asked for. -/
  hasType : ∀ r ∈ result.records, r.hasType query.qtype = true
  /-- It is kept for a second at least. -/
  one_le : 1 ≤ result.ttlSeconds.toNat
  /-- It is kept for a day at most. -/
  le_day : result.ttlSeconds.toNat ≤ 24 * 60 * 60
  /-- Its IPv4 addresses are public. -/
  v4 : ∀ v4, .a v4 ∈ result.records → ¬ NonPublicV4 v4
  /-- Its IPv6 addresses are public. -/
  v6 : ∀ v6, .aaaa v6 ∈ result.records → ¬ NonPublicV6 v6
  /-- The IPv4 addresses that its IPv6 addresses stand for are public. -/
  mapped : ∀ v4 : Ipv4Addr, .aaaa v4.toIpv6Mapped ∈ result.records → ¬ NonPublicV4 v4

/-- The response to a query for IPv6 addresses has none that stands for an IPv4 address that
is not public. -/
def NoneMapped (client : DohClient) (query : ResolveQuery) : Prop :=
  query.qtype = .aaaa → ∀ answer, client.answer query = .ok answer →
    ∀ v4 : Ipv4Addr, .aaaa v4.toIpv6Mapped ∈ answer.records → ¬ NonPublicV4 v4

variable {client : DohClient} {query : ResolveQuery} {result : ResolveResult}

/-- What is known of a response that is accepted. -/
theorem of_resolve_eq_ok (h : client.resolve query = .ok result) :
    ∃ answer, client.answer query = .ok answer ∧
      (∀ r ∈ answer.records, isPublic r.ip = true) ∧ result.records ≠ [] ∧
      result = ⟨answer.records.filter fun r => r.hasType query.qtype,
        clamp answer.minTtl 1 maxPositiveTtl⟩ := by
  rw [resolve] at h
  cases hanswer : client.answer query with
  | error e =>
    rw [hanswer] at h
    cases h
  | ok answer =>
    rw [hanswer, ok_bind] at h
    split at h
    · cases h
    · rename_i hpublic
      dsimp only at h
      split at h
      · cases h
      · rename_i hne
        obtain rfl := Except.ok.inj h
        refine ⟨answer, rfl, fun r hr => ?_, hne, rfl⟩
        by_contra hr'
        exact hpublic (List.any_eq_true.mpr ⟨r, hr, by simpa using hr'⟩)

theorem clamp_bounds (w low high : UInt32) (h : low.toNat ≤ high.toNat) :
    low.toNat ≤ (clamp w low high).toNat ∧ (clamp w low high).toNat ≤ high.toNat := by
  rw [clamp]
  split
  · exact ⟨le_rfl, h⟩
  · split
    · exact ⟨h, le_rfl⟩
    · omega

theorem classify_of_isPublic {addr : IpAddr} (h : isPublic addr = true) :
    classify addr = .«public» := by
  simpa [isPublic, AddressClass.isRejected] using h

/-- **What an accepted response is**: everything it is to be, if and only if the response has
no IPv6 address that stands for an IPv4 address that is not public. -/
theorem resolve_protected_iff (client : DohClient) (query : ResolveQuery)
    (result : ResolveResult) (h : client.resolve query = .ok result) :
    Protected query result ↔ NoneMapped client query := by
  obtain ⟨answer, hanswer, hpublic, hne, rfl⟩ := of_resolve_eq_ok h
  have hmem : ∀ r ∈ answer.records.filter fun r => r.hasType query.qtype,
      r ∈ answer.records ∧ r.hasType query.qtype = true := fun r hr => List.mem_filter.mp hr
  have httl : 1 ≤ (clamp answer.minTtl 1 maxPositiveTtl).toNat ∧
      (clamp answer.minTtl 1 maxPositiveTtl).toNat ≤ 24 * 60 * 60 :=
    clamp_bounds answer.minTtl 1 maxPositiveTtl (by decide)
  constructor
  · intro hprotected hqtype answer' hanswer' v4 hv4
    obtain rfl : answer = answer' := Except.ok.inj (hanswer.symm.trans hanswer')
    refine hprotected.mapped v4 (List.mem_filter.mpr ⟨hv4, ?_⟩)
    rw [hqtype]
    rfl
  · intro hmapped
    exact {
      ne_nil := hne
      hasType := fun r hr => (hmem r hr).2
      one_le := httl.1
      le_day := httl.2
      v4 := fun v4 hv4 => not_nonPublicV4 (classify_of_isPublic (hpublic _ (hmem _ hv4).1))
      v6 := fun v6 hv6 => not_nonPublicV6 (classify_of_isPublic (hpublic _ (hmem _ hv6).1))
      mapped := fun v4 hv4 => by
        obtain ⟨hin, htype⟩ := hmem _ hv4
        refine hmapped ?_ answer hanswer v4 hin
        cases hqtype : query.qtype with
        | a =>
          rw [hqtype] at htype
          cases htype
        | aaaa => rfl }

/-- A server that answers every query for the IPv6 addresses of `a` with the same address. -/
def exampleClient (addr : Ipv6Addr) : DohClient where
  postDnsMessage _ := .ok ⟨[0, 0, 0x81, 0x80, 0, 1, 0, 1, 0, 0, 0, 0, 1, 97, 0, 0, 28, 0, 1,
    0xC0, 12, 0, 28, 0, 1, 0, 0, 0, 60, 0, 16] ++ addr.toList, by simp⟩

/-- A query for the IPv6 addresses of `a`. -/
def exampleQuery : ResolveQuery :=
  ⟨⟨Vector.replicate 32 0⟩, "a".toList, .aaaa, .standard⟩

/-- `2606:4700:4700::1111`. -/
def exampleAddr : Ipv6Addr :=
  #v[0x26, 0x06, 0x47, 0x00, 0x47, 0x00, 0, 0, 0, 0, 0, 0, 0, 0, 0x11, 0x11]

/-- A public address passes. -/
theorem resolve_protected_iff_example :
    Protected exampleQuery ⟨[.aaaa exampleAddr], 60⟩ := by
  have hresolve : (exampleClient exampleAddr).resolve exampleQuery =
      .ok ⟨[.aaaa exampleAddr], 60⟩ := by decide +kernel
  have hexact : (exampleClient exampleAddr).answer exampleQuery =
      .ok ⟨[.aaaa exampleAddr], 60⟩ := by decide +kernel
  refine (resolve_protected_iff _ _ _ hresolve).mpr fun _ answer hanswer v4 hv4 => ?_
  obtain rfl := Except.ok.inj (hexact.symm.trans hanswer)
  rw [List.mem_singleton, DnsRecord.aaaa.injEq] at hv4
  have hfirst : (0 : UInt8) = 0x26 := congrArg (fun v : Ipv6Addr => v[0]) hv4
  exact absurd hfirst (by decide)

/-- `::ffff:192.168.0.1` passes, and stands for an address of the local network. -/
theorem resolve_not_protected : ∃ result,
    (exampleClient (Ipv4Addr.toIpv6Mapped #v[192, 168, 0, 1])).resolve exampleQuery =
      .ok result ∧ ¬ Protected exampleQuery result := by
  refine ⟨⟨[.aaaa (Ipv4Addr.toIpv6Mapped #v[192, 168, 0, 1])], 60⟩, by decide +kernel,
    fun h => h.mapped #v[192, 168, 0, 1] List.mem_cons_self ?_⟩
  exact ⟨⟨[192, 168, 0, 0], 16⟩, by decide, by decide⟩

end DohClient

end Dns

end DevBrowse
