import DevBrowse.Dns.Rebinding
import DevBrowse.Lib.HashMap
import DevBrowse.Lib.Noninterference
import DevBrowse.Network.PartitionKey

/-!
# ICE candidates

Before a page sees an ICE candidate, the address of a host candidate is replaced by a fresh name
that only the broker resolves, and a candidate of another type is dropped unless its address is
public.

Two runs that differ in the addresses of host candidates show the page the same up to the fresh
names, and a name resolves in its partition only, to the address it was made for, for as long as
the map lives. That no other candidate has an address that is not public fails for the addresses
the classes do not look into (`Overlooked`): those in `240.0.0.0/4` and the IPv6 addresses that
an IPv4 address is mapped to. Where there is none of these all of it holds
(`DevBrowse.Network.hidesLocal_iff`).
-/

namespace DevBrowse

/-! ### Names -/

/-- The two hexadecimal digits of a byte. -/
def hexByte (b : UInt8) : Text := [Nat.digitChar (b.toNat / 16), Nat.digitChar (b.toNat % 16)]

/-- The text of an identifier: its bytes in hexadecimal, in groups of 4, 2, 2, 2 and 6. -/
def Uuid.hyphenated (u : Uuid) : Text :=
  let group (first n : ℕ) : Text := ((u.bytes.toList.drop first).take n).flatMap hexByte
  ['-'].intercalate [group 0 4, group 4 2, group 6 2, group 8 2, group 10 6]

theorem digitChar_injOn {m n : ℕ} (hm : m < 16) (hn : n < 16)
    (h : Nat.digitChar m = Nat.digitChar n) : m = n := by
  have hall : ∀ i < 16, ∀ j < 16, Nat.digitChar i = Nat.digitChar j → i = j := by decide
  exact hall m hm n hn h

theorem hexByte_injective : Function.Injective hexByte := by
  intro b c h
  have hb := b.toNat_lt
  have hc := c.toNat_lt
  obtain ⟨hhigh, hlow⟩ : Nat.digitChar (b.toNat / 16) = Nat.digitChar (c.toNat / 16) ∧
      Nat.digitChar (b.toNat % 16) = Nat.digitChar (c.toNat % 16) := by
    simpa [hexByte] using h
  have hdiv := digitChar_injOn (by omega) (by omega) hhigh
  have hmod := digitChar_injOn (by omega) (by omega) hlow
  exact UInt8.toNat_inj.mp (by omega)

/-- Bytes are known from their digits. -/
theorem hexBytes_inj {bs cs : List UInt8} (h : bs.flatMap hexByte = cs.flatMap hexByte) :
    bs = cs := by
  induction bs generalizing cs with
  | nil =>
    cases cs with
    | nil => rfl
    | cons c cs => cases h
  | cons b bs ih =>
    cases cs with
    | nil => cases h
    | cons c cs =>
      obtain ⟨hbyte, hrest⟩ := List.append_inj h rfl
      rw [hexByte_injective hbyte, ih hrest]

theorem notMem_hexByte (b : UInt8) : '-' ∉ hexByte b := by
  have hall : ∀ n < 16, Nat.digitChar n ≠ '-' := by decide
  have hb := b.toNat_lt
  rw [hexByte, List.mem_cons, List.mem_singleton, not_or]
  exact ⟨(hall _ (by omega)).symm, (hall _ (by omega)).symm⟩

/-- Without the hyphens, the text of an identifier is the digits of its bytes. -/
theorem Uuid.filter_hyphenated (u : Uuid) :
    u.hyphenated.filter (· ≠ '-') = u.bytes.toList.flatMap hexByte := by
  have hgroup (bs : List UInt8) :
      (bs.flatMap hexByte).filter (· ≠ '-') = bs.flatMap hexByte := by
    refine List.filter_eq_self.mpr fun c hc => ?_
    obtain ⟨b, -, hb⟩ := List.mem_flatMap.mp hc
    exact decide_eq_true fun heq => notMem_hexByte b (heq ▸ hb)
  have hcut (n k : ℕ) : (u.bytes.toList.drop n).take k ++ u.bytes.toList.drop (n + k) =
      u.bytes.toList.drop n := by
    rw [← List.drop_drop]
    exact List.take_append_drop k _
  have hlast : (u.bytes.toList.drop 10).take 6 = u.bytes.toList.drop 10 :=
    List.take_of_length_le (by simp)
  have hsep : ['-'].filter (· ≠ '-') = [] := rfl
  simp only [Uuid.hyphenated, List.intercalate_cons_cons, List.intercalate_singleton,
    List.filter_append, hgroup, hsep, List.nil_append, ← List.flatMap_append, List.append_assoc]
  rw [hlast, hcut 8 2, hcut 6 2, hcut 4 2, hcut 0 4, List.drop_zero]

theorem Uuid.hyphenated_injective : Function.Injective Uuid.hyphenated := by
  rintro ⟨u⟩ ⟨v⟩ h
  have hbytes := (Uuid.filter_hyphenated ⟨u⟩).symm.trans
    ((congrArg (List.filter (· ≠ '-')) h).trans (Uuid.filter_hyphenated ⟨v⟩))
  exact congrArg Uuid.mk (Vector.toList_inj.mp (hexBytes_inj hbytes))

namespace Network

open Dns (AddressClass Block IpAddr Ipv4Addr Ipv6Addr classify classifyV4 classifyV6 ite_eq_public
  nonPublicV4Blocks nonPublicV6Blocks)

/-- The name made with a fresh identifier. -/
def MdnsHostnameGenerator.generate (newV4 : Uuid) : Text := newV4.hyphenated ++ ".local".toList

/-- The names of a partition and their addresses. -/
structure MdnsHostnameMap where
  /-- Who may resolve them. -/
  partition : PartitionKey
  /-- The address of each name. -/
  map : HashMap Text IpAddr

namespace MdnsHostnameMap

/-- The map of a partition, without names. -/
def new (partition : PartitionKey) : MdnsHostnameMap := ⟨partition, ∅⟩

/-- Give an address a fresh name. -/
def register (mdns : MdnsHostnameMap) (newV4 : Uuid) (ip : IpAddr) : Text × MdnsHostnameMap :=
  let hostname := MdnsHostnameGenerator.generate newV4
  (hostname, { mdns with map := mdns.map.insert hostname ip })

/-- The address of a name, for its partition only. -/
def resolve (mdns : MdnsHostnameMap) (hostname : Text) (requestingPartition : PartitionKey) :
    Option IpAddr :=
  if requestingPartition ≠ mdns.partition then none else mdns.map.lookup hostname

end MdnsHostnameMap

/-! ### The filter -/

/-- How a candidate was found. -/
inductive IceCandidateType where
  /-- An address of this host. -/
  | host
  /-- The address a server sees. -/
  | serverReflexive
  /-- An address a server lends. -/
  | relayed
  /-- The address the peer sees. -/
  | peerReflexive
  deriving DecidableEq

/-- The transport of a candidate. -/
inductive IceTransport where
  /-- UDP. -/
  | udp
  /-- TCP. -/
  | tcp

/-- A candidate. -/
structure IceCandidate where
  /-- How it was found. -/
  candidateType : IceCandidateType
  /-- Its address. -/
  address : IpAddr
  /-- Its port. -/
  port : UInt16
  /-- The component it is for. -/
  component : UInt8
  /-- Its foundation. -/
  foundation : Text
  /-- Its priority. -/
  priority : UInt32
  /-- Its transport. -/
  transport : IceTransport

/-- What the page sees of a candidate. -/
inductive FilteredIceCandidate where
  /-- A host candidate, under its name. -/
  | mdns (hostname : Text) (port : UInt16) (component : UInt8) (foundation : Text)
      (priority : UInt32) (transport : IceTransport)
  /-- Any other candidate, as it is. -/
  | «public» (candidate : IceCandidate)

/-- Why a candidate is dropped. -/
inductive IceFilterReason where
  /-- An address of a local network. -/
  | privateAddress
  /-- An address of the host itself. -/
  | loopbackAddress
  /-- An address of the link. -/
  | linkLocalAddress
  /-- An address of many hosts. -/
  | multicastAddress
  /-- No address. -/
  | unspecifiedAddress
  /-- An address for examples. -/
  | documentationAddress
  /-- An address that is not in use. -/
  | reservedAddress

/-- What becomes of a candidate. -/
inductive FilterOutcome where
  /-- It is shown like this. -/
  | replace (candidate : FilteredIceCandidate)
  /-- It is not shown. -/
  | drop (reason : IceFilterReason)

/-- What becomes of a candidate that is not one of the host: it is shown if its address is
public. -/
def publicOnly (candidate : IceCandidate) : FilterOutcome :=
  match classify candidate.address with
  | .«public» => .replace (.«public» candidate)
  | .loopback => .drop .loopbackAddress
  | .linkLocal => .drop .linkLocalAddress
  | .«private» => .drop .privateAddress
  | .multicast => .drop .multicastAddress
  | .unspecified => .drop .unspecifiedAddress
  | .documentation => .drop .documentationAddress
  | .reserved => .drop .reservedAddress

/-- **The filter**, for a candidate and the identifier that is made if a name is needed. -/
def IceCandidateFilter.filter (candidate : IceCandidate) (newV4 : Uuid) (mdns : MdnsHostnameMap) :
    FilterOutcome × MdnsHostnameMap :=
  match candidate.candidateType with
  | .host =>
    let (hostname, mdns) := mdns.register newV4 candidate.address
    (.replace (.mdns hostname candidate.port candidate.component candidate.foundation
      candidate.priority candidate.transport), mdns)
  | .serverReflexive | .relayed | .peerReflexive => (publicOnly candidate, mdns)

/-! ### Addresses that are not public -/

/-- The blocks of IPv4 addresses that the reasons name. -/
def droppedV4Blocks : List Block :=
  nonPublicV4Blocks ++ [⟨[192, 0, 2, 0], 24⟩, ⟨[198, 51, 100, 0], 24⟩, ⟨[203, 0, 113, 0], 24⟩,
    ⟨[240, 0, 0, 0], 4⟩, ⟨[0, 0, 0, 0], 8⟩]

/-- The blocks of IPv6 addresses that the reasons name. -/
def droppedV6Blocks : List Block :=
  nonPublicV6Blocks ++ [⟨[0x20, 0x01, 0x0D, 0xB8] ++ List.replicate 12 0, 32⟩]

/-- An IPv4 address that the reasons name. -/
def DroppedV4 (v4 : Ipv4Addr) : Prop := ∃ block ∈ droppedV4Blocks, block.Contains v4.toList

instance (v4 : Ipv4Addr) : Decidable (DroppedV4 v4) :=
  inferInstanceAs (Decidable (∃ block ∈ droppedV4Blocks, block.Contains v4.toList))

/-- **An address that is not public**: one that the reasons name, or an IPv6 address that such an
IPv4 address is mapped to. -/
def NonPublic : IpAddr → Prop
  | .v4 v4 => DroppedV4 v4
  | .v6 v6 => (∃ block ∈ droppedV6Blocks, block.Contains v6.toList) ∨
      ∃ v4 : Ipv4Addr, v6 = v4.toIpv6Mapped ∧ DroppedV4 v4

/-- An address that the classes do not look into: one in `240.0.0.0/4`, the last one apart, or
an IPv6 address that an address the reasons name is mapped to. -/
def Overlooked : IpAddr → Prop
  | .v4 v4 => Block.Contains ⟨[240, 0, 0, 0], 4⟩ v4.toList ∧ Ipv4Addr.isBroadcast v4 = false
  | .v6 v6 => ∃ v4 : Ipv4Addr, v6 = v4.toIpv6Mapped ∧ DroppedV4 v4

theorem eq_ofNat (b : UInt8) (n : ℕ) (h : b.toNat = n) : b = .ofNat n := by
  rw [← h, UInt8.ofNat_toNat]

/-- The addresses above those for many hosts are taken to be public, the last one apart. -/
theorem classifyV4_of_le {a b c d : UInt8} (hge : 240 ≤ a.toNat)
    (hlast : Ipv4Addr.isBroadcast #v[a, b, c, d] = false) :
    classifyV4 #v[a, b, c, d] = .«public» := by
  have hne (n : UInt8) (hn : n.toNat < 240) : a ≠ n := by
    rintro rfl
    omega
  simp (disch := decide) only [classifyV4, ite_eq_public]
  refine ⟨fun h => ?_, fun h => ?_, fun h => ?_, fun h => ?_, fun h => ?_,
    Bool.eq_false_iff.mp hlast, fun h => ?_, fun h => ?_, fun h => ?_, trivial⟩
  · exact hne 0 (by decide) (congrArg (fun v : Ipv4Addr => v[0]) (of_decide_eq_true h))
  · exact hne 127 (by decide) (of_decide_eq_true h)
  · exact hne 169 (by decide) (of_decide_eq_true h).1
  · rcases of_decide_eq_true h with h | h | h
    · exact hne 10 (by decide) h
    · exact hne 172 (by decide) h.1
    · exact hne 192 (by decide) h.1
  · have hle : a.toNat ≤ 239 := (of_decide_eq_true h).2
    omega
  · rcases of_decide_eq_true h with h | h | h
    · exact hne 192 (by decide) h.1
    · exact hne 198 (by decide) h.1
    · exact hne 203 (by decide) h.1
  · exact hne 100 (by decide) h.1
  · exact hne 0 (by decide) h

/-- The IPv4 addresses that are taken to be public though the reasons name them. -/
theorem overlooked_v4_iff (v4 : Ipv4Addr) : Overlooked (.v4 v4) ↔
    classify (.v4 v4) = .«public» ∧ NonPublic (.v4 v4) := by
  obtain ⟨a, b, c, d, rfl⟩ := v4.exists_octets
  have ha := a.toNat_lt
  have hb := b.toNat_lt
  have hc := c.toNat_lt
  have hd := d.toNat_lt
  have hvalue : Bytes.value (#v[a, b, c, d] : Ipv4Addr).toList =
      ((a.toNat * 256 + b.toNat) * 256 + c.toNat) * 256 + d.toNat := Dns.value_quad a b c d
  constructor
  · rintro ⟨hblock, hlast⟩
    have hlead := (Block.contains_iff (m := 28) (n := 15) rfl (by decide)).mp hblock
    rw [hvalue] at hlead
    exact ⟨classifyV4_of_le (by omega) hlast, ⟨[240, 0, 0, 0], 4⟩, by decide, hblock⟩
  · rintro ⟨hclass, block, hblock, hmem⟩
    have hclass : classifyV4 #v[a, b, c, d] = .«public» := hclass
    have hin {m n : ℕ} (hbits : 8 * block.first.length - block.bits = m)
        (hfirst : Bytes.value block.first / 2 ^ m = n) :
        (((a.toNat * 256 + b.toNat) * 256 + c.toNat) * 256 + d.toNat) / 2 ^ m = n := by
      rw [← hvalue]
      exact (Block.contains_iff hbits hfirst).mp hmem
    rcases List.mem_append.mp hblock with hold | hnew
    · exact absurd ⟨block, hold, hmem⟩ (Dns.not_nonPublicV4 hclass)
    · clear hvalue hblock
      simp (disch := decide) only [classifyV4, ite_eq_public] at hclass
      obtain ⟨-, -, -, -, -, hbroadcast, hdocumentation, -, hzero, -⟩ := hclass
      simp only [List.mem_cons, List.not_mem_nil, or_false] at hnew
      rcases hnew with rfl | rfl | rfl | rfl | rfl
      · have hblock := hin (m := 8) (n := 0xC00002) rfl (by decide)
        refine absurd (decide_eq_true (.inl ⟨?_, ?_, ?_⟩)) hdocumentation
        · exact eq_ofNat a 192 (by omega)
        · exact eq_ofNat b 0 (by omega)
        · exact eq_ofNat c 2 (by omega)
      · have hblock := hin (m := 8) (n := 0xC63364) rfl (by decide)
        refine absurd (decide_eq_true (.inr (.inl ⟨?_, ?_, ?_⟩))) hdocumentation
        · exact eq_ofNat a 198 (by omega)
        · exact eq_ofNat b 51 (by omega)
        · exact eq_ofNat c 100 (by omega)
      · have hblock := hin (m := 8) (n := 0xCB0071) rfl (by decide)
        refine absurd (decide_eq_true (.inr (.inr ⟨?_, ?_, ?_⟩))) hdocumentation
        · exact eq_ofNat a 203 (by omega)
        · exact eq_ofNat b 0 (by omega)
        · exact eq_ofNat c 113 (by omega)
      · exact ⟨hmem, Bool.eq_false_iff.mpr hbroadcast⟩
      · have hblock := hin (m := 24) (n := 0) rfl (by decide)
        exact absurd (eq_ofNat a 0 (by omega)) hzero

/-- The class of an address that an IPv4 address is mapped to is the public one. -/
theorem classifyV6_toIpv6Mapped (v4 : Ipv4Addr) : classifyV6 v4.toIpv6Mapped = .«public» := by
  have hne (u : Ipv6Addr) (hu : u[10] ≠ 0xFF) : v4.toIpv6Mapped ≠ u := by
    rintro rfl
    exact hu rfl
  simp (disch := decide) only [classifyV6, ite_eq_public]
  refine ⟨fun h => ?_, fun h => ?_, ?_⟩
  · exact hne (Vector.replicate 16 0) (by decide) (of_decide_eq_true h)
  · exact hne ((Vector.replicate 15 0).push 1) (by simp) (of_decide_eq_true h)
  · have h₀ : Ipv6Addr.segment₀ v4.toIpv6Mapped = Bytes.u16 0 0 := rfl
    have h₁ : Ipv6Addr.segment₁ v4.toIpv6Mapped = Bytes.u16 0 0 := rfl
    rw [Ipv6Addr.isMulticast, h₀, h₁]
    decide

/-- The IPv6 addresses that are taken to be public though they are not. -/
theorem overlooked_v6_iff (v6 : Ipv6Addr) : Overlooked (.v6 v6) ↔
    classify (.v6 v6) = .«public» ∧ NonPublic (.v6 v6) := by
  constructor
  · rintro ⟨v4, rfl, hv4⟩
    exact ⟨classifyV6_toIpv6Mapped v4, .inr ⟨v4, rfl, hv4⟩⟩
  · rintro ⟨hclass, ⟨block, hblock, hmem⟩ | hmapped⟩
    · have hclass : classifyV6 v6 = .«public» := hclass
      rcases List.mem_append.mp hblock with hold | hnew
      · exact absurd ⟨block, hold, hmem⟩ (Dns.not_nonPublicV6 hclass)
      · obtain rfl := List.mem_singleton.mp hnew
        obtain ⟨⟨octets⟩, hsize⟩ := v6
        obtain ⟨a, b, c, d, rest, rfl⟩ : ∃ a b c d rest, octets = a :: b :: c :: d :: rest := by
          match octets, hsize with
          | a :: b :: c :: d :: rest, _ => exact ⟨a, b, c, d, rest, rfl⟩
        have hrest : rest.length = 12 := by simpa using hsize
        have hlead : Bytes.value [a, b, c, d] = 0x20010DB8 := by
          have hpow : 2 ^ 96 = 256 ^ rest.length := by rw [hrest]; rfl
          have hdiv : Bytes.value ([a, b, c, d] ++ rest) / 2 ^ 96 = 0x20010DB8 :=
            (Block.contains_iff (m := 96) rfl (by decide)).mp hmem
          rwa [hpow, Bytes.value_append_div] at hdiv
        rw [Dns.value_quad] at hlead
        have ha := a.toNat_lt
        have hb := b.toNat_lt
        have hc := c.toNat_lt
        have hd := d.toNat_lt
        obtain rfl := eq_ofNat a 0x20 (by omega)
        obtain rfl := eq_ofNat b 0x01 (by omega)
        obtain rfl := eq_ofNat c 0x0D (by omega)
        obtain rfl := eq_ofNat d 0xB8 (by omega)
        simp (disch := decide) only [classifyV6, ite_eq_public] at hclass
        obtain ⟨-, -, -, -, -, hdocumentation, -⟩ := hclass
        have hwords : Bytes.u16 (.ofNat 0x20) (.ofNat 0x01) = 0x2001 ∧
            Bytes.u16 (.ofNat 0x0D) (.ofNat 0xB8) = 0x0DB8 := by decide
        exact absurd hwords hdocumentation
    · exact hmapped

theorem overlooked_iff (addr : IpAddr) :
    Overlooked addr ↔ classify addr = .«public» ∧ NonPublic addr := by
  cases addr with
  | v4 v4 => exact overlooked_v4_iff v4
  | v6 v6 => exact overlooked_v6_iff v6

/-! ### Sequences of candidates -/

namespace MdnsHostnameMap

/-- Give addresses fresh names, one after the other. -/
def registerAll (mdns : MdnsHostnameMap) (registrations : List (Uuid × IpAddr)) :
    MdnsHostnameMap :=
  registrations.foldl (fun mdns r => (mdns.register r.1 r.2).2) mdns

/-- The identifiers are fresh: no two of them are the same, and none has a name in the map. -/
structure Fresh (mdns : MdnsHostnameMap) (registrations : List (Uuid × IpAddr)) : Prop where
  /-- No two are the same. -/
  nodup : (registrations.map Prod.fst).Nodup
  /-- None has a name already. -/
  notMem : ∀ r ∈ registrations, MdnsHostnameGenerator.generate r.1 ∉ mdns.map

end MdnsHostnameMap

/-- **Filter candidates**, one after the other, each with the identifier that is made if a name is
needed. -/
def filterAll (mdns : MdnsHostnameMap) :
    List (IceCandidate × Uuid) → List FilterOutcome × MdnsHostnameMap
  | [] => ([], mdns)
  | (candidate, newV4) :: calls =>
    let (outcome, mdns) := IceCandidateFilter.filter candidate newV4 mdns
    let (outcomes, mdns) := filterAll mdns calls
    (outcome :: outcomes, mdns)

/-- The names that are given on the way: one to each host candidate. -/
def registrations (calls : List (IceCandidate × Uuid)) : List (Uuid × IpAddr) :=
  (calls.filter fun call => call.1.candidateType = .host).map fun call => (call.2, call.1.address)

/-- The candidates differ in their addresses at most, and only if they are host candidates. -/
def SameButHost (c c' : IceCandidate) : Prop :=
  c' = { c with address := c'.address } ∧ (c.candidateType ≠ .host → c'.address = c.address)

/-- An outcome under other names. -/
def FilterOutcome.rename (ρ : Equiv.Perm Text) : FilterOutcome → FilterOutcome
  | .replace (.mdns hostname port component foundation priority transport) =>
    .replace (.mdns (ρ hostname) port component foundation priority transport)
  | outcome => outcome

/-- **The addresses of the host stay hidden.** -/
structure HidesLocal (mdns : MdnsHostnameMap) (calls : List (IceCandidate × Uuid)) : Prop where
  /-- Candidates that differ in the addresses of host candidates only are shown alike. -/
  alike : ∀ (mdns' : MdnsHostnameMap) (calls' : List (IceCandidate × Uuid)),
    mdns'.Fresh (registrations calls') →
    List.Forall₂ SameButHost (calls.map Prod.fst) (calls'.map Prod.fst) →
    ∃ ρ : Equiv.Perm Text,
      (filterAll mdns' calls').1 = (filterAll mdns calls).1.map (FilterOutcome.rename ρ)
  /-- A host candidate is shown under a name that no address had, and whatever is registered
  after it the name is resolved to its address, for the partition of the map and for no other. -/
  resolves : ∀ before c newV4 after, calls = before ++ (c, newV4) :: after →
    c.candidateType = .host → ∃ hostname,
      (filterAll mdns calls).1[before.length]? = some (.replace
        (.mdns hostname c.port c.component c.foundation c.priority c.transport)) ∧
      hostname ∉ (filterAll mdns before).2.map ∧
      ∀ later, mdns.Fresh (registrations (before ++ [(c, newV4)]) ++ later) → ∀ partition,
        ((filterAll mdns (before ++ [(c, newV4)])).2.registerAll later).resolve hostname
          partition = if partition = mdns.partition then some c.address else none
  /-- The addresses that are shown are public. -/
  «public» : ∀ c, .replace (.«public» c) ∈ (filterAll mdns calls).1 → ¬ NonPublic c.address

/-! ### One candidate -/

open IceCandidateFilter (filter)

open MdnsHostnameGenerator (generate)

variable {c c' : IceCandidate} {u u' : Uuid} {mdns mdns' : MdnsHostnameMap}
  {calls calls' : List (IceCandidate × Uuid)}

theorem generate_injective : Function.Injective generate := fun _ _ h =>
  Uuid.hyphenated_injective (List.append_cancel_right h)

/-- A host candidate is shown under a fresh name. -/
theorem filter_host (h : c.candidateType = .host) : filter c u mdns =
    (.replace (.mdns (generate u) c.port c.component c.foundation c.priority c.transport),
      (mdns.register u c.address).2) := by
  rw [filter, h]
  rfl

/-- **Any other candidate is shown or dropped**, whatever names there are. -/
theorem filter_of_ne_host (h : c.candidateType ≠ .host) :
    filter c u mdns = (publicOnly c, mdns) := by
  rw [filter]
  cases htype : c.candidateType with
  | host => exact absurd htype h
  | serverReflexive | relayed | peerReflexive => rfl

/-- No name is shown with it. -/
theorem rename_publicOnly (ρ : Equiv.Perm Text) : (publicOnly c).rename ρ = publicOnly c := by
  rw [publicOnly]
  cases classify c.address <;> rfl

/-- It is shown if the class of its address is the public one. -/
theorem publicOnly_eq_public_iff : publicOnly c = .replace (.«public» c') ↔
    classify c.address = .«public» ∧ c = c' := by
  rw [publicOnly]
  cases classify c.address <;> simp

/-- What is shown does not depend on the names there are. -/
theorem filter_fst : (filter c u mdns).1 = (filter c u mdns').1 := by
  by_cases h : c.candidateType = .host
  · rw [filter_host h, filter_host h]
  · rw [filter_of_ne_host h, filter_of_ne_host h]

/-- The addresses that are shown are those the classes take to be public. -/
theorem filter_eq_public_iff : (filter c u mdns).1 = .replace (.«public» c') ↔
    c.candidateType ≠ .host ∧ classify c.address = .«public» ∧ c = c' := by
  by_cases h : c.candidateType = .host
  · rw [filter_host h]
    exact iff_of_false nofun fun hne => hne.1 h
  · rw [filter_of_ne_host h, publicOnly_eq_public_iff, and_iff_right h]

/-! ### All candidates -/

theorem filterAll_fst (mdns mdns' : MdnsHostnameMap) (calls : List (IceCandidate × Uuid)) :
    (filterAll mdns calls).1 = calls.map fun call => (filter call.1 call.2 mdns').1 := by
  induction calls generalizing mdns with
  | nil => rfl
  | cons call calls ih =>
    show (filter call.1 call.2 mdns).1 :: (filterAll (filter call.1 call.2 mdns).2 calls).1 = _
    rw [ih, filter_fst]
    rfl

theorem registrations_cons_host (h : c.candidateType = .host) :
    registrations ((c, u) :: calls) = (u, c.address) :: registrations calls := by
  rw [registrations, List.filter_cons_of_pos (by simpa using h)]
  rfl

theorem registrations_cons_of_ne_host (h : c.candidateType ≠ .host) :
    registrations ((c, u) :: calls) = registrations calls := by
  rw [registrations, List.filter_cons_of_neg (by simpa using h)]
  rfl

/-- To filter candidates is to register the addresses of those of the host. -/
theorem filterAll_snd (mdns : MdnsHostnameMap) (calls : List (IceCandidate × Uuid)) :
    (filterAll mdns calls).2 = mdns.registerAll (registrations calls) := by
  induction calls generalizing mdns with
  | nil => rfl
  | cons call calls ih =>
    obtain ⟨c, u⟩ := call
    show (filterAll (filter c u mdns).2 calls).2 = _
    rw [ih]
    by_cases h : c.candidateType = .host
    · rw [filter_host h, registrations_cons_host h]
      rfl
    · rw [filter_of_ne_host h, registrations_cons_of_ne_host h]

theorem registrations_append (calls calls' : List (IceCandidate × Uuid)) :
    registrations (calls ++ calls') = registrations calls ++ registrations calls' := by
  rw [registrations, List.filter_append, List.map_append]
  rfl

/-! ### Names -/

/-- The names that are given. -/
def names (registrations : List (Uuid × IpAddr)) : List Text :=
  registrations.map fun r => generate r.1

theorem length_names (calls : List (IceCandidate × Uuid)) :
    (names (registrations calls)).length =
      (calls.map fun call => call.1.candidateType).countP (· = .host) := by
  rw [names, List.length_map, registrations, List.length_map, List.countP_map,
    List.countP_eq_length_filter]
  rfl

theorem MdnsHostnameMap.Fresh.nodup_names {registrations : List (Uuid × IpAddr)}
    (h : mdns.Fresh registrations) : (names registrations).Nodup := by
  have hnames : names registrations = (registrations.map Prod.fst).map generate := by
    rw [List.map_map]
    rfl
  rw [hnames]
  exact h.nodup.map generate_injective

/-- **Candidates that differ in the addresses of host candidates are shown alike**, under the
names that are given instead. -/
theorem outcomes_rename {ρ : Equiv.Perm Text}
    (hsame : List.Forall₂ SameButHost (calls.map Prod.fst) (calls'.map Prod.fst))
    (hnames : (names (registrations calls)).map ρ = names (registrations calls')) :
    (filterAll mdns' calls').1 = (filterAll mdns calls).1.map (FilterOutcome.rename ρ) := by
  rw [filterAll_fst mdns' mdns, filterAll_fst mdns mdns]
  induction calls generalizing calls' with
  | nil =>
    cases calls' with
    | nil => rfl
    | cons call' calls' => cases hsame
  | cons call calls ih =>
    obtain ⟨c, u⟩ := call
    cases calls' with
    | nil => cases hsame
    | cons call' calls' =>
      obtain ⟨c', u'⟩ := call'
      obtain ⟨hhead, hrest⟩ := List.forall₂_cons.mp hsame
      obtain ⟨hc, haddress⟩ : SameButHost c c' := hhead
      have htype : c'.candidateType = c.candidateType := by rw [hc]
      by_cases h : c.candidateType = .host
      · rw [registrations_cons_host h, registrations_cons_host (htype.trans h)] at hnames
        obtain ⟨hname, hnames⟩ := List.cons_eq_cons.mp hnames
        refine congrArg₂ (· :: ·) ?_ (ih hrest hnames)
        show (filter c' u' mdns).1 = ((filter c u mdns).1.rename ρ)
        rw [filter_host h, filter_host (htype.trans h), FilterOutcome.rename, hname, hc]
      · have heq : c' = c := by rw [hc, haddress h]
        subst heq
        rw [registrations_cons_of_ne_host h, registrations_cons_of_ne_host h] at hnames
        refine congrArg₂ (· :: ·) ?_ (ih hrest hnames)
        show (filter c' u' mdns).1 = ((filter c' u mdns).1.rename ρ)
        rw [filter_of_ne_host h, filter_of_ne_host h, rename_publicOnly]

namespace MdnsHostnameMap

variable {hostname : Text} {partition : PartitionKey} {regs : List (Uuid × IpAddr)}

theorem partition_registerAll : (mdns.registerAll regs).partition = mdns.partition := by
  induction regs generalizing mdns with
  | nil => rfl
  | cons r regs ih => exact ih

/-- **Registering leaves other names as they are.** -/
theorem lookup_registerAll_of_notMem (h : hostname ∉ names regs) :
    (mdns.registerAll regs).map.lookup hostname = mdns.map.lookup hostname := by
  induction regs generalizing mdns with
  | nil => rfl
  | cons r regs ih =>
    rw [names, List.map_cons, List.mem_cons, not_or] at h
    exact (ih h.2).trans (AList.lookup_insert_ne h.1)

/-- A fresh name is not in the map, whatever was registered before. -/
theorem notMem_registerAll (hnames : hostname ∉ names regs) (h : hostname ∉ mdns.map) :
    hostname ∉ (mdns.registerAll regs).map := by
  rw [← AList.lookup_eq_none] at h ⊢
  exact (lookup_registerAll_of_notMem hnames).trans h

/-- **A name that is registered is resolved**, for the partition of the map only. -/
theorem resolve_registerAll {ip : IpAddr} (h : hostname ∉ names regs)
    (hlookup : mdns.map.lookup hostname = some ip) :
    (mdns.registerAll regs).resolve hostname partition =
      if partition = mdns.partition then some ip else none := by
  rw [resolve, partition_registerAll, lookup_registerAll_of_notMem h, hlookup, ite_not]

end MdnsHostnameMap

/-! ### What is hidden -/

theorem alike_of_fresh (h : mdns.Fresh (registrations calls))
    (h' : mdns'.Fresh (registrations calls'))
    (hsame : List.Forall₂ SameButHost (calls.map Prod.fst) (calls'.map Prod.fst)) :
    ∃ ρ : Equiv.Perm Text,
      (filterAll mdns' calls').1 = (filterAll mdns calls).1.map (FilterOutcome.rename ρ) := by
  have htypes : calls.map (fun call => call.1.candidateType) =
      calls'.map fun call => call.1.candidateType := by
    rw [← List.forall₂_eq_eq_eq, List.forall₂_map_left_iff, List.forall₂_map_right_iff]
    rw [List.forall₂_map_left_iff, List.forall₂_map_right_iff] at hsame
    refine hsame.imp fun call call' h => ?_
    rw [h.1]
  have hlen : (names (registrations calls)).length = (names (registrations calls')).length := by
    rw [length_names, length_names, htypes]
  obtain ⟨ρ, hρ⟩ := List.exists_perm_map_eq hlen h.nodup_names h'.nodup_names
  exact ⟨ρ, outcomes_rename hsame hρ⟩

theorem resolves_of_fresh {before after : List (IceCandidate × Uuid)}
    (hfresh : mdns.Fresh (registrations (before ++ (c, u) :: after)))
    (hhost : c.candidateType = .host) :
    ∃ hostname,
      (filterAll mdns (before ++ (c, u) :: after)).1[before.length]? = some (.replace
        (.mdns hostname c.port c.component c.foundation c.priority c.transport)) ∧
      hostname ∉ (filterAll mdns before).2.map ∧
      ∀ later, mdns.Fresh (registrations (before ++ [(c, u)]) ++ later) → ∀ partition,
        ((filterAll mdns (before ++ [(c, u)])).2.registerAll later).resolve hostname partition =
          if partition = mdns.partition then some c.address else none := by
  have hregs : registrations (before ++ [(c, u)]) = registrations before ++ [(u, c.address)] := by
    rw [registrations_append, registrations_cons_host hhost]
    rfl
  refine ⟨generate u, ?_, ?_, fun later hlater partition => ?_⟩
  · rw [filterAll_fst mdns mdns, List.map_append, List.map_cons,
      List.getElem?_append_right (by simp)]
    simp [filter_host hhost]
  · rw [registrations_append, registrations_cons_host hhost] at hfresh
    rw [filterAll_snd]
    refine MdnsHostnameMap.notMem_registerAll ?_
      (hfresh.notMem _ (List.mem_append_right _ List.mem_cons_self))
    have hnodup := hfresh.nodup_names
    rw [names, List.map_append, List.map_cons, List.nodup_append] at hnodup
    exact fun hmem => hnodup.2.2 _ hmem _ List.mem_cons_self rfl
  · rw [hregs] at hlater
    rw [filterAll_snd, hregs]
    have hnodup := hlater.nodup_names
    rw [names, List.map_append, List.nodup_append] at hnodup
    have hlast : generate u ∈ (registrations before ++ [(u, c.address)]).map
        fun r => generate r.1 := List.mem_map.mpr ⟨(u, c.address), by simp, rfl⟩
    have hnot : generate u ∉ names later := fun hmem => hnodup.2.2 _ hlast _ hmem rfl
    have hlookup : (mdns.registerAll (registrations before ++ [(u, c.address)])).map.lookup
        (generate u) = some c.address := by
      rw [MdnsHostnameMap.registerAll, List.foldl_append]
      exact AList.lookup_insert _
    rw [MdnsHostnameMap.resolve_registerAll hnot hlookup, MdnsHostnameMap.partition_registerAll]

/-- **What is shown of the candidates.** The addresses of the host stay hidden exactly if no
other candidate has an address the classes do not look into. -/
theorem hidesLocal_iff (hfresh : mdns.Fresh (registrations calls)) :
    HidesLocal mdns calls ↔
      ∀ call ∈ calls, call.1.candidateType ≠ .host → ¬ Overlooked call.1.address := by
  constructor
  · intro h call hcall hne hover
    obtain ⟨hclass, hnonPublic⟩ := (overlooked_iff call.1.address).mp hover
    refine h.«public» call.1 ?_ hnonPublic
    rw [filterAll_fst mdns mdns]
    exact List.mem_map.mpr ⟨call, hcall, filter_eq_public_iff.mpr ⟨hne, hclass, rfl⟩⟩
  · intro h
    refine ⟨fun mdns' calls' h' hsame => alike_of_fresh hfresh h' hsame, ?_, ?_⟩
    · rintro before c u after rfl hhost
      exact resolves_of_fresh hfresh hhost
    · intro c hc hnonPublic
      rw [filterAll_fst mdns mdns] at hc
      obtain ⟨call, hcall, hshown⟩ := List.mem_map.mp hc
      obtain ⟨hne, hclass, rfl⟩ := filter_eq_public_iff.mp hshown
      exact h call hcall hne ((overlooked_iff call.1.address).mpr ⟨hclass, hnonPublic⟩)

/-- A candidate with an address. -/
def sampleCandidate (candidateType : IceCandidateType) (address : IpAddr) : IceCandidate :=
  ⟨candidateType, address, 9, 1, "1".toList, 1, .udp⟩

/-- The map of a partition. -/
def sampleMdns : MdnsHostnameMap := .new ⟨Vector.replicate 32 0⟩

/-- The address of a host on a local network is shown as a name, the one a server sees as it is. -/
theorem hidesLocal_host : HidesLocal sampleMdns
    [(sampleCandidate .host (.v4 #v[192, 168, 0, 1]), .splat 1),
      (sampleCandidate .serverReflexive (.v4 #v[93, 184, 216, 34]), .splat 2)] := by
  have hfresh : sampleMdns.Fresh (registrations
      [(sampleCandidate .host (.v4 #v[192, 168, 0, 1]), .splat 1),
        (sampleCandidate .serverReflexive (.v4 #v[93, 184, 216, 34]), .splat 2)]) :=
    ⟨List.nodup_singleton _, fun _ _ => AList.notMem_empty _⟩
  refine (hidesLocal_iff hfresh).mpr fun call hcall hne => ?_
  simp only [List.mem_cons, List.not_mem_nil, or_false] at hcall
  rcases hcall with rfl | rfl
  · exact absurd rfl hne
  · exact fun h => absurd h.1 (by decide)

/-- **Addresses that are not public are shown.** Of the candidates a server found, neither the
reserved address `240.0.0.1` is dropped nor `::ffff:192.168.0.1`, though `192.168.0.1` is. -/
theorem not_hidesLocal :
    (filterAll sampleMdns
      [(sampleCandidate .serverReflexive (.v4 #v[192, 168, 0, 1]), .splat 1)]).1 =
        [.drop .privateAddress] ∧
    (∀ addr ∈ [IpAddr.v4 #v[240, 0, 0, 1], .v6 (Ipv4Addr.toIpv6Mapped #v[192, 168, 0, 1])],
      (filterAll sampleMdns [(sampleCandidate .serverReflexive addr, .splat 1)]).1 =
        [.replace (.«public» (sampleCandidate .serverReflexive addr))] ∧ NonPublic addr ∧
      ¬ HidesLocal sampleMdns [(sampleCandidate .serverReflexive addr, .splat 1)]) := by
  refine ⟨rfl, fun addr haddr => ?_⟩
  have hshown : classify addr = .«public» ∧ NonPublic addr := by
    refine (overlooked_iff addr).mp ?_
    simp only [List.mem_cons, List.not_mem_nil, or_false] at haddr
    rcases haddr with rfl | rfl
    · exact ⟨by decide, by decide⟩
    · exact ⟨#v[192, 168, 0, 1], rfl, by decide +kernel⟩
  have hout : (filterAll sampleMdns [(sampleCandidate .serverReflexive addr, .splat 1)]).1 =
      [.replace (.«public» (sampleCandidate .serverReflexive addr))] := by
    rw [filterAll_fst sampleMdns sampleMdns]
    exact congrArg (fun o => [o]) (filter_eq_public_iff.mpr ⟨nofun, hshown.1, rfl⟩)
  refine ⟨hout, hshown.2, fun h => h.«public» (sampleCandidate .serverReflexive addr) ?_ hshown.2⟩
  rw [hout]
  exact List.mem_singleton_self _

end Network

end DevBrowse
