import DevBrowse.Dns.Resolver
import DevBrowse.Lib.Bytes

/-!
# The rebinding filter

A public name that resolves to an address of the local network would let a page reach into
it, so every address of an answer is classified and only public ones are let through.

The classes are tests on the octets of an address. What they are to cover is said with
address blocks instead, numbers with the same leading bits (`NonPublicV4`, `NonPublicV6`):
an address that the filter takes to be public is in none of them. An IPv4 address can also
be written as an IPv6 address (`Ipv4Addr.toIpv6Mapped`), and these the filter does not look
into.
-/

namespace DevBrowse

namespace Dns

/-! ### Classes of addresses -/

namespace Ipv4Addr

/-- `0.0.0.0`. -/
def isUnspecified (addr : Ipv4Addr) : Bool := addr = #v[0, 0, 0, 0]

/-- `127.0.0.0/8`. -/
def isLoopback (addr : Ipv4Addr) : Bool := addr[0] = 127

/-- `169.254.0.0/16`. -/
def isLinkLocal (addr : Ipv4Addr) : Bool := addr[0] = 169 ∧ addr[1] = 254

/-- `10.0.0.0/8`, `172.16.0.0/12` and `192.168.0.0/16`. -/
def isPrivate (addr : Ipv4Addr) : Bool :=
  addr[0] = 10 ∨ addr[0] = 172 ∧ 16 ≤ addr[1].toNat ∧ addr[1].toNat ≤ 31 ∨
    addr[0] = 192 ∧ addr[1] = 168

/-- `224.0.0.0/4`. -/
def isMulticast (addr : Ipv4Addr) : Bool := 224 ≤ addr[0].toNat ∧ addr[0].toNat ≤ 239

/-- `255.255.255.255`. -/
def isBroadcast (addr : Ipv4Addr) : Bool := addr = #v[255, 255, 255, 255]

/-- `192.0.2.0/24`, `198.51.100.0/24` and `203.0.113.0/24`. -/
def isDocumentation (addr : Ipv4Addr) : Bool :=
  addr[0] = 192 ∧ addr[1] = 0 ∧ addr[2] = 2 ∨ addr[0] = 198 ∧ addr[1] = 51 ∧ addr[2] = 100 ∨
    addr[0] = 203 ∧ addr[1] = 0 ∧ addr[2] = 113

end Ipv4Addr

namespace Ipv6Addr

/-- `::`. -/
def isUnspecified (addr : Ipv6Addr) : Bool := addr = Vector.replicate 16 0

/-- `::1`. -/
def isLoopback (addr : Ipv6Addr) : Bool := addr = (Vector.replicate 15 0).push 1

/-- The first of the eight segments. -/
def segment₀ (addr : Ipv6Addr) : UInt16 := Bytes.u16 addr[0] addr[1]

/-- The second of the eight segments. -/
def segment₁ (addr : Ipv6Addr) : UInt16 := Bytes.u16 addr[2] addr[3]

/-- `ff00::/8`. -/
def isMulticast (addr : Ipv6Addr) : Bool := segment₀ addr &&& 0xFF00 = 0xFF00

end Ipv6Addr

/-- An address. -/
inductive IpAddr where
  /-- An IPv4 address. -/
  | v4 (addr : Ipv4Addr)
  /-- An IPv6 address. -/
  | v6 (addr : Ipv6Addr)

/-- The class of an address. -/
inductive AddressClass where
  /-- Anything else. -/
  | «public»
  /-- The host itself. -/
  | loopback
  /-- The link. -/
  | linkLocal
  /-- A private network. -/
  | «private»
  /-- A group of hosts. -/
  | multicast
  /-- No address yet. -/
  | unspecified
  /-- Addresses for examples. -/
  | documentation
  /-- Addresses not in use. -/
  | reserved
  deriving DecidableEq

/-- Whether the filter rejects a class. -/
def AddressClass.isRejected (c : AddressClass) : Bool := c ≠ .«public»

/-- The class of an IPv4 address. -/
def classifyV4 (v4 : Ipv4Addr) : AddressClass :=
  if Ipv4Addr.isUnspecified v4 then .unspecified
  else if Ipv4Addr.isLoopback v4 then .loopback
  else if Ipv4Addr.isLinkLocal v4 then .linkLocal
  else if Ipv4Addr.isPrivate v4 then .«private»
  else if Ipv4Addr.isMulticast v4 then .multicast
  else if Ipv4Addr.isBroadcast v4 then .reserved
  else if Ipv4Addr.isDocumentation v4 then .documentation
  -- carrier-grade NAT, for which the standard library has no test
  else if v4[0] = 100 ∧ 64 ≤ v4[1].toNat ∧ v4[1].toNat ≤ 127 then .«private»
  else if v4[0] = 0 then .reserved
  else .«public»

/-- The class of an IPv6 address. -/
def classifyV6 (v6 : Ipv6Addr) : AddressClass :=
  if Ipv6Addr.isUnspecified v6 then .unspecified
  else if Ipv6Addr.isLoopback v6 then .loopback
  else if Ipv6Addr.isMulticast v6 then .multicast
  else if Ipv6Addr.segment₀ v6 &&& 0xFFC0 = 0xFE80 then .linkLocal
  else if Ipv6Addr.segment₀ v6 &&& 0xFE00 = 0xFC00 then .«private»
  else if Ipv6Addr.segment₀ v6 = 0x2001 ∧ Ipv6Addr.segment₁ v6 = 0x0DB8 then .documentation
  else .«public»

/-- The class of an address. -/
def classify : IpAddr → AddressClass
  | .v4 v4 => classifyV4 v4
  | .v6 v6 => classifyV6 v6

/-- Whether an address may be exposed. -/
def isPublic (addr : IpAddr) : Bool := !(classify addr).isRejected

/-! ### Address blocks -/

/-- A block of addresses: the bytes of its first one, and how many leading bits all of them
share. -/
structure Block where
  /-- The first address. -/
  first : List UInt8
  /-- The number of leading bits. -/
  bits : ℕ
  deriving DecidableEq

/-- The addresses of a block, as their bytes. -/
def Block.Contains (block : Block) (addr : List UInt8) : Prop :=
  Bytes.value addr / 2 ^ (8 * block.first.length - block.bits) =
    Bytes.value block.first / 2 ^ (8 * block.first.length - block.bits)

instance (block : Block) (addr : List UInt8) : Decidable (block.Contains addr) :=
  inferInstanceAs (Decidable (_ = _))

/-- The blocks of IPv4 addresses that no public name is to resolve to: unspecified, loopback,
private, carrier-grade NAT, link-local, multicast, broadcast. -/
def nonPublicV4Blocks : List Block :=
  [⟨[0, 0, 0, 0], 32⟩, ⟨[127, 0, 0, 0], 8⟩, ⟨[10, 0, 0, 0], 8⟩, ⟨[172, 16, 0, 0], 12⟩,
    ⟨[192, 168, 0, 0], 16⟩, ⟨[100, 64, 0, 0], 10⟩, ⟨[169, 254, 0, 0], 16⟩,
    ⟨[224, 0, 0, 0], 4⟩, ⟨[255, 255, 255, 255], 32⟩]

/-- The blocks of IPv6 addresses that no public name is to resolve to: unspecified, loopback,
link-local, multicast, unique-local. -/
def nonPublicV6Blocks : List Block :=
  [⟨List.replicate 16 0, 128⟩, ⟨List.replicate 15 0 ++ [1], 128⟩,
    ⟨0xFE :: 0x80 :: List.replicate 14 0, 10⟩, ⟨0xFF :: List.replicate 15 0, 8⟩,
    ⟨0xFC :: List.replicate 15 0, 7⟩]

/-- An IPv4 address that is not public. -/
def NonPublicV4 (v4 : Ipv4Addr) : Prop := ∃ block ∈ nonPublicV4Blocks, block.Contains v4.toList

/-- An IPv6 address that is not public. -/
def NonPublicV6 (v6 : Ipv6Addr) : Prop := ∃ block ∈ nonPublicV6Blocks, block.Contains v6.toList

/-- The IPv6 address an IPv4 address is mapped to, `::ffff:a.b.c.d`. -/
def Ipv4Addr.toIpv6Mapped (v4 : Ipv4Addr) : Ipv6Addr :=
  #v[0, 0, 0, 0, 0, 0, 0, 0, 0, 0, 0xFF, 0xFF, v4[0], v4[1], v4[2], v4[3]]

/-! ### What the filter lets through -/

theorem Ipv4Addr.exists_octets (v4 : Ipv4Addr) : ∃ a b c d, v4 = #v[a, b, c, d] := by
  obtain ⟨⟨octets⟩, hsize⟩ := v4
  obtain ⟨a, b, c, d, rfl⟩ : ∃ a b c d, octets = [a, b, c, d] := by
    match octets, hsize with
    | [a, b, c, d], _ => exact ⟨a, b, c, d, rfl⟩
  exact ⟨a, b, c, d, rfl⟩

theorem value_quad (a b c d : UInt8) :
    Bytes.value [a, b, c, d] = ((a.toNat * 256 + b.toNat) * 256 + c.toNat) * 256 + d.toNat := by
  simp [Bytes.value, Nat.ofDigits_cons]
  omega

/-- A chain of tests that ends in the public class is passed by failing them all. -/
theorem ite_eq_public {c : Prop} [Decidable c] {x y : AddressClass} (hx : x ≠ .«public») :
    (if c then x else y) = .«public» ↔ ¬ c ∧ y = .«public» := by
  by_cases hc : c
  · simp [hc, hx]
  · simp [hc]

/-- What the octets of a public IPv4 address are not. -/
structure PublicOctets (a b c d : UInt8) : Prop where
  /-- Not in `0.0.0.0/8`. -/
  zero : a.toNat ≠ 0
  /-- Not in `127.0.0.0/8`. -/
  loopback : a.toNat ≠ 127
  /-- Not in `169.254.0.0/16`. -/
  linkLocal : ¬ (a.toNat = 169 ∧ b.toNat = 254)
  /-- Not in `10.0.0.0/8`. -/
  ten : a.toNat ≠ 10
  /-- Not in `172.16.0.0/12`. -/
  sixteen : ¬ (a.toNat = 172 ∧ 16 ≤ b.toNat ∧ b.toNat ≤ 31)
  /-- Not in `192.168.0.0/16`. -/
  home : ¬ (a.toNat = 192 ∧ b.toNat = 168)
  /-- Not in `224.0.0.0/4`. -/
  multicast : ¬ (224 ≤ a.toNat ∧ a.toNat ≤ 239)
  /-- Not `255.255.255.255`. -/
  broadcast : ¬ (a.toNat = 255 ∧ b.toNat = 255 ∧ c.toNat = 255 ∧ d.toNat = 255)
  /-- Not in `100.64.0.0/10`. -/
  shared : ¬ (a.toNat = 100 ∧ 64 ≤ b.toNat ∧ b.toNat ≤ 127)

theorem publicOctets_of_classifyV4 {a b c d : UInt8}
    (h : classifyV4 #v[a, b, c, d] = .«public») : PublicOctets a b c d := by
  simp (disch := decide) only [classifyV4, ite_eq_public] at h
  obtain ⟨-, hloopback, hlink, hprivate, hmulticast, hbroadcast, -, hshared, hzero, -⟩ := h
  exact {
    zero ha := hzero (UInt8.toNat_inj.mp ha)
    loopback ha := hloopback (decide_eq_true (UInt8.toNat_inj.mp ha))
    linkLocal ha :=
      hlink (decide_eq_true ⟨UInt8.toNat_inj.mp ha.1, UInt8.toNat_inj.mp ha.2⟩)
    ten ha := hprivate (decide_eq_true (.inl (UInt8.toNat_inj.mp ha)))
    sixteen ha := hprivate (decide_eq_true (.inr (.inl ⟨UInt8.toNat_inj.mp ha.1, ha.2⟩)))
    home ha := hprivate (decide_eq_true
      (.inr (.inr ⟨UInt8.toNat_inj.mp ha.1, UInt8.toNat_inj.mp ha.2⟩)))
    multicast ha := hmulticast (decide_eq_true ha)
    broadcast ha := by
      obtain ⟨h₀, h₁, h₂, h₃⟩ := ha
      obtain rfl : a = 255 := UInt8.toNat_inj.mp h₀
      obtain rfl : b = 255 := UInt8.toNat_inj.mp h₁
      obtain rfl : c = 255 := UInt8.toNat_inj.mp h₂
      obtain rfl : d = 255 := UInt8.toNat_inj.mp h₃
      exact hbroadcast rfl
    shared ha := hshared ⟨UInt8.toNat_inj.mp ha.1, ha.2⟩ }

/-- Being in a block, with the numbers worked out. -/
theorem Block.contains_iff {block : Block} {addr : List UInt8} {m n : ℕ}
    (hbits : 8 * block.first.length - block.bits = m)
    (hfirst : Bytes.value block.first / 2 ^ m = n) :
    block.Contains addr ↔ Bytes.value addr / 2 ^ m = n := by
  rw [Block.Contains, hbits, hfirst]

/-- A public IPv4 address is in none of the blocks. -/
theorem not_nonPublicV4 {v4 : Ipv4Addr} (h : classifyV4 v4 = .«public») : ¬ NonPublicV4 v4 := by
  rintro ⟨block, hblock, hmem⟩
  obtain ⟨a, b, c, d, rfl⟩ := v4.exists_octets
  have ha := a.toNat_lt
  have hb := b.toNat_lt
  have hc := c.toNat_lt
  have hd := d.toNat_lt
  have hvalue : Bytes.value (#v[a, b, c, d] : Ipv4Addr).toList =
      ((a.toNat * 256 + b.toNat) * 256 + c.toNat) * 256 + d.toNat := value_quad a b c d
  have hin {m n : ℕ} (hbits : 8 * block.first.length - block.bits = m)
      (hfirst : Bytes.value block.first / 2 ^ m = n) :
      (((a.toNat * 256 + b.toNat) * 256 + c.toNat) * 256 + d.toNat) / 2 ^ m = n := by
    rw [← hvalue]
    exact (Block.contains_iff hbits hfirst).mp hmem
  clear hmem hvalue
  simp only [nonPublicV4Blocks, List.mem_cons, List.not_mem_nil, or_false] at hblock
  rcases hblock with rfl | rfl | rfl | rfl | rfl | rfl | rfl | rfl | rfl
  · have hblock := hin (m := 0) (n := 0) rfl (by decide)
    exact (publicOctets_of_classifyV4 h).zero (by omega)
  · have hblock := hin (m := 24) (n := 127) rfl (by decide)
    exact (publicOctets_of_classifyV4 h).loopback (by omega)
  · have hblock := hin (m := 24) (n := 10) rfl (by decide)
    exact (publicOctets_of_classifyV4 h).ten (by omega)
  · have hblock := hin (m := 20) (n := 0xAC1) rfl (by decide)
    exact (publicOctets_of_classifyV4 h).sixteen (by omega)
  · have hblock := hin (m := 16) (n := 0xC0A8) rfl (by decide)
    exact (publicOctets_of_classifyV4 h).home (by omega)
  · have hblock := hin (m := 22) (n := 0x191) rfl (by decide)
    exact (publicOctets_of_classifyV4 h).shared (by omega)
  · have hblock := hin (m := 16) (n := 0xA9FE) rfl (by decide)
    exact (publicOctets_of_classifyV4 h).linkLocal (by omega)
  · have hblock := hin (m := 28) (n := 14) rfl (by decide)
    exact (publicOctets_of_classifyV4 h).multicast (by omega)
  · have hblock := hin (m := 0) (n := 0xFFFFFFFF) rfl (by decide)
    exact (publicOctets_of_classifyV4 h).broadcast (by omega)

/-- The first segment is what a division leaves of an IPv6 address. -/
theorem value_div_segment (v6 : Ipv6Addr) :
    Bytes.value v6.toList / 2 ^ 112 = (Ipv6Addr.segment₀ v6).toNat := by
  obtain ⟨⟨octets⟩, hsize⟩ := v6
  obtain ⟨a, b, rest, rfl⟩ : ∃ a b rest, octets = a :: b :: rest := by
    match octets, hsize with
    | a :: b :: rest, _ => exact ⟨a, b, rest, rfl⟩
  have hrest : rest.length = 14 := by simpa using hsize
  have hdiv : Bytes.value ([a, b] ++ rest) / 256 ^ rest.length = (Bytes.u16 a b).toNat := by
    rw [Bytes.value_append_div, Bytes.value_pair]
  have hpow : 2 ^ 112 = 256 ^ rest.length := by rw [hrest]; rfl
  rw [hpow]
  exact hdiv

/-- A mask of the leading bits sees the leading bits only: it is enough to know what it leaves
of the words that have them. -/
theorem and_eq_of_leading {w mask masked : UInt16} {n k : ℕ} (hk : 0 < k)
    (hall : ∀ r < k, UInt16.ofNat (n * k + r) &&& mask = masked) (h : w.toNat / k = n) :
    w &&& mask = masked := by
  have hw : w = UInt16.ofNat (n * k + w.toNat % k) := by
    rw [← h, Nat.div_add_mod', UInt16.ofNat_toNat]
  rw [hw]
  exact hall _ (Nat.mod_lt _ hk)

/-- A public IPv6 address is in none of the blocks. -/
theorem not_nonPublicV6 {v6 : Ipv6Addr} (h : classifyV6 v6 = .«public») : ¬ NonPublicV6 v6 := by
  rintro ⟨block, hblock, hmem⟩
  simp (disch := decide) only [classifyV6, ite_eq_public] at h
  obtain ⟨hunspecified, hloopback, hmulticast, hlink, hlocal, -⟩ := h
  have hlen : v6.toList.length = 16 := by simp
  have hsegment := value_div_segment v6
  have hin {m n : ℕ} (hbits : 8 * block.first.length - block.bits = m)
      (hfirst : Bytes.value block.first / 2 ^ m = n) : Bytes.value v6.toList / 2 ^ m = n :=
    (Block.contains_iff hbits hfirst).mp hmem
  have hleading {m n k : ℕ} (hbits : 8 * block.first.length - block.bits = 112 + m)
      (hfirst : Bytes.value block.first / 2 ^ (112 + m) = n) (hk : 2 ^ m = k) :
      (Ipv6Addr.segment₀ v6).toNat / k = n := by
    have hblock := hin hbits hfirst
    rwa [Nat.pow_add, ← Nat.div_div_eq_div_mul, hsegment, hk] at hblock
  clear hmem
  simp only [nonPublicV6Blocks, List.mem_cons, List.not_mem_nil, or_false] at hblock
  rcases hblock with rfl | rfl | rfl | rfl | rfl
  -- the blocks of one address are told by all of its bytes, the others by the first segment
  · have hvalue : Bytes.value v6.toList / 2 ^ 0 = 0 := hin rfl (by decide)
    rw [Nat.pow_zero, Nat.div_one] at hvalue
    have hlist : v6.toList = List.replicate 16 0 := Bytes.value_inj hlen (hvalue.trans (by decide))
    exact hunspecified (decide_eq_true (Vector.toList_inj.mp hlist))
  · have hvalue : Bytes.value v6.toList / 2 ^ 0 = 1 := hin rfl (by decide)
    rw [Nat.pow_zero, Nat.div_one] at hvalue
    have hlist : v6.toList = List.replicate 15 0 ++ [1] :=
      Bytes.value_inj hlen (hvalue.trans (by decide))
    exact hloopback (decide_eq_true (Vector.toList_inj.mp hlist))
  · have hlead : (Ipv6Addr.segment₀ v6).toNat / 64 = 0x3FA :=
      hleading (m := 6) rfl (by decide) rfl
    exact hlink (and_eq_of_leading (by decide) (by decide +kernel) hlead)
  · have hlead : (Ipv6Addr.segment₀ v6).toNat / 256 = 0xFF :=
      hleading (m := 8) rfl (by decide) rfl
    exact hmulticast (decide_eq_true (and_eq_of_leading (by decide) (by decide +kernel) hlead))
  · have hlead : (Ipv6Addr.segment₀ v6).toNat / 512 = 0x7E :=
      hleading (m := 9) rfl (by decide) rfl
    exact hlocal (and_eq_of_leading (by decide) (by decide +kernel) hlead)

end Dns

end DevBrowse
