import Mathlib.Data.List.Basic

/-!
# Bytes in digits of six bits

Three bytes are four digits of six bits, the most significant bit first. Where the bytes are
not a multiple of three, the last digit is filled up with zeros, and nothing is put behind
it.

Reading is lenient: bits at the end that make no byte are dropped, whatever they are. What
was written is read back (`Base64.octets_sextets`), but several sequences of digits are read
as the same bytes; `Base64.sextets_octets_iff` says which of them is the one that is written:
the one without a digit of its own for the dropped bits, and with zeros for them.
-/

namespace Base64

/-- The last six bits of a number. -/
def sextet (n : ℕ) : Fin 64 := Fin.ofNat 64 n

/-- The last eight bits of a number. -/
def octet (n : ℕ) : UInt8 := UInt8.ofNat n

@[simp] theorem val_sextet (n : ℕ) : (sextet n).val = n % 64 := rfl

theorem octet_eq {n : ℕ} {b : UInt8} (h : n % 256 = b.toNat) : octet n = b :=
  UInt8.toNat_inj.mp (UInt8.toNat_ofNat'.trans h)

theorem toNat_octet (n : ℕ) : (octet n).toNat = n % 256 := UInt8.toNat_ofNat'

theorem sextet_eq_iff {n : ℕ} {d : Fin 64} : sextet n = d ↔ n % 64 = d.val := Fin.ext_iff

/-- The digits of bytes. -/
def sextets : List UInt8 → List (Fin 64)
  | [] => []
  | [a] => [sextet (a.toNat / 4), sextet (a.toNat * 16)]
  | [a, b] =>
    [sextet (a.toNat / 4), sextet (a.toNat * 16 + b.toNat / 16), sextet (b.toNat * 4)]
  | a :: b :: c :: rest =>
    sextet (a.toNat / 4) :: sextet (a.toNat * 16 + b.toNat / 16) ::
      sextet (b.toNat * 4 + c.toNat / 64) :: sextet c.toNat :: sextets rest

/-- The bytes of digits. -/
def octets : List (Fin 64) → List UInt8
  | [] => []
  | [_] => []
  | [p, q] => [octet (p.val * 4 + q.val / 16)]
  | [p, q, r] => [octet (p.val * 4 + q.val / 16), octet (q.val * 16 + r.val / 4)]
  | p :: q :: r :: s :: rest =>
    octet (p.val * 4 + q.val / 16) :: octet (q.val * 16 + r.val / 4) ::
      octet (r.val * 64 + s.val) :: octets rest

/-- Digits that bytes are written with: there is none that makes no byte, and the bits behind
the last byte are zero. -/
def Canonical : List (Fin 64) → Prop
  | [] => True
  | [_] => False
  | [_, q] => q.val % 16 = 0
  | [_, _, r] => r.val % 4 = 0
  | _ :: _ :: _ :: _ :: rest => Canonical rest

/-- Whether digits are canonical. -/
def decideCanonical : (digits : List (Fin 64)) → Decidable (Canonical digits)
  | [] => inferInstanceAs (Decidable True)
  | [_] => inferInstanceAs (Decidable False)
  | [_, q] => inferInstanceAs (Decidable (q.val % 16 = 0))
  | [_, _, r] => inferInstanceAs (Decidable (r.val % 4 = 0))
  | _ :: _ :: _ :: _ :: rest => decideCanonical rest

instance (digits : List (Fin 64)) : Decidable (Canonical digits) := decideCanonical digits

/-- **What was written is read back.** -/
theorem octets_sextets (bytes : List UInt8) : octets (sextets bytes) = bytes := by
  induction bytes using sextets.induct with
  | case1 => rfl
  | case2 a =>
    have ha := a.toNat_lt
    rw [sextets, octets, octet_eq]
    rw [val_sextet, val_sextet]
    omega
  | case3 a b =>
    have ha := a.toNat_lt
    have hb := b.toNat_lt
    rw [sextets, octets, octet_eq (b := a), octet_eq (b := b)] <;>
    · rw [val_sextet, val_sextet]
      omega
  | case4 a b c rest ih =>
    have ha := a.toNat_lt
    have hb := b.toNat_lt
    have hc := c.toNat_lt
    rw [sextets, octets, ih, octet_eq (b := a), octet_eq (b := b), octet_eq (b := c)] <;>
    · rw [val_sextet, val_sextet]
      omega

/-- **The digits that are read as the bytes they are written for.** -/
theorem sextets_octets_iff (digits : List (Fin 64)) :
    sextets (octets digits) = digits ↔ Canonical digits := by
  induction digits using octets.induct with
  | case1 => exact iff_of_true rfl trivial
  | case2 p => exact iff_of_false (by simp [octets, sextets]) id
  | case3 p q =>
    have hp := p.isLt
    have hq := q.isLt
    rw [octets, sextets, Canonical, List.cons.injEq, List.cons.injEq, toNat_octet,
      sextet_eq_iff, sextet_eq_iff]
    simp only [and_true]
    omega
  | case4 p q r =>
    have hp := p.isLt
    have hq := q.isLt
    have hr := r.isLt
    rw [octets, sextets, Canonical, List.cons.injEq, List.cons.injEq, List.cons.injEq,
      toNat_octet, toNat_octet, sextet_eq_iff, sextet_eq_iff, sextet_eq_iff]
    simp only [and_true]
    omega
  | case5 p q r s rest ih =>
    have hp := p.isLt
    have hq := q.isLt
    have hr := r.isLt
    have hs := s.isLt
    rw [octets, sextets, Canonical, ← ih, List.cons.injEq, List.cons.injEq, List.cons.injEq,
      List.cons.injEq, toNat_octet, toNat_octet, toNat_octet, sextet_eq_iff, sextet_eq_iff,
      sextet_eq_iff, sextet_eq_iff]
    -- the digits of three whole bytes are always the ones that were read
    constructor
    · exact fun h => h.2.2.2.2
    · exact fun h => ⟨by omega, by omega, by omega, by omega, h⟩

end Base64
