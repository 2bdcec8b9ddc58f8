import Mathlib.Data.List.Basic

/-!
# Bytes in digits of four bits

A byte is two digits of four bits, the most significant first. Bytes and digits that come in
pairs are the same thing (`Hex.octets_nibbles`, `Hex.nibbles_octets`).
-/

namespace Hex

/-- The digits of bytes. -/
def nibbles : List UInt8 → List (Fin 16)
  | [] => []
  | b :: rest => Fin.ofNat 16 (b.toNat / 16) :: Fin.ofNat 16 b.toNat :: nibbles rest

/-- The byte of two digits. -/
def octet (hi lo : Fin 16) : UInt8 := .ofNat (hi.val * 16 + lo.val)

/-- The bytes of digits. One that is left without another is dropped. -/
def octets : List (Fin 16) → List UInt8
  | [] => []
  | [_] => []
  | hi :: lo :: rest => octet hi lo :: octets rest

variable (bytes : List UInt8) {digits : List (Fin 16)}

theorem toNat_octet (hi lo : Fin 16) : (octet hi lo).toNat = hi.val * 16 + lo.val := by
  have hlt : hi.val * 16 + lo.val < 2 ^ 8 := by omega
  exact UInt8.toNat_ofNat_of_lt' hlt

@[simp] theorem length_nibbles : (nibbles bytes).length = 2 * bytes.length := by
  induction bytes with
  | nil => rfl
  | cons b bytes ih =>
    rw [nibbles, List.length_cons, List.length_cons, List.length_cons, ih]
    omega

/-- **What was written is read back.** -/
theorem octets_nibbles : octets (nibbles bytes) = bytes := by
  induction bytes with
  | nil => rfl
  | cons b bytes ih =>
    have hb := b.toNat_lt
    have hbyte : octet (Fin.ofNat 16 (b.toNat / 16)) (Fin.ofNat 16 b.toNat) = b := by
      rw [← UInt8.toNat_inj, toNat_octet, Fin.val_ofNat, Fin.val_ofNat]
      omega
    rw [nibbles, octets, ih, hbyte]

/-- **What was read is written again**, if no digit is left without another. -/
theorem nibbles_octets (h : digits.length % 2 = 0) : nibbles (octets digits) = digits := by
  induction digits using octets.induct with
  | case1 => rfl
  | case2 d => cases h
  | case3 hi lo rest ih =>
    rw [List.length_cons, List.length_cons] at h
    have hhi : Fin.ofNat 16 ((hi.val * 16 + lo.val) / 16) = hi := by
      rw [← Fin.val_inj, Fin.val_ofNat]
      omega
    have hlo : Fin.ofNat 16 (hi.val * 16 + lo.val) = lo := by
      rw [← Fin.val_inj, Fin.val_ofNat]
      omega
    rw [octets, nibbles, toNat_octet, hhi, hlo, ih (by omega)]

end Hex
