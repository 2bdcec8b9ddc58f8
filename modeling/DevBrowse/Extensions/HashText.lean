import DevBrowse.Extensions.Allowlist
import DevBrowse.Lib.Checked
import DevBrowse.Lib.Hex

/-!
# The text of a hash

In a manifest the hash of a package stands as a text: its bytes in 64 digits to the base 16. It
is written in small letters and read in either case, and nothing else is read
(`DevBrowse.Extensions.Sha256Hash.fromHex_iff`): so a hash has one text that is written, a text
is read as one hash at most, and no text makes the loop that reads it leave the bytes it is to
fill.
-/

namespace DevBrowse

namespace Extensions

open Checked (fail)

/-- The text is no hash. -/
inductive HexParseError where
  | invalidHex
  deriving DecidableEq

/-- A byte to the base 16, with small letters and at least two digits. -/
def lowerHex (b : UInt8) : Text := List.leftpad 2 '0' (Nat.toDigits 16 b.toNat)

/-- The digit a byte of a text stands for. -/
def hexNibble (b : UInt8) : Checked HexParseError UInt8 :=
  if 48 ≤ b ∧ b ≤ 57 then .ok (b - 48)
  else if 97 ≤ b ∧ b ≤ 102 then .ok (b - 97 + 10)
  else if 65 ≤ b ∧ b ≤ 70 then .ok (b - 65 + 10)
  else fail .invalidHex

/-- The loop over the bytes of a text, two at a time: each pair is put in its place. -/
def readPairs : List UInt8 → ℕ → Vector UInt8 32 → Checked HexParseError (Vector UInt8 32)
  | [], _, out => .ok out
  | [a], _, _ => do
    let _ ← hexNibble a
    .error .panicked
  | a :: b :: rest, i, out => do
    let hi ← hexNibble a
    let lo ← hexNibble b
    if h : i < 32 then readPairs rest (i + 1) (out.set i ((hi <<< 4) ||| lo))
    else .error .panicked

namespace Sha256Hash

/-- The text of a hash. -/
def toHex (h : Sha256Hash) : Text := h.bytes.toList.flatMap lowerHex

/-- **The hash of a text.** -/
def fromHex (s : Text) : Checked HexParseError Sha256Hash :=
  if s.utf8Len ≠ 64 then fail .invalidHex
  else do
    let out ← readPairs s.utf8Bytes 0 (.replicate 32 0)
    .ok ⟨out⟩

end Sha256Hash

/-! ### Digits -/

/-- The character a digit is written as. -/
def hexChar (d : Fin 16) : Char := Nat.digitChar d.val

/-- The text of digits. -/
def hexText (digits : List (Fin 16)) : Text := digits.map hexChar

/-- A byte of a text stands for a digit. -/
def Reads (b : UInt8) (d : Fin 16) : Prop := hexNibble b = .ok (.ofNat d.val)

theorem lowerHex_eq (b : UInt8) : lowerHex b = hexText (Hex.nibbles [b]) := by
  have hall : ∀ n : Fin 256,
      lowerHex (.ofNat n.val) = hexText (Hex.nibbles [.ofNat n.val]) := by decide +kernel
  have hb := hall ⟨b.toNat, b.toNat_lt⟩
  rwa [UInt8.ofNat_toNat] at hb

theorem flatMap_lowerHex (bytes : List UInt8) :
    bytes.flatMap lowerHex = hexText (Hex.nibbles bytes) := by
  induction bytes with
  | nil => rfl
  | cons b bytes ih =>
    rw [List.flatMap_cons, ih, lowerHex_eq]
    rfl

/-- A byte that is read is one of an ASCII character, which is a digit in one of the cases. -/
theorem exists_of_hexNibble {b v : UInt8} (h : hexNibble b = .ok v) :
    b.toNat < 128 ∧ ∃ d, Reads b d ∧ (Char.ofNat b.toNat).toLower = hexChar d := by
  have hall : ∀ n : Fin 256, (hexNibble (.ofNat n.val)).toOption.isSome = true → n.val < 128 ∧
      ∃ d : Fin 16, hexNibble (.ofNat n.val) = .ok (.ofNat d.val) ∧
        (Char.ofNat n.val).toLower = hexChar d := by decide +kernel
  have hb := hall ⟨b.toNat, b.toNat_lt⟩
  rw [UInt8.ofNat_toNat, h] at hb
  obtain ⟨hlt, d, hd, hlower⟩ := hb rfl
  exact ⟨hlt, d, h.trans hd, hlower⟩

/-- A character that is a digit in one of the cases is read as that digit. -/
theorem reads_of_toLower {c : Char} {d : Fin 16} (h : c.toLower = hexChar d) :
    c.toNat < 128 ∧ Reads (.ofNat c.toNat) d := by
  have hascii : ∀ d : Fin 16, (hexChar d).toNat < 128 := by decide +kernel
  have hall : ∀ n : Fin 128, ∀ d : Fin 16, (Char.ofNat n.val).toLower = hexChar d →
      hexNibble (.ofNat n.val) = .ok (.ofNat d.val) := by decide +kernel
  have hlt : c.toNat < 128 := by
    by_cases hup : c.val ≥ 'A'.val ∧ c.val ≤ 'Z'.val
    · have hle := (Text.toNat_toLower hup).2.2
      exact Nat.lt_of_le_of_lt hle (by decide)
    · rw [Text.toLower_eq_self hup] at h
      rw [h]
      exact hascii d
  refine ⟨hlt, hall ⟨c.toNat, hlt⟩ d ?_⟩
  rwa [Char.ofNat_toNat]

/-! ### Pairs -/

/-- A pair of digits is put together to their byte. -/
theorem joined_nibbles (hi lo : Fin 16) :
    (UInt8.ofNat hi.val <<< 4) ||| .ofNat lo.val = Hex.octet hi lo := by
  revert hi lo
  decide +kernel

/-- A vector that begins as another one, with one element after that. -/
theorem take_set {i : ℕ} (hi : i < 32) (out : Vector UInt8 32) (b : UInt8) :
    (out.set i b).toList.take (i + 1) = out.toList.take i ++ [b] := by
  have hlen : i < (out.set i b).toList.length := by
    rw [Vector.length_toList]
    exact hi
  rw [List.take_add_one, List.getElem?_eq_getElem hlen, Vector.getElem_toList,
    Vector.getElem_set_self, Vector.toList_set, List.take_set_of_le (Nat.le_refl i)]
  rfl

/-- **What the loop reads**: digits, and nothing else; their bytes go where the loop has come
to. -/
theorem readPairs_eq_ok_iff {bytes : List UInt8} {i : ℕ} {out out' : Vector UInt8 32}
    (hlen : bytes.length + 2 * i = 64) : readPairs bytes i out = .ok out' ↔
      ∃ digits, List.Forall₂ Reads bytes digits ∧
        out'.toList = out.toList.take i ++ Hex.octets digits := by
  induction bytes, i, out using readPairs.induct with
  | case1 i out =>
    obtain rfl : i = 32 := by
      rw [List.length_nil] at hlen
      omega
    have hall : out.toList.take 32 = out.toList :=
      List.take_of_length_le (Nat.le_of_eq Vector.length_toList)
    rw [readPairs, hall]
    constructor
    · intro h
      exact ⟨[], .nil, by rw [Except.ok.inj h, Hex.octets, List.append_nil]⟩
    · rintro ⟨digits, hdigits, h⟩
      obtain rfl := List.forall₂_nil_left_iff.mp hdigits
      rw [Hex.octets, List.append_nil] at h
      rw [Vector.toList_inj.mp h]
  | case2 a i out =>
    rw [List.length_singleton] at hlen
    omega
  | case3 a b rest i out ih =>
    rw [List.length_cons, List.length_cons] at hlen
    have hi : i < 32 := by omega
    rw [readPairs]
    constructor
    · intro h
      obtain ⟨hiValue, ha, h⟩ := Checked.exists_of_bind_eq_ok h
      obtain ⟨loValue, hb, h⟩ := Checked.exists_of_bind_eq_ok h
      obtain ⟨-, d, hd, -⟩ := exists_of_hexNibble ha
      obtain ⟨-, e, he, -⟩ := exists_of_hexNibble hb
      obtain rfl := Except.ok.inj (ha.symm.trans hd)
      obtain rfl := Except.ok.inj (hb.symm.trans he)
      rw [dif_pos hi] at h
      obtain ⟨digits, hdigits, heq⟩ := (ih _ _ hi (by omega)).mp h
      refine ⟨d :: e :: digits, .cons hd (.cons he hdigits), ?_⟩
      rw [heq, take_set hi, joined_nibbles, List.append_assoc, Hex.octets, List.singleton_append]
    · rintro ⟨digits, hdigits, heq⟩
      cases hdigits with | cons hd hdigits =>
      cases hdigits with | cons he hdigits =>
      rw [Hex.octets] at heq
      rw [Reads] at hd he
      rw [hd, Checked.ok_bind, he, Checked.ok_bind, dif_pos hi]
      refine (ih _ _ hi (by omega)).mpr ⟨_, hdigits, ?_⟩
      rw [heq, take_set hi, joined_nibbles, List.append_assoc, List.singleton_append]

/-- **The loop stays in bounds.** -/
theorem readPairs_safe {bytes : List UInt8} {i : ℕ} {out : Vector UInt8 32}
    (hlen : bytes.length + 2 * i = 64) :
    Checked.Safe (fun _ => True) (readPairs bytes i out) := by
  have hnibble : ∀ b, Checked.Safe (fun _ => True) (hexNibble b) := fun b =>
    .ite (fun _ => .ok trivial) fun _ => .ite (fun _ => .ok trivial) fun _ =>
      .ite (fun _ => .ok trivial) fun _ => .fail _
  induction bytes, i, out using readPairs.induct with
  | case1 i out => exact .ok trivial
  | case2 a i out =>
    rw [List.length_singleton] at hlen
    omega
  | case3 a b rest i out ih =>
    rw [List.length_cons, List.length_cons] at hlen
    have hi : i < 32 := by omega
    rw [readPairs]
    refine (hnibble a).bind fun hi' _ => (hnibble b).bind fun lo' _ => ?_
    rw [dif_pos hi]
    exact ih hi' lo' hi (by omega)

/-! ### Texts -/

/-- A character is a digit, in one of the cases. -/
def IsDigit (c : Char) (d : Fin 16) : Prop := c.toLower = hexChar d

theorem forall₂_isDigit_iff {s : Text} {digits : List (Fin 16)} :
    List.Forall₂ IsDigit s digits ↔ s.toAsciiLowercase = hexText digits := by
  rw [Text.toAsciiLowercase, hexText, ← List.forall₂_eq_eq_eq, List.forall₂_map_left_iff,
    List.forall₂_map_right_iff]
  rfl

/-- The bytes of digits are read as these. -/
theorem reads_utf8Bytes {s : Text} {digits : List (Fin 16)} (h : List.Forall₂ IsDigit s digits) :
    List.Forall₂ Reads s.utf8Bytes digits := by
  induction h with
  | nil => exact .nil
  | cons hc _ ih =>
    obtain ⟨hlt, hread⟩ := reads_of_toLower hc
    rw [Text.utf8Bytes, List.flatMap_cons, Text.utf8EncodeChar_of_lt hlt]
    exact .cons hread ih

/-- Bytes that are read as digits are those of a text of digits. -/
theorem exists_text_of_reads {bytes : List UInt8} {digits : List (Fin 16)}
    (h : List.Forall₂ Reads bytes digits) :
    ∃ s : Text, s.utf8Bytes = bytes ∧ List.Forall₂ IsDigit s digits := by
  have hascii : ∀ n : Fin 128, (Char.ofNat n.val).toNat = n.val := by decide +kernel
  induction h with
  | nil => exact ⟨[], rfl, .nil⟩
  | @cons b d _ _ hread _ ih =>
    obtain ⟨s, rfl, hs⟩ := ih
    obtain ⟨hlt, d', hread', hlower⟩ := exists_of_hexNibble hread
    have hchar : (Char.ofNat b.toNat).toNat = b.toNat := hascii ⟨b.toNat, hlt⟩
    have hdigit : d = d' := by
      have heq : UInt8.ofNat d.val = .ofNat d'.val := Except.ok.inj (hread.symm.trans hread')
      rw [← UInt8.toNat_inj, UInt8.toNat_ofNat', UInt8.toNat_ofNat'] at heq
      omega
    refine ⟨Char.ofNat b.toNat :: s, ?_, .cons (hdigit ▸ hlower) hs⟩
    rw [Text.utf8Bytes, List.flatMap_cons, Text.utf8EncodeChar_of_lt (by rw [hchar]; exact hlt),
      hchar, UInt8.ofNat_toNat]
    rfl

/-- **The bytes of a text are read as digits** exactly if it is a text of these digits, in
either case. -/
theorem reads_utf8Bytes_iff {s : Text} {digits : List (Fin 16)} :
    List.Forall₂ Reads s.utf8Bytes digits ↔ s.toAsciiLowercase = hexText digits := by
  rw [← forall₂_isDigit_iff]
  constructor
  · intro h
    obtain ⟨t, ht, hdigits⟩ := exists_text_of_reads h
    rwa [← Text.utf8Bytes_injective ht]
  · exact reads_utf8Bytes

/-! ### Hashes -/

namespace Sha256Hash

variable {s : Text} {h : Sha256Hash}

theorem toHex_eq (h : Sha256Hash) : h.toHex = hexText (Hex.nibbles h.bytes.toList) :=
  flatMap_lowerHex _

theorem fromHex_eq_ok_iff : fromHex s = .ok h ↔ s.toAsciiLowercase = h.toHex := by
  rw [toHex_eq, ← reads_utf8Bytes_iff, fromHex]
  constructor
  · intro hread
    split at hread
    · cases hread
    rename_i hlen
    obtain ⟨out, hout, hread⟩ := Checked.exists_of_bind_eq_ok hread
    obtain rfl := Except.ok.inj hread
    obtain ⟨digits, hdigits, heq⟩ := (readPairs_eq_ok_iff (not_not.mp hlen)).mp hout
    have heven : digits.length % 2 = 0 := by
      rw [← hdigits.length_eq]
      have hlen' : s.utf8Bytes.length = 64 := not_not.mp hlen
      omega
    rw [heq, List.take_zero, List.nil_append, Hex.nibbles_octets heven]
    exact hdigits
  · intro hdigits
    have hlen : s.utf8Len = 64 := by
      rw [Text.utf8Len, hdigits.length_eq, Hex.length_nibbles, Vector.length_toList]
    rw [if_neg (not_not.mpr hlen), (readPairs_eq_ok_iff hlen).mpr ⟨_, hdigits, ?_⟩]
    · rfl
    · rw [List.take_zero, List.nil_append, Hex.octets_nibbles]

theorem toAsciiLowercase_toHex (h : Sha256Hash) : h.toHex.toAsciiLowercase = h.toHex := by
  have hall : ∀ d : Fin 16, (hexChar d).toLower = hexChar d := by decide +kernel
  rw [toHex_eq, ← forall₂_isDigit_iff, hexText, List.forall₂_map_left_iff, List.forall₂_same]
  exact fun d _ => hall d

/-- **What was written is read back.** -/
theorem fromHex_toHex (h : Sha256Hash) : fromHex h.toHex = .ok h :=
  fromHex_eq_ok_iff.mpr (toAsciiLowercase_toHex h)

/-- **What is read as a hash**: its text, in either case. Any other text is refused, so that no
text makes the loop leave its bounds. -/
theorem fromHex_iff (s : Text) :
    (∀ h, fromHex s = .ok h ↔ s.toAsciiLowercase = h.toHex) ∧
      (fromHex s = fail .invalidHex ↔ ∀ h, s.toAsciiLowercase ≠ toHex h) ∧
      ∀ h, fromHex (toHex h) = .ok h := by
  refine ⟨fun h => fromHex_eq_ok_iff, ⟨fun hfail h heq => ?_, fun hnone => ?_⟩, fromHex_toHex⟩
  · rw [fromHex_eq_ok_iff.mpr heq] at hfail
    cases hfail
  · have hsafe : Checked.Safe (fun _ => True) (fromHex s) :=
      .ite (fun _ => .fail _) fun hlen =>
        (readPairs_safe (not_not.mp hlen)).bind fun _ _ => .ok trivial
    rcases hsafe with ⟨e, he⟩ | ⟨h, hread, -⟩
    · exact he
    · exact absurd (fromHex_eq_ok_iff.mp hread) (hnone h)

end Sha256Hash

end Extensions

end DevBrowse
