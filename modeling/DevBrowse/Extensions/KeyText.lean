import DevBrowse.Extensions.Allowlist
import DevBrowse.Lib.Base64

/-!
# The text of a key

In a manifest a key stands as a text: its bytes in base64, with the alphabet for addresses
and without padding. The codec is the browser's own.

It is compared with the digits of `DevBrowse.Lib.Base64`: `b64Encode_eq` and `b64Decode_map`
say that the text is the text of the digits, and `exists_digits_of_b64Decode` that nothing
else is read.
-/

namespace DevBrowse

namespace Extensions

open Base64

/-! ### Writing -/

/-- The digits, as the characters of a text. -/
def base64Alphabet : Text :=
  "ABCDEFGHIJKLMNOPQRSTUVWXYZabcdefghijklmnopqrstuvwxyz0123456789-_".toList

/-- The character of a digit. -/
def base64Char (i : ℕ) : Char := base64Alphabet.getD i default

/-- The text of up to three bytes. -/
def b64EncodeChunk (chunk : List UInt8) : Text :=
  let b0 := (chunk.getD 0 0).toNat
  let b1 := (chunk.getD 1 0).toNat
  let b2 := (chunk.getD 2 0).toNat
  let n := (b0 <<< 16) ||| (b1 <<< 8) ||| b2
  [base64Char ((n >>> 18) &&& 0x3F), base64Char ((n >>> 12) &&& 0x3F)] ++
    (if chunk.length > 1 then [base64Char ((n >>> 6) &&& 0x3F)] else []) ++
    (if chunk.length > 2 then [base64Char (n &&& 0x3F)] else [])

/-- The text of bytes, three at a time. -/
def b64Encode : List UInt8 → Text
  | [] => []
  | [b0] => b64EncodeChunk [b0]
  | [b0, b1] => b64EncodeChunk [b0, b1]
  | b0 :: b1 :: b2 :: rest => b64EncodeChunk [b0, b1, b2] ++ b64Encode rest

/-! ### Reading -/

/-- The digit of a byte of the text. -/
def base64Val (c : UInt8) : Except Text ℕ :=
  if 65 ≤ c ∧ c ≤ 90 then .ok (c - 65).toNat
  else if 97 ≤ c ∧ c ≤ 122 then .ok (c - 97 + 26).toNat
  else if 48 ≤ c ∧ c ≤ 57 then .ok (c - 48 + 52).toNat
  else if c = 45 then .ok 62
  else if c = 95 then .ok 63
  else .error "invalid base64 character".toList

/-- The loop over a chunk: what its digits are, and how many bits they have. -/
def b64ReadChunk : List UInt8 → ℕ → ℕ → Except Text (ℕ × ℕ)
  | [], n, bits => .ok (n, bits)
  | b :: chunk, n, bits => do
    let v ← base64Val b
    b64ReadChunk chunk ((n <<< 6) ||| v) (bits + 6)

/-- The first bytes of three. -/
def b64Push (n take : ℕ) : List UInt8 :=
  (if take ≥ 1 then [.ofNat ((n >>> 16) &&& 0xFF)] else []) ++
    (if take ≥ 2 then [.ofNat ((n >>> 8) &&& 0xFF)] else []) ++
    (if take ≥ 3 then [.ofNat (n &&& 0xFF)] else [])

/-- The bytes of up to four characters. -/
def b64DecodeChunk (chunk : List UInt8) : Except Text (List UInt8) := do
  let (n, bits) ← b64ReadChunk chunk 0 0
  let pad := 4 - chunk.length
  let n := n <<< (6 * pad)
  let bits := bits - 2 * pad
  .ok (b64Push n (bits / 8))

/-- The bytes of the bytes of a text, four at a time. -/
def b64DecodeBytes : List UInt8 → Except Text (List UInt8)
  | [] => .ok []
  | [b0] => b64DecodeChunk [b0]
  | [b0, b1] => b64DecodeChunk [b0, b1]
  | [b0, b1, b2] => b64DecodeChunk [b0, b1, b2]
  | b0 :: b1 :: b2 :: b3 :: rest => do
    let out ← b64DecodeChunk [b0, b1, b2, b3]
    let outs ← b64DecodeBytes rest
    .ok (out ++ outs)

/-- The bytes of a text. -/
def b64Decode (s : Text) : Except Text (List UInt8) := b64DecodeBytes s.utf8Bytes

/-! ### Characters and digits -/

/-- The text of digits. -/
def digitText (digits : List (Fin 64)) : Text := digits.map fun d => base64Char d.val

/-- The byte a digit has in a text. -/
def digitByte (d : Fin 64) : UInt8 := .ofNat (base64Char d.val).toNat

theorem toNat_base64Char_lt (d : Fin 64) : (base64Char d.val).toNat < 128 := by
  revert d
  decide +kernel

theorem base64Val_digitByte (d : Fin 64) : base64Val (digitByte d) = .ok d.val := by
  revert d
  decide +kernel

/-- A byte that is a digit is the byte of that digit. -/
theorem exists_digit_of_base64Val {c : UInt8} {v : ℕ} (h : base64Val c = .ok v) :
    ∃ d : Fin 64, d.val = v ∧ digitByte d = c := by
  have hall : ∀ n : Fin 256, ∀ v ∈ (base64Val (.ofNat n.val)).toOption,
      v < 64 ∧ UInt8.ofNat (base64Char v).toNat = .ofNat n.val := by decide +kernel
  have hc := hall ⟨c.toNat, c.toNat_lt⟩ v (by rw [UInt8.ofNat_toNat, h]; rfl)
  rw [UInt8.ofNat_toNat] at hc
  exact ⟨⟨v, hc.1⟩, rfl, hc.2⟩

theorem utf8Bytes_digitText (digits : List (Fin 64)) :
    Text.utf8Bytes (digitText digits) = digits.map digitByte := by
  induction digits with
  | nil => rfl
  | cons d digits ih =>
    rw [digitText, List.map_cons, Text.utf8Bytes, List.flatMap_cons,
      Text.utf8EncodeChar_of_lt (toNat_base64Char_lt d), List.map_cons, ← ih]
    rfl

theorem digitText_of_map_digitByte {s : Text} {digits : List (Fin 64)}
    (h : digits.map digitByte = s.utf8Bytes) : digitText digits = s :=
  Text.utf8Bytes_injective ((utf8Bytes_digitText digits).trans h)

/-! ### Shifts and masks -/

theorem shiftLeft_or (a : ℕ) {b k : ℕ} (hb : b < 2 ^ k) : (a <<< k) ||| b = a * 2 ^ k + b := by
  rw [← Nat.shiftLeft_add_eq_or_of_lt hb, Nat.shiftLeft_eq]

theorem and_sixBits (n : ℕ) : n &&& 0x3F = n % 64 := Nat.and_two_pow_sub_one_eq_mod n 6

theorem and_eightBits (n : ℕ) : n &&& 0xFF = n % 256 := Nat.and_two_pow_sub_one_eq_mod n 8

/-- Three bytes in a word. -/
def threeBytes (b0 b1 b2 : UInt8) : ℕ :=
  (b0.toNat <<< 16) ||| (b1.toNat <<< 8) ||| b2.toNat

theorem threeBytes_eq (b0 b1 b2 : UInt8) :
    threeBytes b0 b1 b2 = b0.toNat * 65536 + b1.toNat * 256 + b2.toNat := by
  have h1 := b1.toNat_lt
  have h2 := b2.toNat_lt
  have hhigh : (b0.toNat <<< 16) ||| (b1.toNat <<< 8) = (b0.toNat * 256 + b1.toNat) <<< 8 := by
    rw [shiftLeft_or _ (by rw [Nat.shiftLeft_eq]; omega), Nat.shiftLeft_eq, Nat.shiftLeft_eq]
    omega
  rw [threeBytes, hhigh, shiftLeft_or _ (by omega)]
  omega

/-- The digits of three bytes. -/
theorem digits_threeBytes (b0 b1 b2 : UInt8) :
    (threeBytes b0 b1 b2 >>> 18) &&& 0x3F = (sextet (b0.toNat / 4)).val ∧
      (threeBytes b0 b1 b2 >>> 12) &&& 0x3F = (sextet (b0.toNat * 16 + b1.toNat / 16)).val ∧
      (threeBytes b0 b1 b2 >>> 6) &&& 0x3F = (sextet (b1.toNat * 4 + b2.toNat / 64)).val ∧
      threeBytes b0 b1 b2 &&& 0x3F = (sextet b2.toNat).val := by
  have h1 := b1.toNat_lt
  have h2 := b2.toNat_lt
  simp only [threeBytes_eq, and_sixBits, val_sextet, Nat.shiftRight_eq_div_pow]
  refine ⟨?_, ?_, ?_, ?_⟩ <;> omega

/-- One more digit of a word. -/
theorem readDigit (n : ℕ) (d : Fin 64) : (n <<< 6) ||| d.val = n * 64 + d.val :=
  shiftLeft_or n d.isLt

/-! ### The codec by its digits -/

theorem b64EncodeChunk_one (a : UInt8) : b64EncodeChunk [a] = digitText (sextets [a]) := by
  obtain ⟨h0, h1, -, -⟩ := digits_threeBytes a 0 0
  have hlow : a.toNat * 16 + (0 : UInt8).toNat / 16 = a.toNat * 16 := rfl
  rw [hlow] at h1
  change [base64Char ((threeBytes a 0 0 >>> 18) &&& 0x3F),
    base64Char ((threeBytes a 0 0 >>> 12) &&& 0x3F)] = _
  rw [h0, h1]
  rfl

theorem b64EncodeChunk_two (a b : UInt8) :
    b64EncodeChunk [a, b] = digitText (sextets [a, b]) := by
  obtain ⟨h0, h1, h2, -⟩ := digits_threeBytes a b 0
  have hlow : b.toNat * 4 + (0 : UInt8).toNat / 64 = b.toNat * 4 := rfl
  rw [hlow] at h2
  change [base64Char ((threeBytes a b 0 >>> 18) &&& 0x3F),
    base64Char ((threeBytes a b 0 >>> 12) &&& 0x3F),
    base64Char ((threeBytes a b 0 >>> 6) &&& 0x3F)] = _
  rw [h0, h1, h2]
  rfl

theorem b64EncodeChunk_three (a b c : UInt8) :
    b64EncodeChunk [a, b, c] = digitText (sextets [a, b, c]) := by
  obtain ⟨h0, h1, h2, h3⟩ := digits_threeBytes a b c
  change [base64Char ((threeBytes a b c >>> 18) &&& 0x3F),
    base64Char ((threeBytes a b c >>> 12) &&& 0x3F),
    base64Char ((threeBytes a b c >>> 6) &&& 0x3F),
    base64Char (threeBytes a b c &&& 0x3F)] = _
  rw [h0, h1, h2, h3]
  rfl

/-- **What is written is the text of the digits.** -/
theorem b64Encode_eq (bytes : List UInt8) : b64Encode bytes = digitText (sextets bytes) := by
  induction bytes using b64Encode.induct with
  | case1 => rfl
  | case2 a => exact b64EncodeChunk_one a
  | case3 a b => exact b64EncodeChunk_two a b
  | case4 a b c rest ih =>
    rw [b64Encode, b64EncodeChunk_three, ih, digitText, digitText, digitText, ← List.map_append]
    rfl

theorem octet_congr {n m : ℕ} (h : n % 256 = m % 256) : octet n = octet m :=
  octet_eq (h.trans (toNat_octet m).symm)

/-- The loop over a chunk reads its digits one after the other. -/
theorem b64ReadChunk_cons (d : Fin 64) (chunk : List UInt8) (n bits : ℕ) :
    b64ReadChunk (digitByte d :: chunk) n bits =
      b64ReadChunk chunk (n * 64 + d.val) (bits + 6) := by
  rw [b64ReadChunk, base64Val_digitByte, ← readDigit]
  rfl

/-- A chunk by the number its digits are. -/
theorem b64DecodeChunk_eq {chunk : List UInt8} {n bits pad take : ℕ}
    (h : b64ReadChunk chunk 0 0 = .ok (n, bits)) (hpad : 4 - chunk.length = pad)
    (htake : (bits - 2 * pad) / 8 = take) :
    b64DecodeChunk chunk = .ok (b64Push (n * 2 ^ (6 * pad)) take) := by
  rw [b64DecodeChunk, h, ← htake, ← Nat.shiftLeft_eq, ← hpad]
  rfl

/-- The bytes that are taken out of a word. -/
theorem bytes_of_word (n : ℕ) :
    UInt8.ofNat ((n >>> 16) &&& 0xFF) = octet (n / 65536) ∧
      UInt8.ofNat ((n >>> 8) &&& 0xFF) = octet (n / 256) ∧
      UInt8.ofNat (n &&& 0xFF) = octet n := by
  simp only [and_eightBits, Nat.shiftRight_eq_div_pow]
  refine ⟨octet_congr ?_, octet_congr ?_, octet_congr ?_⟩ <;> omega

theorem b64Push_one (n : ℕ) : b64Push n 1 = [octet (n / 65536)] :=
  congrArg (fun b => [b]) (bytes_of_word n).1

theorem b64Push_two (n : ℕ) : b64Push n 2 = [octet (n / 65536), octet (n / 256)] :=
  congrArg₂ (fun b b' => [b, b']) (bytes_of_word n).1 (bytes_of_word n).2.1

theorem b64Push_three (n : ℕ) :
    b64Push n 3 = [octet (n / 65536), octet (n / 256), octet n] := by
  rw [← (bytes_of_word n).1, ← (bytes_of_word n).2.1, ← (bytes_of_word n).2.2]
  rfl

section Chunks

variable (p q r s : Fin 64)

/-- A digit on its own makes no byte. -/
theorem b64DecodeChunk_one : b64DecodeChunk [digitByte p] = .ok (octets [p]) := by
  have hchunk : b64DecodeChunk [digitByte p] =
      .ok (b64Push ((0 * 64 + p.val) * 2 ^ (6 * 3)) 0) :=
    b64DecodeChunk_eq (b64ReadChunk_cons p [] 0 0) rfl rfl
  rw [hchunk]
  rfl

theorem b64DecodeChunk_two :
    b64DecodeChunk [digitByte p, digitByte q] = .ok (octets [p, q]) := by
  have hp := p.isLt
  have hq := q.isLt
  have hread : b64ReadChunk [digitByte p, digitByte q] 0 0 =
      .ok ((0 * 64 + p.val) * 64 + q.val, 12) := by
    rw [b64ReadChunk_cons, b64ReadChunk_cons]
    rfl
  have hfirst : octet (((0 * 64 + p.val) * 64 + q.val) * 2 ^ (6 * 2) / 65536) =
      octet (p.val * 4 + q.val / 16) := octet_congr (by omega)
  have hchunk : b64DecodeChunk [digitByte p, digitByte q] =
      .ok (b64Push (((0 * 64 + p.val) * 64 + q.val) * 2 ^ (6 * 2)) 1) :=
    b64DecodeChunk_eq hread rfl rfl
  rw [hchunk, octets, ← hfirst]
  exact congrArg Except.ok (b64Push_one _)

theorem b64DecodeChunk_three :
    b64DecodeChunk [digitByte p, digitByte q, digitByte r] = .ok (octets [p, q, r]) := by
  have hq := q.isLt
  have hr := r.isLt
  have hread : b64ReadChunk [digitByte p, digitByte q, digitByte r] 0 0 =
      .ok (((0 * 64 + p.val) * 64 + q.val) * 64 + r.val, 18) := by
    rw [b64ReadChunk_cons, b64ReadChunk_cons, b64ReadChunk_cons]
    rfl
  have hfirst : octet ((((0 * 64 + p.val) * 64 + q.val) * 64 + r.val) * 2 ^ (6 * 1) / 65536) =
      octet (p.val * 4 + q.val / 16) := octet_congr (by omega)
  have hsecond : octet ((((0 * 64 + p.val) * 64 + q.val) * 64 + r.val) * 2 ^ (6 * 1) / 256) =
      octet (q.val * 16 + r.val / 4) := octet_congr (by omega)
  have hchunk : b64DecodeChunk [digitByte p, digitByte q, digitByte r] =
      .ok (b64Push ((((0 * 64 + p.val) * 64 + q.val) * 64 + r.val) * 2 ^ (6 * 1)) 2) :=
    b64DecodeChunk_eq hread rfl rfl
  rw [hchunk, octets, ← hfirst, ← hsecond]
  exact congrArg Except.ok (b64Push_two _)

theorem b64DecodeChunk_four :
    b64DecodeChunk [digitByte p, digitByte q, digitByte r, digitByte s] =
      .ok (octets [p, q, r, s]) := by
  have hr := r.isLt
  have hs := s.isLt
  set n := (((0 * 64 + p.val) * 64 + q.val) * 64 + r.val) * 64 + s.val with hn
  have hread : b64ReadChunk [digitByte p, digitByte q, digitByte r, digitByte s] 0 0 =
      .ok (n, 24) := by
    rw [b64ReadChunk_cons, b64ReadChunk_cons, b64ReadChunk_cons, b64ReadChunk_cons]
    rfl
  have hfirst : octet (n * 2 ^ (6 * 0) / 65536) = octet (p.val * 4 + q.val / 16) :=
    octet_congr (by omega)
  have hsecond : octet (n * 2 ^ (6 * 0) / 256) = octet (q.val * 16 + r.val / 4) :=
    octet_congr (by omega)
  have hthird : octet (n * 2 ^ (6 * 0)) = octet (r.val * 64 + s.val) := octet_congr (by omega)
  have hchunk : b64DecodeChunk [digitByte p, digitByte q, digitByte r, digitByte s] =
      .ok (b64Push (n * 2 ^ (6 * 0)) 3) :=
    b64DecodeChunk_eq hread rfl rfl
  rw [hchunk, octets, ← hfirst, ← hsecond, ← hthird]
  exact congrArg Except.ok (b64Push_three _)

end Chunks

/-- **The text of digits is read as their bytes.** -/
theorem b64DecodeBytes_map (digits : List (Fin 64)) :
    b64DecodeBytes (digits.map digitByte) = .ok (octets digits) := by
  induction digits using octets.induct with
  | case1 => rfl
  | case2 p => exact b64DecodeChunk_one p
  | case3 p q => exact b64DecodeChunk_two p q
  | case4 p q r => exact b64DecodeChunk_three p q r
  | case5 p q r s rest ih =>
    rw [List.map_cons, List.map_cons, List.map_cons, List.map_cons, b64DecodeBytes,
      b64DecodeChunk_four, ih]
    rfl

/-- The loop over a chunk ends well on digits only. -/
theorem exists_digits_of_b64ReadChunk {chunk : List UInt8} {n bits : ℕ} {r : ℕ × ℕ}
    (h : b64ReadChunk chunk n bits = .ok r) :
    ∃ digits : List (Fin 64), digits.map digitByte = chunk := by
  induction chunk generalizing n bits with
  | nil => exact ⟨[], rfl⟩
  | cons b chunk ih =>
    rw [b64ReadChunk] at h
    cases hv : base64Val b with
    | error e =>
      rw [hv] at h
      cases h
    | ok v =>
      rw [hv] at h
      obtain ⟨digits, hdigits⟩ := ih h
      obtain ⟨d, -, hd⟩ := exists_digit_of_base64Val hv
      exact ⟨d :: digits, by rw [List.map_cons, hd, hdigits]⟩

theorem exists_digits_of_b64DecodeChunk {chunk out : List UInt8}
    (h : b64DecodeChunk chunk = .ok out) :
    ∃ digits : List (Fin 64), digits.map digitByte = chunk := by
  cases hread : b64ReadChunk chunk 0 0 with
  | error e =>
    rw [b64DecodeChunk, hread] at h
    cases h
  | ok r => exact exists_digits_of_b64ReadChunk hread

/-- **Nothing but digits is read.** -/
theorem exists_digits_of_b64DecodeBytes {bytes out : List UInt8}
    (h : b64DecodeBytes bytes = .ok out) :
    ∃ digits : List (Fin 64), digits.map digitByte = bytes := by
  induction bytes using b64DecodeBytes.induct generalizing out with
  | case1 => exact ⟨[], rfl⟩
  | case2 => exact exists_digits_of_b64DecodeChunk h
  | case3 => exact exists_digits_of_b64DecodeChunk h
  | case4 => exact exists_digits_of_b64DecodeChunk h
  | case5 b0 b1 b2 b3 rest ih =>
    rw [b64DecodeBytes] at h
    cases hchunk : b64DecodeChunk [b0, b1, b2, b3] with
    | error e =>
      rw [hchunk] at h
      cases h
    | ok first =>
      cases hrest : b64DecodeBytes rest with
      | error e =>
        rw [hchunk, hrest] at h
        cases h
      | ok outs =>
        obtain ⟨digits, hdigits⟩ := exists_digits_of_b64DecodeChunk hchunk
        obtain ⟨digits', hdigits'⟩ := ih hrest
        exact ⟨digits ++ digits', by rw [List.map_append, hdigits, hdigits']; rfl⟩

/-- **What a text is read as**: it is the text of digits, and their bytes. -/
theorem b64Decode_eq_ok_iff {s : Text} {out : List UInt8} :
    b64Decode s = .ok out ↔ ∃ digits, digitText digits = s ∧ octets digits = out := by
  constructor
  · intro h
    obtain ⟨digits, hdigits⟩ := exists_digits_of_b64DecodeBytes h
    rw [b64Decode, ← hdigits, b64DecodeBytes_map] at h
    exact ⟨digits, digitText_of_map_digitByte hdigits, Except.ok.inj h⟩
  · rintro ⟨digits, rfl, rfl⟩
    rw [b64Decode, utf8Bytes_digitText, b64DecodeBytes_map]

theorem digitText_injective : Function.Injective digitText := by
  refine List.map_injective_iff.mpr fun d d' h => ?_
  have hbyte : digitByte d = digitByte d' := by rw [digitByte, digitByte, h]
  have hval : base64Val (digitByte d) = base64Val (digitByte d') := by rw [hbyte]
  rw [base64Val_digitByte, base64Val_digitByte] at hval
  exact Fin.ext (Except.ok.inj hval)

/-- **What was written is read back.** -/
theorem b64Decode_encode (bytes : List UInt8) : b64Decode (b64Encode bytes) = .ok bytes := by
  rw [b64Encode_eq]
  exact b64Decode_eq_ok_iff.mpr ⟨sextets bytes, rfl, octets_sextets bytes⟩

/-- **Which texts are written again as they were read.** -/
theorem b64Encode_of_decode_iff {s : Text} {out : List UInt8} (h : b64Decode s = .ok out) :
    b64Encode out = s ↔ ∀ digits, digitText digits = s → Canonical digits := by
  obtain ⟨digits, rfl, rfl⟩ := b64Decode_eq_ok_iff.mp h
  rw [b64Encode_eq, digitText_injective.eq_iff, sextets_octets_iff]
  constructor
  · intro hcanonical digits' hdigits'
    rwa [digitText_injective hdigits']
  · exact fun hall => hall digits rfl

/-! ### Keys -/

/-- The text of a key. -/
def Ed25519PubKeyBytes.serialize (key : Ed25519PubKeyBytes) : Text :=
  b64Encode key.bytes.toList

/-- The key of a text. -/
def Ed25519PubKeyBytes.deserialize (s : Text) : Except Text Ed25519PubKeyBytes := do
  let v ← b64Decode s
  if h : v.length = 32 then .ok ⟨⟨v.toArray, by simpa using h⟩⟩
  else .error "ed25519 verifying key must decode to 32 bytes".toList

/-- **A key is read back from its text.** -/
theorem Ed25519PubKeyBytes.deserialize_serialize (key : Ed25519PubKeyBytes) :
    deserialize key.serialize = .ok key := by
  have hlength : key.bytes.toList.length = 32 := by simp
  rw [deserialize, serialize, b64Decode_encode]
  exact dif_pos hlength

/-- **Of the texts of a key, one is its own.** -/
theorem Ed25519PubKeyBytes.serialize_of_deserialize_iff {s : Text} {key : Ed25519PubKeyBytes}
    (h : deserialize s = .ok key) :
    key.serialize = s ↔ ∀ digits, digitText digits = s → Canonical digits := by
  cases hdecode : b64Decode s with
  | error e =>
    rw [deserialize, hdecode] at h
    cases h
  | ok v =>
    have hkey : key.bytes.toList = v := by
      rw [deserialize, hdecode] at h
      change (if h : v.length = 32 then
        Except.ok (⟨⟨v.toArray, by simpa using h⟩⟩ : Ed25519PubKeyBytes) else _) = _ at h
      split at h
      · rw [← Except.ok.inj h]
        simp
      · cases h
    rw [serialize, hkey]
    exact b64Encode_of_decode_iff hdecode

/-! ### The codec as a bijection -/

/-- **Where the codec is a bijection**: every sequence of bytes is read back from its text;
and a text is written again as it was read exactly if it has a character of no digit, and is
not read at all, or its digits are canonical. -/
theorem base64_bijection_iff (bytes : List UInt8) (s : Text) :
    b64Decode (b64Encode bytes) = .ok bytes ∧
      ((∀ out, b64Decode s = .ok out → b64Encode out = s) ↔
        ∀ digits, digitText digits = s → Canonical digits) := by
  refine ⟨b64Decode_encode bytes, ?_, ?_⟩
  · rintro h digits rfl
    have hdecode : b64Decode (digitText digits) = .ok (octets digits) :=
      b64Decode_eq_ok_iff.mpr ⟨digits, rfl, rfl⟩
    exact (b64Encode_of_decode_iff hdecode).mp (h _ hdecode) digits rfl
  · exact fun h out hdecode => (b64Encode_of_decode_iff hdecode).mpr h

/-- A character too many is dropped, and so are bits too many. -/
theorem not_base64_bijection :
    ¬ (∀ s out, b64Decode s = .ok out → b64Encode out = s) ∧
      b64Decode "A".toList = .ok [] ∧ b64Encode [] = [] ∧
      b64Decode "AB".toList = .ok [0] ∧ b64Encode [0] = "AA".toList := by
  have hdangling : b64Decode "A".toList = .ok [] := by decide
  refine ⟨fun h => ?_, hdangling, rfl, by decide, by decide⟩
  have hsame : b64Encode [] = "A".toList := h _ _ hdangling
  exact absurd hsame (by decide)

end Extensions

end DevBrowse
