import Mathlib.Data.List.Basic
import Mathlib.Data.Nat.Digits.Defs

/-!
# Bytes in network order

Words of two and four bytes, the most significant byte first, the number that a list of bytes
is in this order, and where a list of bytes stands in another.
-/

namespace Bytes

/-! ### Words -/

/-- A word of two bytes. -/
def u16 (b₀ b₁ : UInt8) : UInt16 := .ofNat (b₀.toNat * 256 + b₁.toNat)

/-- A word of four bytes. -/
def u32 (b₀ b₁ b₂ b₃ : UInt8) : UInt32 :=
  .ofNat (((b₀.toNat * 256 + b₁.toNat) * 256 + b₂.toNat) * 256 + b₃.toNat)

/-- The bytes of a word of two. -/
def ofU16 (w : UInt16) : List UInt8 := [.ofNat (w.toNat / 256), .ofNat w.toNat]

/-- The bytes of a word of four. -/
def ofU32 (w : UInt32) : List UInt8 :=
  [.ofNat (w.toNat / 256 / 256 / 256), .ofNat (w.toNat / 256 / 256), .ofNat (w.toNat / 256),
    .ofNat w.toNat]

@[simp] theorem length_ofU16 (w : UInt16) : (ofU16 w).length = 2 := rfl

@[simp] theorem length_ofU32 (w : UInt32) : (ofU32 w).length = 4 := rfl

theorem toNat_ofNat (n : ℕ) : (UInt8.ofNat n).toNat = n % 256 := UInt8.toNat_ofNat'

theorem u16_ofU16 (w : UInt16) : u16 (.ofNat (w.toNat / 256)) (.ofNat w.toNat) = w := by
  have hw := w.toNat_lt
  have hsum : w.toNat / 256 % 256 * 256 + w.toNat % 256 = w.toNat := by omega
  rw [u16, toNat_ofNat, toNat_ofNat, hsum, UInt16.ofNat_toNat]

theorem u32_ofU32 (w : UInt32) :
    u32 (.ofNat (w.toNat / 256 / 256 / 256)) (.ofNat (w.toNat / 256 / 256))
      (.ofNat (w.toNat / 256)) (.ofNat w.toNat) = w := by
  have hw := w.toNat_lt
  have hsum : ((w.toNat / 256 / 256 / 256 % 256 * 256 + w.toNat / 256 / 256 % 256) * 256 +
      w.toNat / 256 % 256) * 256 + w.toNat % 256 = w.toNat := by omega
  rw [u32, toNat_ofNat, toNat_ofNat, toNat_ofNat, toNat_ofNat, hsum, UInt32.ofNat_toNat]

theorem ofU16_u16 (b₀ b₁ : UInt8) : ofU16 (u16 b₀ b₁) = [b₀, b₁] := by
  have h₀ := b₀.toNat_lt
  have h₁ := b₁.toNat_lt
  have hword : (u16 b₀ b₁).toNat = b₀.toNat * 256 + b₁.toNat :=
    UInt16.toNat_ofNat_of_lt (by show b₀.toNat * 256 + b₁.toNat < 2 ^ 16; omega)
  have hbyte : ∀ (b : UInt8) (n : ℕ), n % 256 = b.toNat → UInt8.ofNat n = b := fun b n hn =>
    UInt8.toNat_inj.mp ((toNat_ofNat n).trans hn)
  rw [ofU16, hword, hbyte b₀ _ (by omega), hbyte b₁ _ (by omega)]

theorem ofU32_u32 (b₀ b₁ b₂ b₃ : UInt8) : ofU32 (u32 b₀ b₁ b₂ b₃) = [b₀, b₁, b₂, b₃] := by
  have h₀ := b₀.toNat_lt
  have h₁ := b₁.toNat_lt
  have h₂ := b₂.toNat_lt
  have h₃ := b₃.toNat_lt
  have hword : (u32 b₀ b₁ b₂ b₃).toNat =
      ((b₀.toNat * 256 + b₁.toNat) * 256 + b₂.toNat) * 256 + b₃.toNat := by
    rw [u32, UInt32.toNat_ofNat', Nat.mod_eq_of_lt (by omega)]
  have hbyte : ∀ (b : UInt8) (n : ℕ), n % 256 = b.toNat → UInt8.ofNat n = b := fun b n hn =>
    UInt8.toNat_inj.mp ((toNat_ofNat n).trans hn)
  rw [ofU32, hword, hbyte b₀ _ (by omega), hbyte b₁ _ (by omega), hbyte b₂ _ (by omega),
    hbyte b₃ _ (by omega)]

/-! ### Numbers -/

/-- The number that bytes are, the most significant byte first. -/
def value (bytes : List UInt8) : ℕ := Nat.ofDigits 256 (bytes.reverse.map UInt8.toNat)

theorem value_append (a b : List UInt8) : value (a ++ b) = value a * 256 ^ b.length + value b := by
  rw [value, List.reverse_append, List.map_append, Nat.ofDigits_append, List.length_map,
    List.length_reverse, ← value, ← value, Nat.mul_comm, Nat.add_comm]

theorem value_lt (bytes : List UInt8) : value bytes < 256 ^ bytes.length := by
  have hdigits : ∀ d ∈ bytes.reverse.map UInt8.toNat, d < 256 := by
    intro d hd
    obtain ⟨b, -, rfl⟩ := List.mem_map.mp hd
    exact b.toNat_lt
  have hlt := Nat.ofDigits_lt_base_pow_length (by decide) hdigits
  rwa [List.length_map, List.length_reverse] at hlt

/-- The number of leading bytes is what a division leaves. -/
theorem value_append_div (a b : List UInt8) : value (a ++ b) / 256 ^ b.length = value a := by
  rw [value_append, Nat.mul_comm, Nat.mul_add_div (Nat.pow_pos (by decide)),
    Nat.div_eq_of_lt (value_lt b), Nat.add_zero]

theorem value_inj {a b : List UInt8} (hlen : a.length = b.length) (h : value a = value b) :
    a = b := by
  have hdigits : ∀ l : List UInt8, ∀ d ∈ l.reverse.map UInt8.toNat, d < 256 := by
    intro l d hd
    obtain ⟨x, -, rfl⟩ := List.mem_map.mp hd
    exact x.toNat_lt
  have hrev := Nat.ofDigits_inj_of_len_eq (by decide) (by simpa using hlen) (hdigits a)
    (hdigits b) h
  exact List.reverse_injective (List.map_injective_iff.mpr (fun _ _ => UInt8.toNat_inj.mp) hrev)

theorem value_pair (a b : UInt8) : value [a, b] = (u16 a b).toNat := by
  have ha := a.toNat_lt
  have hb := b.toNat_lt
  have hword : (u16 a b).toNat = a.toNat * 256 + b.toNat :=
    UInt16.toNat_ofNat_of_lt (by show a.toNat * 256 + b.toNat < 2 ^ 16; omega)
  rw [hword]
  simp [value, Nat.ofDigits_cons]
  omega

/-! ### Where bytes stand -/

/-- The bytes `part` stand in `bytes` at a position. -/
def At (bytes : List UInt8) (pos : ℕ) (part : List UInt8) : Prop := part <+: bytes.drop pos

instance (bytes : List UInt8) (pos : ℕ) (part : List UInt8) : Decidable (At bytes pos part) :=
  inferInstanceAs (Decidable (part <+: bytes.drop pos))

variable {bytes a b : List UInt8} {pos : ℕ} {x : UInt8}

/-- Bytes that are put together stand one after the other. -/
theorem at_append : At bytes pos (a ++ b) ↔ At bytes pos a ∧ At bytes (pos + a.length) b := by
  constructor
  · rintro ⟨rest, hrest⟩
    refine ⟨⟨b ++ rest, by rw [← hrest, List.append_assoc]⟩, ⟨rest, ?_⟩⟩
    rw [← List.drop_drop, ← hrest, List.append_assoc, List.drop_left]
  · rintro ⟨⟨rest, hrest⟩, ⟨rest', hrest'⟩⟩
    rw [← List.drop_drop, ← hrest, List.drop_left] at hrest'
    exact ⟨rest', by rw [List.append_assoc, hrest', hrest]⟩

theorem at_singleton : At bytes pos [x] ↔ bytes[pos]? = some x := by
  rw [← List.head?_drop, List.head?_eq_some_iff]
  constructor
  · rintro ⟨rest, hrest⟩
    exact ⟨rest, hrest.symm⟩
  · rintro ⟨rest, hrest⟩
    exact ⟨rest, hrest.symm⟩

theorem at_cons : At bytes pos (x :: a) ↔ bytes[pos]? = some x ∧ At bytes (pos + 1) a := by
  rw [← at_singleton]
  exact at_append (a := [x])

/-- Bytes that stand somewhere end where the others do, or before. -/
theorem At.add_length_le (h : At bytes pos a) (ha : a ≠ []) :
    pos + a.length ≤ bytes.length := by
  have hlen := List.IsPrefix.length_le h
  rw [List.length_drop] at hlen
  have hpos := List.length_pos_iff.mpr ha
  omega

/-- Where there are two more bytes there is a word. -/
theorem exists_at_ofU16 (h : pos + 2 ≤ bytes.length) : ∃ w, At bytes pos (ofU16 w) := by
  have hfirst : bytes[pos]? = some bytes[pos] := List.getElem?_eq_getElem (by omega)
  have hsecond : bytes[pos + 1]? = some bytes[pos + 1] := List.getElem?_eq_getElem (by omega)
  refine ⟨u16 bytes[pos] bytes[pos + 1], ?_⟩
  rw [ofU16_u16, at_cons, at_singleton]
  exact ⟨hfirst, hsecond⟩

end Bytes
