import DevBrowse.Extensions.Allowlist
import DevBrowse.Storage.Bootstrap
import Mathlib.Data.Prod.Lex

/-!
# Versions as texts

A version is written as three numbers between dots, and a constraint as `=` or `>=` before a
version. What is printed is read again as it was (`DevBrowse.Extensions.Version.parse_display`,
`DevBrowse.Extensions.VersionConstraint.parse_display`). What is read is one to three numbers
between dots, where each number may have a sign before it, as the standard library reads numbers
(`DevBrowse.Extensions.Version.parse_iff`); so a version can be written in more ways than by its
digits (`DevBrowse.Extensions.versionSyntax_iff`).
-/

namespace DevBrowse

namespace Extensions

open Storage (parseU32)

/-- The text is no version. -/
inductive VersionParseError where
  | invalidVersion
  deriving DecidableEq

/-- The text is no constraint. -/
inductive VersionConstraintParseError where
  | invalidVersionConstraint
  deriving DecidableEq

namespace Version

/-- A part of a version. -/
def parsePart (part : Text) : Except VersionParseError UInt32 :=
  match parseU32 part with
  | some n => .ok n
  | none => .error .invalidVersion

/-- **Read a version.** Parts that are missing are 0. -/
def parse (s : Text) : Except VersionParseError Version := do
  let parts := s.splitOn '.'
  if parts.isEmpty || decide (3 < parts.length) then throw .invalidVersion
  let major ← parsePart (parts.getD 0 [])
  let minor ← if 1 < parts.length then parsePart (parts.getD 1 []) else pure 0
  let patch ← if 2 < parts.length then parsePart (parts.getD 2 []) else pure 0
  return ⟨major, minor, patch⟩

/-- The text of a version. -/
def display (v : Version) : Text :=
  Nat.toDigits 10 v.major.toNat ++ '.' :: (Nat.toDigits 10 v.minor.toNat ++
    '.' :: Nat.toDigits 10 v.patch.toNat)

/-- The three numbers, compared from the first. -/
def triple (v : Version) : ℕ ×ₗ ℕ ×ₗ ℕ :=
  toLex (v.major.toNat, toLex (v.minor.toNat, v.patch.toNat))

end Version

namespace VersionConstraint

/-- What is printed before the version of a constraint. -/
def parseAs (make : Version → VersionConstraint) (rest : Text) :
    Except VersionConstraintParseError VersionConstraint :=
  match Version.parse rest.trim with
  | .ok v => .ok (make v)
  | .error _ => .error .invalidVersionConstraint

/-- **Read a constraint.** -/
def parse (s : Text) : Except VersionConstraintParseError VersionConstraint :=
  match s.trim with
  | '>' :: '=' :: rest => parseAs .atLeast rest
  | '=' :: rest => parseAs .exact rest
  | _ => .error .invalidVersionConstraint

/-- The text of a constraint. -/
def display : VersionConstraint → Text
  | .exact v => '=' :: v.display
  | .atLeast v => '>' :: '=' :: v.display

end VersionConstraint

/-! ### Numbers -/

/-- The text is digits, behind a sign or not, that denote the number. -/
def MayBeSigned (s : Text) (n : UInt32) : Prop :=
  Text.Denotes s n.toNat ∨ ∃ digits, s = '+' :: digits ∧ Text.Denotes digits n.toNat

/-- The text is digits that denote the number. -/
def Unsigned (s : Text) (n : UInt32) : Prop := Text.Denotes s n.toNat

variable {s : Text} {n : UInt32} {v : Version}

/-- Digits as a number that fits. -/
def readDigits (digits : Text) : Option UInt32 :=
  if digits = [] ∨ !digits.all Char.isDigit then none
  else
    let n := digits.foldl (fun n c => 10 * n + (c.toNat - '0'.toNat)) 0
    if n < UInt32.size then some (.ofNat n) else none

theorem parseU32_plus (digits : Text) : parseU32 ('+' :: digits) = readDigits digits := rfl

theorem parseU32_of_ne (h : ∀ digits, s ≠ '+' :: digits) : parseU32 s = readDigits s := by
  rw [parseU32]
  · rfl
  · exact h

theorem readDigits_eq_some_iff : readDigits s = some n ↔ Text.Denotes s n.toNat := by
  rw [readDigits]
  constructor
  · intro h
    split at h
    · cases h
    · rename_i hdigits
      rw [not_or, Bool.not_eq_true', Bool.not_eq_false, List.all_eq_true] at hdigits
      dsimp only at h
      split at h
      · rename_i hfits
        refine ⟨hdigits.1, hdigits.2, ?_⟩
        rw [← Option.some.inj h, UInt32.toNat_ofNat_of_lt' hfits]
        rfl
      · cases h
  · intro h
    have hdigits : ¬ (s = [] ∨ (!s.all Char.isDigit) = true) := by
      rw [not_or, Bool.not_eq_true', Bool.not_eq_false, List.all_eq_true]
      exact ⟨h.ne_nil, h.isDigit⟩
    have hvalue : s.foldl (fun n c => 10 * n + (c.toNat - '0'.toNat)) 0 = n.toNat := h.value
    rw [if_neg hdigits]
    dsimp only
    rw [hvalue, if_pos n.toNat_lt, UInt32.ofNat_toNat]

/-- **What the standard library reads as a number**: digits behind a sign or not, for a number
that fits. -/
theorem parseU32_eq_some_iff : parseU32 s = some n ↔ MayBeSigned s n := by
  by_cases hplus : ∃ rest, s = '+' :: rest
  · obtain ⟨rest, rfl⟩ := hplus
    rw [parseU32_plus, readDigits_eq_some_iff, MayBeSigned]
    constructor
    · exact fun h => .inr ⟨rest, rfl, h⟩
    · rintro (h | ⟨digits, heq, h⟩)
      · exact absurd List.mem_cons_self (h.notMem (by decide))
      · obtain rfl := List.tail_eq_of_cons_eq heq
        exact h
  · have hplain : ∀ rest, s ≠ '+' :: rest := fun rest hs => hplus ⟨rest, hs⟩
    rw [parseU32_of_ne hplain, readDigits_eq_some_iff, MayBeSigned]
    constructor
    · exact .inl
    · rintro (h | ⟨digits, hs, -⟩)
      · exact h
      · exact absurd hs (hplain digits)

theorem parsePart_eq_ok_iff : Version.parsePart s = .ok n ↔ MayBeSigned s n := by
  rw [← parseU32_eq_some_iff, Version.parsePart]
  cases parseU32 s <;> simp

/-! ### Versions -/

/-- **The texts of a version**: one to three parts between dots, each of which is written in some
way for its number. Parts that are missing are 0. -/
inductive Written (part : Text → UInt32 → Prop) : Text → Version → Prop
  | one {a : Text} {x : UInt32} (ha : part a x) : Written part a ⟨x, 0, 0⟩
  | two {a b : Text} {x y : UInt32} (ha : part a x) (hb : part b y) :
      Written part (a ++ '.' :: b) ⟨x, y, 0⟩
  | three {a b c : Text} {x y z : UInt32} (ha : part a x) (hb : part b y) (hc : part c z) :
      Written part (a ++ '.' :: (b ++ '.' :: c)) ⟨x, y, z⟩

theorem MayBeSigned.notMem_dot (h : MayBeSigned s n) : '.' ∉ s := by
  rcases h with h | ⟨digits, rfl, h⟩
  · exact h.notMem (by decide)
  · rw [List.mem_cons, not_or]
    exact ⟨by decide, h.notMem (by decide)⟩

namespace Version

/-- What is read from the parts of a version. -/
def parseParts : List Text → Except VersionParseError Version
  | [a] => (parsePart a).bind fun x => .ok ⟨x, 0, 0⟩
  | [a, b] => (parsePart a).bind fun x => (parsePart b).bind fun y => .ok ⟨x, y, 0⟩
  | [a, b, c] => (parsePart a).bind fun x => (parsePart b).bind fun y =>
      (parsePart c).bind fun z => .ok ⟨x, y, z⟩
  | _ => .error .invalidVersion

theorem parse_eq (s : Text) : parse s = parseParts (s.splitOn '.') := by
  rw [parse]
  generalize s.splitOn '.' = parts
  match parts with
  | [] | [a] | [a, b] | [a, b, c] => rfl
  | a :: b :: c :: d :: rest =>
    have hlong : 3 < (a :: b :: c :: d :: rest).length := by simp
    simp only [hlong, decide_true, Bool.or_true, if_true]
    rfl

/-- A part is read first, and the rest is built from its number. -/
theorem parsePart_bind {a : Text} {f : UInt32 → Except VersionParseError Version} :
    (parsePart a).bind f = .ok v ↔ ∃ x, MayBeSigned a x ∧ f x = .ok v := by
  simp only [← parsePart_eq_ok_iff]
  cases parsePart a with
  | error e => simp [Except.bind]
  | ok x => simp [Except.bind]

theorem joined_two (a b : Text) : ['.'].intercalate [a, b] = a ++ '.' :: b := by
  simp [List.intercalate_cons_cons]

theorem joined_three (a b c : Text) :
    ['.'].intercalate [a, b, c] = a ++ '.' :: (b ++ '.' :: c) := by
  simp [List.intercalate_cons_cons]

/-- No part has a dot in it, so a version is split where it was put together. -/
theorem splitOn_joined (parts : List Text) (hne : parts ≠ [])
    (hparts : ∀ part ∈ parts, ∃ x, MayBeSigned part x) :
    (['.'].intercalate parts).splitOn '.' = parts := by
  refine List.splitOn_intercalate '.' (fun part hpart => ?_) hne
  obtain ⟨x, hx⟩ := hparts part hpart
  exact hx.notMem_dot

/-- **What is read as a version**: one to three numbers between dots, each behind a sign or not. -/
theorem parse_iff : parse s = .ok v ↔ Written MayBeSigned s v := by
  rw [parse_eq]
  constructor
  · intro h
    have hs : ['.'].intercalate (s.splitOn '.') = s := List.intercalate_splitOn '.'
    generalize s.splitOn '.' = parts at h hs
    subst hs
    match parts with
    | [] => cases h
    | [a] =>
      obtain ⟨x, ha, h⟩ := parsePart_bind.mp h
      cases h
      rw [List.intercalate_singleton]
      exact .one ha
    | [a, b] =>
      obtain ⟨x, ha, h⟩ := parsePart_bind.mp h
      obtain ⟨y, hb, h⟩ := parsePart_bind.mp h
      cases h
      rw [joined_two]
      exact .two ha hb
    | [a, b, c] =>
      obtain ⟨x, ha, h⟩ := parsePart_bind.mp h
      obtain ⟨y, hb, h⟩ := parsePart_bind.mp h
      obtain ⟨z, hc, h⟩ := parsePart_bind.mp h
      cases h
      rw [joined_three]
      exact .three ha hb hc
    | a :: b :: c :: d :: rest => cases h
  · intro h
    cases h with
    | one ha =>
      have hs := splitOn_joined [s] (by simp) (by simpa using ⟨_, ha⟩)
      rw [List.intercalate_singleton] at hs
      rw [hs]
      exact parsePart_bind.mpr ⟨_, ha, rfl⟩
    | @two a b x y ha hb =>
      have hs := splitOn_joined [a, b] (by simp) (by simpa using ⟨⟨x, ha⟩, ⟨y, hb⟩⟩)
      rw [joined_two] at hs
      rw [hs]
      exact parsePart_bind.mpr ⟨x, ha, parsePart_bind.mpr ⟨y, hb, rfl⟩⟩
    | @three a b c x y z ha hb hc =>
      have hs := splitOn_joined [a, b, c] (by simp)
        (by simpa using ⟨⟨x, ha⟩, ⟨y, hb⟩, ⟨z, hc⟩⟩)
      rw [joined_three] at hs
      rw [hs]
      exact parsePart_bind.mpr ⟨x, ha, parsePart_bind.mpr ⟨y, hb, parsePart_bind.mpr ⟨z, hc, rfl⟩⟩⟩

/-- **A version is read from what is printed for it.** -/
theorem parse_display (v : Version) : parse v.display = .ok v :=
  parse_iff.mpr (.three (.inl (Text.denotes_toDigits v.major.toNat))
    (.inl (Text.denotes_toDigits v.minor.toNat)) (.inl (Text.denotes_toDigits v.patch.toNat)))

/-- What is printed for a version is digits and dots. -/
theorem isDigit_of_mem_display {c : Char} (hc : c ∈ v.display) : c.isDigit = true ∨ c = '.' := by
  have hdigit : ∀ {n : ℕ}, c ∈ Nat.toDigits 10 n → c.isDigit = true := fun {n} hn =>
    (Text.denotes_toDigits n).isDigit c hn
  rw [display, List.mem_append, List.mem_cons, List.mem_append, List.mem_cons] at hc
  rcases hc with hc | hc | hc | hc | hc
  · exact .inl (hdigit hc)
  · exact .inr hc
  · exact .inl (hdigit hc)
  · exact .inr hc
  · exact .inl (hdigit hc)

theorem isWhitespace_of_mem_display {c : Char} (hc : c ∈ v.display) :
    Text.isWhitespace c = false := by
  rcases isDigit_of_mem_display hc with hc | rfl
  · exact Text.isWhitespace_of_isDigit hc
  · decide

/-- The order of versions is the one of their three numbers, from the first. -/
theorem le_iff {v w : Version} : v ≤ w ↔ v.triple ≤ w.triple := by
  rw [triple, triple, Prod.Lex.toLex_le_toLex, Prod.Lex.toLex_le_toLex, ← UInt32.lt_iff_toNat_lt,
    ← UInt32.lt_iff_toNat_lt, ← UInt32.le_iff_toNat_le, UInt32.toNat_inj, UInt32.toNat_inj]
  exact Iff.rfl

end Version

/-! ### Constraints -/

namespace VersionConstraint

variable {f w : Version}

/-- **A constraint is read from what is printed for it.** -/
theorem parse_display (c : VersionConstraint) : parse c.display = .ok c := by
  have htrim (v : Version) : v.display.trim = v.display :=
    Text.trim_eq_self fun c hc => Version.isWhitespace_of_mem_display hc
  cases c with
  | exact v =>
    have hall : Text.trim ('=' :: v.display) = '=' :: v.display := by
      refine Text.trim_eq_self fun c hc => ?_
      rcases List.mem_cons.mp hc with rfl | hc
      · decide
      · exact Version.isWhitespace_of_mem_display hc
    simp only [display, parse, hall, parseAs, htrim, Version.parse_display]
  | atLeast v =>
    have hall : Text.trim ('>' :: '=' :: v.display) = '>' :: '=' :: v.display := by
      refine Text.trim_eq_self fun c hc => ?_
      rcases List.mem_cons.mp hc with rfl | hc
      · decide
      · rcases List.mem_cons.mp hc with rfl | hc
        · decide
        · exact Version.isWhitespace_of_mem_display hc
    simp only [display, parse, hall, parseAs, htrim, Version.parse_display]

/-- **A floor admits the versions from it on.** -/
theorem satisfies_atLeast : (atLeast f).satisfies v = true ↔ f.triple ≤ v.triple :=
  decide_eq_true_iff.trans Version.le_iff

/-- A floor that a version meets is met by those above it. -/
theorem satisfies_of_le (h : (atLeast f).satisfies v = true) (hle : v.triple ≤ w.triple) :
    (atLeast f).satisfies w = true :=
  satisfies_atLeast.mpr ((satisfies_atLeast.mp h).trans hle)

end VersionConstraint

/-! ### Signs -/

theorem Unsigned.notMem_plus (h : Unsigned s n) : '+' ∉ s := Text.Denotes.notMem h (by decide)

/-- A number without a sign in it is written by its digits. -/
theorem MayBeSigned.unsigned (h : MayBeSigned s n) (hs : '+' ∉ s) : Unsigned s n := by
  rcases h with h | ⟨digits, rfl, -⟩
  · exact h
  · exact absurd List.mem_cons_self hs

namespace Written

variable {part part' : Text → UInt32 → Prop}

/-- Another way to write the parts is another way to write the version. -/
theorem mono (h : Written part s v) (hpart : ∀ {t n}, t ⊆ s → part t n → part' t n) :
    Written part' s v := by
  cases h with
  | one ha => exact .one (hpart (List.Subset.refl _) ha)
  | @two a b x y ha hb =>
    have hsub : a ⊆ a ++ '.' :: b ∧ b ⊆ a ++ '.' :: b := by simp
    exact .two (hpart hsub.1 ha) (hpart hsub.2 hb)
  | @three a b c x y z ha hb hc =>
    have hsub : a ⊆ a ++ '.' :: (b ++ '.' :: c) ∧ b ⊆ a ++ '.' :: (b ++ '.' :: c) ∧
        c ⊆ a ++ '.' :: (b ++ '.' :: c) := by
      refine ⟨by simp, fun d hd => ?_, fun d hd => ?_⟩ <;> simp [hd]
    exact .three (hpart hsub.1 ha) (hpart hsub.2.1 hb) (hpart hsub.2.2 hc)

theorem notMem_plus (h : Written Unsigned s v) : '+' ∉ s := by
  cases h with
  | one ha => exact ha.notMem_plus
  | two ha hb => simp [ha.notMem_plus, hb.notMem_plus]
  | three ha hb hc => simp [ha.notMem_plus, hb.notMem_plus, hc.notMem_plus]

end Written

namespace Version

/-- Versions are read by their digits alone where there is no sign. -/
theorem parse_unsigned_iff : (∀ v, parse s = .ok v ↔ Written Unsigned s v) ↔
    ¬ ('+' ∈ s ∧ ∃ v, Written MayBeSigned s v) := by
  constructor
  · rintro h ⟨hplus, v, hv⟩
    exact ((h v).mp (parse_iff.mpr hv)).notMem_plus hplus
  · intro h v
    rw [parse_iff]
    constructor
    · intro hv
      have hplus : '+' ∉ s := fun hplus => h ⟨hplus, v, hv⟩
      exact hv.mono fun ht hn => hn.unsigned fun hmem => hplus (ht hmem)
    · exact fun hv => hv.mono fun _ hn => .inl hn

end Version

/-- **Versions as texts.** What is printed is read again as it was; a floor admits the versions
from it on, hence all above one it admits; and a text is read by the digits of its numbers alone
where it is no version with a sign in it. -/
theorem versionSyntax_iff (s : Text) :
    ((∀ v : Version, Version.parse v.display = .ok v) ∧
      (∀ c : VersionConstraint, VersionConstraint.parse c.display = .ok c) ∧
      (∀ v, Version.parse s = .ok v ↔ Written Unsigned s v) ∧
      (∀ f v, (VersionConstraint.atLeast f).satisfies v = true ↔ f.triple ≤ v.triple) ∧
      ∀ f v w, (VersionConstraint.atLeast f).satisfies v = true → v.triple ≤ w.triple →
        (VersionConstraint.atLeast f).satisfies w = true) ↔
    ¬ ('+' ∈ s ∧ ∃ v, Written MayBeSigned s v) := by
  rw [← Version.parse_unsigned_iff]
  constructor
  · exact fun h => h.2.2.1
  · intro h
    exact ⟨Version.parse_display, VersionConstraint.parse_display, h,
      fun _ _ => VersionConstraint.satisfies_atLeast,
      fun _ _ _ => VersionConstraint.satisfies_of_le⟩

/-- A sign is read and is no digit: `+1.0` is read as `1.0.0`. -/
theorem Version.parse_signed :
    Version.parse "+1.0".toList = .ok ⟨1, 0, 0⟩ ∧
      ¬ ∀ v, Version.parse "+1.0".toList = .ok v ↔ Written Unsigned "+1.0".toList v := by
  have hread : Version.parse "+1.0".toList = .ok ⟨1, 0, 0⟩ := by decide +kernel
  refine ⟨hread, fun h => ?_⟩
  exact ((h ⟨1, 0, 0⟩).mp hread).notMem_plus (by decide)

end Extensions

end DevBrowse
