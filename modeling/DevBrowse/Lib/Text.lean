import Mathlib.Algebra.BigOperators.Group.List.Basic
import Mathlib.Algebra.GroupWithZero.Nat
import Mathlib.Data.List.Basic
import Mathlib.Data.List.DropRight
import Mathlib.Data.List.TakeWhile

/-!
# Texts

A text is the list of its characters. The operations of the standard library on strings
that the model needs are the list operations under their names there; the ones on ASCII
case touch the letters `A` to `Z` only, as `Char.toLower` does. Positions count characters,
lengths in memory the bytes of the UTF-8 encoding.

A text cut at the first occurrence of a character is the same two parts however it is put
together: `Text.find_append_cons` and `Text.exists_of_find` are the two directions, and
`Text.findStr_append` is the first for a search for more than one character.
-/

/-- A text, as the list of its characters. -/
abbrev Text := List Char

namespace Text

/-- The text with its ASCII letters in lower case. -/
def toAsciiLowercase (s : Text) : Text := s.map Char.toLower

theorem toLower_eq_self {c : Char} (h : ¬ (c.val ≥ 'A'.val ∧ c.val ≤ 'Z'.val)) :
    c.toLower = c := dif_neg h

theorem toNat_toLower {c : Char} (h : c.val ≥ 'A'.val ∧ c.val ≤ 'Z'.val) :
    c.toLower.val.toNat = c.val.toNat + 32 ∧ 65 ≤ c.val.toNat ∧ c.val.toNat ≤ 90 := by
  have hlow : c.toLower.val = c.val + ('a'.val - 'A'.val) := congrArg Char.val (dif_pos h)
  have hsub : ('a'.val - 'A'.val).toNat = 32 := by decide
  have hA : 'A'.val.toNat = 65 := by decide
  have hZ : 'Z'.val.toNat = 90 := by decide
  obtain ⟨hge, hle⟩ := h
  simp only [ge_iff_le, UInt32.le_iff_toNat_le] at hge hle
  rw [hlow, UInt32.toNat_add]
  omega

theorem toLower_toLower (c : Char) : c.toLower.toLower = c.toLower := by
  by_cases h : c.val ≥ 'A'.val ∧ c.val ≤ 'Z'.val
  · refine toLower_eq_self fun hlow => ?_
    obtain ⟨heq, hge, -⟩ := toNat_toLower h
    have hZ : 'Z'.val.toNat = 90 := by decide
    have hle := UInt32.le_iff_toNat_le.mp hlow.2
    omega
  · rw [toLower_eq_self h, toLower_eq_self h]

/-- Only lower-case letters are the lower case of another character. -/
theorem eq_of_toLower_eq {c d : Char} (h : c.toLower = d) (hd : d.isLower = false) : c = d := by
  subst h
  by_cases hup : c.val ≥ 'A'.val ∧ c.val ≤ 'Z'.val
  · obtain ⟨heq, hge, hle⟩ := toNat_toLower hup
    have ha : 'a'.val.toNat = 97 := by decide
    have hz : 'z'.val.toNat = 122 := by decide
    have hlower : c.toLower.isLower = true := by
      show (decide ('a'.val ≤ c.toLower.val) && decide (c.toLower.val ≤ 'z'.val)) = true
      simp only [Bool.and_eq_true, decide_eq_true_eq, UInt32.le_iff_toNat_le]
      omega
    rw [hlower] at hd
    cases hd
  · exact (toLower_eq_self hup).symm

theorem eq_of_toAsciiLowercase_eq {s t : Text} (h : s.toAsciiLowercase = t)
    (ht : t.any Char.isLower = false) : s = t := by
  subst h
  induction s with
  | nil => rfl
  | cons c s ih =>
    rw [toAsciiLowercase, List.map_cons, List.any_cons, Bool.or_eq_false_iff] at ht
    have hc : c = c.toLower := eq_of_toLower_eq rfl ht.1
    have hs : s = toAsciiLowercase s := ih ht.2
    rw [toAsciiLowercase, List.map_cons, ← hc]
    exact congrArg (c :: ·) hs

theorem notMem_of_toAsciiLowercase {s t : Text} {c : Char} (h : s.toAsciiLowercase = t)
    (hc : c.toLower ∉ t) : c ∉ s := by
  subst h
  exact fun hmem => hc (List.mem_map_of_mem hmem)

@[simp] theorem toAsciiLowercase_idem (s : Text) :
    s.toAsciiLowercase.toAsciiLowercase = s.toAsciiLowercase := by
  rw [toAsciiLowercase, toAsciiLowercase, List.map_map]
  exact List.map_congr_left fun c _ => toLower_toLower c

/-- The UTF-8 encoding of a text. -/
def utf8Bytes (s : Text) : List UInt8 := s.flatMap String.utf8EncodeChar

theorem utf8Bytes_injective : Function.Injective utf8Bytes := by
  intro s t h
  refine String.ofList_injective (String.toByteArray_inj.mp ?_)
  rw [String.toByteArray_ofList, String.toByteArray_ofList]
  exact congrArg List.toByteArray h

/-- The first 128 characters are one byte each. -/
theorem utf8EncodeChar_of_lt {c : Char} (h : c.toNat < 128) :
    String.utf8EncodeChar c = [.ofNat c.toNat] :=
  if_pos (Nat.le_of_lt_succ h)

/-- No byte of another character is one of theirs. -/
theorem le_of_mem_utf8EncodeChar {c : Char} {b : UInt8} (h : 128 ≤ c.toNat)
    (hb : b ∈ String.utf8EncodeChar c) : 128 ≤ b.toNat := by
  have hne : ¬ c.val.toNat ≤ 0x7f := Nat.not_le.mpr h
  rw [String.utf8EncodeChar, if_neg hne] at hb
  split at hb
  · simp only [List.mem_cons, List.not_mem_nil, or_false] at hb
    rcases hb with rfl | rfl <;> rw [UInt8.toNat_ofNat'] <;> omega
  · split at hb
    · simp only [List.mem_cons, List.not_mem_nil, or_false] at hb
      rcases hb with rfl | rfl | rfl <;> rw [UInt8.toNat_ofNat'] <;> omega
    · simp only [List.mem_cons, List.not_mem_nil, or_false] at hb
      rcases hb with rfl | rfl | rfl | rfl <;> rw [UInt8.toNat_ofNat'] <;> omega

/-- The length of the UTF-8 encoding. -/
def utf8Len (s : Text) : ℕ := s.utf8Bytes.length

/-- A text from its UTF-8 encoding. -/
def ofUtf8 (bytes : List UInt8) : Option Text :=
  (String.fromUTF8? bytes.toByteArray).map String.toList

theorem ofUtf8_utf8Bytes (s : Text) : ofUtf8 (utf8Bytes s) = some s := by
  have hbytes : (utf8Bytes s).toByteArray = (String.ofList s).toByteArray :=
    String.toByteArray_ofList.symm
  rw [ofUtf8, hbytes, String.fromUTF8?, dif_pos (String.ofList s).isValidUTF8]
  exact congrArg some String.toList_ofList

/-! ### White space -/

/-- Whether a character is white space, as Unicode has it. -/
def isWhitespace (c : Char) : Bool :=
  let n := c.toNat
  (9 ≤ n ∧ n ≤ 13) ∨ n = 0x20 ∨ n = 0x85 ∨ n = 0xA0 ∨ n = 0x1680 ∨ (0x2000 ≤ n ∧ n ≤ 0x200A) ∨
    n = 0x2028 ∨ n = 0x2029 ∨ n = 0x202F ∨ n = 0x205F ∨ n = 0x3000

/-- The text without the white space around it. -/
def trim (s : Text) : Text := (List.dropWhile isWhitespace s).rdropWhile isWhitespace

theorem trim_trim (s : Text) : trim (trim s) = trim s := by
  have hfirst : (trim s).dropWhile isWhitespace = trim s := by
    refine List.dropWhile_eq_self_iff.mpr fun hpos => ?_
    have hpre : trim s <+: s.dropWhile isWhitespace := List.rdropWhile_prefix ..
    have hlen : 0 < (s.dropWhile isWhitespace).length := hpos.trans_le hpre.length_le
    have hhead := hpre.getElem hpos
    rw [hhead]
    exact List.dropWhile_get_zero_not isWhitespace s hlen
  rw [trim, hfirst]
  exact List.rdropWhile_idempotent ..

/-- A text without white space has none around it. -/
theorem trim_eq_self {s : Text} (h : ∀ c ∈ s, isWhitespace c = false) : trim s = s := by
  have hfirst : List.dropWhile isWhitespace s = s := by
    refine List.dropWhile_eq_self_iff.mpr fun hpos => ?_
    rw [h _ (List.getElem_mem hpos)]
    exact Bool.false_ne_true
  rw [trim, hfirst, List.rdropWhile_eq_self_iff]
  intro hne
  rw [h _ (List.getLast_mem hne)]
  exact Bool.false_ne_true

theorem isWhitespace_of_isDigit {c : Char} (h : c.isDigit = true) : isWhitespace c = false := by
  have hdigit : 48 ≤ c.toNat ∧ c.toNat ≤ 57 := by
    rw [Char.isDigit, Bool.and_eq_true, decide_eq_true_eq, decide_eq_true_eq] at h
    exact h
  simp only [isWhitespace, decide_eq_false_iff_not]
  omega

/-! ### Cutting a text at a character -/

/-- The position of the first occurrence of a character. -/
def find (s : Text) (c : Char) : Option ℕ := s.findIdx? (· == c)

/-- The position of the first occurrence of a text in another. -/
def findStr (needle : Text) : Text → Option ℕ
  | [] => if needle = [] then some 0 else none
  | c :: s => if needle.isPrefixOf (c :: s) then some 0 else (findStr needle s).map (· + 1)

variable {s a b : Text} {c : Char} {i : ℕ}

theorem find_eq_none_iff : s.find c = none ↔ c ∉ s := by
  rw [find, List.findIdx?_eq_none_iff]
  constructor
  · intro h hc
    simpa using h c hc
  · rintro h x hx
    rw [beq_eq_false_iff_ne]
    rintro rfl
    exact h hx

theorem find_append_cons (h : c ∉ a) : find (a ++ c :: b) c = some a.length := by
  have hnone : a.findIdx? (· == c) = none := find_eq_none_iff.mpr h
  rw [find, List.findIdx?_append, hnone, List.findIdx?_cons]
  simp

theorem exists_of_find (h : s.find c = some i) :
    ∃ a b, s = a ++ c :: b ∧ c ∉ a ∧ a.length = i := by
  have hmem : c ∈ s := by
    by_contra hc
    rw [find_eq_none_iff.mpr hc] at h
    cases h
  obtain ⟨a, b, rfl, hc⟩ := List.eq_append_cons_of_mem hmem
  rw [find_append_cons hc] at h
  exact ⟨a, b, rfl, hc, Option.some.inj h⟩

/-- A text up to the first character that fails a test, known from where it is cut. -/
theorem takeWhile_append {p : Char → Bool} (ha : ∀ c ∈ a, p c = true)
    (hb : ∀ c ∈ b.head?, p c = false) : (a ++ b).takeWhile p = a := by
  rw [List.takeWhile_append_of_pos ha]
  cases b with
  | nil => rw [List.takeWhile_nil, List.append_nil]
  | cons c b => rw [List.takeWhile_cons_of_neg (by simp [hb c rfl]), List.append_nil]

/-- Every text can be cut where a test is first met. -/
theorem exists_cut (p : Char → Bool) (s : Text) :
    ∃ a b, s = a ++ b ∧ (∀ c ∈ a, p c = false) ∧ ∀ c ∈ b.head?, p c = true := by
  induction s with
  | nil => exact ⟨[], [], rfl, by simp, by simp⟩
  | cons c s ih =>
    by_cases hc : p c = true
    · exact ⟨[], c :: s, rfl, by simp, by simpa using hc⟩
    · obtain ⟨a, b, rfl, ha, hb⟩ := ih
      refine ⟨c :: a, b, rfl, fun d hd => ?_, hb⟩
      rcases List.mem_cons.mp hd with rfl | hd
      · exact Bool.eq_false_iff.mpr hc
      · exact ha d hd

theorem findStr_append {d : Char} {needle : Text} (h : d ∉ a) :
    findStr (d :: needle) (a ++ d :: needle ++ b) = some a.length := by
  induction a with
  | nil =>
    rw [List.nil_append, List.cons_append, findStr, if_pos]
    · rfl
    · exact List.isPrefixOf_iff_prefix.mpr (List.prefix_append (d :: needle) b)
  | cons c a ih =>
    rw [List.mem_cons, not_or] at h
    have hfirst : ¬ List.isPrefixOf (d :: needle) (c :: (a ++ d :: needle ++ b)) := by
      rw [List.isPrefixOf_iff_prefix, List.cons_prefix_cons]
      exact fun hp => h.1 hp.1
    rw [List.cons_append, List.cons_append, findStr, if_neg hfirst, ih h.2]
    rfl

/-! ### Splitting and joining -/

/-- The parts of a text are made of its characters, the separator apart. -/
theorem mem_of_mem_splitOn {part : Text} {x : Char} (hpart : part ∈ s.splitOn c)
    (hx : x ∈ part) : x ∈ s ∧ x ≠ c := by
  induction s generalizing part with
  | nil =>
    obtain rfl : part = [] := by simpa using hpart
    cases hx
  | cons d s ih =>
    rw [List.splitOn_cons_eq_if_modifyHead] at hpart
    split at hpart
    · rcases List.mem_cons.mp hpart with rfl | hpart
      · cases hx
      · exact ⟨List.mem_cons_of_mem d (ih hpart hx).1, (ih hpart hx).2⟩
    · rename_i hd
      obtain ⟨first, rest, hsplit⟩ := List.exists_cons_of_ne_nil (List.splitOn_ne_nil c s)
      rw [hsplit] at ih
      rw [hsplit, List.modifyHead_cons] at hpart
      rcases List.mem_cons.mp hpart with rfl | hpart
      · rcases List.mem_cons.mp hx with rfl | hx
        · exact ⟨List.mem_cons_self, by simpa using hd⟩
        · have hin := ih List.mem_cons_self hx
          exact ⟨List.mem_cons_of_mem d hin.1, hin.2⟩
      · have hin := ih (List.mem_cons_of_mem first hpart) hx
        exact ⟨List.mem_cons_of_mem d hin.1, hin.2⟩

/-- The parts of a text have its characters between them, the separators apart. -/
theorem length_splitOn (s : Text) (c : Char) :
    ((s.splitOn c).map fun part => 1 + part.length).sum = s.length + 1 := by
  induction s with
  | nil => simp
  | cons d s ih =>
    rw [List.splitOn_cons_eq_if_modifyHead]
    split
    · rw [List.map_cons, List.sum_cons, ih, List.length_nil, List.length_cons]
      omega
    · obtain ⟨first, rest, hsplit⟩ := List.exists_cons_of_ne_nil (List.splitOn_ne_nil c s)
      rw [hsplit, List.map_cons, List.sum_cons] at ih
      rw [hsplit, List.modifyHead_cons, List.map_cons, List.sum_cons, List.length_cons,
        List.length_cons]
      omega

/-- A joined text is made of the characters of its parts and the separator. -/
theorem mem_intercalate {parts : List Text} {x : Char} (hx : x ∈ [c].intercalate parts) :
    x = c ∨ ∃ part ∈ parts, x ∈ part := by
  induction parts with
  | nil => simp at hx
  | cons part parts ih =>
    by_cases hnil : parts = []
    · subst hnil
      exact .inr ⟨part, List.mem_cons_self, by simpa using hx⟩
    · rw [List.intercalate_cons_of_ne_nil hnil, List.append_assoc, List.mem_append,
        List.mem_append, List.mem_singleton] at hx
      rcases hx with hx | hx | hx
      · exact .inr ⟨part, List.mem_cons_self, hx⟩
      · exact .inl hx
      · rcases ih hx with hsep | ⟨part', hmem, hx'⟩
        · exact .inl hsep
        · exact .inr ⟨part', List.mem_cons_of_mem part hmem, hx'⟩

/-- **Parts that are joined can be told apart**, if there are characters in each and the separator
is in none. -/
theorem intercalate_inj {parts parts' : List Text} (hparts : ∀ part ∈ parts, part ≠ [] ∧ c ∉ part)
    (hparts' : ∀ part ∈ parts', part ≠ [] ∧ c ∉ part)
    (h : [c].intercalate parts = [c].intercalate parts') : parts = parts' := by
  have hnil : ∀ {parts : List Text}, (∀ part ∈ parts, part ≠ [] ∧ c ∉ part) →
      [c].intercalate parts = [] → parts = [] := by
    intro parts hparts hjoin
    by_contra hne
    have hsplit := List.splitOn_intercalate c (fun part hpart => (hparts part hpart).2) hne
    rw [hjoin] at hsplit
    exact (hparts [] (hsplit ▸ List.mem_singleton_self [])).1 rfl
  by_cases hempty : parts = []
  · subst hempty
    exact (hnil hparts' h.symm).symm
  · have hempty' : parts' ≠ [] := by
      rintro rfl
      exact hempty (hnil hparts h)
    have hsplit := List.splitOn_intercalate c (fun part hpart => (hparts part hpart).2) hempty
    rw [h] at hsplit
    exact hsplit.symm.trans
      (List.splitOn_intercalate c (fun part hpart => (hparts' part hpart).2) hempty')

/-! ### Numbers -/

/-- The text is made of digits, and they denote the number. -/
structure Denotes (s : Text) (n : ℕ) : Prop where
  /-- There are digits. -/
  ne_nil : s ≠ []
  /-- There are only digits. -/
  isDigit : ∀ c ∈ s, c.isDigit = true
  /-- They denote the number. -/
  value : Nat.ofDigitChars 10 s 0 = n

/-- **A number is denoted by what is printed for it.** -/
theorem denotes_toDigits (n : ℕ) : Denotes (Nat.toDigits 10 n) n where
  ne_nil := Nat.toDigits_ne_nil
  isDigit _ hc := Nat.isDigit_of_mem_toDigits (by decide) (by decide) hc
  value := Nat.ofDigitChars_ten_toDigits

theorem toDigits_injective : Function.Injective (Nat.toDigits 10) := fun m n h => by
  rw [← (denotes_toDigits m).value, h, (denotes_toDigits n).value]

theorem Denotes.notMem {n : ℕ} (h : Denotes s n) (hc : c.isDigit = false) : c ∉ s := by
  intro hmem
  rw [h.isDigit c hmem] at hc
  cases hc

end Text
