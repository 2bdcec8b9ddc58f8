import DevBrowse.Lib.Scan

/-!
# What an error may say

An error that crosses a process boundary or goes to a log must not show identifiers, paths,
domains or addresses, and the tests put its text through four scans: for an identifier over the
bytes, for an address at the first `@`, for a path at the first slash and over the bytes, for a
domain name over the parts that could be one.

What passes is known exactly (`DevBrowse.Testkit.leakReason_eq_none_iff`): the texts in which no
36 characters have the shape of an identifier, the first slash is followed by nothing, by a space
or by another slash, no letter is a drive, and no maximal run of letters, digits, dots and dashes
is a domain name. The scan for addresses finds nothing that is not a domain name as well. Slashes
after the first are not looked at.
-/

namespace DevBrowse

namespace Testkit

/-! ### The scans -/

/-- Whether a byte is a hexadecimal digit. -/
def isAsciiHexdigit (b : UInt8) : Bool :=
  (48 ≤ b && b ≤ 57) || (65 ≤ b && b ≤ 70) || (97 ≤ b && b ≤ 102)

/-- Whether a window of 36 bytes is an identifier, in groups with dashes between them. -/
def matchesUuid (b : List UInt8) : Bool :=
  if b.length ≠ 36 then false
  else if [8, 13, 18, 23].any fun d => b[d]? ≠ some 45 then false
  else [(0, 8), (9, 13), (14, 18), (19, 23), (24, 36)].all fun g =>
    ((b.drop g.1).take (g.2 - g.1)).all isAsciiHexdigit

/-- Whether one of the windows of 36 bytes is an identifier. -/
def uuidWindow : List UInt8 → Bool
  | [] => false
  | b :: bytes =>
    if 36 ≤ (b :: bytes).length then
      if matchesUuid ((b :: bytes).take 36) then true else uuidWindow bytes
    else false

/-- The scan for an identifier. -/
def containsUuid (s : Text) : Bool := uuidWindow s.utf8Bytes

/-- Whether a character can stand before the `@` of an address. -/
def emailLocalChar (c : Char) : Bool :=
  c.isAlphanum || c == '.' || c == '_' || c == '+' || c == '-'

/-- Whether a character can stand in a domain name. -/
def isDomainChar (c : Char) : Bool := c.isAlphanum || c == '.' || c == '-'

/-- Whether a part between dots is one a domain name can have. -/
def isDomainLabel (l : Text) : Bool :=
  let bytes := l.utf8Bytes
  if 63 < bytes.length then false
  else if bytes.head? = some 45 ∨ bytes.getLast? = some 45 then false
  else l.all fun c => c.isAlphanum || c == '-'

/-- Whether a word is a domain name. -/
def containsDomainAtStart (word : Text) : Bool :=
  if word.utf8Len < 4 then false
  else
    let labels := word.splitOn '.'
    if labels.length < 2 then false
    else if labels.any List.isEmpty then false
    else if !labels.all isDomainLabel then false
    else
      let tld : Text := labels.getLastD []
      if tld.utf8Len < 2 ∨ 24 < tld.utf8Len then false
      else tld.all Char.isAlpha

/-- The scan for an address. -/
def containsEmail (s : Text) : Bool :=
  match s.find '@' with
  | some i =>
    let before := s.take i
    let after := s.drop (i + 1)
    let localLen := (before.reverse.takeWhile emailLocalChar).length
    if 1 ≤ localLen then containsDomainAtStart (after.takeWhile isDomainChar) else false
  | none => false

/-- Whether a path begins at the first slash. -/
def slashPath (s : Text) : Bool :=
  match s.find '/' with
  | some i =>
    match (s.drop (i + 1)).head? with
    | some c => !Text.isWhitespace c && c != '/'
    | none => false
  | none => false

/-- Whether a byte is a letter. -/
def isAsciiAlphabetic (b : UInt8) : Bool := (65 ≤ b && b ≤ 90) || (97 ≤ b && b ≤ 122)

/-- Whether three bytes are the beginning of a path on a drive. -/
def isDrive (b : List UInt8) : Bool :=
  match b with
  | [letter, colon, slash] =>
    isAsciiAlphabetic letter && colon == 58 && (slash == 92 || slash == 47)
  | _ => false

/-- The scan for a path. -/
def containsPath (s : Text) : Bool :=
  if slashPath s then true
  else
    let bytes := s.utf8Bytes
    (List.range (bytes.length - 2)).any fun i => isDrive ((bytes.drop i).take 3)

/-- The scan for a domain name. -/
def containsDomain (s : Text) : Bool :=
  (s.splitOnP fun c => !isDomainChar c).any containsDomainAtStart

/-- **What a text gives away**, if anything. -/
def leakReason (s : Text) : Option Text :=
  if containsUuid s then some "a UUID".toList
  else if containsEmail s then some "an email address".toList
  else if containsPath s then some "a filesystem path".toList
  else if containsDomain s then some "a domain name".toList
  else none

variable {s w a b : Text} {c : Char} {window : List UInt8}

/-! ### Bytes and characters -/

/-- Whether a character is a hexadecimal digit. -/
def isHexDigit (c : Char) : Bool :=
  c.isDigit || ('a' ≤ c && c ≤ 'f') || ('A' ≤ c && c ≤ 'F')

/-- What the scans over bytes make of the first 128 characters. -/
theorem ascii_scan (n : Fin 128) :
    isAsciiHexdigit (Text.asciiByte (Char.ofNat n.val)) = isHexDigit (Char.ofNat n.val) ∧
      isAsciiAlphabetic (Text.asciiByte (Char.ofNat n.val)) = (Char.ofNat n.val).isAlpha ∧
      (Text.asciiByte (Char.ofNat n.val) = 45 ↔ Char.ofNat n.val = '-') ∧
      (Text.asciiByte (Char.ofNat n.val) = 58 ↔ Char.ofNat n.val = ':') ∧
      (Text.asciiByte (Char.ofNat n.val) = 92 ↔ Char.ofNat n.val = '\\') ∧
      (Text.asciiByte (Char.ofNat n.val) = 47 ↔ Char.ofNat n.val = '/') := by
  revert n
  decide +kernel

theorem ascii_scan_of_lt (h : c.toNat < 128) :
    isAsciiHexdigit (Text.asciiByte c) = isHexDigit c ∧
      isAsciiAlphabetic (Text.asciiByte c) = c.isAlpha ∧
      (Text.asciiByte c = 45 ↔ c = '-') ∧ (Text.asciiByte c = 58 ↔ c = ':') ∧
      (Text.asciiByte c = 92 ↔ c = '\\') ∧ (Text.asciiByte c = 47 ↔ c = '/') := by
  have hscan := ascii_scan ⟨c.toNat, h⟩
  rwa [Char.ofNat_toNat] at hscan

theorem toNat_lt_of_isAsciiHexdigit {x : UInt8} (h : isAsciiHexdigit x = true) :
    x.toNat < 128 := by
  have hall : ∀ n : Fin 256, isAsciiHexdigit (UInt8.ofFin n) = true → n.val < 128 := by
    decide +kernel
  exact hall x.toFin h

theorem toNat_lt_of_isAsciiAlphabetic {x : UInt8} (h : isAsciiAlphabetic x = true) :
    x.toNat < 128 := by
  have hall : ∀ n : Fin 256, isAsciiAlphabetic (UInt8.ofFin n) = true → n.val < 128 := by
    decide +kernel
  exact hall x.toFin h

/-! ### Identifiers -/

/-- A text of the shape of an identifier: 36 characters, dashes where the groups end, and
hexadecimal digits. -/
def UuidShaped (w : Text) : Prop :=
  w.length = 36 ∧ ∀ i c, w[i]? = some c →
    if i ∈ [8, 13, 18, 23] then c = '-' else isHexDigit c = true

theorem matchesUuid_iff : matchesUuid window = true ↔
    window.length = 36 ∧ ∀ i x, window[i]? = some x →
      if i ∈ [8, 13, 18, 23] then x = 45 else isAsciiHexdigit x = true := by
  rw [matchesUuid]
  by_cases hlen : window.length = 36
  · rw [if_neg (by simpa using hlen)]
    have hlt : ∀ i x, window[i]? = some x → i < 36 := fun i x hx => by
      rw [← hlen]
      exact (List.getElem?_eq_some_iff.mp hx).1
    by_cases hdash : ∀ d ∈ [8, 13, 18, 23], window[d]? = some 45
    · rw [if_neg (by simpa using hdash), List.all_eq_true]
      simp only [List.all_take_drop_iff]
      constructor
      · refine fun h => ⟨hlen, fun i x hx => ?_⟩
        split
        · rename_i hi
          exact (Option.some.inj ((hdash i hi).symm.trans hx)).symm
        · rename_i hi
          -- what is not a dash lies in one of the groups
          obtain ⟨g, hg, hle, hlt'⟩ : ∃ g ∈ [(0, 8), (9, 13), (14, 18), (19, 23), (24, 36)],
              g.1 ≤ i ∧ i < g.1 + (g.2 - g.1) := by
            have hi36 := hlt i x hx
            simp only [List.mem_cons, List.not_mem_nil, or_false] at hi
            simp only [List.mem_cons, List.not_mem_nil, or_false, exists_eq_or_imp,
              exists_eq_left]
            omega
          exact h g hg i x hx hle hlt'
      · rintro ⟨-, h⟩ g hg i x hx hle hlt'
        have hi := h i x hx
        rwa [if_neg] at hi
        simp only [List.mem_cons, List.not_mem_nil, or_false] at hg ⊢
        rcases hg with rfl | rfl | rfl | rfl | rfl <;> simp only at hle hlt' <;> omega
    · rw [if_pos (by simpa [imp_iff_not_or] using hdash)]
      refine iff_of_false Bool.false_ne_true fun h => hdash fun d hd => ?_
      have hd36 : d < window.length := by
        rw [hlen]
        simp only [List.mem_cons, List.not_mem_nil, or_false] at hd
        omega
      have hx := h.2 d window[d] (List.getElem?_eq_getElem hd36)
      rw [if_pos hd] at hx
      rw [List.getElem?_eq_getElem hd36, hx]
  · rw [if_pos hlen]
    exact iff_of_false Bool.false_ne_true fun h => hlen h.1

theorem uuidWindow_iff {bytes : List UInt8} : uuidWindow bytes = true ↔
    ∃ before window after, bytes = before ++ window ++ after ∧ matchesUuid window = true := by
  induction bytes with
  | nil =>
    refine iff_of_false Bool.false_ne_true ?_
    rintro ⟨before, window, after, h, hwindow⟩
    obtain ⟨-, rfl, -⟩ : before = [] ∧ window = [] ∧ after = [] := by simpa using h.symm
    cases (matchesUuid_iff.mp hwindow).1
  | cons x bytes ih =>
    rw [uuidWindow]
    constructor
    · intro h
      split at h
      · split at h
        · rename_i hmatch
          exact ⟨[], (x :: bytes).take 36, (x :: bytes).drop 36,
            (List.take_append_drop 36 _).symm, hmatch⟩
        · obtain ⟨before, window, after, rfl, hmatch⟩ := ih.mp h
          exact ⟨x :: before, window, after, rfl, hmatch⟩
      · cases h
    · rintro ⟨before, window, after, h, hmatch⟩
      have hlen := (matchesUuid_iff.mp hmatch).1
      have hle : 36 ≤ (x :: bytes).length := by
        rw [h, List.length_append, List.length_append]
        omega
      rw [if_pos hle]
      split
      · rfl
      · rename_i hfirst
        cases before with
        | nil =>
          -- the window that matches would be the first
          rw [List.nil_append] at h
          rw [h, ← hlen, List.take_left' rfl] at hfirst
          exact absurd hmatch hfirst
        | cons y before =>
          obtain ⟨rfl, rfl⟩ := List.cons.inj h
          exact ih.mpr ⟨before, window, after, rfl, hmatch⟩

theorem matchesUuid_map_iff (hw : ∀ c ∈ w, c.toNat < 128) :
    matchesUuid (w.map Text.asciiByte) = true ↔ UuidShaped w := by
  rw [matchesUuid_iff, List.length_map, UuidShaped]
  refine and_congr_right fun _ => forall_congr' fun i => ?_
  constructor
  · intro h c hc
    obtain ⟨hhex, -, hdash, -⟩ := ascii_scan_of_lt (hw c (List.mem_of_getElem? hc))
    have hx := h (Text.asciiByte c) (by rw [List.getElem?_map, hc]; rfl)
    rwa [hdash, hhex] at hx
  · intro h x hx
    rw [List.getElem?_map, Option.map_eq_some_iff] at hx
    obtain ⟨c, hc, rfl⟩ := hx
    obtain ⟨hhex, -, hdash, -⟩ := ascii_scan_of_lt (hw c (List.mem_of_getElem? hc))
    rw [hdash, hhex]
    exact h c hc

theorem toNat_lt_of_isHexDigit (h : isHexDigit c = true) : c.toNat < 128 := by
  have hranges : ((48 ≤ c.toNat ∧ c.toNat ≤ 57) ∨ (97 ≤ c.toNat ∧ c.toNat ≤ 102)) ∨
      (65 ≤ c.toNat ∧ c.toNat ≤ 70) := by
    simpa [isHexDigit, Char.isDigit, Char.le_def, UInt32.le_iff_toNat_le] using h
  omega

/-- Some characters in a row have the shape of an identifier. -/
def HasUuid (s : Text) : Prop := ∃ a w b, s = a ++ w ++ b ∧ UuidShaped w

/-- **The scan for an identifier finds what has the shape of one.** -/
theorem containsUuid_iff : containsUuid s = true ↔ HasUuid s := by
  have hascii : ∀ window, matchesUuid window = true → ∀ x ∈ window, x.toNat < 128 := by
    intro window h x hx
    obtain ⟨i, hi⟩ := List.mem_iff_getElem?.mp hx
    have hshape := (matchesUuid_iff.mp h).2 i x hi
    split at hshape
    · rw [hshape]
      decide
    · exact toNat_lt_of_isAsciiHexdigit hshape
  rw [containsUuid, uuidWindow_iff, Text.exists_window_iff hascii]
  refine exists_congr fun a => exists_congr fun w => exists_congr fun b =>
    and_congr_right fun _ => ?_
  constructor
  · rintro ⟨hw, h⟩
    exact (matchesUuid_map_iff hw).mp h
  · intro h
    have hw : ∀ c ∈ w, c.toNat < 128 := by
      intro c hc
      obtain ⟨i, hi⟩ := List.mem_iff_getElem?.mp hc
      have hshape := h.2 i c hi
      split at hshape
      · rw [hshape]
        decide
      · exact toNat_lt_of_isHexDigit hshape
    exact ⟨hw, (matchesUuid_map_iff hw).mpr h⟩

/-! ### Paths -/

/-- Something that is no space and no slash follows the first slash. -/
def HasSlashPath (s : Text) : Prop :=
  ∃ a c b, s = a ++ '/' :: c :: b ∧ '/' ∉ a ∧ Text.isWhitespace c = false ∧ c ≠ '/'

/-- A path on a drive begins somewhere. -/
def HasDrive (s : Text) : Prop :=
  ∃ a letter slash b, s = a ++ letter :: ':' :: slash :: b ∧ letter.isAlpha = true ∧
    (slash = '\\' ∨ slash = '/')

theorem slashPath_iff : slashPath s = true ↔ HasSlashPath s := by
  rw [slashPath]
  constructor
  · intro h
    split at h
    · rename_i i hfind
      obtain ⟨a, b, rfl, ha, rfl⟩ := Text.exists_of_find hfind
      cases b with
      | nil => simp at h
      | cons c b =>
        obtain ⟨hspace, hslash⟩ : Text.isWhitespace c = false ∧ c ≠ '/' := by simpa using h
        exact ⟨a, c, b, rfl, ha, hspace, hslash⟩
    · cases h
  · rintro ⟨a, c, b, rfl, ha, hspace, hslash⟩
    rw [Text.find_append_cons ha]
    simp [hspace, hslash]

theorem isDrive_iff : isDrive window = true ↔
    ∃ letter slash, window = [letter, 58, slash] ∧ isAsciiAlphabetic letter = true ∧
      (slash = 92 ∨ slash = 47) := by
  constructor
  · intro h
    unfold isDrive at h
    split at h
    · rename_i letter colon slash
      obtain ⟨⟨hletter, rfl⟩, hslash⟩ : (isAsciiAlphabetic letter = true ∧ colon = 58) ∧
        (slash = 92 ∨ slash = 47) := by simpa using h
      exact ⟨letter, slash, rfl, hletter, hslash⟩
    · cases h
  · rintro ⟨letter, slash, rfl, hletter, hslash⟩
    simpa [isDrive, hletter] using hslash

theorem any_isDrive_iff {bytes : List UInt8} :
    ((List.range (bytes.length - 2)).any fun i => isDrive ((bytes.drop i).take 3)) = true ↔
      ∃ before window after, bytes = before ++ window ++ after ∧ isDrive window = true := by
  rw [List.any_eq_true]
  constructor
  · rintro ⟨i, -, h⟩
    refine ⟨bytes.take i, (bytes.drop i).take 3, (bytes.drop i).drop 3, ?_, h⟩
    rw [List.append_assoc, List.take_append_drop, List.take_append_drop]
  · rintro ⟨before, window, after, rfl, h⟩
    obtain ⟨letter, slash, rfl, -⟩ := isDrive_iff.mp h
    refine ⟨before.length, ?_, by simpa using h⟩
    rw [List.mem_range]
    simp only [List.length_append, List.length_cons, List.length_nil]
    omega

/-- A drive over the bytes is a drive over the characters. -/
theorem exists_drive_iff :
    (∃ a w b, s = a ++ w ++ b ∧ (∀ c ∈ w, c.toNat < 128) ∧
      isDrive (w.map Text.asciiByte) = true) ↔ HasDrive s := by
  constructor
  · rintro ⟨a, w, b, rfl, hw, h⟩
    obtain ⟨x, y, hmap, hletter, hslash⟩ := isDrive_iff.mp h
    -- three bytes, three characters
    obtain ⟨letter, w₁, rfl, rfl, h₁⟩ := List.map_eq_cons_iff.mp hmap
    obtain ⟨colon, w₂, rfl, hcolon, h₂⟩ := List.map_eq_cons_iff.mp h₁
    obtain ⟨slash, w₃, rfl, rfl, h₃⟩ := List.map_eq_cons_iff.mp h₂
    obtain rfl := List.map_eq_nil_iff.mp h₃
    obtain ⟨-, halpha, -⟩ := ascii_scan_of_lt (hw letter (by simp))
    obtain ⟨-, -, -, hcolon', -⟩ := ascii_scan_of_lt (hw colon (by simp))
    obtain ⟨-, -, -, -, hback, hfwd⟩ := ascii_scan_of_lt (hw slash (by simp))
    rw [hcolon'] at hcolon
    rw [halpha] at hletter
    rw [hback, hfwd] at hslash
    exact ⟨a, letter, slash, b, by simp [hcolon], hletter, hslash⟩
  · rintro ⟨a, letter, slash, b, rfl, hletter, hslash⟩
    have hletter' : letter.toNat < 128 :=
      Text.toNat_lt_of_isAlphanum (by rw [Char.isAlphanum, hletter, Bool.true_or])
    have hslash' : slash.toNat < 128 := by rcases hslash with rfl | rfl <;> decide
    refine ⟨a, [letter, ':', slash], b, by simp, by simp [hletter', hslash'], ?_⟩
    obtain ⟨-, halpha, -⟩ := ascii_scan_of_lt hletter'
    obtain ⟨-, -, -, -, hback, hfwd⟩ := ascii_scan_of_lt hslash'
    refine isDrive_iff.mpr ⟨_, _, rfl, by rw [halpha, hletter], ?_⟩
    rwa [hback, hfwd]

/-- **The scan for a path** finds one at the first slash, or a drive anywhere. -/
theorem containsPath_iff : containsPath s = true ↔ HasSlashPath s ∨ HasDrive s := by
  have hascii : ∀ window, isDrive window = true → ∀ x ∈ window, x.toNat < 128 := by
    intro window h
    obtain ⟨letter, slash, rfl, hletter, hslash⟩ := isDrive_iff.mp h
    have hslash' : slash.toNat < 128 := by rcases hslash with rfl | rfl <;> decide
    simp [toNat_lt_of_isAsciiAlphabetic hletter, hslash']
  rw [containsPath, ← slashPath_iff, ← exists_drive_iff, ← Text.exists_window_iff hascii,
    ← any_isDrive_iff]
  cases slashPath s with
  | true => simp
  | false => simp

/-! ### Domain names -/

/-- A part of a domain name, between dots. -/
structure DomainLabel (l : Text) : Prop where
  /-- It is not empty. -/
  ne_nil : l ≠ []
  /-- It has 63 characters at most. -/
  length_le : l.length ≤ 63
  /-- It is made of letters, digits and dashes. -/
  chars : ∀ c ∈ l, c.isAlphanum = true ∨ c = '-'
  /-- It does not begin with a dash. -/
  head : l.head? ≠ some '-'
  /-- It does not end in a dash. -/
  last : l.getLast? ≠ some '-'

/-- A domain name: one part at least, and a last one of 2 to 24 letters. -/
def DomainName (w : Text) : Prop :=
  ∃ labels tld, w = ['.'].intercalate (labels ++ [tld]) ∧ labels ≠ [] ∧
    (∀ l ∈ labels, DomainLabel l) ∧ 2 ≤ tld.length ∧ tld.length ≤ 24 ∧
    ∀ c ∈ tld, c.isAlpha = true

theorem toNat_lt_of_isDomainChar (h : isDomainChar c = true) : c.toNat < 128 := by
  rw [isDomainChar, Bool.or_eq_true, Bool.or_eq_true, beq_iff_eq, beq_iff_eq] at h
  rcases h with (h | rfl) | rfl
  · exact Text.toNat_lt_of_isAlphanum h
  · decide
  · decide

/-- The length in bytes of a text of ASCII characters. -/
theorem utf8Len_eq_length (h : ∀ c ∈ w, c.toNat < 128) : w.utf8Len = w.length := by
  rw [Text.utf8Len, Text.utf8Bytes_eq_map h, List.length_map]

theorem DomainLabel.isDomainChar {l : Text} (h : DomainLabel l) :
    ∀ c ∈ l, isDomainChar c = true := by
  intro c hc
  rcases h.chars c hc with hc | rfl
  · rw [Testkit.isDomainChar, hc, Bool.true_or, Bool.true_or]
  · rfl

/-- A last part of letters is one of the parts a domain name can have. -/
theorem domainLabel_of_isAlpha {tld : Text} (hle : 2 ≤ tld.length) (hge : tld.length ≤ 24)
    (halpha : ∀ c ∈ tld, c.isAlpha = true) : DomainLabel tld where
  ne_nil := by
    rintro rfl
    cases hle
  length_le := hge.trans (by decide)
  chars c hc := .inl (by rw [Char.isAlphanum, halpha c hc, Bool.true_or])
  head h := absurd (halpha '-' (List.mem_of_mem_head? h)) (by decide)
  last h := absurd (halpha '-' (List.mem_of_mem_getLast? h)) (by decide)

/-- A maximal run of what can stand in a domain name is one. -/
def HasDomainName (s : Text) : Prop :=
  ∃ a w b, s = a ++ w ++ b ∧ (∀ c ∈ a.getLast?, isDomainChar c = false) ∧
    (∀ c ∈ b.head?, isDomainChar c = false) ∧ DomainName w

theorem isDomainLabel_iff (hne : w ≠ []) : isDomainLabel w = true ↔ DomainLabel w := by
  by_cases hchars : (w.all fun c => c.isAlphanum || c == '-') = true
  · have hchars' : ∀ c ∈ w, c.isAlphanum = true ∨ c = '-' := by simpa using hchars
    have hlt : ∀ c ∈ w, c.toNat < 128 := fun c hc => by
      rcases hchars' c hc with h | rfl
      · exact Text.toNat_lt_of_isAlphanum h
      · decide
    have hdash : ∀ o : Option Char, (∀ c ∈ o, c.toNat < 128) →
        (o.map Text.asciiByte = some 45 ↔ o = some '-') := by
      rintro (_ | c) hc
      · simp
      · simpa using (ascii_scan_of_lt (hc c rfl)).2.2.1
    have hhead := hdash w.head? fun c hc => hlt c (List.mem_of_mem_head? hc)
    have hlast := hdash w.getLast? fun c hc => hlt c (List.mem_of_mem_getLast? hc)
    rw [isDomainLabel, Text.utf8Bytes_eq_map hlt, List.length_map, List.head?_map,
      List.getLast?_map, hchars]
    simp only [hhead, hlast]
    constructor
    · intro h
      split at h
      · cases h
      · rename_i hlen
        split at h
        · cases h
        · rename_i hends
          rw [not_or] at hends
          exact ⟨hne, not_lt.mp hlen, hchars', hends.1, hends.2⟩
    · intro h
      rw [if_neg (not_lt.mpr h.length_le), if_neg (not_or.mpr ⟨h.head, h.last⟩)]
  · refine iff_of_false (fun h => hchars ?_) fun h => hchars (by simpa using h.chars)
    rw [isDomainLabel] at h
    split at h
    · cases h
    · split at h
      · cases h
      · exact h

theorem DomainName.isDomainChar (h : DomainName w) : ∀ c ∈ w, isDomainChar c = true := by
  obtain ⟨labels, tld, rfl, -, hlabels, hle, hge, halpha⟩ := h
  intro c hc
  rcases Text.mem_intercalate hc with rfl | ⟨part, hpart, hcpart⟩
  · rfl
  · rcases List.mem_append.mp hpart with hmem | hlast
    · exact (hlabels part hmem).isDomainChar c hcpart
    · rw [List.mem_singleton.mp hlast] at hcpart
      exact (domainLabel_of_isAlpha hle hge halpha).isDomainChar c hcpart

theorem containsDomainAtStart_eq_true_iff : containsDomainAtStart w = true ↔
    4 ≤ w.utf8Len ∧ 2 ≤ (w.splitOn '.').length ∧ (∀ l ∈ w.splitOn '.', l ≠ []) ∧
      (∀ l ∈ w.splitOn '.', isDomainLabel l = true) ∧
      2 ≤ Text.utf8Len ((w.splitOn '.').getLastD []) ∧
      Text.utf8Len ((w.splitOn '.').getLastD []) ≤ 24 ∧
      ∀ c ∈ (w.splitOn '.').getLastD [], c.isAlpha = true := by
  rw [containsDomainAtStart]
  dsimp only
  split_ifs with hlen hlabels hempty hall htld
  · exact iff_of_false not_false fun h => absurd h.1 (not_le.mpr hlen)
  · exact iff_of_false not_false fun h => absurd h.2.1 (not_le.mpr hlabels)
  · refine iff_of_false not_false fun h => ?_
    obtain ⟨l, hl, hnil⟩ := List.any_eq_true.mp hempty
    exact h.2.2.1 l hl (List.isEmpty_iff.mp hnil)
  · refine iff_of_false not_false fun h => ?_
    rw [Bool.not_eq_true', List.all_eq_false] at hall
    obtain ⟨l, hl, hnot⟩ := hall
    exact hnot (h.2.2.2.1 l hl)
  · refine iff_of_false not_false fun h => ?_
    omega
  · rw [List.all_eq_true]
    simp only [List.any_eq_true, List.isEmpty_iff, not_exists, not_and] at hempty
    simp only [Bool.not_eq_true', Bool.not_eq_false, List.all_eq_true] at hall
    refine ⟨fun h => ⟨by omega, by omega, hempty, hall, by omega, by omega, h⟩, fun h => ?_⟩
    exact h.2.2.2.2.2.2

/-- **The test for a domain name.** -/
theorem containsDomainAtStart_iff : containsDomainAtStart w = true ↔ DomainName w := by
  rw [containsDomainAtStart_eq_true_iff]
  constructor
  · rintro ⟨-, hlabels, hne, hall, hle, hge, halpha⟩
    have hlast : ∃ labels tld, w.splitOn '.' = labels ++ [tld] := by
      rcases List.eq_nil_or_concat' (w.splitOn '.') with h | h
      · rw [h] at hlabels
        cases hlabels
      · exact h
    obtain ⟨labels, tld, hsplit⟩ := hlast
    rw [hsplit] at hlabels hne hall hle hge halpha
    rw [List.getLastD_concat] at hle hge halpha
    have htld : ∀ c ∈ tld, c.toNat < 128 := fun c hc =>
      Text.toNat_lt_of_isAlphanum (by rw [Char.isAlphanum, halpha c hc, Bool.true_or])
    rw [utf8Len_eq_length htld] at hle hge
    refine ⟨labels, tld, ?_, ?_, fun l hl => ?_, hle, hge, halpha⟩
    · rw [← hsplit, List.intercalate_splitOn]
    · rintro rfl
      simp at hlabels
    · have hmem : l ∈ labels ++ [tld] := List.mem_append_left _ hl
      exact (isDomainLabel_iff (hne l hmem)).mp (hall l hmem)
  · intro h
    have hchars := h.isDomainChar
    obtain ⟨labels, tld, rfl, hne, hlabels, hle, hge, halpha⟩ := h
    have hparts : ∀ l ∈ labels ++ [tld], DomainLabel l := by
      intro l hl
      rcases List.mem_append.mp hl with hl | hl
      · exact hlabels l hl
      · rw [List.mem_singleton.mp hl]
        exact domainLabel_of_isAlpha hle hge halpha
    have hdot : ∀ l ∈ labels ++ [tld], '.' ∉ l := by
      intro l hl hmem
      rcases (hparts l hl).chars '.' hmem with h | h
      · cases h
      · cases h
    have htld : ∀ c ∈ tld, c.toNat < 128 := fun c hc =>
      Text.toNat_lt_of_isAlphanum (by rw [Char.isAlphanum, halpha c hc, Bool.true_or])
    rw [utf8Len_eq_length fun c hc => toNat_lt_of_isDomainChar (hchars c hc),
      List.splitOn_intercalate '.' hdot (by simp), List.getLastD_concat,
      utf8Len_eq_length htld]
    refine ⟨?_, ?_, fun l hl => (hparts l hl).ne_nil, fun l hl => ?_, hle, hge, halpha⟩
    · -- a part, a dot and the last part
      obtain ⟨l, rest, rfl⟩ := List.exists_cons_of_ne_nil hne
      have hl : 0 < l.length := List.length_pos_iff.mpr (hlabels l List.mem_cons_self).ne_nil
      have hrest : tld.length ≤ (['.'].intercalate (rest ++ [tld])).length :=
        Text.length_le_intercalate (by simp)
      rw [List.cons_append, List.intercalate_cons_of_ne_nil (by simp), List.length_append,
        List.length_append, List.length_singleton]
      omega
    · rw [List.length_append, List.length_singleton]
      exact Nat.succ_le_succ (List.length_pos_iff.mpr hne)
    · exact (isDomainLabel_iff (hparts l hl).ne_nil).mpr (hparts l hl)

/-- **The scan for a domain name.** -/
theorem containsDomain_iff : containsDomain s = true ↔ HasDomainName s := by
  rw [containsDomain, List.any_eq_true]
  simp only [List.mem_splitOnP_iff, containsDomainAtStart_iff, Bool.not_eq_false',
    Bool.not_eq_true']
  constructor
  · rintro ⟨w, ⟨a, b, rfl, -, ha, hb⟩, hname⟩
    exact ⟨a, w, b, rfl, ha, hb, hname⟩
  · rintro ⟨a, w, b, rfl, ha, hb, hname⟩
    exact ⟨w, ⟨a, b, rfl, hname.isDomainChar, ha, hb⟩, hname⟩

/-- What the scan for an address finds, the scan for a domain name finds. -/
theorem containsDomain_of_containsEmail (h : containsEmail s = true) :
    containsDomain s = true := by
  rw [containsEmail] at h
  split at h
  · rename_i i hfind
    obtain ⟨a, b, rfl, -, rfl⟩ := Text.exists_of_find hfind
    have hdrop : (a ++ '@' :: b).drop (a.length + 1) = b := by simp
    dsimp only at h
    split at h
    · rw [hdrop, containsDomainAtStart_iff] at h
      refine containsDomain_iff.mpr ⟨a ++ ['@'], b.takeWhile isDomainChar,
        b.dropWhile isDomainChar, ?_, ?_, ?_, h⟩
      · rw [List.append_assoc, List.append_assoc, List.takeWhile_append_dropWhile,
          List.singleton_append]
      · simp [isDomainChar]
      · intro c hc
        have hnot := List.head?_dropWhile_not isDomainChar b
        rw [hc] at hnot
        exact Bool.eq_false_iff.mpr (by simpa using hnot)
    · cases h
  · cases h

theorem leakReason_eq_none : leakReason s = none ↔
    ¬ containsUuid s = true ∧ ¬ containsEmail s = true ∧ ¬ containsPath s = true ∧
      ¬ containsDomain s = true := by
  rw [leakReason]
  split_ifs <;> simp [*]

/-- **What passes**: the texts without the shape of an identifier, with nothing that begins a
path at the first slash, without a drive, and of whose maximal runs of letters, digits, dots and
dashes none is a domain name. -/
theorem leakReason_eq_none_iff : leakReason s = none ↔
    ¬ HasUuid s ∧ ¬ HasSlashPath s ∧ ¬ HasDrive s ∧ ¬ HasDomainName s := by
  rw [leakReason_eq_none, containsUuid_iff, containsPath_iff, not_or, and_assoc]
  constructor
  · rintro ⟨huuid, -, hslash, hdrive, hdomain⟩
    exact ⟨huuid, hslash, hdrive, fun h => hdomain (containsDomain_iff.mpr h)⟩
  · rintro ⟨huuid, hslash, hdrive, hdomain⟩
    have hdomain' : ¬ containsDomain s = true := fun h => hdomain (containsDomain_iff.mp h)
    -- an address has a domain name in it
    exact ⟨huuid, fun h => hdomain' (containsDomain_of_containsEmail h), hslash, hdrive, hdomain'⟩

example : leakReason "error / no detail, then /home/user".toList = none := by decide +kernel

end Testkit

end DevBrowse
