import DevBrowse.Dns.WireRoundtrip

/-!
# Which names can be asked for

A name that can be asked for is a list of labels of letters, digits, `-` and `_`, and the
names it is written as are limited to 255 bytes, the root label included. The encoder and the
decoder each count the labels on their own, and both leave the root label out: so a name of
256 bytes is written and skipped like any other, and that is the only difference
(`DevBrowse.Dns.encodesExactly_iff`).
-/

namespace DevBrowse

namespace Dns

open Checked

open Bytes (At ofU16)

variable {qname label : Text} {qtype : QueryType} {bytes : List UInt8}

/-! ### Labels -/

/-- Letters, digits, `-` and `_`. -/
def isHostnameChar (c : Char) : Bool := c.isAlphanum || c == '-' || c == '_'

/-- A label of a name that can be asked for. -/
structure HostLabel (label : Text) : Prop where
  /-- Only the root label is empty. -/
  ne_nil : label ≠ []
  /-- It is not longer than labels are. -/
  length_le : label.length ≤ 63
  /-- It has the characters labels have. -/
  chars : ∀ c ∈ label, isHostnameChar c = true

/-- A label on the wire: its length, and its text in lower case. -/
def wireLabel (label : Text) : List UInt8 :=
  .ofNat label.length :: label.toAsciiLowercase.utf8Bytes

/-- What the encoder makes of the first 128 characters. -/
theorem ascii_byte (n : Fin 128) :
    isHostnameByte (.ofNat n.val) = isHostnameChar (Char.ofNat n.val) ∧
      toAsciiLowercaseByte (.ofNat n.val) = .ofNat (Char.ofNat n.val).toLower.toNat ∧
      (Char.ofNat n.val).toLower.toNat < 128 := by
  revert n
  decide +kernel

theorem isHostnameByte_of_le {b : UInt8} (h : 128 ≤ b.toNat) : isHostnameByte b = false := by
  have hall : ∀ n : Fin 256, 128 ≤ n.val → isHostnameByte (UInt8.ofFin n) = false := by
    decide +kernel
  exact hall b.toFin h

theorem toNat_lt_of_isHostnameChar {c : Char} (h : isHostnameChar c = true) :
    c.toNat < 128 := by
  change ((((decide (c.val ≥ 'A'.val ∧ c.val ≤ 'Z'.val) ||
    (decide (c.val ≥ 'a'.val) && decide (c.val ≤ 'z'.val))) ||
      (decide (c.val ≥ '0'.val) && decide (c.val ≤ '9'.val))) || c == '-') || c == '_') = true at h
  simp only [Bool.or_eq_true, Bool.and_eq_true, decide_eq_true_eq, beq_iff_eq,
    UInt32.le_iff_toNat_le] at h
  have hval : c.toNat = c.val.toNat := rfl
  have hZ : 'Z'.val.toNat = 90 := rfl
  have hz : 'z'.val.toNat = 122 := rfl
  have hnine : '9'.val.toNat = 57 := rfl
  rcases h with (((⟨-, h⟩ | ⟨-, h⟩) | ⟨-, h⟩) | rfl) | rfl
  · omega
  · omega
  · omega
  · decide
  · decide

/-- A character is one byte of a label, or its first byte is none. -/
theorem all_utf8EncodeChar (c : Char) :
    (String.utf8EncodeChar c).all isHostnameByte = isHostnameChar c := by
  by_cases hlt : c.toNat < 128
  · have hbyte := (ascii_byte ⟨c.toNat, hlt⟩).1
    rw [Char.ofNat_toNat] at hbyte
    rw [Text.utf8EncodeChar_of_lt hlt, List.all_cons, List.all_nil, Bool.and_true, hbyte]
  · have hchar : isHostnameChar c = false :=
      Bool.eq_false_iff.mpr fun h => hlt (toNat_lt_of_isHostnameChar h)
    obtain ⟨b, rest, hencode⟩ := List.exists_cons_of_ne_nil (String.utf8EncodeChar_ne_nil (c := c))
    have hb : 128 ≤ b.toNat :=
      Text.le_of_mem_utf8EncodeChar (not_lt.mp hlt) (hencode ▸ List.mem_cons_self)
    rw [hencode, List.all_cons, isHostnameByte_of_le hb, hchar, Bool.false_and]

theorem all_utf8Bytes (s : Text) : s.utf8Bytes.all isHostnameByte = s.all isHostnameChar := by
  induction s with
  | nil => rfl
  | cons c s ih =>
    rw [Text.utf8Bytes, List.flatMap_cons, List.all_append, all_utf8EncodeChar, List.all_cons]
    exact congrArg (isHostnameChar c && ·) ih

/-- The bytes of a label are its characters, and in lower case those of its lower case. -/
theorem utf8Bytes_of_isHostnameChar {s : Text} (h : ∀ c ∈ s, isHostnameChar c = true) :
    s.utf8Bytes.length = s.length ∧
      s.utf8Bytes.map toAsciiLowercaseByte = s.toAsciiLowercase.utf8Bytes := by
  induction s with
  | nil => exact ⟨rfl, rfl⟩
  | cons c s ih =>
    obtain ⟨hlen, hmap⟩ := ih fun d hd => h d (List.mem_cons_of_mem c hd)
    have hlt : c.toNat < 128 := toNat_lt_of_isHostnameChar (h c List.mem_cons_self)
    obtain ⟨-, hlow, hlowLt⟩ := ascii_byte ⟨c.toNat, hlt⟩
    rw [Char.ofNat_toNat] at hlow hlowLt
    have hcons : Text.utf8Bytes (c :: s) = .ofNat c.toNat :: Text.utf8Bytes s := by
      rw [Text.utf8Bytes, List.flatMap_cons, Text.utf8EncodeChar_of_lt hlt]
      rfl
    have hconsLow : Text.utf8Bytes (Text.toAsciiLowercase (c :: s)) =
        .ofNat c.toLower.toNat :: Text.utf8Bytes (Text.toAsciiLowercase s) := by
      rw [Text.toAsciiLowercase, List.map_cons, Text.utf8Bytes, List.flatMap_cons,
        Text.utf8EncodeChar_of_lt hlowLt]
      rfl
    rw [hcons, hconsLow, List.length_cons, hlen, List.map_cons, hlow, hmap]
    exact ⟨rfl, rfl⟩

/-- What the encoder checks of the bytes of a label. -/
theorem hostLabel_iff : HostLabel label ↔ label.utf8Bytes ≠ [] ∧
    label.utf8Bytes.length ≤ maxLabelLen ∧ label.utf8Bytes.all isHostnameByte = true := by
  rw [all_utf8Bytes, List.all_eq_true]
  have hnil : label.utf8Bytes = [] ↔ label = [] := by
    rw [Text.utf8Bytes, List.flatMap_eq_nil_iff]
    constructor
    · intro h
      cases label with
      | nil => rfl
      | cons c label => exact absurd (h c List.mem_cons_self) String.utf8EncodeChar_ne_nil
    · rintro rfl
      simp
  constructor
  · rintro ⟨hne, hle, hchars⟩
    rw [(utf8Bytes_of_isHostnameChar hchars).1]
    exact ⟨fun h => hne (hnil.mp h), hle, hchars⟩
  · rintro ⟨hne, hle, hchars⟩
    rw [(utf8Bytes_of_isHostnameChar hchars).1] at hle
    exact ⟨fun h => hne (hnil.mpr h), hle, hchars⟩

/-! ### Names -/

/-- The labels of a name. -/
def labelsOf (qname : Text) : List Text := qname.splitOn '.'

/-- How long a name is on the wire, the root label included. -/
def wireLength (qname : Text) : ℕ := ((labelsOf qname).map fun label => 1 + label.length).sum + 1

/-- **A name that can be asked for.** -/
structure ValidHostname (qname : Text) : Prop where
  /-- It is not empty. -/
  ne_nil : qname ≠ []
  /-- Its labels are labels. -/
  labels : ∀ label ∈ labelsOf qname, HostLabel label
  /-- It is not longer than names are. -/
  wireLength_le : wireLength qname ≤ 255

theorem wireLength_eq (qname : Text) : wireLength qname = qname.length + 2 := by
  rw [wireLength, labelsOf, Text.length_splitOn]

/-- **What the encoder makes of the labels**, from how long they are so far. -/
theorem encodeLabels_eq_ok_iff {labels : List Text} {total : ℕ} (htotal : total ≤ maxNameLen) :
    encodeLabels total (labels.map Text.utf8Bytes) = .ok bytes ↔
      (∀ label ∈ labels, HostLabel label) ∧
        total + (labels.map fun label => 1 + label.length).sum ≤ maxNameLen ∧
        bytes = labels.flatMap wireLabel := by
  induction labels generalizing total bytes with
  | nil => simp [encodeLabels, htotal, eq_comm]
  | cons label labels ih =>
    rw [List.map_cons, encodeLabels]
    by_cases hlabel : HostLabel label
    · obtain ⟨hne, hle, hall⟩ := hostLabel_iff.mp hlabel
      obtain ⟨hlen, hlow⟩ := utf8Bytes_of_isHostnameChar hlabel.chars
      have hany : ¬ (label.utf8Bytes.any fun b => !isHostnameByte b) = true := by
        rw [List.any_eq_not_all_not]
        simpa using hall
      rw [if_neg hne, if_neg (not_lt.mpr hle), if_neg hany, hlen, hlow]
      rw [List.map_cons, List.sum_cons, List.flatMap_cons]
      split
      · refine iff_of_false (fun h => nomatch h) fun h => ?_
        omega
      · rename_i hroom
        have hroom' : total + (1 + label.length) ≤ maxNameLen := not_lt.mp hroom
        constructor
        · intro h
          cases hrest : encodeLabels (total + (1 + label.length))
              (labels.map Text.utf8Bytes) with
          | error e =>
            rw [hrest] at h
            exact nomatch h
          | ok rest =>
            rw [hrest] at h
            obtain ⟨hlabels, hsum, rfl⟩ := (ih hroom').mp hrest
            refine ⟨List.forall_mem_cons.mpr ⟨hlabel, hlabels⟩, by omega, ?_⟩
            exact (Except.ok.inj h).symm
        · rintro ⟨hlabels, hsum, rfl⟩
          have hrest : encodeLabels (total + (1 + label.length)) (labels.map Text.utf8Bytes) =
              .ok (labels.flatMap wireLabel) :=
            (ih hroom').mpr ⟨(List.forall_mem_cons.mp hlabels).2, by omega, rfl⟩
          rw [hrest]
          rfl
    · -- one of the checks of the label fails
      refine iff_of_false (fun h => ?_) fun h => hlabel (List.forall_mem_cons.mp h.1).1
      rw [hostLabel_iff] at hlabel
      split at h
      · exact nomatch h
      · split at h
        · exact nomatch h
        · split at h
          · exact nomatch h
          · rename_i hne hle hany
            refine hlabel ⟨hne, not_lt.mp hle, ?_⟩
            rw [List.any_eq_not_all_not] at hany
            simpa using hany

/-- The labels of a name on the wire. -/
def wireLabels (qname : Text) : List UInt8 := (labelsOf qname).flatMap wireLabel

/-- What stands before the name in a query. -/
def queryHeader : List UInt8 :=
  [0, 0, 0x01, 0x00, 0x00, 0x01, 0x00, 0x00, 0x00, 0x00, 0x00, 0x00]

/-- The query for a name. -/
def queryBytes (qname : Text) (qtype : QueryType) : List UInt8 :=
  queryHeader ++ (wireLabels qname ++ [0]) ++ ofU16 qtype.typeCode ++ [0x00, 0x01]

/-- **Which names are encoded, and as what.** -/
theorem encodeQuery_eq_ok_iff : encodeQuery qname qtype = .ok bytes ↔
    (∀ label ∈ labelsOf qname, HostLabel label) ∧ qname.length + 1 ≤ maxNameLen ∧
      bytes = queryBytes qname qtype := by
  have hlabels : ∀ ls, encodeLabels 0 ((labelsOf qname).map Text.utf8Bytes) = .ok ls ↔
      (∀ label ∈ labelsOf qname, HostLabel label) ∧ qname.length + 1 ≤ maxNameLen ∧
        ls = wireLabels qname := fun ls => by
    rw [encodeLabels_eq_ok_iff (Nat.zero_le _), Nat.zero_add, labelsOf, Text.length_splitOn]
    rfl
  rw [encodeQuery, encodeName]
  by_cases hnil : qname = []
  · rw [if_pos hnil]
    refine iff_of_false (fun h => nomatch h) fun h => ?_
    subst hnil
    exact (h.1 [] (by simp [labelsOf])).ne_nil rfl
  · rw [if_neg hnil]
    constructor
    · intro h
      cases hls : encodeLabels 0 ((labelsOf qname).map Text.utf8Bytes) with
      | error e =>
        change ((encodeLabels 0 ((labelsOf qname).map Text.utf8Bytes) >>= _) >>= _) = _ at h
        rw [hls] at h
        exact nomatch h
      | ok ls =>
        change ((encodeLabels 0 ((labelsOf qname).map Text.utf8Bytes) >>= _) >>= _) = _ at h
        rw [hls] at h
        obtain ⟨hall, hlen, rfl⟩ := (hlabels ls).mp hls
        exact ⟨hall, hlen, (Except.ok.inj h).symm⟩
    · rintro ⟨hall, hlen, rfl⟩
      change ((encodeLabels 0 ((labelsOf qname).map Text.utf8Bytes) >>= _) >>= _) = _
      rw [(hlabels _).mpr ⟨hall, hlen, rfl⟩]
      rfl

/-- The labels of a name are labels of the wire. -/
theorem exists_labels {labels : List Text} (hall : ∀ label ∈ labels, HostLabel label) :
    ∃ ls : List Label, (ls.flatMap fun label => .ofNat label.bytes.length :: label.bytes) =
        labels.flatMap wireLabel ∧
      nameLen (ls.map Label.bytes) = (labels.map fun label => 1 + label.length).sum := by
  induction labels with
  | nil => exact ⟨[], rfl, rfl⟩
  | cons label labels ih =>
    obtain ⟨hlabel, hlabels⟩ := List.forall_mem_cons.mp hall
    obtain ⟨ls, hls, hlen⟩ := ih hlabels
    have hbytes : label.toAsciiLowercase.utf8Bytes.length = label.length := by
      rw [← (utf8Bytes_of_isHostnameChar hlabel.chars).2, List.length_map,
        (utf8Bytes_of_isHostnameChar hlabel.chars).1]
    have hne : label.toAsciiLowercase.utf8Bytes ≠ [] :=
      List.ne_nil_of_length_pos (hbytes ▸ List.length_pos_of_ne_nil hlabel.ne_nil)
    have hle : label.toAsciiLowercase.utf8Bytes.length ≤ maxLabelLen :=
      hbytes.trans_le hlabel.length_le
    refine ⟨⟨label.toAsciiLowercase.utf8Bytes, hne, hle⟩ :: ls, ?_, ?_⟩
    · rw [List.flatMap_cons, List.flatMap_cons, hls, wireLabel, ← hbytes]
    · rw [List.map_cons, nameLen, hbytes, hlen, List.map_cons, List.sum_cons]

/-- **What is written is skipped**, up to the type. -/
theorem skipName_query {buf : Buf} (hall : ∀ label ∈ labelsOf qname, HostLabel label)
    (hlen : qname.length + 1 ≤ maxNameLen) (hbuf : buf.elems = queryBytes qname qtype) :
    skipName buf 12 = .ok (12 + (wireLabels qname ++ [0]).length) := by
  obtain ⟨ls, hls, hsum⟩ := exists_labels hall
  have hencode : WireName.encode ⟨ls, none⟩ = wireLabels qname ++ [0] :=
    congrArg (· ++ [0]) hls
  have hat : At buf.elems 12 (WireName.encode ⟨ls, none⟩) := by
    have hdrop : buf.elems.drop 12 =
        wireLabels qname ++ [0] ++ (ofU16 qtype.typeCode ++ [0x00, 0x01]) := by
      rw [hbuf, queryBytes, List.append_assoc, List.append_assoc]
      rfl
    rw [At, hencode, hdrop]
    exact List.prefix_append _ _
  have hvalid : WireName.Valid buf.elems ⟨ls, none⟩ := by
    change nameLen (ls.map Label.bytes) ≤ maxNameLen
    rwa [hsum, labelsOf, Text.length_splitOn]
  rw [skipName_encode hat hvalid, hencode]

/-- Which names are encoded. -/
theorem exists_encodeQuery_iff : (∃ bytes, encodeQuery qname qtype = .ok bytes) ↔
    (∀ label ∈ labelsOf qname, HostLabel label) ∧ qname.length + 1 ≤ maxNameLen := by
  constructor
  · rintro ⟨bytes, hok⟩
    obtain ⟨hall, hlen, -⟩ := encodeQuery_eq_ok_iff.mp hok
    exact ⟨hall, hlen⟩
  · rintro ⟨hall, hlen⟩
    exact ⟨_, encodeQuery_eq_ok_iff.mpr ⟨hall, hlen, rfl⟩⟩

/-- The decoder goes on at the type, which stands behind the header and the name. -/
theorem skipName_of_encodeQuery {buf : Buf} (hok : encodeQuery qname qtype = .ok bytes)
    (hbuf : buf.elems = bytes) :
    ∃ next, skipName buf 12 = .ok next ∧
      next = (queryHeader ++ (wireLabels qname ++ [0])).length ∧
      bytes.drop next = ofU16 qtype.typeCode ++ [0x00, 0x01] := by
  obtain ⟨hall, hlen, rfl⟩ := encodeQuery_eq_ok_iff.mp hok
  have hnext : 12 + (wireLabels qname ++ [0]).length =
      (queryHeader ++ (wireLabels qname ++ [0])).length :=
    (@List.length_append _ queryHeader _).symm
  refine ⟨_, skipName_query hall hlen hbuf, hnext, ?_⟩
  rw [hnext, queryBytes, List.append_assoc, List.drop_left]

/-! ### The limit -/

/-- **Exactly the names that can be asked for are encoded**, and what is written is what the
decoder skips. -/
structure EncodesExactly (qname : Text) (qtype : QueryType) : Prop where
  /-- Which names are accepted. -/
  accepts : (∃ bytes, encodeQuery qname qtype = .ok bytes) ↔ ValidHostname qname
  /-- What is written. -/
  written : ∀ bytes, encodeQuery qname qtype = .ok bytes → bytes = queryBytes qname qtype
  /-- The decoder goes on at the type, which stands behind the header and the name. -/
  skipped : ∀ bytes, encodeQuery qname qtype = .ok bytes → ∀ buf : Buf, buf.elems = bytes →
    ∃ next, skipName buf 12 = .ok next ∧
      next = (queryHeader ++ (wireLabels qname ++ [0])).length ∧
      bytes.drop next = ofU16 qtype.typeCode ++ [0x00, 0x01]

/-- **The one length that is taken too many**: 254 characters, which are 256 bytes on the
wire. -/
theorem encodesExactly_iff (qname : Text) (qtype : QueryType) : EncodesExactly qname qtype ↔
    ¬ ((∀ label ∈ labelsOf qname, HostLabel label) ∧ qname.length = 254) := by
  have hmax : maxNameLen = 255 := rfl
  constructor
  · rintro hexact ⟨hall, hlen⟩
    have hvalid := hexact.accepts.mp (exists_encodeQuery_iff.mpr ⟨hall, by omega⟩)
    have hle := hvalid.wireLength_le
    rw [wireLength_eq] at hle
    omega
  · intro hnot
    refine ⟨exists_encodeQuery_iff.trans
      ⟨fun ⟨hall, hlen⟩ => ?_, fun hvalid => ⟨hvalid.labels, ?_⟩⟩,
      fun bytes hok => (encodeQuery_eq_ok_iff.mp hok).2.2,
      fun bytes hok buf => skipName_of_encodeQuery hok⟩
    · have hne : qname.length ≠ 254 := fun h => hnot ⟨hall, h⟩
      refine ⟨fun hnil => ?_, hall, ?_⟩
      · exact (hall [] (by simp [hnil, labelsOf])).ne_nil rfl
      · rw [wireLength_eq]
        omega
    · have hle := hvalid.wireLength_le
      rw [wireLength_eq] at hle
      omega

/-- A label of a number of letters. -/
def letters (n : ℕ) : Text := List.replicate n 'a'

/-- A name of 254 characters. -/
def longName : Text :=
  letters 63 ++ '.' :: (letters 63 ++ '.' :: (letters 63 ++ '.' :: letters 62))

/-- **A name of 256 bytes is encoded.** -/
theorem not_encodesExactly_long :
    (∃ bytes, encodeQuery longName .a = .ok bytes) ∧ wireLength longName = 256 ∧
      ¬ EncodesExactly longName .a := by
  have hlabels : labelsOf longName = [letters 63, letters 63, letters 63, letters 62] := by
    decide +kernel
  have hlabel : ∀ n, n ≠ 0 → n ≤ 63 → HostLabel (letters n) := fun n hn hle =>
    ⟨by simpa [letters] using hn, by simpa [letters] using hle, fun c hc => by
      rw [List.eq_of_mem_replicate hc]
      decide⟩
  have hall : ∀ label ∈ labelsOf longName, HostLabel label := by
    rw [hlabels]
    intro label hmem
    simp only [List.mem_cons, List.not_mem_nil, or_false] at hmem
    rcases hmem with rfl | rfl | rfl | rfl <;> exact hlabel _ (by decide) (by decide)
  have hlen : longName.length = 254 := by decide +kernel
  have hencoded : ∃ bytes, encodeQuery longName .a = .ok bytes :=
    exists_encodeQuery_iff.mpr ⟨hall, hlen.symm ▸ (by decide)⟩
  refine ⟨hencoded, ?_, fun hexact => ?_⟩
  · rw [wireLength_eq, hlen]
  · have hle := (hexact.accepts.mp hencoded).wireLength_le
    rw [wireLength_eq, hlen] at hle
    exact absurd hle (by decide)

end Dns

end DevBrowse
