import DevBrowse.Testkit.Ja3

/-!
# Reading what a client sends

`ClientHello` is a first message as its sender means it, in one record: lists of any length that
fits, and extensions in any order, or none at all. What is read from its bytes is what it
advertises, in order, without the reserved values (`DevBrowse.Testkit.fromClientHello_correct`).
-/

namespace DevBrowse

namespace Testkit

open Checked

open Bytes (ofU16)

/-! ### The reserved values -/

/-- The reserved values: two equal bytes that end in the digit A. -/
def greaseValues : List UInt16 := (List.range 16).map fun n => .ofNat (0x0A0A + n * 0x1010)

/-- **What is left out are the reserved values.** -/
theorem isGreaseU16_iff (v : UInt16) : isGreaseU16 v = true ↔ v ∈ greaseValues := by
  have hv := v.toNat_lt
  have hhigh : (v >>> 8 &&& 0xFF).toNat = v.toNat / 256 % 256 := by
    rw [UInt16.toNat_and, UInt16.toNat_shiftRight]
    exact (Nat.and_two_pow_sub_one_eq_mod _ 8).trans
      (congrArg (· % 256) (Nat.shiftRight_eq_div_pow v.toNat 8))
  have hlow : (v &&& 0xFF).toNat = v.toNat % 256 := by
    rw [UInt16.toNat_and]
    exact Nat.and_two_pow_sub_one_eq_mod v.toNat 8
  have hdigit : (v &&& 0xFF &&& 0x0F).toNat = v.toNat % 256 % 16 := by
    rw [UInt16.toNat_and, hlow]
    exact Nat.and_two_pow_sub_one_eq_mod _ 4
  have hten : (0x0A : UInt16).toNat = 10 := rfl
  simp only [isGreaseU16, Bool.and_eq_true, decide_eq_true_eq, ← UInt16.toNat_inj, hhigh, hlow,
    hdigit, hten, greaseValues, List.mem_map, List.mem_range, UInt16.toNat_ofNat']
  constructor
  · rintro ⟨heq, hten⟩
    exact ⟨v.toNat % 256 / 16, by omega, by omega⟩
  · rintro ⟨n, hn, heq⟩
    have hvalue : v.toNat = 256 * (16 * n + 10) + (16 * n + 10) := by omega
    have hdiv : v.toNat / 256 = 16 * n + 10 := by omega
    omega

/-- What is advertised among values. -/
def advertised (values : List UInt16) : List UInt16 := values.filter fun v => v ∉ greaseValues

theorem advertised_append (values values' : List UInt16) :
    advertised (values ++ values') = advertised values ++ advertised values' :=
  List.filter_append ..

/-! ### Messages -/

/-- An extension. -/
inductive Extension where
  /-- The groups of the client. -/
  | supportedGroups (groups : List UInt16)
  /-- The point formats of the client, whose length fits. -/
  | ecPointFormats (formats : List UInt8) (hformats : formats.length < 2 ^ 8)
  /-- Another one. -/
  | other (type : UInt16) (body : List UInt8) (htype : type ≠ 0x000A ∧ type ≠ 0x000B)

namespace Extension

/-- The type of an extension. -/
def type : Extension → UInt16
  | supportedGroups _ => 0x000A
  | ecPointFormats _ _ => 0x000B
  | other type _ _ => type

/-- The data of an extension. -/
def body : Extension → List UInt8
  | supportedGroups groups => ofU16 (.ofNat (2 * groups.length)) ++ groups.flatMap ofU16
  | ecPointFormats formats _ => .ofNat formats.length :: formats
  | other _ body _ => body

/-- An extension, as it is sent. -/
def encode (ext : Extension) : List UInt8 :=
  ofU16 ext.type ++ (ofU16 (.ofNat ext.body.length) ++ ext.body)

/-- The groups that are advertised. -/
def groups : Extension → List UInt16
  | supportedGroups groups => groups
  | _ => []

/-- The point formats that are advertised. -/
def formats : Extension → List UInt8
  | ecPointFormats formats _ => formats
  | _ => []

end Extension

/-- What a client says in its first message. -/
structure HelloFields where
  /-- The version of the record. -/
  recordVersion : UInt16
  /-- The version. -/
  legacyVersion : UInt16
  /-- The random bytes. -/
  random : Vector UInt8 32
  /-- The session. -/
  sessionId : List UInt8
  /-- The ciphers. -/
  cipherSuites : List UInt16
  /-- The compression methods. -/
  compressionMethods : List UInt8
  /-- The extensions, if there are any. -/
  extensions : Option (List Extension)

namespace HelloFields

variable (fields : HelloFields)

/-- The extensions, as they are sent. -/
def encodeExtensions : List UInt8 :=
  match fields.extensions with
  | none => []
  | some exts =>
    ofU16 (.ofNat (exts.flatMap Extension.encode).length) ++ exts.flatMap Extension.encode

/-- The message, as it is sent. -/
def hello : List UInt8 :=
  ofU16 fields.legacyVersion ++ (fields.random.toList ++
    (.ofNat fields.sessionId.length :: (fields.sessionId ++
    (ofU16 (.ofNat (2 * fields.cipherSuites.length)) ++ (fields.cipherSuites.flatMap ofU16 ++
    (.ofNat fields.compressionMethods.length :: (fields.compressionMethods ++
    fields.encodeExtensions)))))))

/-- The handshake around it. -/
def handshake : List UInt8 :=
  0x01 :: .ofNat (fields.hello.length / 256 / 256) :: .ofNat (fields.hello.length / 256) ::
    .ofNat fields.hello.length :: fields.hello

/-- The record around that. -/
def record : List UInt8 :=
  0x16 :: (ofU16 fields.recordVersion ++ (ofU16 (.ofNat fields.handshake.length) ++
    fields.handshake))

end HelloFields

/-- **A first message of a client** in one record: every length fits in the bytes it has. -/
structure ClientHello extends HelloFields where
  /-- The session has less than 256 bytes. -/
  sessionId_lt : sessionId.length < 2 ^ 8
  /-- There are less than 256 compression methods. -/
  compressionMethods_lt : compressionMethods.length < 2 ^ 8
  /-- It fits in one record. -/
  handshake_lt : toHelloFields.handshake.length < 2 ^ 16

/-- **What a client advertises.** -/
def ClientHello.ja3 (ch : ClientHello) : Ja3 :=
  let exts := ch.extensions.getD []
  ⟨ch.legacyVersion, advertised ch.cipherSuites, advertised (exts.map Extension.type),
    advertised (exts.flatMap Extension.groups), exts.flatMap Extension.formats⟩

/-! ### The cursor -/

namespace ParseCursor

variable {b : UInt8} {w : UInt16} {part rest : List UInt8} {n : ℕ}

theorem readU8_cons : (⟨b :: rest⟩ : ParseCursor).readU8 = .ok (b, ⟨rest⟩) := by
  have hrange : (range (b :: rest) 1 (b :: rest).length : Checked ProbeError (List UInt8)) =
      .ok rest := range_length (Nat.le_add_left 1 rest.length)
  rw [readU8]
  simp only [List.head?_cons, hrange]
  rfl

theorem readU16_append : (⟨ofU16 w ++ rest⟩ : ParseCursor).readU16 = .ok (w, ⟨rest⟩) := by
  have hlen : ¬ (ofU16 w ++ rest).length < 2 := by
    rw [List.length_append, Bytes.length_ofU16]
    omega
  have hrange : (range (ofU16 w ++ rest) 2 (ofU16 w ++ rest).length :
      Checked ProbeError (List UInt8)) = .ok rest := range_length (not_lt.mp hlen)
  rw [readU16, if_neg hlen, hrange]
  show Except.ok (Bytes.u16 _ _, _) = _
  rw [Bytes.u16_ofU16]

theorem skip_append (h : part.length = n) :
    (⟨part ++ rest⟩ : ParseCursor).skip n = .ok ⟨rest⟩ := by
  subst h
  have hle : part.length ≤ (part ++ rest).length := by simp
  rw [skip, if_neg (not_lt.mpr hle), range_length hle, List.drop_left]
  rfl

theorem take_append (h : part.length = n) :
    (⟨part ++ rest⟩ : ParseCursor).take n = .ok (part, ⟨rest⟩) := by
  subst h
  have hle : part.length ≤ (part ++ rest).length := by simp
  rw [take, if_neg (not_lt.mpr hle), range_length hle, range_eq_ok (Nat.zero_le _) hle,
    List.drop_zero, Nat.sub_zero, List.take_left, List.drop_left]
  rfl

theorem take_all (h : part.length = n) : (⟨part⟩ : ParseCursor).take n = .ok (part, ⟨[]⟩) := by
  have htake : (⟨part ++ []⟩ : ParseCursor).take n = .ok (part, ⟨[]⟩) := take_append h
  rwa [List.append_nil] at htake

end ParseCursor

/-! ### Lists -/

namespace Ja3

open ParseCursor (readU8_cons readU16_append skip_append take_append take_all)

variable {rest : List UInt8}

/-- A value is added where it is advertised. -/
theorem push_advertised (values : List UInt16) (v : UInt16) (l : List UInt16) :
    push values v ++ advertised l = values ++ advertised (v :: l) := by
  rw [push]
  by_cases hv : v ∈ greaseValues
  · rw [if_pos ((isGreaseU16_iff v).mpr hv), advertised, advertised,
      List.filter_cons_of_neg (by simpa using hv)]
  · rw [if_neg fun h => hv ((isGreaseU16_iff v).mp h), advertised, advertised,
      List.filter_cons_of_pos (by simpa using hv), List.append_assoc, List.singleton_append]

/-- As many ciphers are read as there are. -/
theorem readSuites_encode (ws suites : List UInt16) :
    readSuites ws.length ⟨ws.flatMap ofU16 ++ rest⟩ suites =
      .ok (suites ++ advertised ws, ⟨rest⟩) := by
  induction ws generalizing suites with
  | nil =>
    rw [advertised, List.filter_nil, List.append_nil]
    rfl
  | cons w ws ih =>
    rw [List.flatMap_cons, List.append_assoc, List.length_cons, readSuites, readU16_append,
      ← push_advertised]
    exact ih (push suites w)

theorem length_flatMap_ofU16 (ws : List UInt16) : (ws.flatMap ofU16).length = 2 * ws.length := by
  induction ws with
  | nil => rfl
  | cons w ws ih =>
    rw [List.flatMap_cons, List.length_append, ih, Bytes.length_ofU16, List.length_cons]
    omega

theorem readGroups_encode (ws groups : List UInt16) :
    readGroups (chunksExact (ws.flatMap ofU16)) groups = .ok (groups ++ advertised ws) := by
  induction ws generalizing groups with
  | nil =>
    rw [advertised, List.filter_nil, List.append_nil]
    rfl
  | cons w ws ih =>
    rw [← push_advertised, ← ih]
    show readGroups (chunksExact (ws.flatMap ofU16)) (push groups (Bytes.u16 _ _)) = _
    rw [Bytes.u16_ofU16]

/-! ### Extensions -/

/-- What the loop has read after another extension. -/
def ExtensionState.after (s : ExtensionState) (ext : Extension) (rest : List UInt8) :
    ExtensionState :=
  ⟨⟨rest⟩, push s.extensions ext.type, s.supportedGroups ++ advertised ext.groups,
    s.ecPointFormats ++ ext.formats⟩

theorem toNat_ofNat_u16 {n : ℕ} (h : n < 2 ^ 16) : (UInt16.ofNat n).toNat = n :=
  UInt16.toNat_ofNat_of_lt' h

/-- **One turn reads one extension.** -/
theorem extensionTurn_encode {s : ExtensionState} {ext : Extension}
    (hlen : ext.body.length < 2 ^ 16) (hs : s.extCursor.buf = ext.encode ++ rest) :
    extensionTurn s = .ok (.inl (s.after ext rest)) := by
  obtain ⟨⟨buf⟩, types, groups, formats⟩ := s
  obtain rfl : buf = ext.encode ++ rest := hs
  have hne : ¬ (⟨ext.encode ++ rest⟩ : ParseCursor).isEmpty = true := Bool.false_ne_true
  have htake : (⟨ext.body ++ rest⟩ : ParseCursor).take (UInt16.ofNat ext.body.length).toNat =
      .ok (ext.body, ⟨rest⟩) := take_append (toNat_ofNat_u16 hlen).symm
  rw [extensionTurn, if_neg hne]
  simp only [Extension.encode, List.append_assoc, readU16_append, ok_bind, htake]
  cases ext with
  | supportedGroups ws =>
    have hbody : (ofU16 (.ofNat (2 * ws.length)) ++ ws.flatMap ofU16).length < 2 ^ 16 := hlen
    rw [List.length_append, Bytes.length_ofU16, length_flatMap_ofU16] at hbody
    have hcount := toNat_ofNat_u16 (show 2 * ws.length < 2 ^ 16 by omega)
    have hread : ParseCursor.readU16 ⟨(Extension.supportedGroups ws).body⟩ =
        .ok (.ofNat (2 * ws.length), ⟨ws.flatMap ofU16⟩) := readU16_append
    have hlist := take_all ((length_flatMap_ofU16 ws).trans hcount.symm)
    have heven : ¬ (UInt16.ofNat (2 * ws.length)).toNat % 2 ≠ 0 := by omega
    have htype : (Extension.supportedGroups ws).type = 0x000A := rfl
    rw [if_pos htype]
    simp only [hread, ok_bind, if_neg heven, hlist, readGroups_encode, ExtensionState.after,
      Extension.formats, List.append_nil]
    rfl
  | ecPointFormats fs hformats =>
    have hcount : (UInt8.ofNat fs.length).toNat = fs.length := UInt8.toNat_ofNat_of_lt' hformats
    have hread : ParseCursor.readU8 ⟨(Extension.ecPointFormats fs hformats).body⟩ =
        .ok (.ofNat fs.length, ⟨fs⟩) := readU8_cons
    have hlist := take_all hcount.symm
    have hgroups : groups ++ advertised [] = groups := List.append_nil groups
    have htype : (Extension.ecPointFormats fs hformats).type = 0x000B := rfl
    have hne : (Extension.ecPointFormats fs hformats).type ≠ 0x000A := by
      rw [htype]
      decide
    rw [if_neg hne, if_pos htype]
    simp only [hread, ok_bind, hlist, ExtensionState.after, Extension.groups, hgroups]
    rfl
  | other type body htype =>
    have hgroups : groups ++ advertised [] = groups := List.append_nil groups
    have hten : ¬ (Extension.other type body htype).type = 0x000A := htype.1
    have heleven : ¬ (Extension.other type body htype).type = 0x000B := htype.2
    rw [if_neg hten, if_neg heleven]
    simp only [ExtensionState.after, Extension.groups, Extension.formats, hgroups,
      List.append_nil]
    rfl

theorem length_encode (ext : Extension) : ext.encode.length = 4 + ext.body.length := by
  rw [Extension.encode, List.length_append, List.length_append, Bytes.length_ofU16,
    Bytes.length_ofU16]
  omega

/-- **The loop reads all extensions**, in the order they are sent. -/
theorem run_encode {exts : List Extension} {s : ExtensionState} {n : ℕ}
    (hlen : (exts.flatMap Extension.encode).length < 2 ^ 16)
    (hs : s.extCursor.buf = exts.flatMap Extension.encode) (hn : exts.length < n) :
    Loop.run extensionTurn n s = .ok ⟨⟨[]⟩,
      s.extensions ++ advertised (exts.map Extension.type),
      s.supportedGroups ++ advertised (exts.flatMap Extension.groups),
      s.ecPointFormats ++ exts.flatMap Extension.formats⟩ := by
  induction exts generalizing s n with
  | nil =>
    obtain ⟨⟨buf⟩, types, groups, formats⟩ := s
    obtain rfl : buf = [] := hs
    obtain ⟨m, rfl⟩ := Nat.exists_eq_succ_of_ne_zero (Nat.ne_of_gt hn)
    have hturn : extensionTurn ⟨⟨[]⟩, types, groups, formats⟩ =
        .ok (.inr ⟨⟨[]⟩, types, groups, formats⟩) := rfl
    rw [Loop.run_succ_of_done hturn, List.map_nil, List.flatMap_nil, List.flatMap_nil,
      List.append_nil, advertised, List.filter_nil, List.append_nil, List.append_nil]
  | cons ext exts ih =>
    obtain ⟨m, rfl⟩ := Nat.exists_eq_succ_of_ne_zero (Nat.ne_of_gt ((Nat.zero_le _).trans_lt hn))
    rw [List.flatMap_cons, List.length_append, length_encode] at hlen
    have hturn := extensionTurn_encode (by omega) (hs.trans List.flatMap_cons)
    rw [Loop.run_succ_of_next hturn, ih (by omega) rfl (Nat.lt_of_succ_lt_succ hn)]
    simp only [ExtensionState.after, push_advertised, List.append_assoc, ← advertised_append,
      List.map_cons, List.flatMap_cons]

/-- There are as many bytes as extensions, and more. -/
theorem length_le_flatMap_encode (exts : List Extension) :
    exts.length ≤ (exts.flatMap Extension.encode).length := by
  induction exts with
  | nil => exact le_rfl
  | cons ext exts ih =>
    rw [List.flatMap_cons, List.length_append, length_encode, List.length_cons]
    omega

/-- Read the extensions there are. -/
theorem readExtensions_encode (fields : HelloFields)
    (hlen : fields.encodeExtensions.length < 2 ^ 16) :
    let exts := fields.extensions.getD []
    ∃ p, readExtensions ⟨fields.encodeExtensions⟩ = .ok ⟨p, advertised (exts.map Extension.type),
      advertised (exts.flatMap Extension.groups), exts.flatMap Extension.formats⟩ := by
  rw [HelloFields.encodeExtensions] at hlen ⊢
  cases hexts : fields.extensions with
  | none => exact ⟨⟨[]⟩, rfl⟩
  | some exts =>
    simp only [hexts, List.length_append, Bytes.length_ofU16] at hlen
    have hfits : (exts.flatMap Extension.encode).length < 2 ^ 16 := by omega
    have hcount := toNat_ofNat_u16 hfits
    have hne : ¬ (⟨ofU16 (.ofNat (exts.flatMap Extension.encode).length) ++
        exts.flatMap Extension.encode⟩ : ParseCursor).isEmpty = true := Bool.false_ne_true
    refine ⟨⟨[]⟩, ?_⟩
    rw [readExtensions, if_neg hne, readU16_append]
    simp only [ok_bind, take_all hcount.symm]
    exact run_encode hfits rfl (Nat.lt_succ_of_le (length_le_flatMap_encode exts))

/-! ### The message -/

variable (ch : ClientHello)

theorem length_hello (fields : HelloFields) : fields.hello.length =
    38 + fields.sessionId.length + 2 * fields.cipherSuites.length +
      fields.compressionMethods.length + fields.encodeExtensions.length := by
  simp only [HelloFields.hello, List.length_append, List.length_cons, Bytes.length_ofU16,
    length_flatMap_ofU16, Vector.length_toList]
  omega

theorem hello_lt : ch.hello.length < 2 ^ 16 - 4 := by
  have hlen := ch.handshake_lt
  rw [HelloFields.handshake, List.length_cons, List.length_cons, List.length_cons,
    List.length_cons] at hlen
  omega

/-- **The message is read as it was meant.** -/
theorem readHello_hello : readHello ch.hello = .ok ch.ja3 := by
  have hlen := hello_lt ch
  rw [length_hello] at hlen
  have hsession : (UInt8.ofNat ch.sessionId.length).toNat = ch.sessionId.length :=
    UInt8.toNat_ofNat_of_lt' ch.sessionId_lt
  have hmethods : (UInt8.ofNat ch.compressionMethods.length).toNat =
      ch.compressionMethods.length := UInt8.toNat_ofNat_of_lt' ch.compressionMethods_lt
  have hsuites : (UInt16.ofNat (2 * ch.cipherSuites.length)).toNat = 2 * ch.cipherSuites.length :=
    toNat_ofNat_u16 (by omega)
  have heven : ¬ 2 * ch.cipherSuites.length % 2 ≠ 0 := by omega
  have hhalf : 2 * ch.cipherSuites.length / 2 = ch.cipherSuites.length := by omega
  obtain ⟨p, hexts⟩ := readExtensions_encode ch.toHelloFields (by omega)
  rw [HelloFields.hello, readHello]
  simp only [readU16_append, ok_bind, skip_append (Vector.length_toList), readU8_cons, hsession,
    skip_append rfl, hsuites, if_neg heven, hhalf, readSuites_encode, hmethods, hexts]
  rfl

theorem shiftLeft_or (a b c : ℕ) (hb : b < 256) (hc : c < 256) :
    a <<< 16 ||| b <<< 8 ||| c = (a * 256 + b) * 256 + c := by
  have hmid : b <<< 8 < 2 ^ 16 := by
    rw [Nat.shiftLeft_eq]
    omega
  have hhigh : a <<< 16 ||| b <<< 8 = (a * 256 + b) <<< 8 := by
    rw [← Nat.shiftLeft_add_eq_or_of_lt hmid, Nat.shiftLeft_eq, Nat.shiftLeft_eq, Nat.shiftLeft_eq]
    omega
  have hlow : c < 2 ^ 8 := hc
  rw [hhigh, ← Nat.shiftLeft_add_eq_or_of_lt hlow, Nat.shiftLeft_eq]

/-- The message is found in the handshake. -/
theorem helloOf_handshake : helloOf ch.handshake = .ok ch.hello := by
  have hlt := hello_lt ch
  have hlen : ch.handshake.length = 4 + ch.hello.length := by
    simp only [HelloFields.handshake, List.length_cons]
    omega
  have hcount : (UInt8.ofNat (ch.hello.length / 256 / 256)).toNat <<< 16 |||
      (UInt8.ofNat (ch.hello.length / 256)).toNat <<< 8 |||
      (UInt8.ofNat ch.hello.length).toNat = ch.hello.length := by
    rw [shiftLeft_or _ _ _ (UInt8.toNat_lt _) (UInt8.toNat_lt _), Bytes.toNat_ofNat,
      Bytes.toNat_ofNat, Bytes.toNat_ofNat]
    omega
  have hfirst : (nth ch.handshake 0 : Checked ProbeError UInt8) = .ok 0x01 := rfl
  have hone : ¬ (0x01 : UInt8) ≠ 0x01 := not_not_intro rfl
  have hcounts : (nth ch.handshake 1 : Checked ProbeError UInt8) =
        .ok (.ofNat (ch.hello.length / 256 / 256)) ∧
      (nth ch.handshake 2 : Checked ProbeError UInt8) = .ok (.ofNat (ch.hello.length / 256)) ∧
      (nth ch.handshake 3 : Checked ProbeError UInt8) = .ok (.ofNat ch.hello.length) :=
    ⟨rfl, rfl, rfl⟩
  rw [helloOf, if_neg (by omega), hfirst, ok_bind, if_neg hone, hcounts.1, hcounts.2.1,
    hcounts.2.2, ok_bind, ok_bind, ok_bind, hcount, if_neg (by omega), ← hlen,
    range_length (by omega)]
  rfl

/-- The handshake is found in the record. -/
theorem bodyOf_record : bodyOf ch.record = .ok ch.handshake := by
  have hlen : ch.record.length = 5 + ch.handshake.length := by
    simp only [HelloFields.record, List.length_cons, List.length_append, Bytes.length_ofU16]
    omega
  have hfirst : (nth ch.record 0 : Checked ProbeError UInt8) = .ok 0x16 := rfl
  have hhandshake : ¬ (0x16 : UInt8) ≠ 0x16 := not_not_intro rfl
  have hcount := toNat_ofNat_u16 ch.handshake_lt
  rw [bodyOf, if_neg (by omega), hfirst, ok_bind, if_neg hhandshake]
  show (if ch.record.length < 5 + (Bytes.u16 _ _).toNat then _ else _) = _
  rw [Bytes.u16_ofU16, hcount, if_neg (by omega), ← hlen, range_length (by omega)]
  rfl

end Ja3

/-- **The parser.** Whatever the bytes are, it ends with a result or an error it returns, without
an index or a slice out of range; and of a first message of a client in one record it reads what
the client advertises, in order and without the reserved values. -/
theorem fromClientHello_correct :
    (∀ bytes, Safe (fun _ => True) (Ja3.fromClientHello bytes)) ∧
      ∀ ch : ClientHello, Ja3.fromClientHello ch.record = .ok ch.ja3 := by
  refine ⟨Ja3.safe_fromClientHello, fun ch => ?_⟩
  rw [Ja3.fromClientHello, Ja3.bodyOf_record, ok_bind, Ja3.helloOf_handshake, ok_bind,
    Ja3.readHello_hello]

/-- The name of a server. -/
def serverName (body : List UInt8) : Extension := .other 0x0000 body (by decide)

/-- The versions of a client. -/
def supportedVersions (body : List UInt8) : Extension := .other 0x002B body (by decide)

/-- The point format without compression. -/
def uncompressed : Extension := .ecPointFormats [0x00] (by decide)

/-- What a browser says first, with reserved values among the ciphers, the extensions and the
groups. -/
def browserFields : HelloFields where
  recordVersion := 0x0301
  legacyVersion := 0x0303
  random := Vector.replicate 32 0x5C
  sessionId := List.replicate 32 0xE1
  cipherSuites := [0x8A8A, 0x1301, 0x1302, 0xC02B]
  compressionMethods := [0x00]
  extensions := some [
    .other 0x2A2A [] (by decide),
    serverName [0x00, 0x06, 0x00, 0x00, 0x03, 0x61, 0x2E, 0x62],
    .supportedGroups [0x1A1A, 0x001D, 0x0017],
    uncompressed,
    supportedVersions [0x04, 0x03, 0x04, 0x03, 0x03]]

/-- **The first message of a browser.** -/
def browserHello : ClientHello where
  toHelloFields := browserFields
  sessionId_lt := by decide
  compressionMethods_lt := by decide
  handshake_lt := by decide +kernel

/-- Its reserved values are left out. -/
theorem fromClientHello_browserHello :
    Ja3.fromClientHello browserHello.record =
      .ok ⟨0x0303, [0x1301, 0x1302, 0xC02B], [0x0000, 0x000A, 0x000B, 0x002B], [0x001D, 0x0017],
        [0x00]⟩ := by
  have hja3 : browserHello.ja3 = ⟨0x0303, [0x1301, 0x1302, 0xC02B],
      [0x0000, 0x000A, 0x000B, 0x002B], [0x001D, 0x0017], [0x00]⟩ := by
    decide +kernel
  rw [fromClientHello_correct.2 browserHello, hja3]

end Testkit

end DevBrowse
