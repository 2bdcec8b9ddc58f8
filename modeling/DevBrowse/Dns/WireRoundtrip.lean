import DevBrowse.Dns.WireSafety

/-!
# Decoding what was encoded

`Response` is a response as its sender means it: a question, records with their owners, and
whatever bytes follow. Every name in it may be written out or end in a pointer, to anywhere
in the message from where a name can be read on (`WireName.Valid`); how the sender compresses
its names is part of the response, and the decoder does not show it.
-/

namespace DevBrowse

namespace Dns

open Checked

open Bytes (At ofU16 ofU32)

variable {buf : Buf} {s : SkipState} {pos next hops : ℕ} {labels : List (List UInt8)}

/-! ### Skipping a name that is there -/

/-- An addition that does not overflow. -/
theorem addUsize_bind {β : Type} {a b : ℕ} {f : ℕ → Checked WireError β} (h : a + b < 2 ^ 64) :
    (addUsize a b >>= f) = f (a + b) := by
  rw [addUsize, add_eq_ok h, ok_bind]

theorem skipTurn_root (h : buf.elems[s.cursor]? = some 0) :
    skipTurn buf s = .ok (.inr (s.afterPointer.getD (s.cursor + 1))) := by
  have hlen : buf.len < 2 ^ 63 := buf.length_lt
  have hlt : s.cursor < buf.len := (List.getElem?_eq_some_iff.mp h).1
  have hin : ¬ buf.len ≤ s.cursor := not_le.mpr hlt
  rw [skipTurn, if_neg hin, index_eq_ok h, ok_bind, if_pos rfl, addUsize,
    add_eq_ok (by omega)]
  rfl

theorem skipTurn_pointer {target : ℕ} (htarget : target < 2 ^ 14)
    (h : At buf.elems s.cursor (pointerBytes target)) (hhops : s.hops < maxPointerHops) :
    skipTurn buf s = .ok (.inl ⟨target, s.hops + 1,
      some (s.afterPointer.getD (s.cursor + 2)), s.totalLen⟩) := by
  have hlen : buf.len < 2 ^ 63 := buf.length_lt
  have hmax : maxPointerHops = 16 := rfl
  have hle : s.cursor + 2 ≤ buf.len := h.add_length_le (List.cons_ne_nil _ _)
  rw [pointerBytes, Bytes.at_cons, Bytes.at_singleton] at h
  obtain ⟨hfirst, hsecond⟩ := h
  have hin : ¬ buf.len ≤ s.cursor := not_le.mpr (by omega)
  have hbyte : (UInt8.ofNat (192 + target / 256)).toNat = 192 + target / 256 := by
    rw [Bytes.toNat_ofNat]
    omega
  have hne : UInt8.ofNat (192 + target / 256) ≠ 0 := fun h => by
    rw [h] at hbyte
    have hzero : (0 : UInt8).toNat = 0 := rfl
    omega
  have hmark : UInt8.ofNat (192 + target / 256) &&& 0xC0 = 0xC0 :=
    (and_eq_pointer_iff _).mpr (by omega)
  rw [skipTurn, if_neg hin, index_eq_ok hfirst, ok_bind, if_neg hne, if_pos hmark,
    addUsize_bind (by omega), if_neg (not_lt.mpr hle), addUsize_bind (by omega),
    index_eq_ok hsecond, ok_bind, offset_eq, hbyte, Bytes.toNat_ofNat, add_eq_ok (by omega),
    ok_bind, if_neg (by omega)]
  have htargetEq : (192 + target / 256) % 64 * 256 + target % 256 = target := by omega
  rw [htargetEq]
  rfl

theorem skipTurn_label {label : List UInt8} (hne : label ≠ [])
    (hshort : label.length ≤ maxLabelLen)
    (h : At buf.elems s.cursor (.ofNat label.length :: label))
    (htotal : s.totalLen + (1 + label.length) ≤ maxNameLen) :
    skipTurn buf s = .ok (.inl ⟨s.cursor + 1 + label.length, s.hops, s.afterPointer,
      s.totalLen + (1 + label.length)⟩) := by
  have hlen : buf.len < 2 ^ 63 := buf.length_lt
  have hmax : maxLabelLen = 63 := rfl
  have hmaxName : maxNameLen = 255 := rfl
  have hpos := List.length_pos_iff.mpr hne
  have hle : s.cursor + (label.length + 1) ≤ buf.len :=
    h.add_length_le (List.cons_ne_nil _ _)
  rw [Bytes.at_cons] at h
  have hin : ¬ buf.len ≤ s.cursor := not_le.mpr (by omega)
  have hbyte : (UInt8.ofNat label.length).toNat = label.length := by
    rw [Bytes.toNat_ofNat]
    omega
  have hzero : UInt8.ofNat label.length ≠ 0 := fun h => by
    rw [h] at hbyte
    have hzero : (0 : UInt8).toNat = 0 := rfl
    omega
  have hunmarked : UInt8.ofNat label.length &&& 0xC0 = 0 := (and_eq_zero_iff _).mpr (by omega)
  have hnotPointer : ¬ UInt8.ofNat label.length &&& 0xC0 = 0xC0 := fun h => by
    have := (and_eq_pointer_iff _).mp h
    omega
  have hwithin : ¬ buf.len < s.cursor + 1 + label.length := not_lt.mpr (by omega)
  rw [skipTurn, if_neg hin, index_eq_ok h.1, ok_bind, if_neg hzero, if_neg hnotPointer,
    if_neg (not_not.mpr hunmarked), hbyte, if_neg (by omega), addUsize_bind (by omega),
    addUsize_bind (by omega), if_neg hwithin, addUsize_bind (by omega), addUsize_bind (by omega),
    if_neg (not_lt.mpr htotal)]
  rfl

/-- The loop runs through a name. -/
theorem run_skipTurn (h : NameAt buf.elems pos next hops labels) (s : SkipState)
    (hpos : s.cursor = pos) (hhops : s.hops + hops ≤ maxPointerHops)
    (htotal : s.totalLen + nameLen labels ≤ maxNameLen) (n : ℕ)
    (hn : hops + nameLen labels < n) :
    Loop.run (skipTurn buf) n s = .ok (s.afterPointer.getD next) := by
  -- along the name; every part of it takes one turn, and counts against one of the bounds
  induction h generalizing s n with
  | root hroot =>
    subst hpos
    obtain ⟨n, rfl⟩ : ∃ m, n = m + 1 := ⟨n - 1, by omega⟩
    exact Loop.run_succ_of_done (skipTurn_root hroot)
  | @label pos next hops label labels hne hshort hat _ ih =>
    subst hpos
    rw [nameLen] at htotal hn
    obtain ⟨n, rfl⟩ : ∃ m, n = m + 1 := ⟨n - 1, by omega⟩
    rw [Loop.run_succ_of_next (skipTurn_label hne hshort hat (by omega))]
    refine ih ⟨s.cursor + 1 + label.length, s.hops, s.afterPointer,
      s.totalLen + (1 + label.length)⟩ rfl hhops ?_ n (by omega)
    show s.totalLen + (1 + label.length) + nameLen labels ≤ maxNameLen
    omega
  | @pointer pos target next hops labels htarget hat _ ih =>
    subst hpos
    obtain ⟨n, rfl⟩ : ∃ m, n = m + 1 := ⟨n - 1, by omega⟩
    rw [Loop.run_succ_of_next (skipTurn_pointer htarget hat (by omega))]
    refine ih ⟨target, s.hops + 1, some (s.afterPointer.getD (s.cursor + 2)), s.totalLen⟩ rfl
      ?_ htotal n (by omega)
    show s.hops + 1 + hops ≤ maxPointerHops
    omega

/-- **What is skipped is a name**, with as many pointers and as long as names may be. -/
theorem skipName_eq_ok_iff : skipName buf pos = .ok next ↔ ∃ hops labels,
    NameAt buf.elems pos next hops labels ∧ hops ≤ maxPointerHops ∧
      nameLen labels ≤ maxNameLen := by
  constructor
  · intro h
    rcases safe_skipName buf pos with ⟨e, he⟩ | ⟨next', hok, hname⟩
    · rw [h] at he
      cases he
    · rw [h] at hok
      cases hok
      exact hname
  · rintro ⟨hops, labels, hname, hhops, htotal⟩
    have hturns : hops + nameLen labels < skipTurns := by
      rw [skipTurns]
      omega
    refine run_skipTurn hname ⟨pos, 0, none, 0⟩ rfl ?_ ?_ skipTurns hturns
    · rwa [Nat.zero_add]
    · rwa [Nat.zero_add]

/-! ### Reading words that are there -/

variable {w : UInt16} {v : UInt32} {cursor : ℕ}

theorem be16_eq (h : At buf.elems cursor (ofU16 w)) : be16 buf cursor (cursor + 1) = .ok w := by
  rw [ofU16, Bytes.at_cons, Bytes.at_singleton] at h
  rw [be16, index_eq_ok h.1, ok_bind, index_eq_ok h.2, ok_bind, Bytes.u16_ofU16]
  rfl

theorem readU16_eq (h : At buf.elems cursor (ofU16 w)) : readU16 buf cursor = .ok w := by
  have hlen : buf.len < 2 ^ 63 := buf.length_lt
  have hle : cursor + 2 ≤ buf.len := h.add_length_le (List.cons_ne_nil _ _)
  rw [readU16, addUsize_bind (by omega), if_neg (not_lt.mpr hle), addUsize_bind (by omega),
    be16_eq h]

theorem readU32_eq (h : At buf.elems cursor (ofU32 v)) : readU32 buf cursor = .ok v := by
  have hlen : buf.len < 2 ^ 63 := buf.length_lt
  have hle : cursor + 4 ≤ buf.len := h.add_length_le (List.cons_ne_nil _ _)
  rw [ofU32, Bytes.at_cons, Bytes.at_cons, Bytes.at_cons, Bytes.at_singleton] at h
  obtain ⟨h₀, h₁, h₂, h₃⟩ := h
  rw [readU32, addUsize_bind (by omega), if_neg (not_lt.mpr hle), index_eq_ok h₀, ok_bind,
    addUsize_bind (by omega), index_eq_ok h₁, ok_bind, addUsize_bind (by omega), index_eq_ok h₂,
    ok_bind, addUsize_bind (by omega), index_eq_ok h₃, ok_bind, Bytes.u32_ofU32]
  rfl

theorem readAdvance_eq {n : ℕ} (h : cursor + n ≤ buf.len) :
    readAdvance buf cursor n = .ok (cursor + n) := by
  have hlen : buf.len < 2 ^ 63 := buf.length_lt
  rw [readAdvance, addUsize_bind (by omega), if_neg (not_lt.mpr h)]
  rfl

/-! ### Names, records and responses, as their sender means them -/

/-- A label. -/
structure Label where
  /-- Its bytes. -/
  bytes : List UInt8
  /-- Only the root label is empty. -/
  ne_nil : bytes ≠ []
  /-- It is not longer than labels are. -/
  length_le : bytes.length ≤ maxLabelLen

/-- A name as it is written: labels, and the root label or a pointer to where it goes on. -/
structure WireName where
  /-- The labels that are written out. -/
  labels : List Label
  /-- The offset the pointer behind them is to, if there is one. -/
  target : Option (Fin (2 ^ 14))

/-- The bytes of a name. -/
def WireName.encode (name : WireName) : List UInt8 :=
  (name.labels.flatMap fun label => .ofNat label.bytes.length :: label.bytes) ++
    match name.target with
    | none => [0]
    | some target => pointerBytes target

/-- A name that can be read in a message: the pointer, if there is one, is to a place where a
name can be read, and the pointers and the labels of all of it are as many as names may have. -/
def WireName.Valid (message : List UInt8) (name : WireName) : Prop :=
  match name.target with
  | none => nameLen (name.labels.map Label.bytes) ≤ maxNameLen
  | some target => ∃ next hops labels, NameAt message target next hops labels ∧
      hops + 1 ≤ maxPointerHops ∧
      nameLen (name.labels.map Label.bytes) + nameLen labels ≤ maxNameLen

/-- A resource record. -/
structure ResourceRecord where
  /-- The name it is about. -/
  owner : WireName
  /-- Its type. -/
  rrtype : UInt16
  /-- Its class. -/
  rrclass : UInt16
  /-- How long it may be kept. -/
  ttl : UInt32
  /-- Its data. -/
  rdata : List UInt8
  /-- The length of the data is written in two bytes. -/
  rdata_length : rdata.length < 2 ^ 16
  /-- An IPv4 address has four bytes. -/
  a_length : rrtype = 1 → rdata.length = 4
  /-- An IPv6 address has sixteen. -/
  aaaa_length : rrtype = 28 → rdata.length = 16

/-- The bytes of a record behind its owner. -/
def ResourceRecord.body (r : ResourceRecord) : List UInt8 :=
  ofU16 r.rrtype ++ ofU16 r.rrclass ++ ofU32 r.ttl ++ ofU16 (.ofNat r.rdata.length) ++ r.rdata

/-- The bytes of a record. -/
def ResourceRecord.encode (r : ResourceRecord) : List UInt8 := r.owner.encode ++ r.body

/-- The address of a record, if it is of a type that has one. -/
def ResourceRecord.address (r : ResourceRecord) : Option DnsRecord :=
  if h : r.rrtype = 1 then some (.a ⟨r.rdata.toArray, r.a_length h⟩)
  else if h : r.rrtype = 28 then some (.aaaa ⟨r.rdata.toArray, r.aaaa_length h⟩)
  else none

/-- A response to one question, without an error. -/
structure Response where
  /-- The identifier. -/
  id : UInt16
  /-- The flags, with the code of the response. -/
  flags : UInt16
  /-- The code says that there is no error. -/
  rcode : flags &&& 0x000F = 0
  /-- The name asked for. -/
  qname : WireName
  /-- The type asked for. -/
  qtype : UInt16
  /-- The class asked for. -/
  qclass : UInt16
  /-- The records. -/
  answers : List ResourceRecord
  /-- How many there are is written in two bytes. -/
  answers_length : answers.length < 2 ^ 16
  /-- How many records about authorities follow. -/
  nscount : UInt16
  /-- How many further records follow. -/
  arcount : UInt16
  /-- The bytes of what follows. -/
  trailing : List UInt8

namespace Response

/-- The first twelve bytes. -/
def header (m : Response) : List UInt8 :=
  ofU16 m.id ++ ofU16 m.flags ++ ofU16 1 ++ ofU16 (.ofNat m.answers.length) ++
    ofU16 m.nscount ++ ofU16 m.arcount

/-- The question. -/
def question (m : Response) : List UInt8 := m.qname.encode ++ (ofU16 m.qtype ++ ofU16 m.qclass)

/-- The bytes of the response. -/
def encode (m : Response) : List UInt8 :=
  m.header ++ (m.question ++ (m.answers.flatMap ResourceRecord.encode ++ m.trailing))

/-- The addresses in it, in its order. -/
def addresses (m : Response) : List DnsRecord := m.answers.filterMap ResourceRecord.address

/-- A response that can be sent: it is not too long, and its names can be read in it. -/
structure WellFormed (m : Response) : Prop where
  /-- It is not longer than messages are. -/
  length_le : m.encode.length ≤ maxDnsMessageBytes
  /-- The name asked for can be read. -/
  qname : m.qname.Valid m.encode
  /-- The owners of the records can be read. -/
  owners : ∀ r ∈ m.answers, r.owner.Valid m.encode

end Response

/-! ### Decoding them -/

variable {message : List UInt8}

theorem nameLen_append (a b : List (List UInt8)) :
    nameLen (a ++ b) = nameLen a + nameLen b := by
  induction a with
  | nil => simp [nameLen]
  | cons label a ih =>
    rw [List.cons_append, nameLen, nameLen, ih]
    omega

/-- Labels, and a name behind them. -/
theorem nameAt_labels {ls : List Label}
    (hat : At message pos (ls.flatMap fun label => .ofNat label.bytes.length :: label.bytes))
    (hname : NameAt message
      (pos + (ls.flatMap fun label => .ofNat label.bytes.length :: label.bytes).length)
      next hops labels) :
    NameAt message pos next hops (ls.map Label.bytes ++ labels) := by
  induction ls generalizing pos with
  | nil => exact hname
  | cons label ls ih =>
    rw [List.flatMap_cons, Bytes.at_append] at hat
    have hlen : pos + 1 + label.bytes.length =
        pos + (UInt8.ofNat label.bytes.length :: label.bytes).length := by
      rw [List.length_cons]
      omega
    refine .label label.ne_nil label.length_le hat.1 ?_
    rw [hlen]
    refine ih hat.2 ?_
    rwa [List.flatMap_cons, List.length_append, ← Nat.add_assoc] at hname

/-- A name that is written where it can be read is skipped. -/
theorem skipName_encode {name : WireName} (hat : At buf.elems pos name.encode)
    (hvalid : name.Valid buf.elems) :
    skipName buf pos = .ok (pos + name.encode.length) := by
  obtain ⟨ls, target⟩ := name
  rw [WireName.encode, Bytes.at_append] at hat
  rw [WireName.encode, List.length_append, ← Nat.add_assoc, skipName_eq_ok_iff]
  cases target with
  | none =>
    refine ⟨0, ls.map Label.bytes ++ [], nameAt_labels hat.1 ?_, Nat.zero_le _, ?_⟩
    · exact .root (Bytes.at_singleton.mp hat.2)
    · rwa [List.append_nil]
  | some target =>
    obtain ⟨next, hops, labels, hname, hhops, htotal⟩ := hvalid
    refine ⟨hops + 1, ls.map Label.bytes ++ labels, nameAt_labels hat.1 ?_, hhops, ?_⟩
    · exact .pointer target.isLt hat.2 hname
    · rwa [nameLen_append]

/-- The smaller of two times to live, as the loop takes it. -/
def minTtl (a : UInt32) (r : ResourceRecord) : UInt32 :=
  if r.address.isSome then (if r.ttl < a then r.ttl else a) else a

theorem decodeRdata_eq (r : ResourceRecord) : decodeRdata r.rrtype r.rdata = .ok r.address := by
  rw [decodeRdata, ResourceRecord.address]
  by_cases h₁ : r.rrtype = 1
  · rw [if_pos h₁, dif_pos h₁, dif_pos (r.a_length h₁)]
    rfl
  · rw [if_neg h₁, dif_neg h₁]
    by_cases h₂ : r.rrtype = 28
    · rw [if_pos h₂, dif_pos h₂, dif_pos (r.aaaa_length h₂)]
      rfl
    · rw [if_neg h₂, dif_neg h₂]
      rfl

theorem length_body (r : ResourceRecord) : r.body.length = 10 + r.rdata.length := by
  simp only [ResourceRecord.body, List.length_append, Bytes.length_ofU16, Bytes.length_ofU32]

/-- A record that is written, and whose owner can be read, is decoded. -/
theorem decodeRecord_encode {s : DecodeState} {r : ResourceRecord}
    (hat : At buf.elems s.cursor r.encode) (hvalid : r.owner.Valid buf.elems) :
    decodeRecord buf s = .ok ⟨s.cursor + r.encode.length,
      s.records ++ r.address.toList, minTtl s.minTtl r⟩ := by
  have hlen : buf.len < 2 ^ 63 := buf.length_lt
  rw [ResourceRecord.encode, Bytes.at_append] at hat
  obtain ⟨howner, hbody⟩ := hat
  -- where the body of the record begins
  obtain ⟨c, hc⟩ : ∃ c, c = s.cursor + r.owner.encode.length := ⟨_, rfl⟩
  rw [← hc] at hbody
  have hbodyNe : r.body ≠ [] := fun h => by
    have := length_body r
    rw [h, List.length_nil] at this
    omega
  have hend : c + (10 + r.rdata.length) ≤ buf.len := by
    rw [← length_body]
    exact hbody.add_length_le hbodyNe
  simp only [ResourceRecord.body, Bytes.at_append, Bytes.length_ofU16, Bytes.length_ofU32,
    List.length_append, Nat.reduceAdd] at hbody
  obtain ⟨⟨⟨⟨htype, hclass⟩, httl⟩, hrdlength⟩, hrdata⟩ := hbody
  have hword : (UInt16.ofNat r.rdata.length).toNat = r.rdata.length :=
    UInt16.toNat_ofNat_of_lt r.rdata_length
  have hwithin : ¬ buf.len < c + 10 + r.rdata.length := not_lt.mpr (by omega)
  have hslice :
      ((buf.elems.drop (c + 10)).take (c + 10 + r.rdata.length - (c + 10))) = r.rdata := by
    rw [Nat.add_sub_cancel_left]
    exact (List.prefix_iff_eq_take.mp hrdata).symm
  have hnext : c + 10 + r.rdata.length = s.cursor + r.encode.length := by
    rw [ResourceRecord.encode, List.length_append, length_body]
    omega
  rw [decodeRecord, skipName_encode howner hvalid, ok_bind, ← hc, readU16_eq htype, ok_bind,
    addUsize_bind (by omega), readU16_eq hclass, ok_bind, addUsize_bind (by omega),
    readU32_eq httl, ok_bind, addUsize_bind (by omega), readU16_eq hrdlength, ok_bind,
    addUsize_bind (by omega), hword, addUsize_bind (by omega), if_neg hwithin,
    slice_eq_ok (by omega) (not_lt.mp hwithin), ok_bind, hslice, decodeRdata_eq, ok_bind, hnext]
  -- what is left is what the record adds to the answer
  rw [minTtl]
  cases r.address with
  | none => simp; rfl
  | some record => rfl

/-- Records that are written one after the other are decoded. -/
theorem decodeRecords_encode {s : DecodeState} {rs : List ResourceRecord}
    (hat : At buf.elems s.cursor (rs.flatMap ResourceRecord.encode))
    (hvalid : ∀ r ∈ rs, r.owner.Valid buf.elems) :
    ∃ cursor, decodeRecords buf rs.length s = .ok ⟨cursor,
      s.records ++ rs.filterMap ResourceRecord.address, rs.foldl minTtl s.minTtl⟩ := by
  induction rs generalizing s with
  | nil => exact ⟨s.cursor, by rw [List.filterMap_nil, List.append_nil]; rfl⟩
  | cons r rs ih =>
    rw [List.flatMap_cons, Bytes.at_append] at hat
    have hfirst := decodeRecord_encode hat.1 (hvalid r List.mem_cons_self)
    obtain ⟨cursor, hrest⟩ := ih (s := ⟨s.cursor + r.encode.length,
      s.records ++ r.address.toList, minTtl s.minTtl r⟩) hat.2
      fun r' hr' => hvalid r' (List.mem_cons_of_mem r hr')
    have haddresses : (r :: rs).filterMap ResourceRecord.address =
        r.address.toList ++ rs.filterMap ResourceRecord.address := by
      rw [List.filterMap_cons]
      cases r.address <;> rfl
    refine ⟨cursor, ?_⟩
    rw [List.length_cons, decodeRecords, hfirst, ok_bind, hrest, List.append_assoc,
      List.foldl_cons, haddresses]

/-! ### The time to live -/

/-- The smallest of some times to live, or zero if there are none. -/
def IsMinTtl (ttls : List UInt32) (ttl : UInt32) : Prop :=
  (ttls = [] → ttl = 0) ∧
    (ttls ≠ [] → ttl ∈ ttls ∧ ∀ t ∈ ttls, ttl.toNat ≤ t.toNat)

/-- The times to live of the records that have an address. -/
def ttlsOf (rs : List ResourceRecord) : List UInt32 :=
  (rs.filter fun r => r.address.isSome).map ResourceRecord.ttl

/-- The loop keeps the smallest of the times to live it has seen and the one it began with. -/
theorem foldl_minTtl (a : UInt32) (rs : List ResourceRecord) :
    (rs.foldl minTtl a = a ∨ rs.foldl minTtl a ∈ ttlsOf rs) ∧
      (rs.foldl minTtl a).toNat ≤ a.toNat ∧
      ∀ t ∈ ttlsOf rs, (rs.foldl minTtl a).toNat ≤ t.toNat := by
  induction rs generalizing a with
  | nil => exact ⟨.inl rfl, le_rfl, by simp [ttlsOf]⟩
  | cons r rs ih =>
    obtain ⟨hmem, hle, hall⟩ := ih (minTtl a r)
    rw [List.foldl_cons]
    by_cases hr : r.address.isSome = true
    · have hcons : ttlsOf (r :: rs) = r.ttl :: ttlsOf rs := by
        simp [ttlsOf, hr]
      have hmin : minTtl a r = a ∧ a.toNat ≤ r.ttl.toNat ∨
          minTtl a r = r.ttl ∧ r.ttl.toNat ≤ a.toNat := by
        rw [minTtl, if_pos hr]
        split
        · rename_i hlt
          exact .inr ⟨rfl, (UInt32.lt_iff_toNat_lt.mp hlt).le⟩
        · rename_i hge
          exact .inl ⟨rfl, not_lt.mp fun h => hge (UInt32.lt_iff_toNat_lt.mpr h)⟩
      rw [hcons]
      rcases hmin with ⟨heq, hle'⟩ | ⟨heq, hle'⟩
      all_goals rw [heq] at hmem hle hall ⊢
      · refine ⟨hmem.imp_right (List.mem_cons_of_mem _), hle, fun t ht => ?_⟩
        rcases List.mem_cons.mp ht with rfl | ht
        · exact hle.trans hle'
        · exact hall t ht
      · refine ⟨.inr (List.mem_cons.mpr hmem), hle.trans hle', fun t ht => ?_⟩
        rcases List.mem_cons.mp ht with rfl | ht
        · exact hle
        · exact hall t ht
    · have hskip : ttlsOf (r :: rs) = ttlsOf rs := by
        simp [ttlsOf, hr]
      have hmin : minTtl a r = a := if_neg hr
      rw [hmin] at hmem hle hall ⊢
      rw [hskip]
      exact ⟨hmem, hle, hall⟩

/-- With the largest word to begin with, the loop ends with the smallest time to live. -/
theorem isMinTtl_foldl {rs : List ResourceRecord} {ttl : UInt32}
    (h : ttl = if rs.filterMap ResourceRecord.address = [] then 0
      else rs.foldl minTtl 0xFFFFFFFF) :
    IsMinTtl (ttlsOf rs) ttl := by
  have hnil : ttlsOf rs = [] ↔ rs.filterMap ResourceRecord.address = [] := by
    rw [ttlsOf, List.map_eq_nil_iff, List.filter_eq_nil_iff, List.filterMap_eq_nil_iff]
    simp
  refine ⟨fun hempty => ?_, fun hne => ?_⟩
  · rw [h, if_pos (hnil.mp hempty)]
  · rw [if_neg fun hempty => hne (hnil.mpr hempty)] at h
    obtain ⟨hmem, -, hall⟩ := foldl_minTtl 0xFFFFFFFF rs
    rw [← h] at hmem hall
    refine ⟨?_, hall⟩
    rcases hmem with hmax | hmem
    · -- nothing is larger than the largest word, so any of them is as small
      obtain ⟨t, ht⟩ := List.exists_mem_of_ne_nil _ hne
      have hle := hall t ht
      have hlt := t.toNat_lt
      have hval : ttl.toNat = 2 ^ 32 - 1 := by rw [hmax]; rfl
      have heq : ttl = t := UInt32.toNat_inj.mp (by omega)
      rwa [heq]
    · exact hmem

/-! ### The whole response -/

namespace Response

variable {m : Response}

theorem length_header (m : Response) : m.header.length = 12 := rfl

/-- **Decoding undoes encoding**: whatever pointers the sender has written its names with, and
whatever other records and bytes there are, the addresses come out in their order, with the
smallest of their times to live. -/
theorem decode_encode (m : Response) (h : m.WellFormed) (buf : Buf)
    (hbuf : buf.elems = m.encode) :
    ∃ ttl, decodeResponse buf = .ok ⟨m.addresses, ttl⟩ ∧ IsMinTtl (ttlsOf m.answers) ttl := by
  have hat : At buf.elems 0 m.encode := by
    rw [hbuf]
    exact List.prefix_rfl
  rw [encode, Bytes.at_append, Bytes.at_append, Bytes.at_append, question, Bytes.at_append,
    length_header, Nat.zero_add] at hat
  obtain ⟨hheader, ⟨hqname, hqtail⟩, hanswers, -⟩ := hat
  obtain ⟨hlarge, hqvalid, howners⟩ := h
  rw [← hbuf] at hlarge hqvalid howners
  obtain ⟨c, hc⟩ : ∃ c, c = 12 + m.qname.encode.length := ⟨_, rfl⟩
  have hqlen : (ofU16 m.qtype ++ ofU16 m.qclass).length = 4 := rfl
  rw [← hc] at hqtail
  rw [List.length_append, hqlen, ← Nat.add_assoc, ← hc] at hanswers
  have hqend : c + 4 ≤ buf.len := hqtail.add_length_le (List.cons_ne_nil _ _)
  have hcount : (UInt16.ofNat m.answers.length).toNat = m.answers.length :=
    UInt16.toNat_ofNat_of_lt m.answers_length
  simp only [header, Bytes.at_append, Bytes.length_ofU16, List.length_append,
    Nat.reduceAdd] at hheader
  obtain ⟨⟨⟨⟨⟨-, hflags⟩, hqdcount⟩, hancount⟩, -⟩, -⟩ := hheader
  obtain ⟨cursor, hrecords⟩ := decodeRecords_encode (s := ⟨c + 4, [], 0xFFFFFFFF⟩) hanswers howners
  have hsmall : ¬ maxDnsMessageBytes < buf.len := not_lt.mpr hlarge
  have hlong : ¬ buf.len < 12 := by omega
  refine ⟨_, ?_, isMinTtl_foldl rfl⟩
  rw [decodeResponse, if_neg hsmall, if_neg hlong,
    be16_eq hflags, ok_bind, be16_eq hqdcount, ok_bind, be16_eq hancount, ok_bind,
    if_neg (not_not.mpr rfl), m.rcode, if_neg (by decide), if_neg (by decide),
    if_neg (by decide), if_neg (not_not.mpr rfl), skipName_encode hqname hqvalid, ok_bind,
    ← hc, readAdvance_eq hqend, ok_bind, hcount, hrecords]
  rfl

/-- A label of one letter. -/
def exampleLabel (letter : UInt8) : Label :=
  ⟨[letter], List.cons_ne_nil _ _, by rw [List.length_singleton, maxLabelLen]; omega⟩

/-- A response about `a.b`: its alias `w.a.b`, an IPv4 address and an IPv6 address of the
alias. The owners are written with pointers, one of them to the alias in its record. -/
def exampleResponse : Response where
  id := 0
  flags := 0x8180
  rcode := by decide
  qname := ⟨[exampleLabel 97, exampleLabel 98], none⟩
  qtype := 1
  qclass := 1
  answers :=
    [⟨⟨[], some 12⟩, 5, 1, 30, [1, 119, 0xC0, 12], by decide, by decide, by decide⟩,
      ⟨⟨[exampleLabel 119], some 12⟩, 1, 1, 300, [192, 0, 2, 1], by decide, by decide,
        by decide⟩,
      ⟨⟨[], some 33⟩, 28, 1, 60, [0x20, 1, 0xD, 0xB8, 0, 0, 0, 0, 0, 0, 0, 0, 0, 0, 0, 1],
        by decide, by decide, by decide⟩]
  answers_length := by decide
  nscount := 0
  arcount := 1
  trailing := [0, 0, 41]

theorem wellFormed_exampleResponse : exampleResponse.WellFormed := by
  have hname : NameAt exampleResponse.encode 12 17 0 [[97], [98]] :=
    .label (by decide) (by decide) (by decide)
      (.label (by decide) (by decide) (by decide) (.root (by decide)))
  have halias : NameAt exampleResponse.encode 33 37 1 [[119], [97], [98]] :=
    .label (by decide) (by decide) (by decide) (.pointer (by decide) (by decide) hname)
  refine ⟨by decide, by show nameLen [[97], [98]] ≤ 255; decide, ?_⟩
  intro r hr
  rcases hr with _ | ⟨_, hr⟩
  · exact ⟨17, 0, _, hname, by decide, by decide⟩
  rcases hr with _ | ⟨_, hr⟩
  · exact ⟨17, 0, _, hname, by decide, by decide⟩
  rcases hr with _ | ⟨_, hr⟩
  · exact ⟨37, 1, _, halias, by decide, by decide⟩
  · cases hr

/-- The two addresses come out, with the smaller time to live. -/
theorem decode_encode_example :
    decodeResponse ⟨exampleResponse.encode, by decide⟩ =
      .ok ⟨[.a #v[192, 0, 2, 1],
        .aaaa #v[0x20, 1, 0xD, 0xB8, 0, 0, 0, 0, 0, 0, 0, 0, 0, 0, 0, 1]], 60⟩ := by
  obtain ⟨ttl, hdecode, -, hmin⟩ := decode_encode exampleResponse wellFormed_exampleResponse
    ⟨exampleResponse.encode, by decide⟩ rfl
  obtain ⟨hmem, hle⟩ := hmin (by decide)
  have httls : ttlsOf exampleResponse.answers = [300, 60] := rfl
  rw [httls] at hmem hle
  have hsmall := hle 60 (by decide)
  have httl : ttl = 60 := by
    rcases List.mem_pair.mp hmem with rfl | rfl
    · exact absurd hsmall (by decide)
    · rfl
  rw [hdecode, httl]
  rfl

end Response

end Dns

end DevBrowse
