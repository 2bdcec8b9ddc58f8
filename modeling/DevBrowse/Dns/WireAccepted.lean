import DevBrowse.Dns.WireRoundtrip

/-!
# What is decoded was encoded

The decoder turns nothing else into an answer than what a sender can have meant: every message
that it accepts is the encoding of a well-formed response, with its names written out or
compressed as the message has them, and the answer is that of this response
(`DevBrowse.Dns.encode_of_decodeResponse`). So no bytes are read in two ways, none of those that
count is skipped, and no name is accepted that could not be read.
-/

namespace DevBrowse

namespace Dns

open Checked

open Bytes (At ofU16 ofU32)

variable {buf : Buf} {message : List UInt8} {pos next hops cursor n : ℕ}
  {labels : List (List UInt8)}

/-! ### Words that were read -/

theorem of_addUsize {a b c : ℕ} (h : addUsize a b = .ok c) : c = a + b := of_add_eq_ok h

theorem of_be16 {w : UInt16} (h : be16 buf cursor (cursor + 1) = .ok w) :
    At buf.elems cursor (ofU16 w) := by
  obtain ⟨b₀, h₀, h⟩ := exists_of_bind_eq_ok h
  obtain ⟨b₁, h₁, h⟩ := exists_of_bind_eq_ok h
  rw [← Except.ok.inj h, Bytes.ofU16_u16, Bytes.at_cons, Bytes.at_singleton]
  exact ⟨of_index_eq_ok h₀, of_index_eq_ok h₁⟩

theorem of_readU16 {w : UInt16} (h : readU16 buf cursor = .ok w) :
    At buf.elems cursor (ofU16 w) := by
  obtain ⟨last, -, h⟩ := exists_of_bind_eq_ok h
  split at h
  · cases h
  · obtain ⟨i, hi, h⟩ := exists_of_bind_eq_ok h
    rw [of_addUsize hi] at h
    exact of_be16 h

theorem of_readU32 {v : UInt32} (h : readU32 buf cursor = .ok v) :
    At buf.elems cursor (ofU32 v) := by
  obtain ⟨last, -, h⟩ := exists_of_bind_eq_ok h
  split at h
  · cases h
  · obtain ⟨b₀, h₀, h⟩ := exists_of_bind_eq_ok h
    obtain ⟨i₁, hi₁, h⟩ := exists_of_bind_eq_ok h
    obtain ⟨b₁, h₁, h⟩ := exists_of_bind_eq_ok h
    obtain ⟨i₂, hi₂, h⟩ := exists_of_bind_eq_ok h
    obtain ⟨b₂, h₂, h⟩ := exists_of_bind_eq_ok h
    obtain ⟨i₃, hi₃, h⟩ := exists_of_bind_eq_ok h
    obtain ⟨b₃, h₃, h⟩ := exists_of_bind_eq_ok h
    rw [of_addUsize hi₁] at h₁
    rw [of_addUsize hi₂] at h₂
    rw [of_addUsize hi₃] at h₃
    rw [← Except.ok.inj h, Bytes.ofU32_u32, Bytes.at_cons, Bytes.at_cons, Bytes.at_cons,
      Bytes.at_singleton]
    exact ⟨of_index_eq_ok h₀, of_index_eq_ok h₁, of_index_eq_ok h₂, of_index_eq_ok h₃⟩

theorem of_readAdvance (h : readAdvance buf cursor n = .ok next) :
    next = cursor + n ∧ next ≤ buf.len := by
  obtain ⟨last, hlast, h⟩ := exists_of_bind_eq_ok h
  split at h
  · cases h
  · rename_i hle
    obtain rfl := Except.ok.inj h
    exact ⟨of_addUsize hlast, not_lt.mp hle⟩

/-! ### Names that were skipped -/

/-- A name, as it is written, has these labels, with this many pointers. -/
def WireName.Spells (message : List UInt8) (name : WireName) (hops : ℕ)
    (labels : List (List UInt8)) : Prop :=
  match name.target with
  | none => hops = 0 ∧ labels = name.labels.map Label.bytes
  | some target => ∃ next hops' labels', NameAt message target next hops' labels' ∧
      hops = hops' + 1 ∧ labels = name.labels.map Label.bytes ++ labels'

/-- **A name on the wire is one that somebody wrote.** -/
theorem exists_wireName (h : NameAt message pos next hops labels) :
    ∃ name : WireName, At message pos name.encode ∧ next = pos + name.encode.length ∧
      name.Spells message hops labels := by
  induction h with
  | root hroot => exact ⟨⟨[], none⟩, Bytes.at_singleton.mpr hroot, rfl, rfl, rfl⟩
  | @label pos next hops label labels hne hshort hat _ ih =>
    obtain ⟨⟨ls, target⟩, hrest, hnext, hspells⟩ := ih
    have hencode : WireName.encode ⟨⟨label, hne, hshort⟩ :: ls, target⟩ =
        (.ofNat label.length :: label) ++ WireName.encode ⟨ls, target⟩ := by
      rw [WireName.encode, List.flatMap_cons, List.append_assoc]
      rfl
    refine ⟨⟨⟨label, hne, hshort⟩ :: ls, target⟩, ?_, ?_, ?_⟩
    · rw [hencode, Bytes.at_append, List.length_cons]
      refine ⟨hat, ?_⟩
      rwa [Nat.add_comm label.length 1, ← Nat.add_assoc]
    · rw [hencode, hnext, List.length_append, List.length_cons]
      omega
    · rw [WireName.Spells] at hspells ⊢
      cases target with
      | none => exact ⟨hspells.1, congrArg (label :: ·) hspells.2⟩
      | some target =>
        obtain ⟨next', hops', labels', hname, hhops, hlabels⟩ := hspells
        exact ⟨next', hops', labels', hname, hhops, congrArg (label :: ·) hlabels⟩
  | @pointer pos target next hops labels htarget hat hname _ =>
    exact ⟨⟨[], some ⟨target, htarget⟩⟩, hat, rfl, next, hops, labels, hname, rfl, rfl⟩

theorem WireName.Spells.valid {name : WireName} (h : name.Spells message hops labels)
    (hhops : hops ≤ maxPointerHops) (hlen : nameLen labels ≤ maxNameLen) :
    name.Valid message := by
  obtain ⟨ls, target⟩ := name
  rw [WireName.Spells] at h
  rw [WireName.Valid]
  cases target with
  | none =>
    rw [h.2] at hlen
    exact hlen
  | some target =>
    obtain ⟨next, hops', labels', hname, rfl, rfl⟩ := h
    rw [nameLen_append] at hlen
    exact ⟨next, hops', labels', hname, hhops, hlen⟩

/-- **What is skipped is a name that somebody wrote.** -/
theorem of_skipName (h : skipName buf pos = .ok next) :
    ∃ name : WireName, At buf.elems pos name.encode ∧ next = pos + name.encode.length ∧
      name.Valid buf.elems := by
  obtain ⟨hops, labels, hname, hhops, hlen⟩ := skipName_eq_ok_iff.mp h
  obtain ⟨name, hat, hnext, hspells⟩ := exists_wireName hname
  exact ⟨name, hat, hnext, hspells.valid hhops hlen⟩

/-! ### Records that were decoded -/

/-- An address that was decoded has its bytes. -/
theorem of_decodeRdata {rrtype : UInt16} {rdata : List UInt8} {record : Option DnsRecord}
    (h : decodeRdata rrtype rdata = .ok record) :
    (rrtype = 1 → rdata.length = 4) ∧ (rrtype = 28 → rdata.length = 16) := by
  rw [decodeRdata] at h
  split at h
  · rename_i hA
    split at h
    · rename_i hlen
      exact ⟨fun _ => hlen, fun hAaaa => absurd (hA.symm.trans hAaaa) (by decide)⟩
    · cases h
  · rename_i hA
    split at h
    · rename_i hAaaa
      split at h
      · rename_i hlen
        exact ⟨fun h => absurd h hA, fun _ => hlen⟩
      · cases h
    · rename_i hAaaa
      exact ⟨fun h => absurd h hA, fun h => absurd h hAaaa⟩

/-- **What is decoded is a record that somebody wrote.** -/
theorem exists_resourceRecord {s s' : DecodeState} (h : decodeRecord buf s = .ok s') :
    ∃ r : ResourceRecord, At buf.elems s.cursor r.encode ∧ r.owner.Valid buf.elems := by
  obtain ⟨c, hskip, h⟩ := exists_of_bind_eq_ok h
  obtain ⟨rrtype, htype, h⟩ := exists_of_bind_eq_ok h
  obtain ⟨c₂, hc₂, h⟩ := exists_of_bind_eq_ok h
  obtain ⟨rrclass, hclass, h⟩ := exists_of_bind_eq_ok h
  obtain ⟨c₄, hc₄, h⟩ := exists_of_bind_eq_ok h
  obtain ⟨ttl, httl, h⟩ := exists_of_bind_eq_ok h
  obtain ⟨c₈, hc₈, h⟩ := exists_of_bind_eq_ok h
  obtain ⟨rdlength, hrdlength, h⟩ := exists_of_bind_eq_ok h
  obtain ⟨c₁₀, hc₁₀, h⟩ := exists_of_bind_eq_ok h
  obtain ⟨next, hnext, h⟩ := exists_of_bind_eq_ok h
  split at h
  · cases h
  rename_i hwithin
  obtain ⟨rdata, hslice, h⟩ := exists_of_bind_eq_ok h
  obtain ⟨record, hdecode, -⟩ := exists_of_bind_eq_ok h
  obtain rfl := of_addUsize hc₂
  obtain rfl := of_addUsize hc₄
  obtain rfl := of_addUsize hc₈
  obtain rfl := of_addUsize hc₁₀
  obtain rfl := of_addUsize hnext
  obtain ⟨-, hle, hrdata⟩ := of_slice_eq_ok hslice
  rw [Nat.add_sub_cancel_left] at hrdata
  have hlen : rdata.length = rdlength.toNat := by
    rw [hrdata, List.length_take, List.length_drop]
    omega
  obtain ⟨ha, haaaa⟩ := of_decodeRdata hdecode
  obtain ⟨owner, howner, rfl, hvalid⟩ := of_skipName hskip
  have hshort : rdata.length < 2 ^ 16 := by
    rw [hlen]
    exact rdlength.toNat_lt
  refine ⟨⟨owner, rrtype, rrclass, ttl, rdata, hshort, ha, haaaa⟩, ?_, hvalid⟩
  simp only [ResourceRecord.encode, ResourceRecord.body, Bytes.at_append, Bytes.length_ofU16,
    Bytes.length_ofU32, List.length_append, Nat.reduceAdd]
  refine ⟨howner, ⟨⟨⟨of_readU16 htype, of_readU16 hclass⟩, of_readU32 httl⟩, ?_⟩, ?_⟩
  · rw [hlen, UInt16.ofNat_toNat]
    exact of_readU16 hrdlength
  · rw [hrdata]
    exact List.take_prefix _ _

/-- The loop goes through records that somebody wrote. -/
theorem exists_resourceRecords {s s' : DecodeState} (h : decodeRecords buf n s = .ok s') :
    ∃ rs : List ResourceRecord, rs.length = n ∧
      At buf.elems s.cursor (rs.flatMap ResourceRecord.encode) ∧
      ∀ r ∈ rs, r.owner.Valid buf.elems := by
  induction n generalizing s with
  | zero => exact ⟨[], rfl, List.nil_prefix, nofun⟩
  | succ n ih =>
    obtain ⟨s₁, hfirst, hrest⟩ := exists_of_bind_eq_ok h
    obtain ⟨r, hat, hvalid⟩ := exists_resourceRecord hfirst
    -- where the next record begins
    obtain rfl := Except.ok.inj ((decodeRecord_encode hat hvalid).symm.trans hfirst)
    obtain ⟨rs, hlen, hats, hvalids⟩ := ih hrest
    refine ⟨r :: rs, congrArg (· + 1) hlen, ?_, List.forall_mem_cons.mpr ⟨hvalid, hvalids⟩⟩
    rw [List.flatMap_cons, Bytes.at_append]
    exact ⟨hat, hats⟩

/-! ### Responses that were decoded -/

variable {answer : DecodedAnswer}

/-- **A message of these parts is the encoding of a response**, whatever its other words are. -/
theorem exists_encode {flags : UInt16} {qname : WireName} {rs : List ResourceRecord}
    (hrcode : flags &&& 0x000F = 0) (hfew : rs.length < 2 ^ 16) (hlong : 12 ≤ message.length)
    (hflags : At message 2 (ofU16 flags)) (hone : At message 4 (ofU16 1))
    (hcount : At message 6 (ofU16 (.ofNat rs.length))) (hqname : At message 12 qname.encode)
    (hqend : 12 + qname.encode.length + 4 ≤ message.length)
    (hrs : At message (12 + qname.encode.length + 4) (rs.flatMap ResourceRecord.encode)) :
    ∃ m : Response, m.encode = message ∧ m.qname = qname ∧ m.answers = rs := by
  -- the words that nobody looks at
  obtain ⟨id, hid⟩ := Bytes.exists_at_ofU16 (by omega : 0 + 2 ≤ message.length)
  obtain ⟨nscount, hnscount⟩ := Bytes.exists_at_ofU16 (by omega : 8 + 2 ≤ message.length)
  obtain ⟨arcount, harcount⟩ := Bytes.exists_at_ofU16 (by omega : 10 + 2 ≤ message.length)
  obtain ⟨qtype, hqtype⟩ :=
    Bytes.exists_at_ofU16 (by omega : 12 + qname.encode.length + 2 ≤ message.length)
  obtain ⟨qclass, hqclass⟩ :=
    Bytes.exists_at_ofU16 (by omega : 12 + qname.encode.length + 2 + 2 ≤ message.length)
  obtain ⟨m, hm⟩ : ∃ m : List UInt8 → Response, m = fun trailing =>
      ⟨id, flags, hrcode, qname, qtype, qclass, rs, hfew, nscount, arcount, trailing⟩ := ⟨_, rfl⟩
  have hat : At message 0 ((m []).header ++ ((m []).question ++
      rs.flatMap ResourceRecord.encode)) := by
    rw [hm]
    simp only [Response.header, Response.question, Bytes.at_append, Bytes.length_ofU16,
      List.length_append, Nat.reduceAdd]
    refine ⟨⟨⟨⟨⟨⟨hid, hflags⟩, hone⟩, hcount⟩, hnscount⟩, harcount⟩, ⟨hqname, hqtype, hqclass⟩,
      ?_⟩
    rwa [← Nat.add_assoc]
  obtain ⟨trailing, hsplit⟩ := hat
  rw [List.drop_zero, List.append_assoc, List.append_assoc] at hsplit
  rw [hm] at hsplit
  exact ⟨m trailing, by rw [← hsplit, hm]; rfl, by rw [hm], by rw [hm]⟩

/-- **What is decoded is a response that somebody wrote**: every message that is accepted is the
encoding of a well-formed response, and the answer is what it says. -/
theorem encode_of_decodeResponse (h : decodeResponse buf = .ok answer) :
    ∃ m : Response, m.WellFormed ∧ m.encode = buf.elems ∧ answer.records = m.addresses ∧
      IsMinTtl (ttlsOf m.answers) answer.minTtl := by
  rw [decodeResponse] at h
  split at h
  · cases h
  rename_i hsmall
  split at h
  · cases h
  rename_i hlong
  obtain ⟨flags, hflags, h⟩ := exists_of_bind_eq_ok h
  obtain ⟨qdcount, hqdcount, h⟩ := exists_of_bind_eq_ok h
  obtain ⟨ancount, hancount, h⟩ := exists_of_bind_eq_ok h
  split at h
  · cases h
  rename_i hone
  -- the codes that say that there is an error
  split at h
  · cases h
  split at h
  · cases h
  split at h
  · cases h
  split at h
  · cases h
  rename_i hrcode
  obtain ⟨c, hskip, h⟩ := exists_of_bind_eq_ok h
  obtain ⟨c₄, hadvance, h⟩ := exists_of_bind_eq_ok h
  obtain ⟨s, hrecords, h⟩ := exists_of_bind_eq_ok h
  obtain rfl := Except.ok.inj h
  obtain ⟨qname, hqname, rfl, hqvalid⟩ := of_skipName hskip
  obtain ⟨rfl, hle⟩ := of_readAdvance hadvance
  obtain ⟨rs, hlen, hrs, hvalid⟩ := exists_resourceRecords hrecords
  have hcount : UInt16.ofNat rs.length = ancount := by rw [hlen, UInt16.ofNat_toNat]
  have hfew : rs.length < 2 ^ 16 := by
    rw [hlen]
    exact ancount.toNat_lt
  rw [← hcount] at hancount
  rw [not_not.mp hone] at hqdcount
  obtain ⟨m, hencode, rfl, rfl⟩ := exists_encode (not_not.mp hrcode) hfew (not_lt.mp hlong)
    (of_be16 hflags) (of_be16 hqdcount) (of_be16 hancount) hqname hle hrs
  -- the loop gives the addresses of these records, with the smallest of their times to live
  obtain ⟨cursor, hdecoded⟩ := decodeRecords_encode hrs hvalid
  rw [hlen] at hdecoded
  obtain rfl := Except.ok.inj (hrecords.symm.trans hdecoded)
  refine ⟨m, ⟨?_, ?_, ?_⟩, hencode, rfl, isMinTtl_foldl rfl⟩
  · rw [hencode]
    exact not_lt.mp hsmall
  · rw [hencode]
    exact hqvalid
  · rw [hencode]
    exact hvalid

/-- A message about `a`, whose one record has a pointer to the name of the question. -/
def exampleMessage : List UInt8 :=
  [0, 0, 0x81, 0x80, 0, 1, 0, 1, 0, 0, 0, 0, 1, 97, 0, 0, 1, 0, 1, 0xC0, 12, 0, 1, 0, 1, 0, 0, 0,
    60, 0, 4, 8, 8, 8, 8]

/-- It is the encoding of a response with one address. -/
theorem encode_of_decodeResponse_example : ∃ m : Response, m.WellFormed ∧
    m.encode = exampleMessage ∧ [.a (.replicate 4 8)] = m.addresses ∧
      IsMinTtl (ttlsOf m.answers) 60 := by
  have hdecode : decodeResponse ⟨exampleMessage, by decide⟩ =
      .ok ⟨[.a (.replicate 4 8)], 60⟩ := by
    decide +kernel
  exact encode_of_decodeResponse hdecode

end Dns

end DevBrowse
