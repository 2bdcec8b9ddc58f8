import DevBrowse.Dns.Wire

/-!
# The decoder is safe

Whatever the bytes are, the decoder ends with an answer or with an error it returns. For the
loop that skips a name this takes a measure, since a pointer may lead anywhere: every turn
either follows one more of the pointers it may follow or adds to a length that is bounded
(`safe_skipTurn`).

`NameAt` is what a name is on the wire, and the loop accepts names and nothing else:
`safe_skipName` says so, and that it then goes on behind the name it was given, wherever the
pointers led in between.
-/

namespace DevBrowse

namespace Dns

open Checked

open Bytes (At)

/-! ### Names on the wire -/

/-- The two bytes of a pointer. -/
def pointerBytes (target : ℕ) : List UInt8 := [.ofNat (192 + target / 256), .ofNat target]

/-- How long a name is: every label and the byte before it. -/
def nameLen : List (List UInt8) → ℕ
  | [] => 0
  | label :: labels => 1 + label.length + nameLen labels

/-- **A name on the wire**: where it begins, where what follows it begins, how many pointers
it takes to read it, and its labels. -/
inductive NameAt (bytes : List UInt8) : ℕ → ℕ → ℕ → List (List UInt8) → Prop
  /-- The root label. -/
  | root {pos : ℕ} : bytes[pos]? = some 0 → NameAt bytes pos (pos + 1) 0 []
  /-- A label, and the rest of the name behind it. -/
  | label {pos next hops : ℕ} {label : List UInt8} {labels : List (List UInt8)} :
      label ≠ [] → label.length ≤ maxLabelLen →
      At bytes pos (.ofNat label.length :: label) →
      NameAt bytes (pos + 1 + label.length) next hops labels →
      NameAt bytes pos next hops (label :: labels)
  /-- A pointer to the rest of the name. -/
  | pointer {pos target next hops : ℕ} {labels : List (List UInt8)} :
      target < 2 ^ 14 → At bytes pos (pointerBytes target) →
      NameAt bytes target next hops labels → NameAt bytes pos (pos + 2) (hops + 1) labels

variable {bytes : List UInt8} {pos next hops : ℕ} {labels : List (List UInt8)}

/-- What follows a name is behind it, within the message or at its end. -/
theorem NameAt.lt_next (h : NameAt bytes pos next hops labels) :
    pos < next ∧ next ≤ bytes.length := by
  induction h with
  | root hroot =>
    have hlt := (List.getElem?_eq_some_iff.mp hroot).1
    omega
  | label _ _ _ _ ih =>
    omega
  | @pointer pos target _ _ _ _ hat _ _ =>
    have hle : pos + 2 ≤ bytes.length := hat.add_length_le (List.cons_ne_nil _ _)
    omega

/-! ### Bits of a byte -/

theorem ofFin_and (n : Fin 256) :
    (UInt8.ofFin n &&& 0xC0 = 0xC0 ↔ 192 ≤ n.val) ∧
      (UInt8.ofFin n &&& 0xC0 = 0 ↔ n.val < 64) ∧ (UInt8.ofFin n &&& 0x3F).toNat = n.val % 64 := by
  revert n
  decide +kernel

theorem and_eq_pointer_iff (b : UInt8) : b &&& 0xC0 = 0xC0 ↔ 192 ≤ b.toNat :=
  (ofFin_and b.toFin).1

theorem and_eq_zero_iff (b : UInt8) : b &&& 0xC0 = 0 ↔ b.toNat < 64 := (ofFin_and b.toFin).2.1

/-- The offset of a pointer, from its two bytes. -/
theorem offset_eq (b low : UInt8) :
    (b &&& 0x3F).toNat <<< 8 ||| low.toNat = b.toNat % 64 * 256 + low.toNat := by
  have hlow : low.toNat < 2 ^ 8 := low.toNat_lt
  have hb : (b &&& 0x3F).toNat = b.toNat % 64 := (ofFin_and b.toFin).2.2
  rw [← Nat.shiftLeft_add_eq_or_of_lt hlow, hb, Nat.shiftLeft_eq]

/-- Two bytes of which the first is marked are a pointer. -/
theorem pointerBytes_offset (b low : UInt8) (hb : 192 ≤ b.toNat) :
    pointerBytes (b.toNat % 64 * 256 + low.toNat) = [b, low] := by
  have hlow := low.toNat_lt
  have hlt := b.toNat_lt
  have hfirst : 192 + (b.toNat % 64 * 256 + low.toNat) / 256 = b.toNat := by omega
  have hsecond : UInt8.ofNat (b.toNat % 64 * 256 + low.toNat) = low := by
    rw [← UInt8.toNat_inj, Bytes.toNat_ofNat]
    omega
  rw [pointerBytes, hfirst, hsecond, UInt8.ofNat_toNat]

/-- A length and as many bytes are a label. -/
theorem exists_label {bytes : List UInt8} {pos : ℕ} {b : UInt8} (hb : bytes[pos]? = some b)
    (hlen : pos + 1 + b.toNat ≤ bytes.length) :
    ∃ label : List UInt8, label.length = b.toNat ∧ At bytes pos (.ofNat label.length :: label) := by
  refine ⟨(bytes.drop (pos + 1)).take b.toNat, ?_, ?_⟩
  · rw [List.length_take, List.length_drop]
    omega
  · have hlabel : ((bytes.drop (pos + 1)).take b.toNat).length = b.toNat := by
      rw [List.length_take, List.length_drop]
      omega
    rw [hlabel, UInt8.ofNat_toNat, Bytes.at_cons]
    exact ⟨hb, List.take_prefix _ _⟩

/-! ### One turn of the loop -/

variable {buf : Buf} {s : SkipState}

/-- What the loop that skips a name ends with, from any of its states. -/
def Skips (buf : Buf) (s : SkipState) (r : ℕ) : Prop :=
  ∃ next hops labels, NameAt buf.elems s.cursor next hops labels ∧
    r = s.afterPointer.getD next ∧ s.hops + hops ≤ maxPointerHops ∧
    s.totalLen + nameLen labels ≤ maxNameLen

/-- What the counters of the loop are bounded by. -/
structure SkipState.Bounded (s : SkipState) : Prop where
  /-- The pointers. -/
  hops_le : s.hops ≤ maxPointerHops
  /-- The labels. -/
  totalLen_le : s.totalLen ≤ maxNameLen

/-- How many more turns the counters leave. -/
def SkipState.measure (s : SkipState) : ℕ :=
  maxPointerHops - s.hops + (maxNameLen - s.totalLen)

theorem safe_addUsize {a b : ℕ} (h : a + b < 2 ^ 64) : Safe (· = a + b) (addUsize a b) :=
  safe_add h

/-- **One turn**: it leaves the loop behind the name, or reads one part of the name and
counts it. -/
theorem safe_skipTurn (buf : Buf) (hs : s.Bounded) :
    Safe (Loop.Progress SkipState.Bounded SkipState.measure (Skips buf) s) (skipTurn buf s) := by
  have hlen := buf.length_lt
  have hmaxHops : maxPointerHops = 16 := rfl
  have hmaxLen : maxNameLen = 255 := rfl
  obtain ⟨hhops, htotal⟩ := hs
  refine Safe.ite (fun _ => .fail _) fun hcursor => ?_
  rw [Buf.len, not_le] at hcursor
  refine (safe_index hcursor).bind fun b hb => ?_
  refine Safe.ite (fun hroot => ?_) fun hne => Safe.ite (fun hpointer => ?_) fun hnot =>
    Safe.ite (fun _ => .fail _) fun hlabel => Safe.ite (fun _ => .fail _) fun hshort => ?_
  · -- the root label
    refine (safe_addUsize (by omega)).bind fun cursor hc => .ok ?_
    subst hroot hc
    exact ⟨s.cursor + 1, 0, [], .root hb, rfl, hhops, htotal⟩
  · -- a pointer
    refine (safe_addUsize (by omega)).bind fun next hnext => ?_
    refine Safe.ite (fun _ => .fail _) fun hle => ?_
    rw [Buf.len, not_lt] at hle
    refine (safe_addUsize (by omega)).bind fun i hi => ?_
    refine (safe_index (by omega)).bind fun low hlow => ?_
    refine (safe_add (by omega)).bind fun hops hh => Safe.ite (fun _ => .fail _) fun hmore => .ok ?_
    subst hi hh hnext
    rw [not_lt] at hmore
    have hb192 : 192 ≤ b.toNat := (and_eq_pointer_iff b).mp hpointer
    have hlow256 := low.toNat_lt
    refine ⟨⟨hmore, htotal⟩, by simp only [SkipState.measure]; omega, ?_⟩
    rintro r ⟨next, hops, labels, hname, rfl, hhops', htotal'⟩
    simp only at hname hhops' htotal'
    rw [offset_eq] at hname
    have hat : At buf.elems s.cursor (pointerBytes (b.toNat % 64 * 256 + low.toNat)) := by
      rw [pointerBytes_offset b low hb192, Bytes.at_cons, Bytes.at_singleton]
      exact ⟨hb, hlow⟩
    exact ⟨s.cursor + 2, hops + 1, labels, .pointer (by omega) hat hname, rfl, by omega, htotal'⟩
  · -- a label
    refine (safe_addUsize (by omega)).bind fun cursor hc => ?_
    have hb256 := b.toNat_lt
    refine (safe_addUsize (by omega)).bind fun next hnext => ?_
    refine Safe.ite (fun _ => .fail _) fun hle => ?_
    rw [Buf.len, not_lt] at hle
    refine (safe_addUsize (by omega)).bind fun n hn => ?_
    refine (safe_addUsize (by omega)).bind fun total ht => ?_
    refine Safe.ite (fun _ => .fail _) fun hmore => .ok ?_
    subst hn ht hnext hc
    rw [not_lt] at hmore hshort
    obtain ⟨label, hlabelLen, hat⟩ := exists_label hb hle
    have hbne : b.toNat ≠ 0 := fun h => hne (UInt8.toNat_inj.mp h)
    refine ⟨⟨hhops, hmore⟩, by simp only [SkipState.measure]; omega, ?_⟩
    rintro r ⟨next, hops, labels, hname, rfl, hhops', htotal'⟩
    simp only at hname hhops' htotal'
    rw [← hlabelLen] at hname
    have hlabelNe : label ≠ [] := by
      rintro rfl
      exact hbne hlabelLen.symm
    refine ⟨next, hops, label :: labels, .label hlabelNe (by omega) hat hname, rfl, hhops', ?_⟩
    rw [nameLen, hlabelLen]
    omega

/-! ### The whole decoder -/

/-- **Skipping a name**: where it succeeds there is a name, with as many pointers and as long
as names may be, and what comes out is where it ends. -/
theorem safe_skipName (buf : Buf) (start : ℕ) :
    Safe (fun next => ∃ hops labels, NameAt buf.elems start next hops labels ∧
      hops ≤ maxPointerHops ∧ nameLen labels ≤ maxNameLen) (skipName buf start) := by
  have hinit : SkipState.Bounded ⟨start, 0, none, 0⟩ := ⟨Nat.zero_le _, Nat.zero_le _⟩
  -- sixteen pointers and 255 bytes of labels, one turn each at least
  have hturns : SkipState.measure ⟨start, 0, none, 0⟩ < skipTurns := by
    show 16 - 0 + (255 - 0) < 16 + 255 + 2
    omega
  have hrun : Safe (Skips buf ⟨start, 0, none, 0⟩) (skipName buf start) :=
    Loop.run_safe (fun _ hs => safe_skipTurn buf hs) hinit hturns
  refine hrun.mono ?_
  rintro r ⟨next, hops, labels, hname, rfl, hhops, htotal⟩
  simp only [Nat.zero_add] at hhops htotal
  exact ⟨hops, labels, hname, hhops, htotal⟩

theorem safe_skipName_lt (buf : Buf) (start : ℕ) :
    Safe (fun next => start < next ∧ next ≤ buf.len) (skipName buf start) :=
  (safe_skipName buf start).mono fun _ ⟨_, _, hname, _, _⟩ => hname.lt_next

theorem safe_readAdvance {cursor n : ℕ} (h : cursor + n < 2 ^ 64) :
    Safe (fun next => next = cursor + n ∧ next ≤ buf.len) (readAdvance buf cursor n) := by
  refine (safe_addUsize h).bind fun next hnext => Safe.ite (fun _ => .fail _) fun hle => .ok ?_
  exact ⟨hnext, not_lt.mp hle⟩

theorem safe_be16 {i j : ℕ} (hi : i < buf.len) (hj : j < buf.len) :
    Safe (fun _ => True) (be16 buf i j) :=
  (safe_index hi).bind fun _ _ => (safe_index hj).bind fun _ _ => .ok trivial

theorem safe_readU16 {cursor : ℕ} (h : cursor + 2 < 2 ^ 64) :
    Safe (fun _ => cursor + 2 ≤ buf.len) (readU16 buf cursor) := by
  refine (safe_addUsize h).bind fun next hnext => Safe.ite (fun _ => .fail _) fun hle => ?_
  subst hnext
  rw [not_lt] at hle
  refine (safe_addUsize (by omega)).bind fun i hi => ?_
  subst hi
  exact (safe_be16 (by omega) (by omega)).mono fun _ _ => hle

/-- Reading a byte some way further on. -/
theorem safe_index_add {β : Type} {P : β → Prop} {f : UInt8 → Checked WireError β}
    {cursor k : ℕ} (hk : cursor + k < buf.len) (hf : ∀ b, Safe P (f b)) :
    Safe P (addUsize cursor k >>= fun i => index buf i >>= f) := by
  have hlen := buf.length_lt
  rw [Buf.len] at hk
  refine (safe_addUsize (by omega)).bind fun i hi => ?_
  subst hi
  exact (safe_index hk).bind fun b _ => hf b

theorem safe_readU32 {cursor : ℕ} (h : cursor + 4 < 2 ^ 64) :
    Safe (fun _ => cursor + 4 ≤ buf.len) (readU32 buf cursor) := by
  refine (safe_addUsize h).bind fun next hnext => Safe.ite (fun _ => .fail _) fun hle => ?_
  subst hnext
  rw [not_lt] at hle
  have hlt : cursor < buf.len := by omega
  refine (safe_index hlt).bind fun b₀ _ => safe_index_add (by omega) fun b₁ => ?_
  refine safe_index_add (by omega) fun b₂ => safe_index_add (by omega) fun b₃ => ?_
  exact .ok hle

theorem safe_decodeRdata (rrtype : UInt16) (rdata : List UInt8) :
    Safe (fun _ => True) (decodeRdata rrtype rdata) := by
  rw [decodeRdata]
  split
  · split
    · exact .ok trivial
    · exact .fail _
  · split
    · split
      · exact .ok trivial
      · exact .fail _
    · exact .ok trivial

theorem safe_decodeRecord (buf : Buf) (s : DecodeState) :
    Safe (fun _ => True) (decodeRecord buf s) := by
  have hlen : buf.len < 2 ^ 63 := buf.length_lt
  refine (safe_skipName_lt buf s.cursor).bind fun cursor hcursor => ?_
  refine (safe_readU16 (by omega)).bind fun rrtype hrrtype => ?_
  refine (safe_addUsize (by omega)).bind fun i hi => (safe_readU16 (by omega)).bind fun _ _ => ?_
  refine (safe_addUsize (by omega)).bind fun j hj => (safe_readU32 (by omega)).bind fun ttl _ => ?_
  refine (safe_addUsize (by omega)).bind fun k hk => ?_
  refine (safe_readU16 (by omega)).bind fun rdlength hrdlength => ?_
  have hword := rdlength.toNat_lt
  refine (safe_addUsize (by omega)).bind fun c hc => ?_
  refine (safe_addUsize (by omega)).bind fun next hn => ?_
  refine Safe.ite (fun _ => .fail _) fun hle => ?_
  rw [not_lt] at hle
  refine (safe_slice (by omega) hle).bind fun rdata _ => ?_
  refine (safe_decodeRdata rrtype rdata).bind fun record _ => ?_
  cases record with
  | some record => exact .ok trivial
  | none => exact .ok trivial

theorem safe_decodeRecords (buf : Buf) (n : ℕ) (s : DecodeState) :
    Safe (fun _ => True) (decodeRecords buf n s) := by
  induction n generalizing s with
  | zero => exact .ok trivial
  | succ n ih => exact (safe_decodeRecord buf s).bind fun s' _ => ih s'

theorem safe_decodeResponse (buf : Buf) : Safe (fun _ => True) (decodeResponse buf) := by
  have hlen : buf.len < 2 ^ 63 := buf.length_lt
  refine Safe.ite (fun _ => .fail _) fun _ => Safe.ite (fun _ => .fail _) fun hheader => ?_
  refine (safe_be16 (by omega) (by omega)).bind fun flags _ => ?_
  refine (safe_be16 (by omega) (by omega)).bind fun qdcount _ => ?_
  refine (safe_be16 (by omega) (by omega)).bind fun ancount _ => ?_
  refine Safe.ite (fun _ => .fail _) fun _ => Safe.ite (fun _ => .fail _) fun _ => ?_
  refine Safe.ite (fun _ => .fail _) fun _ => Safe.ite (fun _ => .fail _) fun _ => ?_
  refine Safe.ite (fun _ => .fail _) fun _ => ?_
  refine (safe_skipName_lt buf 12).bind fun cursor hcursor => ?_
  refine (safe_readAdvance (by omega)).bind fun cursor' _ => ?_
  exact (safe_decodeRecords buf ancount.toNat _).bind fun s _ => .ok trivial

/-- **The decoder is safe and comes to an end**: on every message it answers or returns an
error, and skipping a name, from anywhere in any message, returns an error or goes on behind
where it began, within the message. -/
theorem decode_response_safe :
    (∀ buf : Buf, (∃ answer, decodeResponse buf = .ok answer) ∨
      ∃ e, decodeResponse buf = .error (.returned e)) ∧
    ∀ (buf : Buf) (start : ℕ), (∃ e, skipName buf start = .error (.returned e)) ∨
      ∃ next, skipName buf start = .ok next ∧ start < next ∧ next ≤ buf.len := by
  refine ⟨fun buf => ?_, fun buf start => safe_skipName_lt buf start⟩
  rcases safe_decodeResponse buf with he | ⟨answer, hok, -⟩
  · exact .inr he
  · exact .inl ⟨answer, hok⟩

end Dns

end DevBrowse
