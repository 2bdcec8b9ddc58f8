import DevBrowse.Lib.Bytes
import DevBrowse.Lib.Checked

/-!
# Reading a ClientHello

What a TLS client advertises is read off the first bytes it sends: a record around a handshake
message around lists behind their lengths, and lists in them. The parser checks itself: its
indices and slices are those of `DevBrowse.Lib.Checked`, so that one out of range would show as a
panic, and the loop over the extensions is one that might not come to an end.

Whatever the bytes are, neither happens (`DevBrowse.Testkit.Ja3.safe_fromClientHello`).
-/

namespace DevBrowse

namespace Testkit

open Checked

/-- Why there is nothing to read. -/
inductive ProbeError where
  /-- The name of the server is none. -/
  | serverName
  /-- There is no connection. -/
  | rustlsConstruct
  /-- Nothing is written to it. -/
  | rustlsWrite
  /-- The bytes are something else. -/
  | notClientHello
  /-- There are too few bytes. -/
  | truncated
  /-- A length is longer than what it is in. -/
  | malformedLength
  deriving DecidableEq

/-- What a client advertises, without the reserved values. -/
structure Ja3 where
  /-- The version. -/
  legacyVersion : UInt16
  /-- The ciphers. -/
  cipherSuites : List UInt16
  /-- The types of the extensions. -/
  extensions : List UInt16
  /-- The groups. -/
  supportedGroups : List UInt16
  /-- The point formats. -/
  ecPointFormats : List UInt8
  deriving DecidableEq

/-- Whether a value is reserved to keep peers tolerant. -/
def isGreaseU16 (v : UInt16) : Bool :=
  let high := v >>> 8 &&& 0xFF
  let low := v &&& 0xFF
  high = low && low &&& 0x0F = 0x0A

/-! ### The cursor -/

/-- The bytes that are left. -/
structure ParseCursor where
  /-- The bytes. -/
  buf : List UInt8

namespace ParseCursor

variable (p : ParseCursor)

/-- Whether none are left. -/
def isEmpty : Bool := p.buf.isEmpty

/-- The next byte. -/
def readU8 : Checked ProbeError (UInt8 × ParseCursor) :=
  match p.buf.head? with
  | none => fail .truncated
  | some v => do
    let rest ← range p.buf 1 p.buf.length
    pure (v, ⟨rest⟩)

/-- The next two bytes. -/
def readU16 : Checked ProbeError (UInt16 × ParseCursor) := do
  if p.buf.length < 2 then fail .truncated
  else
    let b₀ ← nth p.buf 0
    let b₁ ← nth p.buf 1
    let rest ← range p.buf 2 p.buf.length
    pure (Bytes.u16 b₀ b₁, ⟨rest⟩)

/-- Leave out bytes. -/
def skip (n : ℕ) : Checked ProbeError ParseCursor := do
  if p.buf.length < n then fail .truncated
  else
    let rest ← range p.buf n p.buf.length
    pure ⟨rest⟩

/-- The next bytes. -/
def take (n : ℕ) : Checked ProbeError (List UInt8 × ParseCursor) := do
  if p.buf.length < n then fail .malformedLength
  else
    let head ← range p.buf 0 n
    let tail ← range p.buf n p.buf.length
    pure (head, ⟨tail⟩)

end ParseCursor

/-! ### The parser -/

namespace Ja3

/-- A list with a value at its end, unless the value is reserved. -/
def push (values : List UInt16) (v : UInt16) : List UInt16 :=
  if isGreaseU16 v then values else values ++ [v]

/-- Read the ciphers. -/
def readSuites : ℕ → ParseCursor → List UInt16 → Checked ProbeError (List UInt16 × ParseCursor)
  | 0, p, suites => pure (suites, p)
  | n + 1, p, suites => do
    let (suite, p) ← p.readU16
    readSuites n p (push suites suite)

/-- `chunks_exact(2)`: the bytes two by two, one that is left over apart. -/
def chunksExact : List UInt8 → List (List UInt8)
  | b₀ :: b₁ :: rest => [b₀, b₁] :: chunksExact rest
  | _ => []

/-- Read the groups. -/
def readGroups : List (List UInt8) → List UInt16 → Checked ProbeError (List UInt16)
  | [], groups => pure groups
  | chunk :: chunks, groups => do
    let b₀ ← nth chunk 0
    let b₁ ← nth chunk 1
    readGroups chunks (push groups (Bytes.u16 b₀ b₁))

/-- Where the loop over the extensions is. -/
structure ExtensionState where
  /-- What is left of them. -/
  extCursor : ParseCursor
  /-- The types so far. -/
  extensions : List UInt16
  /-- The groups so far. -/
  supportedGroups : List UInt16
  /-- The point formats so far. -/
  ecPointFormats : List UInt8

/-- **One turn of the loop**: another extension, if there is one. -/
def extensionTurn (s : ExtensionState) :
    Checked ProbeError (ExtensionState ⊕ ExtensionState) := do
  if s.extCursor.isEmpty then pure (.inr s)
  else
    let (extType, p) ← s.extCursor.readU16
    let (extLen, p) ← p.readU16
    let (extBody, p) ← p.take extLen.toNat
    let s := { s with extCursor := p, extensions := push s.extensions extType }
    if extType = 0x000A then
      let (listBytes, g) ← ParseCursor.readU16 ⟨extBody⟩
      if listBytes.toNat % 2 ≠ 0 then fail .malformedLength
      else
        let (list, _) ← g.take listBytes.toNat
        let supportedGroups ← readGroups (chunksExact list) s.supportedGroups
        pure (.inl { s with supportedGroups })
    else if extType = 0x000B then
      let (listBytes, f) ← ParseCursor.readU8 ⟨extBody⟩
      let (list, _) ← f.take listBytes.toNat
      pure (.inl { s with ecPointFormats := s.ecPointFormats ++ list })
    else pure (.inl s)

/-- Read the extensions, if there are any. -/
def readExtensions (p : ParseCursor) : Checked ProbeError ExtensionState := do
  if p.isEmpty then pure ⟨p, [], [], []⟩
  else
    let (extTotal, p) ← p.readU16
    let (exts, _) ← p.take extTotal.toNat
    -- every turn takes bytes, so there are not more turns than bytes
    Loop.run extensionTurn (exts.length + 1) ⟨⟨exts⟩, [], [], []⟩

/-- Read the message. -/
def readHello (hello : List UInt8) : Checked ProbeError Ja3 := do
  let (legacyVersion, p) ← ParseCursor.readU16 ⟨hello⟩
  let p ← p.skip 32
  let (sessionIdLen, p) ← p.readU8
  let p ← p.skip sessionIdLen.toNat
  let (cipherSuitesBytes, p) ← p.readU16
  if cipherSuitesBytes.toNat % 2 ≠ 0 then fail .malformedLength
  else
    let (cipherSuites, p) ← readSuites (cipherSuitesBytes.toNat / 2) p []
    let (compMethodsLen, p) ← p.readU8
    let p ← p.skip compMethodsLen.toNat
    let s ← readExtensions p
    pure ⟨legacyVersion, cipherSuites, s.extensions, s.supportedGroups, s.ecPointFormats⟩

/-- The message in a handshake. -/
def helloOf (body : List UInt8) : Checked ProbeError (List UInt8) := do
  if body.length < 4 then fail .truncated
  else if (← nth body 0) ≠ 0x01 then fail .notClientHello
  else
    let b₁ ← nth body 1
    let b₂ ← nth body 2
    let b₃ ← nth body 3
    let hsLen := b₁.toNat <<< 16 ||| b₂.toNat <<< 8 ||| b₃.toNat
    if body.length < 4 + hsLen then fail .truncated else range body 4 (4 + hsLen)

/-- The handshake in a record. -/
def bodyOf (bytes : List UInt8) : Checked ProbeError (List UInt8) := do
  if bytes.length < 5 then fail .notClientHello
  else if (← nth bytes 0) ≠ 0x16 then fail .notClientHello
  else
    let b₃ ← nth bytes 3
    let b₄ ← nth bytes 4
    let recordLen := (Bytes.u16 b₃ b₄).toNat
    if bytes.length < 5 + recordLen then fail .truncated else range bytes 5 (5 + recordLen)

/-- **Read what a client sends.** -/
def fromClientHello (bytes : List UInt8) : Checked ProbeError Ja3 := do
  let body ← bodyOf bytes
  let hello ← helloOf body
  readHello hello

end Ja3

/-! ### The cursor is safe -/

namespace ParseCursor

variable {p : ParseCursor} {n : ℕ}

theorem safe_readU8 : Safe (fun r => r.2.buf.length + 1 = p.buf.length) p.readU8 := by
  rw [readU8]
  cases hhead : p.buf.head? with
  | none => exact .fail _
  | some v =>
    have hpos : 1 ≤ p.buf.length := by
      rw [List.head?_eq_some_iff] at hhead
      obtain ⟨rest, hrest⟩ := hhead
      simp [hrest]
    refine .bind (safe_range hpos le_rfl) fun rest hrest => .ok ?_
    show rest.length + 1 = p.buf.length
    omega

theorem safe_readU16 : Safe (fun r => r.2.buf.length + 2 = p.buf.length) p.readU16 := by
  refine .ite (fun _ => .fail _) fun hlen => ?_
  refine .bind (safe_nth (by omega)) fun b₀ _ => .bind (safe_nth (by omega)) fun b₁ _ => ?_
  refine .bind (safe_range (not_lt.mp hlen) le_rfl) fun rest hrest => .ok ?_
  show rest.length + 2 = p.buf.length
  omega

theorem safe_skip : Safe (fun r => r.buf.length + n = p.buf.length) (p.skip n) := by
  refine .ite (fun _ => .fail _) fun hlen => ?_
  refine .bind (safe_range (not_lt.mp hlen) le_rfl) fun rest hrest => .ok ?_
  show rest.length + n = p.buf.length
  omega

theorem safe_take :
    Safe (fun r => r.1.length = n ∧ r.2.buf.length + n = p.buf.length) (p.take n) := by
  refine .ite (fun _ => .fail _) fun hlen => ?_
  refine .bind (safe_range (Nat.zero_le n) (not_lt.mp hlen)) fun head hhead => ?_
  refine .bind (safe_range (not_lt.mp hlen) le_rfl) fun tail htail => .ok ⟨hhead, ?_⟩
  show tail.length + n = p.buf.length
  omega

end ParseCursor

/-! ### The parser is safe -/

namespace Ja3

open ParseCursor (safe_readU8 safe_readU16 safe_skip safe_take)

theorem safe_readSuites (n : ℕ) (p : ParseCursor) (suites : List UInt16) :
    Safe (fun _ => True) (readSuites n p suites) := by
  induction n generalizing p suites with
  | zero => exact .ok trivial
  | succ n ih => exact .bind safe_readU16 fun r _ => ih r.2 (push suites r.1)

/-- Every chunk is two bytes. -/
theorem length_of_mem_chunksExact {bytes chunk : List UInt8} (h : chunk ∈ chunksExact bytes) :
    chunk.length = 2 := by
  induction bytes using chunksExact.induct with
  | case1 b₀ b₁ rest ih =>
    rw [chunksExact, List.mem_cons] at h
    rcases h with rfl | h
    · rfl
    · exact ih h
  | case2 bytes hbytes =>
    rw [chunksExact] at h
    · cases h
    · exact hbytes

theorem safe_readGroups {chunks : List (List UInt8)} (h : ∀ chunk ∈ chunks, chunk.length = 2)
    (groups : List UInt16) : Safe (fun _ => True) (readGroups chunks groups) := by
  induction chunks generalizing groups with
  | nil => exact .ok trivial
  | cons chunk chunks ih =>
    rw [List.forall_mem_cons] at h
    refine .bind (safe_nth (by omega)) fun b₀ _ => .bind (safe_nth (by omega)) fun b₁ _ => ?_
    exact ih h.2 _

/-- **One turn** takes the bytes of an extension. -/
theorem safe_extensionTurn (s : ExtensionState) :
    Safe (Loop.Progress (fun _ => True) (fun s => s.extCursor.buf.length) (fun _ _ => True) s)
      (extensionTurn s) := by
  refine .ite (fun _ => .ok trivial) fun _ => ?_
  refine .bind safe_readU16 fun ⟨extType, p₁⟩ hp₁ => ?_
  refine .bind safe_readU16 fun ⟨extLen, p₂⟩ hp₂ => ?_
  refine .bind safe_take fun ⟨extBody, p₃⟩ hp₃ => ?_
  dsimp only at hp₁ hp₂ hp₃ ⊢
  have hless : p₃.buf.length < s.extCursor.buf.length := by omega
  refine .ite (fun _ => ?_) fun _ => .ite (fun _ => ?_) fun _ => ?_
  · refine .bind safe_readU16 fun ⟨listBytes, g⟩ _ => .ite (fun _ => .fail _) fun _ => ?_
    refine .bind safe_take fun ⟨list, _⟩ _ => ?_
    refine .bind (safe_readGroups (fun _ => length_of_mem_chunksExact) _) fun groups _ => ?_
    exact .ok ⟨trivial, hless, fun _ _ => trivial⟩
  · refine .bind safe_readU8 fun ⟨listBytes, f⟩ _ => .bind safe_take fun ⟨list, _⟩ _ => ?_
    exact .ok ⟨trivial, hless, fun _ _ => trivial⟩
  · exact .ok ⟨trivial, hless, fun _ _ => trivial⟩

theorem safe_readExtensions (p : ParseCursor) :
    Safe (fun _ => True) (readExtensions p) := by
  refine .ite (fun _ => .ok trivial) fun _ => ?_
  refine .bind safe_readU16 fun ⟨extTotal, p₁⟩ _ => .bind safe_take fun ⟨exts, p₂⟩ _ => ?_
  exact Loop.run_safe (fun s _ => safe_extensionTurn s) trivial (Nat.lt_succ_self _)

theorem safe_readHello (hello : List UInt8) : Safe (fun _ => True) (readHello hello) := by
  refine .bind safe_readU16 fun ⟨legacyVersion, p₁⟩ _ => .bind safe_skip fun p₂ _ => ?_
  refine .bind safe_readU8 fun ⟨sessionIdLen, p₃⟩ _ => .bind safe_skip fun p₄ _ => ?_
  refine .bind safe_readU16 fun ⟨cipherSuitesBytes, p₅⟩ _ => .ite (fun _ => .fail _) fun _ => ?_
  refine .bind (safe_readSuites _ _ _) fun ⟨cipherSuites, p₆⟩ _ => ?_
  refine .bind safe_readU8 fun ⟨compMethodsLen, p₇⟩ _ => .bind safe_skip fun p₈ _ => ?_
  exact .bind (safe_readExtensions p₈) fun s _ => .ok trivial

theorem safe_helloOf (body : List UInt8) : Safe (fun _ => True) (helloOf body) := by
  refine .ite (fun _ => .fail _) fun hlen => .bind (safe_nth (by omega)) fun b₀ _ => ?_
  refine .ite (fun _ => .fail _) fun _ => .bind (safe_nth (by omega)) fun b₁ _ => ?_
  refine .bind (safe_nth (by omega)) fun b₂ _ => .bind (safe_nth (by omega)) fun b₃ _ => ?_
  refine .ite (fun _ => .fail _) fun hin => ?_
  exact (safe_range (by omega) (not_lt.mp hin)).mono fun _ _ => trivial

theorem safe_bodyOf (bytes : List UInt8) : Safe (fun _ => True) (bodyOf bytes) := by
  refine .ite (fun _ => .fail _) fun hlen => .bind (safe_nth (by omega)) fun b₀ _ => ?_
  refine .ite (fun _ => .fail _) fun _ => .bind (safe_nth (by omega)) fun b₃ _ => ?_
  refine .bind (safe_nth (by omega)) fun b₄ _ => .ite (fun _ => .fail _) fun hin => ?_
  exact (safe_range (by omega) (not_lt.mp hin)).mono fun _ _ => trivial

/-- **The parser is safe.** Whatever the bytes are, it ends with what it has read or with an error
it returns. -/
theorem safe_fromClientHello (bytes : List UInt8) :
    Safe (fun _ => True) (fromClientHello bytes) :=
  .bind (safe_bodyOf bytes) fun body _ => .bind (safe_helloOf body) fun hello _ =>
    safe_readHello hello

end Ja3

end Testkit

end DevBrowse
