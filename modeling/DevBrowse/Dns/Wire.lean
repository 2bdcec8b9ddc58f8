import DevBrowse.Dns.Resolver
import DevBrowse.Lib.Bytes
import DevBrowse.Lib.Checked
import DevBrowse.Lib.Text

/-!
# The wire format of DNS messages

The part of the format a resolver over HTTPS needs: a query for the addresses of a name, and
a decoder that reads the address records of a response. The decoder checks itself: every
index, every slice and every addition of the source is one of
`DevBrowse.Lib.Checked`, so that what is out of range would show as a panic.

Names are skipped, not read. A name is a sequence of labels that ends in the root label, or
in a pointer to where it goes on, anywhere in the message. `skipTurn` is one turn of the loop
that follows it.
-/

namespace DevBrowse

namespace Dns

open Checked

/-- No message is larger. -/
def maxDnsMessageBytes : ℕ := 64 * 1024

/-- How many pointers of a name are followed. -/
def maxPointerHops : ℕ := 16

/-- No label is longer. -/
def maxLabelLen : ℕ := 63

/-- No name is longer. -/
def maxNameLen : ℕ := 255

/-- Why a message is not encoded or decoded. -/
inductive WireError where
  /-- The message is larger than any that is read. -/
  | messageTooLarge
  /-- The message ends too early. -/
  | truncated
  /-- A label is longer than labels are. -/
  | malformedLabel
  /-- A name is longer than names are. -/
  | malformedName
  /-- A name has more pointers than are followed. -/
  | compressionLoop
  /-- There is not exactly one question. -/
  | unexpectedQuestionCount
  /-- The server failed. -/
  | serverFailure
  /-- The server did not understand the query. -/
  | formatError
  /-- There is no such name. -/
  | nxDomain
  /-- Another code of a failure. -/
  | unknownRcode
  /-- The data of a record are not as long as they should be. -/
  | rdataLengthMismatch
  /-- The name is not one that can be asked for. -/
  | invalidHostname
  deriving DecidableEq

/-! ### Queries -/

/-- Letters, digits, `-` and `_`. -/
def isHostnameByte (b : UInt8) : Bool :=
  48 ≤ b && b ≤ 57 || 65 ≤ b && b ≤ 90 || 97 ≤ b && b ≤ 122 || b == 45 || b == 95

/-- A byte with its letter, if it is one, in lower case. -/
def toAsciiLowercaseByte (b : UInt8) : UInt8 := if 65 ≤ b && b ≤ 90 then b + 32 else b

/-- The labels of a name, each behind its length, and how long they are so far. -/
def encodeLabels : ℕ → List (List UInt8) → Except WireError (List UInt8)
  | _, [] => .ok []
  | totalLen, label :: labels =>
    if label = [] then .error .invalidHostname
    else if maxLabelLen < label.length then .error .invalidHostname
    else if label.any fun b => !isHostnameByte b then .error .invalidHostname
    else if maxNameLen < totalLen + (1 + label.length) then .error .invalidHostname
    else do
      let rest ← encodeLabels (totalLen + (1 + label.length)) labels
      pure (.ofNat label.length :: label.map toAsciiLowercaseByte ++ rest)

/-- A name, as it is asked for. -/
def encodeName (qname : Text) : Except WireError (List UInt8) :=
  if qname = [] then .error .invalidHostname
  else do
    let labels ← encodeLabels 0 ((qname.splitOn '.').map fun label : Text => label.utf8Bytes)
    pure (labels ++ [0])

/-- The query for the records of a type of a name. -/
def encodeQuery (qname : Text) (qtype : QueryType) : Except WireError (List UInt8) := do
  let name ← encodeName qname
  pure ([0, 0, 0x01, 0x00, 0x00, 0x01, 0x00, 0x00, 0x00, 0x00, 0x00, 0x00] ++ name ++
    Bytes.ofU16 qtype.typeCode ++ [0x00, 0x01])

/-! ### Reading -/

/-- The bytes of a message. -/
abbrev Buf := Slice UInt8

/-- How many there are. -/
def Buf.len (buf : Buf) : ℕ := buf.elems.length

/-- An addition of offsets. -/
def addUsize (a b : ℕ) : Checked WireError ℕ := add 64 a b

/-- The word of two bytes at two indices. -/
def be16 (buf : Buf) (i j : ℕ) : Checked WireError UInt16 := do
  let b₀ ← index buf i
  let b₁ ← index buf j
  pure (Bytes.u16 b₀ b₁)

/-- The offset `n` bytes further on. -/
def readAdvance (buf : Buf) (cursor n : ℕ) : Checked WireError ℕ := do
  let next ← addUsize cursor n
  if buf.len < next then fail .truncated else pure next

/-- The word of two bytes at an offset. -/
def readU16 (buf : Buf) (cursor : ℕ) : Checked WireError UInt16 := do
  let next ← addUsize cursor 2
  if buf.len < next then fail .truncated
  else
    let i₁ ← addUsize cursor 1
    be16 buf cursor i₁

/-- The word of four bytes at an offset. -/
def readU32 (buf : Buf) (cursor : ℕ) : Checked WireError UInt32 := do
  let next ← addUsize cursor 4
  if buf.len < next then fail .truncated
  else
    let b₀ ← index buf cursor
    let b₁ ← index buf (← addUsize cursor 1)
    let b₂ ← index buf (← addUsize cursor 2)
    let b₃ ← index buf (← addUsize cursor 3)
    pure (Bytes.u32 b₀ b₁ b₂ b₃)

/-! ### Skipping a name -/

/-- Where the loop that skips a name is. -/
structure SkipState where
  /-- Where it reads. -/
  cursor : ℕ
  /-- How many pointers it has followed. -/
  hops : ℕ
  /-- Where it goes on after the name, once it has followed a pointer. -/
  afterPointer : Option ℕ
  /-- How long the labels are so far. -/
  totalLen : ℕ

/-- One turn of the loop: the root label, a pointer or another label. -/
def skipTurn (buf : Buf) (s : SkipState) : Checked WireError (SkipState ⊕ ℕ) := do
  if buf.len ≤ s.cursor then fail .truncated
  else
    let b ← index buf s.cursor
    if b = 0 then
      -- a name that had a pointer ends behind the first one
      let cursor ← addUsize s.cursor 1
      pure (.inr (s.afterPointer.getD cursor))
    else if b &&& 0xC0 = 0xC0 then
      let next ← addUsize s.cursor 2
      if buf.len < next then fail .truncated
      else
        let low ← index buf (← addUsize s.cursor 1)
        let offset := (b &&& 0x3F).toNat <<< 8 ||| low.toNat
        -- the jump may lead anywhere, even back: the hops are what bounds it
        let hops ← add 32 s.hops 1
        if maxPointerHops < hops then fail .compressionLoop
        else pure (.inl ⟨offset, hops, some (s.afterPointer.getD next), s.totalLen⟩)
    else if b &&& 0xC0 ≠ 0 then fail .malformedLabel
    -- no byte gets here that is longer, its two high bits are clear
    else if maxLabelLen < b.toNat then fail .malformedLabel
    else
      let cursor ← addUsize s.cursor 1
      let next ← addUsize cursor b.toNat
      if buf.len < next then fail .truncated
      else
        let totalLen ← addUsize s.totalLen (← addUsize 1 b.toNat)
        if maxNameLen < totalLen then fail .malformedName
        else pure (.inl ⟨next, s.hops, s.afterPointer, totalLen⟩)

/-- More turns than the loop takes for any name. -/
def skipTurns : ℕ := maxPointerHops + maxNameLen + 2

/-- The offset after the name at an offset. -/
def skipName (buf : Buf) (start : ℕ) : Checked WireError ℕ :=
  Loop.run (skipTurn buf) skipTurns ⟨start, 0, none, 0⟩

/-! ### Responses -/

/-- What a response answers. -/
structure DecodedAnswer where
  /-- The addresses. -/
  records : List DnsRecord
  /-- How long they all may be kept. -/
  minTtl : UInt32
  deriving DecidableEq

/-- Where the loop over the records is. -/
structure DecodeState where
  /-- Where it reads. -/
  cursor : ℕ
  /-- The addresses so far. -/
  records : List DnsRecord
  /-- The smallest time to live so far. -/
  minTtl : UInt32

/-- The address of a record, if it is of a type that has one. -/
def decodeRdata (rrtype : UInt16) (rdata : List UInt8) :
    Checked WireError (Option DnsRecord) :=
  if rrtype = 1 then
    if h : rdata.length = 4 then pure (some (.a ⟨rdata.toArray, h⟩))
    else fail .rdataLengthMismatch
  else if rrtype = 28 then
    if h : rdata.length = 16 then pure (some (.aaaa ⟨rdata.toArray, h⟩))
    else fail .rdataLengthMismatch
  else pure none

/-- One record. -/
def decodeRecord (buf : Buf) (s : DecodeState) : Checked WireError DecodeState := do
  let cursor ← skipName buf s.cursor
  let rrtype ← readU16 buf cursor
  -- the class is read, which may fail, and not looked at
  let _class ← readU16 buf (← addUsize cursor 2)
  let ttl ← readU32 buf (← addUsize cursor 4)
  let rdlength ← readU16 buf (← addUsize cursor 8)
  let cursor ← addUsize cursor 10
  let next ← addUsize cursor rdlength.toNat
  if buf.len < next then fail .rdataLengthMismatch
  else
    let rdata ← slice buf cursor next
    match ← decodeRdata rrtype rdata with
    | some record =>
      pure ⟨next, s.records ++ [record], if ttl < s.minTtl then ttl else s.minTtl⟩
    | none => pure ⟨next, s.records, s.minTtl⟩

/-- The records, one after the other. -/
def decodeRecords (buf : Buf) : ℕ → DecodeState → Checked WireError DecodeState
  | 0, s => pure s
  | n + 1, s => do
    let s ← decodeRecord buf s
    decodeRecords buf n s

/-- The addresses of a response. -/
def decodeResponse (buf : Buf) : Checked WireError DecodedAnswer := do
  if maxDnsMessageBytes < buf.len then fail .messageTooLarge
  else if buf.len < 12 then fail .truncated
  else
    let flags ← be16 buf 2 3
    let qdcount ← be16 buf 4 5
    let ancount ← be16 buf 6 7
    if qdcount ≠ 1 then fail .unexpectedQuestionCount
    else if flags &&& 0x000F = 2 then fail .serverFailure
    else if flags &&& 0x000F = 1 then fail .formatError
    else if flags &&& 0x000F = 3 then fail .nxDomain
    else if flags &&& 0x000F ≠ 0 then fail .unknownRcode
    else
      -- the name of the question, its type and its class
      let cursor ← skipName buf 12
      let cursor ← readAdvance buf cursor 4
      let s ← decodeRecords buf ancount.toNat ⟨cursor, [], 0xFFFFFFFF⟩
      pure ⟨s.records, if s.records = [] then 0 else s.minTtl⟩

end Dns

end DevBrowse
