import DevBrowse.Lib.Bytes
import DevBrowse.Network.Error

/-!
# Frames between processes

A message goes over the wire as a frame: its length, in four bytes, and its bytes. A message
that is too large is refused by the sender before a byte of it is written, and by the receiver
when it has seen the length, before it makes room for it.

A reader is what is still to come: the bytes, and whether the stream ends after them or fails.
A writer is what has been written, and when it will fail, if it will.
-/

namespace DevBrowse

namespace Ipc

open Network (IpcError)

/-- The bytes a message may have: four megabytes. -/
def maxMessageBytes : ℕ := 4 * 1024 * 1024

/-- The kinds of errors of the operating system. -/
inductive ErrorKind where
  /-- The stream ended too early. -/
  | unexpectedEof
  /-- Something else. -/
  | other
  deriving DecidableEq

/-- An error of the operating system. -/
structure IoError where
  /-- Its kind. -/
  kind : ErrorKind
  /-- How it describes itself. -/
  description : Text
  deriving DecidableEq

/-- The error at the end of a stream from which more was wanted. -/
def earlyEof : IoError := ⟨.unexpectedEof, "early eof".toList⟩

/-- An error of the operating system as one of the transport. -/
def IoError.toIpc (e : IoError) : IpcError := .io e.description

/-! ### Readers and writers -/

/-- **A stream that is read.** -/
structure Reader where
  /-- The bytes that are still to come. -/
  bytes : List UInt8
  /-- What reading fails with after them, if the stream does not just end. -/
  failure : Option IoError
  deriving DecidableEq

/-- Read so many bytes, or fail. -/
def Reader.readExact (reader : Reader) (n : ℕ) : Except IoError (List UInt8) × Reader :=
  if n ≤ reader.bytes.length then
    (.ok (reader.bytes.take n), { reader with bytes := reader.bytes.drop n })
  else (.error (reader.failure.getD earlyEof), { reader with bytes := [] })

/-- **A stream that is written.** -/
structure Writer where
  /-- The bytes that have been written. -/
  written : List UInt8
  /-- How many more it takes before it fails, and with what, if it does. -/
  fault : Option (ℕ × IoError)
  /-- What flushing it fails with, if it does. -/
  flushFault : Option IoError
  deriving DecidableEq

/-- A writer that does not fail, and nothing written yet. -/
def Writer.new : Writer := ⟨[], none, none⟩

/-- Write all of the bytes, or fail. -/
def Writer.writeAll (writer : Writer) (bytes : List UInt8) : Except IoError Unit × Writer :=
  match writer.fault with
  | none => (.ok (), { writer with written := writer.written ++ bytes })
  | some (room, e) =>
    if bytes.length ≤ room then
      (.ok (), { writer with
        written := writer.written ++ bytes, fault := some (room - bytes.length, e) })
    else
      (.error e, { writer with
        written := writer.written ++ bytes.take room, fault := some (0, e) })

/-- Flush a writer. -/
def Writer.flush (writer : Writer) : Except IoError Unit :=
  match writer.flushFault with
  | none => .ok ()
  | some e => .error e

/-! ### Frames -/

/-- **Write a message as a frame.** -/
def writeFrame (writer : Writer) (payload : List UInt8) : Except IpcError Unit × Writer :=
  if maxMessageBytes < payload.length then
    (.error (.messageTooLarge (.ofNat payload.length)), writer)
  else
    match writer.writeAll (Bytes.ofU32 (.ofNat payload.length)) with
    | (.error e, writer) => (.error e.toIpc, writer)
    | (.ok (), writer) =>
      match writer.writeAll payload with
      | (.error e, writer) => (.error e.toIpc, writer)
      | (.ok (), writer) =>
        match writer.flush with
        | .error e => (.error e.toIpc, writer)
        | .ok () => (.ok (), writer)

/-- What reading a frame comes to. -/
structure FrameRead where
  /-- The message, or why there is none. -/
  result : Except IpcError (List UInt8)
  /-- What is still to come. -/
  reader : Reader
  /-- The size of the buffer that was made for the message. -/
  allocated : ℕ
  deriving DecidableEq

/-- The length that four bytes stand for. -/
def frameLen : List UInt8 → ℕ
  | [b₀, b₁, b₂, b₃] => (Bytes.u32 b₀ b₁ b₂ b₃).toNat
  | _ => 0

/-- **Read a frame.** -/
def readFrame (reader : Reader) : FrameRead :=
  match reader.readExact 4 with
  | (.error e, reader) =>
    match e.kind with
    | .unexpectedEof => ⟨.error .connectionClosed, reader, 0⟩
    | .other => ⟨.error e.toIpc, reader, 0⟩
  | (.ok lenBuf, reader) =>
    let len := frameLen lenBuf
    if maxMessageBytes < len then ⟨.error (.messageTooLarge (.ofNat len)), reader, 0⟩
    else
      match reader.readExact len with
      | (.error e, reader) => ⟨.error e.toIpc, reader, len⟩
      | (.ok buf, reader) => ⟨.ok buf, reader, len⟩

/-- The bytes of a frame. -/
def frame (payload : List UInt8) : List UInt8 :=
  Bytes.ofU32 (.ofNat payload.length) ++ payload

variable {payload rest : List UInt8} {reader : Reader} {writer : Writer}

/-! ### What is written -/

/-- A message that is too large is refused, and nothing is written. -/
theorem writeFrame_of_large (h : maxMessageBytes < payload.length) (writer : Writer) :
    writeFrame writer payload = (.error (.messageTooLarge (.ofNat payload.length)), writer) :=
  if_pos h

/-- **A writer that does not fail gets the frame.** -/
theorem writeFrame_eq (h : payload.length ≤ maxMessageBytes) (hfault : writer.fault = none)
    (hflush : writer.flushFault = none) :
    writeFrame writer payload =
      (.ok (), { writer with written := writer.written ++ frame payload }) := by
  obtain ⟨written, fault, flushFault⟩ := writer
  subst hfault
  subst hflush
  rw [writeFrame, if_neg (Nat.not_lt.mpr h)]
  simp [Writer.writeAll, Writer.flush, frame]

/-! ### What is read -/

theorem frameLen_ofU32 (w : UInt32) : frameLen (Bytes.ofU32 w) = w.toNat := by
  rw [Bytes.ofU32, frameLen, Bytes.u32_ofU32]

theorem toNat_len (h : payload.length ≤ maxMessageBytes) :
    (UInt32.ofNat payload.length).toNat = payload.length := by
  have hmax : maxMessageBytes = 4194304 := rfl
  rw [UInt32.toNat_ofNat', Nat.mod_eq_of_lt (by omega)]

/-- Four bytes are the length they stand for. -/
theorem eq_ofU32_frameLen {lenBuf : List UInt8} (h : lenBuf.length = 4) :
    lenBuf = Bytes.ofU32 (.ofNat (frameLen lenBuf)) := by
  obtain ⟨b₀, b₁, b₂, b₃, rfl⟩ := List.length_eq_four.mp h
  rw [frameLen, UInt32.ofNat_toNat, Bytes.ofU32_u32]

/-- **A frame is read as its message**, and what comes after it stays. -/
theorem readFrame_frame_append (h : payload.length ≤ maxMessageBytes) (rest : List UInt8)
    (failure : Option IoError) :
    readFrame ⟨frame payload ++ rest, failure⟩ =
      ⟨.ok payload, ⟨rest, failure⟩, payload.length⟩ := by
  have hlen : frameLen (Bytes.ofU32 (.ofNat payload.length)) = payload.length :=
    (frameLen_ofU32 _).trans (toNat_len h)
  have hfour : (⟨frame payload ++ rest, failure⟩ : Reader).readExact 4 =
      (.ok (Bytes.ofU32 (.ofNat payload.length)), ⟨payload ++ rest, failure⟩) := by
    rw [Reader.readExact, if_pos (by simp [frame]), frame, List.append_assoc]
    rfl
  have hpayload : (⟨payload ++ rest, failure⟩ : Reader).readExact payload.length =
      (.ok payload, ⟨rest, failure⟩) := by
    rw [Reader.readExact, if_pos (by simp), List.take_left, List.drop_left]
  simp only [readFrame, hfour, hlen, if_neg (Nat.not_lt.mpr h), hpayload]

/-- **What reading a frame comes to**, by where the stream is cut: in the length, after a length
that is too large, in the message, or not at all. -/
theorem readFrame_cases (reader : Reader) :
    (reader.bytes.length < 4 ∧ (readFrame reader).allocated = 0 ∧
      (reader.failure = none → (readFrame reader).result = .error .connectionClosed) ∧
      ∀ p, (readFrame reader).result ≠ .ok p) ∨
    ∃ lenBuf rest, reader.bytes = lenBuf ++ rest ∧ lenBuf.length = 4 ∧
      ((maxMessageBytes < frameLen lenBuf ∧ readFrame reader =
          ⟨.error (.messageTooLarge (.ofNat (frameLen lenBuf))),
            { reader with bytes := rest }, 0⟩) ∨
        (frameLen lenBuf ≤ maxMessageBytes ∧ rest.length < frameLen lenBuf ∧ readFrame reader =
          ⟨.error (reader.failure.getD earlyEof).toIpc, { reader with bytes := [] },
            frameLen lenBuf⟩) ∨
        frameLen lenBuf ≤ maxMessageBytes ∧ frameLen lenBuf ≤ rest.length ∧ readFrame reader =
          ⟨.ok (rest.take (frameLen lenBuf)), { reader with bytes := rest.drop (frameLen lenBuf) },
            frameLen lenBuf⟩) := by
  obtain ⟨bytes, failure⟩ := reader
  by_cases hfour : 4 ≤ bytes.length
  · refine Or.inr ⟨bytes.take 4, bytes.drop 4, (List.take_append_drop 4 bytes).symm,
      List.length_take_of_le hfour, ?_⟩
    simp only [readFrame, Reader.readExact, if_pos hfour]
    by_cases hlarge : maxMessageBytes < frameLen (bytes.take 4)
    · exact Or.inl ⟨hlarge, by rw [if_pos hlarge]⟩
    · rw [if_neg hlarge]
      by_cases hrest : frameLen (bytes.take 4) ≤ (bytes.drop 4).length
      · exact Or.inr (Or.inr ⟨Nat.not_lt.mp hlarge, hrest, by rw [if_pos hrest]⟩)
      · exact Or.inr (Or.inl ⟨Nat.not_lt.mp hlarge, Nat.not_le.mp hrest, by rw [if_neg hrest]⟩)
  · refine Or.inl ⟨Nat.not_le.mp hfour, ?_⟩
    simp only [readFrame, Reader.readExact, if_neg hfour]
    cases failure with
    | none => simp [earlyEof]
    | some e =>
      cases hkind : e.kind with
      | unexpectedEof => simp [hkind]
      | other => simp [hkind]

/-- **A message that is read is in the stream**, behind its length. -/
theorem bytes_of_readFrame (h : (readFrame reader).result = .ok payload) :
    payload.length ≤ maxMessageBytes ∧
      reader.bytes = frame payload ++ (readFrame reader).reader.bytes ∧
      (readFrame reader).reader.failure = reader.failure := by
  rcases readFrame_cases reader with ⟨-, -, -, hnone⟩ |
    ⟨lenBuf, rest, hbytes, hfour, ⟨-, heq⟩ | ⟨-, -, heq⟩ | ⟨hmax, hrest, heq⟩⟩
  · exact absurd h (hnone payload)
  · rw [heq] at h
    cases h
  · rw [heq] at h
    cases h
  · rw [heq] at h ⊢
    obtain rfl := Except.ok.inj h
    have hlen : (rest.take (frameLen lenBuf)).length = frameLen lenBuf :=
      List.length_take_of_le hrest
    refine ⟨hlen.trans_le hmax, ?_, rfl⟩
    rw [frame, hlen, ← eq_ofU32_frameLen hfour, List.append_assoc, List.take_append_drop]
    exact hbytes

/-- **No more room is made than a message may take.** -/
theorem allocated_le (reader : Reader) : (readFrame reader).allocated ≤ maxMessageBytes := by
  rcases readFrame_cases reader with ⟨-, hzero, -⟩ |
    ⟨lenBuf, rest, -, -, ⟨-, heq⟩ | ⟨hmax, -, heq⟩ | ⟨hmax, -, heq⟩⟩
  · rw [hzero]
    exact Nat.zero_le _
  · rw [heq]
    exact Nat.zero_le _
  · rw [heq]
    exact hmax
  · rw [heq]
    exact hmax

theorem length_frame (payload : List UInt8) : (frame payload).length = payload.length + 4 := by
  rw [frame, List.length_append, Bytes.length_ofU32, Nat.add_comm]

/-- Reading a frame takes it off the stream. -/
theorem length_reader_lt (h : (readFrame reader).result = .ok payload) :
    (readFrame reader).reader.bytes.length < reader.bytes.length := by
  obtain ⟨-, hbytes, -⟩ := bytes_of_readFrame h
  have hlen := congrArg List.length hbytes
  rw [List.length_append, length_frame] at hlen
  omega

/-! ### One message after the other -/

/-- Write messages, up to the first that cannot be written. -/
def writeFrames (writer : Writer) : List (List UInt8) → Except IpcError Unit × Writer
  | [] => (.ok (), writer)
  | payload :: payloads =>
    match writeFrame writer payload with
    | (.error e, writer) => (.error e, writer)
    | (.ok (), writer) => writeFrames writer payloads

/-- Read messages as long as there are any: the messages, and why there are no more. -/
def readFrames (reader : Reader) : List (List UInt8) × IpcError :=
  match _hresult : (readFrame reader).result with
  | .ok payload =>
    let (payloads, e) := readFrames (readFrame reader).reader
    (payload :: payloads, e)
  | .error e => ([], e)
termination_by reader.bytes.length
decreasing_by exact length_reader_lt _hresult

theorem readFrames_of_ok (h : (readFrame reader).result = .ok payload) :
    readFrames reader =
      (payload :: (readFrames (readFrame reader).reader).1,
        (readFrames (readFrame reader).reader).2) := by
  rw [readFrames]
  split
  · rename_i p hp
    obtain rfl : p = payload := Except.ok.inj (hp.symm.trans h)
    rfl
  · rename_i e he
    cases he.symm.trans h

theorem readFrames_of_error {e : IpcError} (h : (readFrame reader).result = .error e) :
    readFrames reader = ([], e) := by
  rw [readFrames]
  split
  · rename_i p hp
    cases hp.symm.trans h
  · rename_i e' he
    rw [Except.error.inj (he.symm.trans h)]

/-- **Messages are written one behind the other.** -/
theorem writeFrames_eq {payloads : List (List UInt8)}
    (h : ∀ payload ∈ payloads, payload.length ≤ maxMessageBytes) (hfault : writer.fault = none)
    (hflush : writer.flushFault = none) :
    writeFrames writer payloads =
      (.ok (), { writer with written := writer.written ++ (payloads.map frame).flatten }) := by
  induction payloads generalizing writer with
  | nil => simp [writeFrames]
  | cons payload payloads ih =>
    have hfirst := writeFrame_eq (h payload List.mem_cons_self) hfault hflush
    simp only [writeFrames, hfirst]
    rw [ih]
    · simp
    · exact fun p hp => h p (List.mem_cons_of_mem payload hp)
    · exact hfault
    · exact hflush

/-- **Messages are read one after the other**, until the stream ends. -/
theorem readFrames_flatten {payloads : List (List UInt8)}
    (h : ∀ payload ∈ payloads, payload.length ≤ maxMessageBytes) :
    readFrames ⟨(payloads.map frame).flatten, none⟩ = (payloads, .connectionClosed) := by
  induction payloads with
  | nil => exact readFrames_of_error rfl
  | cons payload payloads ih =>
    have hfirst := readFrame_frame_append (h payload List.mem_cons_self)
      (payloads.map frame).flatten none
    rw [List.map_cons, List.flatten_cons, readFrames_of_ok (by rw [hfirst]), hfirst,
      ih fun p hp => h p (List.mem_cons_of_mem payload hp)]

/-- **Frames go round.** What is written of messages that are not too large is read as these
messages and then found to have ended; of a message that is too large nothing is written; and
what is read from any stream stands there in full behind its length, with no more room made
for it than a message may take. -/
theorem framing_roundtrip :
    (∀ payloads : List (List UInt8), (∀ payload ∈ payloads, payload.length ≤ maxMessageBytes) →
      (writeFrames .new payloads).1 = .ok () ∧
        readFrames ⟨(writeFrames .new payloads).2.written, none⟩ =
          (payloads, .connectionClosed)) ∧
    (∀ (writer : Writer) (payload : List UInt8), maxMessageBytes < payload.length →
      writeFrame writer payload = (.error (.messageTooLarge (.ofNat payload.length)), writer)) ∧
    ∀ (reader : Reader),
      (∀ payload, (readFrame reader).result = .ok payload ↔
        payload.length ≤ maxMessageBytes ∧ frame payload <+: reader.bytes) ∧
      (readFrame reader).allocated ≤ maxMessageBytes := by
  refine ⟨fun payloads h => ?_, fun writer payload h => writeFrame_of_large h writer,
    fun reader => ⟨fun payload => ?_, allocated_le reader⟩⟩
  · rw [writeFrames_eq h rfl rfl]
    exact ⟨rfl, readFrames_flatten h⟩
  · constructor
    · intro h
      obtain ⟨hmax, hbytes, -⟩ := bytes_of_readFrame h
      exact ⟨hmax, _, hbytes.symm⟩
    · rintro ⟨hmax, rest, hbytes⟩
      obtain ⟨bytes, failure⟩ := reader
      obtain rfl : frame payload ++ rest = bytes := hbytes
      rw [readFrame_frame_append hmax]

end Ipc

end DevBrowse
