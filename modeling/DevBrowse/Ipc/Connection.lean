import DevBrowse.Ipc.Transport
import DevBrowse.Lib.Transition

/-!
# Frames between two tasks

A send and a recv do not happen at once. The bytes between them go through a buffer of bounded
size, some at a time: a send waits where the buffer is full, a recv where it is empty, and either
may be dropped while it waits. What the two ends do interleaves in any order.

`Ipc.Pipe` is one direction of a connection, with the send and the recv that are under way. The
two directions of a connection that is split share nothing, so one is all there is to see.

However the bytes are cut and the steps interleave, the recvs answer what reading one frame after
the other from all the bytes gives (`Ipc.Pipe.answers_sequential`), if none is dropped with a part
of a frame in its hands. If no send is dropped halfway either, each message arrives exactly once,
in order, and the end is seen only behind the last (`Ipc.Pipe.messages_delivered`).
-/

namespace DevBrowse

namespace Ipc

open Network (IpcError)

open Transition (Step)

/-! ### The operations under way -/

/-- How far a send has come. -/
inductive Sending where
  /-- The length of the message is being written, and so much of it is left. -/
  | length (message left : List UInt8)
  /-- The message itself is being written, and so much of it is left. -/
  | payload (message left : List UInt8)
  deriving DecidableEq

/-- How far a recv has come. -/
inductive Receiving where
  /-- The length of the message is being read. -/
  | length (lenBuf : List UInt8)
  /-- The message itself is being read, of a known length. -/
  | payload (len : ℕ) (buf : List UInt8)
  deriving DecidableEq

namespace Sending

/-- A send when it begins. -/
def start (payload : List UInt8) : Sending := .length payload (Bytes.ofU32 (.ofNat payload.length))

/-- The message that is sent. -/
def message : Sending → List UInt8
  | .length message _ => message
  | .payload message _ => message

/-- What the write that is under way has still to write. -/
def chunk : Sending → List UInt8
  | .length _ left => left
  | .payload _ left => left

/-- What is left of the frame. -/
def left : Sending → List UInt8
  | .length message left => left ++ message
  | .payload _ left => left

/-- So many bytes are written. When the length is out, the message is next. -/
def advance (n : ℕ) : Sending → Sending
  | .length message left =>
    if left.drop n = [] then .payload message message else .length message (left.drop n)
  | .payload message left => .payload message (left.drop n)

end Sending

namespace Receiving

/-- How many bytes the read that is under way still wants. -/
def wants : Receiving → ℕ
  | .length lenBuf => 4 - lenBuf.length
  | .payload len buf => len - buf.length

/-- Some bytes are read. When the length is there and not too large, the message is next. -/
def advance (bytes : List UInt8) : Receiving → Receiving
  | .length lenBuf =>
    if (lenBuf ++ bytes).length = 4 ∧ frameLen (lenBuf ++ bytes) ≤ maxMessageBytes then
      .payload (frameLen (lenBuf ++ bytes)) []
    else .length (lenBuf ++ bytes)
  | .payload len buf => .payload len (buf ++ bytes)

/-- What has been read of the frame. -/
def taken : Receiving → List UInt8
  | .length lenBuf => lenBuf
  | .payload len buf => Bytes.ofU32 (.ofNat len) ++ buf

/-- What is read of a length makes no length that is not too large, or the length is known. -/
def WellFormed : Receiving → Prop
  | .length lenBuf => lenBuf.length < 4 ∨ lenBuf.length = 4 ∧ maxMessageBytes < frameLen lenBuf
  | .payload len buf => len ≤ maxMessageBytes ∧ buf.length ≤ len

end Receiving

/-! ### One direction of a connection -/

/-- **One direction of a connection.** -/
structure Pipe where
  /-- How many bytes the buffer holds at most. -/
  capacity : ℕ
  /-- The bytes that are written and not read. -/
  buffer : List UInt8
  /-- The send that is under way. -/
  sending : Option Sending
  /-- The recv that is under way. -/
  receiving : Option Receiving
  /-- The writing end is gone. -/
  writerGone : Bool
  /-- The reading end is gone. -/
  readerGone : Bool
  deriving DecidableEq

/-- What happens to a direction of a connection. -/
inductive PipeEvent where
  /-- A send begins. -/
  | send (payload : List UInt8)
  /-- So many bytes go into the buffer. -/
  | write (n : ℕ)
  /-- The send is done. -/
  | sent
  /-- The send fails, the reading end being gone. -/
  | sendFailed
  /-- The send is dropped by the task that waits for it. -/
  | sendDropped
  /-- A recv begins. -/
  | recv
  /-- So many bytes come out of the buffer. -/
  | read (n : ℕ)
  /-- The recv answers. -/
  | received
  /-- The recv is dropped by the task that waits for it. -/
  | recvDropped
  /-- The writing end is dropped. -/
  | writerDropped
  /-- The reading end is dropped. -/
  | readerDropped
  deriving DecidableEq

namespace Pipe

/-- The size of the buffer of a connection that is made without one. -/
def defaultDuplexCapacity : ℕ := maxMessageBytes + 4

/-- Both ends are there, and nothing has been written. -/
def new (capacity : ℕ) : Pipe := ⟨capacity, [], none, none, false, false⟩

/-- What has been read of the frame that is being received. -/
def taken (pipe : Pipe) : List UInt8 := (pipe.receiving.map Receiving.taken).getD []

/-- What the recv under way can answer. -/
def outcome (pipe : Pipe) : Option (Except IpcError (List UInt8)) :=
  match pipe.receiving with
  | none => none
  | some (.length lenBuf) =>
    if lenBuf.length = 4 then some (.error (.messageTooLarge (.ofNat (frameLen lenBuf))))
    else if pipe.buffer = [] ∧ pipe.writerGone = true then some (.error .connectionClosed)
    else none
  | some (.payload len buf) =>
    if buf.length = len then some (.ok buf)
    else if pipe.buffer = [] ∧ pipe.writerGone = true then some (.error earlyEof.toIpc)
    else none

/-- **What an event leads to**, where it can happen. -/
def step (pipe : Pipe) : PipeEvent → Option Pipe
  | .send payload =>
    if pipe.sending = none ∧ pipe.writerGone = false then
      some (if maxMessageBytes < payload.length then pipe
        else { pipe with sending := some (.start payload) })
    else none
  | .write n => pipe.sending.bind fun s =>
    if pipe.readerGone = false ∧ 1 ≤ n ∧ n ≤ s.chunk.length ∧
        pipe.buffer.length + n ≤ pipe.capacity then
      some { pipe with buffer := pipe.buffer ++ s.chunk.take n, sending := some (s.advance n) }
    else none
  | .sent => pipe.sending.bind fun s =>
    if s.left = [] then some { pipe with sending := none } else none
  | .sendFailed => pipe.sending.bind fun s =>
    if pipe.readerGone = true ∧ s.left ≠ [] then some { pipe with sending := none } else none
  | .sendDropped => pipe.sending.bind fun _ => some { pipe with sending := none }
  | .recv =>
    if pipe.receiving = none ∧ pipe.readerGone = false then
      some { pipe with receiving := some (.length []) }
    else none
  | .read n => pipe.receiving.bind fun r =>
    if 1 ≤ n ∧ n ≤ r.wants ∧ n ≤ pipe.buffer.length then
      some { pipe with
        buffer := pipe.buffer.drop n, receiving := some (r.advance (pipe.buffer.take n)) }
    else none
  | .received => pipe.outcome.bind fun _ => some { pipe with receiving := none }
  | .recvDropped => pipe.receiving.bind fun _ => some { pipe with receiving := none }
  | .writerDropped =>
    if pipe.sending = none ∧ pipe.writerGone = false then some { pipe with writerGone := true }
    else none
  | .readerDropped =>
    if pipe.receiving = none ∧ pipe.readerGone = false then some { pipe with readerGone := true }
    else none

/-- The runs of a direction of a connection. -/
abbrev Run (capacity : ℕ) (tr : List (Step Pipe PipeEvent)) (pipe : Pipe) : Prop :=
  Transition.Run (Transition.ofFun step) (new capacity) tr pipe

/-! ### What a run comes to -/

/-- What a recv answers in a step. -/
def answered (x : Step Pipe PipeEvent) : Option (Except IpcError (List UInt8)) :=
  if x.input = .received then x.pre.outcome else none

/-- The bytes that are written in a step. -/
def wrote (x : Step Pipe PipeEvent) : List UInt8 :=
  match x.input, x.pre.sending with
  | .write n, some s => s.chunk.take n
  | _, _ => []

/-- The message whose send is done in a step. -/
def finished (x : Step Pipe PipeEvent) : Option (List UInt8) :=
  if x.input = .sent then x.pre.sending.map Sending.message else none

/-- What the recvs have answered. -/
def answers (tr : List (Step Pipe PipeEvent)) : List (Except IpcError (List UInt8)) :=
  tr.filterMap answered

/-- The bytes that have been written. -/
def written (tr : List (Step Pipe PipeEvent)) : List UInt8 := tr.flatMap wrote

/-- The messages whose send is done. -/
def sent (tr : List (Step Pipe PipeEvent)) : List (List UInt8) := tr.filterMap finished

/-- The messages that have been received. -/
def received (tr : List (Step Pipe PipeEvent)) : List (List UInt8) :=
  (answers tr).filterMap Except.toOption

/-- The message that is written in full, its send not being done yet. -/
def whole (pipe : Pipe) : List (List UInt8) :=
  ((pipe.sending.filter fun s => s.left = []).map Sending.message).toList

/-- A recv that is dropped has read nothing yet. -/
def RecvKept (x : Step Pipe PipeEvent) : Prop := x.input = .recvDropped → x.pre.taken = []

/-- A send that is dropped has written nothing yet. -/
def SendKept (x : Step Pipe PipeEvent) : Prop :=
  x.input = .sendDropped → ∀ s, x.pre.sending = some s → s = .start s.message

end Pipe

/-! ### Writing piece by piece -/

namespace Sending

variable {s : Sending} {n : ℕ}

/-- Some of the frame of a message that is not too large is written, the rest is left. -/
structure WellFormed (cut : List UInt8) (s : Sending) : Prop where
  /-- The message is not too large. -/
  small : s.message.length ≤ maxMessageBytes
  /-- The frame is what is written and what is left. -/
  frame_eq : frame s.message = cut ++ s.left

theorem wellFormed_start {message : List UInt8} (h : message.length ≤ maxMessageBytes) :
    WellFormed [] (start message) := ⟨h, rfl⟩

theorem chunk_take (h : n ≤ s.chunk.length) : s.chunk.take n = s.left.take n := by
  cases s with
  | length message left => exact (List.take_append_of_le_length h).symm
  | payload message left => rfl

theorem left_advance (h : n ≤ s.chunk.length) : (s.advance n).left = s.left.drop n := by
  cases s with
  | length message lenLeft =>
    have hdrop : (lenLeft ++ message).drop n = lenLeft.drop n ++ message :=
      List.drop_append_of_le_length h
    rw [advance]
    split
    · rename_i hdone
      exact (hdrop.trans (by rw [hdone]; rfl)).symm
    · exact hdrop.symm
  | payload message left => rfl

theorem message_advance (n : ℕ) (s : Sending) : (s.advance n).message = s.message := by
  cases s with
  | length message left =>
    rw [advance]
    split <;> rfl
  | payload message left => rfl

/-- A write is left with nothing to do only where all of the frame is written. -/
theorem left_of_chunk_advance (h : (s.advance n).chunk = []) : (s.advance n).left = [] := by
  cases s with
  | length message left =>
    rw [advance]
    split
    · rename_i hdone
      rwa [advance, if_pos hdone] at h
    · rename_i hmore
      rw [advance, if_neg hmore] at h
      exact absurd h hmore
  | payload message left => exact h

/-- **Some more bytes are written.** -/
theorem WellFormed.advance {cut : List UInt8} (h : s.WellFormed cut) (hn : n ≤ s.chunk.length) :
    (s.advance n).WellFormed (cut ++ s.chunk.take n) := by
  refine ⟨(message_advance n s).symm ▸ h.small, ?_⟩
  rw [message_advance, left_advance hn, chunk_take hn, List.append_assoc, List.take_append_drop]
  exact h.frame_eq

end Sending

/-! ### Reading piece by piece -/

/-- Frames are read one after the other, whatever comes of each. -/
inductive Reads : Reader → List (Except IpcError (List UInt8)) → Reader → Prop
  /-- None has been read yet. -/
  | nil (reader : Reader) : Reads reader [] reader
  /-- One more is read. -/
  | snoc {reader rest : Reader} {answers : List (Except IpcError (List UInt8))} :
      Reads reader answers rest →
      Reads reader (answers ++ [(readFrame rest).result]) (readFrame rest).reader

section Reading

variable {bytes lenBuf rest : List UInt8}

theorem frameLen_ofU32_ofNat {len : ℕ} (h : len ≤ maxMessageBytes) :
    frameLen (Bytes.ofU32 (.ofNat len)) = len := by
  have hmax : maxMessageBytes = 4194304 := rfl
  rw [frameLen_ofU32, UInt32.toNat_ofNat', Nat.mod_eq_of_lt (by omega)]

/-- A stream that ends in a length is closed. -/
theorem readFrame_of_length_lt (h : bytes.length < 4) :
    readFrame ⟨bytes, none⟩ = ⟨.error .connectionClosed, ⟨[], none⟩, 0⟩ := by
  have hread : (⟨bytes, none⟩ : Reader).readExact 4 = (.error earlyEof, ⟨[], none⟩) := by
    rw [Reader.readExact, if_neg (Nat.not_le.mpr h)]
    rfl
  simp only [readFrame, hread]
  rfl

theorem readExact_four (h : lenBuf.length = 4) (rest : List UInt8) :
    (⟨lenBuf ++ rest, none⟩ : Reader).readExact 4 = (.ok lenBuf, ⟨rest, none⟩) := by
  rw [Reader.readExact, if_pos (by simp [h]), ← h, List.take_left, List.drop_left]

/-- After a length that is too large nothing more is read. -/
theorem readFrame_of_large (h : lenBuf.length = 4) (hlarge : maxMessageBytes < frameLen lenBuf)
    (rest : List UInt8) :
    readFrame ⟨lenBuf ++ rest, none⟩ =
      ⟨.error (.messageTooLarge (.ofNat (frameLen lenBuf))), ⟨rest, none⟩, 0⟩ := by
  simp only [readFrame, readExact_four h, if_pos hlarge]

/-- A stream that ends in a message is cut off. -/
theorem readFrame_of_short (h : lenBuf.length = 4) (hmax : frameLen lenBuf ≤ maxMessageBytes)
    (hrest : rest.length < frameLen lenBuf) :
    readFrame ⟨lenBuf ++ rest, none⟩ =
      ⟨.error earlyEof.toIpc, ⟨[], none⟩, frameLen lenBuf⟩ := by
  have hread : (⟨rest, none⟩ : Reader).readExact (frameLen lenBuf) =
      (.error earlyEof, ⟨[], none⟩) := by
    rw [Reader.readExact, if_neg (Nat.not_le.mpr hrest)]
    rfl
  simp only [readFrame, readExact_four h, if_neg (Nat.not_lt.mpr hmax), hread]

end Reading

namespace Receiving

variable {r : Receiving} {bytes : List UInt8}

theorem taken_advance (r : Receiving) (bytes : List UInt8) :
    (r.advance bytes).taken = r.taken ++ bytes := by
  cases r with
  | length lenBuf =>
    rw [advance]
    split
    · rename_i hdone
      exact (List.append_nil _).trans (eq_ofU32_frameLen hdone.1).symm
    · rfl
  | payload len buf => exact (List.append_assoc _ _ _).symm

theorem WellFormed.advance (h : r.WellFormed) (hbytes : bytes.length ≤ r.wants) :
    (r.advance bytes).WellFormed := by
  cases r with
  | length lenBuf =>
    have hwants : bytes.length ≤ 4 - lenBuf.length := hbytes
    have hbuf : lenBuf.length ≤ 4 := h.elim Nat.le_of_lt fun h => Nat.le_of_eq h.1
    have hlen : (lenBuf ++ bytes).length ≤ 4 := by
      rw [List.length_append]
      omega
    rw [Receiving.advance]
    split
    · rename_i hdone
      exact ⟨hdone.2, Nat.zero_le _⟩
    · rename_i hmore
      rcases Nat.lt_or_eq_of_le hlen with hlt | heq
      · exact .inl hlt
      · exact .inr ⟨heq, Nat.lt_of_not_le fun hle => hmore ⟨heq, hle⟩⟩
  | payload len buf =>
    obtain ⟨hmax, hbuf⟩ := h
    have hwants : bytes.length ≤ len - buf.length := hbytes
    refine ⟨hmax, ?_⟩
    rw [List.length_append]
    omega

end Receiving

namespace Pipe

variable {pipe pipe' : Pipe} {tr : List (Step Pipe PipeEvent)} {capacity n : ℕ} {e : PipeEvent}
  {r : Receiving} {s : Sending} {bytes more : List UInt8}

theorem taken_of_receiving (hr : pipe.receiving = some r) : pipe.taken = r.taken := by
  rw [taken, hr]
  rfl

/-- **What a recv answers is what reading a frame gives**, from what the recv has read and what is
still to be read; and what it has not read of that is still to be read. -/
theorem readFrame_of_outcome (hr : pipe.receiving = some r) (hwf : r.WellFormed)
    {answer : Except IpcError (List UInt8)} (hanswer : pipe.outcome = some answer)
    (hmore : pipe.writerGone = true → more = []) :
    (readFrame ⟨pipe.taken ++ pipe.buffer ++ more, none⟩).result = answer ∧
      (readFrame ⟨pipe.taken ++ pipe.buffer ++ more, none⟩).reader =
        ⟨pipe.buffer ++ more, none⟩ := by
  rw [taken_of_receiving hr, List.append_assoc]
  rw [outcome, hr] at hanswer
  cases r with
  | length lenBuf =>
    dsimp only at hanswer
    split at hanswer
    · rename_i hfour
      obtain rfl := Option.some.inj hanswer
      have hlarge : maxMessageBytes < frameLen lenBuf := by
        rcases hwf with hlt | ⟨-, hlarge⟩
        · omega
        · exact hlarge
      rw [Receiving.taken, readFrame_of_large hfour hlarge]
      exact ⟨rfl, rfl⟩
    · rename_i hfour
      split at hanswer
      · rename_i hend
        obtain rfl := Option.some.inj hanswer
        have hlt : lenBuf.length < 4 := hwf.resolve_right fun h => hfour h.1
        rw [hend.1, hmore hend.2, List.append_nil, List.append_nil, Receiving.taken,
          readFrame_of_length_lt hlt]
        exact ⟨rfl, rfl⟩
      · cases hanswer
  | payload len buf =>
    obtain ⟨hmax, hbuf⟩ := hwf
    dsimp only at hanswer
    split at hanswer
    · rename_i hdone
      obtain rfl := Option.some.inj hanswer
      have hframe : (Receiving.payload len buf).taken = frame buf := by
        rw [Receiving.taken, frame, hdone]
      rw [hframe, readFrame_frame_append (hdone ▸ hmax)]
      exact ⟨rfl, rfl⟩
    · rename_i hshort
      split at hanswer
      · rename_i hend
        obtain rfl := Option.some.inj hanswer
        have hlen : frameLen (Bytes.ofU32 (.ofNat len)) = len := frameLen_ofU32_ofNat hmax
        rw [hend.1, hmore hend.2, List.append_nil, List.append_nil, Receiving.taken,
          readFrame_of_short (Bytes.length_ofU32 _) (by rwa [hlen]) (by rw [hlen]; omega)]
        exact ⟨rfl, rfl⟩
      · cases hanswer

/-! ### The recvs, whatever the order of the steps -/

theorem answers_snoc (tr : List (Step Pipe PipeEvent)) (x : Step Pipe PipeEvent) :
    answers (tr ++ [x]) = answers tr ++ (answered x).toList := by
  rw [answers, List.filterMap_append, ← answers]
  cases h : answered x <;> simp [h]

theorem written_snoc (tr : List (Step Pipe PipeEvent)) (x : Step Pipe PipeEvent) :
    written (tr ++ [x]) = written tr ++ wrote x := by
  rw [written, List.flatMap_append, List.flatMap_singleton, ← written]

/-- **Bytes are only moved**: what is read of a frame and what is in the buffer is what was there
before and what is written, less the frame that is answered. -/
theorem taken_append_buffer (hstep : pipe.step e = some pipe')
    (hkept : RecvKept ⟨pipe, e, pipe'⟩) :
    pipe'.taken ++ pipe'.buffer =
      (if e = .received then [] else pipe.taken) ++ pipe.buffer ++ wrote ⟨pipe, e, pipe'⟩ := by
  cases e <;> simp only [step, Option.bind_eq_some_iff, Option.ite_none_right_eq_some,
    Option.some.injEq] at hstep
  case send payload =>
    obtain ⟨-, rfl⟩ := hstep
    split <;> simp [wrote, taken]
  case write n =>
    obtain ⟨s, hs, -, rfl⟩ := hstep
    simp [wrote, hs, taken]
  case sent | sendFailed =>
    obtain ⟨s, -, -, rfl⟩ := hstep
    simp [wrote, taken]
  case sendDropped =>
    obtain ⟨s, -, rfl⟩ := hstep
    simp [wrote, taken]
  case recv =>
    obtain ⟨⟨hr, -⟩, rfl⟩ := hstep
    simp [wrote, taken, hr, Receiving.taken]
  case read n =>
    obtain ⟨r, hr, -, rfl⟩ := hstep
    simp [wrote, taken, hr, Receiving.taken_advance]
  case received =>
    obtain ⟨a, -, rfl⟩ := hstep
    simp [wrote, taken]
  case recvDropped =>
    obtain ⟨r, -, rfl⟩ := hstep
    have hnone : pipe.taken = [] := hkept rfl
    rw [hnone]
    simp [wrote, taken]
  case writerDropped | readerDropped =>
    obtain ⟨-, rfl⟩ := hstep
    simp [wrote, taken]

/-- The two ends are in order. -/
structure Ordered (pipe : Pipe) : Prop where
  /-- A writing end that is gone sends nothing. -/
  closed : pipe.writerGone = true → pipe.sending = none
  /-- A write has something to do, unless all of the frame is written. -/
  busy : ∀ s, pipe.sending = some s → s.chunk = [] → s.left = []
  /-- No more is left of a frame than the buffer has room for by default. -/
  room : ∀ s, pipe.sending = some s → s.left.length ≤ defaultDuplexCapacity
  /-- A reading end that is gone receives nothing. -/
  deaf : pipe.readerGone = true → pipe.receiving = none
  /-- What has been read makes sense. -/
  wellFormed : ∀ r, pipe.receiving = some r → r.WellFormed

theorem ordered_new (capacity : ℕ) : Ordered (new capacity) :=
  ⟨nofun, nofun, nofun, nofun, nofun⟩

/-- A step keeps the ends in order, and one that is gone stays gone. -/
theorem Ordered.step (h : Ordered pipe) (hstep : pipe.step e = some pipe') :
    Ordered pipe' ∧ (pipe.writerGone = true → pipe'.writerGone = true) := by
  obtain ⟨hclosed, hbusy, hroom, hdeaf, hwf⟩ := h
  cases e <;> simp only [Pipe.step, Option.bind_eq_some_iff, Option.ite_none_right_eq_some,
    Option.some.injEq] at hstep
  case send payload =>
    obtain ⟨⟨-, hgone⟩, rfl⟩ := hstep
    split
    · exact ⟨⟨hclosed, hbusy, hroom, hdeaf, hwf⟩, id⟩
    · rename_i hsmall
      refine ⟨⟨fun h => absurd h (by simp [hgone]), fun s hs hnil => ?_, fun s hs => ?_, hdeaf,
        hwf⟩, id⟩
      · obtain rfl := Option.some.inj hs
        cases hnil
      · obtain rfl := Option.some.inj hs
        show (frame payload).length ≤ _
        rw [length_frame]
        exact Nat.add_le_add_right (Nat.not_lt.mp hsmall) 4
  case write n =>
    obtain ⟨s, hs, ⟨-, -, hn, -⟩, rfl⟩ := hstep
    refine ⟨⟨fun h => by simp [hclosed h] at hs, fun s' hs' hnil => ?_, fun s' hs' => ?_, hdeaf,
      hwf⟩, id⟩
    · obtain rfl := Option.some.inj hs'
      exact Sending.left_of_chunk_advance hnil
    · obtain rfl := Option.some.inj hs'
      rw [Sending.left_advance hn, List.length_drop]
      exact (Nat.sub_le _ _).trans (hroom s hs)
  case sent | sendFailed =>
    obtain ⟨s, -, -, rfl⟩ := hstep
    exact ⟨⟨fun _ => rfl, nofun, nofun, hdeaf, hwf⟩, id⟩
  case sendDropped =>
    obtain ⟨s, -, rfl⟩ := hstep
    exact ⟨⟨fun _ => rfl, nofun, nofun, hdeaf, hwf⟩, id⟩
  case recv =>
    obtain ⟨⟨-, hgone⟩, rfl⟩ := hstep
    refine ⟨⟨hclosed, hbusy, hroom, fun h => absurd h (by simp [hgone]), fun r hr => ?_⟩, id⟩
    obtain rfl := Option.some.inj hr
    exact .inl (Nat.zero_lt_succ 3)
  case read n =>
    obtain ⟨r, hr, ⟨-, hwants, -⟩, rfl⟩ := hstep
    refine ⟨⟨hclosed, hbusy, hroom, fun h => by simp [hdeaf h] at hr, fun r' hr' => ?_⟩, id⟩
    obtain rfl := Option.some.inj hr'
    exact (hwf r hr).advance ((List.length_take_le _ _).trans hwants)
  case received | recvDropped =>
    obtain ⟨_, -, rfl⟩ := hstep
    exact ⟨⟨hclosed, hbusy, hroom, fun _ => rfl, nofun⟩, id⟩
  case writerDropped =>
    obtain ⟨⟨hs, -⟩, rfl⟩ := hstep
    exact ⟨⟨fun _ => hs, hbusy, hroom, hdeaf, hwf⟩, fun _ => rfl⟩
  case readerDropped =>
    obtain ⟨⟨hr, -⟩, rfl⟩ := hstep
    exact ⟨⟨hclosed, hbusy, hroom, fun _ => hr, hwf⟩, id⟩

theorem capacity_step (hstep : pipe.step e = some pipe') : pipe'.capacity = pipe.capacity := by
  cases e <;> simp only [step, Option.bind_eq_some_iff, Option.ite_none_right_eq_some,
    Option.some.injEq] at hstep
  case send =>
    obtain ⟨-, rfl⟩ := hstep
    split <;> rfl
  case recv | writerDropped | readerDropped =>
    obtain ⟨-, rfl⟩ := hstep
    rfl
  case write | read | sent | sendFailed =>
    obtain ⟨_, -, -, rfl⟩ := hstep
    rfl
  case sendDropped | received | recvDropped =>
    obtain ⟨_, -, rfl⟩ := hstep
    rfl

/-- The buffer keeps its size. -/
theorem capacity_of_run (hrun : Run capacity tr pipe) : pipe.capacity = capacity :=
  hrun.invariant (I := fun _ pipe => pipe.capacity = capacity) rfl
    fun _ _ _ _ _ h hstep => (capacity_step hstep).trans h

theorem wrote_of_sending_none (hs : pipe.sending = none) (e : PipeEvent) (pipe' : Pipe) :
    wrote ⟨pipe, e, pipe'⟩ = [] := by
  rw [wrote, hs]
  cases e <;> rfl

theorem wrote_received (pipe pipe' : Pipe) : wrote ⟨pipe, .received, pipe'⟩ = [] := rfl

/-- In every run the two ends are in order. -/
theorem ordered_of_run (hrun : Run capacity tr pipe) : Ordered pipe :=
  hrun.invariant (I := fun _ pipe => Ordered pipe) (ordered_new capacity)
    fun _ _ _ _ _ h hstep => (h.step hstep).1

/-- The answers of a run are those of reading one frame after the other, whatever is written
later. -/
theorem reads_answers (hrun : Run capacity tr pipe) (hkept : ∀ x ∈ tr, RecvKept x) :
    ∀ later, (pipe.writerGone = true → later = []) →
      Reads ⟨written tr ++ later, none⟩ (answers tr)
        ⟨pipe.taken ++ pipe.buffer ++ later, none⟩ := by
  refine hrun.invariant_where (I := fun tr pipe => ∀ later,
    (pipe.writerGone = true → later = []) →
      Reads ⟨written tr ++ later, none⟩ (answers tr) ⟨pipe.taken ++ pipe.buffer ++ later, none⟩)
    (C := RecvKept) (fun later _ => .nil _) ?_ hkept
  intro tr pipe e pipe' hrun hreads hstep hkept later hlater
  have hord := ordered_of_run hrun
  have hlater' : pipe.writerGone = true → wrote ⟨pipe, e, pipe'⟩ ++ later = [] := fun h => by
    rw [wrote_of_sending_none (hord.closed h), hlater ((hord.step hstep).2 h), List.append_nil]
  have hbefore := hreads _ hlater'
  rw [written_snoc, answers_snoc, List.append_assoc, taken_append_buffer hstep hkept]
  by_cases he : e = .received
  · -- one more frame is read
    subst he
    obtain ⟨answer, hanswer, -⟩ := Option.bind_eq_some_iff.mp hstep
    obtain ⟨r, hr⟩ : ∃ r, pipe.receiving = some r :=
      Option.ne_none_iff_exists'.mp fun hnone => by simp [outcome, hnone] at hanswer
    rw [wrote_received, List.nil_append] at hbefore hlater'
    obtain ⟨hresult, hreader⟩ := readFrame_of_outcome hr (hord.wellFormed r hr) hanswer hlater'
    have hlast := hbefore.snoc
    rw [hresult, hreader] at hlast
    simpa [answered, hanswer, wrote_received] using hlast
  · simpa [answered, he] using hbefore

/-- **The recvs answer what reading one frame after the other gives**, from all the bytes that are
ever written, however they are cut and the steps interleave, if no recv is dropped that has read a
part of a frame. What the recv under way has read and what is in the buffer is still to be read. -/
theorem answers_sequential (hrun : Run capacity tr pipe) (hrecv : ∀ x ∈ tr, RecvKept x)
    (later : List UInt8) (hlater : pipe.writerGone = true → later = []) :
    Reads ⟨written tr ++ later, none⟩ (answers tr) ⟨pipe.taken ++ pipe.buffer ++ later, none⟩ :=
  reads_answers hrun hrecv later hlater

/-- Two messages go through a buffer of three bytes, the recv waiting for them. -/
def twoMessages : List PipeEvent :=
  [.recv, .send [7, 8], .write 3, .read 2, .write 1, .read 2, .write 2, .sent, .read 1,
    .send [], .write 2, .read 1, .received, .recv, .read 2, .write 2, .sent, .writerDropped,
    .read 2, .received, .recv, .received]

theorem recvKept_of_inputs {inputs : List PipeEvent} (h : tr.map Step.input = inputs)
    (hno : .recvDropped ∉ inputs) : ∀ x ∈ tr, RecvKept x := fun _ hx hdropped =>
  absurd (h ▸ hdropped ▸ List.mem_map_of_mem hx) hno

theorem sendKept_of_inputs {inputs : List PipeEvent} (h : tr.map Step.input = inputs)
    (hno : .sendDropped ∉ inputs) : ∀ x ∈ tr, SendKept x := fun _ hx hdropped =>
  absurd (h ▸ hdropped ▸ List.mem_map_of_mem hx) hno

/-- The bytes of two messages are read. -/
theorem answers_sequential_two : ∃ tr pipe, Run 3 tr pipe ∧ tr.map Step.input = twoMessages ∧
    Reads ⟨written tr, none⟩ (answers tr) ⟨pipe.taken ++ pipe.buffer, none⟩ := by
  have hexec : (Transition.exec step (new 3) twoMessages).isSome = true := by decide +kernel
  obtain ⟨tr, pipe, hrun, hinputs⟩ := Transition.exists_run hexec
  have hreads := answers_sequential hrun (recvKept_of_inputs hinputs (by decide)) [] fun _ => rfl
  rw [List.append_nil, List.append_nil] at hreads
  exact ⟨tr, pipe, hrun, hinputs, hreads⟩

/-! ### The sends, whatever the order of the steps -/

end Pipe

/-- Some bytes are the beginning of a frame, and not all of it. -/
def Cut (cut : List UInt8) : Prop :=
  ∃ message left, message.length ≤ maxMessageBytes ∧ left ≠ [] ∧ frame message = cut ++ left

theorem cut_nil : Cut [] := ⟨[], frame [], Nat.zero_le _, nofun, rfl⟩

theorem frame_ne_nil (message : List UInt8) : frame message ≠ [] := fun h => by
  have hlen := length_frame message
  rw [h] at hlen
  cases hlen

/-- **A frame that is cut off is not read**: the stream ends in it. -/
theorem Cut.readFrame {cut : List UInt8} (h : Cut cut) :
    ∃ e len, readFrame ⟨cut, none⟩ = ⟨.error e, ⟨[], none⟩, len⟩ ∧
      (e = .connectionClosed ∨ cut ≠ [] ∧ e = earlyEof.toIpc) := by
  obtain ⟨message, left, hmax, hleft, hframe⟩ := h
  by_cases hlen : cut.length < 4
  · exact ⟨_, _, readFrame_of_length_lt hlen, .inl rfl⟩
  · -- the length is there in full, and so the message is not
    obtain ⟨rest, rfl, hmessage⟩ : ∃ rest, cut = Bytes.ofU32 (.ofNat message.length) ++ rest ∧
        message = rest ++ left := by
      rcases List.append_eq_append_iff.mp hframe with
        ⟨rest, hcut, hmessage⟩ | ⟨rest, hlength, hrest⟩
      · exact ⟨rest, hcut, hmessage⟩
      · have hfour := congrArg List.length hlength
        rw [Bytes.length_ofU32, List.length_append] at hfour
        obtain rfl : rest = [] := List.eq_nil_of_length_eq_zero (by omega)
        rw [List.append_nil] at hlength
        exact ⟨[], by rw [hlength, List.append_nil], hrest.symm⟩
    have hfl := frameLen_ofU32_ofNat hmax
    have hpos := List.length_pos_iff.mpr hleft
    have hshort : rest.length < message.length := by
      rw [hmessage, List.length_append]
      omega
    exact ⟨_, _, readFrame_of_short (Bytes.length_ofU32 _) (hfl.trans_le hmax)
      (hshort.trans_eq hfl.symm), .inr ⟨by simp [Bytes.ofU32], rfl⟩⟩

/-- **Reading the frames of messages, and of one that may be cut off**: first come the messages,
then the stream has ended. -/
theorem Reads.of_frames {messages : List (List UInt8)} {cut : List UInt8}
    {answers : List (Except IpcError (List UInt8))} {rest : Reader}
    (hsmall : ∀ m ∈ messages, m.length ≤ maxMessageBytes) (hcut : Cut cut)
    (h : Reads ⟨(messages.map frame).flatten ++ cut, none⟩ answers rest) :
    (answers.length ≤ messages.length ∧ answers = (messages.take answers.length).map .ok ∧
      rest = ⟨((messages.drop answers.length).map frame).flatten ++ cut, none⟩) ∨
    ∃ errors, errors ≠ [] ∧ answers = messages.map .ok ++ errors.map .error ∧ rest = ⟨[], none⟩ ∧
      ∀ e ∈ errors, e = .connectionClosed ∨ cut ≠ [] ∧ e = earlyEof.toIpc := by
  induction h with
  | nil => exact .inl ⟨Nat.zero_le _, rfl, rfl⟩
  | @snoc rest answers h ih =>
    rcases ih with ⟨hle, hanswers, hrest⟩ | ⟨errors, -, hanswers, hrest, herrors⟩
    · rcases Nat.lt_or_eq_of_le hle with hlt | heq
      · -- the next message is read
        have hmem := List.getElem_mem hlt
        have hread := readFrame_frame_append (hsmall _ hmem)
          (((messages.drop (answers.length + 1)).map frame).flatten ++ cut) none
        rw [List.drop_eq_getElem_cons hlt, List.map_cons, List.flatten_cons,
          List.append_assoc] at hrest
        rw [hrest, hread]
        refine .inl ⟨?_, ?_, ?_⟩
        · rw [List.length_append]
          exact hlt
        · rw [List.length_append, List.length_singleton, List.take_add_one, List.map_append,
            ← hanswers, List.getElem?_eq_getElem hlt]
          rfl
        · rw [List.length_append, List.length_singleton]
      · -- only the last one is left, which is cut off
        obtain ⟨e, len, hread, he⟩ := hcut.readFrame
        rw [heq, List.drop_length] at hrest
        rw [heq, List.take_length] at hanswers
        refine .inr ⟨[e], nofun, ?_, ?_, ?_⟩
        · rw [hrest, hanswers]
          show _ ++ [(Ipc.readFrame ⟨cut, none⟩).result] = _
          rw [hread]
          rfl
        · rw [hrest]
          show (Ipc.readFrame ⟨cut, none⟩).reader = _
          rw [hread]
        · simpa using he
    · -- the stream has ended
      have hread : readFrame rest = ⟨.error .connectionClosed, ⟨[], none⟩, 0⟩ := by
        rw [hrest]
        exact readFrame_of_length_lt (Nat.zero_lt_succ 3)
      refine .inr ⟨errors ++ [.connectionClosed], by simp, ?_, by rw [hread], ?_⟩
      · rw [hread, hanswers, List.map_append, List.append_assoc]
        rfl
      · intro e he
        rcases List.mem_append.mp he with he | he
        · exact herrors e he
        · exact .inl (List.mem_singleton.mp he)

namespace Pipe

variable {pipe pipe' : Pipe} {tr : List (Step Pipe PipeEvent)} {capacity : ℕ} {e : PipeEvent}
  {cut : List UInt8}

theorem sent_snoc (tr : List (Step Pipe PipeEvent)) (x : Step Pipe PipeEvent) :
    sent (tr ++ [x]) = sent tr ++ (finished x).toList := by
  rw [sent, List.filterMap_append, ← sent]
  cases h : finished x <;> simp [h]

/-- What is written of a frame is of the send that is under way, or, once nobody reads any more,
of one that was given up. -/
inductive Underway (pipe : Pipe) (cut : List UInt8) : Prop
  /-- No send is under way. -/
  | idle : pipe.sending = none → cut = [] → Underway pipe cut
  /-- A send is under way. -/
  | live (s : Sending) : pipe.sending = some s → s.WellFormed cut → Underway pipe cut
  /-- A send was given up, and no other will be done. -/
  | stale : pipe.readerGone = true → (∀ s, pipe.sending = some s → s.left ≠ []) → Cut cut →
      Underway pipe cut

theorem Underway.congr (h : Underway pipe cut) (hs : pipe'.sending = pipe.sending)
    (hgone : pipe.readerGone = true → pipe'.readerGone = true) : Underway pipe' cut := by
  cases h with
  | idle hnone hcut => exact .idle (hs.trans hnone) hcut
  | live s hsome hwf => exact .live s (hs.trans hsome) hwf
  | stale hreader hleft hcut => exact .stale (hgone hreader) (hs ▸ hleft) hcut

/-- What was written of a frame and what a step writes is the frame whose send is done in it, and
what is written of a frame now. -/
structure Framed (x : Step Pipe PipeEvent) (cut cut' : List UInt8) : Prop where
  /-- The bytes are those of frames. -/
  bytes : cut ++ wrote x = ((finished x).toList.map frame).flatten ++ cut'
  /-- A message whose send is done is not too large. -/
  small : ∀ m ∈ finished x, m.length ≤ maxMessageBytes
  /-- The rest is written of a send that is under way, or was given up. -/
  underway : x.post.Underway cut'

theorem framed_of_quiet {x : Step Pipe PipeEvent} (hw : wrote x = []) (hf : finished x = none)
    (h : x.post.Underway cut) : ∃ cut', Framed x cut cut' :=
  ⟨cut, by rw [hw, hf, List.append_nil]; rfl, by simp [hf], h⟩

/-- **A step keeps what is written in frames**, if it drops no send that has written a part of
one. -/
theorem Underway.step (h : Underway pipe cut) (hstep : pipe.step e = some pipe')
    (hkept : SendKept ⟨pipe, e, pipe'⟩) : ∃ cut', Framed ⟨pipe, e, pipe'⟩ cut cut' := by
  cases e <;> simp only [Pipe.step, Option.bind_eq_some_iff, Option.ite_none_right_eq_some,
    Option.some.injEq] at hstep
  case send payload =>
    obtain ⟨⟨hs, -⟩, rfl⟩ := hstep
    refine framed_of_quiet rfl rfl ?_
    split
    · exact h
    · rename_i hsmall
      cases h with
      | idle _ hcut =>
        rw [hcut]
        exact .live _ rfl (Sending.wellFormed_start (Nat.not_lt.mp hsmall))
      | live s hsome _ => cases hs.symm.trans hsome
      | stale hreader _ hcut =>
        refine .stale hreader (fun s hsome => ?_) hcut
        obtain rfl := Option.some.inj hsome
        exact frame_ne_nil payload
  case write n =>
    obtain ⟨s, hs, ⟨hreader, -, hn, -⟩, rfl⟩ := hstep
    cases h with
    | idle hnone _ => cases hnone.symm.trans hs
    | live s' hsome hwf =>
      obtain rfl := Option.some.inj (hs.symm.trans hsome)
      refine ⟨_, ?_, ?_, .live _ rfl (hwf.advance hn)⟩
      · simp [wrote, finished, hs]
      · simp [finished]
    | stale hgone _ _ => cases hreader.symm.trans hgone
  case sent =>
    obtain ⟨s, hs, hleft, rfl⟩ := hstep
    cases h with
    | idle hnone _ => cases hnone.symm.trans hs
    | live s' hsome hwf =>
      obtain rfl := Option.some.inj (hs.symm.trans hsome)
      have hframe := hwf.frame_eq
      rw [hleft, List.append_nil] at hframe
      refine ⟨[], ?_, ?_, .idle rfl rfl⟩
      · simp [wrote, finished, hs, hframe]
      · simpa [finished, hs] using hwf.small
    | stale _ hleft' _ => exact absurd hleft (hleft' s hs)
  case sendFailed =>
    obtain ⟨s, hs, ⟨hreader, hleft⟩, rfl⟩ := hstep
    refine framed_of_quiet rfl rfl ?_
    cases h with
    | idle _ hcut => exact .idle rfl hcut
    | live s' hsome hwf =>
      obtain rfl := Option.some.inj (hs.symm.trans hsome)
      exact .stale hreader (fun _ h => by cases h) ⟨_, _, hwf.small, hleft, hwf.frame_eq⟩
    | stale _ _ hcut => exact .stale hreader (fun _ h => by cases h) hcut
  case sendDropped =>
    obtain ⟨s, hs, rfl⟩ := hstep
    refine framed_of_quiet rfl rfl ?_
    cases h with
    | idle _ hcut => exact .idle rfl hcut
    | live s' hsome hwf =>
      obtain rfl := Option.some.inj (hs.symm.trans hsome)
      -- nothing of its frame was written
      have hframe := hwf.frame_eq
      have hstart : s.left = frame s.message := congrArg Sending.left (hkept rfl s hs)
      rw [hstart] at hframe
      exact .idle rfl (List.self_eq_append_left.mp hframe)
    | stale hreader _ hcut => exact .stale hreader (fun _ h => by cases h) hcut
  case recv | writerDropped =>
    obtain ⟨-, rfl⟩ := hstep
    exact framed_of_quiet rfl rfl (h.congr rfl id)
  case readerDropped =>
    obtain ⟨-, rfl⟩ := hstep
    exact framed_of_quiet rfl rfl (h.congr rfl fun _ => rfl)
  case read n =>
    obtain ⟨r, -, -, rfl⟩ := hstep
    exact framed_of_quiet rfl rfl (h.congr rfl id)
  case received | recvDropped =>
    obtain ⟨r, -, rfl⟩ := hstep
    exact framed_of_quiet rfl rfl (h.congr rfl id)

/-- **What has been written is frames**: of the messages whose send is done, of the one that is
written in full, and the beginning of one more. -/
theorem written_frames (hrun : Run capacity tr pipe) (hkept : ∀ x ∈ tr, SendKept x) :
    ∃ cut, Cut cut ∧ written tr = ((sent tr ++ pipe.whole).map frame).flatten ++ cut ∧
      (∀ m ∈ sent tr ++ pipe.whole, m.length ≤ maxMessageBytes) ∧
      (pipe.readerGone = false → pipe.sending = none → cut = []) := by
  obtain ⟨cut, hwritten, hsmall, hunder⟩ : ∃ cut,
      written tr = ((sent tr).map frame).flatten ++ cut ∧
        (∀ m ∈ sent tr, m.length ≤ maxMessageBytes) ∧ Underway pipe cut := by
    refine hrun.invariant_where (C := SendKept) (I := fun tr pipe => ∃ cut,
      written tr = ((sent tr).map frame).flatten ++ cut ∧
        (∀ m ∈ sent tr, m.length ≤ maxMessageBytes) ∧ Underway pipe cut) ?_ ?_ hkept
    · exact ⟨[], rfl, by simp [sent], .idle rfl rfl⟩
    · rintro tr pipe e pipe' - ⟨cut, hwritten, hsmall, hunder⟩ hstep hkept
      obtain ⟨cut', hbytes, hlast, hunder'⟩ := hunder.step hstep hkept
      refine ⟨cut', ?_, fun m hm => ?_, hunder'⟩
      · rw [written_snoc, sent_snoc, hwritten, List.append_assoc, hbytes]
        simp
      · rw [sent_snoc] at hm
        rcases List.mem_append.mp hm with hm | hm
        · exact hsmall m hm
        · exact hlast m (Option.mem_toList.mp hm)
  cases hunder with
  | idle hnone hcut =>
    have hwhole : pipe.whole = [] := by simp [whole, hnone]
    rw [hwhole, List.append_nil]
    exact ⟨cut, hcut ▸ cut_nil, hwritten, hsmall, fun _ _ => hcut⟩
  | live s hs hwf =>
    by_cases hleft : s.left = []
    · have hwhole : pipe.whole = [s.message] := by simp [whole, hs, hleft]
      have hframe := hwf.frame_eq
      rw [hleft, List.append_nil] at hframe
      refine ⟨[], cut_nil, ?_, fun m hm => ?_, fun _ _ => rfl⟩
      · rw [hwritten, hwhole, ← hframe]
        simp
      · rw [hwhole] at hm
        rcases List.mem_append.mp hm with hm | hm
        · exact hsmall m hm
        · exact List.mem_singleton.mp hm ▸ hwf.small
    · have hwhole : pipe.whole = [] := by simp [whole, hs, hleft]
      rw [hwhole, List.append_nil]
      refine ⟨cut, ⟨_, _, hwf.small, hleft, hwf.frame_eq⟩, hwritten, hsmall, fun _ hnone => ?_⟩
      cases hnone.symm.trans hs
  | stale hreader hleft hcut =>
    have hwhole : pipe.whole = [] := by
      cases hs : pipe.sending with
      | none => simp [whole, hs]
      | some s => simp [whole, hs, hleft s hs]
    rw [hwhole, List.append_nil]
    exact ⟨cut, hcut, hwritten, hsmall, fun hfalse => by cases hreader.symm.trans hfalse⟩

/-! ### What arrives -/

/-- The answers stand against the messages: the first of them have been received, or all have and
then the end was seen. -/
theorem answers_cases (hrun : Run capacity tr pipe) (hrecv : ∀ x ∈ tr, RecvKept x)
    (hsend : ∀ x ∈ tr, SendKept x) :
    (∃ left cut, sent tr ++ pipe.whole = received tr ++ left ∧
      answers tr = (received tr).map .ok ∧
      pipe.taken ++ pipe.buffer = (left.map frame).flatten ++ cut ∧ Cut cut) ∨
    ∃ errors : List IpcError, received tr = sent tr ++ pipe.whole ∧
      answers tr = (received tr).map .ok ++ errors.map .error := by
  obtain ⟨cut, hcut, hwritten, hsmall, -⟩ := written_frames hrun hsend
  have hoks : ∀ l : List (List UInt8), (l.map Except.ok).filterMap
      (Except.toOption : Except IpcError _ → _) = l := fun l => by
    rw [List.filterMap_map]
    exact List.filterMap_some
  have hfrom := reads_answers hrun hrecv [] fun _ => rfl
  rw [List.append_nil, List.append_nil, hwritten] at hfrom
  rcases hfrom.of_frames hsmall hcut with ⟨-, hanswers, hrest⟩ | ⟨errors, -, hanswers, -, -⟩
  · have hreceived : received tr = (sent tr ++ pipe.whole).take (answers tr).length := by
      rw [received, hanswers, hoks, ← hanswers]
    refine .inl ⟨(sent tr ++ pipe.whole).drop (answers tr).length, cut, ?_, ?_, ?_, hcut⟩
    · rw [hreceived, List.take_append_drop]
    · rw [hreceived, ← hanswers]
    · exact congrArg Reader.bytes hrest
  · have hreceived : received tr = sent tr ++ pipe.whole := by
      rw [received, hanswers, List.filterMap_append, hoks, List.filterMap_map]
      exact (congrArg _ (List.filterMap_none _)).trans (List.append_nil _)
    exact .inr ⟨errors, hreceived, by rw [hreceived, hanswers]⟩

/-- **A recv fails only at the end.** -/
theorem outcome_error (hrun : Run capacity tr pipe) (hrecv : ∀ x ∈ tr, RecvKept x)
    (hsend : ∀ x ∈ tr, SendKept x) {e : IpcError} (h : pipe.outcome = some (.error e)) :
    e = .connectionClosed ∧ pipe.writerGone = true := by
  have hord := ordered_of_run hrun
  obtain ⟨cut, hcut, hwritten, hsmall, hend⟩ := written_frames hrun hsend
  obtain ⟨r, hr⟩ : ∃ r, pipe.receiving = some r :=
    Option.ne_none_iff_exists'.mp fun hnone => by simp [outcome, hnone] at h
  have hreader : pipe.readerGone = false := by
    rw [← Bool.not_eq_true]
    exact fun hgone => by cases hr.symm.trans (hord.deaf hgone)
  -- the failure is what reading one more frame gives
  have hlast := (reads_answers hrun hrecv [] fun _ => rfl).snoc
  rw [(readFrame_of_outcome hr (hord.wellFormed r hr) h fun _ => rfl).1, List.append_nil,
    hwritten] at hlast
  have he : e = .connectionClosed ∨ cut ≠ [] ∧ e = earlyEof.toIpc := by
    have hmem : (.error e : Except IpcError (List UInt8)) ∈ answers tr ++ [.error e] := by simp
    rcases hlast.of_frames hsmall hcut with ⟨-, hanswers, -⟩ | ⟨errors, -, hanswers, -, herrors⟩
    · rw [hanswers] at hmem
      obtain ⟨_, -, hok⟩ := List.mem_map.mp hmem
      cases hok
    · rw [hanswers] at hmem
      rcases List.mem_append.mp hmem with hmem | hmem
      · obtain ⟨_, -, hok⟩ := List.mem_map.mp hmem
        cases hok
      · obtain ⟨e', he', heq⟩ := List.mem_map.mp hmem
        cases heq
        exact herrors e he'
  have hgone : pipe.buffer = [] ∧ pipe.writerGone = true := by
    rw [outcome, hr] at h
    cases r with
    | length lenBuf =>
      dsimp only at h
      split at h
      · obtain rfl : e = .messageTooLarge (.ofNat (frameLen lenBuf)) := by cases h; rfl
        rcases he with he | ⟨-, he⟩ <;> cases he
      · split at h
        · assumption
        · cases h
    | payload len buf =>
      dsimp only at h
      split at h
      · cases h
      · split at h
        · assumption
        · cases h
  refine ⟨he.resolve_right fun hcut' => hcut'.1 ?_, hgone.2⟩
  exact hend hreader (hord.closed hgone.2)

/-- Where a recv has failed, the end has come, and everything has been received. -/
theorem closed_of_error (hrun : Run capacity tr pipe) (hrecv : ∀ x ∈ tr, RecvKept x)
    (hsend : ∀ x ∈ tr, SendKept x) {e : IpcError} (he : .error e ∈ answers tr) :
    e = .connectionClosed ∧ pipe.writerGone = true ∧ received tr = sent tr := by
  have hcases := answers_cases hrun hrecv hsend
  -- the end that was seen then is the end now
  obtain ⟨x, hx, hanswered⟩ := List.mem_filterMap.mp he
  obtain ⟨before, after, rfl, hbefore, hstep, hafter⟩ := hrun.of_mem hx
  have houtcome : x.pre.outcome = some (.error e) := by
    rw [answered] at hanswered
    split at hanswered
    · exact hanswered
    · cases hanswered
  obtain ⟨hclosed, hgone⟩ := outcome_error hbefore
    (fun y hy => hrecv y (List.mem_append_left _ hy))
    (fun y hy => hsend y (List.mem_append_left _ hy)) houtcome
  obtain ⟨hord, hgone'⟩ := (ordered_of_run hbefore).step hstep
  have hlast : Ordered pipe ∧ pipe.writerGone = true :=
    hafter.invariant (I := fun _ pipe => Ordered pipe ∧ pipe.writerGone = true)
      ⟨hord, hgone' hgone⟩ fun _ _ _ _ _ ⟨ho, hg⟩ hs => ⟨(ho.step hs).1, (ho.step hs).2 hg⟩
  have hwhole : pipe.whole = [] := by simp [whole, hlast.1.closed hlast.2]
  rw [hwhole, List.append_nil] at hcases
  refine ⟨hclosed, hlast.2, ?_⟩
  rcases hcases with ⟨_, _, -, hanswers, -⟩ | ⟨-, hall, -⟩
  · rw [hanswers] at he
    obtain ⟨_, -, hok⟩ := List.mem_map.mp he
    cases hok
  · exact hall

/-- **Every message arrives exactly once, in order.** What has been received are the first of the
messages whose send is done, or that are written in full; nothing is lost on the way; and a recv
fails only at the end, with everything received. -/
theorem messages_delivered (hrun : Run capacity tr pipe) (hrecv : ∀ x ∈ tr, RecvKept x)
    (hsend : ∀ x ∈ tr, SendKept x) :
    received tr <+: sent tr ++ pipe.whole ∧
    (pipe.buffer = [] → pipe.taken = [] → received tr = sent tr ++ pipe.whole) ∧
    ∀ e, .error e ∈ answers tr →
      e = .connectionClosed ∧ pipe.writerGone = true ∧ received tr = sent tr := by
  have hcases := answers_cases hrun hrecv hsend
  refine ⟨?_, fun hbuffer htaken => ?_, fun e he => closed_of_error hrun hrecv hsend he⟩
  · rcases hcases with ⟨left, -, hall, -⟩ | ⟨-, hall, -⟩
    · exact ⟨left, hall.symm⟩
    · exact hall ▸ List.prefix_rfl
  · rcases hcases with ⟨left, cut, hall, -, hrest, -⟩ | ⟨-, hall, -⟩
    · rw [hbuffer, htaken] at hrest
      cases left with
      | nil => rw [hall, List.append_nil]
      | cons m left =>
        have hnil := (List.append_eq_nil_iff.mp hrest.symm).1
        rw [List.map_cons, List.flatten_cons] at hnil
        exact absurd (List.append_eq_nil_iff.mp hnil).1 (frame_ne_nil m)
    · exact hall

/-- Two messages arrive, and then the end. -/
theorem messages_delivered_two : ∃ tr pipe, Run 3 tr pipe ∧ tr.map Step.input = twoMessages ∧
    answers tr = [.ok [7, 8], .ok [], .error .connectionClosed] ∧ received tr = sent tr := by
  have hexec : (Transition.exec step (new 3) twoMessages).any
      (fun p => decide (answers p.1 = [.ok [7, 8], .ok [], .error .connectionClosed])) = true := by
    decide +kernel
  obtain ⟨tr, pipe, hrun, hinputs, hanswers⟩ := Transition.exists_run_where hexec
  have hall := of_decide_eq_true hanswers
  refine ⟨tr, pipe, hrun, hinputs, hall, ?_⟩
  have hdelivered := messages_delivered hrun (recvKept_of_inputs hinputs (by decide))
    (sendKept_of_inputs hinputs (by decide))
  exact (hdelivered.2.2 .connectionClosed (by simp [hall])).2.2

end Pipe

end Ipc

end DevBrowse
