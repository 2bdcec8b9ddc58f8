import DevBrowse.Ipc.Connection

/-!
# Waiting ends

A send waits for room in the buffer and a recv for bytes, and each makes what the other waits for.
Here the ends are left alone: no operation begins, and none is dropped. What is left to happen is
that bytes are moved and that operations which are done return (`Ipc.Pipe.Moves`). However these
steps are chosen, there are only so many of them, and when no more is possible

* a recv under way has returned, if a message was on its way or the writing end was gone
  (`Ipc.Pipe.recv_returns`), with the next message, or with the end;
* a send under way has returned, if what was left of it had room in the buffer
  (`Ipc.Pipe.send_returns`), whether anybody reads or not.

So two ends with a send and a recv under way do not wait for each other, with a buffer of a single
byte, and the buffer that is made by default has room for any one message.
-/

namespace DevBrowse

namespace Ipc

open Network (IpcError)

open Transition (Step)

namespace Pipe

/-- Events that need nobody: bytes are moved, and operations that are done return. -/
def onItsOwn : PipeEvent → Bool
  | .write _ | .sent | .read _ | .received => true
  | _ => false

/-- The steps that are taken while the ends wait. -/
def Moves (pipe : Pipe) (e : PipeEvent) (pipe' : Pipe) : Prop :=
  onItsOwn e = true ∧ pipe.step e = some pipe'

/-- Nothing happens any more while the ends wait. -/
def Stuck (pipe : Pipe) : Prop := ∀ e pipe', ¬ Moves pipe e pipe'

/-- The bytes a send under way has still to write. -/
def unwritten (pipe : Pipe) : ℕ := (pipe.sending.map fun s => s.left.length).getD 0

/-- What is left to be done: each byte is written and read, and the operations return. -/
def work (pipe : Pipe) : ℕ :=
  2 * pipe.unwritten + pipe.buffer.length + pipe.sending.toList.length +
    pipe.receiving.toList.length

/-- The message that is being sent. -/
def underway (pipe : Pipe) : List (List UInt8) := (pipe.sending.map Sending.message).toList

variable {pipe pipe' : Pipe} {tr moves : List (Step Pipe PipeEvent)} {capacity : ℕ}
  {e : PipeEvent}

theorem whole_prefix_underway (pipe : Pipe) : pipe.whole <+: pipe.underway := by
  rw [whole, underway]
  cases pipe.sending with
  | none => exact List.prefix_rfl
  | some s => by_cases hleft : s.left = [] <;> simp [Option.filter, hleft]

/-! ### One step -/

theorem Moves.cases (h : Moves pipe e pipe') :
    (∃ n s, e = .write n ∧ pipe.sending = some s ∧ pipe.readerGone = false ∧ 1 ≤ n ∧
      n ≤ s.chunk.length ∧ pipe.buffer.length + n ≤ pipe.capacity ∧
      pipe' = { pipe with
        buffer := pipe.buffer ++ s.chunk.take n, sending := some (s.advance n) }) ∨
    (∃ s, e = .sent ∧ pipe.sending = some s ∧ s.left = [] ∧
      pipe' = { pipe with sending := none }) ∨
    (∃ n r, e = .read n ∧ pipe.receiving = some r ∧ 1 ≤ n ∧ n ≤ r.wants ∧
      n ≤ pipe.buffer.length ∧ pipe' = { pipe with
        buffer := pipe.buffer.drop n, receiving := some (r.advance (pipe.buffer.take n)) }) ∨
    ∃ answer, e = .received ∧ pipe.outcome = some answer ∧
      pipe' = { pipe with receiving := none } := by
  obtain ⟨hown, hstep⟩ := h
  cases e <;> simp only [onItsOwn, Bool.false_eq_true] at hown <;>
    simp only [step, Option.bind_eq_some_iff, Option.ite_none_right_eq_some,
      Option.some.injEq] at hstep
  case write n =>
    obtain ⟨s, hs, ⟨hreader, hpos, hn, hroom⟩, rfl⟩ := hstep
    exact .inl ⟨n, s, rfl, hs, hreader, hpos, hn, hroom, rfl⟩
  case sent =>
    obtain ⟨s, hs, hleft, rfl⟩ := hstep
    exact .inr (.inl ⟨s, rfl, hs, hleft, rfl⟩)
  case read n =>
    obtain ⟨r, hr, ⟨hpos, hwants, hbuffer⟩, rfl⟩ := hstep
    exact .inr (.inr (.inl ⟨n, r, rfl, hr, hpos, hwants, hbuffer, rfl⟩))
  case received =>
    obtain ⟨answer, hanswer, rfl⟩ := hstep
    exact .inr (.inr (.inr ⟨answer, rfl, hanswer, rfl⟩))

theorem length_left_advance {s : Sending} {n : ℕ} (hn : n ≤ s.chunk.length) :
    (s.advance n).left.length + n = s.left.length := by
  have hle : n ≤ s.left.length := by
    cases s with
    | length message left =>
      show n ≤ (left ++ message).length
      rw [List.length_append]
      exact hn.trans (Nat.le_add_right _ _)
    | payload message left => exact hn
  rw [Sending.left_advance hn, List.length_drop]
  omega

/-- **Each step leaves less to do.** -/
theorem Moves.work_lt (h : Moves pipe e pipe') : pipe'.work < pipe.work := by
  rcases h.cases with ⟨n, s, -, hs, -, hpos, hn, -, rfl⟩ | ⟨s, -, hs, hleft, rfl⟩ |
    ⟨n, r, -, hr, hpos, -, hbuffer, rfl⟩ | ⟨answer, -, hanswer, rfl⟩
  · have hlen := length_left_advance hn
    have htake : (s.chunk.take n).length = n := List.length_take_of_le hn
    simp only [work, unwritten, hs, Option.map_some, Option.getD_some, List.length_append, htake,
      Option.toList_some, List.length_singleton]
    omega
  · simp [work, unwritten, hs, hleft]
  · simp only [work, unwritten, hr, List.length_drop, Option.toList_some, List.length_singleton]
    omega
  · have hr : pipe.receiving ≠ none := fun hnone => by simp [outcome, hnone] at hanswer
    obtain ⟨r, hr⟩ := Option.ne_none_iff_exists'.mp hr
    simp [work, unwritten, hr]

/-- What is left to write and what is in the buffer takes no more room. -/
theorem Moves.room_le (h : Moves pipe e pipe') :
    pipe'.unwritten + pipe'.buffer.length ≤ pipe.unwritten + pipe.buffer.length := by
  rcases h.cases with ⟨n, s, -, hs, -, -, hn, -, rfl⟩ | ⟨s, -, hs, -, rfl⟩ |
    ⟨n, r, -, -, -, -, -, rfl⟩ | ⟨answer, -, -, rfl⟩
  · have hlen := length_left_advance hn
    have htake : (s.chunk.take n).length = n := List.length_take_of_le hn
    simp only [unwritten, hs, Option.map_some, Option.getD_some, List.length_append, htake]
    omega
  · simp [unwritten]
  · simp only [unwritten, List.length_drop]
    omega
  · rfl

/-! ### Where nothing happens any more -/

theorem Stuck.eq_none (h : Stuck pipe) (he : onItsOwn e = true) : pipe.step e = none := by
  cases hstep : pipe.step e with
  | none => rfl
  | some pipe' => exact absurd ⟨he, hstep⟩ (h e pipe')

theorem Stuck.outcome (h : Stuck pipe) : pipe.outcome = none := by
  have hnone : pipe.step .received = none := h.eq_none rfl
  cases houtcome : pipe.outcome with
  | none => rfl
  | some answer => simp [step, houtcome] at hnone

/-- **A send that waits has no room**, or nobody to read. -/
theorem Stuck.full (h : Stuck pipe) (hord : Ordered pipe) (hreader : pipe.readerGone = false)
    (hs : pipe.sending ≠ none) : pipe.capacity ≤ pipe.buffer.length ∧ 1 ≤ pipe.unwritten := by
  obtain ⟨s, hs⟩ := Option.ne_none_iff_exists'.mp hs
  have hleft : s.left ≠ [] := fun hnil => by
    have hnone : pipe.step .sent = none := h.eq_none rfl
    simp [step, hs, hnil] at hnone
  have hchunk : s.chunk ≠ [] := fun hnil => hleft (hord.busy s hs hnil)
  have hone : 1 ≤ s.chunk.length := List.length_pos_iff.mpr hchunk
  refine ⟨Nat.le_of_not_lt fun hroom => ?_, ?_⟩
  · have hnone : pipe.step (.write 1) = none := h.eq_none rfl
    have hroom' : pipe.buffer.length + 1 ≤ pipe.capacity := hroom
    simp [step, hs, hreader, hone, hroom'] at hnone
  · rw [unwritten, hs]
    exact List.length_pos_iff.mpr hleft

/-- **A recv that waits finds the buffer empty**, in the middle of a frame. -/
theorem Stuck.empty (h : Stuck pipe) {r : Receiving} (hr : pipe.receiving = some r)
    (hwf : r.WellFormed) :
    pipe.buffer = [] ∧ pipe.writerGone = false ∧
      ∀ answer, (readFrame ⟨r.taken, none⟩).result ≠ .ok answer := by
  have houtcome := h.outcome
  have hread : ∀ n, pipe.step (.read n) = none := fun n => h.eq_none rfl
  have hwants : 1 ≤ r.wants ∧ ∀ answer, (readFrame ⟨r.taken, none⟩).result ≠ .ok answer := by
    rw [Pipe.outcome, hr] at houtcome
    cases r with
    | length lenBuf =>
      have hlt : lenBuf.length < 4 := by
        refine hwf.resolve_right fun hfour => ?_
        simp [hfour.1] at houtcome
      refine ⟨Nat.sub_pos_of_lt hlt, fun answer hok => ?_⟩
      rw [Receiving.taken, readFrame_of_length_lt hlt] at hok
      cases hok
    | payload len buf =>
      have hlt : buf.length < len := by
        refine Nat.lt_of_le_of_ne hwf.2 fun hdone => ?_
        simp [hdone] at houtcome
      have hlen := frameLen_ofU32_ofNat hwf.1
      refine ⟨Nat.sub_pos_of_lt hlt, fun answer hok => ?_⟩
      rw [Receiving.taken, readFrame_of_short (Bytes.length_ofU32 _) (hlen.trans_le hwf.1)
        (hlt.trans_eq hlen.symm)] at hok
      cases hok
  have hbuffer : pipe.buffer = [] := by
    by_contra hne
    have hone : 1 ≤ pipe.buffer.length := List.length_pos_iff.mpr hne
    simpa [step, hr, hwants.1, hone] using hread 1
  refine ⟨hbuffer, ?_, hwants.2⟩
  rw [← Bool.not_eq_true]
  intro hgone
  rw [Pipe.outcome, hr] at houtcome
  -- at the end of the stream there is an answer
  cases r <;> simp only [hbuffer, hgone, and_self, if_true] at houtcome <;>
    split at houtcome <;> cases houtcome

/-! ### Runs of an unattended connection -/

/-- What does not change while the ends wait. -/
theorem Moves.same (h : Moves pipe e pipe') :
    pipe'.capacity = pipe.capacity ∧ pipe'.writerGone = pipe.writerGone ∧
      pipe'.readerGone = pipe.readerGone ∧
      (finished ⟨pipe, e, pipe'⟩).toList ++ pipe'.underway = pipe.underway := by
  rcases h.cases with ⟨n, s, rfl, hs, -, -, -, -, rfl⟩ | ⟨s, rfl, hs, -, rfl⟩ |
    ⟨n, r, rfl, -, -, -, -, rfl⟩ | ⟨answer, rfl, -, rfl⟩
  · exact ⟨rfl, rfl, rfl, by simp [finished, underway, hs, Sending.message_advance]⟩
  · exact ⟨rfl, rfl, rfl, by simp [finished, underway, hs]⟩
  · exact ⟨rfl, rfl, rfl, rfl⟩
  · exact ⟨rfl, rfl, rfl, rfl⟩

theorem same_of_moves (h : Transition.Run Moves pipe moves pipe') :
    pipe'.capacity = pipe.capacity ∧ pipe'.writerGone = pipe.writerGone ∧
      pipe'.readerGone = pipe.readerGone ∧ sent moves ++ pipe'.underway = pipe.underway := by
  induction h with
  | nil => exact ⟨rfl, rfl, rfl, rfl⟩
  | snoc _ hmove ih =>
    obtain ⟨hcapacity, hwriter, hreader, hsent⟩ := ih
    obtain ⟨hcapacity', hwriter', hreader', hsent'⟩ := hmove.same
    refine ⟨hcapacity'.trans hcapacity, hwriter'.trans hwriter, hreader'.trans hreader, ?_⟩
    rw [sent_snoc, List.append_assoc, hsent', hsent]

/-- A recv under way answers once, and then it is no more. -/
theorem answers_of_moves (h : Transition.Run Moves pipe moves pipe')
    (hr : pipe.receiving ≠ none) :
    (answers moves = [] ∧ pipe'.receiving ≠ none) ∨
      ∃ answer, answers moves = [answer] ∧ pipe'.receiving = none := by
  induction h with
  | nil => exact .inl ⟨rfl, hr⟩
  | @snoc moves pipe₁ pipe₂ e _ hmove ih =>
    rw [answers_snoc]
    rcases hmove.cases with ⟨n, s, rfl, hs, -, -, -, -, rfl⟩ | ⟨s, rfl, hs, -, rfl⟩ |
      ⟨n, r, rfl, hr₁, -, -, -, rfl⟩ | ⟨answer, rfl, houtcome, rfl⟩
    · simpa [answered] using ih
    · simpa [answered] using ih
    · rcases ih with ⟨hnil, -⟩ | ⟨_, -, hnone⟩
      · exact .inl ⟨by simp [answered, hnil], by simp⟩
      · cases hr₁.symm.trans hnone
    · rcases ih with ⟨hnil, -⟩ | ⟨_, -, hnone⟩
      · exact .inr ⟨answer, by simp [answered, hnil, houtcome], rfl⟩
      · simp [outcome, hnone] at houtcome

theorem received_append (tr moves : List (Step Pipe PipeEvent)) :
    received (tr ++ moves) = received tr ++ received moves := by
  rw [received, answers, List.filterMap_append, List.filterMap_append]
  rfl

theorem sent_append (tr moves : List (Step Pipe PipeEvent)) :
    sent (tr ++ moves) = sent tr ++ sent moves := by
  rw [sent, List.filterMap_append]
  rfl

/-- The steps of an unattended connection drop nothing. -/
theorem kept_of_moves (h : Transition.Run Moves pipe moves pipe') :
    (∀ x ∈ moves, RecvKept x) ∧ ∀ x ∈ moves, SendKept x := by
  refine ⟨fun x hx hdropped => ?_, fun x hx hdropped => ?_⟩ <;>
  · obtain ⟨_, _, -, -, hmove, -⟩ := h.of_mem hx
    have hown := hmove.1
    rw [hdropped] at hown
    cases hown

theorem received_of_answers {answer : Except IpcError (List UInt8)}
    (h : answers moves = [answer]) : received moves = answer.toOption.toList := by
  rw [received, h]
  cases answer <;> rfl

/-- What has been received is the beginning of what has been sent. -/
theorem received_prefix (hrun : Run capacity tr pipe) (hrecv : ∀ x ∈ tr, RecvKept x)
    (hsend : ∀ x ∈ tr, SendKept x) : received tr <+: sent tr ++ pipe.underway := by
  obtain ⟨rest, hrest⟩ := pipe.whole_prefix_underway
  rw [← hrest, ← List.append_assoc]
  rcases answers_cases hrun hrecv hsend with ⟨left, _, hleft, -⟩ | ⟨-, hall, -⟩
  · exact ⟨left ++ rest, by rw [hleft, List.append_assoc]⟩
  · exact ⟨rest, by rw [hall]⟩

/-- **A recv that still waits where nothing happens any more** has all messages behind it, and
the writing end is there. -/
theorem received_of_stuck (hrun : Run capacity tr pipe) (hrecv : ∀ x ∈ tr, RecvKept x)
    (hsend : ∀ x ∈ tr, SendKept x) (hcapacity : 0 < capacity) (hstuck : Stuck pipe)
    (hr : pipe.receiving ≠ none) :
    pipe.writerGone = false ∧ received tr = sent tr ++ pipe.underway := by
  have hord := ordered_of_run hrun
  obtain ⟨r, hr⟩ := Option.ne_none_iff_exists'.mp hr
  obtain ⟨hbuffer, hgone, hnot⟩ := hstuck.empty hr (hord.wellFormed r hr)
  have hreader : pipe.readerGone = false := by
    rw [← Bool.not_eq_true]
    exact fun h => by cases hr.symm.trans (hord.deaf h)
  -- a send under way would have room
  have hs : pipe.sending = none := by
    by_contra hs
    have hfull := (hstuck.full hord hreader hs).1
    rw [hbuffer, capacity_of_run hrun] at hfull
    exact absurd hcapacity (Nat.not_lt.mpr hfull)
  have hunder : pipe.underway = [] := by rw [underway, hs]; rfl
  have hwhole : pipe.whole = [] := by rw [whole, hs]; rfl
  refine ⟨hgone, ?_⟩
  obtain ⟨-, -, -, hsmall, -⟩ := written_frames hrun hsend
  have hcases := answers_cases hrun hrecv hsend
  rw [hwhole, List.append_nil] at hsmall hcases
  rw [hunder, List.append_nil]
  rcases hcases with ⟨left, cut, hleft, -, hbytes, -⟩ | ⟨-, hall, -⟩
  · cases left with
    | nil => rw [hleft, List.append_nil]
    | cons m left =>
      -- the recv would have a message in its hands
      have hm : m ∈ sent tr := by simp [hleft]
      rw [hbuffer, List.append_nil, taken_of_receiving hr, List.map_cons, List.flatten_cons,
        List.append_assoc] at hbytes
      refine absurd ?_ (hnot m)
      rw [hbytes, readFrame_frame_append (hsmall m hm)]
  · exact hall

/-- **A recv does not wait for ever.** While the ends wait there are only so many steps, however
they are chosen; and when no more is possible the recv under way has answered, with the next of
the messages, or with the end where there is none and the writing end is gone. -/
theorem recv_returns (hrun : Run capacity tr pipe) (hrecv : ∀ x ∈ tr, RecvKept x)
    (hsend : ∀ x ∈ tr, SendKept x) (hcapacity : 0 < capacity) (hr : pipe.receiving ≠ none)
    (hmessage : (received tr).length < (sent tr ++ pipe.underway).length ∨
      pipe.writerGone = true)
    (hmoves : Transition.Run Moves pipe moves pipe') :
    moves.length ≤ pipe.work ∧ (Stuck pipe' → answers moves =
      [((sent tr ++ pipe.underway)[(received tr).length]?).elim
        (.error .connectionClosed) .ok]) := by
  refine ⟨?_, fun hstuck => ?_⟩
  · have hlen := hmoves.length_add_le fun _ _ _ h => Moves.work_lt h
    omega
  -- all that has happened is one run
  obtain ⟨-, hwriter, -, hunder⟩ := same_of_moves hmoves
  obtain ⟨hrecv', hsend'⟩ := kept_of_moves hmoves
  have hrun' : Run capacity (tr ++ moves) pipe' := hrun.trans (hmoves.mono fun _ _ _ h => h.2)
  have hrecvs : ∀ x ∈ tr ++ moves, RecvKept x := fun x hx =>
    (List.mem_append.mp hx).elim (hrecv x) (hrecv' x)
  have hsends : ∀ x ∈ tr ++ moves, SendKept x := fun x hx =>
    (List.mem_append.mp hx).elim (hsend x) (hsend' x)
  have hall : sent (tr ++ moves) ++ pipe'.underway = sent tr ++ pipe.underway := by
    rw [sent_append, List.append_assoc, hunder]
  rcases answers_of_moves hmoves hr with ⟨hnil, hr'⟩ | ⟨answer, hanswer, -⟩
  · -- the message that is on its way would have been received
    exfalso
    obtain ⟨hgone, hreceived⟩ := received_of_stuck hrun' hrecvs hsends hcapacity hstuck hr'
    have hsame : received (tr ++ moves) = received tr := by
      rw [received_append, received, received, hnil]
      exact List.append_nil _
    have hshort := hmessage.resolve_right (by simp [← hwriter, hgone])
    rw [← hall, ← hreceived, hsame] at hshort
    exact Nat.lt_irrefl _ hshort
  · rw [hanswer]
    have hlast : received (tr ++ moves) = received tr ++ answer.toOption.toList := by
      rw [received_append, received_of_answers hanswer]
    cases answer with
    | ok m =>
      -- the message is the next one
      obtain ⟨later, hlater⟩ := received_prefix hrun' hrecvs hsends
      rw [hall, hlast, List.append_assoc] at hlater
      rw [← hlater, List.getElem?_append_right (Nat.le_refl _), Nat.sub_self]
      rfl
    | error e =>
      have he : .error e ∈ answers (tr ++ moves) := by
        rw [answers, List.filterMap_append, ← answers, ← answers, hanswer]
        exact List.mem_append_right _ List.mem_cons_self
      obtain ⟨rfl, hgone, hsent⟩ := closed_of_error hrun' hrecvs hsends he
      have hunder' : pipe'.underway = [] := by
        rw [underway, (ordered_of_run hrun').closed hgone]
        rfl
      have hnone : received (tr ++ moves) = received tr := hlast.trans (List.append_nil _)
      rw [← hall, hunder', List.append_nil, ← hsent, hnone, List.getElem?_eq_none (Nat.le_refl _)]
      rfl

/-- A message of eight bytes, of which the buffer holds three, is received in the end. -/
theorem recv_returns_small : ∃ tr pipe, Run 3 tr pipe ∧
    tr.map Step.input = [.send [1, 2, 3, 4, 5, 6, 7, 8], .write 3, .recv] ∧
    ∀ moves pipe', Transition.Run Moves pipe moves pipe' → Stuck pipe' →
      answers moves = [.ok [1, 2, 3, 4, 5, 6, 7, 8]] := by
  have hexec : (Transition.exec step (new 3)
      [.send [1, 2, 3, 4, 5, 6, 7, 8], .write 3, .recv]).any (fun p => decide
        (p.2.receiving ≠ none ∧ (received p.1).length = 0 ∧
          sent p.1 ++ p.2.underway = [[1, 2, 3, 4, 5, 6, 7, 8]])) = true := by
    decide +kernel
  obtain ⟨tr, pipe, hrun, hinputs, htest⟩ := Transition.exists_run_where hexec
  obtain ⟨hr, hnone, hone⟩ := of_decide_eq_true htest
  refine ⟨tr, pipe, hrun, hinputs, fun moves pipe' hmoves hstuck => ?_⟩
  have hreturns := (recv_returns hrun (recvKept_of_inputs hinputs (by decide))
    (sendKept_of_inputs hinputs (by decide)) (by decide) hr
    (.inl (by rw [hnone, hone]; exact Nat.one_pos)) hmoves).2 hstuck
  rw [hnone, hone] at hreturns
  exact hreturns

/-- **A send does not wait for room it has.** While the ends wait there are only so many steps;
and when no more is possible, a send that is under way has returned if the rest of its frame had
room in the buffer, whether anybody reads or not. The buffer that is made by default has room for
any frame when it is empty. -/
theorem send_returns (hrun : Run capacity tr pipe) (hreader : pipe.readerGone = false)
    (hroom : pipe.unwritten + pipe.buffer.length ≤ capacity ∨
      pipe.buffer = [] ∧ defaultDuplexCapacity ≤ capacity)
    (hmoves : Transition.Run Moves pipe moves pipe') :
    moves.length ≤ pipe.work ∧ (Stuck pipe' →
      pipe'.sending = none ∧ sent (tr ++ moves) = sent tr ++ pipe.underway) := by
  refine ⟨?_, fun hstuck => ?_⟩
  · have hlen := hmoves.length_add_le fun _ _ _ h => Moves.work_lt h
    omega
  obtain ⟨-, -, hreader', hunder⟩ := same_of_moves hmoves
  have hrun' : Run capacity (tr ++ moves) pipe' := hrun.trans (hmoves.mono fun _ _ _ h => h.2)
  have hord := ordered_of_run hrun'
  have hroom : pipe.unwritten + pipe.buffer.length ≤ capacity := by
    rcases hroom with hroom | ⟨hbuffer, hdefault⟩
    · exact hroom
    · rw [hbuffer, List.length_nil, Nat.add_zero, unwritten]
      cases hs : pipe.sending with
      | none => exact Nat.zero_le _
      | some s => exact ((ordered_of_run hrun).room s hs).trans hdefault
  -- room is not used up but by the send itself
  have hroom' : pipe'.unwritten + pipe'.buffer.length ≤ capacity :=
    hmoves.invariant (I := fun _ pipe => pipe.unwritten + pipe.buffer.length ≤ capacity) hroom
      fun _ pipe₁ _ pipe₂ _ hle hmove => (Moves.room_le hmove).trans hle
  have hs : pipe'.sending = none := by
    by_contra hs
    obtain ⟨hfull, hpos⟩ := hstuck.full hord (hreader'.trans hreader) hs
    rw [capacity_of_run hrun'] at hfull
    omega
  have hunder' : pipe'.underway = [] := by rw [underway, hs]; rfl
  rw [hunder', List.append_nil] at hunder
  exact ⟨hs, by rw [sent_append, hunder]⟩

/-- A message is sent into the buffer that is made by default, and nobody reads. -/
theorem send_returns_default : ∃ tr pipe, Run defaultDuplexCapacity tr pipe ∧
    tr.map Step.input = [.send [7, 8]] ∧
    ∀ moves pipe', Transition.Run Moves pipe moves pipe' → Stuck pipe' →
      pipe'.sending = none ∧ sent (tr ++ moves) = sent tr ++ pipe.underway := by
  have hexec : (Transition.exec step (new defaultDuplexCapacity) [.send [7, 8]]).any
      (fun p => decide (p.2.readerGone = false ∧ p.2.buffer = [])) = true := by
    decide +kernel
  obtain ⟨tr, pipe, hrun, hinputs, htest⟩ := Transition.exists_run_where hexec
  obtain ⟨hreader, hbuffer⟩ := of_decide_eq_true htest
  exact ⟨tr, pipe, hrun, hinputs, fun moves pipe' hmoves =>
    (send_returns hrun hreader (.inr ⟨hbuffer, Nat.le_refl _⟩) hmoves).2⟩

end Pipe

end Ipc

end DevBrowse
