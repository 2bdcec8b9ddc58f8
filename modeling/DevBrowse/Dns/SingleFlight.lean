import DevBrowse.Dns.Resolver
import DevBrowse.Lib.HashMap
import DevBrowse.Lib.Transition

/-!
# One resolution at a time

Calls that ask for the same thing at the same time share one resolution. The first of them
leads: it puts a slot into the map of what is in flight, runs the inner resolver, takes the
slot out again and sends the outcome to everyone who waits in it. The others follow: they
leave the sending end of a channel in the slot and wait at the receiving end.

A call is a future. It is registered when it is made, runs only while it is polled, and can
be dropped whenever it is not running: before its first poll, or where it awaits. What
happens between two awaits cannot be cut short by a drop, but other calls may run in
between, so the leader's way from the inner outcome to its return is split at every step
that others can see: taking out the slot, which it does under the lock, and each send.

The channels are as documented for the runtime: a receiver gets what was sent, and errs
once the sending end is gone without having been used. A sending end is in a slot or in the
hands of the leader that sends, and nowhere else.
-/

namespace DevBrowse

namespace Dns

open Network (NetworkError PartitionKey)
open Transition (Step)

/-- What calls must agree on to share a resolution. -/
structure Key where
  /-- The partition. -/
  partitionKey : PartitionKey
  /-- The name. -/
  qname : Text
  /-- The type code. -/
  typeCode : UInt16
  deriving DecidableEq

/-- The key of a query. -/
def ResolveQuery.key (query : ResolveQuery) : Key :=
  ⟨query.partitionKey, query.qname, query.qtype.typeCode⟩

/-- How a call was registered. -/
inductive Role where
  /-- It runs the inner resolver. -/
  | leader
  /-- It waits for the leader. -/
  | follower
  deriving DecidableEq

/-- How far the future of a call has come. -/
inductive Phase where
  /-- A leader before its first poll. -/
  | created
  /-- A leader whose inner resolution is in flight. -/
  | running
  /-- A leader that has the outcome and not yet taken out its slot. -/
  | finished (outcome : Outcome)
  /-- A leader that sends the outcome, with the waiters it has yet to serve. -/
  | sending (outcome : Outcome) (waiters : List ℕ)
  /-- A follower, with what is in its channel. -/
  | waiting (received : Option Outcome)
  /-- The future is done. -/
  | returned (outcome : Outcome)
  /-- The future was dropped before it was done. -/
  | dropped
  deriving DecidableEq

/-- The waiters a call has yet to send to. -/
def Phase.toServe : Phase → List ℕ
  | .sending _ waiters => waiters
  | _ => []

/-- A call of `resolve`. -/
structure Call where
  /-- What it asks for. -/
  query : ResolveQuery
  /-- How it was registered. -/
  role : Role
  /-- How far it has come. -/
  phase : Phase
  deriving DecidableEq

/-- **The single-flight wrapper**, with the calls made so far. -/
structure SingleFlight where
  /-- The slots, with the waiters of each. -/
  inflight : HashMap Key (List ℕ)
  /-- The calls, in the order they were made. -/
  calls : List Call

namespace SingleFlight

/-- The wrapper before the first call. -/
def new : SingleFlight := ⟨∅, []⟩

/-- A call is made: it joins the slot of its key, or opens one. -/
def resolve (s : SingleFlight) (query : ResolveQuery) : SingleFlight :=
  match s.inflight.lookup query.key with
  | some waiters =>
    { inflight := s.inflight.insert query.key (waiters ++ [s.calls.length])
      calls := s.calls ++ [⟨query, .follower, .waiting none⟩] }
  | none =>
    { inflight := s.inflight.insert query.key []
      calls := s.calls ++ [⟨query, .leader, .created⟩] }

/-- The call with a number. -/
def callAt (s : SingleFlight) (id : ℕ) : Option Call := s.calls[id]?

/-- Set how far a call has come. -/
def setPhase (s : SingleFlight) (id : ℕ) (phase : Phase) : SingleFlight :=
  { s with calls := s.calls.modify id fun c => { c with phase } }

/-- The sending end of a follower's channel is still there: it is in a slot, or in the hands
of a leader. -/
def SenderAlive (s : SingleFlight) (id : ℕ) : Prop :=
  (∃ e ∈ s.inflight.entries, id ∈ e.2) ∨ ∃ c ∈ s.calls, id ∈ c.phase.toServe

instance (s : SingleFlight) (id : ℕ) : Decidable (s.SenderAlive id) :=
  inferInstanceAs (Decidable (_ ∨ _))

/-- Send an outcome to a waiter; a receiver that was dropped makes no difference. -/
def deliver (s : SingleFlight) (waiter : ℕ) (outcome : Outcome) : SingleFlight :=
  match s.callAt waiter with
  | some ⟨_, _, .waiting none⟩ => s.setPhase waiter (.waiting (some outcome))
  | _ => s

/-- What can happen. -/
inductive Event where
  /-- `resolve` is called. -/
  | resolve (query : ResolveQuery)
  /-- A future is polled. -/
  | poll (id : ℕ)
  /-- The inner resolver of a leader comes back. -/
  | innerDone (id : ℕ) (outcome : Outcome)
  /-- A leader takes out its slot. -/
  | removeSlot (id : ℕ)
  /-- A leader sends to its next waiter, or returns when there is none. -/
  | send (id : ℕ)
  /-- A future is dropped. -/
  | drop (id : ℕ)
  deriving DecidableEq

/-- What a poll makes of a future, if it is one that can be polled. -/
def polled (s : SingleFlight) (id : ℕ) : Phase → Option Phase
  | .created => some .running
  | .running => some .running
  | .waiting (some outcome) => some (.returned outcome)
  | .waiting none =>
    if s.SenderAlive id then some (.waiting none) else some (.returned (.error .cancelled))
  | _ => none

/-- **One event.** -/
def step (s : SingleFlight) : Event → Option SingleFlight
  | .resolve query => some (s.resolve query)
  | .poll id => do
    let c ← s.callAt id
    let phase ← s.polled id c.phase
    some (s.setPhase id phase)
  | .innerDone id outcome =>
    match s.callAt id with
    | some ⟨_, _, .running⟩ => some (s.setPhase id (.finished outcome))
    | _ => none
  | .removeSlot id =>
    match s.callAt id with
    | some ⟨query, _, .finished outcome⟩ =>
      let waiters := (s.inflight.lookup query.key).getD []
      some { s.setPhase id (.sending outcome waiters) with
        inflight := s.inflight.erase query.key }
    | _ => none
  | .send id =>
    match s.callAt id with
    | some ⟨_, _, .sending outcome (waiter :: waiters)⟩ =>
      some ((s.deliver waiter outcome.clone).setPhase id (.sending outcome waiters))
    | some ⟨_, _, .sending outcome []⟩ => some (s.setPhase id (.returned outcome))
    | _ => none
  | .drop id =>
    match s.callAt id with
    | some ⟨_, _, .created⟩ | some ⟨_, _, .running⟩ | some ⟨_, _, .waiting _⟩ =>
      some (s.setPhase id .dropped)
    | _ => none

/-- The runs of the wrapper. -/
abbrev Run : List (Step SingleFlight Event) → SingleFlight → Prop :=
  Transition.Run (Transition.ofFun step) new

end SingleFlight

end Dns

end DevBrowse
