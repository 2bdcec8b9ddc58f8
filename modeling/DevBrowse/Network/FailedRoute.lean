import DevBrowse.Lib.Transition
import DevBrowse.Network.Route

/-!
# What a failed route leaves behind

A route that fails leaves the coordinator as it is, and with it the partitions in use: what
they hold, and in what order they were used. All that remains of it is one event at the sink
of the blocklist, and that only where the host was blocked. So the events of a run are the
routes that came back as blocked, one for one and in their order, each with the kind its host
matched and the partition of its request
(`DevBrowse.Network.NetworkCoordinator.failed_routes_leave_no_trace`).
-/

namespace DevBrowse

namespace Network

open Transition (Step)

namespace NetworkCoordinator

/-- The calls. -/
inductive Call where
  /-- `route` is called. -/
  | route (met : Encounter) (req : Request)
  /-- The state of a partition is dropped. -/
  | dropPartition (key : PartitionKey)
  /-- `set_header_policy` is called. -/
  | setHeaderPolicy (policy : HeaderPolicy)

/-- **The coordinator and the sink** of the blocklist, with what it was told. -/
structure Sunk where
  /-- The coordinator. -/
  coordinator : NetworkCoordinator
  /-- The events, in the order they came. -/
  sink : List BlockedEvent

/-- **One call.** -/
def Sunk.call (sha256 : List UInt8 → Vector UInt8 32) (s : Sunk) : Call → Sunk
  | .route met req =>
    let routing := route sha256 s.coordinator met req
    ⟨routing.coordinator, s.sink ++ routing.emitted⟩
  | .dropPartition key =>
    { s with coordinator := { s.coordinator with egress := s.coordinator.egress.remove key } }
  | .setHeaderPolicy policy => { s with coordinator := s.coordinator.setHeaderPolicy policy }

/-- The runs of calls on a coordinator whose sink was told nothing yet. -/
abbrev Run (sha256 : List UInt8 → Vector UInt8 32) (c : NetworkCoordinator) :
    List (Step Sunk Call) → Sunk → Prop :=
  Transition.Run (Transition.ofFun fun s i => some (s.call sha256 i)) ⟨c, []⟩

/-- The step is a route that comes back as blocked. -/
def returnsBlocked (sha256 : List UInt8 → Vector UInt8 32) (x : Step Sunk Call) : Bool :=
  match x.input with
  | .route met req =>
    match (route sha256 x.pre.coordinator met req).result with
    | .error e => decide (e = .blocked)
    | .ok _ => false
  | _ => false

/-- **The event tells of the route**: it names the partition of the request, derived anew, and
the kind of the rule that its host matched. -/
def TellsOf (sha256 : List UInt8 → Vector UInt8 32) (event : BlockedEvent) (x : Step Sunk Call) :
    Prop :=
  ∃ met req host, x.input = .route met req ∧
    event.partitionKey =
      PartitionKey.derive sha256 req.siteOrigin req.identityProfileId req.contextId ∧
    parseHost req.url = some host ∧ met.atMatch.matchHost host = some event.kind

variable {sha256 : List UInt8 → Vector UInt8 32} {c : NetworkCoordinator} {met : Encounter}
  {req : Request} {e : NetworkError} {s s' : Sunk} {i : Call} {tr : List (Step Sunk Call)}

/-! ### One route -/

/-- **A route that fails leaves the coordinator as it is.** -/
theorem coordinator_of_error (h : (route sha256 c met req).result = .error e) :
    (route sha256 c met req).coordinator = c := by
  rcases route_cases sha256 c met req with ⟨e, heq, -⟩ | ⟨host, kind, -, -, -, heq⟩ |
    ⟨host, -, -, -, -, heq⟩
  · rw [heq]
  · rw [heq]
  · rw [heq] at h
    cases h

/-- **What a route tells the sink**: one event if it comes back as blocked, nothing if not. -/
theorem emitted_route (sha256 : List UInt8 → Vector UInt8 32) (c : NetworkCoordinator)
    (met : Encounter) (req : Request) :
    ((route sha256 c met req).result ≠ .error .blocked ∧ (route sha256 c met req).emitted = []) ∨
    ∃ event host, (route sha256 c met req).result = .error .blocked ∧
      (route sha256 c met req).emitted = [event] ∧
      event.partitionKey =
        PartitionKey.derive sha256 req.siteOrigin req.identityProfileId req.contextId ∧
      parseHost req.url = some host ∧ met.atMatch.matchHost host = some event.kind := by
  rcases route_cases sha256 c met req with ⟨e, heq, hne⟩ | ⟨host, kind, hauth, hhost, hkind, heq⟩ |
    ⟨host, -, -, -, -, heq⟩
  · refine Or.inl ⟨fun hblocked => hne ?_, by rw [heq]⟩
    rw [heq] at hblocked
    exact Except.error.inj hblocked
  · refine Or.inr ⟨⟨kind, req.declaredKey⟩, host, by rw [heq], by rw [heq], ?_, hhost, hkind⟩
    exact (authorize_eq_ok_iff.mp hauth).2
  · refine Or.inl ⟨fun hblocked => ?_, by rw [heq]⟩
    rw [heq] at hblocked
    cases hblocked

theorem returnsBlocked_route :
    returnsBlocked sha256 ⟨s, .route met req, s'⟩ = true ↔
      (route sha256 s.coordinator met req).result = .error .blocked := by
  simp only [returnsBlocked]
  cases (route sha256 s.coordinator met req).result with
  | ok routed => simp
  | error e => simp

/-! ### Runs -/

/-- What a call adds to what the sink was told. -/
theorem sink_call (sha256 : List UInt8 → Vector UInt8 32) (s : Sunk) (i : Call) :
    ∃ told, (s.call sha256 i).sink = s.sink ++ told ∧
      List.Forall₂ (TellsOf sha256) told
        ([⟨s, i, s.call sha256 i⟩].filter (returnsBlocked sha256)) := by
  cases i with
  | route met req =>
    refine ⟨_, rfl, ?_⟩
    rcases emitted_route sha256 s.coordinator met req with ⟨hne, hnone⟩ |
      ⟨event, host, hblocked, hone, hkey, hhost, hkind⟩
    · have hpasses : ¬ returnsBlocked sha256
          ⟨s, .route met req, s.call sha256 (.route met req)⟩ = true :=
        fun h => hne (returnsBlocked_route.mp h)
      rw [hnone, List.filter_cons_of_neg hpasses]
      exact List.Forall₂.nil
    · rw [hone, List.filter_cons_of_pos (returnsBlocked_route.mpr hblocked)]
      exact List.Forall₂.cons ⟨met, req, host, rfl, hkey, hhost, hkind⟩ List.Forall₂.nil
  | dropPartition key => exact ⟨[], (List.append_nil _).symm, List.Forall₂.nil⟩
  | setHeaderPolicy policy => exact ⟨[], (List.append_nil _).symm, List.Forall₂.nil⟩

/-- **The events of a run are its blocked routes.** -/
theorem sink_of_run (hrun : Run sha256 c tr s) :
    List.Forall₂ (TellsOf sha256) s.sink (tr.filter (returnsBlocked sha256)) := by
  refine hrun.invariant
    (I := fun tr s => List.Forall₂ (TellsOf sha256) s.sink (tr.filter (returnsBlocked sha256)))
    List.Forall₂.nil ?_
  intro tr s i s' _ ih hstep
  obtain rfl := Option.some.inj hstep
  obtain ⟨told, hsink, htold⟩ := sink_call sha256 s i
  rw [hsink, List.filter_append]
  exact List.rel_append ih htold

/-- **Failed routes leave no trace.** A route that fails leaves the partitions in use and their
order alone, and over any run there are as many events as routes that came back as blocked,
each with the kind and the partition of its own. -/
theorem failed_routes_leave_no_trace (sha256 : List UInt8 → Vector UInt8 32) :
    (∀ (c : NetworkCoordinator) (met : Encounter) (req : Request) (e : NetworkError),
      (route sha256 c met req).result = .error e →
        (route sha256 c met req).coordinator.egress = c.egress) ∧
    ∀ (c : NetworkCoordinator) (tr : List (Step Sunk Call)) (s : Sunk), Run sha256 c tr s →
      s.sink.length = tr.countP (returnsBlocked sha256) ∧
        List.Forall₂ (TellsOf sha256) s.sink (tr.filter (returnsBlocked sha256)) := by
  refine ⟨fun c met req e h => ?_, fun c tr s hrun => ?_⟩
  · rw [coordinator_of_error h]
  · have htells := sink_of_run hrun
    exact ⟨htells.length_eq.trans List.countP_eq_length_filter.symm, htells⟩

/-- A blocklist that blocks the host of the example request. -/
def exampleBlocking : Blocklist.State := .fromRules [.host "shop.example.com".toList .ad] []

/-- A request that is blocked, after one that passed, leaves one event, and the partition as the
first left it. -/
theorem failed_routes_leave_no_trace_example :
    (route (fun _ => exampleHash) bootstrap ⟨4, exampleBlocking, exampleBlocking⟩
        exampleRequest).coordinator.egress = bootstrap.egress ∧
      ∃ tr s, Run (fun _ => exampleHash) bootstrap tr s ∧
        s.coordinator.egress.order = [⟨exampleHash⟩] ∧ s.sink.length = 1 := by
  have hexec : (Transition.exec (fun s i => some (s.call (fun _ => exampleHash) i))
      (⟨bootstrap, []⟩ : Sunk)
      [.route ⟨4, exampleBlocklist, exampleBlocklist⟩ exampleRequest,
        .route ⟨4, exampleBlocking, exampleBlocking⟩ exampleRequest]).any (fun p =>
      decide (p.2.coordinator.egress.order = [⟨exampleHash⟩]) &&
        decide (p.1.countP (returnsBlocked fun _ => exampleHash) = 1)) = true := by
    decide +kernel
  obtain ⟨tr, s, hrun, -, htest⟩ := Transition.exists_run_where hexec
  obtain ⟨horder, hcount⟩ : s.coordinator.egress.order = [⟨exampleHash⟩] ∧
      tr.countP (returnsBlocked fun _ => exampleHash) = 1 := by simpa using htest
  refine ⟨(failed_routes_leave_no_trace _).1 _ _ _ .blocked rfl, tr, s, hrun, horder, ?_⟩
  exact ((failed_routes_leave_no_trace _).2 _ _ _ hrun).1.trans hcount

end NetworkCoordinator

end Network

end DevBrowse
