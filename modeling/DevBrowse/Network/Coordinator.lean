import DevBrowse.Blocklist.State
import DevBrowse.Network.Headers
import DevBrowse.Network.PartitionLru

/-!
# Routing a request

A request names the partition it is made in, and is refused unless that is the partition of
its site, profile and context. Then its scheme is checked, its host looked up in the
blocklist, its tracking parameters are stripped and its headers scrubbed, and only when all
of this went well its partition is used. Between these stages it may turn out to be
cancelled.

The blocklist is shared with the task that replaces it, and the cancellation flag with the
tab. What a route meets of them is one of its arguments: the blocklist at each of the two
moments it looks, and the first of its four checks that finds the flag set, as a flag that
is set stays so.
-/

namespace DevBrowse

namespace Network

open Blocklist (BlockKind)

/-- What is told about a blocked request. -/
structure BlockedEvent where
  /-- The reason. -/
  kind : BlockKind
  /-- The partition of the request. -/
  partitionKey : PartitionKey
  deriving DecidableEq

/-- **A request**, with what the tab it comes from says about it. -/
structure Request where
  /-- The site. -/
  siteOrigin : Text
  /-- The profile. -/
  identityProfileId : Uuid
  /-- The context. -/
  contextId : Uuid
  /-- The partition it claims to be made in. -/
  declaredKey : PartitionKey
  /-- The privacy mode. -/
  mode : Mode
  /-- The URL. -/
  url : Text
  /-- The method. -/
  method : Text
  /-- The headers. -/
  headers : List Header
  /-- The body. -/
  body : List UInt8
  /-- Whether the user approved of plain `http`. -/
  downgradeApproved : Bool
  deriving DecidableEq

/-- **A request as it is dispatched.** -/
structure RoutedRequest where
  /-- The partition. -/
  partitionKey : PartitionKey
  /-- The privacy mode. -/
  mode : Mode
  /-- The URL. -/
  finalUrl : Text
  /-- The method. -/
  method : Text
  /-- The headers. -/
  headers : List Header
  /-- The body. -/
  body : List UInt8
  deriving DecidableEq

/-- What a route meets of the state it shares with other tasks. -/
structure Encounter where
  /-- The number of checks that find the request not cancelled. -/
  cancelledFrom : ℕ
  /-- The blocklist at the lookup of the host. -/
  atMatch : Blocklist.State
  /-- The blocklist when its strip list is taken. -/
  atStrip : Blocklist.State

/-- Whether a check finds the request cancelled. -/
def Encounter.isCancelled (met : Encounter) (check : ℕ) : Bool :=
  decide (met.cancelledFrom ≤ check)

/-- **The network coordinator.** -/
structure NetworkCoordinator where
  /-- The partitions in use. -/
  egress : PartitionLru EgressState
  /-- The header policy of the standard mode. -/
  headerPolicyStandard : HeaderPolicy
  /-- The header policy of the strict mode. -/
  headerPolicyStrict : HeaderPolicy

namespace NetworkCoordinator

/-- The coordinator after start-up. -/
def bootstrap : NetworkCoordinator := ⟨.new maxPartitions, .standard, .strict⟩

/-- The header policy of a mode. -/
def headerPolicyFor (c : NetworkCoordinator) : Mode → HeaderPolicy
  | .standard => c.headerPolicyStandard
  | .strict => c.headerPolicyStrict

/-- A header policy is replaced. -/
def setHeaderPolicy (c : NetworkCoordinator) (policy : HeaderPolicy) : NetworkCoordinator :=
  match policy.mode with
  | .standard => { c with headerPolicyStandard := policy }
  | .strict => { c with headerPolicyStrict := policy }

/-- The key of the partition of a request, which has to be the one it declares. -/
def authorize (sha256 : List UInt8 → Vector UInt8 32) (req : Request) :
    Except NetworkError PartitionKey :=
  let expected := PartitionKey.derive sha256 req.siteOrigin req.identityProfileId req.contextId
  if expected = req.declaredKey then .ok expected else .error .partitionMismatch

/-- What a route leaves behind. -/
structure Routing where
  /-- The coordinator. -/
  coordinator : NetworkCoordinator
  /-- What was told about it to the sink of the blocklist. -/
  emitted : List BlockedEvent
  /-- The request as it is dispatched, or why it is not. -/
  result : Except NetworkError RoutedRequest

/-- **Route a request.** -/
def route (sha256 : List UInt8 → Vector UInt8 32) (c : NetworkCoordinator) (met : Encounter)
    (req : Request) : Routing :=
  match authorize sha256 req with
  | .error e => ⟨c, [], .error e⟩
  | .ok canonical =>
    if met.isCancelled 0 then ⟨c, [], .error .cancelled⟩
    else
      match enforceHttpsOnly req.url req.downgradeApproved with
      | .error e => ⟨c, [], .error e⟩
      | .ok requestedUrl =>
        if met.isCancelled 1 then ⟨c, [], .error .cancelled⟩
        else
          match parseHost requestedUrl with
          | none => ⟨c, [], .error .invalidUrl⟩
          | some host =>
            match met.atMatch.matchHost host with
            | some kind => ⟨c, [⟨kind, canonical⟩], .error .blocked⟩
            | none =>
              let finalUrl := stripTrackingParams requestedUrl met.atStrip.urlParamStripList
              if met.isCancelled 2 then ⟨c, [], .error .cancelled⟩
              else
                let scrubbedHeaders :=
                  scrub (c.headerPolicyFor req.mode) req.siteOrigin host finalUrl req.headers
                if met.isCancelled 3 then ⟨c, [], .error .cancelled⟩
                else
                  ⟨{ c with egress := c.egress.getOrInsertDefault canonical }, [],
                    .ok ⟨canonical, req.mode, finalUrl, req.method, scrubbedHeaders, req.body⟩⟩

variable {sha256 : List UInt8 → Vector UInt8 32} {c : NetworkCoordinator} {met : Encounter}
  {req : Request} {routed : RoutedRequest} {key : PartitionKey}

theorem authorize_eq_ok_iff : authorize sha256 req = .ok key ↔
    key = req.declaredKey ∧
      req.declaredKey =
        PartitionKey.derive sha256 req.siteOrigin req.identityProfileId req.contextId := by
  rw [authorize]
  constructor
  · intro h
    split at h
    · rename_i hkey
      exact ⟨(Except.ok.inj h).symm.trans hkey, hkey.symm⟩
    · cases h
  · rintro ⟨rfl, hkey⟩
    rw [if_pos hkey.symm, hkey]

theorem authorize_ne_blocked {e : NetworkError} (h : authorize sha256 req = .error e) :
    e ≠ .blocked := by
  rw [authorize] at h
  split at h
  · cases h
  · cases h
    exact NetworkError.noConfusion

/-- **What a route comes to.** It fails without a trace, or because of the blocklist, of which
the sink is told, or every stage goes well and the partition is used. -/
theorem route_cases (sha256 : List UInt8 → Vector UInt8 32) (c : NetworkCoordinator)
    (met : Encounter) (req : Request) :
    (∃ e, route sha256 c met req = ⟨c, [], .error e⟩ ∧ e ≠ .blocked) ∨
    (∃ host kind, authorize sha256 req = .ok req.declaredKey ∧ parseHost req.url = some host ∧
      met.atMatch.matchHost host = some kind ∧
      route sha256 c met req = ⟨c, [⟨kind, req.declaredKey⟩], .error .blocked⟩) ∨
    ∃ host, authorize sha256 req = .ok req.declaredKey ∧
      enforceHttpsOnly req.url req.downgradeApproved = .ok req.url ∧
      parseHost req.url = some host ∧ met.atMatch.matchHost host = none ∧
      route sha256 c met req =
        ⟨{ c with egress := c.egress.getOrInsertDefault req.declaredKey }, [],
          .ok ⟨req.declaredKey, req.mode,
            stripTrackingParams req.url met.atStrip.urlParamStripList, req.method,
            scrub (c.headerPolicyFor req.mode) req.siteOrigin host
              (stripTrackingParams req.url met.atStrip.urlParamStripList) req.headers,
            req.body⟩⟩ := by
  rw [route]
  -- the stages in their order, each with the check for a cancellation behind it
  cases hauth : authorize sha256 req with
  | error e => exact .inl ⟨e, rfl, authorize_ne_blocked hauth⟩
  | ok canonical =>
    obtain ⟨rfl, -⟩ := authorize_eq_ok_iff.mp hauth
    by_cases hfirst : met.isCancelled 0 = true
    · exact .inl ⟨.cancelled, if_pos hfirst, NetworkError.noConfusion⟩
    cases henforce : enforceHttpsOnly req.url req.downgradeApproved with
    | error e =>
      exact .inl ⟨e, if_neg hfirst, enforceHttpsOnly_ne_blocked henforce⟩
    | ok requestedUrl =>
      obtain ⟨rfl, -⟩ := enforceHttpsOnly_eq_ok_iff.mp henforce
      by_cases hsecond : met.isCancelled 1 = true
      · exact .inl ⟨.cancelled, by simp [hfirst, hsecond], NetworkError.noConfusion⟩
      cases hhost : parseHost req.url with
      | none =>
        exact .inl ⟨.invalidUrl, by simp [hfirst, hsecond, hhost], NetworkError.noConfusion⟩
      | some host =>
        cases hmatch : met.atMatch.matchHost host with
        | some kind =>
          exact .inr (.inl ⟨host, kind, rfl, rfl, hmatch,
            by simp [hfirst, hsecond, hhost, hmatch]⟩)
        | none =>
          by_cases hthird : met.isCancelled 2 = true
          · exact .inl ⟨.cancelled, by simp [hfirst, hsecond, hhost, hmatch, hthird],
              NetworkError.noConfusion⟩
          by_cases hfourth : met.isCancelled 3 = true
          · exact .inl ⟨.cancelled, by simp [hfirst, hsecond, hhost, hmatch, hthird, hfourth],
              NetworkError.noConfusion⟩
          exact .inr (.inr ⟨host, rfl, rfl, rfl, hmatch,
            by simp [hfirst, hsecond, hhost, hmatch, hthird, hfourth]⟩)

end NetworkCoordinator

end Network

end DevBrowse
