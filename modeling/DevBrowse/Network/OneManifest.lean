import DevBrowse.Blocklist.Live
import DevBrowse.Lib.Snapshot
import DevBrowse.Network.Coordinator

/-!
# The blocklist of a route

A route looks at the blocklist twice: for the host of the request, and again for the list of
the parameters to strip. It takes the lock each time, and lets go of it in between, so a swap
may come between the two, and the request is let through by the rules of one manifest and
stripped by those of another
(`DevBrowse.Network.SharedBlocklist.not_oneManifest_swapped`). Both come from one version
exactly if no swap comes between them, or the last that does brings the same version
(`DevBrowse.Network.SharedBlocklist.oneManifest_iff`).

A route is cut where it looks at the blocklist; put together again it is the route of the
coordinator (`DevBrowse.Network.SharedBlocklist.routing_of_finish`).
-/

namespace DevBrowse

namespace Network

open Blocklist (Live Manifest)

open Transition (Step)

/-- A request on its way through the stages of a route. -/
structure Passing where
  /-- The request. -/
  request : Request
  /-- The number of checks that find it not cancelled. -/
  cancelledFrom : ℕ
  /-- Its partition. -/
  canonical : PartitionKey
  /-- Its URL. -/
  requestedUrl : Text
  /-- The host of its URL. -/
  host : Text
  deriving DecidableEq

namespace NetworkCoordinator

/-- The stages before the blocklist is looked at. -/
def stagesBefore (sha256 : List UInt8 → Vector UInt8 32) (cancelledFrom : ℕ) (req : Request) :
    Except NetworkError Passing :=
  match authorize sha256 req with
  | .error e => .error e
  | .ok canonical =>
    if cancelledFrom ≤ 0 then .error .cancelled
    else
      match enforceHttpsOnly req.url req.downgradeApproved with
      | .error e => .error e
      | .ok requestedUrl =>
        if cancelledFrom ≤ 1 then .error .cancelled
        else
          match parseHost requestedUrl with
          | none => .error .invalidUrl
          | some host => .ok ⟨req, cancelledFrom, canonical, requestedUrl, host⟩

/-- The stages after it. -/
def stagesAfter (c : NetworkCoordinator) (passing : Passing) (stripList : UrlParamStripList) :
    Routing :=
  let req := passing.request
  let finalUrl := stripTrackingParams passing.requestedUrl stripList
  if passing.cancelledFrom ≤ 2 then ⟨c, [], .error .cancelled⟩
  else
    let scrubbedHeaders :=
      scrub (c.headerPolicyFor req.mode) req.siteOrigin passing.host finalUrl req.headers
    if passing.cancelledFrom ≤ 3 then ⟨c, [], .error .cancelled⟩
    else
      ⟨{ c with egress := c.egress.getOrInsertDefault passing.canonical }, [],
        .ok ⟨passing.canonical, req.mode, finalUrl, req.method, scrubbedHeaders, req.body⟩⟩

/-- **The stages make up a route.** -/
theorem route_eq (sha256 : List UInt8 → Vector UInt8 32) (c : NetworkCoordinator)
    (met : Encounter) (req : Request) :
    route sha256 c met req =
      match stagesBefore sha256 met.cancelledFrom req with
      | .error e => ⟨c, [], .error e⟩
      | .ok passing =>
        match met.atMatch.matchHost passing.host with
        | some kind => ⟨c, [⟨kind, passing.canonical⟩], .error .blocked⟩
        | none => c.stagesAfter passing met.atStrip.urlParamStripList := by
  simp only [route, stagesBefore, Encounter.isCancelled, decide_eq_true_eq]
  cases authorize sha256 req with
  | error e => rfl
  | ok canonical =>
    by_cases hfirst : met.cancelledFrom ≤ 0
    · simp [hfirst]
    cases enforceHttpsOnly req.url req.downgradeApproved with
    | error e => simp [hfirst]
    | ok requestedUrl =>
      by_cases hsecond : met.cancelledFrom ≤ 1
      · simp [hfirst, hsecond]
      cases hhost : parseHost requestedUrl with
      | none => simp [hfirst, hsecond, hhost]
      | some host =>
        cases hmatch : met.atMatch.matchHost host with
        | some kind => simp [hfirst, hsecond, hhost, hmatch]
        | none => simp [hfirst, hsecond, hhost, hmatch, stagesAfter]

end NetworkCoordinator

/-- How far a route has come. -/
inductive RoutePhase where
  /-- No route is under way. -/
  | idle
  /-- It was called. -/
  | called (req : Request) (cancelledFrom : ℕ)
  /-- Its host was looked up, and is not blocked. -/
  | matched (passing : Passing) (atMatch : Live)
  /-- It has the list of what to strip. -/
  | stripped (passing : Passing) (atMatch atStrip : Live)

/-- The blocklist the host was looked up in. -/
def RoutePhase.atMatch : RoutePhase → Option Live
  | .matched _ atMatch => some atMatch
  | .stripped _ atMatch _ => some atMatch
  | _ => none

/-- The versions it was looked up in and stripped by. -/
def RoutePhase.versions : RoutePhase → Option (UInt64 × UInt64)
  | .stripped _ atMatch atStrip => some (atMatch.contentVersion, atStrip.contentVersion)
  | _ => none

/-- **A coordinator and the blocklist it shares.** It routes one request at a time, and the
blocklist may be replaced at any time. -/
structure SharedBlocklist where
  /-- The coordinator. -/
  coordinator : NetworkCoordinator
  /-- The blocklist. -/
  live : Live
  /-- The route that is under way. -/
  phase : RoutePhase
  /-- What the routes so far have left behind. -/
  routings : List NetworkCoordinator.Routing

namespace SharedBlocklist

/-- A coordinator before the first route. -/
def new (live : Live) : SharedBlocklist := ⟨.bootstrap, live, .idle, []⟩

/-- What can happen. -/
inductive Event where
  /-- `route` is called. -/
  | route (req : Request) (cancelledFrom : ℕ)
  /-- The route gets as far as to look up its host. -/
  | matchHost
  /-- The route takes the list of what to strip. -/
  | strip
  /-- The route goes through its other stages. -/
  | finish
  /-- `Blocklist::swap` is called. -/
  | swap (m : Manifest)
  deriving DecidableEq

/-- A route returns. -/
def returns (s : SharedBlocklist) (routing : NetworkCoordinator.Routing) : SharedBlocklist :=
  { s with
    coordinator := routing.coordinator, phase := .idle, routings := s.routings ++ [routing] }

/-- **One event.** -/
def step (sha256 : List UInt8 → Vector UInt8 32) (s : SharedBlocklist) :
    Event → Option SharedBlocklist
  | .route req cancelledFrom =>
    match s.phase with
    | .idle => some { s with phase := .called req cancelledFrom }
    | _ => none
  | .matchHost =>
    match s.phase with
    | .called req cancelledFrom =>
      -- the stages before the lookup share nothing, so they may be taken together with it
      match NetworkCoordinator.stagesBefore sha256 cancelledFrom req with
      | .error e => some (s.returns ⟨s.coordinator, [], .error e⟩)
      | .ok passing =>
        match s.live.state.matchHost passing.host with
        | some kind =>
          some (s.returns ⟨s.coordinator, [⟨kind, passing.canonical⟩], .error .blocked⟩)
        | none => some { s with phase := .matched passing s.live }
    | _ => none
  | .strip =>
    match s.phase with
    | .matched passing atMatch => some { s with phase := .stripped passing atMatch s.live }
    | _ => none
  | .finish =>
    match s.phase with
    | .stripped passing _ atStrip =>
      -- from here on the route works on what it has taken
      some (s.returns (s.coordinator.stagesAfter passing atStrip.state.urlParamStripList))
    | _ => none
  | .swap m => some { s with live := (s.live.swap m).2 }

/-- The runs of routes on a blocklist. -/
abbrev Run (sha256 : List UInt8 → Vector UInt8 32) (live : Live) :
    List (Step SharedBlocklist Event) → SharedBlocklist → Prop :=
  Transition.Run (Transition.ofFun (step sha256)) (new live)

/-- **One manifest for a route**: its host was looked up in a blocklist of the version its list
of what to strip is of. -/
def OneManifest (s : SharedBlocklist) : Prop :=
  ∀ passing atMatch atStrip, s.phase = .stripped passing atMatch atStrip →
    atMatch.contentVersion = atStrip.contentVersion

theorem oneManifest_iff_versions {s : SharedBlocklist} :
    OneManifest s ↔ ∀ p, s.phase.versions = some p → p.1 = p.2 := by
  constructor
  · rintro hone p hp
    cases hphase : s.phase with
    | stripped passing atMatch atStrip =>
      rw [hphase] at hp
      obtain rfl := Option.some.inj hp
      exact hone passing atMatch atStrip hphase
    | idle | called | matched =>
      rw [hphase] at hp
      cases hp
  · rintro hversions passing atMatch atStrip hphase
    exact hversions (atMatch.contentVersion, atStrip.contentVersion) (by rw [hphase]; rfl)

/-- The step looks up a host. -/
def looksUp (x : Step SharedBlocklist Event) : Bool := x.input = .matchHost

/-- The version a step swaps to, if it does. -/
def swapsTo (x : Step SharedBlocklist Event) : Option UInt64 :=
  match x.input with
  | .swap m => some m.contentVersion
  | _ => none

/-- **No other version slips in**: where a route takes the list of what to strip, the version
swapped to last since it looked up its host, if any, is the one it looked it up in. -/
def Undisturbed (before : List (Step SharedBlocklist Event))
    (x : Step SharedBlocklist Event) : Prop :=
  x.input = .strip → ∀ atMatch, x.pre.phase.atMatch = some atMatch →
    ∀ v, (Transition.writesSince looksUp swapsTo before).getLast? = some v →
      v = atMatch.contentVersion

variable {sha256 : List UInt8 → Vector UInt8 32} {live : Live} {s s' : SharedBlocklist}
  {e : Event} {tr : List (Step SharedBlocklist Event)}

/-! ### What an event does -/

/-- A route looks up its host, and goes on if it is not blocked. -/
theorem step_matchHost (h : s.step sha256 .matchHost = some s') :
    ∃ req cancelledFrom, s.phase = .called req cancelledFrom ∧
      ((∃ routing, s' = s.returns routing) ∨
        ∃ passing, NetworkCoordinator.stagesBefore sha256 cancelledFrom req = .ok passing ∧
          s.live.state.matchHost passing.host = none ∧
          s' = { s with phase := .matched passing s.live }) := by
  simp only [step] at h
  split at h
  · rename_i req cancelledFrom hphase
    refine ⟨req, cancelledFrom, hphase, ?_⟩
    split at h
    · exact Or.inl ⟨_, (Option.some.inj h).symm⟩
    · rename_i passing hbefore
      split at h
      · exact Or.inl ⟨_, (Option.some.inj h).symm⟩
      · rename_i hmatch
        exact Or.inr ⟨passing, hbefore, hmatch, (Option.some.inj h).symm⟩
  · cases h

theorem step_route {req : Request} {cancelledFrom : ℕ}
    (h : s.step sha256 (.route req cancelledFrom) = some s') :
    s' = { s with phase := .called req cancelledFrom } := by
  simp only [step] at h
  split at h
  · exact (Option.some.inj h).symm
  · cases h

theorem step_strip (h : s.step sha256 .strip = some s') :
    ∃ passing atMatch, s.phase = .matched passing atMatch ∧
      s' = { s with phase := .stripped passing atMatch s.live } := by
  simp only [step] at h
  split at h
  · rename_i passing atMatch hphase
    exact ⟨passing, atMatch, hphase, (Option.some.inj h).symm⟩
  · cases h

theorem step_finish (h : s.step sha256 .finish = some s') :
    ∃ passing atMatch atStrip, s.phase = .stripped passing atMatch atStrip ∧
      s' = s.returns (s.coordinator.stagesAfter passing atStrip.state.urlParamStripList) := by
  simp only [step] at h
  split at h
  · rename_i passing atMatch atStrip hphase
    exact ⟨passing, atMatch, atStrip, hphase, (Option.some.inj h).symm⟩
  · cases h

/-- The blocklist is changed by a swap, and by nothing else. -/
theorem live_step (h : s.step sha256 e = some s') :
    (∃ m, e = .swap m ∧ s'.live = .fromManifest m) ∨ (∀ m, e ≠ .swap m) ∧ s'.live = s.live := by
  cases e with
  | route req cancelledFrom =>
    rw [step_route h]
    exact Or.inr ⟨by simp, rfl⟩
  | matchHost =>
    obtain ⟨req, cancelledFrom, -, ⟨routing, rfl⟩ | ⟨passing, -, -, rfl⟩⟩ := step_matchHost h
    · exact Or.inr ⟨by simp, rfl⟩
    · exact Or.inr ⟨by simp, rfl⟩
  | strip =>
    obtain ⟨passing, atMatch, -, rfl⟩ := step_strip h
    exact Or.inr ⟨by simp, rfl⟩
  | finish =>
    obtain ⟨passing, atMatch, atStrip, -, rfl⟩ := step_finish h
    exact Or.inr ⟨by simp, rfl⟩
  | swap m =>
    obtain rfl := Option.some.inj h
    exact Or.inl ⟨m, rfl, rfl⟩

/-- The blocklist a host was looked up in is kept, until the route returns. -/
theorem atMatch_step {atMatch : Live} (h : s.step sha256 e = some s')
    (hatMatch : s'.phase.atMatch = some atMatch) :
    (e = .matchHost ∧ s.live = atMatch) ∨ e ≠ .matchHost ∧ s.phase.atMatch = some atMatch := by
  cases e with
  | route req cancelledFrom =>
    rw [step_route h] at hatMatch
    cases hatMatch
  | matchHost =>
    obtain ⟨req, cancelledFrom, -, ⟨routing, rfl⟩ | ⟨passing, -, -, rfl⟩⟩ := step_matchHost h
    · cases hatMatch
    · exact Or.inl ⟨rfl, Option.some.inj hatMatch⟩
  | strip =>
    obtain ⟨passing, atMatch', hphase, rfl⟩ := step_strip h
    rw [hphase]
    exact Or.inr ⟨by simp, hatMatch⟩
  | finish =>
    obtain ⟨passing, atMatch', atStrip, -, rfl⟩ := step_finish h
    cases hatMatch
  | swap m =>
    obtain rfl := Option.some.inj h
    exact Or.inr ⟨by simp, hatMatch⟩

/-! ### Versions -/

/-- **What a host was looked up in is a snapshot of the blocklist.** -/
theorem snapshot_atMatch (sha256 : List UInt8 → Vector UInt8 32) :
    Transition.Snapshot (Transition.ofFun (step sha256)) (fun s => s.live.contentVersion)
      (fun s => s.phase.atMatch.map Live.contentVersion) looksUp swapsTo where
  fresh x hstep htaken v hv := by
    obtain ⟨atMatch, hatMatch, rfl⟩ := Option.map_eq_some_iff.mp hv
    have hinput : x.input = .matchHost := of_decide_eq_true htaken
    rcases live_step hstep with ⟨m, hswap, -⟩ | ⟨-, hlive⟩
    · cases hinput.symm.trans hswap
    · rcases atMatch_step hstep hatMatch with ⟨-, rfl⟩ | ⟨hne, -⟩
      · rw [hlive]
      · exact absurd hinput hne
  kept x hstep htaken v hv := by
    obtain ⟨atMatch, hatMatch, rfl⟩ := Option.map_eq_some_iff.mp hv
    have hne : x.input ≠ .matchHost := of_decide_eq_false htaken
    rcases atMatch_step hstep hatMatch with ⟨hinput, -⟩ | ⟨-, hpre⟩
    · exact absurd hinput hne
    · rw [hpre]
      rfl
  written x hstep := by
    rcases live_step hstep with ⟨m, hswap, hlive⟩ | ⟨hne, hlive⟩
    · rw [hlive, swapsTo, hswap]
      rfl
    · rw [hlive, swapsTo]
      split
      · rename_i m hswap
        exact absurd hswap (hne m)
      · rfl

/-- One event leaves a route with one manifest if and only if no other version slips in. -/
theorem oneManifest_step_iff (hrun : Run sha256 live tr s) (hone : OneManifest s)
    (h : s.step sha256 e = some s') : OneManifest s' ↔ Undisturbed tr ⟨s, e, s'⟩ := by
  cases e with
  | route req cancelledFrom =>
    refine iff_of_true ?_ (by rintro ⟨⟩)
    rw [step_route h]
    rintro passing atMatch atStrip ⟨⟩
  | matchHost =>
    refine iff_of_true ?_ (by rintro ⟨⟩)
    obtain ⟨req, cancelledFrom, -, ⟨routing, rfl⟩ | ⟨passing, -, -, rfl⟩⟩ := step_matchHost h
    · rintro passing atMatch atStrip ⟨⟩
    · rintro passing' atMatch atStrip ⟨⟩
  | strip =>
    obtain ⟨passing, atMatch, hphase, rfl⟩ := step_strip h
    -- what is live is what was swapped to last since the host was looked up
    have hcell := (snapshot_atMatch sha256).cell_eq rfl hrun atMatch.contentVersion
      (by rw [hphase]; rfl)
    constructor
    · rintro hnew - atMatch' hatMatch v hv
      obtain rfl : atMatch = atMatch' := by simpa [hphase, RoutePhase.atMatch] using hatMatch
      rw [hv] at hcell
      exact hcell.symm.trans (hnew passing atMatch s.live rfl).symm
    · rintro hundisturbed passing' atMatch' atStrip ⟨⟩
      rw [hcell]
      cases hlast : (Transition.writesSince looksUp swapsTo tr).getLast? with
      | none => rfl
      | some v =>
        exact (hundisturbed rfl atMatch (by simp [hphase, RoutePhase.atMatch]) v hlast).symm
  | finish =>
    refine iff_of_true ?_ (by rintro ⟨⟩)
    obtain ⟨passing, atMatch, atStrip, -, rfl⟩ := step_finish h
    rintro passing atMatch atStrip ⟨⟩
  | swap m =>
    refine iff_of_true ?_ (by rintro ⟨⟩)
    obtain rfl := Option.some.inj h
    exact hone

/-- **When a route has one manifest**: after every event of a run exactly if no other version
slips in between the two looks a route takes at the blocklist. -/
theorem oneManifest_iff (hrun : Run sha256 live tr s) :
    (∀ x ∈ tr, OneManifest x.post) ↔
      ∀ before x after, tr = before ++ x :: after → Undisturbed before x := by
  refine hrun.forall_post_iff_history ?_ fun _ _ _ _ hr hone hstep =>
    oneManifest_step_iff hr hone hstep
  rintro passing atMatch atStrip ⟨⟩

/-- A hash. -/
def exampleHash : Vector UInt8 32 := .replicate 32 7

/-- A request with two parameters. -/
def exampleRequest : Request where
  siteOrigin := "a.io".toList
  identityProfileId := .splat 1
  contextId := .splat 2
  declaredKey := ⟨exampleHash⟩
  mode := .standard
  url := "https://a.io/?u=1&v=2".toList
  method := "GET".toList
  headers := []
  body := []
  downgradeApproved := false

/-- A manifest that strips one parameter. -/
def firstManifest : Manifest := ⟨1, [], [.new "u".toList]⟩

/-- A manifest that blocks the host, and strips the other. -/
def secondManifest : Manifest := ⟨2, [.host "a.io".toList .ad], [.new "v".toList]⟩

/-- A route that nothing comes in between. -/
theorem oneManifest_iff_quiet :
    ∃ tr s, Run (fun _ => exampleHash) (.fromManifest firstManifest) tr s ∧
      tr.map Step.input = [.route exampleRequest 4, .matchHost, .strip, .finish] ∧
      ((∀ x ∈ tr, OneManifest x.post) ↔
        ∀ before x after, tr = before ++ x :: after → Undisturbed before x) := by
  have hexec : (Transition.exec (step fun _ => exampleHash) (new (.fromManifest firstManifest))
      [.route exampleRequest 4, .matchHost, .strip, .finish]).isSome = true := by
    decide +kernel
  obtain ⟨tr, s, hrun, hinputs⟩ := Transition.exists_run hexec
  exact ⟨tr, s, hrun, hinputs, oneManifest_iff hrun⟩

/-- **A swap between the two looks**: the host is let through by the manifest before it, though
the one after blocks it, and the parameter that one strips is the one that goes. -/
theorem not_oneManifest_swapped :
    ∃ tr s, Run (fun _ => exampleHash) (.fromManifest firstManifest) tr s ∧
      tr.map Step.input =
        [.route exampleRequest 4, .matchHost, .swap secondManifest, .strip, .finish] ∧
      s.routings.map (fun r => r.result.toOption.map RoutedRequest.finalUrl) =
        [some "https://a.io/?u=1".toList] ∧
      ∃ x ∈ tr, ¬ OneManifest x.post := by
  have hexec : (Transition.exec (step fun _ => exampleHash) (new (.fromManifest firstManifest))
      [.route exampleRequest 4, .matchHost, .swap secondManifest, .strip, .finish]).any (fun p =>
      decide (p.2.routings.map (fun r => r.result.toOption.map RoutedRequest.finalUrl) =
        [some "https://a.io/?u=1".toList]) &&
      p.1.any fun x => decide (x.post.phase.versions = some (1, 2))) = true := by
    decide +kernel
  obtain ⟨tr, s, hrun, hinputs, htest⟩ := Transition.exists_run_where hexec
  obtain ⟨hrouted, hmixed⟩ := Bool.and_eq_true_iff.mp htest
  obtain ⟨x, hx, hversions⟩ := List.any_eq_true.mp hmixed
  refine ⟨tr, s, hrun, hinputs, of_decide_eq_true hrouted, x, hx, ?_⟩
  rw [oneManifest_iff_versions]
  rintro hone
  exact absurd (hone (1, 2) (of_decide_eq_true hversions)) (by decide)

/-! ### The route that is made -/

/-- A route that has looked up its host has passed the stages before. -/
def Passed (sha256 : List UInt8 → Vector UInt8 32) (s : SharedBlocklist) : Prop :=
  ∀ passing atMatch, (s.phase = .matched passing atMatch ∨
      ∃ atStrip, s.phase = .stripped passing atMatch atStrip) →
    NetworkCoordinator.stagesBefore sha256 passing.cancelledFrom passing.request = .ok passing ∧
      atMatch.state.matchHost passing.host = none

theorem stagesBefore_ok {cancelledFrom : ℕ} {req : Request} {passing : Passing}
    (h : NetworkCoordinator.stagesBefore sha256 cancelledFrom req = .ok passing) :
    passing.cancelledFrom = cancelledFrom ∧ passing.request = req := by
  rw [NetworkCoordinator.stagesBefore] at h
  split at h
  · cases h
  · split at h
    · cases h
    · split at h
      · cases h
      · split at h
        · cases h
        · split at h
          · cases h
          · obtain rfl := Except.ok.inj h
            exact ⟨rfl, rfl⟩

theorem Passed.step (hpassed : Passed sha256 s) (h : s.step sha256 e = some s') :
    Passed sha256 s' := by
  cases e with
  | route req cancelledFrom =>
    rw [step_route h]
    rintro passing atMatch (⟨⟨⟩⟩ | ⟨atStrip, ⟨⟩⟩)
  | matchHost =>
    obtain ⟨req, cancelledFrom, -, ⟨routing, rfl⟩ | ⟨passing, hbefore, hmatch, rfl⟩⟩ :=
      step_matchHost h
    · rintro passing atMatch (⟨⟨⟩⟩ | ⟨atStrip, ⟨⟩⟩)
    · obtain ⟨hfrom, hreq⟩ := stagesBefore_ok hbefore
      rintro passing' atMatch (⟨⟨⟩⟩ | ⟨atStrip, ⟨⟩⟩)
      rw [hfrom, hreq]
      exact ⟨hbefore, hmatch⟩
  | strip =>
    obtain ⟨passing, atMatch, hphase, rfl⟩ := step_strip h
    rintro passing' atMatch' (⟨⟨⟩⟩ | ⟨atStrip, ⟨⟩⟩)
    exact hpassed passing atMatch (Or.inl hphase)
  | finish =>
    obtain ⟨passing, atMatch, atStrip, -, rfl⟩ := step_finish h
    rintro passing atMatch (⟨⟨⟩⟩ | ⟨atStrip, ⟨⟩⟩)
  | swap m =>
    obtain rfl := Option.some.inj h
    exact hpassed

theorem passed_of_run (hrun : Run sha256 live tr s) : Passed sha256 s := by
  refine hrun.invariant (I := fun _ s => Passed sha256 s) ?_ fun _ _ _ _ _ hi hstep =>
    hi.step hstep
  rintro passing atMatch (⟨⟨⟩⟩ | ⟨atStrip, ⟨⟩⟩)

/-- **The route that is made** is the one of the coordinator, which meets the blocklists of the
two looks. -/
theorem routing_of_finish (hrun : Run sha256 live tr s) (h : s.step sha256 .finish = some s') :
    ∃ passing atMatch atStrip, s.phase = .stripped passing atMatch atStrip ∧
      s' = s.returns (NetworkCoordinator.route sha256 s.coordinator
        ⟨passing.cancelledFrom, atMatch.state, atStrip.state⟩ passing.request) := by
  obtain ⟨passing, atMatch, atStrip, hphase, rfl⟩ := step_finish h
  obtain ⟨hbefore, hmatch⟩ := passed_of_run hrun passing atMatch (Or.inr ⟨atStrip, hphase⟩)
  refine ⟨passing, atMatch, atStrip, hphase, ?_⟩
  rw [NetworkCoordinator.route_eq]
  simp only [hbefore, hmatch]

end SharedBlocklist

end Network

end DevBrowse
