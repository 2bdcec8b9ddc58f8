import DevBrowse.Network.Coordinator

/-!
# What a routed request satisfies

The checks of a route look at the URL as it was requested, and the request is dispatched to
the URL its tracking parameters were stripped from. What the checks established holds of the
URL that is dispatched all the same: its scheme and its host are the ones that were checked
(`DevBrowse.Network.NetworkCoordinator.route_sound`).
-/

namespace DevBrowse

namespace Network

namespace NetworkCoordinator

/-- What holds of a request that was routed. -/
structure RouteSound (sha256 : List UInt8 → Vector UInt8 32) (met : Encounter) (req : Request)
    (after : NetworkCoordinator) (routed : RoutedRequest) : Prop where
  /-- The declared key is the derived one. -/
  declared : req.declaredKey =
    PartitionKey.derive sha256 req.siteOrigin req.identityProfileId req.contextId
  /-- The scheme of the URL is one the request may use. -/
  scheme : schemeOf routed.finalUrl = some "https".toList ∨
    schemeOf routed.finalUrl = some "http".toList ∧ req.downgradeApproved = true
  /-- The URL has the host of the requested one, and it is not blocked. -/
  host : parseHost routed.finalUrl = parseHost req.url ∧
    ∃ host, parseHost req.url = some host ∧ met.atMatch.hosts.matchHost host = none
  /-- No parameter in the query is on the strip list. -/
  stripped : req.url.utf8Len ≤ maxStrippableUrlLen →
    ∀ query, queryOf routed.finalUrl = some query →
      ∀ part ∈ params query, met.atStrip.urlStrip.contains (paramKey part) = false
  /-- The derived key is in use, and it is the one used last. -/
  recent : PartitionKey.derive sha256 req.siteOrigin req.identityProfileId req.contextId ∈
      after.egress.map ∧
    after.egress.order.getLast? =
      some (PartitionKey.derive sha256 req.siteOrigin req.identityProfileId req.contextId)

/-- The scheme of a URL that passed the check. -/
theorem schemeOf_of_enforceHttpsOnly {url : Text} {approved : Bool}
    (h : enforceHttpsOnly url approved = .ok url) :
    schemeOf url = some "https".toList ∨
      schemeOf url = some "http".toList ∧ approved = true := by
  obtain ⟨-, s, rest, rfl, hs⟩ := enforceHttpsOnly_eq_ok_iff.mp h
  rw [schemeOf_append hs.notMem.1, Option.some_inj, Option.some_inj]
  exact hs

/-- **Routes are sound**, because stripping can be seen neither by the check of the scheme
nor by the scanner of the host. -/
theorem route_sound (sha256 : List UInt8 → Vector UInt8 32) :
    (∀ (c : NetworkCoordinator) (met : Encounter) (req : Request) (routed : RoutedRequest),
      (route sha256 c met req).result = .ok routed →
        RouteSound sha256 met req (route sha256 c met req).coordinator routed) ∧
    ∀ (url url' : Text) (approved : Bool) (list : UrlParamStripList),
      enforceHttpsOnly url approved = .ok url' →
        enforceHttpsOnly (stripTrackingParams url list) approved =
          .ok (stripTrackingParams url list) ∧
        parseHost (stripTrackingParams url list) = parseHost url := by
  refine ⟨fun c met req routed h => ?_, fun url url' approved list h => ?_⟩
  · rcases route_cases sha256 c met req with ⟨e, hroute, -⟩ | ⟨host, kind, -, -, -, hroute⟩ |
      ⟨host, hauth, henforce, hhost, hmatch, hroute⟩
    · rw [hroute] at h
      cases h
    · rw [hroute] at h
      cases h
    · rw [hroute] at h ⊢
      obtain rfl := Except.ok.inj h
      have hkey := (authorize_eq_ok_iff.mp hauth).2
      refine ⟨hkey, ?_, ⟨?_, host, hhost, hmatch⟩, ?_, ?_⟩
      · exact schemeOf_of_enforceHttpsOnly (enforceHttpsOnly_stripTrackingParams henforce _)
      · exact parseHost_stripTrackingParams henforce _
      · exact fun hlen query hquery part hpart =>
          not_contains_stripTrackingParams hlen hquery hpart
      · rw [← hkey]
        exact ⟨PartitionLru.mem_getOrInsertDefault _ _,
          PartitionLru.getLast?_getOrInsertDefault _ _⟩
  · obtain rfl : url' = url := (enforceHttpsOnly_eq_ok_iff.mp h).1
    exact ⟨enforceHttpsOnly_stripTrackingParams h list, parseHost_stripTrackingParams h list⟩

/-- The identifier with a number up to 255. -/
def uuidOf (n : UInt8) : Uuid := ⟨(Vector.replicate 15 0).push n⟩

/-- The hash of what the key of the first profile and the second context at `example.com` is
derived from. -/
def exampleHash : Vector UInt8 32 :=
  #v[0x8b, 0x12, 0xc5, 0xcb, 0x24, 0xa5, 0xf7, 0x64, 0x6c, 0x4d, 0xff, 0x50,
    0x3a, 0xd1, 0x8c, 0xff, 0x21, 0x93, 0x48, 0x8a, 0xa5, 0xb1, 0xd5, 0xca,
    0x11, 0x73, 0x0a, 0xe2, 0x1c, 0x97, 0x7d, 0xb5]

/-- A request of a page at `example.com`, with a tracking parameter. -/
def exampleRequest : Request where
  siteOrigin := "example.com".toList
  identityProfileId := uuidOf 1
  contextId := uuidOf 2
  declaredKey := ⟨exampleHash⟩
  mode := .standard
  url := "HTTPS://user@Shop.example.com:8443/cart?utm_source=ad&q=1#top".toList
  method := "GET".toList
  headers := [("Cookie".toList, "id=1".toList)]
  body := []
  downgradeApproved := false

/-- A blocklist that blocks one host and strips one parameter. -/
def exampleBlocklist : Blocklist.State :=
  .fromRules [.host "ads.example.net".toList .ad] [.new "utm_source".toList]

/-- The request passes, with its parameter stripped. -/
theorem route_sound_example :
    ∃ routed, (route (fun _ => exampleHash) bootstrap ⟨4, exampleBlocklist, exampleBlocklist⟩
        exampleRequest).result = .ok routed ∧
      routed.finalUrl = "HTTPS://user@Shop.example.com:8443/cart?q=1#top".toList ∧
      RouteSound (fun _ => exampleHash) ⟨4, exampleBlocklist, exampleBlocklist⟩ exampleRequest
        (route (fun _ => exampleHash) bootstrap ⟨4, exampleBlocklist, exampleBlocklist⟩
          exampleRequest).coordinator routed := by
  refine ⟨_, rfl, by decide, (route_sound _).1 _ _ _ _ rfl⟩

end NetworkCoordinator

end Network

end DevBrowse
