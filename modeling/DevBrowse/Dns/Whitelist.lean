import DevBrowse.Config.Loader

/-!
# The resolvers that may be asked

The configuration names who resolves names; where that resolver is, the whitelist says. It
has the curated resolvers, takes an address of the user's own if it is `https`, and knows no
endpoint for the resolver of the operating system, which a strict mode forbids.

The configuration was checked when it was read, by other code.
`DevBrowse.Dns.exists_lookup_iff` says that the two ask for the same, and
`DevBrowse.Dns.lookup_of_validate` that what was accepted is resolved to what it names.
-/

namespace DevBrowse

namespace Dns

open Config

/-- The SHA-256 fingerprint of the key of an endpoint. -/
structure SpkiPin where
  /-- The bytes. -/
  bytes : Vector UInt8 32
  deriving DecidableEq

/-- A resolver that is asked over `https`. -/
structure ResolverEndpoint where
  /-- What it is called in reports. -/
  id : Text
  /-- Where it is. -/
  url : Text
  /-- The fingerprint its key has to have. -/
  spkiPin : Option SpkiPin
  deriving DecidableEq

/-- Why a choice has no endpoint. -/
inductive WhitelistError where
  /-- The resolver of the operating system is not permitted in this mode. -/
  | systemDnsForbidden
  /-- An address of the user's own is not `https`. -/
  | customNotHttps
  deriving DecidableEq

/-- Quad9. -/
def quad9 : ResolverEndpoint :=
  ⟨"quad9".toList, "https://dns.quad9.net/dns-query".toList, none⟩

/-- Cloudflare. -/
def cloudflare : ResolverEndpoint :=
  ⟨"cloudflare".toList, "https://cloudflare-dns.com/dns-query".toList, none⟩

/-- NextDNS, its generic endpoint. -/
def nextdnsGeneric : ResolverEndpoint :=
  ⟨"nextdns-generic".toList, "https://dns.nextdns.io".toList, none⟩

/-- The endpoint of a choice; none for the resolver of the operating system. -/
def Whitelist.lookup (choice : DohProvider) (strictMode : Bool) :
    Except WhitelistError (Option ResolverEndpoint) :=
  match choice with
  | .quad9 => .ok (some quad9)
  | .cloudflare => .ok (some cloudflare)
  | .nextDns => .ok (some nextdnsGeneric)
  | .system => if strictMode then .error .systemDnsForbidden else .ok none
  | .custom url =>
    if startsWith "https://" url then .ok (some ⟨"custom".toList, url, none⟩)
    else .error .customNotHttps

/-- The curated resolvers. -/
def Whitelist.curated : List ResolverEndpoint := [quad9, cloudflare, nextdnsGeneric]

/-- **Every curated resolver is asked over `https`.** -/
theorem https_of_mem_curated {e : ResolverEndpoint} (h : e ∈ Whitelist.curated) :
    startsWith "https://" e.url := by
  have hall : ∀ e ∈ Whitelist.curated, startsWith "https://" e.url := by decide
  exact hall e h

section Lookup

variable {choice : DohProvider} {strictMode : Bool} {e : ResolverEndpoint}

/-- **Every endpoint is asked over `https`**, be it curated or the user's own. -/
theorem https_of_lookup (h : Whitelist.lookup choice strictMode = .ok (some e)) :
    startsWith "https://" e.url := by
  cases choice with
  | quad9 => exact https_of_mem_curated (by rw [← Option.some.inj (Except.ok.inj h)]; decide)
  | nextDns => exact https_of_mem_curated (by rw [← Option.some.inj (Except.ok.inj h)]; decide)
  | cloudflare => exact https_of_mem_curated (by rw [← Option.some.inj (Except.ok.inj h)]; decide)
  | system =>
    rw [Whitelist.lookup] at h
    split at h <;> cases h
  | custom url =>
    rw [Whitelist.lookup] at h
    split at h
    · rename_i hurl
      rw [← Option.some.inj (Except.ok.inj h)]
      exact hurl
    · cases h

/-- **Only the resolver of the operating system has no endpoint**, and only where it is
permitted. -/
theorem lookup_eq_ok_none_iff :
    Whitelist.lookup choice strictMode = .ok none ↔ choice = .system ∧ strictMode = false := by
  cases choice with
  | system => cases strictMode <;> simp [Whitelist.lookup]
  | custom url =>
    rw [Whitelist.lookup]
    split <;> simp
  | _ => simp [Whitelist.lookup]

/-- **The whitelist turns away what the checks of the configuration do**: the resolver of
the operating system in a strict mode, and an address of the user's own that is not
`https`. -/
theorem exists_lookup_iff {quoted : Text → Text} {cfg : Config} :
    (∃ endpoint, Whitelist.lookup cfg.network.provider (cfg.privacy.defaultMode = .strict) =
        .ok endpoint) ↔
      cfg.SystemAllowed ∧ validateProvider quoted cfg.network.provider = .ok () := by
  rw [SystemAllowed]
  cases hprovider : cfg.network.provider with
  | system =>
    by_cases hmode : cfg.privacy.defaultMode = .strict <;>
      simp [Whitelist.lookup, validateProvider, hmode]
  | custom url =>
    rw [validateProvider_eq_ok_iff, Whitelist.lookup]
    by_cases hurl : startsWith "https://" url <;> simp [hurl]
  | _ => simp [Whitelist.lookup, validateProvider]

end Lookup

/-- What a choice stands for in a mode. -/
inductive EndpointOf : DohProvider → Mode → Option ResolverEndpoint → Prop
  /-- Quad9 is asked at its own address. -/
  | quad9 (mode : Mode) : EndpointOf .quad9 mode
      (some ⟨"quad9".toList, "https://dns.quad9.net/dns-query".toList, none⟩)
  /-- So is Cloudflare. -/
  | cloudflare (mode : Mode) : EndpointOf .cloudflare mode
      (some ⟨"cloudflare".toList, "https://cloudflare-dns.com/dns-query".toList, none⟩)
  /-- So is NextDNS. -/
  | nextDns (mode : Mode) : EndpointOf .nextDns mode
      (some ⟨"nextdns-generic".toList, "https://dns.nextdns.io".toList, none⟩)
  /-- The resolver of the operating system has no endpoint, and a standard mode. -/
  | system : EndpointOf .system .standard none
  /-- A resolver of the user's own is asked where the user says. -/
  | custom (url : Text) (mode : Mode) : EndpointOf (.custom url) mode
      (some ⟨"custom".toList, url, none⟩)

/-- An endpoint that is found is the one of the choice. -/
theorem endpointOf_of_lookup {choice : DohProvider} {mode : Mode}
    {endpoint : Option ResolverEndpoint}
    (h : Whitelist.lookup choice (mode = .strict) = .ok endpoint) :
    EndpointOf choice mode endpoint := by
  cases choice with
  | quad9 =>
    rw [← Except.ok.inj h]
    exact .quad9 mode
  | cloudflare =>
    rw [← Except.ok.inj h]
    exact .cloudflare mode
  | nextDns =>
    rw [← Except.ok.inj h]
    exact .nextDns mode
  | system =>
    cases mode with
    | standard =>
      rw [← Except.ok.inj h]
      exact .system
    | strict => cases h
  | custom url =>
    rw [Whitelist.lookup] at h
    split at h
    · rw [← Except.ok.inj h]
      exact .custom url mode
    · cases h

/-- **What the checks of the configuration accept, the whitelist resolves** to what the
configuration names: the endpoint of its own resolver, which is asked over `https`, or, in the
standard mode and for the resolver of the operating system only, to none. -/
theorem lookup_of_validate {quoted : Text → Text} {cfg : Config}
    (h : validate quoted cfg = .ok ()) :
    ∃ endpoint,
      Whitelist.lookup cfg.network.provider (cfg.privacy.defaultMode = .strict) = .ok endpoint ∧
        EndpointOf cfg.network.provider cfg.privacy.defaultMode endpoint ∧
        (∀ e, endpoint = some e → startsWith "https://" e.url) ∧
        (endpoint = none →
          cfg.network.provider = .system ∧ cfg.privacy.defaultMode = .standard) := by
  have hvalid : cfg.Valid := validate_eq_ok_iff.mp h
  have hprovider : validateProvider quoted cfg.network.provider = .ok () :=
    validateProvider_eq_ok_iff.mpr hvalid.provider
  obtain ⟨endpoint, hendpoint⟩ := exists_lookup_iff.mpr ⟨hvalid.system, hprovider⟩
  refine ⟨endpoint, hendpoint, endpointOf_of_lookup hendpoint, ?_, ?_⟩
  · rintro e rfl
    exact https_of_lookup hendpoint
  · rintro rfl
    obtain ⟨hsystem, hmode⟩ := lookup_eq_ok_none_iff.mp hendpoint
    refine ⟨hsystem, ?_⟩
    cases hdefault : cfg.privacy.defaultMode with
    | standard => rfl
    | strict => simp [hdefault] at hmode

/-- A strict default with a resolver of the user's own. -/
def ownResolver : Config where
  privacy := ⟨.strict⟩
  network := ⟨.custom "https://dns.example/dns-query".toList⟩

/-- A standard default with the resolver of the operating system. -/
def systemResolver : Config where
  privacy := ⟨.standard⟩
  network := ⟨.system⟩

/-- It is asked where the user says, and the operating system's has no endpoint. -/
theorem lookup_of_validate_resolvers :
    Whitelist.lookup ownResolver.network.provider (ownResolver.privacy.defaultMode = .strict) =
        .ok (some ⟨"custom".toList, "https://dns.example/dns-query".toList, none⟩) ∧
      Whitelist.lookup systemResolver.network.provider
        (systemResolver.privacy.defaultMode = .strict) = .ok none := by
  obtain ⟨_, hown, hof, -⟩ :=
    lookup_of_validate (by decide : validate id ownResolver = .ok ())
  obtain ⟨_, hsystem, hof', -⟩ :=
    lookup_of_validate (by decide : validate id systemResolver = .ok ())
  cases hof
  cases hof'
  exact ⟨hown, hsystem⟩

end Dns

end DevBrowse
