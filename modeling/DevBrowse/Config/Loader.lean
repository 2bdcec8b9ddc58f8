import DevBrowse.Basic
import DevBrowse.Lib.Text

/-!
# The configuration and its checks

What is read from the file of the configuration is checked before it is used: the version, the
addresses that may be put into it, and the bounds of its numbers, one after another. The
first check that fails is reported, with the field it is about.

`Config.Valid` is what the checks together ask for, and `Config.validate_eq_ok_iff` that they
do.
-/

namespace DevBrowse

namespace Config

/-- The version of the schema. -/
def currentSchemaVersion : UInt32 := 1

/-! ### What is configured -/

/-- The posture of new profiles. -/
structure PrivacyConfig where
  /-- The mode that is suggested for them. -/
  defaultMode : Mode := .standard
  deriving DecidableEq

/-- Who resolves names. -/
inductive DohProvider where
  /-- Quad9. -/
  | quad9
  /-- NextDNS, its generic endpoint. -/
  | nextDns
  /-- Cloudflare. -/
  | cloudflare
  /-- The resolver of the operating system. -/
  | system
  /-- A resolver of the user's own. -/
  | custom (url : Text)
  deriving DecidableEq

/-- How the network is used. -/
structure NetworkConfig where
  /-- Who resolves names. -/
  provider : DohProvider := .quad9
  deriving DecidableEq

/-- Who is searched with. -/
inductive SearchEngine where
  /-- DuckDuckGo. -/
  | duckDuckGo
  /-- Startpage. -/
  | startpage
  /-- Brave. -/
  | braveSearch
  /-- Mojeek. -/
  | mojeek
  /-- An engine of the user's own. -/
  | custom (url : Text)
  deriving DecidableEq

/-- How searches are made. -/
structure SearchConfig where
  /-- Who is searched with. -/
  defaultEngine : SearchEngine := .duckDuckGo
  deriving DecidableEq

/-- What devices are kept in step through. -/
inductive SyncBackend where
  /-- The devices of the local network. -/
  | lanCluster
  /-- A device that keeps what is sent. -/
  | hubPeer
  /-- A relay of the user's own. -/
  | webDav (url : Text)
  /-- A file. -/
  | localFile (path : Text)
  deriving DecidableEq

/-- How devices are kept in step. -/
structure SyncConfig where
  /-- Whether they are. -/
  enabled : Bool := false
  /-- What through. -/
  backend : Option SyncBackend := none
  deriving DecidableEq

/-- The storage of sites that were only passed through. -/
structure BounceTrackerConfig where
  /-- After how many days it goes. -/
  purgeDays : UInt32 := 45
  deriving DecidableEq

/-- The memory of the graphics card. -/
structure GpuConfig where
  /-- How much of it a profile has, in mebibytes. -/
  memoryCapMib : UInt32 := 512
  deriving DecidableEq

end Config

open Config

/-- The configuration. -/
structure Config where
  /-- The version of the schema it is written for. -/
  version : UInt32 := currentSchemaVersion
  /-- The posture of new profiles. -/
  privacy : PrivacyConfig := {}
  /-- How the network is used. -/
  network : NetworkConfig := {}
  /-- How searches are made. -/
  search : SearchConfig := {}
  /-- How devices are kept in step. -/
  sync : SyncConfig := {}
  /-- The storage of sites that were only passed through. -/
  bounceTracker : BounceTrackerConfig := {}
  /-- The memory of the graphics card. -/
  gpu : GpuConfig := {}
  deriving DecidableEq

namespace Config

/-! ### The checks -/

/-- Why a configuration is turned away. -/
inductive ConfigError where
  /-- It is of another version. -/
  | schemaVersion (found expected : UInt32)
  /-- A field does not pass its check. -/
  | validation (message : Text)
  deriving DecidableEq

/-- One check. -/
def ensure (c : Prop) [Decidable c] (e : ConfigError) : Except ConfigError Unit :=
  if c then .ok () else .error e

theorem ensure_eq_ok_iff {c : Prop} [Decidable c] {e : ConfigError} :
    ensure c e = .ok () ↔ c := by
  rw [ensure]
  split
  · exact iff_of_true rfl ‹c›
  · exact iff_of_false nofun ‹¬ c›

/-- The text of a number. -/
def decimal (n : UInt32) : Text := Nat.toDigits 10 n.toNat

/-- `url.starts_with(start)`. -/
def startsWith (start : String) (url : Text) : Prop := start.toList <+: url

instance (start : String) (url : Text) : Decidable (startsWith start url) :=
  inferInstanceAs (Decidable (start.toList <+: url))

/-- The resolver of the operating system is not for a strict default. -/
def SystemAllowed (cfg : Config) : Prop :=
  ¬ (cfg.privacy.defaultMode = .strict ∧ cfg.network.provider = .system)

instance (cfg : Config) : Decidable cfg.SystemAllowed :=
  inferInstanceAs (Decidable (¬ _))

/-- The address of a relay is `https`, or begins with the address of this device. -/
def WebDavAllowed (url : Text) : Prop :=
  startsWith "https://" url ∨ startsWith "http://localhost" url ∨
    startsWith "http://127.0.0.1" url

instance (url : Text) : Decidable (WebDavAllowed url) := inferInstanceAs (Decidable (_ ∨ _))

variable (quoted : Text → Text)

/-- The address of the user's own resolver. -/
def validateProvider : DohProvider → Except ConfigError Unit
  | .custom url =>
    ensure (startsWith "https://" url) (.validation
      ("network.provider custom URL must be https://, got ".toList ++ quoted url))
  | _ => .ok ()

/-- The address of the user's own search engine. -/
def validateEngine : SearchEngine → Except ConfigError Unit
  | .custom url => do
    ensure (startsWith "https://" url) (.validation
      ("search.default_engine custom URL must be https://, got ".toList ++ quoted url))
    ensure (Text.findStr "{query}".toList url).isSome (.validation
      "search.default_engine custom URL must contain a {query} placeholder".toList)
  | _ => .ok ()

/-- The address of the user's own relay. -/
def validateBackend : Option SyncBackend → Except ConfigError Unit
  | some (.webDav url) =>
    ensure (WebDavAllowed url) (.validation
      ("sync.backend webdav.url must be https:// (or http://localhost for self-host), got ".toList
        ++ quoted url))
  | _ => .ok ()

/-- The configuration checked. -/
def validate (cfg : Config) : Except ConfigError Unit := do
  ensure (cfg.version = currentSchemaVersion)
    (.schemaVersion cfg.version currentSchemaVersion)
  ensure cfg.SystemAllowed (.validation
    ("network.provider = system is not allowed when privacy.default_mode = strict " ++
      "(architecture §3.3)").toList)
  validateProvider quoted cfg.network.provider
  validateEngine quoted cfg.search.defaultEngine
  ensure (¬ (cfg.sync.enabled = true ∧ cfg.sync.backend = none))
    (.validation "sync.enabled = true requires sync.backend to be set".toList)
  validateBackend quoted cfg.sync.backend
  ensure (7 ≤ cfg.bounceTracker.purgeDays ∧ cfg.bounceTracker.purgeDays ≤ 365) (.validation
    ("bounce_tracker.purge_days must be in 7..=365, got ".toList ++
      decimal cfg.bounceTracker.purgeDays))
  ensure (64 ≤ cfg.gpu.memoryCapMib ∧ cfg.gpu.memoryCapMib ≤ 4096) (.validation
    ("gpu.memory_cap_mib must be in 64..=4096, got ".toList ++ decimal cfg.gpu.memoryCapMib))

/-! ### What they ask for -/

/-- What is asked of a configuration. -/
structure Valid (cfg : Config) : Prop where
  /-- It is of the version. -/
  version : cfg.version = currentSchemaVersion
  /-- The resolver of the operating system is not for a strict default. -/
  system : cfg.SystemAllowed
  /-- The user's own resolver is asked over `https`. -/
  provider : ∀ url, cfg.network.provider = .custom url → startsWith "https://" url
  /-- So is the user's own search engine, whose address has a place for what is searched. -/
  engine : ∀ url, cfg.search.defaultEngine = .custom url →
    startsWith "https://" url ∧ (Text.findStr "{query}".toList url).isSome
  /-- Where devices are kept in step, there is something to do so through. -/
  backend : cfg.sync.enabled = true → cfg.sync.backend ≠ none
  /-- The address of the user's own relay is one of those allowed. -/
  webDav : ∀ url, cfg.sync.backend = some (.webDav url) → WebDavAllowed url
  /-- The days are within their bounds. -/
  purgeDays : 7 ≤ cfg.bounceTracker.purgeDays ∧ cfg.bounceTracker.purgeDays ≤ 365
  /-- So is the memory. -/
  memoryCap : 64 ≤ cfg.gpu.memoryCapMib ∧ cfg.gpu.memoryCapMib ≤ 4096

variable {quoted} {cfg : Config}

theorem bind_eq_ok_iff {m m' : Except ConfigError Unit} :
    (m >>= fun _ => m') = .ok () ↔ m = .ok () ∧ m' = .ok () := by
  cases m with
  | ok u => exact ⟨fun h => ⟨rfl, h⟩, And.right⟩
  | error e => exact ⟨nofun, fun h => nomatch h.1⟩

theorem validateProvider_eq_ok_iff {provider : DohProvider} :
    validateProvider quoted provider = .ok () ↔
      ∀ url, provider = .custom url → startsWith "https://" url := by
  cases provider with
  | custom url =>
    rw [validateProvider, ensure_eq_ok_iff]
    refine ⟨?_, fun h => h url rfl⟩
    rintro h _ ⟨⟩
    exact h
  | _ => exact iff_of_true rfl nofun

theorem validateEngine_eq_ok_iff {engine : SearchEngine} :
    validateEngine quoted engine = .ok () ↔
      ∀ url, engine = .custom url →
        startsWith "https://" url ∧ (Text.findStr "{query}".toList url).isSome := by
  cases engine with
  | custom url =>
    rw [validateEngine, bind_eq_ok_iff, ensure_eq_ok_iff, ensure_eq_ok_iff]
    refine ⟨?_, fun h => h url rfl⟩
    rintro h _ ⟨⟩
    exact h
  | _ => exact iff_of_true rfl nofun

theorem validateBackend_eq_ok_iff {backend : Option SyncBackend} :
    validateBackend quoted backend = .ok () ↔
      ∀ url, backend = some (.webDav url) → WebDavAllowed url := by
  match backend with
  | some (.webDav url) =>
    rw [validateBackend, ensure_eq_ok_iff]
    refine ⟨?_, fun h => h url rfl⟩
    rintro h _ ⟨⟩
    exact h
  | none | some .lanCluster | some .hubPeer | some (.localFile _) =>
    exact iff_of_true rfl nofun

/-- **What the checks ask for.** -/
theorem validate_eq_ok_iff : validate quoted cfg = .ok () ↔ cfg.Valid := by
  rw [validate, bind_eq_ok_iff, bind_eq_ok_iff, bind_eq_ok_iff, bind_eq_ok_iff, bind_eq_ok_iff,
    bind_eq_ok_iff, bind_eq_ok_iff, validateProvider_eq_ok_iff, validateEngine_eq_ok_iff,
    validateBackend_eq_ok_iff]
  repeat rw [ensure_eq_ok_iff]
  constructor
  · rintro ⟨hversion, hsystem, hprovider, hengine, hbackend, hwebDav, hdays, hmemory⟩
    exact ⟨hversion, hsystem, hprovider, hengine, fun h h' => hbackend ⟨h, h'⟩, hwebDav, hdays,
      hmemory⟩
  · rintro ⟨hversion, hsystem, hprovider, hengine, hbackend, hwebDav, hdays, hmemory⟩
    exact ⟨hversion, hsystem, hprovider, hengine, fun h => hbackend h.1 h.2, hwebDav, hdays,
      hmemory⟩

/-- What is configured where nothing is said passes the checks. -/
example : validate id {} = .ok () := by decide

end Config

end DevBrowse
