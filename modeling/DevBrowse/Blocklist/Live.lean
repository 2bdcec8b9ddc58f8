import DevBrowse.Blocklist.State

/-!
# The live blocklist

The blocklist in use is replaced as a whole when a new manifest comes in. A tick of the
scheduler looks at its version, asks the loader for a manifest that is newer, and swaps to
the one it gets. If it gets none the blocklist stays as it is; some reasons for that are
warned of.

A loader hands out manifests that are strictly newer than the version it is told
(`DevBrowse.Blocklist.InMemoryLoader.load_newer`).
-/

namespace DevBrowse

namespace Blocklist

/-- A manifest of the blocklist. -/
structure Manifest where
  /-- Its version. -/
  contentVersion : UInt64
  /-- The rules for hosts. -/
  hostRules : List Rule
  /-- The parameters to strip. -/
  urlParamRules : List UrlParamRule
  deriving DecidableEq

/-- **The live blocklist**: what the lock guards. -/
structure Live where
  /-- What is looked things up in. -/
  state : State
  /-- The version of the manifest it comes from. -/
  contentVersion : UInt64

namespace Live

/-- The blocklist before the first manifest. -/
def empty : Live := ⟨.empty, 0⟩

/-- The blocklist of a manifest. -/
def fromManifest (m : Manifest) : Live :=
  ⟨.fromRules m.hostRules m.urlParamRules, m.contentVersion⟩

/-- Replace the blocklist, for the version that is replaced. -/
def swap (live : Live) (m : Manifest) : UInt64 × Live := (live.contentVersion, fromManifest m)

end Live

/-! ### Loaders -/

/-- Why no manifest is loaded. -/
inductive LoaderError where
  /-- The loader is not ready yet. -/
  | moduleNotReady
  /-- The feed cannot be reached. -/
  | transport
  /-- The signature is not accepted. -/
  | signature
  /-- The manifest breaks its format. -/
  | invalidManifest
  /-- There is nothing newer. -/
  | noNewContent
  deriving DecidableEq

/-- A loader with a result staged for its next call. -/
structure InMemoryLoader where
  /-- What is staged. -/
  next : Option (Except LoaderError Manifest)

/-- Load, for a version: what was staged is handed out once. -/
def InMemoryLoader.load (loader : InMemoryLoader) (currentVersion : UInt64) :
    Except LoaderError Manifest × InMemoryLoader :=
  let result :=
    match loader.next with
    | some (.ok m) => if m.contentVersion ≤ currentVersion then .error .noNewContent else .ok m
    | some (.error e) => .error e
    | none => .error .noNewContent
  (result, ⟨none⟩)

/-- **What is loaded is strictly newer.** -/
theorem InMemoryLoader.load_newer {loader : InMemoryLoader} {currentVersion : UInt64}
    {m : Manifest} (h : (loader.load currentVersion).1 = .ok m) :
    currentVersion < m.contentVersion := by
  rw [load] at h
  cases hnext : loader.next with
  | none => simp [hnext] at h
  | some staged =>
    cases staged with
    | error e => simp [hnext] at h
    | ok m' =>
      by_cases hversion : m'.contentVersion ≤ currentVersion
      · simp [hnext, hversion] at h
      · obtain rfl : m' = m := by simpa [hnext, hversion] using h
        exact UInt64.not_le.mp hversion

/-! ### Ticks -/

/-- What a tick comes to. -/
inductive TickOutcome where
  /-- The blocklist was replaced by one of this version. -/
  | updated (newContentVersion : UInt64)
  /-- There was nothing newer. -/
  | noNewContent
  /-- The loader was not ready. -/
  | notReady
  /-- Nothing was loaded, and there was a warning. -/
  | warned
  deriving DecidableEq

/-- The code of the warning that the feed cannot be reached. -/
def transportFailure : Text := "blocklist.transport_failure".toList

/-- The code of the warning about a signature. -/
def signatureFailure : Text := "blocklist.signature_failure".toList

/-- The code of the warning about a manifest. -/
def invalidManifest : Text := "blocklist.invalid_manifest".toList

/-- What a tick leaves behind. -/
structure Ticked where
  /-- What it comes to. -/
  outcome : TickOutcome
  /-- The warnings it gives. -/
  warnings : List Text
  /-- The blocklist. -/
  live : Live

/-- The end of a tick, when the loader has come back. -/
def settle (live : Live) (loaded : Except LoaderError Manifest) : Ticked :=
  match loaded with
  | .ok manifest => ⟨.updated manifest.contentVersion, [], (live.swap manifest).2⟩
  | .error .noNewContent => ⟨.noNewContent, [], live⟩
  | .error .moduleNotReady => ⟨.notReady, [], live⟩
  | .error .transport => ⟨.warned, [transportFailure], live⟩
  | .error .signature => ⟨.warned, [signatureFailure], live⟩
  | .error .invalidManifest => ⟨.warned, [invalidManifest], live⟩

/-- **One tick**, with nothing in between. -/
def tickOnce (load : UInt64 → Except LoaderError Manifest) (live : Live) : Ticked :=
  settle live (load live.contentVersion)

/-- A tick replaces the blocklist by the one of the manifest it loaded, or leaves it alone. -/
theorem settle_cases (live : Live) (loaded : Except LoaderError Manifest) :
    (∃ m, loaded = .ok m ∧ settle live loaded =
      ⟨.updated m.contentVersion, [], .fromManifest m⟩) ∨
    ∃ e, loaded = .error e ∧ (settle live loaded).live = live ∧
      ∀ v, (settle live loaded).outcome ≠ .updated v := by
  cases loaded with
  | ok m => exact Or.inl ⟨m, rfl, rfl⟩
  | error e =>
    refine Or.inr ⟨e, rfl, ?_, ?_⟩
    · cases e <;> rfl
    · cases e <;> simp [settle]

/-- **A tick on its own is monotone.** -/
theorem contentVersion_le_tickOnce {load : UInt64 → Except LoaderError Manifest}
    (hload : ∀ v m, load v = .ok m → v < m.contentVersion) (live : Live) :
    live.contentVersion ≤ (tickOnce load live).live.contentVersion := by
  rcases settle_cases live (load live.contentVersion) with ⟨m, hm, heq⟩ | ⟨e, -, heq, -⟩
  · rw [tickOnce, heq]
    exact UInt64.le_of_lt (hload _ _ hm)
  · rw [tickOnce, heq]
    exact UInt64.le_refl _

end Blocklist

end DevBrowse
