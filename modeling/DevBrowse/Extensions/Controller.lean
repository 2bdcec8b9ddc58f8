import DevBrowse.Extensions.Allowlist
import DevBrowse.Lib.HashMap
import DevBrowse.Lib.Transition

/-!
# The extension controller

The controller holds the active manifest and the extensions installed, behind one lock. A
swap of the manifest disables what the new one does not admit any more, and does so under
the lock it swaps under. An install takes the lock twice: to get at the manifest, and again
to record the extension. It checks the candidate in between, against the manifest it got.

So an install is three steps here (`DevBrowse.Extensions.Install`), and whatever else is
called may come between any two of them.
-/

namespace DevBrowse

namespace Extensions

open Transition (Step)

/-- Whether an installed extension may run. -/
inductive InstalledState where
  /-- It may. -/
  | enabled
  /-- It may not. -/
  | disabled
  deriving DecidableEq

/-- An installed extension. -/
structure InstalledExtension where
  /-- Its id. -/
  extensionId : ExtensionId
  /-- Its version. -/
  version : Version
  /-- Whether it may run. -/
  state : InstalledState
  deriving DecidableEq

/-- What the lock of the controller guards. -/
structure State where
  /-- The active manifest. -/
  manifest : AllowlistManifest
  /-- The installed extensions. -/
  installed : HashMap ExtensionId InstalledExtension

/-- The warnings a call hands back. -/
inductive WarningIntent where
  /-- The candidate is not on the allowlist. -/
  | extensionInstallRejectedOffAllowlist (id : ExtensionId)
  /-- The allowlist does not admit the version of the candidate. -/
  | extensionInstallRejectedVersionConstraint (id : ExtensionId)
  /-- The package of the candidate is another one. -/
  | extensionInstallRejectedXpiHashMismatch (id : ExtensionId)
  /-- The signature of the candidate is not accepted. -/
  | extensionInstallRejectedSignatureMismatch (id : ExtensionId)
  /-- The new manifest is not taken. -/
  | allowlistManifestUpdateRejected
  /-- An installed extension is not on the new allowlist. -/
  | extensionAutoDisabledByRecall (id : ExtensionId)
  /-- The new allowlist does not admit the version of an installed extension. -/
  | extensionAutoDisabledByUpdateConstraint (id : ExtensionId)
  deriving DecidableEq

namespace WarningIntent

/-- The warning for a candidate that is rejected. -/
def forInstallError (id : ExtensionId) : InstallVerifyError → WarningIntent
  | .notOnAllowlist => .extensionInstallRejectedOffAllowlist id
  | .versionConstraintUnsatisfied => .extensionInstallRejectedVersionConstraint id
  | .xpiHashMismatch => .extensionInstallRejectedXpiHashMismatch id
  | .signatureMismatch => .extensionInstallRejectedSignatureMismatch id

/-- The warning for a manifest that is not parsed. -/
def forParseError (_ : AllowlistParseError) : WarningIntent := .allowlistManifestUpdateRejected

/-- The warning for a manifest whose signature is not accepted. -/
def forSigError (_ : SignatureVerifyError) : WarningIntent := .allowlistManifestUpdateRejected

end WarningIntent

/-- What an install comes back with. -/
inductive InstallOutcome where
  /-- The extension is installed. -/
  | installed
  /-- The candidate is rejected. -/
  | rejected (intent : WarningIntent)
  deriving DecidableEq

/-- What a swap comes back with. -/
inductive SwapOutcome where
  /-- The manifest is swapped, with the warnings for what was disabled. -/
  | swapped (intents : List WarningIntent)
  /-- The manifest stays. -/
  | rejected (intent : WarningIntent)
  deriving DecidableEq

namespace State

/-- The controller with a manifest to start from. -/
def new (seedManifest : AllowlistManifest) : State := ⟨seedManifest, ∅⟩

/-- Record a candidate that was found good. -/
def record (st : State) (candidate : InstallCandidate) : State :=
  let ext : InstalledExtension := ⟨candidate.extensionId, candidate.version, .enabled⟩
  { st with installed := st.installed.insert candidate.extensionId ext }

/-- What becomes of an installed extension under a new manifest, with the warning. -/
def reconcile (manifest : AllowlistManifest) (ext : InstalledExtension) :
    InstalledExtension × Option WarningIntent :=
  match manifest.entryFor ext.extensionId with
  | some entry =>
    if entry.versionConstraint.satisfies ext.version then (ext, none)
    else ({ ext with state := .disabled },
      some (.extensionAutoDisabledByUpdateConstraint ext.extensionId))
  | none => ({ ext with state := .disabled },
      some (.extensionAutoDisabledByRecall ext.extensionId))

/-- Swap to a new manifest. -/
def trySwapAllowlistManifest (prims : Primitives) (st : State) (newManifestBytes : List UInt8)
    (detachedSig : Ed25519SigBytes) (rootPubkey : Ed25519PubKeyBytes)
    (verifier : SignatureVerifier) : SwapOutcome × State :=
  match parseAllowlistManifest prims newManifestBytes with
  | .error e => (.rejected (.forParseError e), st)
  | .ok newManifest =>
    match verifyManifestSignature verifier rootPubkey newManifestBytes detachedSig with
    | .error e => (.rejected (.forSigError e), st)
    | .ok () =>
      -- from here on under the lock
      if newManifest.manifestVersion ≤ st.manifest.manifestVersion then
        (.rejected .allowlistManifestUpdateRejected, st)
      else
        (.swapped (st.installed.entries.filterMap fun e => (reconcile newManifest e.2).2),
          ⟨newManifest, st.installed.mapValues fun ext => (reconcile newManifest ext).1⟩)

/-- Remove an extension. -/
def remove (st : State) (id : ExtensionId) : Bool × State :=
  ((st.installed.lookup id).isSome, { st with installed := st.installed.erase id })

end State

/-! ### Calls that interleave -/

/-- How far an install has come. -/
inductive InstallPhase where
  /-- It has got at the manifest. -/
  | snapshot
  /-- It has found the candidate good. -/
  | verified
  /-- It is done. -/
  | returned (outcome : InstallOutcome)
  deriving DecidableEq

/-- A call of `install`. -/
structure Install where
  /-- The candidate. -/
  candidate : InstallCandidate
  /-- The verifier. -/
  verifier : SignatureVerifier
  /-- The manifest that was active when it was called. -/
  manifest : AllowlistManifest
  /-- How far it has come. -/
  phase : InstallPhase

/-- **The extension controller**, with the installs made so far. -/
structure ExtensionController where
  /-- What the lock guards. -/
  state : State
  /-- The installs, in the order they were called. -/
  installs : List Install

namespace ExtensionController

/-- The controller before the first call. -/
def new (seedManifest : AllowlistManifest) : ExtensionController := ⟨.new seedManifest, []⟩

/-- What can happen. -/
inductive Event where
  /-- `install` is called, and gets at the manifest. -/
  | install (candidate : InstallCandidate) (verifier : SignatureVerifier)
  /-- An install checks its candidate. -/
  | verify (i : ℕ)
  /-- An install records its extension. -/
  | insert (i : ℕ)
  /-- `try_swap_allowlist_manifest` is called. -/
  | swap (newManifestBytes : List UInt8) (detachedSig : Ed25519SigBytes)
    (rootPubkey : Ed25519PubKeyBytes) (verifier : SignatureVerifier)
  /-- `remove` is called. -/
  | remove (id : ExtensionId)

/-- **One event.** -/
def step (prims : Primitives) (s : ExtensionController) : Event → Option ExtensionController
  | .install candidate verifier =>
    some { s with installs := s.installs ++ [⟨candidate, verifier, s.state.manifest, .snapshot⟩] }
  | .verify i =>
    match s.installs[i]? with
    | some ⟨candidate, verifier, manifest, .snapshot⟩ =>
      let phase :=
        match verifyInstall prims candidate manifest verifier with
        | .ok _ => .verified
        | .error e => .returned (.rejected (.forInstallError candidate.extensionId e))
      some { s with installs := s.installs.set i ⟨candidate, verifier, manifest, phase⟩ }
    | _ => none
  | .insert i =>
    match s.installs[i]? with
    | some ⟨candidate, verifier, manifest, .verified⟩ =>
      some ⟨s.state.record candidate,
        s.installs.set i ⟨candidate, verifier, manifest, .returned .installed⟩⟩
    | _ => none
  | .swap newManifestBytes detachedSig rootPubkey verifier =>
    some { s with state := (s.state.trySwapAllowlistManifest prims newManifestBytes detachedSig
      rootPubkey verifier).2 }
  | .remove id => some { s with state := (s.state.remove id).2 }

/-- The runs of the controller. -/
abbrev Run (prims : Primitives) (seedManifest : AllowlistManifest) :
    List (Step ExtensionController Event) → ExtensionController → Prop :=
  Transition.Run (Transition.ofFun (step prims)) (new seedManifest)

end ExtensionController

end Extensions

end DevBrowse
