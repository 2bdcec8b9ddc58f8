import DevBrowse.Lib.Text
import Mathlib.Data.Vector.Basic

/-!
# The extension allowlist

A manifest lists the extensions that may be installed: for each of them the versions that
may run, the hash of its package and the key the package is signed with. A manifest comes
as the bytes of a JSON text with a detached signature over these bytes; an extension comes
as a candidate that is checked against the entry for its id.

The JSON decoder and SHA-256 are the ones of their libraries, and not modelled
(`DevBrowse.Extensions.Primitives`). A signature verifier is handed to every call.
-/

namespace DevBrowse

namespace Extensions

/-- The version of the wire format. -/
def allowlistFormatVersion : UInt32 := 1

/-- The id of an extension. -/
structure ExtensionId where
  /-- The text of the id. -/
  val : Text
  deriving DecidableEq

/-- The version of an extension. -/
structure Version where
  /-- The first number. -/
  major : UInt32
  /-- The second number. -/
  minor : UInt32
  /-- The third number. -/
  patch : UInt32
  deriving DecidableEq

namespace Version

/-- Versions are compared number by number, from the first. -/
instance : LE Version where
  le v w := v.major < w.major ∨
    v.major = w.major ∧ (v.minor < w.minor ∨ v.minor = w.minor ∧ v.patch ≤ w.patch)

instance (v w : Version) : Decidable (v ≤ w) :=
  inferInstanceAs (Decidable (_ ∨ _ ∧ (_ ∨ _ ∧ _)))

end Version

/-- The versions an entry of the allowlist admits. -/
inductive VersionConstraint where
  /-- This one only. -/
  | exact (version : Version)
  /-- This one and all later ones. -/
  | atLeast (version : Version)
  deriving DecidableEq

/-- Whether a version is admitted. -/
def VersionConstraint.satisfies (constraint : VersionConstraint) (v : Version) : Bool :=
  match constraint with
  | .exact want => v = want
  | .atLeast floor => floor ≤ v

/-- A SHA-256 hash. -/
structure Sha256Hash where
  /-- The bytes. -/
  bytes : Vector UInt8 32
  deriving DecidableEq

/-- A key to verify signatures with. -/
structure Ed25519PubKeyBytes where
  /-- The bytes. -/
  bytes : Vector UInt8 32
  deriving DecidableEq

/-- A signature. -/
structure Ed25519SigBytes where
  /-- The bytes. -/
  bytes : Vector UInt8 64
  deriving DecidableEq

/-- An entry of the allowlist. -/
structure AllowlistEntry where
  /-- The extension. -/
  extensionId : ExtensionId
  /-- The versions that may run. -/
  versionConstraint : VersionConstraint
  /-- The hash of the package. -/
  sha256OfXpi : Sha256Hash
  /-- The key the package is signed with. -/
  signingPubkey : Ed25519PubKeyBytes
  deriving DecidableEq

/-- An allowlist. -/
structure AllowlistManifest where
  /-- The version of the wire format it was written in. -/
  formatVersion : UInt32
  /-- Its revision. -/
  manifestVersion : UInt64
  /-- The entries. -/
  entries : List AllowlistEntry
  deriving DecidableEq

/-- The entry for an extension. -/
def AllowlistManifest.entryFor (m : AllowlistManifest) (id : ExtensionId) :
    Option AllowlistEntry :=
  m.entries.find? fun e => e.extensionId = id

/-- What is used of the libraries. -/
structure Primitives where
  /-- Decode the JSON text of a manifest. -/
  fromSlice : List UInt8 → Option AllowlistManifest
  /-- SHA-256. -/
  sha256 : List UInt8 → Sha256Hash

/-! ### Manifests -/

/-- Why a manifest is not parsed. -/
inductive AllowlistParseError where
  /-- The bytes are not the JSON text of a manifest. -/
  | invalidJson
  /-- The wire format is another one. -/
  | unsupportedFormatVersion
  /-- An extension has two entries. -/
  | duplicateExtensionId
  deriving DecidableEq

/-- The loop over the entries, with the ids seen so far: whether no id comes twice. -/
def distinctIds (seen : List ExtensionId) : List AllowlistEntry → Bool
  | [] => true
  | e :: entries =>
    if e.extensionId ∈ seen then false else distinctIds (e.extensionId :: seen) entries

/-- Parse the bytes of a manifest. -/
def parseAllowlistManifest (prims : Primitives) (bytes : List UInt8) :
    Except AllowlistParseError AllowlistManifest :=
  match prims.fromSlice bytes with
  | none => .error .invalidJson
  | some manifest =>
    if manifest.formatVersion ≠ allowlistFormatVersion then .error .unsupportedFormatVersion
    else if distinctIds [] manifest.entries then .ok manifest
    else .error .duplicateExtensionId

/-! ### Signatures -/

/-- Why a signature is not accepted. -/
inductive SignatureVerifyError where
  /-- There is no verifier yet. -/
  | moduleNotReady
  /-- The signature is not one of the key over the message. -/
  | mismatch
  deriving DecidableEq

/-- A signature verifier. -/
structure SignatureVerifier where
  /-- Verify a signature over a message with a key. -/
  verifyEd25519 : Ed25519PubKeyBytes → List UInt8 → Ed25519SigBytes →
    Except SignatureVerifyError Unit

/-- The verifier that accepts nothing. -/
def rejectAllVerifier : SignatureVerifier := ⟨fun _ _ _ => .error .moduleNotReady⟩

/-- The verifier that accepts the triples it was told to trust. -/
def inMemoryTrustedVerifier
    (trusted : List (Ed25519PubKeyBytes × List UInt8 × Ed25519SigBytes)) : SignatureVerifier :=
  ⟨fun pubkey msg sig => if (pubkey, msg, sig) ∈ trusted then .ok () else .error .mismatch⟩

/-- Verify the signature of a manifest, over its literal bytes. -/
def verifyManifestSignature (verifier : SignatureVerifier) (rootPubkey : Ed25519PubKeyBytes)
    (manifestBytes : List UInt8) (sig : Ed25519SigBytes) : Except SignatureVerifyError Unit :=
  verifier.verifyEd25519 rootPubkey manifestBytes sig

/-! ### Candidates -/

/-- An extension that is to be installed. -/
structure InstallCandidate where
  /-- The extension. -/
  extensionId : ExtensionId
  /-- The version it says it is. -/
  version : Version
  /-- The package. -/
  xpiBytes : List UInt8
  /-- The signature of the package. -/
  xpiSignature : Ed25519SigBytes
  deriving DecidableEq

/-- Why a candidate is rejected. -/
inductive InstallVerifyError where
  /-- There is no entry for it. -/
  | notOnAllowlist
  /-- The entry does not admit the version. -/
  | versionConstraintUnsatisfied
  /-- The package is not the one of the entry. -/
  | xpiHashMismatch
  /-- The signature of the package is not accepted. -/
  | signatureMismatch
  deriving DecidableEq

/-- Check a candidate against a manifest; the first check that fails is reported. -/
def verifyInstall (prims : Primitives) (candidate : InstallCandidate)
    (manifest : AllowlistManifest) (verifier : SignatureVerifier) :
    Except InstallVerifyError AllowlistEntry :=
  match manifest.entryFor candidate.extensionId with
  | none => .error .notOnAllowlist
  | some entry =>
    if entry.versionConstraint.satisfies candidate.version = false then
      .error .versionConstraintUnsatisfied
    else if prims.sha256 candidate.xpiBytes ≠ entry.sha256OfXpi then .error .xpiHashMismatch
    else
      match verifier.verifyEd25519 entry.signingPubkey candidate.xpiBytes
          candidate.xpiSignature with
      | .error _ => .error .signatureMismatch
      | .ok () => .ok entry

/-- **What a candidate that passes has passed.** -/
theorem verifyInstall_ok {prims : Primitives} {candidate : InstallCandidate}
    {manifest : AllowlistManifest} {verifier : SignatureVerifier} {entry : AllowlistEntry}
    (h : verifyInstall prims candidate manifest verifier = .ok entry) :
    manifest.entryFor candidate.extensionId = some entry ∧
      entry.versionConstraint.satisfies candidate.version = true ∧
      prims.sha256 candidate.xpiBytes = entry.sha256OfXpi ∧
      verifier.verifyEd25519 entry.signingPubkey candidate.xpiBytes candidate.xpiSignature =
        .ok () := by
  rw [verifyInstall] at h
  split at h
  · simp at h
  · rename_i e hentry
    split at h
    · simp at h
    · rename_i hversion
      split at h
      · simp at h
      · rename_i hhash
        split at h
        · simp at h
        · rename_i hsig
          obtain rfl := Except.ok.inj h
          exact ⟨hentry, by simpa using hversion, by simpa using hhash, hsig⟩

end Extensions

end DevBrowse
