import DevBrowse.Extensions.Enforcement

/-!
# Whether what is installed still passes the gates

Calls are made one after the other here, and none comes between the two visits an install
pays to the lock. Then a swap leaves nothing enabled without an entry or in a version the
entry does not admit. But that is all it looks at: the controller keeps no record of the
package an extension came from, so it cannot check the package again. An entry that is
published again for the same version, with the hash of another package, leaves the old
package enabled (`DevBrowse.Extensions.Installation.not_sound_republished`).

So the extensions that may run pass all the gates after every call exactly if no swap that
is taken brings such an entry (`DevBrowse.Extensions.Installation.sound_iff`).
-/

namespace DevBrowse

namespace Extensions

open Transition (Step)

variable {prims : Primitives} {seedManifest : AllowlistManifest}

namespace State

/-- Install a candidate, with nothing in between. -/
def install (prims : Primitives) (st : State) (candidate : InstallCandidate)
    (verifier : SignatureVerifier) : InstallOutcome × State :=
  match verifyInstall prims candidate st.manifest verifier with
  | .ok _ => (.installed, st.record candidate)
  | .error e => (.rejected (.forInstallError candidate.extensionId e), st)

end State

/-- What an installed extension was installed from. The controller keeps no record of it. -/
structure Origin where
  /-- The package. -/
  xpiBytes : List UInt8
  /-- The signature of the package. -/
  xpiSignature : Ed25519SigBytes
  /-- The verifier the signature was checked with. -/
  verifier : SignatureVerifier

/-- **The controller, with the history of its registry**: for every id the package that was
last installed under it. -/
structure Installation where
  /-- What the lock guards. -/
  state : State
  /-- What was last installed. -/
  origins : HashMap ExtensionId Origin

namespace Installation

/-- Nothing is installed yet. -/
def new (seedManifest : AllowlistManifest) : Installation := ⟨.new seedManifest, ∅⟩

/-- The calls. -/
inductive Call where
  /-- `install` is called. -/
  | install (candidate : InstallCandidate) (verifier : SignatureVerifier)
  /-- `try_swap_allowlist_manifest` is called. -/
  | swap (newManifestBytes : List UInt8) (detachedSig : Ed25519SigBytes)
    (rootPubkey : Ed25519PubKeyBytes) (verifier : SignatureVerifier)
  /-- `remove` is called. -/
  | remove (id : ExtensionId)

/-- **One call**, from its beginning to its end. -/
def call (prims : Primitives) (h : Installation) : Call → Installation
  | .install candidate verifier =>
    match h.state.install prims candidate verifier with
    | (.installed, st) =>
      ⟨st, h.origins.insert candidate.extensionId
        ⟨candidate.xpiBytes, candidate.xpiSignature, verifier⟩⟩
    | (.rejected _, st) => ⟨st, h.origins⟩
  | .swap newManifestBytes detachedSig rootPubkey verifier =>
    ⟨(h.state.trySwapAllowlistManifest prims newManifestBytes detachedSig rootPubkey verifier).2,
      h.origins⟩
  | .remove id => ⟨(h.state.remove id).2, h.origins⟩

/-- The runs of calls made one after the other. -/
abbrev Run (prims : Primitives) (seedManifest : AllowlistManifest) :
    List (Step Installation Call) → Installation → Prop :=
  Transition.Run (Transition.ofFun fun h c => some (h.call prims c)) (new seedManifest)

/-- The extension passes all the gates of the manifest, with the package it came from. -/
def Passes (prims : Primitives) (manifest : AllowlistManifest) (ext : InstalledExtension)
    (origin : Origin) : Prop :=
  ∃ entry, verifyInstall prims
    ⟨ext.extensionId, ext.version, origin.xpiBytes, origin.xpiSignature⟩ manifest
    origin.verifier = .ok entry

/-- **What may run passes all the gates** of the active manifest. -/
def Sound (prims : Primitives) (h : Installation) : Prop :=
  ∀ id ext, h.state.installed.lookup id = some ext → ext.state = .enabled →
    ∃ origin, h.origins.lookup id = some origin ∧ Passes prims h.state.manifest ext origin

/-- The manifest is one the swap takes: it is parsed, signed, and newer than the active one. -/
def Taken (prims : Primitives) (h : Installation) : Call → AllowlistManifest → Prop
  | .swap newManifestBytes detachedSig rootPubkey verifier, manifest =>
    parseAllowlistManifest prims newManifestBytes = .ok manifest ∧
      verifier.verifyEd25519 rootPubkey newManifestBytes detachedSig = .ok () ∧
      h.state.manifest.manifestVersion < manifest.manifestVersion
  | _, _ => False

/-- **No entry is published again for another package**: where an extension may run and a
manifest is taken that admits its version, the entry keeps its hash, and the signature of
the package is accepted under its key. -/
def Kept (prims : Primitives) (x : Step Installation Call) : Prop :=
  ∀ manifest, Taken prims x.pre x.input manifest →
    ∀ id ext origin old new, x.pre.state.installed.lookup id = some ext → ext.state = .enabled →
      x.pre.origins.lookup id = some origin →
      x.pre.state.manifest.entryFor ext.extensionId = some old →
      manifest.entryFor ext.extensionId = some new →
      new.versionConstraint.satisfies ext.version = true →
      new.sha256OfXpi = old.sha256OfXpi ∧
        origin.verifier.verifyEd25519 new.signingPubkey origin.xpiBytes origin.xpiSignature =
          .ok ()

variable {h : Installation} {manifest manifest' : AllowlistManifest} {ext : InstalledExtension}
  {origin : Origin} {candidate : InstallCandidate} {verifier : SignatureVerifier} {c : Call}
  {tr : List (Step Installation Call)}

/-- The four gates. -/
theorem passes_iff : Passes prims manifest ext origin ↔
    ∃ entry, manifest.entryFor ext.extensionId = some entry ∧
      entry.versionConstraint.satisfies ext.version = true ∧
      prims.sha256 origin.xpiBytes = entry.sha256OfXpi ∧
      origin.verifier.verifyEd25519 entry.signingPubkey origin.xpiBytes origin.xpiSignature =
        .ok () := by
  constructor
  · rintro ⟨entry, hok⟩
    exact ⟨entry, verifyInstall_ok hok⟩
  · rintro ⟨entry, hentry, hsat, hhash, hsig⟩
    exact ⟨entry, by simp [verifyInstall, hentry, hsat, hhash, hsig]⟩

/-- An install is refused and changes nothing, or its candidate passes and is recorded. -/
theorem call_install_cases (prims : Primitives) (h : Installation) (candidate : InstallCandidate)
    (verifier : SignatureVerifier) :
    h.call prims (.install candidate verifier) = h ∨
    (∃ entry, verifyInstall prims candidate h.state.manifest verifier = .ok entry) ∧
      h.call prims (.install candidate verifier) =
        ⟨h.state.record candidate, h.origins.insert candidate.extensionId
          ⟨candidate.xpiBytes, candidate.xpiSignature, verifier⟩⟩ := by
  cases hver : verifyInstall prims candidate h.state.manifest verifier with
  | error e => exact Or.inl (by simp [call, State.install, hver])
  | ok entry => exact Or.inr ⟨⟨entry, rfl⟩, by simp [call, State.install, hver]⟩

/-- A swap is refused and changes nothing, or its manifest is taken and everything installed
is reconciled with it. -/
theorem call_swap_cases (prims : Primitives) (h : Installation) (bytes : List UInt8)
    (sig : Ed25519SigBytes) (rootPubkey : Ed25519PubKeyBytes) (verifier : SignatureVerifier) :
    ((∀ manifest, ¬ Taken prims h (.swap bytes sig rootPubkey verifier) manifest) ∧
      h.call prims (.swap bytes sig rootPubkey verifier) = h) ∨
    ∃ manifest, Taken prims h (.swap bytes sig rootPubkey verifier) manifest ∧
      h.call prims (.swap bytes sig rootPubkey verifier) =
        ⟨⟨manifest, h.state.installed.mapValues fun ext => (State.reconcile manifest ext).1⟩,
          h.origins⟩ := by
  by_cases htaken : ∃ manifest, Taken prims h (.swap bytes sig rootPubkey verifier) manifest
  · obtain ⟨manifest, hparse, hsig, hversion⟩ := htaken
    refine Or.inr ⟨manifest, ⟨hparse, hsig, hversion⟩, ?_⟩
    simp [call, State.trySwapAllowlistManifest, verifyManifestSignature, hparse, hsig,
      UInt64.not_le.mpr hversion]
  · refine Or.inl ⟨fun manifest hm => htaken ⟨manifest, hm⟩, ?_⟩
    rcases State.trySwap_cases prims h.state bytes sig rootPubkey verifier with ⟨_, heq⟩ |
      ⟨manifest, hparse, hsig, hversion, -⟩
    · simp [call, heq]
    · exact absurd ⟨manifest, hparse, hsig, hversion⟩ htaken

theorem Taken.unique (htaken : Taken prims h c manifest) (htaken' : Taken prims h c manifest') :
    manifest' = manifest := by
  cases c with
  | swap => exact Except.ok.inj (htaken'.1.symm.trans htaken.1)
  | install => exact htaken.elim
  | remove => exact htaken.elim

/-- What may run after it is reconciled may have run before, and the new manifest has an
entry that admits its version. -/
theorem reconcile_enabled (henabled : (State.reconcile manifest ext).1.state = .enabled) :
    (State.reconcile manifest ext).1 = ext ∧ ∃ entry,
      manifest.entryFor ext.extensionId = some entry ∧
        entry.versionConstraint.satisfies ext.version = true := by
  cases hentry : manifest.entryFor ext.extensionId with
  | none => simp [State.reconcile, hentry] at henabled
  | some entry =>
    by_cases hsat : entry.versionConstraint.satisfies ext.version = true
    · exact ⟨by simp [State.reconcile, hentry, hsat], entry, rfl, hsat⟩
    · simp [State.reconcile, hentry, hsat] at henabled

theorem Sound.install (hs : Sound prims h) (candidate : InstallCandidate)
    (verifier : SignatureVerifier) : Sound prims (h.call prims (.install candidate verifier)) := by
  rcases call_install_cases prims h candidate verifier with heq | ⟨hver, heq⟩
  · rw [heq]
    exact hs
  · rw [heq]
    rintro id ext hext henabled
    rw [HashMap.lookup_insert_eq]
    rcases HashMap.lookup_insert_cases hext with ⟨hid, rfl⟩ | ⟨hid, hold⟩
    · exact ⟨_, if_pos hid, hver⟩
    · rw [if_neg hid]
      exact hs id ext hold henabled

theorem Sound.remove (hs : Sound prims h) (id : ExtensionId) :
    Sound prims (h.call prims (.remove id)) := by
  rintro id' ext hext henabled
  exact hs id' ext (HashMap.lookup_erase_eq_some_iff.mp hext).2 henabled

/-- **A swap** to a manifest leaves only what passes its gates exactly if it publishes no
entry again for another package. -/
theorem sound_reconcile_iff (hs : Sound prims h) (htaken : Taken prims h c manifest) :
    Sound prims
        ⟨⟨manifest, h.state.installed.mapValues fun ext => (State.reconcile manifest ext).1⟩,
          h.origins⟩ ↔
      Kept prims ⟨h, c, h.call prims c⟩ := by
  constructor
  · intro hs' manifest' htaken' id ext origin old new hext henabled horigin hold hnew hsat
    obtain rfl := htaken.unique htaken'
    have hrec : State.reconcile manifest' ext = (ext, none) := by
      simp [State.reconcile, hnew, hsat]
    obtain ⟨origin', horigin', hpass⟩ := hs' id ext
      (by simp [HashMap.lookup_mapValues, hext, hrec]) henabled
    obtain ⟨origin'', horigin'', hpass'⟩ := hs id ext hext henabled
    obtain rfl : origin' = origin := Option.some.inj (horigin'.symm.trans horigin)
    obtain rfl : origin'' = origin' := Option.some.inj (horigin''.symm.trans horigin)
    obtain ⟨entry, hentry, -, hhash, hsig⟩ := passes_iff.mp hpass
    obtain ⟨entry', hentry', -, hhash', -⟩ := passes_iff.mp hpass'
    obtain rfl := Option.some.inj (hentry.symm.trans hnew)
    obtain rfl := Option.some.inj (hentry'.symm.trans hold)
    exact ⟨hhash.symm.trans hhash', hsig⟩
  · intro hkept id ext hext henabled
    simp only [HashMap.lookup_mapValues, Option.map_eq_some_iff] at hext
    obtain ⟨ext₀, hext₀, rfl⟩ := hext
    obtain ⟨heq, new, hnew, hsat⟩ := reconcile_enabled henabled
    rw [heq] at henabled ⊢
    obtain ⟨origin, horigin, hpass⟩ := hs id ext₀ hext₀ henabled
    obtain ⟨old, hold, -, hhash, -⟩ := passes_iff.mp hpass
    obtain ⟨hkeep, hsig⟩ := hkept manifest htaken id ext₀ origin old new hext₀ henabled horigin
      hold hnew hsat
    exact ⟨origin, horigin, passes_iff.mpr ⟨new, hnew, hsat, hhash.trans hkeep.symm, hsig⟩⟩

/-- One call keeps what may run sound if and only if it publishes no entry again for another
package. -/
theorem sound_call_iff (hs : Sound prims h) :
    Sound prims (h.call prims c) ↔ Kept prims ⟨h, c, h.call prims c⟩ := by
  cases c with
  | install candidate verifier =>
    exact iff_of_true (hs.install candidate verifier) fun _ htaken => htaken.elim
  | swap bytes sig rootPubkey verifier =>
    rcases call_swap_cases prims h bytes sig rootPubkey verifier with ⟨hnot, heq⟩ |
      ⟨manifest, htaken, heq⟩
    · rw [heq]
      exact iff_of_true hs fun manifest htaken => absurd htaken (hnot manifest)
    · rw [← sound_reconcile_iff hs htaken, heq]
  | remove id => exact iff_of_true (hs.remove id) fun _ htaken => htaken.elim

/-- **When everything that may run still passes all the gates**: after every call of a run
exactly if no call takes a manifest that publishes an entry again, for another package, of
an extension that may run and whose version it admits. -/
theorem sound_iff (hrun : Run prims seedManifest tr h) :
    (∀ x ∈ tr, Sound prims x.post) ↔ ∀ x ∈ tr, Kept prims x := by
  refine hrun.forall_post_iff ?_ ?_
  · intro id ext hext
    simp [new, State.new] at hext
  · rintro - h c - - hs ⟨⟩
    exact sound_call_iff hs

/-- **Entries that are carried over are harmless**: so is every manifest that gives what may
run the hash and the key of the active one. -/
theorem kept_of_entry_eq {x : Step Installation Call} (hs : Sound prims x.pre)
    (hsame : ∀ manifest, Taken prims x.pre x.input manifest → ∀ id ext old new,
      x.pre.state.installed.lookup id = some ext → ext.state = .enabled →
      x.pre.state.manifest.entryFor ext.extensionId = some old →
      manifest.entryFor ext.extensionId = some new →
      new.sha256OfXpi = old.sha256OfXpi ∧ new.signingPubkey = old.signingPubkey) :
    Kept prims x := by
  intro manifest htaken id ext origin old new hext henabled horigin hold hnew hsat
  obtain ⟨hhash, hkey⟩ := hsame manifest htaken id ext old new hext henabled hold hnew
  obtain ⟨origin', horigin', hpass⟩ := hs id ext hext henabled
  obtain rfl : origin' = origin := Option.some.inj (horigin'.symm.trans horigin)
  obtain ⟨entry, hentry, -, -, hsig⟩ := passes_iff.mp hpass
  obtain rfl := Option.some.inj (hentry.symm.trans hold)
  exact ⟨hhash, by rw [hkey, hsig]⟩

/-! ### Calls as events -/

/-- An install that nothing comes between, event by event. -/
theorem run_install (prims : Primitives) (s : ExtensionController)
    (candidate : InstallCandidate) (verifier : SignatureVerifier) :
    ∃ tr, Transition.Run (Transition.ofFun (ExtensionController.step prims)) s tr
      ⟨(s.state.install prims candidate verifier).2, s.installs ++
        [⟨candidate, verifier, s.state.manifest,
          .returned (s.state.install prims candidate verifier).1⟩]⟩ := by
  have hcalled : s.step prims (.install candidate verifier) = some ⟨s.state,
    s.installs ++ [⟨candidate, verifier, s.state.manifest, .snapshot⟩]⟩ := rfl
  cases hver : verifyInstall prims candidate s.state.manifest verifier with
  | error e =>
    have hverified : ExtensionController.step prims ⟨s.state,
        s.installs ++ [⟨candidate, verifier, s.state.manifest, .snapshot⟩]⟩
        (.verify s.installs.length) = some ⟨s.state, s.installs ++ [⟨candidate, verifier,
          s.state.manifest,
          .returned (.rejected (.forInstallError candidate.extensionId e))⟩]⟩ := by
      simp [ExtensionController.step, hver]
    simp only [State.install, hver]
    exact ⟨_, (Transition.Run.nil.snoc hcalled).snoc hverified⟩
  | ok entry =>
    have hverified : ExtensionController.step prims ⟨s.state,
        s.installs ++ [⟨candidate, verifier, s.state.manifest, .snapshot⟩]⟩
        (.verify s.installs.length) = some ⟨s.state,
          s.installs ++ [⟨candidate, verifier, s.state.manifest, .verified⟩]⟩ := by
      simp [ExtensionController.step, hver]
    have hinserted : ExtensionController.step prims ⟨s.state,
        s.installs ++ [⟨candidate, verifier, s.state.manifest, .verified⟩]⟩
        (.insert s.installs.length) = some ⟨s.state.record candidate, s.installs ++
          [⟨candidate, verifier, s.state.manifest, .returned .installed⟩]⟩ := by
      simp [ExtensionController.step]
    simp only [State.install, hver]
    exact ⟨_, ((Transition.Run.nil.snoc hcalled).snoc hverified).snoc hinserted⟩

theorem run_call (s : ExtensionController) (hs : s.state = h.state) (c : Call) :
    ∃ tr s', Transition.Run (Transition.ofFun (ExtensionController.step prims)) s tr s' ∧
      s'.state = (h.call prims c).state := by
  cases c with
  | install candidate verifier =>
    obtain ⟨tr, hrun⟩ := run_install prims s candidate verifier
    refine ⟨tr, _, hrun, ?_⟩
    rw [hs, call]
    split
    · rename_i heq
      rw [heq]
    · rename_i heq
      rw [heq]
  | swap bytes sig rootPubkey verifier =>
    refine ⟨_, _, Transition.Run.nil.snoc
      (i := ExtensionController.Event.swap bytes sig rootPubkey verifier) rfl, ?_⟩
    rw [hs]
    rfl
  | remove id =>
    refine ⟨_, _, Transition.Run.nil.snoc (i := ExtensionController.Event.remove id) rfl, ?_⟩
    rw [hs]
    rfl

/-- **Calls one after the other are events**: what they do to the state, a run of the
controller does too. -/
theorem exists_run (hrun : Run prims seedManifest tr h) :
    ∃ tr' s, ExtensionController.Run prims seedManifest tr' s ∧ s.state = h.state := by
  refine hrun.invariant (I := fun _ h => ∃ tr' s,
    ExtensionController.Run prims seedManifest tr' s ∧ s.state = h.state) ?_ ?_
  · exact ⟨[], _, Transition.Run.nil, rfl⟩
  · rintro - h c - - ⟨tr', s, hrun', hs⟩ ⟨⟩
    obtain ⟨tr'', s', hrun'', hs'⟩ := run_call s hs c
    exact ⟨tr' ++ tr'', s', hrun'.trans hrun'', hs'⟩

/-! ### An entry that is published again -/

open ExtensionController (sampleId sampleKey sampleSig sampleHash sampleManifest sampleCandidate)

/-- The hash of a package of one zero byte. -/
def otherHash : Sha256Hash :=
  ⟨#v[0x6e, 0x34, 0x0b, 0x9c, 0xff, 0xb3, 0x7a, 0x98, 0x9c, 0xa5, 0x44, 0xe6,
      0xbb, 0x78, 0x0a, 0x2c, 0x78, 0x90, 0x1d, 0x3f, 0xb3, 0x37, 0x38, 0x76,
      0x85, 0x11, 0xa3, 0x06, 0x17, 0xaf, 0xa0, 0x1d]⟩

/-- A manifest with the extension under the hash of that package. -/
def republishedManifest : AllowlistManifest :=
  ⟨1, 2, [⟨sampleId, .atLeast ⟨1, 50, 0⟩, otherHash, sampleKey⟩]⟩

/-- The bytes of this manifest. -/
def republishedBytes : List UInt8 :=
  ["\x7b\"format_version\":1,\"manifest_version\":2,", "\"entries\":[\x7b\"extension_id\":",
    "\"uBlock0@raymondhill.net\",", "\"version_constraint\":\">=1.50.0\",", "\"sha256_of_xpi\":",
    "\"6e340b9cffb37a989ca544e6bb780a2c", "78901d3fb33738768511a30617afa01d\",",
    "\"signing_pubkey\":", "\"ERERERERERERERERERERE",
    "RERERERERERERERERERERE\"\x7d]\x7d"].flatMap fun text =>
      text.toList.map fun c => c.toNat.toUInt8

/-- The libraries, on these inputs. -/
def republishedPrims : Primitives :=
  ⟨fun bytes => if bytes = republishedBytes then some republishedManifest else none,
    fun bytes => if bytes = [0] then otherHash else sampleHash⟩

/-- A verifier that trusts the key for the package and for the new manifest. -/
def republishedVerifier : SignatureVerifier :=
  inMemoryTrustedVerifier [(sampleKey, [], sampleSig), (sampleKey, republishedBytes, sampleSig)]

/-- An install, and the removal of what it installed. -/
theorem sound_iff_removed :
    ∃ tr h, Run republishedPrims sampleManifest tr h ∧
      tr.map Step.input = [.install sampleCandidate republishedVerifier, .remove sampleId] ∧
      ((∀ x ∈ tr, Sound republishedPrims x.post) ↔ ∀ x ∈ tr, Kept republishedPrims x) := by
  have hexec : (Transition.exec (fun h c => some (h.call republishedPrims c))
      (new sampleManifest)
      [.install sampleCandidate republishedVerifier, .remove sampleId]).isSome = true := by
    decide +kernel
  obtain ⟨tr, h, hrun, hinputs⟩ := Transition.exists_run hexec
  exact ⟨tr, h, hrun, hinputs, sound_iff hrun⟩

/-- **An old package that stays enabled**: the extension is installed, and then its entry is
published again with the hash of another package. -/
theorem not_sound_republished :
    ∃ tr h, Run republishedPrims sampleManifest tr h ∧
      tr.map Step.input = [.install sampleCandidate republishedVerifier,
        .swap republishedBytes sampleSig sampleKey republishedVerifier] ∧
      ¬ Sound republishedPrims h := by
  have hexec : (Transition.exec (fun h c => some (h.call republishedPrims c))
      (new sampleManifest) [.install sampleCandidate republishedVerifier,
        .swap republishedBytes sampleSig sampleKey republishedVerifier]).any (fun p =>
      decide (p.2.state.manifest = republishedManifest ∧
        p.2.state.installed.lookup sampleId = some ⟨sampleId, ⟨1, 51, 0⟩, .enabled⟩ ∧
        (p.2.origins.lookup sampleId).map Origin.xpiBytes = some [])) = true := by
    decide +kernel
  obtain ⟨tr, h, hrun, hinputs, htest⟩ := Transition.exists_run_where hexec
  obtain ⟨hmanifest, hlook, hxpi⟩ := of_decide_eq_true htest
  refine ⟨tr, h, hrun, hinputs, fun hs => ?_⟩
  obtain ⟨origin, horigin, hpass⟩ := hs sampleId _ hlook rfl
  obtain ⟨entry, hentry, -, hhash, -⟩ := passes_iff.mp hpass
  have hempty : origin.xpiBytes = [] := by simpa [horigin] using hxpi
  rw [hmanifest] at hentry
  obtain rfl : entry = ⟨sampleId, .atLeast ⟨1, 50, 0⟩, otherHash, sampleKey⟩ := by
    simpa [republishedManifest, AllowlistManifest.entryFor, eq_comm] using hentry
  rw [hempty] at hhash
  exact absurd hhash (by decide)

end Installation

end Extensions

end DevBrowse
