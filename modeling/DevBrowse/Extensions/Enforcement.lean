import DevBrowse.Extensions.Controller
import DevBrowse.Lib.Calls

/-!
# Whether the allowlist is enforced

A swap leaves nothing enabled that the new manifest does not admit, and a removal enables
nothing. What is left is the installs. An install records what the manifest admitted that
it got when it was called, and that need not be the active one any more: between its two
visits to the lock a swap may have recalled the extension
(`DevBrowse.Extensions.ExtensionController.not_enforced_recalled`). So the allowlist is
enforced as long as the active manifest admits what is recorded at the moment it is
recorded (`DevBrowse.Extensions.ExtensionController.enforced_iff`), which it does when it
is the one the install was checked against
(`DevBrowse.Extensions.ExtensionController.admitted_of_manifest_eq`).
-/

namespace DevBrowse

namespace Extensions

open Transition (Step)

/-- The manifest admits the extension in this version. -/
def AllowlistManifest.Admits (m : AllowlistManifest) (id : ExtensionId) (v : Version) : Prop :=
  ∃ entry, m.entryFor id = some entry ∧ entry.versionConstraint.satisfies v = true

namespace State

variable {st : State} {manifest : AllowlistManifest} {ext : InstalledExtension}
  {candidate : InstallCandidate}

/-- **The allowlist is enforced**: the active manifest admits every extension that may run. -/
def Enforced (st : State) : Prop :=
  ∀ id ext, st.installed.lookup id = some ext → ext.state = .enabled →
    st.manifest.Admits ext.extensionId ext.version

/-- What may run after a swap is admitted by the new manifest. -/
theorem admits_of_reconcile (h : (reconcile manifest ext).1.state = .enabled) :
    manifest.Admits (reconcile manifest ext).1.extensionId (reconcile manifest ext).1.version := by
  cases hentry : manifest.entryFor ext.extensionId with
  | none => simp [reconcile, hentry] at h
  | some entry =>
    by_cases hsat : entry.versionConstraint.satisfies ext.version = true
    · simp only [reconcile, hentry, hsat, if_true]
      exact ⟨entry, hentry, hsat⟩
    · simp [reconcile, hentry, hsat] at h

/-- A swap is refused and changes nothing, or every installed extension is reconciled with
the new manifest. -/
theorem trySwap_cases (prims : Primitives) (st : State) (bytes : List UInt8)
    (sig : Ed25519SigBytes) (rootPubkey : Ed25519PubKeyBytes) (verifier : SignatureVerifier) :
    (∃ intent, st.trySwapAllowlistManifest prims bytes sig rootPubkey verifier =
      (.rejected intent, st)) ∨
    ∃ manifest, parseAllowlistManifest prims bytes = .ok manifest ∧
      verifier.verifyEd25519 rootPubkey bytes sig = .ok () ∧
      st.manifest.manifestVersion < manifest.manifestVersion ∧
      st.trySwapAllowlistManifest prims bytes sig rootPubkey verifier =
        (.swapped (st.installed.entries.filterMap fun e => (reconcile manifest e.2).2),
          ⟨manifest, st.installed.mapValues fun ext => (reconcile manifest ext).1⟩) := by
  rw [trySwapAllowlistManifest]
  split
  · exact Or.inl ⟨_, rfl⟩
  · rename_i manifest hparse
    split
    · exact Or.inl ⟨_, rfl⟩
    · rename_i hsig
      split
      · exact Or.inl ⟨_, rfl⟩
      · rename_i hversion
        exact Or.inr ⟨manifest, hparse, hsig, UInt64.not_le.mp hversion, rfl⟩

theorem Enforced.swap (h : Enforced st) (prims : Primitives) (bytes : List UInt8)
    (sig : Ed25519SigBytes) (rootPubkey : Ed25519PubKeyBytes) (verifier : SignatureVerifier) :
    Enforced (st.trySwapAllowlistManifest prims bytes sig rootPubkey verifier).2 := by
  rcases trySwap_cases prims st bytes sig rootPubkey verifier with ⟨_, heq⟩ |
    ⟨manifest, -, -, -, heq⟩
  · rw [heq]
    exact h
  · rw [heq]
    intro id ext hext henabled
    rw [HashMap.lookup_mapValues, Option.map_eq_some_iff] at hext
    obtain ⟨ext₀, -, rfl⟩ := hext
    exact admits_of_reconcile henabled

theorem Enforced.remove (h : Enforced st) (id : ExtensionId) : Enforced (st.remove id).2 := by
  rintro id' ext hext henabled
  exact h id' ext (HashMap.lookup_erase_eq_some_iff.mp hext).2 henabled

/-- Recording an extension keeps the allowlist enforced if and only if the active manifest
admits it. -/
theorem enforced_record_iff (h : Enforced st) :
    Enforced (st.record candidate) ↔
      st.manifest.Admits candidate.extensionId candidate.version := by
  constructor
  · intro henf
    exact henf candidate.extensionId _ (AList.lookup_insert _) rfl
  · rintro hadm id ext hext henabled
    rcases HashMap.lookup_insert_cases hext with ⟨-, rfl⟩ | ⟨-, hold⟩
    · exact hadm
    · exact h id ext hold henabled

end State

namespace ExtensionController

variable {prims : Primitives} {seedManifest : AllowlistManifest} {s s' : ExtensionController}
  {e : Event} {i : ℕ} {call : Install} {tr : List (Step ExtensionController Event)}

/-- What an install records at this step, if it does, the active manifest admits. -/
def Admitted (x : Step ExtensionController Event) : Prop :=
  ∀ (i : ℕ) (call : Install), x.input = .insert i → x.pre.installs[i]? = some call →
    x.pre.state.manifest.Admits call.candidate.extensionId call.candidate.version

/-- **What an event does to what the lock guards.** -/
theorem step_state (h : s.step prims e = some s') :
    (s'.state = s.state ∧ ∀ i, e ≠ .insert i) ∨
    (∃ bytes sig rootPubkey verifier,
      s'.state = (s.state.trySwapAllowlistManifest prims bytes sig rootPubkey verifier).2 ∧
        ∀ i, e ≠ .insert i) ∨
    (∃ id, s'.state = (s.state.remove id).2 ∧ ∀ i, e ≠ .insert i) ∨
    ∃ i call, e = .insert i ∧ s.installs[i]? = some call ∧ call.phase = .verified ∧
      s'.state = s.state.record call.candidate := by
  cases e with
  | install candidate verifier =>
    obtain rfl := Option.some.inj h
    exact Or.inl ⟨rfl, by simp⟩
  | verify i =>
    simp only [step] at h
    split at h
    · obtain rfl := Option.some.inj h
      exact Or.inl ⟨rfl, by simp⟩
    · simp at h
  | insert i =>
    simp only [step] at h
    split at h
    · rename_i hcall
      obtain rfl := Option.some.inj h
      exact Or.inr (Or.inr (Or.inr ⟨i, _, rfl, hcall, rfl, rfl⟩))
    · simp at h
  | swap bytes sig rootPubkey verifier =>
    obtain rfl := Option.some.inj h
    exact Or.inr (Or.inl ⟨bytes, sig, rootPubkey, verifier, rfl, by simp⟩)
  | remove id =>
    obtain rfl := Option.some.inj h
    exact Or.inr (Or.inr (Or.inl ⟨id, rfl, by simp⟩))

/-- One event keeps the allowlist enforced if and only if what it records is admitted. -/
theorem enforced_step_iff (h : s.state.Enforced) (hstep : s.step prims e = some s') :
    s'.state.Enforced ↔ Admitted ⟨s, e, s'⟩ := by
  rcases step_state hstep with ⟨heq, hnot⟩ | ⟨bytes, sig, rootPubkey, verifier, heq, hnot⟩ |
    ⟨id, heq, hnot⟩ | ⟨i, call, rfl, hcall, -, heq⟩
  · rw [heq]
    exact iff_of_true h fun i _ hi => absurd hi (hnot i)
  · rw [heq]
    exact iff_of_true (h.swap prims bytes sig rootPubkey verifier) fun i _ hi => absurd hi (hnot i)
  · rw [heq]
    exact iff_of_true (h.remove id) fun i _ hi => absurd hi (hnot i)
  · rw [heq, State.enforced_record_iff h]
    constructor
    · intro hadm i' call' hi' hcall'
      obtain rfl := Event.insert.inj hi'
      obtain rfl := Option.some.inj (hcall.symm.trans hcall')
      exact hadm
    · exact fun hadm => hadm i call rfl hcall

/-- Nothing is installed at first. -/
theorem enforced_new (seedManifest : AllowlistManifest) : (new seedManifest).state.Enforced := by
  rintro id ext hext
  simp [new, State.new] at hext

/-- **When the allowlist is enforced**: in every state of a run exactly if whatever an
install records in it is admitted by the manifest that is active then. -/
theorem enforced_iff (h : Run prims seedManifest tr s) :
    (∀ x ∈ tr, x.pre.state.Enforced ∧ x.post.state.Enforced) ↔ ∀ x ∈ tr, Admitted x := by
  have hnew := enforced_new seedManifest
  have hpost : (∀ x ∈ tr, x.post.state.Enforced) ↔ ∀ x ∈ tr, Admitted x :=
    h.forall_post_iff (I := fun s => s.state.Enforced) hnew
      fun _ _ _ _ _ hi hstep => enforced_step_iff hi hstep
  constructor
  · rintro henf
    exact hpost.mp fun x hx => (henf x hx).2
  · rintro hadm x hx
    have hall := hpost.mpr hadm
    exact ⟨h.forall_pre (I := fun s => s.state.Enforced) hnew hall x hx, hall x hx⟩

/-! ### A recall in between -/

/-- An extension. -/
def sampleId : ExtensionId := ⟨"uBlock0@raymondhill.net".toList⟩

/-- A key. -/
def sampleKey : Ed25519PubKeyBytes := ⟨Vector.replicate 32 0x11⟩

/-- A signature. -/
def sampleSig : Ed25519SigBytes := ⟨Vector.replicate 64 0xaa⟩

/-- The hash of the empty package. -/
def sampleHash : Sha256Hash :=
  ⟨#v[0xe3, 0xb0, 0xc4, 0x42, 0x98, 0xfc, 0x1c, 0x14, 0x9a, 0xfb, 0xf4, 0xc8,
      0x99, 0x6f, 0xb9, 0x24, 0x27, 0xae, 0x41, 0xe4, 0x64, 0x9b, 0x93, 0x4c,
      0xa4, 0x95, 0x99, 0x1b, 0x78, 0x52, 0xb8, 0x55]⟩

/-- A manifest with the extension. -/
def sampleManifest : AllowlistManifest :=
  ⟨1, 1, [⟨sampleId, .atLeast ⟨1, 50, 0⟩, sampleHash, sampleKey⟩]⟩

/-- The bytes of a manifest that recalls it. -/
def recallBytes : List UInt8 :=
  "\x7b\"format_version\":1,\"manifest_version\":2,\"entries\":[]\x7d".toList.map
    fun c => c.toNat.toUInt8

/-- The libraries, on these inputs. -/
def samplePrims : Primitives :=
  ⟨fun bytes => if bytes = recallBytes then some ⟨1, 2, []⟩ else none, fun _ => sampleHash⟩

/-- The empty package as the extension. -/
def sampleCandidate : InstallCandidate := ⟨sampleId, ⟨1, 51, 0⟩, [], sampleSig⟩

/-- A verifier that trusts the key for the package and for the recall. -/
def sampleVerifier : SignatureVerifier :=
  inMemoryTrustedVerifier [(sampleKey, [], sampleSig), (sampleKey, recallBytes, sampleSig)]

/-- An install, and then a recall. -/
theorem enforced_iff_installed :
    ∃ tr s, Run samplePrims sampleManifest tr s ∧
      tr.map Step.input = [.install sampleCandidate sampleVerifier, .verify 0, .insert 0,
        .swap recallBytes sampleSig sampleKey sampleVerifier] ∧
      ((∀ x ∈ tr, x.pre.state.Enforced ∧ x.post.state.Enforced) ↔ ∀ x ∈ tr, Admitted x) := by
  have hexec : (Transition.exec (step samplePrims) (new sampleManifest)
      [.install sampleCandidate sampleVerifier, .verify 0, .insert 0,
        .swap recallBytes sampleSig sampleKey sampleVerifier]).isSome = true := by
    decide +kernel
  obtain ⟨tr, s, hrun, hinputs⟩ := Transition.exists_run hexec
  exact ⟨tr, s, hrun, hinputs, enforced_iff hrun⟩

/-- **A recall that slips in**: the manifest is swapped after the candidate was found good
and before it is recorded, and the extension ends up enabled without an entry. -/
theorem not_enforced_recalled :
    ∃ tr s, Run samplePrims sampleManifest tr s ∧
      tr.map Step.input = [.install sampleCandidate sampleVerifier, .verify 0,
        .swap recallBytes sampleSig sampleKey sampleVerifier, .insert 0] ∧
      s.state.manifest.entryFor sampleId = none ∧ ¬ s.state.Enforced := by
  have hexec : (Transition.exec (step samplePrims) (new sampleManifest)
      [.install sampleCandidate sampleVerifier, .verify 0,
        .swap recallBytes sampleSig sampleKey sampleVerifier, .insert 0]).any (fun p =>
      decide (p.2.state.manifest.entryFor sampleId = none ∧
        p.2.state.installed.lookup sampleId = some ⟨sampleId, ⟨1, 51, 0⟩, .enabled⟩)) = true := by
    decide +kernel
  obtain ⟨tr, s, hrun, hinputs, htest⟩ := Transition.exists_run_where hexec
  obtain ⟨hnone, hlook⟩ := of_decide_eq_true htest
  refine ⟨tr, s, hrun, hinputs, hnone, fun henf => ?_⟩
  obtain ⟨entry, hentry, -⟩ := henf sampleId _ hlook rfl
  simp [hnone] at hentry

/-! ### Installs that no swap comes between -/

/-- An install that has found its candidate good has found it good under its manifest. -/
def Verified (prims : Primitives) (s : ExtensionController) : Prop :=
  ∀ (i : ℕ) (call : Install), s.installs[i]? = some call → call.phase = .verified →
    ∃ entry, verifyInstall prims call.candidate call.manifest call.verifier = .ok entry

theorem Verified.step (h : Verified prims s) (hstep : s.step prims e = some s') :
    Verified prims s' := by
  rintro i call hcall hphase
  cases e with
  | install candidate verifier =>
    obtain rfl := Option.some.inj hstep
    rcases Calls.getElem?_concat_cases hcall with hold | ⟨-, rfl⟩
    · exact h i call hold hphase
    · cases hphase
  | verify j =>
    simp only [ExtensionController.step] at hstep
    split at hstep
    · rename_i candidate verifier manifest hj
      obtain rfl := Option.some.inj hstep
      rcases Calls.getElem?_set_cases hcall with ⟨-, rfl⟩ | ⟨-, hold⟩
      · -- it counts as verified only if the check went well
        cases hver : verifyInstall prims candidate manifest verifier with
        | ok entry => exact ⟨entry, rfl⟩
        | error err => simp [hver] at hphase
      · exact h i call hold hphase
    · cases hstep
  | insert j =>
    simp only [ExtensionController.step] at hstep
    split at hstep
    · obtain rfl := Option.some.inj hstep
      rcases Calls.getElem?_set_cases hcall with ⟨-, rfl⟩ | ⟨-, hold⟩
      · cases hphase
      · exact h i call hold hphase
    · cases hstep
  | swap bytes sig rootPubkey verifier =>
    obtain rfl := Option.some.inj hstep
    exact h i call hcall hphase
  | remove id =>
    obtain rfl := Option.some.inj hstep
    exact h i call hcall hphase

theorem verified_of_run (h : Run prims seedManifest tr s) : Verified prims s :=
  h.invariant (I := fun _ s => Verified prims s) (by simp [Verified, new])
    fun _ _ _ _ _ hi hstep => hi.step hstep

/-- **An install that no swap came between is admitted**: the manifest it was checked
against is still the active one when it records the extension. -/
theorem admitted_of_manifest_eq {x : Step ExtensionController Event}
    (h : Run prims seedManifest tr s) (hx : x ∈ tr)
    (hsame : ∀ i call, x.input = .insert i → x.pre.installs[i]? = some call →
      call.manifest = x.pre.state.manifest) : Admitted x := by
  intro i call hi hcall
  obtain ⟨before, after, rfl, hrun, hstep, -⟩ := h.of_mem hx
  rcases step_state hstep with ⟨-, hnot⟩ | ⟨_, _, _, _, -, hnot⟩ | ⟨_, -, hnot⟩ |
    ⟨j, call', hj, hcall', hphase, -⟩
  · exact absurd hi (hnot i)
  · exact absurd hi (hnot i)
  · exact absurd hi (hnot i)
  · obtain rfl : i = j := Event.insert.inj (hi.symm.trans hj)
    obtain rfl := Option.some.inj (hcall.symm.trans hcall')
    obtain ⟨entry, hver⟩ := verified_of_run hrun i call hcall hphase
    obtain ⟨hentry, hsat, -, -⟩ := verifyInstall_ok hver
    exact ⟨entry, by rw [← hsame i call hi hcall, hentry], hsat⟩

end ExtensionController

end Extensions

end DevBrowse
