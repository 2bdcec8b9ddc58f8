import DevBrowse.Extensions.Swaps

/-!
# The warnings of a swap

A swap that goes through hands back the warnings for the installed extensions whose state it
changed. What it walks over is the registry as the last swap left it, in which an extension
that was disabled stays listed: one the new manifest does not admit either is disabled once
more and warned of once more. So the warnings are exact if and only if the new manifest
admits whatever is disabled already
(`DevBrowse.Extensions.State.exactWarnings_iff`); the records are right in any case.
-/

namespace DevBrowse

namespace Extensions

namespace State

variable {st st' : State} {manifest : AllowlistManifest} {ext : InstalledExtension}
  {intents : List WarningIntent} {prims : Primitives} {bytes : List UInt8}
  {sig : Ed25519SigBytes} {rootPubkey : Ed25519PubKeyBytes} {verifier : SignatureVerifier}
  {e : (_ : ExtensionId) × InstalledExtension}

/-! ### What a swap owes -/

/-- The warning for an extension that a manifest does not admit. -/
def warningFor (manifest : AllowlistManifest) (ext : InstalledExtension) : WarningIntent :=
  if (manifest.entryFor ext.extensionId).isNone then
    .extensionAutoDisabledByRecall ext.extensionId
  else .extensionAutoDisabledByUpdateConstraint ext.extensionId

/-- Whether an installed extension could run before and cannot after. -/
def wasDisabled (st' : State) (e : (_ : ExtensionId) × InstalledExtension) : Bool :=
  decide (e.2.state = .enabled) &&
    (st'.installed.lookup e.1).any fun ext => decide (ext.state = .disabled)

/-- **The warnings are exact.** -/
structure ExactWarnings (manifest : AllowlistManifest) (intents : List WarningIntent)
    (st st' : State) : Prop where
  /-- There is one for each extension whose state changed, and no other. -/
  intents : intents.Perm
    ((st.installed.entries.filter (wasDisabled st')).map fun e => warningFor manifest e.2)
  /-- Where an extension whose state changed has an entry, its version is not the one. -/
  cause : ∀ e ∈ st.installed.entries, wasDisabled st' e = true → ∀ entry,
    manifest.entryFor e.2.extensionId = some entry →
      entry.versionConstraint.satisfies e.2.version = false
  /-- What else is installed is unchanged. -/
  others : ∀ id, (∀ e ∈ st.installed.entries, e.1 = id → wasDisabled st' e = false) →
    st'.installed.lookup id = st.installed.lookup id

/-! ### What a swap does to one extension -/

/-- An extension is left alone, or disabled with the warning for it. -/
theorem reconcile_eq (manifest : AllowlistManifest) (ext : InstalledExtension) :
    (manifest.Admits ext.extensionId ext.version ∧ reconcile manifest ext = (ext, none)) ∨
      ¬ manifest.Admits ext.extensionId ext.version ∧
        reconcile manifest ext =
          ({ ext with state := .disabled }, some (warningFor manifest ext)) := by
  rw [reconcile, AllowlistManifest.Admits, warningFor]
  cases manifest.entryFor ext.extensionId with
  | none => exact .inr ⟨by simp, rfl⟩
  | some entry =>
    by_cases hsat : entry.versionConstraint.satisfies ext.version = true
    · exact .inl ⟨⟨entry, rfl, hsat⟩, if_pos hsat⟩
    · exact .inr ⟨by simpa using hsat, if_neg hsat⟩

theorem reconcile_snd_isSome_iff :
    (reconcile manifest ext).2.isSome = true ↔
      ¬ manifest.Admits ext.extensionId ext.version := by
  rcases reconcile_eq manifest ext with ⟨hadm, heq⟩ | ⟨hadm, heq⟩ <;> simp [heq, hadm]

theorem warningFor_of_reconcile {intent : WarningIntent}
    (h : (reconcile manifest ext).2 = some intent) : warningFor manifest ext = intent := by
  rcases reconcile_eq manifest ext with ⟨-, heq⟩ | ⟨-, heq⟩
  · rw [heq] at h
    exact absurd h (by simp)
  · rw [heq] at h
    exact Option.some.inj h

/-- What is handed back for the extensions in a list. -/
theorem filterMap_reconcile (l : List ((_ : ExtensionId) × InstalledExtension)) :
    (l.filterMap fun e => (reconcile manifest e.2).2) =
      (l.filter fun e => (reconcile manifest e.2).2.isSome).map
        fun e => warningFor manifest e.2 := by
  induction l with
  | nil => rfl
  | cons e l ih =>
    rw [List.filterMap_cons, ih]
    cases hrec : (reconcile manifest e.2).2 with
    | none => rw [List.filter_cons_of_neg (by simp [hrec])]
    | some intent =>
      rw [List.filter_cons_of_pos (by simp [hrec]), List.map_cons, warningFor_of_reconcile hrec]

/-! ### What a swap does to the registry -/

/-- The registry after a swap to a manifest. -/
def reconciled (st : State) (manifest : AllowlistManifest) : State :=
  ⟨manifest, st.installed.mapValues fun ext => (reconcile manifest ext).1⟩

theorem wasDisabled_reconciled (he : e ∈ st.installed.entries) :
    wasDisabled (st.reconciled manifest) e =
      (decide (e.2.state = .enabled) && (reconcile manifest e.2).2.isSome) := by
  have hlook : st.installed.lookup e.1 = some e.2 := AList.mem_lookup_iff.mpr he
  rw [wasDisabled, reconciled, HashMap.lookup_mapValues, hlook, Option.map_some, Option.any_some]
  rcases reconcile_eq manifest e.2 with ⟨-, heq⟩ | ⟨-, heq⟩
  · rw [heq]
    cases e.2.state <;> rfl
  · rw [heq]
    rfl

/-- Those whose state changes are those of the warned ones that could still run. -/
theorem filter_wasDisabled (st : State) (manifest : AllowlistManifest) :
    st.installed.entries.filter (wasDisabled (st.reconciled manifest)) =
      (st.installed.entries.filter fun e => (reconcile manifest e.2).2.isSome).filter
        fun e => decide (e.2.state = .enabled) := by
  rw [List.filter_filter]
  exact List.filter_congr fun e he => wasDisabled_reconciled he

theorem lookup_reconciled_of_not_wasDisabled {id : ExtensionId}
    (h : ∀ e ∈ st.installed.entries, e.1 = id → wasDisabled (st.reconciled manifest) e = false) :
    (st.reconciled manifest).installed.lookup id = st.installed.lookup id := by
  rw [reconciled, HashMap.lookup_mapValues]
  cases hlook : st.installed.lookup id with
  | none => rfl
  | some ext =>
    have he : (⟨id, ext⟩ : (_ : ExtensionId) × InstalledExtension) ∈ st.installed.entries :=
      AList.mem_lookup_iff.mp hlook
    have hnot := h _ he rfl
    rw [wasDisabled_reconciled he] at hnot
    rw [Option.map_some]
    rcases reconcile_eq manifest ext with ⟨-, heq⟩ | ⟨-, heq⟩
    · rw [heq]
    · -- it is disabled, and was disabled before
      rw [heq] at hnot ⊢
      have hstate : ext.state = .disabled := by
        cases hs : ext.state with
        | enabled => simp [hs] at hnot
        | disabled => rfl
      rw [← hstate]

/-- What a swap that goes through makes of the extensions, and warns of. -/
theorem eq_of_swapped (hparse : parseAllowlistManifest prims bytes = .ok manifest)
    (hswap : st.trySwapAllowlistManifest prims bytes sig rootPubkey verifier =
      (.swapped intents, st')) :
    intents = (st.installed.entries.filterMap fun e => (reconcile manifest e.2).2) ∧
      st' = st.reconciled manifest := by
  rcases trySwap_cases prims st bytes sig rootPubkey verifier with ⟨_, heq⟩ |
    ⟨manifest', hparse', -, -, heq⟩
  · rw [hswap] at heq
    exact absurd (congrArg Prod.fst heq) SwapOutcome.noConfusion
  · obtain rfl : manifest = manifest' := Except.ok.inj (hparse.symm.trans hparse')
    rw [hswap] at heq
    exact ⟨SwapOutcome.swapped.inj (congrArg Prod.fst heq), congrArg Prod.snd heq⟩

/-- **The warnings of a swap are exact** if and only if the new manifest admits every
extension that is disabled already. -/
theorem exactWarnings_iff (hparse : parseAllowlistManifest prims bytes = .ok manifest)
    (hswap : st.trySwapAllowlistManifest prims bytes sig rootPubkey verifier =
      (.swapped intents, st')) :
    ExactWarnings manifest intents st st' ↔ ∀ e ∈ st.installed.entries,
      e.2.state = .disabled → manifest.Admits e.2.extensionId e.2.version := by
  obtain ⟨rfl, rfl⟩ := eq_of_swapped hparse hswap
  rw [filterMap_reconcile]
  constructor
  · intro hexact e he hdisabled
    have hlen := hexact.intents.length_eq
    rw [filter_wasDisabled, List.length_map, List.length_map, eq_comm,
      List.length_filter_eq_length_iff] at hlen
    by_contra hadm
    have hin := hlen e (List.mem_filter.mpr ⟨he, reconcile_snd_isSome_iff.mpr hadm⟩)
    simp [hdisabled] at hin
  · intro hdisabled
    refine ⟨?_, fun e he hwas entry hentry => ?_, fun id h =>
      lookup_reconciled_of_not_wasDisabled h⟩
    · have hall : ∀ e ∈ st.installed.entries.filter fun e => (reconcile manifest e.2).2.isSome,
          decide (e.2.state = .enabled) = true := by
        intro e he
        obtain ⟨he, hsome⟩ := List.mem_filter.mp he
        cases hs : e.2.state with
        | enabled => rfl
        | disabled => exact absurd (hdisabled e he hs) (reconcile_snd_isSome_iff.mp hsome)
      rw [filter_wasDisabled, List.filter_eq_self.mpr hall]
    · rw [wasDisabled_reconciled he, Bool.and_eq_true, reconcile_snd_isSome_iff] at hwas
      by_contra hsat
      exact hwas.2 ⟨entry, hentry, by simpa using hsat⟩

open ExtensionController (sampleId sampleKey sampleSig sampleManifest sampleCandidate recallBytes)

open SharedController (laterBytes laterPrims laterVerifier)

/-- A controller with an extension installed. -/
def withSample : State := (new sampleManifest).record sampleCandidate

/-- The swap that recalls it warns of it. -/
theorem swapped_recalled : (withSample.trySwapAllowlistManifest laterPrims recallBytes sampleSig
    sampleKey laterVerifier).1 = .swapped [.extensionAutoDisabledByRecall sampleId] := by
  decide +kernel

/-- The extension is recalled. -/
theorem exactWarnings_iff_recalled :
    ∃ intents st', withSample.trySwapAllowlistManifest laterPrims recallBytes sampleSig sampleKey
        laterVerifier = (.swapped intents, st') ∧
      (ExactWarnings ⟨1, 2, []⟩ intents withSample st' ↔ ∀ e ∈ withSample.installed.entries,
        e.2.state = .disabled →
          AllowlistManifest.Admits ⟨1, 2, []⟩ e.2.extensionId e.2.version) := by
  have hparse : parseAllowlistManifest laterPrims recallBytes = .ok ⟨1, 2, []⟩ := by
    decide +kernel
  exact ⟨_, _, Prod.ext swapped_recalled rfl,
    exactWarnings_iff hparse (Prod.ext swapped_recalled rfl)⟩

/-- **A warning without a change**: the extension is recalled, and warned of once more by the
next swap. -/
theorem not_exactWarnings_again :
    ∃ st₁ st₂, withSample.trySwapAllowlistManifest laterPrims recallBytes sampleSig sampleKey
        laterVerifier = (.swapped [.extensionAutoDisabledByRecall sampleId], st₁) ∧
      st₁.trySwapAllowlistManifest laterPrims laterBytes sampleSig sampleKey laterVerifier =
        (.swapped [.extensionAutoDisabledByRecall sampleId], st₂) ∧
      st₁.installed.lookup sampleId = some ⟨sampleId, ⟨1, 51, 0⟩, .disabled⟩ ∧
      ¬ ExactWarnings ⟨1, 3, []⟩ [.extensionAutoDisabledByRecall sampleId] st₁ st₂ := by
  let st₁ := (withSample.trySwapAllowlistManifest laterPrims recallBytes sampleSig sampleKey
    laterVerifier).2
  let st₂ := (st₁.trySwapAllowlistManifest laterPrims laterBytes sampleSig sampleKey
    laterVerifier).2
  have hsecond : (st₁.trySwapAllowlistManifest laterPrims laterBytes sampleSig sampleKey
      laterVerifier).1 = .swapped [.extensionAutoDisabledByRecall sampleId] := by
    decide +kernel
  have hlook : st₁.installed.lookup sampleId = some ⟨sampleId, ⟨1, 51, 0⟩, .disabled⟩ := by
    decide +kernel
  have hnone : st₁.installed.entries.filter (wasDisabled st₂) = [] := by
    decide +kernel
  refine ⟨st₁, st₂, Prod.ext swapped_recalled rfl, Prod.ext hsecond rfl, hlook, fun hexact => ?_⟩
  have hperm := hexact.intents
  rw [hnone] at hperm
  exact absurd hperm.length_eq (by decide)

end State

end Extensions

end DevBrowse
