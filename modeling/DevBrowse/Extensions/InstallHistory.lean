import DevBrowse.Extensions.Swaps

/-!
# What the registry of extensions remembers

Installs, swaps of the manifest and removals interleave, each split where it takes a lock. In
every state the registry has exactly the extensions that were installed and not removed since,
in the version that was installed last, and one of them may run exactly if every manifest that
was swapped in since then admits it (`DevBrowse.Extensions.SharedController.installed_iff`). So
nothing but a swap disables an extension, and nothing but an install enables it again; and what
an install recorded, it had found good under the manifest that was active when it was called.
-/

namespace DevBrowse

namespace Extensions

open Transition (Step)

namespace State

variable {manifest : AllowlistManifest} {ext : InstalledExtension}

/-- An extension that the manifest admits is left alone. -/
theorem reconcile_of_admits (h : manifest.Admits ext.extensionId ext.version) :
    (reconcile manifest ext).1 = ext := by
  obtain ⟨entry, hentry, hsat⟩ := h
  rw [reconcile, hentry]
  dsimp only
  rw [if_pos hsat]

/-- Another one is disabled. -/
theorem reconcile_of_not_admits (h : ¬ manifest.Admits ext.extensionId ext.version) :
    (reconcile manifest ext).1 = { ext with state := .disabled } := by
  rw [reconcile]
  cases hentry : manifest.entryFor ext.extensionId with
  | none => rfl
  | some entry =>
    dsimp only
    rw [if_neg fun hsat => h ⟨entry, hentry, hsat⟩]

end State

/-- Two extensions are the same if they have the same id and the same version, and the one may
run exactly if the other may. -/
theorem InstalledExtension.ext_of_enabled {ext ext' : InstalledExtension}
    (hid : ext.extensionId = ext'.extensionId) (hversion : ext.version = ext'.version)
    (hstate : ext.state = .enabled ↔ ext'.state = .enabled) : ext = ext' := by
  obtain ⟨id, v, state⟩ := ext
  obtain ⟨id', v', state'⟩ := ext'
  obtain rfl := hid
  obtain rfl := hversion
  congr 1
  cases state with
  | enabled => exact (hstate.mp rfl).symm
  | disabled =>
    cases state' with
    | enabled => exact hstate.mpr rfl
    | disabled => rfl

namespace SharedController

/-- A change of the registry. -/
inductive Effect where
  /-- Nothing. -/
  | nothing
  /-- An install records its extension. -/
  | record (call : Install)
  /-- A manifest is swapped in. -/
  | swap (manifest : AllowlistManifest)
  /-- An extension is removed. -/
  | remove (id : ExtensionId)

/-- **What an event does to the registry.** -/
def effect (s : SharedController) : Event → Effect
  | .insert i =>
    match s.controller.installs[i]? with
    | some call => .record call
    | none => .nothing
  | .commit i =>
    match s.swaps[i]? with
    | some ⟨_, _, _, _, .verified manifest⟩ =>
      if manifest.manifestVersion ≤ s.controller.state.manifest.manifestVersion then .nothing
      else .swap manifest
    | _ => .nothing
  | .remove id => .remove id
  | _ => .nothing

/-- What becomes of the extension under an id. -/
def Effect.apply (id : ExtensionId) (ext : Option InstalledExtension) :
    Effect → Option InstalledExtension
  | .nothing => ext
  | .record call =>
    if id = call.candidate.extensionId then some ⟨id, call.candidate.version, .enabled⟩ else ext
  | .swap manifest => ext.map fun ext => (State.reconcile manifest ext).1
  | .remove id' => if id = id' then none else ext

/-- The extension under an id is neither installed nor removed. -/
def Effect.Spares (id : ExtensionId) : Effect → Prop
  | .record call => call.candidate.extensionId ≠ id
  | .remove id' => id' ≠ id
  | _ => True

/-- What becomes of an extension that is spared. -/
def Effect.keep (ext : InstalledExtension) : Effect → InstalledExtension
  | .swap manifest => (State.reconcile manifest ext).1
  | _ => ext

/-- What has become of an extension that all of some steps spare. -/
def keepAll (ext : InstalledExtension) (later : List (Step SharedController Event)) :
    InstalledExtension :=
  later.foldl (fun ext y => (y.pre.effect y.input).keep ext) ext

/-- A manifest that the step swaps in admits the extension in this version. -/
def Tolerates (id : ExtensionId) (v : Version) (x : Step SharedController Event) : Prop :=
  ∀ manifest, x.pre.effect x.input = .swap manifest → manifest.Admits id v

variable {prims : Primitives} {seedManifest : AllowlistManifest} {s s' : SharedController}
  {e : Event} {tr : List (Step SharedController Event)} {id : ExtensionId}
  {ext : InstalledExtension}

@[simp] theorem keepAll_concat (ext : InstalledExtension)
    (later : List (Step SharedController Event)) (y : Step SharedController Event) :
    keepAll ext (later ++ [y]) = (y.pre.effect y.input).keep (keepAll ext later) := by
  rw [keepAll, keepAll, List.foldl_append]
  rfl

theorem Effect.apply_of_spares {eff : Effect} (h : eff.Spares id)
    (o : Option InstalledExtension) : eff.apply id o = o.map fun ext => eff.keep ext := by
  cases eff with
  | nothing => exact Option.map_id'.symm
  | record call => exact (if_neg (Ne.symm h)).trans Option.map_id'.symm
  | swap manifest => rfl
  | remove id' => exact (if_neg (Ne.symm h)).trans Option.map_id'.symm

/-- Steps that spare an extension leave its id and its version, and let it run exactly if the
manifests they swap in admit it. -/
theorem keepAll_spec (ext : InstalledExtension) (later : List (Step SharedController Event)) :
    (keepAll ext later).extensionId = ext.extensionId ∧
      (keepAll ext later).version = ext.version ∧
      ((keepAll ext later).state = .enabled ↔
        ext.state = .enabled ∧ ∀ y ∈ later, Tolerates ext.extensionId ext.version y) := by
  induction later generalizing ext with
  | nil => exact ⟨rfl, rfl, (and_iff_left nofun).symm⟩
  | cons y later ih =>
    obtain ⟨hid, hversion, hstate⟩ := ih ((y.pre.effect y.input).keep ext)
    have hsame : ((y.pre.effect y.input).keep ext).extensionId = ext.extensionId ∧
        ((y.pre.effect y.input).keep ext).version = ext.version ∧
        (((y.pre.effect y.input).keep ext).state = .enabled ↔
          ext.state = .enabled ∧ Tolerates ext.extensionId ext.version y) := by
      rw [Tolerates]
      cases y.pre.effect y.input with
      | swap manifest =>
        by_cases hadmits : manifest.Admits ext.extensionId ext.version
        · rw [Effect.keep, State.reconcile_of_admits hadmits]
          refine ⟨rfl, rfl, (and_iff_left fun m hm => ?_).symm⟩
          rwa [← Effect.swap.inj hm]
        · rw [Effect.keep, State.reconcile_of_not_admits hadmits]
          exact ⟨rfl, rfl, iff_of_false nofun fun h => hadmits (h.2 manifest rfl)⟩
      | nothing => exact ⟨rfl, rfl, (and_iff_left nofun).symm⟩
      | record call => exact ⟨rfl, rfl, (and_iff_left nofun).symm⟩
      | remove id => exact ⟨rfl, rfl, (and_iff_left nofun).symm⟩
    obtain ⟨hid', hversion', hstate'⟩ := hsame
    rw [hid', hversion', hstate', and_assoc] at hstate
    refine ⟨hid.trans hid', hversion.trans hversion', ?_⟩
    rw [List.forall_mem_cons]
    exact hstate

/-- **One event**, as the registry sees it. -/
theorem lookup_step (h : s.step prims e = some s') (id : ExtensionId) :
    s'.controller.state.installed.lookup id =
      (s.effect e).apply id (s.controller.state.installed.lookup id) := by
  cases e with
  | install candidate verifier =>
    have hc := (step_controller rfl h).1
    rw [← Option.some.inj hc]
    rfl
  | verify i =>
    obtain ⟨call, phase, -, -, heq⟩ := step_verify (step_controller rfl h).1
    rw [heq]
    rfl
  | insert i =>
    obtain ⟨call, hcall, -, heq⟩ := step_insert (step_controller rfl h).1
    rw [heq, effect, hcall]
    by_cases hid : id = call.candidate.extensionId
    · subst hid
      exact (AList.lookup_insert _).trans (if_pos rfl).symm
    · exact (AList.lookup_insert_ne hid).trans (if_neg hid).symm
  | swap bytes sig rootPubkey verifier =>
    rw [← Option.some.inj h]
    rfl
  | check i =>
    obtain ⟨call, phase, -, -, rfl, -⟩ := step_check h
    rfl
  | commit i =>
    rw [step] at h
    split at h
    · rename_i bytes sig rootPubkey verifier manifest hcall
      rw [effect, hcall, ← Option.some.inj h]
      dsimp only
      rw [State.swapTo]
      split
      · rfl
      · exact HashMap.lookup_mapValues _ _ _
    · cases h
  | remove id' =>
    have hc := (step_controller rfl h).1
    rw [← Option.some.inj hc]
    exact HashMap.lookup_erase_eq _ _ _

/-- **What is found under an id** is what was recorded last, if it was spared since. -/
theorem lookup_eq_some_iff (hrun : Run prims seedManifest tr s) (id : ExtensionId)
    (ext : InstalledExtension) :
    s.controller.state.installed.lookup id = some ext ↔
      ∃ past x later, tr = past ++ x :: later ∧ ∃ call,
        x.pre.effect x.input = .record call ∧ call.candidate.extensionId = id ∧
        (∀ y ∈ later, (y.pre.effect y.input).Spares id) ∧
        keepAll ⟨id, call.candidate.version, .enabled⟩ later = ext := by
  refine hrun.invariant (I := fun tr s => ∀ ext : InstalledExtension,
    s.controller.state.installed.lookup id = some ext ↔
      ∃ past x later, tr = past ++ x :: later ∧ ∃ call,
        x.pre.effect x.input = .record call ∧ call.candidate.extensionId = id ∧
        (∀ y ∈ later, (y.pre.effect y.input).Spares id) ∧
        keepAll ⟨id, call.candidate.version, .enabled⟩ later = ext) ?_ ?_ ext
  · intro ext
    refine iff_of_false nofun ?_
    rintro ⟨past, x, later, hnil, -⟩
    exact List.cons_ne_nil _ _ (List.append_eq_nil_iff.mp hnil.symm).2
  intro tr s e s' _ ih hstep ext
  rw [lookup_step hstep id, Transition.exists_cut_snoc]
  by_cases hspares : (s.effect e).Spares id
  · -- the extension was recorded before, and the last step has changed it
    rw [Effect.apply_of_spares hspares, Option.map_eq_some_iff]
    constructor
    · rintro ⟨ext₀, hext₀, rfl⟩
      obtain ⟨past, x, later, rfl, call, hx, hid, hlater, rfl⟩ := (ih ext₀).mp hext₀
      exact .inr ⟨past, x, later, rfl, call, hx, hid,
        List.forall_mem_append.mpr ⟨hlater, List.forall_mem_singleton.mpr hspares⟩,
        keepAll_concat _ _ _⟩
    · rintro (⟨call, hx, hid, -⟩ | ⟨past, x, later, rfl, call, hx, hid, hlater, rfl⟩)
      · rw [hx] at hspares
        exact absurd hid hspares
      · exact ⟨_, (ih _).mpr ⟨past, x, later, rfl, call, hx, hid,
          (List.forall_mem_append.mp hlater).1, rfl⟩,
          (keepAll_concat _ later ⟨s, e, s'⟩).symm⟩
  · -- the last step has recorded it, or removed it
    have hold : ¬ ∃ past x later, tr = past ++ x :: later ∧ ∃ call,
        x.pre.effect x.input = .record call ∧ call.candidate.extensionId = id ∧
        (∀ y ∈ later ++ [⟨s, e, s'⟩], (y.pre.effect y.input).Spares id) ∧
        keepAll ⟨id, call.candidate.version, .enabled⟩ (later ++ [⟨s, e, s'⟩]) = ext := by
      rintro ⟨past, x, later, -, call, -, -, hlater, -⟩
      exact hspares (hlater ⟨s, e, s'⟩ List.mem_concat_self)
    rw [or_iff_left hold]
    dsimp only
    cases heff : s.effect e with
    | nothing =>
      rw [heff] at hspares
      exact absurd trivial hspares
    | swap manifest =>
      rw [heff] at hspares
      exact absurd trivial hspares
    | record call =>
      rw [heff] at hspares
      obtain rfl := not_not.mp hspares
      rw [Effect.apply, if_pos rfl, Option.some_inj]
      constructor
      · exact fun h => ⟨call, rfl, rfl, nofun, h⟩
      · rintro ⟨call', hcall', -, -, h⟩
        obtain rfl := Effect.record.inj hcall'
        exact h
    | remove id' =>
      rw [heff] at hspares
      obtain rfl := not_not.mp hspares
      rw [Effect.apply, if_pos rfl]
      exact iff_of_false nofun nofun

/-- Every install was called, and got at the manifest that was active then. -/
def Called (tr : List (Step SharedController Event)) (s : SharedController) : Prop :=
  ∀ (i : ℕ) (call : Install), s.controller.installs[i]? = some call →
    ∃ y ∈ tr, y.input = .install call.candidate call.verifier ∧
      y.pre.controller.state.manifest = call.manifest

theorem Called.step (hc : Called tr s) (h : s.step prims e = some s') :
    Called (tr ++ [⟨s, e, s'⟩]) s' := by
  -- what was called before was called before this step
  have hold : ∀ (i : ℕ) (call : Install), s.controller.installs[i]? = some call →
      ∃ y ∈ tr ++ [⟨s, e, s'⟩], y.input = .install call.candidate call.verifier ∧
        y.pre.controller.state.manifest = call.manifest := fun i call hcall => by
    obtain ⟨y, hy, hinput⟩ := hc i call hcall
    exact ⟨y, List.mem_append_left _ hy, hinput⟩
  -- a step of an install changes how far it has come
  have hset : ∀ {j : ℕ} {call : Install} {phase : InstallPhase},
      s.controller.installs[j]? = some call →
      s'.controller.installs = s.controller.installs.set j { call with phase := phase } →
      Called (tr ++ [⟨s, e, s'⟩]) s' := by
    intro j call phase hj hinstalls i call' hcall'
    rw [hinstalls] at hcall'
    rcases Calls.getElem?_set_cases hcall' with ⟨-, rfl⟩ | ⟨-, hcall⟩
    · exact hold j call hj
    · exact hold i call' hcall
  cases e with
  | install candidate verifier =>
    have hc' := (step_controller rfl h).1
    intro i call hcall
    rw [← Option.some.inj hc'] at hcall
    rcases Calls.getElem?_concat_cases hcall with hcall | ⟨-, rfl⟩
    · exact hold i call hcall
    · exact ⟨_, List.mem_concat_self, rfl, rfl⟩
  | verify j =>
    obtain ⟨call, phase, hj, -, heq⟩ := step_verify (step_controller rfl h).1
    exact hset hj (by rw [heq])
  | insert j =>
    obtain ⟨call, hj, -, heq⟩ := step_insert (step_controller rfl h).1
    exact hset hj (by rw [heq])
  | swap bytes sig rootPubkey verifier =>
    obtain rfl := Option.some.inj h
    exact hold
  | check j =>
    obtain ⟨call, phase, -, -, rfl, -⟩ := step_check h
    exact hold
  | commit j =>
    obtain ⟨-, -, -, -, -, -, hinstalls, -⟩ := step_commit h
    intro i call hcall
    exact hold i call (hinstalls ▸ hcall)
  | remove id =>
    have hc' := (step_controller rfl h).1
    intro i call hcall
    rw [← Option.some.inj hc'] at hcall
    exact hold i call hcall

theorem called_of_run (hrun : Run prims seedManifest tr s) : Called tr s :=
  hrun.invariant (I := Called) (fun _ _ h => by cases h) fun _ _ _ _ _ hc hstep => hc.step hstep

/-- **What a step records** was found good, under the manifest that was active when the install
was called. -/
theorem verified_of_record {past later : List (Step SharedController Event)}
    {x : Step SharedController Event} {call : Install}
    (hrun : Run prims seedManifest (past ++ x :: later) s)
    (h : x.pre.effect x.input = .record call) :
    (∃ entry, verifyInstall prims call.candidate call.manifest call.verifier = .ok entry) ∧
      ∃ y ∈ past, y.input = .install call.candidate call.verifier ∧
        y.pre.controller.state.manifest = call.manifest := by
  obtain ⟨hpast, hstep, -⟩ := hrun.cut
  obtain ⟨s₀, e, s₁⟩ := x
  cases e with
  | insert i =>
    obtain ⟨call', hcall', hphase, -⟩ := step_insert (step_controller rfl hstep).1
    rw [effect, hcall'] at h
    obtain rfl := Effect.record.inj h
    obtain ⟨_, hrun'⟩ := exists_run hpast
    exact ⟨ExtensionController.verified_of_run hrun' i _ hcall' hphase,
      called_of_run hpast i _ hcall'⟩
  | commit i =>
    rw [effect] at h
    split at h
    · split at h
      · cases h
      · cases h
    · cases h
  | install => cases h
  | verify => cases h
  | swap => cases h
  | check => cases h
  | remove => cases h

/-- **What the registry remembers**: an extension is found under an id exactly if it was
recorded there in that version, and none was recorded or removed there since; and it may run
exactly if every manifest that was swapped in since then admits it. It was recorded because it
was found good under the manifest that was active when its install was called. -/
theorem installed_iff (hrun : Run prims seedManifest tr s) (id : ExtensionId)
    (ext : InstalledExtension) :
    s.controller.state.installed.lookup id = some ext ↔
      ext.extensionId = id ∧ ∃ past x later, tr = past ++ x :: later ∧ ∃ call,
        x.pre.effect x.input = .record call ∧ call.candidate.extensionId = id ∧
        call.candidate.version = ext.version ∧
        ((∃ entry, verifyInstall prims call.candidate call.manifest call.verifier = .ok entry) ∧
          ∃ y ∈ past, y.input = .install call.candidate call.verifier ∧
            y.pre.controller.state.manifest = call.manifest) ∧
        (∀ y ∈ later, (y.pre.effect y.input).Spares id) ∧
        (ext.state = .enabled ↔ ∀ y ∈ later, Tolerates id ext.version y) := by
  rw [lookup_eq_some_iff hrun]
  constructor
  · rintro ⟨past, x, later, rfl, call, hx, hid, hlater, rfl⟩
    obtain ⟨hid', hversion, hstate⟩ := keepAll_spec ⟨id, call.candidate.version, .enabled⟩ later
    refine ⟨hid', past, x, later, rfl, call, hx, hid, hversion.symm,
      verified_of_record hrun hx, hlater, ?_⟩
    rw [hversion]
    exact hstate.trans (and_iff_right rfl)
  · rintro ⟨rfl, past, x, later, rfl, call, hx, hid, hversion, -, hlater, hstate⟩
    refine ⟨past, x, later, rfl, call, hx, hid, hlater, ?_⟩
    obtain ⟨hid', hversion', hstate'⟩ :=
      keepAll_spec ⟨ext.extensionId, call.candidate.version, .enabled⟩ later
    rw [hversion] at hid' hversion' hstate' ⊢
    exact InstalledExtension.ext_of_enabled hid' hversion'
      (hstate'.trans ((and_iff_right rfl).trans hstate.symm))

open ExtensionController (sampleId sampleKey sampleSig sampleManifest recallBytes samplePrims
  sampleCandidate sampleVerifier)

/-- An extension is installed, removed, installed again, and then recalled. -/
theorem installed_iff_recalled : ∃ tr s, Run samplePrims sampleManifest tr s ∧
    tr.map Step.input = [.install sampleCandidate sampleVerifier, .verify 0, .insert 0,
      .remove sampleId, .install sampleCandidate sampleVerifier,
      .swap recallBytes sampleSig sampleKey sampleVerifier, .check 0, .verify 1, .insert 1,
      .commit 0] ∧
    ∃ past x later, tr = past ++ x :: later ∧ ∃ call, x.pre.effect x.input = .record call ∧
      call.candidate.extensionId = sampleId ∧ call.candidate.version = ⟨1, 51, 0⟩ ∧
      (∀ y ∈ later, (y.pre.effect y.input).Spares sampleId) ∧
      ∃ y ∈ later, ¬ Tolerates sampleId ⟨1, 51, 0⟩ y := by
  have hexec : (Transition.exec (step samplePrims) (new sampleManifest)
      [.install sampleCandidate sampleVerifier, .verify 0, .insert 0, .remove sampleId,
        .install sampleCandidate sampleVerifier,
        .swap recallBytes sampleSig sampleKey sampleVerifier, .check 0, .verify 1, .insert 1,
        .commit 0]).any (fun p => decide (p.2.controller.state.installed.lookup sampleId =
          some ⟨sampleId, ⟨1, 51, 0⟩, .disabled⟩)) = true := by
    decide +kernel
  obtain ⟨tr, s, hrun, hinputs, htest⟩ := Transition.exists_run_where hexec
  obtain ⟨-, past, x, later, hcut, call, hx, hid, hversion, -, hspares, hstate⟩ :=
    (installed_iff hrun sampleId _).mp (of_decide_eq_true htest)
  refine ⟨tr, s, hrun, hinputs, past, x, later, hcut, call, hx, hid, hversion, hspares, ?_⟩
  have hdisabled := mt hstate.mpr nofun
  simpa only [not_forall, exists_prop] using hdisabled

end SharedController

end Extensions

end DevBrowse
