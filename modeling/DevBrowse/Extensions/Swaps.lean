import DevBrowse.Extensions.Enforcement
import DevBrowse.Lib.Calls

/-!
# Swaps of the manifest

A swap parses the new manifest and checks its signature before it takes the lock, and
compares the versions under the lock. So two swaps may have been found good against the same
active manifest, and then take the lock one after the other. A swap is three steps here
(`DevBrowse.Extensions.Swap`): it is called, it checks its manifest, and it commits.

What was checked does not depend on the active manifest, and the versions are compared again
under the lock, so nothing is lost by that: every run with such swaps is one in which a swap
is a single event (`DevBrowse.Extensions.SharedController.exists_run`). The versions of the
active manifests grow with every swap that goes through, and a call that is rejected has
changed nothing (`DevBrowse.Extensions.SharedController.swaps_monotone`).
-/

namespace DevBrowse

namespace Extensions

open Transition (Step)

variable {prims : Primitives} {seedManifest manifest : AllowlistManifest}

/-- The part of a swap before the lock: parse the manifest and check its signature. -/
def verifyManifest (prims : Primitives) (newManifestBytes : List UInt8)
    (detachedSig : Ed25519SigBytes) (rootPubkey : Ed25519PubKeyBytes)
    (verifier : SignatureVerifier) : Except WarningIntent AllowlistManifest :=
  match parseAllowlistManifest prims newManifestBytes with
  | .error e => .error (.forParseError e)
  | .ok newManifest =>
    match verifyManifestSignature verifier rootPubkey newManifestBytes detachedSig with
    | .error e => .error (.forSigError e)
    | .ok () => .ok newManifest

/-- The loop over the entries finds no id twice if there is none, and none of those it has
seen. -/
theorem distinctIds_iff {seen : List ExtensionId} {entries : List AllowlistEntry} :
    distinctIds seen entries = true ↔ (entries.map AllowlistEntry.extensionId).Nodup ∧
      ∀ e ∈ entries, e.extensionId ∉ seen := by
  induction entries generalizing seen with
  | nil => simp [distinctIds]
  | cons e entries ih =>
    simp only [distinctIds, List.map_cons, List.nodup_cons, List.mem_map, List.forall_mem_cons]
    by_cases hseen : e.extensionId ∈ seen
    · simp [hseen]
    · rw [if_neg hseen, ih]
      constructor
      · rintro ⟨hnodup, hfresh⟩
        refine ⟨⟨?_, hnodup⟩, hseen, fun e' he' hmem => hfresh e' he' (List.mem_cons_of_mem _ hmem)⟩
        rintro ⟨e', he', heq⟩
        exact hfresh e' he' (heq ▸ List.mem_cons_self)
      · rintro ⟨⟨hnew, hnodup⟩, -, hfresh⟩
        refine ⟨hnodup, fun e' he' hmem => ?_⟩
        rcases List.mem_cons.mp hmem with heq | hmem
        · exact hnew ⟨e', he', heq⟩
        · exact hfresh e' he' hmem

/-- **What a manifest that is found good is.** -/
theorem verifyManifest_ok {bytes : List UInt8} {sig : Ed25519SigBytes}
    {rootPubkey : Ed25519PubKeyBytes} {verifier : SignatureVerifier}
    (h : verifyManifest prims bytes sig rootPubkey verifier = .ok manifest) :
    manifest.formatVersion = allowlistFormatVersion ∧
      (manifest.entries.map AllowlistEntry.extensionId).Nodup ∧
      prims.fromSlice bytes = some manifest ∧
      verifier.verifyEd25519 rootPubkey bytes sig = .ok () := by
  rw [verifyManifest, parseAllowlistManifest] at h
  cases hjson : prims.fromSlice bytes with
  | none => simp [hjson] at h
  | some m =>
    by_cases hformat : m.formatVersion = allowlistFormatVersion
    · by_cases hdistinct : distinctIds [] m.entries = true
      · cases hsig : verifyManifestSignature verifier rootPubkey bytes sig with
        | error e => simp [hjson, hformat, hdistinct, hsig] at h
        | ok _ =>
          obtain rfl : m = manifest := by simpa [hjson, hformat, hdistinct, hsig] using h
          exact ⟨hformat, (distinctIds_iff.mp hdistinct).1, rfl, hsig⟩
      · simp [hjson, hformat, hdistinct] at h
    · simp [hjson, hformat] at h

namespace State

/-- The part of a swap under the lock. -/
def swapTo (st : State) (newManifest : AllowlistManifest) : SwapOutcome × State :=
  if newManifest.manifestVersion ≤ st.manifest.manifestVersion then
    (.rejected .allowlistManifestUpdateRejected, st)
  else
    (.swapped (st.installed.entries.filterMap fun e => (reconcile newManifest e.2).2),
      ⟨newManifest, st.installed.mapValues fun ext => (reconcile newManifest ext).1⟩)

/-- The two parts make up a swap. -/
theorem trySwap_eq (prims : Primitives) (st : State) (bytes : List UInt8)
    (sig : Ed25519SigBytes) (rootPubkey : Ed25519PubKeyBytes) (verifier : SignatureVerifier) :
    st.trySwapAllowlistManifest prims bytes sig rootPubkey verifier =
      match verifyManifest prims bytes sig rootPubkey verifier with
      | .error intent => (.rejected intent, st)
      | .ok newManifest => st.swapTo newManifest := by
  rw [trySwapAllowlistManifest, verifyManifest]
  cases parseAllowlistManifest prims bytes with
  | error e => rfl
  | ok newManifest =>
    cases verifyManifestSignature verifier rootPubkey bytes sig with
    | error e => rfl
    | ok _ => rfl

/-- Under the lock a swap is refused and changes nothing, or the manifest is newer and
everything installed is reconciled with it. -/
theorem swapTo_cases (st : State) (manifest : AllowlistManifest) :
    st.swapTo manifest = (.rejected .allowlistManifestUpdateRejected, st) ∨
    st.manifest.manifestVersion < manifest.manifestVersion ∧ ∃ intents, st.swapTo manifest =
      (.swapped intents,
        ⟨manifest, st.installed.mapValues fun ext => (reconcile manifest ext).1⟩) := by
  rw [swapTo]
  split
  · exact Or.inl rfl
  · rename_i hversion
    exact Or.inr ⟨UInt64.not_le.mp hversion, _, rfl⟩

end State

/-! ### Calls that interleave -/

/-- How far a swap has come. -/
inductive SwapPhase where
  /-- It was called. -/
  | called
  /-- It has found its manifest good. -/
  | verified (newManifest : AllowlistManifest)
  /-- It is done. -/
  | returned (outcome : SwapOutcome)
  deriving DecidableEq

/-- A call of `try_swap_allowlist_manifest`. -/
structure Swap where
  /-- The bytes of the new manifest. -/
  newManifestBytes : List UInt8
  /-- Their signature. -/
  detachedSig : Ed25519SigBytes
  /-- The key they are signed with. -/
  rootPubkey : Ed25519PubKeyBytes
  /-- The verifier. -/
  verifier : SignatureVerifier
  /-- How far it has come. -/
  phase : SwapPhase

/-- What a swap that is done came back with. -/
def Swap.outcome (call : Swap) : Option SwapOutcome :=
  match call.phase with
  | .returned outcome => some outcome
  | _ => none

/-- What an install that is done came back with. -/
def Install.outcome (call : Install) : Option InstallOutcome :=
  match call.phase with
  | .returned outcome => some outcome
  | _ => none

/-- **The extension controller**, with the installs and the swaps made so far. -/
structure SharedController where
  /-- The controller, with the installs. -/
  controller : ExtensionController
  /-- The swaps, in the order they were called. -/
  swaps : List Swap

namespace SharedController

/-- The controller before the first call. -/
def new (seedManifest : AllowlistManifest) : SharedController := ⟨.new seedManifest, []⟩

/-- What can happen. -/
inductive Event where
  /-- `install` is called, and gets at the manifest. -/
  | install (candidate : InstallCandidate) (verifier : SignatureVerifier)
  /-- An install checks its candidate. -/
  | verify (i : ℕ)
  /-- An install records its extension. -/
  | insert (i : ℕ)
  /-- `try_swap_allowlist_manifest` is called. -/
  | swap (newManifestBytes : List UInt8) (detachedSig : Ed25519SigBytes)
    (rootPubkey : Ed25519PubKeyBytes) (verifier : SignatureVerifier)
  /-- A swap checks its manifest. -/
  | check (i : ℕ)
  /-- A swap takes the lock. -/
  | commit (i : ℕ)
  /-- `remove` is called. -/
  | remove (id : ExtensionId)

/-- **One event.** -/
def step (prims : Primitives) (s : SharedController) : Event → Option SharedController
  | .install candidate verifier =>
    (s.controller.step prims (.install candidate verifier)).map fun c => { s with controller := c }
  | .verify i => (s.controller.step prims (.verify i)).map fun c => { s with controller := c }
  | .insert i => (s.controller.step prims (.insert i)).map fun c => { s with controller := c }
  | .swap newManifestBytes detachedSig rootPubkey verifier =>
    some { s with
      swaps := s.swaps ++ [⟨newManifestBytes, detachedSig, rootPubkey, verifier, .called⟩] }
  | .check i =>
    match s.swaps[i]? with
    | some ⟨newManifestBytes, detachedSig, rootPubkey, verifier, .called⟩ =>
      let phase :=
        match verifyManifest prims newManifestBytes detachedSig rootPubkey verifier with
        | .ok newManifest => .verified newManifest
        | .error intent => .returned (.rejected intent)
      some { s with
        swaps := s.swaps.set i ⟨newManifestBytes, detachedSig, rootPubkey, verifier, phase⟩ }
    | _ => none
  | .commit i =>
    match s.swaps[i]? with
    | some ⟨newManifestBytes, detachedSig, rootPubkey, verifier, .verified newManifest⟩ =>
      let swapped := s.controller.state.swapTo newManifest
      some ⟨{ s.controller with state := swapped.2 }, s.swaps.set i
        ⟨newManifestBytes, detachedSig, rootPubkey, verifier, .returned swapped.1⟩⟩
    | _ => none
  | .remove id => (s.controller.step prims (.remove id)).map fun c => { s with controller := c }

/-- The runs of the controller. -/
abbrev Run (prims : Primitives) (seedManifest : AllowlistManifest) :
    List (Step SharedController Event) → SharedController → Prop :=
  Transition.Run (Transition.ofFun (step prims)) (new seedManifest)

/-- What a swap comes back with at this step, if one does. -/
def swapReturns (x : Step SharedController Event) : Option SwapOutcome :=
  match x.input with
  | .check i | .commit i => x.post.swaps[i]?.bind Swap.outcome
  | _ => none

/-- The step is one of the `i`-th swap. -/
def OfSwap (i : ℕ) (x : Step SharedController Event) : Prop :=
  match x.input with
  | .swap _ _ _ _ => i = x.pre.swaps.length
  | .check j | .commit j => i = j
  | _ => False

/-- The step is one of the `i`-th install. -/
def OfInstall (i : ℕ) (x : Step SharedController Event) : Prop :=
  match x.input with
  | .install _ _ => i = x.pre.controller.installs.length
  | .verify j | .insert j => i = j
  | _ => False

/-- **The manifest was accepted**: its format is the supported one, no extension has two
entries, and some swap came with its bytes and a signature its verifier accepted. -/
def Accepted (prims : Primitives) (s : SharedController) (manifest : AllowlistManifest) : Prop :=
  manifest.formatVersion = allowlistFormatVersion ∧
    (manifest.entries.map AllowlistEntry.extensionId).Nodup ∧
    ∃ call ∈ s.swaps, prims.fromSlice call.newManifestBytes = some manifest ∧
      call.verifier.verifyEd25519 call.rootPubkey call.newManifestBytes call.detachedSig = .ok ()

variable {s s' : SharedController} {e : Event} {i : ℕ} {tr : List (Step SharedController Event)}

/-! ### What an event does -/

/-- The event of the controller that swaps at once, for one that is none of a swap. -/
def Event.toController : Event → Option ExtensionController.Event
  | .install candidate verifier => some (.install candidate verifier)
  | .verify i => some (.verify i)
  | .insert i => some (.insert i)
  | .remove id => some (.remove id)
  | _ => none

theorem step_controller {e' : ExtensionController.Event} (he : e.toController = some e')
    (h : s.step prims e = some s') :
    s.controller.step prims e' = some s'.controller ∧ s'.swaps = s.swaps := by
  have hmap : ((s.controller.step prims e').map fun c => { s with controller := c }) =
      some s' := by
    cases e with
    | install => obtain rfl := Option.some.inj he; exact h
    | verify => obtain rfl := Option.some.inj he; exact h
    | insert => obtain rfl := Option.some.inj he; exact h
    | remove => obtain rfl := Option.some.inj he; exact h
    | swap => simp [Event.toController] at he
    | check => simp [Event.toController] at he
    | commit => simp [Event.toController] at he
  obtain ⟨c, hc, rfl⟩ := Option.map_eq_some_iff.mp hmap
  exact ⟨hc, rfl⟩

/-- A swap that checks its manifest leaves the controller alone. -/
theorem step_check (h : s.step prims (.check i) = some s') :
    ∃ call phase, s.swaps[i]? = some call ∧ call.phase = .called ∧
      s' = { s with swaps := s.swaps.set i { call with phase := phase } } ∧
      ((∃ intent, phase = .returned (.rejected intent)) ∨
        ∃ manifest, phase = .verified manifest ∧ verifyManifest prims call.newManifestBytes
          call.detachedSig call.rootPubkey call.verifier = .ok manifest) := by
  simp only [step] at h
  split at h
  · rename_i bytes sig rootPubkey verifier hcall
    obtain rfl := Option.some.inj h
    refine ⟨_, _, hcall, rfl, rfl, ?_⟩
    cases hver : verifyManifest prims bytes sig rootPubkey verifier with
    | error intent => exact Or.inl ⟨intent, rfl⟩
    | ok manifest => exact Or.inr ⟨manifest, rfl, rfl⟩
  · simp at h

/-- A swap that takes the lock is rejected and changes nothing else, or its manifest is newer
and everything installed is reconciled with it. -/
theorem step_commit (h : s.step prims (.commit i) = some s') :
    ∃ call manifest outcome, s.swaps[i]? = some call ∧ call.phase = .verified manifest ∧
      s'.swaps = s.swaps.set i { call with phase := .returned outcome } ∧
      s'.controller.installs = s.controller.installs ∧
      ((∃ intent, outcome = .rejected intent ∧ s'.controller.state = s.controller.state) ∨
        s.controller.state.manifest.manifestVersion < manifest.manifestVersion ∧ ∃ intents,
          outcome = .swapped intents ∧
            s'.controller.state = ⟨manifest, s.controller.state.installed.mapValues
              fun ext => (State.reconcile manifest ext).1⟩) := by
  simp only [step] at h
  split at h
  · rename_i bytes sig rootPubkey verifier manifest hcall
    obtain rfl := Option.some.inj h
    refine ⟨_, manifest, (s.controller.state.swapTo manifest).1, hcall, rfl, rfl, rfl, ?_⟩
    rcases s.controller.state.swapTo_cases manifest with heq | ⟨hversion, intents, heq⟩
    · exact Or.inl ⟨_, by rw [heq], by rw [heq]⟩
    · exact Or.inr ⟨hversion, intents, by rw [heq], by rw [heq]⟩
  · simp at h

/-- An install that records its extension returns. -/
theorem step_insert {c c' : ExtensionController} (h : c.step prims (.insert i) = some c') :
    ∃ call, c.installs[i]? = some call ∧ call.phase = .verified ∧
      c' = ⟨c.state.record call.candidate,
        c.installs.set i { call with phase := .returned .installed }⟩ := by
  simp only [ExtensionController.step] at h
  split at h
  · rename_i hcall
    obtain rfl := Option.some.inj h
    exact ⟨_, hcall, rfl, rfl⟩
  · simp at h

/-- An install that checks its candidate changes nothing else. -/
theorem step_verify {c c' : ExtensionController} (h : c.step prims (.verify i) = some c') :
    ∃ call phase, c.installs[i]? = some call ∧ call.phase = .snapshot ∧
      c' = { c with installs := c.installs.set i { call with phase := phase } } := by
  simp only [ExtensionController.step] at h
  split at h
  · rename_i hcall
    obtain rfl := Option.some.inj h
    exact ⟨_, _, hcall, rfl, rfl⟩
  · simp at h

/-- **What a step of a swap does**: it changes nothing, or the swap comes back swapped. -/
theorem ofSwap_cases (h : s.step prims e = some s') (hof : OfSwap i ⟨s, e, s'⟩) :
    s'.controller.state = s.controller.state ∨
      ∃ call intents, s'.swaps[i]? = some call ∧ call.outcome = some (.swapped intents) := by
  cases e with
  | swap bytes sig rootPubkey verifier =>
    obtain rfl := Option.some.inj h
    exact Or.inl rfl
  | check j =>
    obtain ⟨call, phase, -, -, rfl, -⟩ := step_check h
    exact Or.inl rfl
  | commit j =>
    obtain rfl : i = j := hof
    obtain ⟨call, manifest, outcome, hcall, -, hswaps, -, ⟨intent, -, hstate⟩ |
      ⟨-, intents, rfl, -⟩⟩ := step_commit h
    · exact Or.inl hstate
    · rw [hswaps]
      exact Or.inr ⟨_, intents, Calls.getElem?_set_self hcall, rfl⟩
  | install => exact hof.elim
  | verify => exact hof.elim
  | insert => exact hof.elim
  | remove => exact hof.elim

/-- **What a step of an install does**: it changes nothing, or the extension is installed. -/
theorem ofInstall_cases (h : s.step prims e = some s') (hof : OfInstall i ⟨s, e, s'⟩) :
    s'.controller.state = s.controller.state ∨
      ∃ call, s'.controller.installs[i]? = some call ∧ call.outcome = some .installed := by
  cases e with
  | install candidate verifier =>
    have hc := (step_controller rfl h).1
    exact Or.inl (by rw [← Option.some.inj hc])
  | verify j =>
    obtain ⟨call, phase, -, -, heq⟩ := step_verify (step_controller rfl h).1
    exact Or.inl (by rw [heq])
  | insert j =>
    obtain rfl : i = j := hof
    obtain ⟨call, hcall, -, heq⟩ := step_insert (step_controller rfl h).1
    exact Or.inr ⟨_, by rw [heq]; exact Calls.getElem?_set_self hcall, rfl⟩
  | swap => exact hof.elim
  | check => exact hof.elim
  | commit => exact hof.elim
  | remove => exact hof.elim

/-! ### Calls that have returned -/

/-- A swap that has returned stays as it is. -/
theorem swap_stays {call : Swap} (h : s.step prims e = some s') (hcall : s.swaps[i]? = some call)
    (hout : call.outcome.isSome = true) : s'.swaps[i]? = some call := by
  cases e with
  | install candidate verifier => rw [(step_controller rfl h).2, hcall]
  | verify j => rw [(step_controller rfl h).2, hcall]
  | insert j => rw [(step_controller rfl h).2, hcall]
  | remove id => rw [(step_controller rfl h).2, hcall]
  | swap bytes sig rootPubkey verifier =>
    obtain rfl := Option.some.inj h
    exact Calls.getElem?_concat_of_some hcall
  | check j =>
    obtain ⟨call', phase, hcall', hphase, rfl, -⟩ := step_check h
    refine Calls.getElem?_set_of_ne hcall hcall' ?_
    rintro rfl
    simp [Swap.outcome, hphase] at hout
  | commit j =>
    obtain ⟨call', manifest, outcome, hcall', hphase, hswaps, -⟩ := step_commit h
    rw [hswaps]
    refine Calls.getElem?_set_of_ne hcall hcall' ?_
    rintro rfl
    simp [Swap.outcome, hphase] at hout

/-- An install that has returned stays as it is. -/
theorem install_stays {call : Install} (h : s.step prims e = some s')
    (hcall : s.controller.installs[i]? = some call) (hout : call.outcome.isSome = true) :
    s'.controller.installs[i]? = some call := by
  cases e with
  | install candidate verifier =>
    have hc := (step_controller rfl h).1
    rw [← Option.some.inj hc]
    exact Calls.getElem?_concat_of_some hcall
  | verify j =>
    obtain ⟨call', phase, hcall', hphase, heq⟩ := step_verify (step_controller rfl h).1
    rw [heq]
    refine Calls.getElem?_set_of_ne hcall hcall' ?_
    rintro rfl
    simp [Install.outcome, hphase] at hout
  | insert j =>
    obtain ⟨call', hcall', hphase, heq⟩ := step_insert (step_controller rfl h).1
    rw [heq]
    refine Calls.getElem?_set_of_ne hcall hcall' ?_
    rintro rfl
    simp [Install.outcome, hphase] at hout
  | swap bytes sig rootPubkey verifier =>
    obtain rfl := Option.some.inj h
    exact hcall
  | check j =>
    obtain ⟨call', phase, -, -, rfl, -⟩ := step_check h
    exact hcall
  | commit j =>
    obtain ⟨-, -, -, -, -, -, hinstalls, -⟩ := step_commit h
    rw [hinstalls, hcall]
  | remove id =>
    have hc := (step_controller rfl h).1
    rw [← Option.some.inj hc]
    exact hcall

/-- **A swap that is rejected has changed nothing.** -/
theorem state_eq_of_rejected_swap {call : Swap} {intent : WarningIntent}
    (h : Run prims seedManifest tr s) (hcall : s.swaps[i]? = some call)
    (hout : call.outcome = some (.rejected intent)) :
    ∀ x ∈ tr, OfSwap i x → x.post.controller.state = x.pre.controller.state := by
  rintro x hx hof
  obtain ⟨-, -, -, -, hstep, -⟩ := h.of_mem hx
  rcases ofSwap_cases hstep hof with heq | ⟨call', intents, hcall', hout'⟩
  · exact heq
  · -- a swap that has come back swapped would still show that it has
    have hend : s.swaps[i]? = some call' :=
      Calls.getElem?_of_run SharedController.swaps swap_stays h hx hcall' (by rw [hout']; rfl)
    obtain rfl := Option.some.inj (hcall.symm.trans hend)
    simp [hout] at hout'

/-- **An install that is rejected has changed nothing.** -/
theorem state_eq_of_rejected_install {call : Install} {intent : WarningIntent}
    (h : Run prims seedManifest tr s) (hcall : s.controller.installs[i]? = some call)
    (hout : call.outcome = some (.rejected intent)) :
    ∀ x ∈ tr, OfInstall i x → x.post.controller.state = x.pre.controller.state := by
  rintro x hx hof
  obtain ⟨-, -, -, -, hstep, -⟩ := h.of_mem hx
  rcases ofInstall_cases hstep hof with heq | ⟨call', hcall', hout'⟩
  · exact heq
  · have hend : s.controller.installs[i]? = some call' :=
      Calls.getElem?_of_run (fun s : SharedController => s.controller.installs)
        install_stays h hx hcall' (by rw [hout']; rfl)
    obtain rfl := Option.some.inj (hcall.symm.trans hend)
    simp [hout] at hout'

/-! ### Versions -/

/-- A swap that has found its manifest good has found it good. -/
def Checked (prims : Primitives) (s : SharedController) : Prop :=
  ∀ (i : ℕ) (call : Swap) manifest, s.swaps[i]? = some call → call.phase = .verified manifest →
    verifyManifest prims call.newManifestBytes call.detachedSig call.rootPubkey call.verifier =
      .ok manifest

theorem Checked.step (hc : Checked prims s) (h : s.step prims e = some s') : Checked prims s' := by
  intro i call manifest hcall hphase
  cases e with
  | install candidate verifier =>
    exact hc i call manifest ((step_controller rfl h).2 ▸ hcall) hphase
  | verify j => exact hc i call manifest ((step_controller rfl h).2 ▸ hcall) hphase
  | insert j => exact hc i call manifest ((step_controller rfl h).2 ▸ hcall) hphase
  | remove id => exact hc i call manifest ((step_controller rfl h).2 ▸ hcall) hphase
  | swap bytes sig rootPubkey verifier =>
    obtain rfl := Option.some.inj h
    rcases Calls.getElem?_concat_cases hcall with hold | ⟨-, rfl⟩
    · exact hc i call manifest hold hphase
    · simp at hphase
  | check j =>
    obtain ⟨call', phase, -, -, rfl, hout⟩ := step_check h
    rcases Calls.getElem?_set_cases hcall with ⟨-, rfl⟩ | ⟨-, hold⟩
    · obtain rfl : phase = .verified manifest := hphase
      rcases hout with ⟨intent, hrejected⟩ | ⟨manifest', hverified, hver⟩
      · simp at hrejected
      · obtain rfl := SwapPhase.verified.inj hverified
        exact hver
    · exact hc i call manifest hold hphase
  | commit j =>
    obtain ⟨call', manifest', outcome, -, -, hswaps, -⟩ := step_commit h
    rw [hswaps] at hcall
    rcases Calls.getElem?_set_cases hcall with ⟨-, rfl⟩ | ⟨-, hold⟩
    · simp at hphase
    · exact hc i call manifest hold hphase

theorem checked_of_run (h : Run prims seedManifest tr s) : Checked prims s :=
  h.invariant (I := fun _ s => Checked prims s) (by simp [Checked, new])
    fun _ _ _ _ _ hi hstep => hi.step hstep

/-- **The manifest changes only where a swap comes back swapped**, and then to a newer one
that was accepted. -/
theorem manifest_step (hc : Checked prims s) (h : s.step prims e = some s') :
    ((∀ intents, swapReturns ⟨s, e, s'⟩ ≠ some (.swapped intents)) ∧
      s'.controller.state.manifest = s.controller.state.manifest) ∨
    ((∃ intents, swapReturns ⟨s, e, s'⟩ = some (.swapped intents)) ∧
      s.controller.state.manifest.manifestVersion <
        s'.controller.state.manifest.manifestVersion ∧
      Accepted prims s' s'.controller.state.manifest) := by
  cases e with
  | install candidate verifier =>
    have hs := (step_controller rfl h).1
    exact Or.inl ⟨by simp [swapReturns], by rw [← Option.some.inj hs]⟩
  | verify j =>
    obtain ⟨call, phase, -, -, heq⟩ := step_verify (step_controller rfl h).1
    exact Or.inl ⟨by simp [swapReturns], by rw [heq]⟩
  | insert j =>
    obtain ⟨call, -, -, heq⟩ := step_insert (step_controller rfl h).1
    exact Or.inl ⟨by simp [swapReturns], by rw [heq]; rfl⟩
  | remove id =>
    have hs := (step_controller rfl h).1
    exact Or.inl ⟨by simp [swapReturns], by rw [← Option.some.inj hs]; rfl⟩
  | swap bytes sig rootPubkey verifier =>
    obtain rfl := Option.some.inj h
    exact Or.inl ⟨by simp [swapReturns], rfl⟩
  | check j =>
    obtain ⟨call, phase, hcall, -, rfl, hout⟩ := step_check h
    refine Or.inl ⟨fun intents => ?_, rfl⟩
    rcases hout with ⟨intent, rfl⟩ | ⟨manifest, rfl, -⟩
    · simp [swapReturns, Calls.getElem?_set_self hcall, Swap.outcome]
    · simp [swapReturns, Calls.getElem?_set_self hcall, Swap.outcome]
  | commit j =>
    obtain ⟨call, manifest, outcome, hcall, hphase, hswaps, -, hs'⟩ := step_commit h
    have hreturned : s'.swaps[j]? = some { call with phase := .returned outcome } := by
      rw [hswaps]
      exact Calls.getElem?_set_self hcall
    rcases hs' with ⟨intent, rfl, hstate⟩ | ⟨hversion, intents, rfl, hstate⟩
    · refine Or.inl ⟨fun intents => ?_, by rw [hstate]⟩
      simp [swapReturns, hreturned, Swap.outcome]
    · rw [hstate]
      refine Or.inr ⟨⟨intents, ?_⟩, hversion, ?_⟩
      · simp [swapReturns, hreturned, Swap.outcome]
      · -- what the swap found good when it checked is what it swaps to
        obtain ⟨hformat, hnodup, hjson, hsig⟩ :=
          verifyManifest_ok (hc j call manifest hcall hphase)
        exact ⟨hformat, hnodup, _, List.mem_of_getElem? hreturned, hjson, hsig⟩

/-- **Swaps are monotone and atomic**: in every run the version of the active manifest grows
with every swap that comes back swapped, to a manifest that was accepted, and the manifest
changes at no other step; and no step of a swap or of an install that is rejected changes
anything. -/
theorem swaps_monotone (h : Run prims seedManifest tr s) :
    (∀ x ∈ tr,
      (∀ intents, swapReturns x = some (.swapped intents) →
        x.pre.controller.state.manifest.manifestVersion <
            x.post.controller.state.manifest.manifestVersion ∧
          Accepted prims x.post x.post.controller.state.manifest) ∧
      ((∀ intents, swapReturns x ≠ some (.swapped intents)) →
        x.post.controller.state.manifest = x.pre.controller.state.manifest)) ∧
    (∀ (i : ℕ) call intent, s.swaps[i]? = some call → call.outcome = some (.rejected intent) →
      ∀ x ∈ tr, OfSwap i x → x.post.controller.state = x.pre.controller.state) ∧
    ∀ (i : ℕ) call intent, s.controller.installs[i]? = some call →
      call.outcome = some (.rejected intent) →
        ∀ x ∈ tr, OfInstall i x → x.post.controller.state = x.pre.controller.state := by
  refine ⟨fun x hx => ?_, fun i call intent hcall hout => state_eq_of_rejected_swap h hcall hout,
    fun i call intent hcall hout => state_eq_of_rejected_install h hcall hout⟩
  obtain ⟨before, after, -, hrun, hstep, -⟩ := h.of_mem hx
  rcases manifest_step (checked_of_run hrun) hstep with ⟨hnot, heq⟩ | ⟨⟨intents, hret⟩, hnew⟩
  · exact ⟨fun intents hret => absurd hret (hnot intents), fun _ => heq⟩
  · exact ⟨fun _ _ => hnew, fun hnot => absurd hret (hnot intents)⟩

/-! ### Two swaps at a time -/

open ExtensionController (sampleKey sampleSig sampleHash sampleManifest recallBytes)

/-- The bytes of a manifest that is newer still. -/
def laterBytes : List UInt8 :=
  "\x7b\"format_version\":1,\"manifest_version\":3,\"entries\":[]\x7d".toList.map
    fun c => c.toNat.toUInt8

/-- The libraries, on these inputs. -/
def laterPrims : Primitives :=
  ⟨fun bytes => if bytes = recallBytes then some ⟨1, 2, []⟩
    else if bytes = laterBytes then some ⟨1, 3, []⟩ else none, fun _ => sampleHash⟩

/-- A verifier that trusts the key for both manifests. -/
def laterVerifier : SignatureVerifier :=
  inMemoryTrustedVerifier
    [(sampleKey, recallBytes, sampleSig), (sampleKey, laterBytes, sampleSig)]

/-- Two swaps are found good against the same manifest, and the newer one commits first. -/
theorem swaps_monotone_overtaken :
    ∃ tr s, Run laterPrims sampleManifest tr s ∧
      tr.map Step.input = [.swap recallBytes sampleSig sampleKey laterVerifier,
        .swap laterBytes sampleSig sampleKey laterVerifier, .check 0, .check 1, .commit 1,
        .commit 0] ∧
      s.swaps.map Swap.outcome =
        [some (.rejected .allowlistManifestUpdateRejected), some (.swapped [])] ∧
      (∀ x ∈ tr,
        (∀ intents, swapReturns x = some (.swapped intents) →
          x.pre.controller.state.manifest.manifestVersion <
              x.post.controller.state.manifest.manifestVersion ∧
            Accepted laterPrims x.post x.post.controller.state.manifest) ∧
        ((∀ intents, swapReturns x ≠ some (.swapped intents)) →
          x.post.controller.state.manifest = x.pre.controller.state.manifest)) := by
  have hexec : (Transition.exec (step laterPrims) (new sampleManifest)
      [.swap recallBytes sampleSig sampleKey laterVerifier,
        .swap laterBytes sampleSig sampleKey laterVerifier, .check 0, .check 1, .commit 1,
        .commit 0]).any (fun p => decide (p.2.swaps.map Swap.outcome =
          [some (.rejected .allowlistManifestUpdateRejected), some (.swapped [])])) = true := by
    decide +kernel
  obtain ⟨tr, s, hrun, hinputs, htest⟩ := Transition.exists_run_where hexec
  exact ⟨tr, s, hrun, hinputs, of_decide_eq_true htest, (swaps_monotone hrun).1⟩

/-! ### Swaps at once -/

/-- An event does nothing to the controller, or it is an event of the controller that swaps at
once. -/
theorem step_controller_cases (hc : Checked prims s) (h : s.step prims e = some s') :
    s'.controller = s.controller ∨ ∃ e', s.controller.step prims e' = some s'.controller := by
  cases e with
  | install candidate verifier => exact Or.inr ⟨_, (step_controller rfl h).1⟩
  | verify j => exact Or.inr ⟨_, (step_controller rfl h).1⟩
  | insert j => exact Or.inr ⟨_, (step_controller rfl h).1⟩
  | remove id => exact Or.inr ⟨_, (step_controller rfl h).1⟩
  | swap bytes sig rootPubkey verifier =>
    obtain rfl := Option.some.inj h
    exact Or.inl rfl
  | check j =>
    obtain ⟨call, phase, -, -, rfl, -⟩ := step_check h
    exact Or.inl rfl
  | commit j =>
    simp only [step] at h
    split at h
    · rename_i bytes sig rootPubkey verifier manifest hcall
      obtain rfl := Option.some.inj h
      refine Or.inr ⟨.swap bytes sig rootPubkey verifier, ?_⟩
      -- what was found good before the lock is what a swap at once would find good now
      have hver : verifyManifest prims bytes sig rootPubkey verifier = .ok manifest :=
        hc j _ manifest hcall rfl
      simp [ExtensionController.step, State.trySwap_eq, hver]
    · simp at h

/-- **Swaps may be taken to happen at once**: every run is one of the controller in which
they do. -/
theorem exists_run (h : Run prims seedManifest tr s) :
    ∃ tr', ExtensionController.Run prims seedManifest tr' s.controller := by
  refine h.invariant (I := fun _ s => ∃ tr', ExtensionController.Run prims seedManifest tr'
    s.controller) ⟨[], Transition.Run.nil⟩ ?_
  rintro tr s e s' hrun ⟨tr', hrun'⟩ hstep
  rcases step_controller_cases (checked_of_run hrun) hstep with heq | ⟨e', hstep'⟩
  · exact ⟨tr', heq ▸ hrun'⟩
  · exact ⟨_, hrun'.snoc hstep'⟩

end SharedController

end Extensions

end DevBrowse
