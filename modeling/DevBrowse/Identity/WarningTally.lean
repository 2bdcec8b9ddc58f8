import DevBrowse.Basic
import DevBrowse.Lib.Checked
import DevBrowse.Lib.HashMap
import DevBrowse.Lib.Text
import DevBrowse.Lib.Transition

/-!
# The tally of the warnings

The identity layer warns and never gates. A warning crosses to the user interface as three
texts and is read back there, and a counter keeps how often each profile was warned of what, so
that a badge needs no log. What the counter stands for is the log: the warnings recorded since
their profile was last reset.

Against the log the counter is exact in every run of records and resets
(`DevBrowse.Identity.WarningCounter.answers_as_log`): for each kind of warning, for the badge and
for the question whether there is any. It stops the process in two places only, where a count
would leave the range of a word and where the counts of one profile add up to more than one,
which can be while each of them is in range.
-/

namespace DevBrowse

namespace Identity

/-! ### Warnings and what crosses of them -/

/-- A machine-readable warning code. -/
inductive WarningCode where
  /-- Developer tools were asked for in a Strict tab. -/
  | strictDevToolsBlocked
  /-- An extension was to be activated in a Strict tab. -/
  | strictExtensionBlocked
  /-- A translation was asked for in a Strict tab. -/
  | strictTranslationBlocked
  /-- A tab tried to land in a renderer of another mode or profile. -/
  | mixedModeShareAttempt
  deriving DecidableEq

namespace WarningCode

/-- The text of a code on the wire. -/
def asStr : WarningCode → Text
  | .strictDevToolsBlocked => "strict_devtools_blocked".toList
  | .strictExtensionBlocked => "strict_extension_blocked".toList
  | .strictTranslationBlocked => "strict_translation_blocked".toList
  | .mixedModeShareAttempt => "mixed_mode_share_attempt".toList

end WarningCode

/-- The errors of reading a warning off the wire. -/
inductive WarningParseError where
  /-- The profile is not an identifier. -/
  | invalidProfileId (text : Text)
  /-- The code is not a known one. -/
  | unknownCode (text : Text)
  deriving DecidableEq

/-- The code a text on the wire stands for. -/
def WarningCode.fromStr (s : Text) : Except WarningParseError WarningCode :=
  if s = "strict_devtools_blocked".toList then .ok .strictDevToolsBlocked
  else if s = "strict_extension_blocked".toList then .ok .strictExtensionBlocked
  else if s = "strict_translation_blocked".toList then .ok .strictTranslationBlocked
  else if s = "mixed_mode_share_attempt".toList then .ok .mixedModeShareAttempt
  else .error (.unknownCode s)

/-- A warning. -/
structure Warning where
  /-- The profile that is warned of. -/
  profileId : Uuid
  /-- What is warned of. -/
  code : WarningCode
  /-- The detail, for the user. -/
  message : Text
  deriving DecidableEq

/-- A warning on the wire, three texts. -/
structure IdentityWarning where
  /-- The text of the profile's identifier. -/
  profileId : Text
  /-- The text of the code. -/
  code : Text
  /-- The detail, for the user. -/
  message : Text
  deriving DecidableEq

/-- The text of identifiers: how one is written, and which texts are read as which. -/
structure UuidText where
  /-- How an identifier is written. -/
  toText : Uuid → Text
  /-- What a text is read as. -/
  parseStr : Text → Option Uuid

/-- What is written is read back. -/
def UuidText.RoundTrip (u : UuidText) : Prop := ∀ id, u.parseStr (u.toText id) = some id

namespace Warning

/-- A warning as it crosses. -/
def toWire (u : UuidText) (w : Warning) : IdentityWarning :=
  ⟨u.toText w.profileId, w.code.asStr, w.message⟩

/-- A warning as it is read: the profile first, then the code. -/
def tryFrom (u : UuidText) (w : IdentityWarning) : Except WarningParseError Warning :=
  match u.parseStr w.profileId with
  | none => .error (.invalidProfileId w.profileId)
  | some profileId => (WarningCode.fromStr w.code).map fun code => ⟨profileId, code, w.message⟩

end Warning

theorem WarningCode.fromStr_eq_ok_iff {s : Text} {code : WarningCode} :
    WarningCode.fromStr s = .ok code ↔ s = code.asStr := by
  constructor
  · intro h
    rw [fromStr] at h
    -- the four texts, in the order they are tried
    split at h
    · cases h; assumption
    split at h
    · cases h; assumption
    split at h
    · cases h; assumption
    split at h
    · cases h; assumption
    · cases h
  · rintro rfl
    cases code <;> decide

/-- **What is read off the wire**: exactly the codes as they are written are known, and the
profile is read as its text is. -/
theorem Warning.tryFrom_eq_ok_iff {u : UuidText} {m : IdentityWarning} {w : Warning} :
    Warning.tryFrom u m = .ok w ↔
      u.parseStr m.profileId = some w.profileId ∧ m.code = w.code.asStr ∧
        m.message = w.message := by
  rw [Warning.tryFrom]
  cases hparse : u.parseStr m.profileId with
  | none => exact iff_of_false (by simp) (by simp)
  | some profileId =>
    cases hcode : WarningCode.fromStr m.code with
    | error e =>
      refine iff_of_false (by simp [Except.map]) fun h => ?_
      rw [WarningCode.fromStr_eq_ok_iff.mpr h.2.1] at hcode
      cases hcode
    | ok code =>
      rw [WarningCode.fromStr_eq_ok_iff] at hcode
      rw [hcode]
      have hinj : code.asStr = w.code.asStr ↔ code = w.code := by
        refine ⟨fun h => ?_, fun h => by rw [h]⟩
        rw [← WarningCode.fromStr_eq_ok_iff, WarningCode.fromStr_eq_ok_iff.mpr rfl] at h
        exact (Except.ok.inj h)
      rw [hinj]
      simp only [Except.map, Except.ok.injEq, Option.some.injEq]
      constructor
      · rintro rfl
        exact ⟨rfl, rfl, rfl⟩
      · rintro ⟨rfl, rfl, hmessage⟩
        rw [hmessage]

/-- A warning comes back from the wire as it was. -/
theorem Warning.tryFrom_toWire {u : UuidText} (hu : u.RoundTrip) (w : Warning) :
    Warning.tryFrom u (w.toWire u) = .ok w :=
  Warning.tryFrom_eq_ok_iff.mpr ⟨hu w.profileId, rfl, rfl⟩

/-! ### The counter -/

/-- **The counter**, for each profile how often it was warned of what. -/
structure WarningCounter where
  /-- The counts of each profile. -/
  counts : HashMap Uuid (HashMap WarningCode ℕ)

namespace WarningCounter

/-- The counter that has counted nothing. -/
def new : WarningCounter := ⟨∅⟩

/-- Count a warning. The new count is returned. -/
def record (wc : WarningCounter) (profileId : Uuid) (code : WarningCode) :
    Checked Empty (ℕ × WarningCounter) := do
  let perCode := (wc.counts.lookup profileId).getD ∅
  let entry ← Checked.add 64 ((perCode.lookup code).getD 0) 1
  .ok (entry, ⟨wc.counts.insert profileId (perCode.insert code entry)⟩)

/-- How often a profile was warned of one thing. -/
def countFor (wc : WarningCounter) (profileId : Uuid) (code : WarningCode) : ℕ :=
  ((wc.counts.lookup profileId).bind fun m => m.lookup code).getD 0

/-- How often a profile was warned: the counts of the profile added up. -/
def totalFor (wc : WarningCounter) (profileId : Uuid) : Checked Empty ℕ :=
  match wc.counts.lookup profileId with
  | some m => Checked.sum 64 (m.entries.map Sigma.snd)
  | none => .ok 0

/-- Drop the counts of a profile. -/
def reset (wc : WarningCounter) (profileId : Uuid) : WarningCounter :=
  ⟨wc.counts.erase profileId⟩

/-- Whether nothing is counted. -/
def isEmpty (wc : WarningCounter) : Bool := wc.counts.entries.all fun e => e.2.entries.isEmpty

/-- A call that changes the counter. -/
inductive Call where
  /-- A profile is warned. -/
  | record (profileId : Uuid) (code : WarningCode)
  /-- The counts of a profile are dropped. -/
  | reset (profileId : Uuid)
  deriving DecidableEq

/-- **One call.** A call that panics is no step. -/
def step (wc : WarningCounter) : Call → Option WarningCounter
  | .record profileId code =>
    match wc.record profileId code with
    | .ok (_, wc') => some wc'
    | .error _ => none
  | .reset profileId => some (wc.reset profileId)

/-- **The runs of the counter.** -/
abbrev Run : List (Transition.Step WarningCounter Call) → WarningCounter → Prop :=
  Transition.Run (Transition.ofFun step) new

variable {wc wc' : WarningCounter} {p p' : Uuid} {c c' : WarningCode} {n : ℕ}
  {tr : List (Transition.Step WarningCounter Call)}

/-! ### What the counter is read for -/

/-- The counts of a profile added up, were there no bound. -/
def weight (wc : WarningCounter) (p : Uuid) : ℕ :=
  ((wc.counts.lookup p).map (HashMap.total id)).getD 0

theorem totalFor_eq (wc : WarningCounter) (p : Uuid) :
    wc.totalFor p = if wc.weight p < 2 ^ 64 then .ok (wc.weight p) else .error .panicked := by
  rw [totalFor, weight]
  cases wc.counts.lookup p with
  | none => rfl
  | some m => exact Checked.sum_eq 64 _

theorem record_eq (wc : WarningCounter) (p : Uuid) (c : WarningCode) :
    wc.record p c =
      if wc.countFor p c + 1 < 2 ^ 64 then
        .ok (wc.countFor p c + 1, ⟨wc.counts.insert p
          (((wc.counts.lookup p).getD ∅).insert c (wc.countFor p c + 1))⟩)
      else .error .panicked := by
  have hcount : (((wc.counts.lookup p).getD ∅).lookup c).getD 0 = wc.countFor p c := by
    rw [countFor]
    cases wc.counts.lookup p with
    | none => rfl
    | some m => rfl
  rw [record, hcount, Checked.add]
  split
  · rfl
  · rfl

/-- What is left of a record that does not panic. -/
theorem of_record_eq_ok (h : wc.record p c = .ok (n, wc')) :
    n = wc.countFor p c + 1 ∧ wc' = ⟨wc.counts.insert p
      (((wc.counts.lookup p).getD ∅).insert c (wc.countFor p c + 1))⟩ := by
  rw [record_eq] at h
  split at h
  · obtain ⟨rfl, rfl⟩ := Prod.mk.inj (Except.ok.inj h)
    exact ⟨rfl, rfl⟩
  · cases h

theorem countFor_of_record (h : wc.record p c = .ok (n, wc')) (p' : Uuid) (c' : WarningCode) :
    wc'.countFor p' c' = wc.countFor p' c' + if (p', c') = (p, c) then 1 else 0 := by
  obtain ⟨-, rfl⟩ := of_record_eq_ok h
  rw [countFor, HashMap.lookup_insert_eq]
  by_cases hp : p' = p
  · rw [if_pos hp, Option.bind_some, HashMap.lookup_insert_eq, hp]
    by_cases hc : c' = c
    · rw [if_pos hc, if_pos (by rw [hc]), hc]
      rfl
    · rw [if_neg hc, if_neg (by simp [hc]), countFor, add_zero]
      cases wc.counts.lookup p with
      | none => rfl
      | some m => rfl
  · rw [if_neg hp, if_neg (by simp [hp]), add_zero, countFor]

theorem weight_of_record (h : wc.record p c = .ok (n, wc')) (p' : Uuid) :
    wc'.weight p' = wc.weight p' + if p' = p then 1 else 0 := by
  obtain ⟨-, rfl⟩ := of_record_eq_ok h
  rw [weight, HashMap.lookup_insert_eq]
  by_cases hp : p' = p
  · rw [if_pos hp, if_pos hp, hp, weight, Option.map_some, Option.getD_some, countFor]
    -- the map of the profile gains an entry, or one entry of it is raised by one
    cases wc.counts.lookup p with
    | none => rfl
    | some m =>
      have hinsert := HashMap.total_insert (f := id) m c ((m.lookup c).getD 0 + 1)
      rw [Option.map_id_fun, id_eq, id_eq] at hinsert
      simp only [Option.getD_some, Option.bind_some, Option.map_some]
      omega
  · rw [if_neg hp, if_neg hp, add_zero, weight]

theorem countFor_reset (wc : WarningCounter) (p p' : Uuid) (c : WarningCode) :
    (wc.reset p).countFor p' c = if p' = p then 0 else wc.countFor p' c := by
  rw [countFor, reset, HashMap.lookup_erase_eq]
  split
  · rfl
  · rfl

theorem weight_reset (wc : WarningCounter) (p p' : Uuid) :
    (wc.reset p).weight p' = if p' = p then 0 else wc.weight p' := by
  rw [weight, reset, HashMap.lookup_erase_eq]
  split
  · rfl
  · rfl

/-- What is counted after a record is what the record put in, or was counted before. -/
theorem positive_of_record (h : wc.record p c = .ok (n, wc'))
    (hpos : ∀ p m c n, wc.counts.lookup p = some m → m.lookup c = some n → 0 < n)
    {m : HashMap WarningCode ℕ} {k : ℕ} (hm : wc'.counts.lookup p' = some m)
    (hk : m.lookup c' = some k) : 0 < k := by
  obtain ⟨-, rfl⟩ := of_record_eq_ok h
  rcases HashMap.lookup_insert_cases hm with ⟨rfl, rfl⟩ | ⟨-, hm⟩
  · rcases HashMap.lookup_insert_cases hk with ⟨-, rfl⟩ | ⟨-, hk⟩
    · exact Nat.succ_pos _
    · cases hlook : wc.counts.lookup p' with
      | none =>
        rw [hlook] at hk
        cases hk
      | some m =>
        rw [hlook] at hk
        exact hpos p' m c' k hlook hk
  · exact hpos p' m c' k hm hk

/-! ### The log it stands for -/

/-- The warnings a log holds after a call: a record adds one, a reset drops those of a
profile. -/
def note (log : List (Uuid × WarningCode)) : Call → List (Uuid × WarningCode)
  | .record profileId code => log ++ [(profileId, code)]
  | .reset profileId => log.filter fun e => e.1 ≠ profileId

/-- **The log**: the warnings recorded since their profile was last reset. -/
def logOf (calls : List Call) : List (Uuid × WarningCode) := calls.foldl note []

theorem logOf_snoc (calls : List Call) (call : Call) :
    logOf (calls ++ [call]) = note (logOf calls) call := by
  rw [logOf, List.foldl_append, List.foldl_cons, List.foldl_nil, logOf]

/-- The warnings of a profile in a log. -/
def ofProfile (log : List (Uuid × WarningCode)) (p : Uuid) : ℕ := log.countP fun e => e.1 = p

/-- **A counter stands for a log.** -/
structure Stands (log : List (Uuid × WarningCode)) (wc : WarningCounter) : Prop where
  /-- Each kind of warning is counted as often as it stands in the log. -/
  countFor : ∀ p c, wc.countFor p c = log.count (p, c)
  /-- The counts of a profile come to the warnings of the profile. -/
  weight : ∀ p, wc.weight p = ofProfile log p
  /-- What was never recorded has no entry. -/
  positive : ∀ p m c n, wc.counts.lookup p = some m → m.lookup c = some n → 0 < n

variable {log : List (Uuid × WarningCode)}

theorem stands_new : Stands [] new where
  countFor _ _ := rfl
  weight _ := rfl
  positive _ _ _ _ h := by cases h

theorem Stands.record (hs : Stands log wc) (h : wc.record p c = .ok (n, wc')) :
    Stands (note log (.record p c)) wc' where
  countFor p' c' := by
    rw [countFor_of_record h, hs.countFor, note, List.count_append, List.count_singleton]
    simp only [beq_iff_eq, eq_comm (a := (p, c))]
  weight p' := by
    rw [weight_of_record h, hs.weight, note, ofProfile, ofProfile, List.countP_append,
      List.countP_singleton]
    simp only [decide_eq_true_eq, eq_comm (a := p)]
  positive _ _ _ _ hm hk := positive_of_record h hs.positive hm hk

theorem Stands.reset (hs : Stands log wc) (p : Uuid) :
    Stands (note log (.reset p)) (wc.reset p) where
  countFor p' c := by
    rw [countFor_reset, note]
    split
    · rename_i hp
      rw [eq_comm, List.count_eq_zero]
      simp [hp]
    · rename_i hp
      rw [hs.countFor, List.count_filter (by simpa using hp)]
  weight p' := by
    rw [weight_reset, note, ofProfile, List.countP_filter]
    split
    · rename_i hp
      rw [eq_comm, List.countP_eq_zero]
      simp [hp]
    · rename_i hp
      rw [hs.weight, ofProfile]
      refine List.countP_congr fun e _ => ?_
      simp only [decide_eq_true_eq, Bool.and_eq_true]
      exact ⟨fun h => ⟨h, by rwa [h]⟩, And.left⟩
  positive p' m c n hm hk :=
    hs.positive p' m c n (HashMap.lookup_erase_eq_some_iff.mp hm).2 hk

/-- In every run the counter stands for the log. -/
theorem stands_of_run (h : Run tr wc) : Stands (logOf (tr.map Transition.Step.input)) wc := by
  refine h.invariant (I := fun tr => Stands (logOf (tr.map Transition.Step.input))) stands_new
    fun tr wc call wc' _ hs hstep => ?_
  rw [List.map_append, List.map_singleton, logOf_snoc]
  cases call with
  | record p c =>
    rw [Transition.ofFun, step] at hstep
    split at hstep
    · rename_i hrecord
      obtain rfl := Option.some.inj hstep
      exact hs.record hrecord
    · cases hstep
  | reset p =>
    obtain rfl := Option.some.inj hstep
    exact hs.reset p

/-- Nothing is counted exactly if the log is empty. -/
theorem Stands.isEmpty_iff (hs : Stands log wc) : wc.isEmpty = true ↔ log = [] := by
  rw [isEmpty, List.all_eq_true]
  constructor
  · intro h
    rw [List.eq_nil_iff_forall_not_mem]
    rintro ⟨p, c⟩ hmem
    -- the warning was counted, and its profile has an entry that is not empty
    have hcount : 0 < wc.countFor p c := by
      rw [hs.countFor]
      exact List.count_pos_iff.mpr hmem
    rw [WarningCounter.countFor] at hcount
    cases hm : wc.counts.lookup p with
    | none => simp [hm] at hcount
    | some m =>
      have hempty : m.entries = [] := by
        simpa using h ⟨p, m⟩ (AList.mem_lookup_iff.mp hm)
      have hm' : m = ∅ := AList.ext hempty
      simp [hm, hm'] at hcount
  · rintro rfl ⟨p, m⟩ hmem
    have hm : wc.counts.lookup p = some m := AList.mem_lookup_iff.mpr hmem
    rw [List.isEmpty_iff, List.eq_nil_iff_forall_not_mem]
    rintro ⟨c, n⟩ hc
    have hk : m.lookup c = some n := AList.mem_lookup_iff.mpr hc
    have hcount := hs.countFor p c
    rw [WarningCounter.countFor, hm, Option.bind_some, hk] at hcount
    exact absurd hcount (hs.positive p m c n hm hk).ne'

/-- **The counter answers as the log would**, in every run of records and resets. It counts each
kind of warning and knows whether there is any; the badge is the number of the warnings of a
profile, and stops the process exactly if there are `2 ^ 64` of them; and a record returns the
new count, and stops the process exactly if that is `2 ^ 64`. -/
theorem answers_as_log (h : Run tr wc) :
    (∀ p c, wc.countFor p c = (logOf (tr.map Transition.Step.input)).count (p, c)) ∧
    (wc.isEmpty = true ↔ logOf (tr.map Transition.Step.input) = []) ∧
    (∀ p, wc.totalFor p =
      if ofProfile (logOf (tr.map Transition.Step.input)) p < 2 ^ 64 then
        .ok (ofProfile (logOf (tr.map Transition.Step.input)) p)
      else .error .panicked) ∧
    ∀ p c, (wc.record p c).map Prod.fst =
      if (logOf (tr.map Transition.Step.input)).count (p, c) + 1 < 2 ^ 64 then
        .ok ((logOf (tr.map Transition.Step.input)).count (p, c) + 1)
      else .error .panicked := by
  have hs := stands_of_run h
  refine ⟨hs.countFor, hs.isEmpty_iff, fun p => ?_, fun p c => ?_⟩
  · rw [totalFor_eq, hs.weight]
  · rw [record_eq, hs.countFor]
    split
    · rfl
    · rfl

/-- Two warnings of one profile and one of another, and the first profile is reset. -/
theorem answers_as_log_reset : ∃ tr wc, Run tr wc ∧
    tr.map Transition.Step.input =
      [.record (Uuid.splat 1) .strictDevToolsBlocked, .record (Uuid.splat 2) .mixedModeShareAttempt,
        .record (Uuid.splat 1) .strictExtensionBlocked, .reset (Uuid.splat 1)] ∧
    wc.countFor (Uuid.splat 1) .strictDevToolsBlocked = 0 ∧
    wc.countFor (Uuid.splat 2) .mixedModeShareAttempt = 1 := by
  have hexec : (Transition.exec step new
      [.record (Uuid.splat 1) .strictDevToolsBlocked, .record (Uuid.splat 2) .mixedModeShareAttempt,
        .record (Uuid.splat 1) .strictExtensionBlocked, .reset (Uuid.splat 1)]).isSome = true := by
    decide +kernel
  obtain ⟨tr, wc, hrun, hinputs⟩ := Transition.exists_run hexec
  have hcount := (answers_as_log hrun).1
  refine ⟨tr, wc, hrun, hinputs, ?_, ?_⟩
  · rw [hcount, hinputs]
    decide +kernel
  · rw [hcount, hinputs]
    decide +kernel

end WarningCounter

end Identity

end DevBrowse
