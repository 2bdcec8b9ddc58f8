import DevBrowse.Basic
import DevBrowse.Lib.StepClock
import DevBrowse.Lib.Words

/-!
# The clocks a page can read

A page reads a clock in steps of a quantum, and each step may be moved on by an amount that only
depends on the step and a seed. The amount is a hash; all that matters about it is that it
is less than the quantum, also where the sum stops at the largest word
(`DevBrowse.Fingerprint.TimerProfile.stepClock_jitter`).
-/

namespace DevBrowse

namespace Fingerprint

/-- The quanta of the clocks, in nanoseconds. -/
structure TimerProfile where
  /-- The quantum of the clocks of a page. -/
  jsQuantumNs : UInt64
  /-- The quantum of the clock of the GPU. -/
  gpuQuantumNs : UInt64

/-- The quanta of a Standard profile. -/
def standardTimerProfile : TimerProfile := ⟨1000000, 2000000⟩

/-- The quanta of a Strict profile. -/
def strictTimerProfile : TimerProfile := ⟨100000000, 2000000⟩

namespace TimerProfile

variable {ε : Type}

/-- A time in steps of a quantum, rounded down. -/
def quantize (quantum nowNs : UInt64) : Checked ε UInt64 := do
  let bucket ← Word.div64 nowNs quantum
  Word.mul64 bucket quantum

/-- A time for a page, rounded down. -/
def quantizeJsNs (profile : TimerProfile) (nowNs : UInt64) : Checked ε UInt64 :=
  quantize profile.jsQuantumNs nowNs

/-- A time of the GPU, rounded down. -/
def quantizeGpuNs (profile : TimerProfile) (nowNs : UInt64) : Checked ε UInt64 :=
  quantize profile.gpuQuantumNs nowNs

/-- The hash of a bucket under a seed. Sums and products wrap around. -/
def jitterHash (seed bucket : UInt64) : UInt64 :=
  let z := (seed + bucket) * 0x9E3779B97F4A7C15
  let z := (z ^^^ (z >>> 30)) * 0xBF58476D1CE4E5B9
  let z := (z ^^^ (z >>> 27)) * 0x94D049BB133111EB
  z ^^^ (z >>> 31)

/-- **A time for a page, rounded down and moved on** by less than a quantum. The seed 0 moves
nothing. -/
def quantizeJsNsWithJitter (profile : TimerProfile) (nowNs seed : UInt64) :
    Checked ε UInt64 := do
  let bucket ← Word.div64 nowNs profile.jsQuantumNs
  let quantized ← Word.mul64 bucket profile.jsQuantumNs
  if seed = 0 then return quantized
  let jitter ← Word.rem64 (jitterHash seed bucket) profile.jsQuantumNs
  return saturatingAdd quantized jitter

variable {profile : TimerProfile} {q t t' seed : UInt64}

/-! ### What is shown -/

/-- The time that is shown, where the quantum is not zero. -/
def jittered (q seed t : UInt64) : UInt64 :=
  if seed = 0 then t / q * q
  else saturatingAdd (t / q * q) (jitterHash seed (t / q) % q)

theorem toNat_floor (q t : UInt64) : (t / q * q).toNat = t.toNat / q.toNat * q.toNat := by
  rw [UInt64.toNat_mul, UInt64.toNat_div]
  exact Nat.mod_eq_of_lt ((Nat.div_mul_le_self _ _).trans_lt t.toNat_lt)

/-- The start of a bucket does not overflow. -/
theorem mul64_bucket (q t : UInt64) :
    (Word.mul64 (t / q) q : Checked ε UInt64) = .ok (t / q * q) := by
  refine Word.mul64_eq_ok ?_
  rw [UInt64.toNat_div]
  exact (Nat.div_mul_le_self _ _).trans_lt t.toNat_lt

theorem quantize_eq (hq : q ≠ 0) (t : UInt64) :
    (quantize q t : Checked ε UInt64) = .ok (t / q * q) := by
  rw [quantize, Word.div64_eq_ok hq, Checked.ok_bind, mul64_bucket]

/-- **Nothing overflows, and nothing is divided by zero.** -/
theorem quantizeJsNsWithJitter_eq (hq : profile.jsQuantumNs ≠ 0) (t seed : UInt64) :
    (profile.quantizeJsNsWithJitter t seed : Checked ε UInt64) =
      .ok (jittered profile.jsQuantumNs seed t) := by
  rw [quantizeJsNsWithJitter, Word.div64_eq_ok hq, Checked.ok_bind, mul64_bucket,
    Checked.ok_bind, jittered]
  split
  · rfl
  · rw [Word.rem64_eq_ok hq]
    rfl

/-- **A page reads a clock that goes in steps**, whatever is hashed. -/
theorem stepClock_jitter (hq : q ≠ 0) (seed : UInt64) :
    StepClock UInt64.toNat q.toNat (jittered q seed) := by
  have hpos : 0 < q.toNat := by
    rw [Nat.pos_iff_ne_zero]
    exact fun h => hq (UInt64.toNat_inj.mp h)
  refine ⟨fun {t t'} hsame => ?_, fun t => ?_, fun t => ?_⟩
  · have hbucket : t / q = t' / q := by
      rw [← UInt64.toNat_inj, UInt64.toNat_div, UInt64.toNat_div, hsame]
    rw [jittered, jittered, hbucket]
  · rw [jittered]
    split
    · exact (toNat_floor q t).ge
    · rw [toNat_saturatingAdd, toNat_floor]
      have hbound := t.toNat_lt
      have hfloor := Nat.div_mul_le_self t.toNat q.toNat
      omega
  · rw [jittered]
    split
    · rw [toNat_floor]
      omega
    · have hjitter : (jitterHash seed (t / q) % q).toNat < q.toNat := by
        rw [UInt64.toNat_mod]
        exact Nat.mod_lt _ hpos
      rw [toNat_saturatingAdd, toNat_floor]
      omega

/-- **The jittered clock keeps the contract of a clock.** With a quantum that is not zero it
always shows a time: the rounded one with the seed 0, and one of the bucket otherwise. Two
times of a bucket are shown alike, a later bucket as a later time, up to the end of the range,
and what was shown is shown again as it is. -/
theorem quantizeJsNsWithJitter_spec (hq : 1 ≤ profile.jsQuantumNs) (seed : UInt64)
    (htt' : t ≤ t') :
    ∃ floor r r' : UInt64, (profile.quantizeJsNs t : Checked ε UInt64) = .ok floor ∧
      (profile.quantizeJsNsWithJitter t seed : Checked ε UInt64) = .ok r ∧
      (profile.quantizeJsNsWithJitter t' seed : Checked ε UInt64) = .ok r' ∧
      floor.toNat = t.toNat / profile.jsQuantumNs.toNat * profile.jsQuantumNs.toNat ∧
      (seed = 0 → r = floor) ∧
      (floor ≤ r ∧ r.toNat < floor.toNat + profile.jsQuantumNs.toNat) ∧
      (t / profile.jsQuantumNs = t' / profile.jsQuantumNs → r = r') ∧
      (t / profile.jsQuantumNs ≠ t' / profile.jsQuantumNs → r < r') ∧
      r ≤ r' ∧
      (profile.quantizeJsNsWithJitter r seed : Checked ε UInt64) = .ok r := by
  obtain ⟨q, gpuQuantum⟩ := profile
  dsimp only at hq ⊢
  have hne : q ≠ 0 := by
    rintro rfl
    exact absurd hq (by decide)
  have hclock := stepClock_jitter hne seed
  have hbucket : (t / q = t' / q) ↔ t.toNat / q.toNat = t'.toNat / q.toNat := by
    rw [← UInt64.toNat_inj, UInt64.toNat_div, UInt64.toNat_div]
  refine ⟨t / q * q, jittered q seed t, jittered q seed t', quantize_eq hne t,
    quantizeJsNsWithJitter_eq hne t seed, quantizeJsNsWithJitter_eq hne t' seed,
    toNat_floor q t, ?_, ⟨?_, ?_⟩, ?_, ?_, ?_, ?_⟩
  · rintro rfl
    exact if_pos rfl
  · rw [UInt64.le_iff_toNat_le, toNat_floor]
    exact hclock.le t
  · rw [toNat_floor]
    exact hclock.lt t
  · intro hsame
    exact hclock.same (hbucket.mp hsame)
  · intro hdiff
    have hle : t.toNat / q.toNat ≤ t'.toNat / q.toNat :=
      Nat.div_le_div_right (UInt64.le_iff_toNat_le.mp htt')
    exact UInt64.lt_iff_toNat_lt.mpr
      (hclock.lt_of_bucket_lt (lt_of_le_of_ne hle fun heq => hdiff (hbucket.mpr heq)))
  · exact UInt64.le_iff_toNat_le.mpr (hclock.mono (UInt64.le_iff_toNat_le.mp htt'))
  · rw [quantizeJsNsWithJitter_eq hne, hclock.read_read]

/-- The last two times of the range, in the steps of a Strict profile. -/
theorem quantizeJsNsWithJitter_strict :
    ∃ floor r r' : UInt64,
      (strictTimerProfile.quantizeJsNs 18446744073709551614 : Checked Empty UInt64) = .ok floor ∧
      (strictTimerProfile.quantizeJsNsWithJitter 18446744073709551614 7 : Checked Empty UInt64) =
        .ok r ∧
      (strictTimerProfile.quantizeJsNsWithJitter 18446744073709551615 7 : Checked Empty UInt64) =
        .ok r' ∧
      floor.toNat = (18446744073709551614 : UInt64).toNat /
        strictTimerProfile.jsQuantumNs.toNat * strictTimerProfile.jsQuantumNs.toNat ∧
      ((7 : UInt64) = 0 → r = floor) ∧
      (floor ≤ r ∧ r.toNat < floor.toNat + strictTimerProfile.jsQuantumNs.toNat) ∧
      ((18446744073709551614 : UInt64) / strictTimerProfile.jsQuantumNs =
        18446744073709551615 / strictTimerProfile.jsQuantumNs → r = r') ∧
      ((18446744073709551614 : UInt64) / strictTimerProfile.jsQuantumNs ≠
        18446744073709551615 / strictTimerProfile.jsQuantumNs → r < r') ∧
      r ≤ r' ∧
      (strictTimerProfile.quantizeJsNsWithJitter r 7 : Checked Empty UInt64) = .ok r :=
  quantizeJsNsWithJitter_spec (by decide) 7 (by decide)

end TimerProfile

end Fingerprint

end DevBrowse
