import DevBrowse.Fingerprint.Farbling
import DevBrowse.Lib.Words

/-!
# The offsets

A byte of the stream becomes an offset by its remainder: of the numbers up to twice an amplitude,
less the amplitude. A number of WebGL is moved by that offset as it is, and amplitudes for which
the span would overflow are not used at all. A byte of a canvas is moved by the offset as a
signed byte, though there are amplitudes for which that is not the same number
(`DevBrowse.Fingerprint.canvas_exact_iff`).
-/

namespace DevBrowse

namespace Fingerprint

open Storage (FarblingSeed)

/-- The offset of a byte of a canvas. -/
def canvasOffset (b : UInt8) (amplitude : UInt8) : Checked Empty ℤ := do
  let double ← Word.unsigned 16 (2 * amplitude.toNat)
  let span ← Word.unsigned 16 (double + 1)
  let bucket ← Word.rem b.toNat span
  let offset ← Word.signed 16 (Word.asSigned 16 bucket - Word.asSigned 16 amplitude.toNat)
  return Word.asSigned 8 offset

/-- The offset of a number of WebGL. -/
def webglOffset (b : UInt8) (amplitude : Int32) : Checked Empty ℤ := do
  let double ← Word.signed 32 (2 * amplitude.toInt)
  let span ← Word.signed 32 (double + 1)
  let bucket ← Word.rem b.toNat (Word.asUnsigned 32 span)
  Word.signed 32 (Word.asSigned 32 bucket - amplitude.toInt)

/-- Whether a number of WebGL is moved at all with an amplitude. -/
def webglMoves (amplitude : Int32) : Bool :=
  !(amplitude.toInt ≤ 0 || amplitude.toInt ≥ (2 ^ 31 - 1) / 2)

variable (sha256 : List UInt8 → Vector UInt8 32)

/-- What a byte of a canvas is moved by. -/
def farbleCanvasByte (seed : FarblingSeed) (byteIndex : UInt64) (amplitude : UInt8) :
    Checked Empty ℤ :=
  if amplitude = 0 then .ok 0
  else canvasOffset (streamByte sha256 seed .canvas byteIndex) amplitude

/-- What a number of WebGL is moved by. -/
def farbleWebglInt (seed : FarblingSeed) (paramIndex : UInt64) (amplitude : Int32) :
    Checked Empty ℤ :=
  if !webglMoves amplitude then .ok 0
  else webglOffset (streamByte sha256 seed .webGlNumeric paramIndex) amplitude

/-- What a byte of a canvas is moved by in a session. -/
def farbleCanvasByteWithEpoch (epoch : FarblingEpoch) (seed : FarblingSeed)
    (byteIndex : UInt64) (amplitude : UInt8) : Checked Empty ℤ :=
  if amplitude = 0 then .ok 0
  else canvasOffset (streamByteV2 sha256 epoch seed .canvas byteIndex) amplitude

/-- What a number of WebGL is moved by in a session. -/
def farbleWebglIntWithEpoch (epoch : FarblingEpoch) (seed : FarblingSeed)
    (paramIndex : UInt64) (amplitude : Int32) : Checked Empty ℤ :=
  if !webglMoves amplitude then .ok 0
  else webglOffset (streamByteV2 sha256 epoch seed .webGlNumeric paramIndex) amplitude

/-! ### Exact offsets -/

/-- How many of the bytes are mapped to an offset. -/
def hits (f : UInt8 → Checked Empty ℤ) (v : ℤ) : ℕ :=
  (256 : ℕ).count fun n => f (UInt8.ofNat n) = .ok v

/-- **The offsets of an amplitude are exact**: every byte has the offset it should have, which the
amplitude bounds, and no offset is that of more than one byte more than another. -/
structure Exact (amplitude : ℤ) (f : UInt8 → Checked Empty ℤ) : Prop where
  /-- The offset is the remainder less the amplitude. -/
  value : ∀ b : UInt8, f b = .ok (b.toNat % (2 * amplitude + 1) - amplitude)
  /-- The amplitude bounds it. -/
  bounded : ∀ b v, f b = .ok v → -amplitude ≤ v ∧ v ≤ amplitude
  /-- The offsets are hit equally often, up to one. -/
  balanced : ∀ v w, -amplitude ≤ v → v ≤ amplitude → -amplitude ≤ w → w ≤ amplitude →
    hits f v ≤ hits f w + 1

variable {f : UInt8 → Checked Empty ℤ} {b : UInt8} {amplitude : ℕ}

theorem hits_eq (hvalue : ∀ b : UInt8, f b = .ok (b.toNat % (2 * amplitude + 1) - amplitude))
    {v : ℤ} (hlow : -(amplitude : ℤ) ≤ v) :
    hits f v = (256 : ℕ).count fun n => n % (2 * amplitude + 1) = (v + amplitude).toNat := by
  have hiff : ∀ n < 256, f (UInt8.ofNat n) = .ok v ↔
      n % (2 * amplitude + 1) = (v + amplitude).toNat := by
    intro n hn
    have hcast : (n : ℤ) % (2 * amplitude + 1) = (n % (2 * amplitude + 1) : ℕ) := by
      push_cast
      rfl
    rw [hvalue, UInt8.toNat_ofNat_of_lt' hn, Except.ok.injEq, hcast]
    omega
  exact Nat.le_antisymm (Nat.count_mono_left fun n hn => (hiff n hn).mp)
    (Nat.count_mono_left fun n hn => (hiff n hn).mpr)

/-- **Where every byte has the offset it should have, the offsets are exact.** -/
theorem exact_of_value
    (hvalue : ∀ b : UInt8, f b = .ok (b.toNat % (2 * amplitude + 1) - amplitude)) :
    Exact amplitude f := by
  refine ⟨hvalue, fun b v hv => ?_, fun v w hv hv' hw hw' => ?_⟩
  · rw [hvalue, Except.ok.injEq] at hv
    have hlow : 0 ≤ (b.toNat : ℤ) % (2 * amplitude + 1) := Int.emod_nonneg _ (by omega)
    have hhigh : (b.toNat : ℤ) % (2 * amplitude + 1) < 2 * amplitude + 1 :=
      Int.emod_lt_of_pos _ (by omega)
    omega
  · rw [hits_eq hvalue hv, hits_eq hvalue hw]
    exact Word.count_mod_le 256 (by omega) (by omega)

/-! ### What is computed -/

/-- Only the last conversion can change the offset of a byte of a canvas. -/
theorem canvasOffset_eq (b amplitude : UInt8) : canvasOffset b amplitude =
    .ok (Word.asSigned 8 (b.toNat % (2 * amplitude.toNat + 1) - amplitude.toNat)) := by
  have hb := b.toNat_lt
  have hamplitude := amplitude.toNat_lt
  have hlow : 0 ≤ (b.toNat : ℤ) % (2 * amplitude.toNat + 1) := Int.emod_nonneg _ (by omega)
  have hhigh : (b.toNat : ℤ) % (2 * amplitude.toNat + 1) ≤ b.toNat :=
    Word.emod_le (by omega) (by omega)
  have hbucket : Word.asSigned 16 ((b.toNat : ℤ) % (2 * amplitude.toNat + 1)) =
      b.toNat % (2 * amplitude.toNat + 1) :=
    (Word.asSigned_eq_self_iff (by decide)).mpr ⟨by omega, by omega⟩
  have hword : Word.asSigned 16 (amplitude.toNat : ℤ) = amplitude.toNat :=
    (Word.asSigned_eq_self_iff (by decide)).mpr ⟨by omega, by omega⟩
  rw [canvasOffset, Word.unsigned_eq_ok (by omega) (by omega), Checked.ok_bind,
    Word.unsigned_eq_ok (by omega) (by omega), Checked.ok_bind, Word.rem_eq_ok (by omega),
    Checked.ok_bind, hbucket, hword, Word.signed_eq_ok (by omega) (by omega)]
  rfl

/-- **A byte of a canvas has the offset it should have** exactly if that is a signed byte. -/
theorem canvasOffset_eq_iff (b amplitude : UInt8) :
    canvasOffset b amplitude =
        .ok (b.toNat % (2 * amplitude.toNat + 1) - amplitude.toNat) ↔
      amplitude.toNat ≤ b.toNat + 128 := by
  have hb := b.toNat_lt
  have hlow : 0 ≤ (b.toNat : ℤ) % (2 * amplitude.toNat + 1) := Int.emod_nonneg _ (by omega)
  have hhigh : (b.toNat : ℤ) % (2 * amplitude.toNat + 1) < 2 * amplitude.toNat + 1 :=
    Int.emod_lt_of_pos _ (by omega)
  have hle : (b.toNat : ℤ) % (2 * amplitude.toNat + 1) ≤ b.toNat :=
    Word.emod_le (by omega) (by omega)
  rw [canvasOffset_eq, Except.ok.injEq, Word.asSigned_eq_self_iff (by decide)]
  constructor
  · rintro ⟨hfits, -⟩
    omega
  · intro hfits
    by_cases hsmall : amplitude.toNat ≤ 128
    · exact ⟨by omega, by omega⟩
    · -- the span is so long that every byte is its own remainder
      have hself : (b.toNat : ℤ) % (2 * amplitude.toNat + 1) = b.toNat :=
        Int.emod_eq_of_lt (by omega) (by omega)
      exact ⟨by omega, by omega⟩

/-- A number of WebGL has the offset it should have. -/
theorem webglOffset_eq {amplitude : Int32} (h : webglMoves amplitude = true) (b : UInt8) :
    webglOffset b amplitude =
      .ok (b.toNat % (2 * amplitude.toInt + 1) - amplitude.toInt) := by
  have hb := b.toNat_lt
  simp only [webglMoves, Bool.not_eq_true', Bool.or_eq_false_iff, decide_eq_false_iff_not] at h
  obtain ⟨hpos, hmax⟩ := h
  have hlow : 0 ≤ (b.toNat : ℤ) % (2 * amplitude.toInt + 1) := Int.emod_nonneg _ (by omega)
  have hhigh : (b.toNat : ℤ) % (2 * amplitude.toInt + 1) ≤ b.toNat :=
    Word.emod_le (by omega) (by omega)
  have hspan : Word.asUnsigned 32 (2 * amplitude.toInt + 1) = 2 * amplitude.toInt + 1 :=
    Word.asUnsigned_eq_self (by omega) (by omega)
  have hbucket : Word.asSigned 32 ((b.toNat : ℤ) % (2 * amplitude.toInt + 1)) =
      b.toNat % (2 * amplitude.toInt + 1) :=
    (Word.asSigned_eq_self_iff (by decide)).mpr ⟨by omega, by omega⟩
  rw [webglOffset, Word.signed_eq_ok (by omega) (by omega), Checked.ok_bind,
    Word.signed_eq_ok (by omega) (by omega), Checked.ok_bind, hspan,
    Word.rem_eq_ok (by omega), Checked.ok_bind, hbucket,
    Word.signed_eq_ok (by omega) (by omega)]

/-- **The offsets of a canvas are exact** exactly for the amplitudes up to 128. -/
theorem canvas_exact_iff (amplitude : UInt8) :
    Exact amplitude.toNat (fun b => canvasOffset b amplitude) ↔ amplitude ≤ 128 := by
  rw [UInt8.le_iff_toNat_le]
  constructor
  · intro h
    -- the byte 0 has the offset furthest from 0
    exact (canvasOffset_eq_iff 0 amplitude).mp (h.value 0)
  · intro h
    refine exact_of_value fun b => (canvasOffset_eq_iff b amplitude).mpr ?_
    exact (show amplitude.toNat ≤ 128 from h).trans (Nat.le_add_left _ _)

theorem webgl_exact {amplitude : Int32} (h : webglMoves amplitude = true) :
    Exact amplitude.toInt (fun b => webglOffset b amplitude) := by
  have hpos : 0 ≤ amplitude.toInt := by
    simp only [webglMoves, Bool.not_eq_true', Bool.or_eq_false_iff, decide_eq_false_iff_not] at h
    omega
  obtain ⟨n, hn⟩ := Int.eq_ofNat_of_zero_le hpos
  rw [hn]
  refine exact_of_value fun b => ?_
  rw [webglOffset_eq h, hn]

/-! ### The functions -/

/-- **A canvas and the numbers of WebGL are farbled exactly** with two amplitudes, in a session
and for good: the amplitudes that are guarded against move nothing, and with all others the
byte of the stream is moved by its exact offset. -/
structure FarblesExactly (canvas : UInt8) (webgl : Int32) : Prop where
  /-- The amplitude 0 moves nothing on a canvas. -/
  canvas_zero : canvas = 0 → ∀ epoch seed index,
    farbleCanvasByte sha256 seed index canvas = .ok 0 ∧
      farbleCanvasByteWithEpoch sha256 epoch seed index canvas = .ok 0
  /-- The others move it by the offset of the byte of the stream. -/
  canvas_byte : canvas ≠ 0 → ∀ epoch seed index,
    farbleCanvasByte sha256 seed index canvas =
        canvasOffset (streamByte sha256 seed .canvas index) canvas ∧
      farbleCanvasByteWithEpoch sha256 epoch seed index canvas =
        canvasOffset (streamByteV2 sha256 epoch seed .canvas index) canvas
  /-- These offsets are exact. -/
  canvas_exact : Exact canvas.toNat (fun b => canvasOffset b canvas)
  /-- The amplitudes guarded against move nothing in WebGL. -/
  webgl_zero : webglMoves webgl = false → ∀ epoch seed index,
    farbleWebglInt sha256 seed index webgl = .ok 0 ∧
      farbleWebglIntWithEpoch sha256 epoch seed index webgl = .ok 0
  /-- The others move it by the offset of the byte of the stream. -/
  webgl_byte : webglMoves webgl = true → ∀ epoch seed index,
    farbleWebglInt sha256 seed index webgl =
        webglOffset (streamByte sha256 seed .webGlNumeric index) webgl ∧
      farbleWebglIntWithEpoch sha256 epoch seed index webgl =
        webglOffset (streamByteV2 sha256 epoch seed .webGlNumeric index) webgl
  /-- These offsets are exact. -/
  webgl_exact : webglMoves webgl = true → Exact webgl.toInt (fun b => webglOffset b webgl)

/-- **Farbling is exact exactly if the amplitude of the canvas is at most 128**, whatever the
amplitude of WebGL is. -/
theorem farblesExactly_iff (canvas : UInt8) (webgl : Int32) :
    FarblesExactly sha256 canvas webgl ↔ canvas ≤ 128 := by
  rw [← canvas_exact_iff]
  refine ⟨fun h => h.canvas_exact, fun hexact => ⟨?_, ?_, hexact, ?_, ?_, webgl_exact⟩⟩
  · rintro rfl epoch seed index
    exact ⟨if_pos rfl, if_pos rfl⟩
  · intro hne epoch seed index
    exact ⟨if_neg hne, if_neg hne⟩
  · intro h epoch seed index
    rw [farbleWebglInt, farbleWebglIntWithEpoch, h]
    exact ⟨rfl, rfl⟩
  · intro h epoch seed index
    rw [farbleWebglInt, farbleWebglIntWithEpoch, h]
    exact ⟨rfl, rfl⟩

/-- What the hash is of the third byte of the stream of a canvas for the seed of zeros. -/
def zeroSeedDigest : Vector UInt8 32 :=
  #v[41, 60, 186, 178, 213, 63, 159, 188, 79, 106, 51, 38, 237, 122, 126, 59, 89, 204, 76, 246,
    58, 224, 63, 110, 178, 19, 106, 43, 35, 81, 82, 222]

/-- With the largest amplitude that byte, which is 41, moves the canvas by 42, not by -214. -/
theorem farbleCanvasByte_wraps :
    farbleCanvasByte (fun _ => zeroSeedDigest) (Vector.replicate 16 0) 2 255 = .ok 42 ∧
      (streamByte (fun _ => zeroSeedDigest) (Vector.replicate 16 0) .canvas 2).toNat = 41 ∧
      ((41 : ℤ) % (2 * 255 + 1) - 255 = -214) ∧
      ¬ FarblesExactly (fun _ => zeroSeedDigest) 255 1 := by
  refine ⟨by decide, by decide, by decide, ?_⟩
  intro h
  exact absurd (h.canvas_exact.value 41) (by decide)

end Fingerprint

end DevBrowse
