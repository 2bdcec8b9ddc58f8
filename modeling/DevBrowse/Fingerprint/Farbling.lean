import DevBrowse.Storage.PartitionKey

/-!
# The streams of noise

What a page reads back of a canvas, of its audio, of the numbers of WebGL, or of the sizes of
boxes and texts is disturbed a little, by bytes that are derived from the seed of the
partition. Each of these surfaces has a stream of its own. The streams of a second kind start
anew with every session, from an epoch.

The prefix of a stream can be hashed once and for all (`FarblingStreamKey`); a stream for boxes
and one for texts are derived a second time where they are used.
-/

namespace DevBrowse

namespace Fingerprint

open Network.PartitionKey (toLeBytes)

open Storage (FarblingSeed)

/-- The label of the streams. -/
def farbleDerivationDomain : Text := "PB-FARBLE-V1".toList

/-- The label of the streams with an epoch. -/
def farbleDerivationDomainV2 : Text := "PB-FARBLE-V2".toList

/-- What a session starts its streams from. -/
abbrev FarblingEpoch := Vector UInt8 16

/-- What is read back. -/
inductive FarblingSurface where
  /-- A canvas. -/
  | canvas
  /-- The numbers of WebGL. -/
  | webGlNumeric
  /-- Audio. -/
  | audio
  /-- The sizes of boxes. -/
  | domRect
  /-- The sizes of texts. -/
  | textMetrics
  deriving DecidableEq

/-- The byte that stands for a surface. -/
def FarblingSurface.tag : FarblingSurface → UInt8
  | canvas => 0x01
  | webGlNumeric => 0x02
  | audio => 0x03
  | domRect => 0x04
  | textMetrics => 0x05

theorem FarblingSurface.tag_injective : Function.Injective FarblingSurface.tag := by
  intro a b h
  cases a <;> cases b <;> first | rfl | exact absurd h (by decide)

variable (sha256 : List UInt8 → Vector UInt8 32)

/-- What is hashed for a byte of a stream. -/
def streamPreimage (seed : FarblingSeed) (surface : FarblingSurface) (index : UInt64) :
    List UInt8 :=
  farbleDerivationDomain.utf8Bytes ++ seed.toList ++ [surface.tag] ++ toLeBytes index

/-- A byte of a stream. -/
def streamByte (seed : FarblingSeed) (surface : FarblingSurface) (index : UInt64) : UInt8 :=
  (sha256 (streamPreimage seed surface index))[0]

/-- What is hashed for a byte of a stream with an epoch. -/
def streamPreimageV2 (epoch : FarblingEpoch) (seed : FarblingSeed) (surface : FarblingSurface)
    (index : UInt64) : List UInt8 :=
  farbleDerivationDomainV2.utf8Bytes ++ epoch.toList ++ seed.toList ++ [surface.tag] ++
    toLeBytes index

/-- A byte of a stream with an epoch. -/
def streamByteV2 (epoch : FarblingEpoch) (seed : FarblingSeed) (surface : FarblingSurface)
    (index : UInt64) : UInt8 :=
  (sha256 (streamPreimageV2 epoch seed surface index))[0]

/-- A stream whose prefix has been taken in by the hash. -/
structure FarblingStreamKey where
  /-- The bytes taken in so far. -/
  taken : List UInt8

namespace FarblingStreamKey

/-- The prefix of a stream. -/
def new (seed : FarblingSeed) (surface : FarblingSurface) : FarblingStreamKey :=
  ⟨farbleDerivationDomain.utf8Bytes ++ seed.toList ++ [surface.tag]⟩

/-- The prefix of a stream with an epoch. -/
def newV2 (epoch : FarblingEpoch) (seed : FarblingSeed) (surface : FarblingSurface) :
    FarblingStreamKey :=
  ⟨farbleDerivationDomainV2.utf8Bytes ++ epoch.toList ++ seed.toList ++ [surface.tag]⟩

/-- A byte of the stream. -/
def byteAt (key : FarblingStreamKey) (index : UInt64) : UInt8 :=
  (sha256 (key.taken ++ toLeBytes index))[0]

/-- **Hashing the prefix first makes no difference.** -/
theorem byteAt_new (seed : FarblingSeed) (surface : FarblingSurface) (index : UInt64) :
    (new seed surface).byteAt sha256 index = streamByte sha256 seed surface index := rfl

theorem byteAt_newV2 (epoch : FarblingEpoch) (seed : FarblingSeed) (surface : FarblingSurface)
    (index : UInt64) :
    (newV2 epoch seed surface).byteAt sha256 index =
      streamByteV2 sha256 epoch seed surface index := rfl

end FarblingStreamKey

/-! ### The streams that are derived where they are used -/

/-- What is hashed for a byte of the stream for boxes. -/
def domRectPreimage (seed : FarblingSeed) (index : UInt64) : List UInt8 :=
  Text.utf8Bytes "PB-FARBLE-V1".toList ++ seed.toList ++ [FarblingSurface.domRect.tag] ++
    toLeBytes index

/-- A byte of the stream for boxes. -/
def domRectStreamByte (seed : FarblingSeed) (index : UInt64) : UInt8 :=
  (sha256 (domRectPreimage seed index))[0]

/-- What is hashed for a byte of the stream for texts. -/
def textMetricPreimage (seed : FarblingSeed) (index : UInt64) : List UInt8 :=
  Text.utf8Bytes "PB-FARBLE-V1".toList ++ seed.toList ++ [FarblingSurface.textMetrics.tag] ++
    toLeBytes index

/-- A byte of the stream for texts. -/
def textMetricStreamByte (seed : FarblingSeed) (index : UInt64) : UInt8 :=
  (sha256 (textMetricPreimage seed index))[0]

end Fingerprint

end DevBrowse
