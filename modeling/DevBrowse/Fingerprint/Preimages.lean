import DevBrowse.Fingerprint.Farbling

/-!
# What is hashed tells what it was made of

Four things are derived by hashing: the key of a partition, the seed of its noise, and the
bytes of the streams without and with an epoch. What is hashed begins with a label that is none
of the others, nor the beginning of one, and what follows is either of fixed length or behind
its own length. So no two derivations are ever made from the same bytes
(`DevBrowse.Fingerprint.Derivation.preimage_injective`), be it two of one kind or of two.
-/

namespace DevBrowse

namespace Fingerprint

open Network (PartitionKey)

open Network.PartitionKey (toLeBytes toLeBytes_injective)

open Storage (FarblingSeed)

variable {seed seed' : FarblingSeed} {epoch epoch' : FarblingEpoch}
  {surface surface' : FarblingSurface} {index index' : UInt64}

theorem streamPreimage_inj
    (h : streamPreimage seed surface index = streamPreimage seed' surface' index') :
    seed = seed' ∧ surface = surface' ∧ index = index' := by
  obtain ⟨h, hindex⟩ := List.append_inj' h rfl
  obtain ⟨h, htag⟩ := List.append_inj' h rfl
  obtain ⟨-, hseed⟩ := List.append_inj h rfl
  exact ⟨Vector.toList_inj.mp hseed, FarblingSurface.tag_injective (List.singleton_inj.mp htag),
    toLeBytes_injective hindex⟩

theorem streamPreimageV2_inj
    (h : streamPreimageV2 epoch seed surface index =
      streamPreimageV2 epoch' seed' surface' index') :
    epoch = epoch' ∧ seed = seed' ∧ surface = surface' ∧ index = index' := by
  obtain ⟨h, hindex⟩ := List.append_inj' h rfl
  obtain ⟨h, htag⟩ := List.append_inj' h rfl
  obtain ⟨h, hseed⟩ := List.append_inj' h (by simp)
  obtain ⟨-, hepoch⟩ := List.append_inj h rfl
  exact ⟨Vector.toList_inj.mp hepoch, Vector.toList_inj.mp hseed,
    FarblingSurface.tag_injective (List.singleton_inj.mp htag), toLeBytes_injective hindex⟩

/-- **What is derived by hashing**, with what it is derived from. -/
inductive Derivation where
  /-- The key of a partition. -/
  | partitionKey (siteOrigin : Text) (identityProfileId contextId : Uuid)
  /-- The seed of a partition. -/
  | farblingSeed (key : PartitionKey)
  /-- A byte of a stream. -/
  | stream (seed : FarblingSeed) (surface : FarblingSurface) (index : UInt64)
  /-- A byte of a stream with an epoch. -/
  | streamV2 (epoch : FarblingEpoch) (seed : FarblingSeed) (surface : FarblingSurface)
    (index : UInt64)

namespace Derivation

/-- What is hashed. -/
def preimage : Derivation → List UInt8
  | partitionKey siteOrigin profile context => Storage.keyPreimage siteOrigin profile context
  | farblingSeed key => Storage.seedPreimage key
  | stream seed surface index => streamPreimage seed surface index
  | streamV2 epoch seed surface index => streamPreimageV2 epoch seed surface index

/-- The label. -/
def label : Derivation → Text
  | partitionKey .. => Storage.partitionKeyDomain
  | farblingSeed _ => Storage.farblingSeedDomain
  | stream .. => farbleDerivationDomain
  | streamV2 .. => farbleDerivationDomainV2

/-- What is hashed begins with the label. -/
theorem label_prefix (d : Derivation) : d.label.utf8Bytes <+: d.preimage := by
  cases d with
  | partitionKey siteOrigin profile context =>
    refine ⟨toLeBytes (.ofNat siteOrigin.utf8Len) ++ siteOrigin.utf8Bytes ++
      profile.bytes.toList ++ context.bytes.toList, ?_⟩
    simp only [label, preimage, Storage.keyPreimage, List.append_assoc]
  | farblingSeed key => exact ⟨key.bytes.toList, rfl⟩
  | stream seed surface index =>
    refine ⟨seed.toList ++ [surface.tag] ++ toLeBytes index, ?_⟩
    simp only [label, preimage, streamPreimage, List.append_assoc]
  | streamV2 epoch seed surface index =>
    refine ⟨epoch.toList ++ seed.toList ++ [surface.tag] ++ toLeBytes index, ?_⟩
    simp only [label, preimage, streamPreimageV2, List.append_assoc]

/-- **No label begins with another**, so what is hashed tells the label. -/
theorem label_eq_of_preimage_eq {a b : Derivation} (h : a.preimage = b.preimage) :
    a.label = b.label := by
  have hprefix : a.label.utf8Bytes <+: b.label.utf8Bytes ∨
      b.label.utf8Bytes <+: a.label.utf8Bytes :=
    List.prefix_or_prefix_of_prefix (h ▸ a.label_prefix) b.label_prefix
  have hnone : ∀ s ∈ [Storage.partitionKeyDomain, Storage.farblingSeedDomain,
      farbleDerivationDomain, farbleDerivationDomainV2], ∀ t ∈ [Storage.partitionKeyDomain,
        Storage.farblingSeedDomain, farbleDerivationDomain, farbleDerivationDomainV2],
      s.utf8Bytes <+: t.utf8Bytes → s = t := by decide
  have hmem : ∀ d : Derivation, d.label ∈ [Storage.partitionKeyDomain,
      Storage.farblingSeedDomain, farbleDerivationDomain, farbleDerivationDomainV2] := by
    intro d
    cases d <;> simp [label]
  rcases hprefix with hab | hba
  · exact hnone _ (hmem a) _ (hmem b) hab
  · exact (hnone _ (hmem b) _ (hmem a) hba).symm

/-- **No two derivations are made from the same bytes.** -/
theorem preimage_injective : Function.Injective preimage := by
  intro a b h
  have hlabel := label_eq_of_preimage_eq h
  cases a <;> cases b
  case partitionKey.partitionKey =>
    obtain ⟨rfl, rfl, rfl⟩ := Storage.keyPreimage_inj h
    rfl
  case farblingSeed.farblingSeed =>
    obtain rfl := Storage.seedPreimage_inj h
    rfl
  case stream.stream =>
    obtain ⟨rfl, rfl, rfl⟩ := streamPreimage_inj h
    rfl
  case streamV2.streamV2 =>
    obtain ⟨rfl, rfl, rfl, rfl⟩ := streamPreimageV2_inj h
    rfl
  -- and the labels of two kinds differ
  all_goals
    rw [label, label] at hlabel
    exact absurd hlabel (by decide)

end Derivation

/-- **Preimages are injective and kept apart.** The storage and the network hash the same bytes
for a key; what is hashed tells which of the derivations it is for, and all that goes into it;
and the streams that are derived a second time, for boxes and for texts, are hashed as their
surfaces are, so they share nothing with each other, nor with the streams of other surfaces. -/
theorem preimages_separated :
    (∀ siteOrigin profile context, Storage.keyPreimage siteOrigin profile context =
      PartitionKey.encode siteOrigin profile context) ∧
    (∀ siteOrigin profile context siteOrigin' profile' context',
      PartitionKey.encode siteOrigin profile context =
        PartitionKey.encode siteOrigin' profile' context' →
      siteOrigin = siteOrigin' ∧ profile = profile' ∧ context = context') ∧
    Function.Injective Derivation.preimage ∧
    (∀ seed index, domRectPreimage seed index = (Derivation.stream seed .domRect index).preimage ∧
      textMetricPreimage seed index = (Derivation.stream seed .textMetrics index).preimage) ∧
    (∀ seed seed' surface index index',
      surface = .canvas ∨ surface = .audio ∨ surface = .webGlNumeric →
      domRectPreimage seed index ≠ streamPreimage seed' surface index' ∧
        textMetricPreimage seed index ≠ streamPreimage seed' surface index') ∧
    ∀ seed seed' index index', domRectPreimage seed index ≠ textMetricPreimage seed' index' := by
  refine ⟨Storage.keyPreimage_eq_encode, fun _ _ _ _ _ _ h => Storage.keyPreimage_inj h,
    Derivation.preimage_injective, fun _ _ => ⟨rfl, rfl⟩, ?_, ?_⟩
  · intro seed seed' surface index index' hsurface
    refine ⟨fun h => ?_, fun h => ?_⟩
    · obtain rfl : .domRect = surface := (streamPreimage_inj h).2.1
      simp at hsurface
    · obtain rfl : .textMetrics = surface := (streamPreimage_inj h).2.1
      simp at hsurface
  · intro seed seed' index index' h
    cases (streamPreimage_inj h).2.1

end Fingerprint

end DevBrowse
