import DevBrowse.Lib.Text
import DevBrowse.Testkit.Ja3Roundtrip

/-!
# The text of a client

Two clients belong to one cohort if the texts of what they advertise are the same: five lists of
decimals, with dashes in them and commas between them. Nothing is lost in the text
(`DevBrowse.Testkit.Ja3.toCanonicalString_injective`), so the texts read off two first messages
are the same exactly if the clients have the same version and advertise the same ciphers,
extensions, groups and point formats, in the same order and apart from the reserved values;
whatever else is in the messages does not show
(`DevBrowse.Testkit.Ja3.canonicalString_iff`).
-/

namespace DevBrowse

namespace Testkit

namespace Ja3

/-- Decimals with dashes between them. -/
def join (values : List ℕ) : Text := ['-'].intercalate (values.map (Nat.toDigits 10))

/-- **The text of what a client advertises.** -/
def toCanonicalString (ja3 : Ja3) : Text :=
  let joinU16 (v : List UInt16) : Text := join (v.map UInt16.toNat)
  let joinU8 (v : List UInt8) : Text := join (v.map UInt8.toNat)
  [','].intercalate [Nat.toDigits 10 ja3.legacyVersion.toNat, joinU16 ja3.cipherSuites,
    joinU16 ja3.extensions, joinU16 ja3.supportedGroups, joinU8 ja3.ecPointFormats]

theorem join_injective : Function.Injective join := by
  have hparts : ∀ (values : List ℕ), ∀ part ∈ values.map (Nat.toDigits 10),
      part ≠ [] ∧ '-' ∉ part := by
    intro values part hpart
    obtain ⟨n, -, rfl⟩ := List.mem_map.mp hpart
    exact ⟨(Text.denotes_toDigits n).ne_nil, (Text.denotes_toDigits n).notMem (by decide)⟩
  intro values values' h
  exact List.map_injective_iff.mpr Text.toDigits_injective
    (Text.intercalate_inj (hparts values) (hparts values') h)

/-- There is no comma in such a list. -/
theorem notMem_join (values : List ℕ) : ',' ∉ join values := by
  intro hmem
  rcases Text.mem_intercalate hmem with hdash | ⟨part, hpart, hin⟩
  · cases hdash
  · obtain ⟨n, -, rfl⟩ := List.mem_map.mp hpart
    exact (Text.denotes_toDigits n).notMem (by decide) hin

/-- **Nothing is lost in the text.** -/
theorem toCanonicalString_injective : Function.Injective toCanonicalString := by
  have hsplit : ∀ ja3 : Ja3, ja3.toCanonicalString.splitOn ',' =
      [Nat.toDigits 10 ja3.legacyVersion.toNat, join (ja3.cipherSuites.map UInt16.toNat),
        join (ja3.extensions.map UInt16.toNat), join (ja3.supportedGroups.map UInt16.toNat),
        join (ja3.ecPointFormats.map UInt8.toNat)] := by
    intro ja3
    refine List.splitOn_intercalate ',' ?_ (List.cons_ne_nil _ _)
    simp only [List.mem_cons, List.not_mem_nil, or_false, forall_eq_or_imp, forall_eq]
    exact ⟨(Text.denotes_toDigits _).notMem (by decide), notMem_join _, notMem_join _,
      notMem_join _, notMem_join _⟩
  have hu16 : Function.Injective (List.map UInt16.toNat) :=
    List.map_injective_iff.mpr fun _ _ => UInt16.toNat_inj.mp
  have hu8 : Function.Injective (List.map UInt8.toNat) :=
    List.map_injective_iff.mpr fun _ _ => UInt8.toNat_inj.mp
  intro ja3 ja3' h
  have hparts := (hsplit ja3).symm.trans ((congrArg (List.splitOn ',') h).trans (hsplit ja3'))
  simp only [List.cons.injEq, and_true] at hparts
  obtain ⟨hversion, hciphers, hexts, hgroups, hformats⟩ := hparts
  obtain ⟨version, ciphers, exts, groups, formats⟩ := ja3
  obtain ⟨version', ciphers', exts', groups', formats'⟩ := ja3'
  obtain rfl := UInt16.toNat_inj.mp (Text.toDigits_injective hversion)
  obtain rfl := hu16 (join_injective hciphers)
  obtain rfl := hu16 (join_injective hexts)
  obtain rfl := hu16 (join_injective hgroups)
  obtain rfl := hu8 (join_injective hformats)
  rfl

/-- **The clients offer the same**, apart from the reserved values. -/
structure SameOffer (ch ch' : ClientHello) : Prop where
  /-- The version. -/
  version : ch.legacyVersion = ch'.legacyVersion
  /-- The ciphers. -/
  cipherSuites : advertised ch.cipherSuites = advertised ch'.cipherSuites
  /-- The types of the extensions. -/
  extensions : advertised ((ch.extensions.getD []).map Extension.type) =
    advertised ((ch'.extensions.getD []).map Extension.type)
  /-- The groups. -/
  supportedGroups : advertised ((ch.extensions.getD []).flatMap Extension.groups) =
    advertised ((ch'.extensions.getD []).flatMap Extension.groups)
  /-- The point formats. -/
  ecPointFormats : (ch.extensions.getD []).flatMap Extension.formats =
    (ch'.extensions.getD []).flatMap Extension.formats

theorem ja3_eq_iff (ch ch' : ClientHello) : ch.ja3 = ch'.ja3 ↔ SameOffer ch ch' := by
  simp only [ClientHello.ja3, Ja3.mk.injEq]
  constructor
  · rintro ⟨hversion, hciphers, hexts, hgroups, hformats⟩
    exact ⟨hversion, hciphers, hexts, hgroups, hformats⟩
  · rintro ⟨hversion, hciphers, hexts, hgroups, hformats⟩
    exact ⟨hversion, hciphers, hexts, hgroups, hformats⟩

/-- **The text of a first message shows what is offered, and nothing else.** From the first
messages of two clients the same text is read exactly if the clients offer the same. -/
theorem canonicalString_iff (ch ch' : ClientHello) :
    ∃ ja3 ja3', fromClientHello ch.record = .ok ja3 ∧ fromClientHello ch'.record = .ok ja3' ∧
      (ja3.toCanonicalString = ja3'.toCanonicalString ↔ SameOffer ch ch') := by
  have hread : ∀ ch : ClientHello, fromClientHello ch.record = .ok ch.ja3 := by
    intro ch
    rw [fromClientHello, bodyOf_record, Checked.ok_bind, helloOf_handshake, Checked.ok_bind,
      readHello_hello]
  exact ⟨ch.ja3, ch'.ja3, hread ch, hread ch',
    toCanonicalString_injective.eq_iff.trans (ja3_eq_iff ch ch')⟩

/-- What the browser says another time: other random bytes, no session and other reserved
values. -/
def laterFields : HelloFields := { browserFields with
  random := Vector.replicate 32 0x2F
  sessionId := []
  cipherSuites := [0x3A3A, 0x1301, 0x1302, 0xC02B]
  extensions := some [
    serverName [0x00, 0x06, 0x00, 0x00, 0x03, 0x63, 0x2E, 0x64],
    .supportedGroups [0xFAFA, 0x001D, 0x0017],
    uncompressed,
    supportedVersions [0x02, 0x03, 0x04],
    .other 0x7A7A [0x00] (by decide)] }

/-- The first message of that time. -/
def laterHello : ClientHello where
  toHelloFields := laterFields
  sessionId_lt := by decide
  compressionMethods_lt := by decide
  handshake_lt := by decide +kernel

/-- What the browser says with the ciphers in another order. -/
def reorderedHello : ClientHello where
  toHelloFields := { browserFields with cipherSuites := [0x1302, 0x1301, 0xC02B] }
  sessionId_lt := by decide
  compressionMethods_lt := by decide
  handshake_lt := by decide +kernel

/-- The browser shows the same text another time, and another text with the ciphers in another
order. -/
theorem canonicalString_iff_browserHello :
    (∃ ja3 ja3', fromClientHello browserHello.record = .ok ja3 ∧
      fromClientHello laterHello.record = .ok ja3' ∧
      ja3.toCanonicalString = ja3'.toCanonicalString) ∧
    ∃ ja3 ja3', fromClientHello browserHello.record = .ok ja3 ∧
      fromClientHello reorderedHello.record = .ok ja3' ∧
      ja3.toCanonicalString ≠ ja3'.toCanonicalString := by
  constructor
  · obtain ⟨ja3, ja3', hread, hread', hiff⟩ := canonicalString_iff browserHello laterHello
    have hsame : SameOffer browserHello laterHello :=
      (ja3_eq_iff _ _).mp (by decide +kernel)
    exact ⟨ja3, ja3', hread, hread', hiff.mpr hsame⟩
  · obtain ⟨ja3, ja3', hread, hread', hiff⟩ := canonicalString_iff browserHello reorderedHello
    have hother : ¬ SameOffer browserHello reorderedHello :=
      fun h => absurd h.cipherSuites (by decide +kernel)
    exact ⟨ja3, ja3', hread, hread', fun h => hother (hiff.mp h)⟩

end Ja3

end Testkit

end DevBrowse
