import EntityCatalog.Snapshot.Codec

/-!
# What bytes and fingerprints owe to the codec

If the decoder undoes the encoder and digests are spelled without loss
(`Codec.Faithful`), bytes are read back as the snapshot they were made of.  The
fingerprints of two snapshots are then equal exactly if the snapshots are, or
if the digest takes the different bytes of the two to one value
(`Codec.Collides`, `fingerprint_eq_ok_iff`).
-/

namespace EntityCatalog.Snapshot

/-- The decoder undoes the encoder, and digests are spelled without loss. -/
structure Codec.Faithful (codec : Codec) : Prop where
  decodes : ∀ {snapshot bytes}, codec.encode snapshot = .ok bytes →
    codec.decode bytes = .ok snapshot
  spells : Function.Injective codec.hexadecimal

/-- Two snapshots have different bytes with one digest. -/
def Codec.Collides (codec : Codec) (left right : Snapshot) : Prop :=
  ∃ bytes others, codec.encode left = .ok bytes ∧
    codec.encode right = .ok others ∧ bytes ≠ others ∧
    codec.digest bytes = codec.digest others

variable {codec : Codec}

theorem Codec.not_collides_self (snapshot : Snapshot) :
    ¬codec.Collides snapshot snapshot := by
  rintro ⟨bytes, others, encoded, again, differ, -⟩
  rw [encoded] at again
  exact differ (Except.ok.inj again)

theorem toBytes_eq_ok_iff {snapshot : Snapshot} {bytes : ByteArray} :
    snapshot.toBytes codec = .ok bytes ↔ codec.encode snapshot = .ok bytes := by
  rw [toBytes]
  cases codec.encode snapshot with
  | ok other =>
      constructor <;> exact fun same => congrArg Except.ok (Except.ok.inj same)
  | error reason => exact iff_of_false nofun nofun

/-- Bytes are read back as the snapshot they were made of. -/
theorem ofBytes_of_toBytes (faithful : codec.Faithful) {snapshot : Snapshot}
    {bytes : ByteArray} (written : snapshot.toBytes codec = .ok bytes) :
    ofBytes codec bytes = .ok snapshot := by
  rw [ofBytes, faithful.decodes (toBytes_eq_ok_iff.mp written)]
  rfl

theorem toBytes_injective (faithful : codec.Faithful) {left right : Snapshot}
    {bytes : ByteArray} (written : left.toBytes codec = .ok bytes)
    (again : right.toBytes codec = .ok bytes) : left = right := by
  have read := ofBytes_of_toBytes faithful written
  rw [ofBytes_of_toBytes faithful again] at read
  exact (Except.ok.inj read).symm

/-- A fingerprint is given exactly if there are bytes to take it of. -/
theorem fingerprint_eq_ok_iff_exists {snapshot : Snapshot} {text : String} :
    snapshot.fingerprint codec = .ok text ↔
      ∃ bytes, snapshot.toBytes codec = .ok bytes ∧
        codec.hexadecimal (codec.digest bytes) = text := by
  rw [fingerprint]
  cases snapshot.toBytes codec with
  | ok bytes =>
      constructor
      · intro given
        exact ⟨bytes, rfl, Except.ok.inj given⟩
      · rintro ⟨-, ⟨⟩, rfl⟩
        rfl
  | error failure =>
      exact iff_of_false nofun fun ⟨_, absent, _⟩ => nomatch absent

/-- The fingerprint of a snapshot belongs to another one exactly if the two are
equal or the digest collides on them. -/
theorem fingerprint_eq_ok_iff (faithful : codec.Faithful)
    {left right : Snapshot} {text : String}
    (given : left.fingerprint codec = .ok text) :
    right.fingerprint codec = .ok text ↔
      left = right ∨ codec.Collides left right := by
  obtain ⟨bytes, written, rfl⟩ := fingerprint_eq_ok_iff_exists.mp given
  constructor
  · intro same
    obtain ⟨others, alsoWritten, spelled⟩ :=
      fingerprint_eq_ok_iff_exists.mp same
    by_cases equal : bytes = others
    · subst equal
      exact .inl (toBytes_injective faithful written alsoWritten)
    · exact .inr ⟨bytes, others, toBytes_eq_ok_iff.mp written,
        toBytes_eq_ok_iff.mp alsoWritten, equal, (faithful.spells spelled).symm⟩
  · rintro (rfl | ⟨first, second, encoded, alsoEncoded, -, digested⟩)
    · exact given
    · rw [toBytes_eq_ok_iff, encoded] at written
      cases written
      exact fingerprint_eq_ok_iff_exists.mpr
        ⟨second, toBytes_eq_ok_iff.mpr alsoEncoded, by rw [digested]⟩

end EntityCatalog.Snapshot
