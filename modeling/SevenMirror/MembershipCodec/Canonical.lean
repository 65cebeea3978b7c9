import SevenMirror.MembershipCodec.Possession
import SevenMirror.MembershipCodec.Validity

/-! Membership messages have one encoding.  Comparing a text with the encoding of what was read from it
does not tell unknown records, which are written back as they were; the validators reject those, in
every message that a message holds. -/

namespace SevenMirror.MembershipCodec

open Lib Wire

section Canonical

variable {M : Type}

/-- A decoder and an encoder between which there is one text for each message. -/
structure OneForm (c : Codec M) (encoder : M → Except CodecError Bytes)
    (decoder : Bytes → Except CodecError M) : Prop where
  /-- An accepted message has no unknown record, at any depth. -/
  plain : ∀ b v, decoder b = .ok v → c.Plain v
  /-- It is encoded as it was. -/
  encodes : ∀ b v, decoder b = .ok v → encoder v = .ok b
  /-- No other text is decoded to it. -/
  unique : ∀ b b' v, decoder b = .ok v → decoder b' = .ok v → b' = b
  /-- What the encoder writes is decoded to what it was. -/
  decodes : ∀ v b, encoder v = .ok b → decoder b = .ok v
  /-- A text that has unknown records at some depth, or spells what it holds in any other way than the
  writer does, is rejected. -/
  rejects : ∀ b v, c.unmarshal b = some v → ¬ c.Plain v ∨ c.marshal v ≠ some b →
    ∃ e, decoder b = .error e

theorem unmarshal_of_decodeCanonical {c : Codec M} {value : M} {encoded : Bytes}
    (h : decodeCanonical c encoded = .ok value) : c.unmarshal encoded = some value := by
  simp only [decodeCanonical, bind_eq_ok, exists_unit, require_eq_ok, reject_eq_ok, pure_eq_ok] at h
  obtain ⟨-, v, hread, -, -, -, rfl⟩ := h
  exact hread

/-- A decoder and an encoder that accept the same messages, all of them plain. -/
theorem oneForm {c : Codec M} {valid : M → Except CodecError Unit}
    (hplain : ∀ v, valid v = .ok () → c.Plain v) :
    OneForm c (fun v => do valid v; encode c v)
      (fun b => do let v ← decodeCanonical c b; valid v; return v) := by
  refine ⟨fun b v h => ?_, fun b v h => (decode_iff_encode hplain).mp h, fun b b' v h h' => ?_,
    fun v b h => (decode_iff_encode hplain).mpr h, fun b v hread hother => ?_⟩
  · have hencode := (decode_iff_encode hplain).mp h
    simp only [bind_eq_ok, exists_unit] at hencode
    exact hplain v hencode.1
  · have hencode := (decode_iff_encode hplain).mp h
    have hencode' := (decode_iff_encode hplain).mp h'
    rw [hencode] at hencode'
    exact (Except.ok.inj hencode').symm
  · cases hdecoded : (do let v ← decodeCanonical c b; valid v; return v : Except CodecError M) with
    | error e => exact ⟨e, rfl⟩
    | ok accepted =>
      have hencode := (decode_iff_encode hplain).mp hdecoded
      simp only [bind_eq_ok, exists_unit, pure_eq_ok] at hdecoded hencode
      obtain ⟨w, hw, hvalid, rfl⟩ := hdecoded
      obtain rfl : w = v := by
        have hsame := (unmarshal_of_decodeCanonical hw).symm.trans hread
        exact Option.some.inj hsame
      rcases hother with hunknown | hspelled
      · exact absurd (hplain w hvalid) hunknown
      · exact absurd (encode_eq_ok.mp hencode.2).1 hspelled

end Canonical

/-- Each of the five kinds of membership messages has one form. -/
theorem membership_messages_canonical (crypto : Crypto) :
    OneForm challengeCodec encodeIdentityPossessionChallenge decodeIdentityPossessionChallenge ∧
    OneForm proofCodec encodePendingIdentityProof decodePendingIdentityProof ∧
    (∀ key, OneForm signedCertificateCodec (encodeSignedDeviceCertificate crypto · key)
      (decodeSignedDeviceCertificate crypto · key)) ∧
    (∀ key, OneForm signedRosterCodec (encodeSignedWorkspaceRoster crypto · key)
      (decodeSignedWorkspaceRoster crypto · key)) ∧
    OneForm signedAuthorityTransitionCodec (encodeSignedAuthorityKeyTransition crypto)
      (decodeSignedAuthorityKeyTransition crypto) :=
  ⟨oneForm fun _ => challenge_plain, oneForm fun _ => proof_plain,
    fun _ => oneForm fun _ => signedCertificate_plain, fun _ => oneForm fun _ => signedRoster_plain,
    oneForm fun _ => signedTransition_plain⟩

end SevenMirror.MembershipCodec
