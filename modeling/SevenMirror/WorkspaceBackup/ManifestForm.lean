import SevenMirror.Lib.Base64
import SevenMirror.WorkspaceBackup.Manifest

/-! The manifests of a backup have one textual form.  The base 64 decoder skips line ends and does not
look at the bits that fill the last digit; the decoders of the fields compare with what the encoder
writes. -/

namespace SevenMirror.WorkspaceBackup

open Lib

/-! ### Lines -/

theorem splitOn_joinLines {lines : List Bytes} (h : ∀ line ∈ lines, newline ∉ line) :
    splitOn newline (joinLines lines) = lines ++ [[]] := by
  induction lines with
  | nil => rfl
  | cons line lines ih =>
    rw [List.forall_mem_cons] at h
    have hjoin : joinLines (line :: lines) = line ++ newline :: joinLines lines := by
      simp [joinLines]
    rw [hjoin, splitOn_append h.1, ih h.2, List.cons_append]

theorem fieldValue_field (name : String) (value : Bytes) :
    fieldValue name (field name value) = some value := by
  have hfield : field name value = field name [] ++ value := by simp [field]
  have hstart : (field name []).isPrefixOf (field name value) = true :=
    List.isPrefixOf_iff_prefix.mpr ⟨value, hfield.symm⟩
  rw [fieldValue, if_pos hstart, hfield, List.drop_left]

/-- The names of the fields have no line end. -/
theorem newline_not_mem_field {name : String} {value : Bytes} (hname : newline ∉ field name [])
    (hvalue : newline ∉ value) : newline ∉ field name value := by
  have hfield : field name value = field name [] ++ value := by simp [field]
  rw [hfield, List.mem_append]
  exact fun h => h.elim hname hvalue

/-! ### Values in base 64 -/

def carriageReturn : UInt8 := 0x0d

def padding : UInt8 := 0x3d

theorem not_mem_base64URLAlphabet : newline ∉ base64URLAlphabet ∧
    carriageReturn ∉ base64URLAlphabet ∧ padding ∉ base64URLAlphabet := by
  decide +kernel

theorem newline_not_mem_base64 (b : Bytes) : newline ∉ encodeBase64URL b := fun h =>
  absurd (mem_encodeBase64URL h) not_mem_base64URLAlphabet.1

/-- A value is accepted if it is what the encoder writes. -/
theorem decodeExact_eq_some {size : Nat} {value : Bytes} {block : Block size} :
    decodeExact size value = some block ↔ value = encodeBase64URL block.bytes := by
  simp only [decodeExact, Option.bind_eq_bind, Option.bind_eq_some_iff]
  constructor
  · rintro ⟨decoded, -, checked, hchecked, hsame⟩
    split at hsame
    · rename_i hcanonical
      cases hsame
      rw [Block.check_eq_some.mp hchecked, hcanonical]
    · cases hsame
  · rintro rfl
    exact ⟨block.bytes, decodeBase64URL_encodeBase64URL _, block, Block.check_eq_some.mpr rfl,
      if_pos rfl⟩

theorem decodeExact_eq_none {size : Nat} {value : Bytes} :
    ¬ decodeExact size value = none ↔ ∃ block : Block size, value = encodeBase64URL block.bytes := by
  rw [← ne_eq, Option.ne_none_iff_exists']
  exact exists_congr fun block => decodeExact_eq_some

theorem encodeBase64URL_ne_nil {size : Nat} (hsize : 0 < size) (block : Block size) :
    encodeBase64URL block.bytes ≠ [] := by
  intro hnil
  have hdecoded := decodeBase64URL_encodeBase64URL block.bytes
  rw [hnil] at hdecoded
  have hempty : block.bytes = [] := by
    have hread : decodeBase64URL [] = some [] := decodeBase64URL_encodeBase64URL []
    exact Option.some.inj (hdecoded.symm.trans hread)
  have hblock := block.size
  rw [hempty, List.length_nil] at hblock
  omega

/-- What the encoder never writes into a value: carriage returns, padding, and bits after the last
byte. -/
def Malformed (value : Bytes) : Prop :=
  carriageReturn ∈ value ∨ padding ∈ value ∨ true ∈ trailingBits base64URLAlphabet value

theorem not_malformed (b : Bytes) : ¬ Malformed (encodeBase64URL b) := by
  rintro (hreturn | hpadding | hbits)
  · exact absurd (mem_encodeBase64URL hreturn) not_mem_base64URLAlphabet.2.1
  · exact absurd (mem_encodeBase64URL hpadding) not_mem_base64URLAlphabet.2.2
  · exact not_mem_trailingBits alphabets_spell.1.1 b hbits

-- the decoder alone reads both spellings as the same byte
example : decodeBase64URL (text "QR") = decodeBase64URL (text "QQ") ∧ Malformed (text "QR") :=
  ⟨by decide +kernel, Or.inr (Or.inr (by decide +kernel))⟩

/-! ### Manifests -/

/-- A manifest that is written: the key identifier is 32 bytes in base 64. -/
def Manifest.Valid (m : Manifest) : Prop :=
  ∃ id : Block 32, m.authorityKeyID = encodeBase64URL id.bytes

structure AuthorityBackupManifest.Valid (m : AuthorityBackupManifest) : Prop where
  keyID : ∃ id : Block 32, m.authorityKeyID = encodeBase64URL id.bytes
  file_ne_nil : m.privateKeyFile ≠ []
  file_line : newline ∉ m.privateKeyFile
  file_base : base m.privateKeyFile = m.privateKeyFile

/-- The lines that hold a value in base 64, with the names of the fields. -/
def manifestBase64 : List (Nat × String) :=
  [(1, "workspace_id"), (3, "registry_sha256"), (5, "authority_key_id")]

def authorityBackupBase64 : List (Nat × String) :=
  [(1, "workspace_id"), (2, "authority_public_key"), (3, "authority_key_id"),
    (5, "private_key_sha256")]

/-- An encoder and a decoder between which there is one text for each manifest. -/
structure OneText {M : Type} (valid : M → Prop) (encoder : M → Bytes)
    (decoder : Bytes → Except ManifestError M) (values : List (Nat × String)) : Prop where
  /-- What is written is read back. -/
  decodes : ∀ m, valid m → decoder (encoder m) = .ok m
  /-- What is read is written as it was. -/
  encodes : ∀ b m, decoder b = .ok m → encoder m = b
  /-- Different texts are not read as the same manifest. -/
  unique : ∀ b b' m, decoder b = .ok m → decoder b' = .ok m → b = b'
  /-- A text has six lines, each with its end. -/
  lines : ∀ b, (splitOn newline b).length ≠ 7 → ∃ e, decoder b = .error e
  /-- The values in base 64 are spelled as the encoder spells them. -/
  spelled : ∀ b i name value, (i, name) ∈ values →
    (splitOn newline b)[i]? = some (field name value) → Malformed value →
    ∃ e, decoder b = .error e

theorem decodeValue_field {name : String} {size : Nat} {block : Block size} :
    decodeValue (field name (encodeBase64URL block.bytes)) name size = .ok block := by
  simp [decodeValue, fieldValue_field, decodeExact_eq_some]

/-- The lines of a manifest that is written. -/
def Manifest.lines (m : Manifest) : List Bytes :=
  [manifestMagic, field "workspace_id" (encodeBase64URL m.workspaceID.bytes),
    field "registry_file" registryName,
    field "registry_sha256" (encodeBase64URL m.registrySHA256.bytes),
    field "authority_directory" authorityDirectory, field "authority_key_id" m.authorityKeyID, []]

theorem Manifest.Valid.splitOn {m : Manifest} (h : m.Valid) :
    splitOn newline (encodeManifest m) = m.lines := by
  obtain ⟨id, hid⟩ := h
  refine splitOn_joinLines ?_
  simp only [List.forall_mem_cons, hid]
  exact ⟨by decide +kernel, newline_not_mem_field (by decide +kernel) (newline_not_mem_base64 _),
    by decide +kernel, newline_not_mem_field (by decide +kernel) (newline_not_mem_base64 _),
    by decide +kernel, newline_not_mem_field (by decide +kernel) (newline_not_mem_base64 _),
    by simp⟩

theorem decodeManifest_iff {b : Bytes} {m : Manifest} :
    decodeManifest b = .ok m ↔ m.Valid ∧ encodeManifest m = b := by
  constructor
  · intro h
    unfold decodeManifest at h
    split at h
    · simp only [bind_eq_ok, exists_unit, reject_eq_ok, require_eq_ok, pure_eq_ok, ne_eq,
        Decidable.not_not] at h
      obtain ⟨-, _, -, _, -, id, -, hid, hsame, rfl⟩ := h
      exact ⟨decodeExact_eq_none.mp hid, hsame.symm⟩
    · cases h
  · rintro ⟨hvalid, rfl⟩
    have hkey := decodeExact_eq_none.mpr hvalid
    rw [decodeManifest, hvalid.splitOn, Manifest.lines]
    simp only [bind_eq_ok, exists_unit, reject_eq_ok, require_eq_ok, pure_eq_ok]
    exact ⟨by simp, m.workspaceID, decodeValue_field, m.registrySHA256, decodeValue_field,
      m.authorityKeyID, fieldValue_field _ _, hkey, by simp, rfl⟩

/-! ### Manifests of the authority key -/

theorem manifestTextValue_ok {line value : Bytes} {name : String} :
    manifestTextValue line name = .ok value ↔ fieldValue name line = some value ∧ value ≠ [] := by
  simp only [manifestTextValue, bind_eq_ok, exists_unit, require_eq_ok, reject_eq_ok, pure_eq_ok]
  constructor
  · rintro ⟨_, hvalue, hne, rfl⟩
    exact ⟨hvalue, hne⟩
  · rintro ⟨hvalue, hne⟩
    exact ⟨value, hvalue, hne, rfl⟩

theorem decodeManifestValue_field {name : String} {size : Nat} (hsize : 0 < size)
    {block : Block size} :
    decodeManifestValue (field name (encodeBase64URL block.bytes)) name size = .ok block := by
  simp only [decodeManifestValue, bind_eq_ok, manifestTextValue_ok, require_eq_ok,
    decodeExact_eq_some]
  exact ⟨_, ⟨fieldValue_field _ _, encodeBase64URL_ne_nil hsize block⟩, rfl⟩

/-- What follows the name of a field is on the line. -/
theorem mem_of_fieldValue {name : String} {line value : Bytes} {c : UInt8}
    (h : fieldValue name line = some value) (hc : c ∈ value) : c ∈ line := by
  unfold fieldValue at h
  split at h
  · cases h
    exact List.mem_of_mem_drop hc
  · cases h

def AuthorityBackupManifest.lines (m : AuthorityBackupManifest) : List Bytes :=
  [authorityBackupMagic, field "workspace_id" (encodeBase64URL m.workspaceID.bytes),
    field "authority_public_key" (encodeBase64URL m.authorityPublicKey.bytes),
    field "authority_key_id" m.authorityKeyID, field "private_key_file" m.privateKeyFile,
    field "private_key_sha256" (encodeBase64URL m.privateKeySHA256.bytes), []]

theorem AuthorityBackupManifest.Valid.splitOn {m : AuthorityBackupManifest} (h : m.Valid) :
    splitOn newline (encodeAuthorityBackupManifest m) = m.lines := by
  obtain ⟨id, hid⟩ := h.keyID
  refine splitOn_joinLines ?_
  simp only [List.forall_mem_cons, hid]
  exact ⟨by decide +kernel, newline_not_mem_field (by decide +kernel) (newline_not_mem_base64 _),
    newline_not_mem_field (by decide +kernel) (newline_not_mem_base64 _),
    newline_not_mem_field (by decide +kernel) (newline_not_mem_base64 _),
    newline_not_mem_field (by decide +kernel) h.file_line,
    newline_not_mem_field (by decide +kernel) (newline_not_mem_base64 _), by simp⟩

theorem decodeAuthorityBackupManifest_iff {b : Bytes} {m : AuthorityBackupManifest} :
    decodeAuthorityBackupManifest b = .ok m ↔
      m.Valid ∧ encodeAuthorityBackupManifest m = b := by
  constructor
  · intro h
    unfold decodeAuthorityBackupManifest at h
    split at h
    · rename_i line0 line1 line2 line3 line4 line5 line6 hsplit
      simp only [bind_eq_ok, exists_unit, reject_eq_ok, manifestTextValue_ok, pure_eq_ok, ne_eq,
        Decidable.not_not] at h
      obtain ⟨-, _, -, _, -, _, -, hid, file, ⟨hfile, hne⟩, hbase, _, -, hsame, rfl⟩ := h
      -- the name is part of a line, and a line has no line end
      have hmem : line4 ∈ splitOn newline b := by simp [hsplit]
      have hline := not_mem_of_mem_splitOn hmem
      exact ⟨⟨decodeExact_eq_none.mp hid, hne, fun hmem => hline (mem_of_fieldValue hfile hmem),
        hbase⟩, hsame.symm⟩
    · cases h
  · rintro ⟨hvalid, rfl⟩
    obtain ⟨id, hid⟩ := hvalid.keyID
    have hkey := decodeExact_eq_none.mpr hvalid.keyID
    have hkey_ne : m.authorityKeyID ≠ [] := hid ▸ encodeBase64URL_ne_nil (by decide) id
    rw [decodeAuthorityBackupManifest, hvalid.splitOn, AuthorityBackupManifest.lines]
    simp only [bind_eq_ok, exists_unit, reject_eq_ok, manifestTextValue_ok, pure_eq_ok]
    exact ⟨by simp, m.workspaceID, decodeManifestValue_field (by decide), m.authorityPublicKey,
      decodeManifestValue_field (by decide), m.authorityKeyID, ⟨fieldValue_field _ _, hkey_ne⟩, hkey,
      m.privateKeyFile, ⟨fieldValue_field _ _, hvalid.file_ne_nil⟩, by simp [hvalid.file_base],
      m.privateKeySHA256, decodeManifestValue_field (by decide), by simp, rfl⟩

/-! ### One form -/

/-- A decoder that accepts what the encoder writes of valid manifests, in lines of which those named
hold values in base 64. -/
theorem oneText {M : Type} {valid : M → Prop} {encoder : M → Bytes}
    {decoder : Bytes → Except ManifestError M} {values : List (Nat × String)} {lines : M → List Bytes}
    (hiff : ∀ b m, decoder b = .ok m ↔ valid m ∧ encoder m = b)
    (hsplit : ∀ m, valid m → splitOn newline (encoder m) = lines m)
    (hlength : ∀ m, (lines m).length = 7)
    (hvalues : ∀ m, valid m → ∀ i name, (i, name) ∈ values →
      ∃ b, (lines m)[i]? = some (field name (encodeBase64URL b))) :
    OneText valid encoder decoder values := by
  have hrejects (b : Bytes) (h : ∀ m, valid m → encoder m ≠ b) : ∃ e, decoder b = .error e := by
    cases hdecoded : decoder b with
    | error e => exact ⟨e, rfl⟩
    | ok m =>
      obtain ⟨hvalid, hencoded⟩ := (hiff b m).mp hdecoded
      exact absurd hencoded (h m hvalid)
  refine ⟨fun m hvalid => (hiff _ m).mpr ⟨hvalid, rfl⟩, fun b m h => ((hiff b m).mp h).2,
    fun b b' m h h' => ?_, fun b hcount => hrejects b fun m hvalid hencoded => hcount ?_,
    fun b i name value hvalue hline hmalformed => hrejects b fun m hvalid hencoded => ?_⟩
  · rw [← ((hiff b m).mp h).2, ← ((hiff b' m).mp h').2]
  · rw [← hencoded, hsplit m hvalid, hlength]
  · obtain ⟨text, htext⟩ := hvalues m hvalid i name hvalue
    rw [← hencoded, hsplit m hvalid, htext] at hline
    have hsame := congrArg (fieldValue name) (Option.some.inj hline)
    rw [fieldValue_field, fieldValue_field] at hsame
    rw [← Option.some.inj hsame] at hmalformed
    exact not_malformed text hmalformed

/-- Both manifests have one textual form. -/
theorem manifests_have_one_text :
    OneText Manifest.Valid encodeManifest decodeManifest manifestBase64 ∧
    OneText AuthorityBackupManifest.Valid encodeAuthorityBackupManifest
      decodeAuthorityBackupManifest authorityBackupBase64 := by
  constructor
  · refine oneText (fun _ _ => decodeManifest_iff) (fun _ h => h.splitOn) (fun _ => rfl) ?_
    rintro m ⟨id, hid⟩ i name hvalue
    simp only [manifestBase64, List.mem_cons, Prod.mk.injEq, List.not_mem_nil, or_false] at hvalue
    rcases hvalue with ⟨rfl, rfl⟩ | ⟨rfl, rfl⟩ | ⟨rfl, rfl⟩
    · exact ⟨_, rfl⟩
    · exact ⟨_, rfl⟩
    · exact ⟨id.bytes, by rw [← hid]; rfl⟩
  · refine oneText (fun _ _ => decodeAuthorityBackupManifest_iff) (fun _ h => h.splitOn)
      (fun _ => rfl) ?_
    intro m hvalid i name hvalue
    obtain ⟨id, hid⟩ := hvalid.keyID
    simp only [authorityBackupBase64, List.mem_cons, Prod.mk.injEq, List.not_mem_nil, or_false]
      at hvalue
    rcases hvalue with ⟨rfl, rfl⟩ | ⟨rfl, rfl⟩ | ⟨rfl, rfl⟩ | ⟨rfl, rfl⟩
    · exact ⟨_, rfl⟩
    · exact ⟨_, rfl⟩
    · exact ⟨id.bytes, by rw [← hid]; rfl⟩
    · exact ⟨_, rfl⟩

end SevenMirror.WorkspaceBackup
