import SevenMirror.Console.Restart

/-! A setup cannot lock the administrator out.  What `setupCredential` accepts, `SaveAdministrator`
stores, its table constraints included, and what `LoadAdministrator` returns is an account with the
submitted name, password, and secret. -/

namespace SevenMirror.Console

open Lib

/-! ### The registry's row -/

/-- `length` of a text in SQLite, which counts characters up to the first zero: a byte from 0x80 to
0xbf counts unless it continues a character. -/
def sqliteLength (continuing : Bool) : Bytes → Nat
  | [] => 0
  | c :: rest =>
    if c = UInt8.ofNat 0 then 0
    else if continuing ∧ continues c then sqliteLength true rest
    else 1 + sqliteLength (decide (0xc0 ≤ c)) rest

/-- The `CHECK` constraint of a column of `administrator_credentials`. -/
def WithinColumn (text : Bytes) (most : Nat) : Prop :=
  1 ≤ sqliteLength false text ∧ sqliteLength false text ≤ most

instance (text : Bytes) (most : Nat) : Decidable (WithinColumn text most) :=
  inferInstanceAs (Decidable (_ ∧ _))

/-- A row of `administrator_credentials`. -/
structure AdministratorRow where
  name : Bytes
  passwordHash : Bytes
  totpSecret : Bytes
  updatedAtMs : Int
deriving DecidableEq, Repr

inductive SaveError
  | invalid
  | constraint
deriving DecidableEq, Repr

def saveAdministrator (credential : AdministratorCredential) : Except SaveError AdministratorRow := do
  reject (validAdministratorCredential credential = false) .invalid
  reject (¬ (WithinColumn credential.name 64 ∧ WithinColumn credential.passwordHash 512 ∧
    WithinColumn credential.totpSecret 128)) .constraint
  return ⟨credential.name, credential.passwordHash, credential.totpSecret,
    credential.updatedAt.unixMilli⟩

def loadAdministrator (row : AdministratorRow) : AdministratorCredential :=
  ⟨row.name, row.passwordHash, row.totpSecret, .ofUnixMilli row.updatedAtMs⟩

theorem sqliteLength_le (continuing : Bool) (text : Bytes) :
    sqliteLength continuing text ≤ text.length := by
  induction text generalizing continuing with
  | nil => exact Nat.le_refl 0
  | cons c rest ih =>
    rw [sqliteLength, List.length_cons]
    split
    · exact Nat.zero_le _
    · split
      · exact Nat.le_succ_of_le (ih true)
      · rw [Nat.add_comm]
        exact Nat.succ_le_succ (ih _)

/-- A text that begins with a character is within a column that has room for its bytes. -/
theorem withinColumn_of_length {c : UInt8} {rest : Bytes} {most : Nat} (hc : c ≠ UInt8.ofNat 0)
    (h : (c :: rest).length ≤ most) : WithinColumn (c :: rest) most := by
  refine ⟨?_, Nat.le_trans (sqliteLength_le false _) h⟩
  rw [sqliteLength, if_neg hc, if_neg (fun h => Bool.noConfusion h.1)]
  exact Nat.le_add_right 1 _

/-! ### Setups -/

/-- The setup that `setupCredential` makes of a form, if it accepts the form. -/
def prepareSetup (prim : Primitives) (form : SetupForm) (salt secret : Bytes) (secondFactor : Nat)
    (now : Time) : Option PendingSetup :=
  if ¬ validAccountName (trimSpace form.username) ∨ form.passwordConfirm ≠ form.password ∨
      ¬ validNewPassword prim form.password then none
  else
    (hashPassword prim form.password salt).map fun encoded =>
      ⟨trimSpace form.username, encoded, secret, secondFactor, later now setupPendingLifetime⟩

/-- The handler remembers that setup. -/
theorem next_setupCredential (prim : Primitives) (input : Input) (h : Handler) (digest : Digest)
    (current : Session) (form : SetupForm) :
    h.next prim input (.authorized digest current (.setupCredential form)) =
      match prepareSetup prim form input.salt input.secret h.made input.now with
      | none => some (h, .finished)
      | some pending => some (h.storePending digest pending, .finished) := by
  rw [Handler.next, prepareSetup]
  split
  · rfl
  · cases hashPassword prim form.password input.salt <;> rfl

/-- What is known of a setup that was prepared. -/
theorem prepareSetup_some {prim : Primitives} {form : SetupForm} {salt secret : Bytes}
    {secondFactor : Nat} {now : Time} {p : PendingSetup}
    (h : prepareSetup prim form salt secret secondFactor now = some p) :
    validAccountName (trimSpace form.username) = true ∧ p.name = trimSpace form.username ∧
      hashPassword prim form.password salt = some p.passwordHash ∧ p.secret = secret := by
  unfold prepareSetup at h
  split at h
  · cases h
  · rename_i hvalid
    simp only [not_or, not_not] at hvalid
    obtain ⟨encoded, hencoded, rfl⟩ := Option.map_eq_some_iff.mp h
    exact ⟨hvalid.1, rfl, hencoded, rfl⟩

/-- The stored text of a password has 88 bytes, and begins with `$`. -/
theorem length_hashPassword {prim : Primitives} (hprim : prim.Sized) {password salt encoded : Bytes}
    (hsalt : salt.length = newPasswordSalt) (h : hashPassword prim password salt = some encoded) :
    encoded.length = 88 ∧ encoded.head? = some 0x24 := by
  simp only [hashPassword, Option.bind_eq_bind, Option.bind_eq_some_iff] at h
  obtain ⟨digest, hdigest, h⟩ := h
  cases h
  obtain ⟨⟨hfront, hfrontLength⟩, -⟩ := passwordHash_texts
  have hsaltLength := length_encodeBase64 salt
  have hdigestLength := length_encodeBase64 digest
  rw [hsalt, newPasswordSalt] at hsaltLength
  rw [hprim _ _ _ _ _ _ _ hdigest] at hdigestLength
  constructor
  · rw [List.length_append, List.length_append, List.length_append, hfrontLength, List.length_singleton]
    omega
  · rw [hfront]
    rfl

/-- The stored text of a secret has 32 bytes. -/
theorem length_encodeTOTPSecret {secret : Bytes} (h : secret.length = totpSecretBytes) :
    (encodeTOTPSecret secret).length = 32 := by
  have hlength := length_encodeBase32 secret
  rw [h, totpSecretBytes] at hlength
  rw [encodeTOTPSecret]
  omega

theorem withinColumn_of_head {text : Bytes} {c : UInt8} {most : Nat} (hhead : text.head? = some c)
    (hc : c ≠ UInt8.ofNat 0) (h : text.length ≤ most) : WithinColumn text most := by
  obtain ⟨rest, rfl⟩ := List.head?_eq_some_iff.mp hhead
  exact withinColumn_of_length hc h

theorem validAccountName_within {name : Bytes} (h : validAccountName name = true) :
    name ≠ [] ∧ name.length ≤ 64 ∧ WithinColumn name 64 := by
  simp only [validAccountName, decide_eq_true_eq, not_or, Nat.not_lt, not_not] at h
  obtain ⟨hne, hlength, hprintable⟩ := h
  refine ⟨hne, hlength, ?_⟩
  cases name with
  | nil => exact absurd rfl hne
  | cons c rest =>
    refine withinColumn_of_length (fun hzero => ?_) hlength
    rw [printableName, List.all_cons, hzero] at hprintable
    exact absurd (Bool.and_eq_true_iff.mp hprintable).1 (by decide)

/-- The registry takes the row of a setup. -/
theorem saveAdministrator_setup {prim : Primitives} (hprim : prim.Sized) {form : SetupForm}
    {salt secret : Bytes} {secondFactor : Nat} {now : Time} {p : PendingSetup} (savedAt : Time)
    (hsalt : salt.length = newPasswordSalt) (hsecret : secret.length = totpSecretBytes)
    (h : prepareSetup prim form salt secret secondFactor now = some p) :
    saveAdministrator (p.credential savedAt) =
      .ok ⟨p.name, p.passwordHash, encodeTOTPSecret p.secret, savedAt.unixMilli⟩ := by
  obtain ⟨hname, heq, hhash, rfl⟩ := prepareSetup_some h
  rw [← heq] at hname
  obtain ⟨hne, hnameLength, hnameColumn⟩ := validAccountName_within hname
  obtain ⟨hhashLength, hhashHead⟩ := length_hashPassword hprim hsalt hhash
  have hsecretLength := length_encodeTOTPSecret hsecret
  have hhashColumn : WithinColumn p.passwordHash 512 :=
    withinColumn_of_head hhashHead (by decide) (by omega)
  have hsecretColumn : WithinColumn (encodeTOTPSecret p.secret) 128 := by
    cases hsecretText : encodeTOTPSecret p.secret with
    | nil => rw [hsecretText] at hsecretLength; cases hsecretLength
    | cons c rest =>
      have hmem : c ∈ base32Alphabet := mem_encodeBase32 (by
        rw [← encodeTOTPSecret, hsecretText]
        exact List.mem_cons_self)
      refine withinColumn_of_length (fun hzero => ?_) (by rw [← hsecretText]; omega)
      exact absurd (hzero ▸ hmem) alphabets_plain.2.2.1
  have hvalid : validAdministratorCredential (p.credential savedAt) = true := by
    have hpositive := List.length_pos_iff.mpr hne
    refine decide_eq_true ?_
    simp only [PendingSetup.credential]
    omega
  rw [saveAdministrator, reject_neg (by rw [hvalid]; decide), ok_bind,
    reject_neg (not_not.mpr ⟨hnameColumn, hhashColumn, hsecretColumn⟩)]
  rfl

/-! ### The secret as it is shown -/

/-- Blocks of four, with a space between them. -/
def formatTOTPSecret : Bytes → Bytes
  | a :: b :: c :: d :: e :: rest => a :: b :: c :: d :: 0x20 :: formatTOTPSecret (e :: rest)
  | encoded => encoded

theorem filter_formatTOTPSecret {encoded : Bytes} (h : ∀ c ∈ encoded, (c != 0x20) = true) :
    (formatTOTPSecret encoded).filter (· != 0x20) = encoded := by
  fun_induction formatTOTPSecret encoded with
  | case1 a b c d e rest ih =>
    simp only [List.forall_mem_cons] at h
    obtain ⟨ha, hb, hc, hd, hrest⟩ := h
    simp only [List.filter_cons, ha, hb, hc, hd, bne_self_eq_false, Bool.false_eq_true, if_true,
      if_false, ih (List.forall_mem_cons.mpr hrest)]
  | case2 encoded _ => exact List.filter_eq_self.mpr h

theorem formatTOTPSecret_ends (encoded : Bytes) :
    (formatTOTPSecret encoded).head? = encoded.head? ∧
      (formatTOTPSecret encoded).getLast? = encoded.getLast? := by
  fun_induction formatTOTPSecret encoded with
  | case1 a b c d e rest ih =>
    refine ⟨rfl, ?_⟩
    have hne : formatTOTPSecret (e :: rest) ≠ [] := by
      intro hnil
      rw [hnil] at ih
      cases ih.1
    obtain ⟨x, more, hmore⟩ := List.exists_cons_of_ne_nil hne
    rw [hmore] at ih ⊢
    simp only [List.getLast?_cons_cons] at ih ⊢
    exact ih.2
  | case2 encoded _ => exact ⟨rfl, rfl⟩

/-- A secret that is typed in as it is shown is the secret. -/
theorem parseTOTPSecret_formatTOTPSecret {secret : Bytes} (h : 16 ≤ secret.length) :
    parseTOTPSecret (formatTOTPSecret (encodeTOTPSecret secret)) = some secret := by
  have hmem : ∀ c ∈ encodeTOTPSecret secret, c ∈ base32Alphabet := fun c hc => mem_encodeBase32 hc
  obtain ⟨-, -, -, hspaceless, hblank, -⟩ := alphabets_plain
  obtain ⟨hhead, hlast⟩ := formatTOTPSecret_ends (encodeTOTPSecret secret)
  have htrim : trimSpace (formatTOTPSecret (encodeTOTPSecret secret)) =
      formatTOTPSecret (encodeTOTPSecret secret) := by
    refine trimSpace_ends (fun c hc => ?_) (fun c hc => ?_)
    · exact hspaceless c (hmem c (List.mem_of_head? (hhead ▸ hc)))
    · exact hspaceless c (hmem c (List.mem_of_getLast? (hlast ▸ hc)))
  have hself : trimSpace (encodeTOTPSecret secret) = encodeTOTPSecret secret :=
    trimSpace_spaceless fun c hc => hspaceless c (hmem c hc)
  have hfilter := filter_formatTOTPSecret fun c hc => hblank c (hmem c hc)
  have hunfiltered : (encodeTOTPSecret secret).filter (· != 0x20) = encodeTOTPSecret secret :=
    List.filter_eq_self.mpr fun c hc => hblank c (hmem c hc)
  have hparse := parseTOTPSecret_encodeTOTPSecret h
  simp only [parseTOTPSecret, hself, hunfiltered] at hparse
  simp only [parseTOTPSecret, htrim, hfilter]
  exact hparse

/-! ### No lockout -/

def sampleForm : SetupForm :=
  ⟨" operator\n".toUTF8.toList, "a new password".toUTF8.toList, "a new password".toUTF8.toList⟩

/-- For every form that `setupCredential` accepts, every salt and every secret of the sizes that the
console draws: the registry takes the credential, an account is read back, and it accepts the name as
a login trims it and the password, and holds the secret.  A secret that is typed in as it is shown is
the secret. -/
theorem setup_never_locks_out (prim : Primitives) (hprim : prim.Sized) (form : SetupForm)
    (salt secret : Bytes) (secondFactor : Nat) (now savedAt : Time) (p : PendingSetup)
    (hsalt : salt.length = newPasswordSalt) (hsecret : secret.length = totpSecretBytes)
    (hsetup : prepareSetup prim form salt secret secondFactor now = some p) :
    (∃ row account, saveAdministrator (p.credential savedAt) = .ok row ∧
      accountFromCredential (loadAdministrator row) secondFactor = some account ∧
      account.nameMatches prim (trimSpace form.username) = true ∧
      account.passwordMatches prim form.password = true ∧ account.secret = secret) ∧
    ∀ s : Bytes, 16 ≤ s.length →
      parseTOTPSecret (formatTOTPSecret (encodeTOTPSecret s)) = some s := by
  refine ⟨?_, fun s => parseTOTPSecret_formatTOTPSecret⟩
  have hsave := saveAdministrator_setup hprim savedAt hsalt hsecret hsetup
  obtain ⟨hname, heq, hhash, rfl⟩ := prepareSetup_some hsetup
  obtain ⟨digest, hdigest, hparse⟩ :=
    parsePasswordHash_hashPassword hprim (Nat.le_of_eq hsalt.symm) hhash
  have htrim : trimSpace p.name = p.name := by rw [heq, trimSpace_trimSpace]
  have hlong : 16 ≤ p.secret.length := by
    rw [hsecret]
    decide
  rw [← heq] at hname ⊢
  refine ⟨_, ⟨p.name, ⟨15, 8, 1, salt, digest⟩, p.secret, some secondFactor,
    .ofUnixMilli savedAt.unixMilli, true⟩, hsave, ?_, ?_, ?_, rfl⟩
  · simp [accountFromCredential, loadAdministrator, htrim, hname, hparse,
      parseTOTPSecret_encodeTOTPSecret hlong, guard]
  · simp [Account.nameMatches, constantTimeEquals]
  · have hlength := hprim _ _ _ _ _ _ _ hdigest
    simp [Account.passwordMatches, PasswordHash.matches, hlength, hdigest]

theorem setup_never_locks_out_sample : ∃ p row account,
    prepareSetup samplePrimitives sampleForm (List.replicate 16 1) (List.replicate 20 2) 1
      sampleNow = some p ∧
    saveAdministrator (p.credential sampleNow) = .ok row ∧
    accountFromCredential (loadAdministrator row) 1 = some account ∧
    account.nameMatches samplePrimitives "operator".toUTF8.toList = true ∧
    account.passwordMatches samplePrimitives "a new password".toUTF8.toList = true ∧
    account.secret = List.replicate 20 2 := by
  have hok : (prepareSetup samplePrimitives sampleForm (List.replicate 16 1) (List.replicate 20 2) 1
      sampleNow).isSome = true := by decide +kernel
  have htrim : trimSpace sampleForm.username = "operator".toUTF8.toList := by decide +kernel
  obtain ⟨p, hp⟩ := Option.isSome_iff_exists.mp hok
  obtain ⟨⟨row, account, hsave, haccount, hname, hpassword, hsecret⟩, -⟩ :=
    setup_never_locks_out samplePrimitives samplePrimitives_sized sampleForm _ _ 1 sampleNow sampleNow
      p List.length_replicate List.length_replicate hp
  exact ⟨p, row, account, hp, hsave, haccount, htrim ▸ hname, hpassword, hsecret⟩

end SevenMirror.Console
