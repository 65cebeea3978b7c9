import Mathlib.Data.Option.Basic
import SevenMirror.Console.Sessions
import SevenMirror.Lib.Base64

/-! What a restart of the console reads.  `setupSecondFactor` writes the registry and then replaces
the account in memory, in two steps.  What it writes is always read back, and the account in memory
is the stored one as long as no setup writes between the two steps of another. -/

namespace SevenMirror.Console

open Lib

/-! ### What is written is read back -/

/-- `scrypt.Key` returns a key of the length that was asked for. -/
def Primitives.Sized (prim : Primitives) : Prop :=
  ∀ password salt logN r p length key,
    prim.scrypt password salt logN r p length = some key → key.length = length

theorem samplePrimitives_sized : samplePrimitives.Sized := by
  intro password salt logN r p length key hkey
  cases hkey
  exact List.length_replicate

def newPasswordSalt : Nat := 16

def totpSecretBytes : Nat := 20

/-- The salt and the secret have the sizes that the console draws. -/
structure Input.Drawn (input : Input) : Prop where
  salt : input.salt.length = newPasswordSalt
  secret : input.secret.length = totpSecretBytes

/-- The digits of a stored text are none of the bytes that its readers look for. -/
theorem alphabets_plain : (0x24 : UInt8) ∉ base64Alphabet ∧
    (0x3d : UInt8) ∉ base32Alphabet ∧ UInt8.ofNat 0 ∉ base32Alphabet ∧
    (∀ c ∈ base32Alphabet, ∀ w ∈ spaces, c ∉ w) ∧ (∀ c ∈ base32Alphabet, (c != 0x20) = true) ∧
    ∀ c ∈ base32Alphabet, c < 0x61 := by
  decide +kernel

theorem dollar_not_mem_encodeBase64 (bytes : Bytes) : (0x24 : UInt8) ∉ encodeBase64 bytes :=
  fun h => absurd (mem_encodeBase64 h) alphabets_plain.1

/-- The texts before the salt, and the parameters that are read from them. -/
theorem passwordHash_texts :
    ("$scrypt$ln=15,r=8,p=1$".toUTF8.toList =
      [] ++ 0x24 :: ("scrypt".toUTF8.toList ++ 0x24 :: ("ln=15,r=8,p=1".toUTF8.toList ++ [0x24])) ∧
      "$scrypt$ln=15,r=8,p=1$".toUTF8.toList.length = 22) ∧
    ((0x24 : UInt8) ∉ "scrypt".toUTF8.toList ∧ (0x24 : UInt8) ∉ "ln=15,r=8,p=1".toUTF8.toList) ∧
    (splitOn 0x2c "ln=15,r=8,p=1".toUTF8.toList).mapM parseParameter =
      some [("ln".toUTF8.toList, 15), ("r".toUTF8.toList, 8), ("p".toUTF8.toList, 1)] ∧
    (splitOn 0x2c "ln=15,r=8,p=1".toUTF8.toList).length = 3 ∧
    parameter [("ln".toUTF8.toList, 15), ("r".toUTF8.toList, 8), ("p".toUTF8.toList, 1)]
      "ln".toUTF8.toList = some 15 ∧
    parameter [("ln".toUTF8.toList, 15), ("r".toUTF8.toList, 8), ("p".toUTF8.toList, 1)]
      "r".toUTF8.toList = some 8 ∧
    parameter [("ln".toUTF8.toList, 15), ("r".toUTF8.toList, 8), ("p".toUTF8.toList, 1)]
      "p".toUTF8.toList = some 1 := by
  decide +kernel

theorem splitOn_passwordHash (salt digest : Bytes) :
    splitOn 0x24 ("$scrypt$ln=15,r=8,p=1$".toUTF8.toList ++ encodeBase64 salt ++ [0x24] ++
      encodeBase64 digest) =
      [[], "scrypt".toUTF8.toList, "ln=15,r=8,p=1".toUTF8.toList, encodeBase64 salt,
        encodeBase64 digest] := by
  obtain ⟨⟨hfront, -⟩, ⟨hname, hvalues⟩, -⟩ := passwordHash_texts
  rw [hfront]
  simp only [List.append_assoc, List.cons_append, List.nil_append]
  rw [← List.nil_append (0x24 :: _), splitOn_append List.not_mem_nil, splitOn_append hname,
    splitOn_append hvalues, splitOn_append (dollar_not_mem_encodeBase64 salt),
    splitOn_field (dollar_not_mem_encodeBase64 digest)]

theorem parsePasswordHash_hashPassword {prim : Primitives} (hprim : prim.Sized)
    {password salt encoded : Bytes} (hsalt : newPasswordSalt ≤ salt.length)
    (h : hashPassword prim password salt = some encoded) :
    ∃ digest, prim.scrypt password salt 15 8 1 32 = some digest ∧
      parsePasswordHash encoded = some ⟨15, 8, 1, salt, digest⟩ := by
  simp only [hashPassword, Option.bind_eq_bind, Option.bind_eq_some_iff] at h
  obtain ⟨digest, hdigest, h⟩ := h
  cases h
  refine ⟨digest, hdigest, ?_⟩
  have hlength := hprim _ _ _ _ _ _ _ hdigest
  obtain ⟨-, -, hvalues, hcount, hparameters⟩ := passwordHash_texts
  rw [parsePasswordHash, splitOn_passwordHash]
  simp only [hvalues, hcount, hparameters.1, hparameters.2.1, hparameters.2.2,
    decodeBase64_encodeBase64, Option.bind_eq_bind, Option.bind_some, hlength]
  have hlong : 16 ≤ List.length salt := hsalt
  simp [guard, hlong]

theorem toUpper_self {text : Bytes} (h : ∀ c ∈ text, c < 0x61) : toUpper text = text := by
  fun_induction toUpper text with
  | case1 rest ih => exact absurd (h 0xc4 List.mem_cons_self) (by decide)
  | case2 rest ih => exact absurd (h 0xc5 List.mem_cons_self) (by decide)
  | case3 c rest _ _ ih =>
    have hc : ¬ (0x61 ≤ c ∧ c ≤ 0x7a) := fun hle => UInt8.not_le.mpr (h c List.mem_cons_self) hle.1
    rw [if_neg hc, ih fun x hx => h x (List.mem_cons_of_mem _ hx)]
  | case4 => rfl

theorem parseTOTPSecret_encodeTOTPSecret {secret : Bytes} (h : 16 ≤ secret.length) :
    parseTOTPSecret (encodeTOTPSecret secret) = some secret := by
  have hmem : ∀ c ∈ encodeBase32 secret, c ∈ base32Alphabet := fun c hc => mem_encodeBase32 hc
  obtain ⟨-, hpadding, -, hspaceless, hblank, hcapital⟩ := alphabets_plain
  have htrim : trimSpace (encodeBase32 secret) = encodeBase32 secret :=
    trimSpace_spaceless fun c hc => hspaceless c (hmem c hc)
  have hfilter : (encodeBase32 secret).filter (· != 0x20) = encodeBase32 secret :=
    List.filter_eq_self.mpr fun c hc => hblank c (hmem c hc)
  have hupper : toUpper (encodeBase32 secret) = encodeBase32 secret :=
    toUpper_self fun c hc => hcapital c (hmem c hc)
  have hright : trimRight 0x3d (encodeBase32 secret) = encodeBase32 secret :=
    trimRight_self fun hc => absurd (hmem _ hc) hpadding
  simp only [parseTOTPSecret, encodeTOTPSecret, htrim, hfilter, hupper, hright,
    decodeBase32_encodeBase32, Option.bind_eq_bind, Option.bind_some,
    if_neg (Nat.not_lt.mpr h)]

/-- What is stored of the setup is an account. -/
structure PendingSetup.Readable (p : PendingSetup) : Prop where
  name : trimSpace p.name = p.name
  valid : validAccountName p.name = true
  hash : ∃ hash, parsePasswordHash p.passwordHash = some hash
  secret : 16 ≤ p.secret.length

/-- The row that `setupSecondFactor` writes. -/
def PendingSetup.credential (p : PendingSetup) (now : Time) : AdministratorCredential :=
  ⟨p.name, p.passwordHash, encodeTOTPSecret p.secret, now⟩

theorem PendingSetup.Readable.account {p : PendingSetup} (hp : p.Readable) (now : Time)
    (address : Nat) :
    ∃ account, accountFromCredential (p.credential now) address = some account ∧
      account.secret = p.secret := by
  obtain ⟨hash, hhash⟩ := hp.hash
  refine ⟨⟨p.name, hash, p.secret, some address, now, true⟩, ?_, rfl⟩
  simp [accountFromCredential, PendingSetup.credential, hp.name, hp.valid, hhash,
    parseTOTPSecret_encodeTOTPSecret hp.secret, guard]

theorem Prepared.readable {prim : Primitives} (hprim : prim.Sized) {input : Input}
    (hdrawn : input.Drawn) {h' : Handler} {p : PendingSetup} (hp : Prepared prim input h' p) :
    p.Readable := by
  obtain ⟨username, hname⟩ := hp.name
  obtain ⟨password, hpassword⟩ := hp.hash
  obtain ⟨digest, -, hhash⟩ :=
    parsePasswordHash_hashPassword hprim (Nat.le_of_eq hdrawn.salt.symm) hpassword
  refine ⟨?_, hp.valid, ⟨_, hhash⟩, ?_⟩
  · rw [hname, trimSpace_trimSpace]
  · rw [hp.secret, hdrawn.secret]
    decide

/-! ### Writes that do not cross -/

def Choice.Drawn : Choice → Prop
  | go input => input.Drawn
  | _ => True

/-- A step of a request in which what is drawn has the console's sizes. -/
def DrawnStep (prim : Primitives) (t : Nat) (h : Handler) (r : Request) (h' : Handler)
    (r' : Request) : Prop :=
  ∃ choice : Choice, choice.Drawn ∧ consoleNext prim choice t h r = some (h', r')

/-- The request is about to write the registry. -/
def Request.saves : Request → Bool
  | saving _ _ _ => true
  | _ => false

/-- A request writes the registry only while no other has an account to adopt. -/
def SavesAlone (c : Threads Handler Request) (t : Nat) : Prop :=
  (c.thread t).saves = true → ∀ u, (c.thread u).adopted = none

/-- A setup that can be confirmed, with the verifier of its secret. -/
structure Ready (h : Handler) (p : PendingSetup) : Prop where
  readable : p.Readable
  verifies : h.Verifies p.secondFactor p.secret

/-- The account is the one of the stored row, with a verifier of its secret, or the default. -/
def Stands (h : Handler) (account : Account) : Prop :=
  match h.stored with
  | none => account = defaultAccount
  | some credential => ∃ address, accountFromCredential credential address = some account ∧
      h.Verifies address account.secret

theorem Stands.keep {h h' : Handler} {account : Account} (hstands : Stands h account)
    (hstored : h'.stored = h.stored)
    (hverifies : ∀ address secret, h.Verifies address secret → h'.Verifies address secret) :
    Stands h' account := by
  unfold Stands at hstands ⊢
  rw [hstored]
  split at hstands
  · exact hstands
  · obtain ⟨address, haccount, hv⟩ := hstands
    exact ⟨address, haccount, hverifies _ _ hv⟩

/-- The account that is or will be in memory is the stored one: that of the handler, or that of the
one request that has written the registry and has still to adopt its account. -/
structure Consistent (c : Threads Handler Request) : Prop where
  ready : ∀ t p, c.shared.Offers p ∨ (c.thread t).setup = some p → Ready c.shared p
  stands : (∀ t, (c.thread t).adopted = none) ∧ Stands c.shared c.shared.account ∨
    ∃ t account, (c.thread t).adopted = some account ∧
      (∀ u, u ≠ t → (c.thread u).adopted = none) ∧ Stands c.shared account

section Step

variable {prim : Primitives} {h h' : Handler} {r r' : Request} {t : Nat}

theorem arrives_plain (h : r.arrives = true) : r.setup = none ∧ r.adopted = none := by
  cases r <;> first | exact ⟨rfl, rfl⟩ | cases h

/-- A step takes over setups, or makes one that can be confirmed; no verifier loses its secret, and
only a write to the registry leaves an account to adopt. -/
theorem DrawnStep.setups (hprim : prim.Sized) (hstep : DrawnStep prim t h r h' r') :
    (∀ p, h'.Offers p ∨ r'.setup = some p →
      (h.Offers p ∨ r.setup = some p) ∨ Ready h' p) ∧
    (∀ address secret, h.Verifies address secret → h'.Verifies address secret) ∧
    ∀ updated, r'.adopted = some updated → ∃ d s p, r = .saving d s p := by
  obtain ⟨choice, hdrawn, hnext⟩ := hstep
  unfold consoleNext at hnext
  split at hnext
  · split at hnext
    · rename_i harrives
      cases hnext
      obtain ⟨hsetup, hadopted⟩ := arrives_plain harrives
      rw [hsetup, hadopted]
      refine ⟨fun p hp => ?_, fun _ _ hv => hv, fun _ hupdated => by cases hupdated⟩
      exact Or.inl (Or.inl (hp.resolve_right (by rintro ⟨⟩)))
    · cases hnext
  · split at hnext <;> cases hnext
    refine ⟨fun p hp => ?_, fun _ _ hv => hv, fun _ hupdated => by cases hupdated⟩
    exact Or.inl (Or.inl (hp.resolve_right (by rintro ⟨⟩)))
  · obtain ⟨-, -, hsetups⟩ := (next_advances hnext).spec
    refine ⟨fun p hp => ?_, hsetups.verifies, hsetups.adopted⟩
    rcases hsetups.source p hp with hold | hnew
    · exact Or.inl hold
    · exact Or.inr ⟨hnew.readable hprim hdrawn, hnew.verifies⟩
  · cases hnext

theorem DrawnStep.effect (hstep : DrawnStep prim t h r h' r') : Effect h r h' := by
  obtain ⟨choice, -, hnext⟩ := hstep
  exact (ConsoleStep.spec ⟨choice, hnext⟩).1

/-- The write of a setup that can be read back either fails or leaves its account to adopt. -/
theorem DrawnStep.saving {d : Digest} {s : Session} {p : PendingSetup} (hp : p.Readable)
    (hstep : DrawnStep prim t h (.saving d s p) h' r') :
    (h' = h ∧ r' = .finished) ∨
      ∃ now updated, accountFromCredential (p.credential now) p.secondFactor = some updated ∧
        updated.secret = p.secret ∧ h' = { h with stored := some (p.credential now) } ∧
        r' = .adopting d s updated := by
  obtain ⟨choice, -, hnext⟩ := hstep
  cases choice with
  | call request => cases hnext
  | refuse => cases hnext
  | go input =>
    simp only [consoleNext, Handler.next] at hnext
    split at hnext
    · cases hnext
      exact Or.inl ⟨rfl, rfl⟩
    · obtain ⟨updated, hupdated, hsecret⟩ := hp.account input.now p.secondFactor
      have hread := hupdated
      rw [PendingSetup.credential] at hread
      rw [hread] at hnext
      cases hnext
      exact Or.inr ⟨input.now, updated, hupdated, hsecret, rfl, rfl⟩

theorem DrawnStep.adopting {d : Digest} {s : Session} {updated : Account}
    (hstep : DrawnStep prim t h (.adopting d s updated) h' r') :
    h' = h.adopt d s updated ∧ r' = .finished := by
  obtain ⟨choice, -, hnext⟩ := hstep
  cases choice with
  | call request => cases hnext
  | refuse => cases hnext
  | go input =>
    cases hnext
    exact ⟨rfl, rfl⟩

/-- Apart from the two steps of a setup, the account and the stored row stay. -/
theorem Effect.account_stored (heffect : Effect h r h') (hsaving : r.saves = false)
    (hadopted : r.adopted = none) : h'.account = h.account ∧ h'.stored = h.stored := by
  cases heffect with
  | quiet _ _ haccount hstored => exact ⟨haccount, hstored⟩
  | start => exact ⟨rfl, rfl⟩
  | logout => exact ⟨rfl, rfl⟩
  | save digest stored pending credential hreq =>
    rw [hreq] at hsaving
    cases hsaving
  | adopt digest stored updated hreq =>
    rw [hreq] at hadopted
    cases hadopted

end Step

/-- The requests with an account to adopt, after a step of one that had none and has none. -/
theorem adopted_update {c : Threads Handler Request} {t : Nat} {r' : Request}
    (h : (c.thread t).adopted = none) (h' : r'.adopted = none) (u : Nat) :
    (Function.update c.thread t r' u).adopted = (c.thread u).adopted := by
  by_cases hu : u = t
  · subst hu
    rw [Function.update_self, h, h']
  · rw [Function.update_of_ne hu]

section Run

variable {prim : Primitives} {c : Threads Handler Request} {h' : Handler} {r' : Request} {t : Nat}

/-- A setup was there before the step, or the step made it. -/
theorem Consistent.ready_step (hprim : prim.Sized) (hc : Consistent c)
    (hstep : DrawnStep prim t c.shared (c.thread t) h' r') (u : Nat) (p : PendingSetup)
    (hp : h'.Offers p ∨ (Function.update c.thread t r' u).setup = some p) : Ready h' p := by
  obtain ⟨hsource, hverifies, -⟩ := hstep.setups hprim
  have hbefore : (∃ v, c.shared.Offers p ∨ (c.thread v).setup = some p) ∨ Ready h' p := by
    rcases hp with hp | hp
    · exact (hsource p (Or.inl hp)).imp (fun h => ⟨t, h⟩) id
    · by_cases hu : u = t
      · subst hu
        rw [Function.update_self] at hp
        exact (hsource p (Or.inr hp)).imp (fun h => ⟨u, h⟩) id
      · rw [Function.update_of_ne hu] at hp
        exact Or.inl ⟨u, Or.inr hp⟩
  rcases hbefore with ⟨v, hv⟩ | hready
  · exact ⟨(hc.ready v p hv).readable, hverifies _ _ (hc.ready v p hv).verifies⟩
  · exact hready

/-- Whose account stands does not change with a step that neither writes nor adopts. -/
theorem Consistent.stands_quiet (hc : Consistent c) (haccount : h'.account = c.shared.account)
    (hstored : h'.stored = c.shared.stored)
    (hverifies : ∀ address secret, c.shared.Verifies address secret → h'.Verifies address secret)
    (hbefore : (c.thread t).adopted = none) (hafter : r'.adopted = none) :
    (∀ u, (Function.update c.thread t r' u).adopted = none) ∧ Stands h' h'.account ∨
      ∃ v account, (Function.update c.thread t r' v).adopted = some account ∧
        (∀ u, u ≠ v → (Function.update c.thread t r' u).adopted = none) ∧ Stands h' account := by
  simp only [adopted_update hbefore hafter, haccount]
  rcases hc.stands with ⟨hnone, hstands⟩ | ⟨v, account, hv, hothers, hstands⟩
  · exact Or.inl ⟨hnone, hstands.keep hstored hverifies⟩
  · exact Or.inr ⟨v, account, hv, hothers, hstands.keep hstored hverifies⟩

theorem Consistent.step (hprim : prim.Sized) {c' : Threads Handler Request} (hc : Consistent c)
    (hstep : Threads.StepWhen SavesAlone (DrawnStep prim) c c') : Consistent c' := by
  cases hstep with
  | of t halone hstep =>
    refine ⟨hc.ready_step hprim hstep, ?_⟩
    obtain ⟨-, hverifies, hadopts⟩ := hstep.setups hprim
    cases hr : c.thread t with
    | saving d s p =>
      have hready := hc.ready t p (Or.inr (by rw [hr]; rfl))
      rw [hr] at hstep
      rcases hstep.saving hready.readable with ⟨rfl, rfl⟩ | ⟨now, updated, hread, hsecret, rfl, rfl⟩
      · exact hc.stands_quiet rfl rfl hverifies (by rw [hr]; rfl) rfl
      · -- the write of a request that has no other to cross with
        have hnone := halone (by rw [hr]; rfl)
        refine Or.inr ⟨t, updated, by simp [Request.adopted], fun u hu => ?_, p.secondFactor, hread, ?_⟩
        · simp [Function.update_of_ne hu, hnone u]
        · rw [hsecret]
          exact hready.verifies
    | adopting d s updated =>
      rw [hr] at hstep
      obtain ⟨rfl, rfl⟩ := hstep.adopting
      have hadopted : (c.thread t).adopted = some updated := by rw [hr]; rfl
      rcases hc.stands with ⟨hnone, -⟩ | ⟨v, account, hv, hothers, hstands⟩
      · rw [hnone t] at hadopted
        cases hadopted
      · obtain rfl : t = v := by
          by_contra hne
          rw [hothers t hne] at hadopted
          cases hadopted
        rw [hadopted] at hv
        cases hv
        refine Or.inl ⟨fun u => ?_, hstands.keep rfl fun _ _ hv => hv⟩
        by_cases hu : u = t
        · subst hu
          simp [Request.adopted]
        · simp [Function.update_of_ne hu, hothers u hu]
    | _ =>
      have hsaves : (c.thread t).saves = false := by rw [hr]; rfl
      have hbefore : (c.thread t).adopted = none := by rw [hr]; rfl
      obtain ⟨haccount, hstored⟩ := hstep.effect.account_stored hsaves hbefore
      refine hc.stands_quiet haccount hstored hverifies hbefore ?_
      rw [Option.eq_none_iff_forall_ne_some]
      intro updated hupdated
      obtain ⟨d, s, p, hsaving⟩ := hadopts updated hupdated
      rw [hsaving] at hsaves
      cases hsaves

end Run

/-! ### Restarts -/

theorem accountFromCredential_address {credential : AdministratorCredential} {address : Nat}
    {account : Account} (h : accountFromCredential credential address = some account) :
    account.secondFactor = some address ∧
      ∀ b, accountFromCredential credential b = some { account with secondFactor := some b } := by
  simp only [accountFromCredential, Option.bind_eq_bind, Option.bind_eq_some_iff] at h ⊢
  obtain ⟨u, hvalid, hash, hhash, secret, hsecret, h⟩ := h
  cases h
  exact ⟨rfl, fun b => ⟨u, hvalid, hash, hhash, secret, hsecret, rfl⟩⟩

/-- The accounts agree on the name, the password and the secret of the second factor. -/
structure Account.SameCredential (a b : Account) : Prop where
  name : a.name = b.name
  hash : a.hash = b.hash
  secret : a.secret = b.secret
  initialized : a.initialized = b.initialized

/-- The account is the one that the stored row is read as, or the default if there is none. -/
def IsStored (stored : Option AdministratorCredential) (account : Account) : Prop :=
  match stored with
  | none => account = defaultAccount
  | some credential => ∃ loaded, accountFromCredential credential 0 = some loaded ∧
      loaded.SameCredential account

/-- The secret that the second factor of a login is checked with. -/
def Handler.factorSecret (h : Handler) : Option Bytes :=
  h.account.secondFactor.map fun address => (h.verifiers address).secret

/-- The two handlers accept the same credentials. -/
structure AcceptSame (prim : Primitives) (h h' : Handler) : Prop where
  name : ∀ candidate, h.account.nameMatches prim candidate = h'.account.nameMatches prim candidate
  password : ∀ candidate,
    h.account.passwordMatches prim candidate = h'.account.passwordMatches prim candidate
  initialized : h.account.initialized = h'.account.initialized
  factor : h.factorSecret = h'.factorSecret

theorem Account.SameCredential.accept {prim : Primitives} {h h' : Handler}
    (hsame : h.account.SameCredential h'.account) (hfactor : h.factorSecret = h'.factorSecret) :
    AcceptSame prim h h' := by
  refine ⟨fun candidate => ?_, fun candidate => ?_, hsame.initialized, hfactor⟩
  · rw [Account.nameMatches, Account.nameMatches, hsame.initialized, hsame.name]
  · rw [Account.passwordMatches, Account.passwordMatches, hsame.initialized, hsame.hash]

theorem newHandler_consistent {prim : Primitives} {stored : Option AdministratorCredential}
    {recoveryCode : Bytes} {now : Time} {start : Threads Handler Request}
    (h : newHandler prim stored recoveryCode now = some start) : Consistent start := by
  simp only [newHandler, Option.bind_eq_bind, Option.bind_eq_some_iff] at h
  obtain ⟨account, haccount, h⟩ := h
  cases h
  refine ⟨fun t p hp => ?_, Or.inl ⟨fun _ => rfl, ?_⟩⟩
  · rcases hp with ⟨d, s, hd, -⟩ | hp
    · cases hd
    · cases hp
  · cases stored with
    | none =>
      cases haccount
      rfl
    | some credential => exact ⟨0, haccount, Nat.zero_lt_one, rfl⟩

/-- A handler whose account stands is what a restart brings back. -/
theorem Stands.restart {prim : Primitives} {h : Handler} (hstands : Stands h h.account)
    (recoveryCode : Bytes) (now : Time) :
    IsStored h.stored h.account ∧ ∃ restarted,
      newHandler prim h.stored recoveryCode now = some restarted ∧
      AcceptSame prim restarted.shared h := by
  unfold Stands at hstands
  cases hstored : h.stored with
  | none =>
    rw [hstored] at hstands
    refine ⟨hstands, _, rfl, Account.SameCredential.accept ?_ ?_⟩
    · rw [hstands]
      exact ⟨rfl, rfl, rfl, rfl⟩
    · rw [Handler.factorSecret, Handler.factorSecret, hstands]
      rfl
  | some credential =>
    rw [hstored] at hstands
    obtain ⟨address, hread, hverifies⟩ := hstands
    obtain ⟨hfactor, hloaded⟩ := accountFromCredential_address hread
    refine ⟨⟨_, hloaded 0, rfl, rfl, rfl, rfl⟩, ?_⟩
    simp only [newHandler, initialAccount, hloaded 0, Option.bind_eq_bind, Option.bind_some]
    refine ⟨_, rfl, Account.SameCredential.accept ⟨rfl, rfl, rfl, rfl⟩ ?_⟩
    rw [Handler.factorSecret, Handler.factorSecret, hfactor]
    exact congrArg some hverifies.2.symm

/-- From any stored account, in every interleaving in which no request writes the registry while
another has written it and has still to adopt its account: whenever no request is in progress, the
account in memory is the stored one, and a restart accepts the same credentials. -/
theorem account_survives_restart {prim : Primitives} (hprim : prim.Sized)
    {stored : Option AdministratorCredential} {recoveryCode : Bytes} {now : Time}
    {start c : Threads Handler Request} (hstart : newHandler prim stored recoveryCode now = some start)
    (hrun : Threads.ReachesWhen SavesAlone (DrawnStep prim) start c)
    (hquiet : ∀ t, c.thread t = .idle ∨ c.thread t = .finished) (recoveryCode' : Bytes)
    (now' : Time) :
    IsStored c.shared.stored c.shared.account ∧ ∃ restarted,
      newHandler prim c.shared.stored recoveryCode' now' = some restarted ∧
      AcceptSame prim restarted.shared c.shared := by
  have hconsistent : Consistent c := by
    clear hquiet
    induction hrun with
    | refl => exact newHandler_consistent hstart
    | tail _ hstep ih => exact ih.step hprim hstep
  rcases hconsistent.stands with ⟨-, hstands⟩ | ⟨t, account, ht, -, -⟩
  · exact hstands.restart recoveryCode' now'
  · rcases hquiet t with hidle | hfinished
    · rw [hidle] at ht
      cases ht
    · rw [hfinished] at ht
      cases ht

instance (input : Input) : Decidable input.Drawn :=
  decidable_of_iff (input.salt.length = newPasswordSalt ∧ input.secret.length = totpSecretBytes)
    ⟨fun h => ⟨h.1, h.2⟩, fun h => ⟨h.salt, h.secret⟩⟩

/-- The step of a schedule whose draws have the console's sizes. -/
def drawnNext (prim : Primitives) (choice : Choice) (t : Nat) (h : Handler) (r : Request) :
    Option (Handler × Request) :=
  match choice with
  | .go input => if input.Drawn then consoleNext prim (.go input) t h r else none
  | other => consoleNext prim other t h r

theorem drawnNext_step (prim : Primitives) (choice : Choice) (t : Nat) (h : Handler) (r : Request)
    (h' : Handler) (r' : Request) (hnext : drawnNext prim choice t h r = some (h', r')) :
    DrawnStep prim t h r h' r' := by
  cases choice with
  | go input =>
    simp only [drawnNext] at hnext
    split at hnext
    · rename_i hdrawn
      exact ⟨.go input, hdrawn, hnext⟩
    · cases hnext
  | call request => exact ⟨.call request, trivial, hnext⟩
  | refuse => exact ⟨.refuse, trivial, hnext⟩

/-- The steps of a schedule that do not write the registry cross with none. -/
def unsavingNext (prim : Primitives) : Choice → Nat → Handler → Request → Option (Handler × Request) :=
  Threads.guarded (fun _ r => r.saves) (drawnNext prim)

theorem unsavingNext_reaches {prim : Primitives} {c : Threads Handler Request}
    {schedule : List (Nat × Choice)}
    (h : (Threads.follow (unsavingNext prim) c schedule).isSome = true) :
    Threads.ReachesWhen SavesAlone (DrawnStep prim) c
      (Threads.scheduled (unsavingNext prim) c schedule) := by
  have hrun : Threads.Reaches (fun t h r h' r' => DrawnStep prim t h r h' r' ∧ r.saves = false) c
      (Threads.scheduled (unsavingNext prim) c schedule) :=
    Threads.reaches_scheduled (fun choice t h r h' r' hnext =>
      ⟨drawnNext_step _ _ _ _ _ _ _ (Threads.guarded_some hnext).1,
        (Threads.guarded_some hnext).2⟩) h
  refine hrun.allowed (fun _ _ _ _ _ hstep => hstep.1) fun c t h' r' hstep hsaves => ?_
  rw [hstep.2] at hsaves
  cases hsaves

/-- The session `token` starts a setup under a name, as request `t`; `k` is drawn for the salt and
the secret. -/
def startSetupAs (t : Nat) (token name : Bytes) (k : UInt8) : List (Nat × Choice) :=
  let password := "a new password".toUTF8.toList
  let input := { sampleInput [] with salt := List.replicate 16 k, secret := List.replicate 20 k }
  (t, .call (samplePost token (.setupCredential ⟨name, password, password⟩))) ::
    List.replicate 2 (t, .go input)

/-- Two sessions complete their setups.  The first writes the registry, the second writes it and
adopts its account, and then the first adopts its own. -/
def crossingSchedule : List (Nat × Choice) :=
  serve 0 defaultLogin 3 [1] ++ serve 1 defaultLogin 3 [2] ++
    startSetupAs 2 [1] "first".toUTF8.toList 1 ++ startSetupAs 3 [2] "second".toUTF8.toList 2 ++
    confirmSetup 4 [1] 4 ++ confirmSetup 5 [2] 5 ++ [(4, .go (sampleInput []))]

/-- The console after the schedule. -/
def crossedConsole : Threads Handler Request :=
  Threads.scheduled (drawnNext samplePrimitives) sampleConsole crossingSchedule

/-- The console after a restart. -/
def crossedRestart : Option (Threads Handler Request) :=
  newHandler samplePrimitives crossedConsole.shared.stored [] sampleNow

/-- What the run comes to. -/
theorem crossedConsole_run :
    (Threads.follow (drawnNext samplePrimitives) sampleConsole crossingSchedule).isSome = true ∧
    (∀ t ∈ crossingSchedule.map (·.1), t < 6) ∧ (∀ t < 6, crossedConsole.thread t = .finished) ∧
    crossedConsole.shared.account.nameMatches samplePrimitives "first".toUTF8.toList = true ∧
    crossedRestart.isSome = true ∧
    ∀ restarted ∈ crossedRestart,
      restarted.shared.account.nameMatches samplePrimitives "first".toUTF8.toList = false ∧
      restarted.shared.account.nameMatches samplePrimitives "second".toUTF8.toList = true ∧
      crossedConsole.shared.factorSecret ≠ restarted.shared.factorSecret := by
  decide +kernel

/-- The name that logs in is then no longer accepted after a restart, nor is the second factor. -/
theorem crossing_setups_diverge :
    ∃ c restarted, Threads.Reaches (DrawnStep samplePrimitives) sampleConsole c ∧
      (∀ t, c.thread t = .idle ∨ c.thread t = .finished) ∧
      newHandler samplePrimitives c.shared.stored [] sampleNow = some restarted ∧
      c.shared.account.nameMatches samplePrimitives "first".toUTF8.toList = true ∧
      restarted.shared.account.nameMatches samplePrimitives "first".toUTF8.toList = false ∧
      restarted.shared.account.nameMatches samplePrimitives "second".toUTF8.toList = true ∧
      c.shared.factorSecret ≠ restarted.shared.factorSecret := by
  obtain ⟨hfollows, hbelow, hfinished, hname, hsome, hdiffers⟩ := crossedConsole_run
  have hrun : Threads.Reaches (DrawnStep samplePrimitives) sampleConsole crossedConsole :=
    Threads.reaches_scheduled (drawnNext_step samplePrimitives) hfollows
  have hquiet : ∀ t, crossedConsole.thread t = .idle ∨ crossedConsole.thread t = .finished := by
    intro t
    by_cases ht : t < 6
    · exact Or.inr (hfinished t ht)
    · exact Or.inl (Threads.scheduled_thread fun hmem => ht (hbelow t hmem))
  obtain ⟨restarted, hrestarted⟩ := Option.isSome_iff_exists.mp hsome
  exact ⟨crossedConsole, restarted, hrun, hquiet, hrestarted, hname, hdiffers restarted hrestarted⟩

/-- The steps of a setup up to the write, and the step of the request that completes it. -/
def setupSteps : List (Nat × Choice) :=
  serve 0 defaultLogin 3 [1] ++ startSetup 1 [1] ++ confirmSetup 2 [1] 3

def lastStep : List (Nat × Choice) := [(2, .go (sampleInput []))]

/-- The console before the write, after it, and after the adoption. -/
def beforeWrite : Threads Handler Request :=
  Threads.scheduled (unsavingNext samplePrimitives) sampleConsole setupSteps

def afterWrite : Threads Handler Request :=
  Threads.scheduled (drawnNext samplePrimitives) beforeWrite lastStep

def setupConsole : Threads Handler Request :=
  Threads.scheduled (unsavingNext samplePrimitives) afterWrite lastStep

theorem setupConsole_run :
    (∀ t ∈ setupSteps.map (·.1), t < 3) ∧ (∀ t < 3, (beforeWrite.thread t).adopted = none) ∧
    (Threads.follow (unsavingNext samplePrimitives) sampleConsole setupSteps).isSome = true ∧
    (Threads.follow (drawnNext samplePrimitives) beforeWrite lastStep).isSome = true ∧
    (Threads.follow (unsavingNext samplePrimitives) afterWrite lastStep).isSome = true ∧
    (∀ t < 3, setupConsole.thread t = .finished) ∧
    setupConsole.shared.account.initialized = true := by
  decide +kernel

/-- One session completes its setup: its write crosses with no other. -/
theorem account_survives_restart_setup :
    ∃ c restarted, samplePrimitives.Sized ∧
      newHandler samplePrimitives none [] sampleNow = some sampleConsole ∧
      Threads.ReachesWhen SavesAlone (DrawnStep samplePrimitives) sampleConsole c ∧
      (∀ t, c.thread t = .idle ∨ c.thread t = .finished) ∧
      c.shared.account.initialized = true ∧
      newHandler samplePrimitives c.shared.stored [] sampleNow = some restarted ∧
      AcceptSame samplePrimitives restarted.shared c.shared := by
  have hsized := samplePrimitives_sized
  obtain ⟨hbelow, hadopted, hbefore, hwrite, hlast, hfinished, hinitialized⟩ := setupConsole_run
  have hidle : ∀ t, ¬ t < 3 → beforeWrite.thread t = .idle := fun t ht =>
    Threads.scheduled_thread fun hmem => ht (hbelow t hmem)
  have hstep : Threads.StepWhen SavesAlone (DrawnStep samplePrimitives) beforeWrite afterWrite := by
    refine Threads.stepWhen_scheduled (drawnNext_step samplePrimitives) (fun _ u => ?_) hwrite
    by_cases hu : u < 3
    · exact hadopted u hu
    · rw [hidle u hu]
      rfl
  have hrun : Threads.ReachesWhen SavesAlone (DrawnStep samplePrimitives) sampleConsole
      setupConsole :=
    ((unsavingNext_reaches hbefore).tail hstep).trans (unsavingNext_reaches hlast)
  have hquiet : ∀ t, setupConsole.thread t = .idle ∨ setupConsole.thread t = .finished := by
    intro t
    by_cases ht : t < 3
    · exact Or.inr (hfinished t ht)
    · have hother : t ∉ lastStep.map (·.1) := by
        intro hmem
        obtain rfl : t = 2 := by simpa [lastStep] using hmem
        exact ht (by decide)
      exact Or.inl ((Threads.scheduled_thread hother).trans
        ((Threads.scheduled_thread hother).trans (hidle t ht)))
  obtain ⟨-, restarted, hrestarted, haccept⟩ :=
    account_survives_restart hsized sampleConsole_new hrun hquiet [] sampleNow
  exact ⟨setupConsole, restarted, hsized, sampleConsole_new, hrun, hquiet, hinitialized, hrestarted,
    haccept⟩

end SevenMirror.Console
