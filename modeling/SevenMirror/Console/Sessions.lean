import SevenMirror.Console.Handler

/-! Who may manage devices, and what ends a session, over every interleaving of requests.  Each step
has one of a few effects on the sessions and the account, and both results follow from these. -/

namespace SevenMirror.Console

open Lib

/-- The two sessions agree on what decides whether the session may manage devices. -/
structure Session.SameStanding (s s' : Session) : Prop where
  mustInitialize : s'.mustInitialize = s.mustInitialize
  origin : s'.origin = s.origin
  completed : s'.completed = s.completed

theorem Session.SameStanding.refl (s : Session) : s.SameStanding s := ⟨rfl, rfl, rfl⟩

/-- The sessions of `h'` are sessions of `h` with the same standing. -/
def SessionsKept (h h' : Handler) : Prop :=
  ∀ d s', h'.sessions d = some s' → ∃ s, h.sessions d = some s ∧ s.SameStanding s'

/-- What one step of the request `r` does to the handler. -/
inductive Effect (h : Handler) (r : Request) : Handler → Prop
  | quiet (h' : Handler) : SessionsKept h h' → h'.account = h.account → h'.stored = h.stored →
      h'.issued = h.issued → h'.ended = h.ended → Effect h r h'
  | start (origin : Origin) (digest : Digest) (csrfToken : Bytes) (now : Time) :
      r = .authenticated origin → digest ∉ h.issued →
      Effect h r (h.startSession digest csrfToken origin now)
  | logout (digest : Digest) (current : Session) : r = .authorized digest current .logout →
      Effect h r (h.endSession digest)
  | save (digest : Digest) (stored : Session) (pending : PendingSetup)
      (credential : AdministratorCredential) : r = .saving digest stored pending →
      Effect h r { h with stored := some credential }
  | adopt (digest : Digest) (stored : Session) (updated : Account) :
      r = .adopting digest stored updated → Effect h r (h.adopt digest stored updated)

theorem Effect.same (h : Handler) (r : Request) : Effect h r h :=
  .quiet h (fun _ s hs => ⟨s, hs, .refl s⟩) rfl rfl rfl rfl

section Kept

variable {h : Handler} {digest : Digest}

theorem SessionsKept.set {s s' : Session} (hs : h.sessions digest = some s)
    (hsame : s.SameStanding s') : SessionsKept h (h.setSession digest s') := by
  intro d t ht
  by_cases hd : d = digest
  · subst hd
    simp only [Handler.setSession, Function.update_self, Option.some.injEq] at ht
    exact ⟨s, hs, ht ▸ hsame⟩
  · simp only [Handler.setSession, ne_eq, hd, not_false_eq_true, Function.update_of_ne] at ht
    exact ⟨t, ht, .refl t⟩

theorem SessionsKept.delete : SessionsKept h (h.deleteSession digest) := by
  intro d t ht
  by_cases hd : d = digest
  · subst hd
    simp [Handler.deleteSession] at ht
  · simp only [Handler.deleteSession, ne_eq, hd, not_false_eq_true, Function.update_of_ne] at ht
    exact ⟨t, ht, .refl t⟩

end Kept

section Effects

variable {prim : Primitives} {h : Handler} {r : Request}

theorem verify_effect (address : Nat) (presented : Bytes) (now : Time) :
    Effect h r (h.verify prim address presented now).1 :=
  .quiet _ (fun _ s hs => ⟨s, hs, .refl s⟩) rfl rfl rfl rfl

theorem consumeRecoveryCode_effect (candidate : Bytes) (now : Time) :
    Effect h r (h.consumeRecoveryCode prim candidate now).1 := by
  unfold Handler.consumeRecoveryCode
  split
  · exact .same h r
  · exact .quiet _ (fun _ s hs => ⟨s, hs, .refl s⟩) rfl rfl rfl rfl

theorem currentSession_effect (digest : Digest) (now : Time) :
    Effect h r (h.currentSession digest now).1 := by
  unfold Handler.currentSession
  split
  · exact .same h r
  · split
    · exact .same h r
    · exact .quiet _ .delete rfl rfl rfl rfl

/-- What `currentSession` returns is in the map. -/
theorem currentSession_some {digest : Digest} {now : Time} {current : Session}
    (hc : (h.currentSession digest now).2 = some current) :
    (h.currentSession digest now).1 = h ∧ h.sessions digest = some current := by
  unfold Handler.currentSession at hc ⊢
  split at hc
  · cases hc
  · rename_i s hs
    split at hc
    · rename_i hnow
      cases hc
      simp [hs, hnow]
    · cases hc

theorem storePending_effect (digest : Digest) (pending : PendingSetup) :
    Effect h r (h.storePending digest pending) := by
  unfold Handler.storePending
  split
  · exact .same h r
  · rename_i stored hs
    exact .quiet _ (SessionsKept.set hs ⟨rfl, rfl, rfl⟩) rfl rfl rfl rfl

theorem finishAction_effect (digest : Digest) (message : FlashMessage) :
    Effect h r (h.finishAction digest message) := by
  unfold Handler.finishAction
  split
  · exact .same h r
  · rename_i current hs
    exact .quiet _ (SessionsKept.set hs ⟨rfl, rfl, rfl⟩) rfl rfl rfl rfl

theorem takeFlash_effect (digest : Digest) : Effect h r (h.takeFlash digest) := by
  unfold Handler.takeFlash
  split
  · exact .same h r
  · rename_i current hs
    split
    · exact .same h r
    · exact .quiet _ (SessionsKept.set hs ⟨rfl, rfl, rfl⟩) rfl rfl rfl rfl

/-- What a request relies on when it arrives at `r'` from `r`. -/
def Follows (h : Handler) (r : Request) : Request → Prop
  | .authorized digest current _ => h.sessions digest = some current
  | .managing digest current =>
    r = .authorized digest current .manage ∧ current.mustInitialize = false
  | _ => True

/-! ### Setups that wait for their code -/

/-- The setup that a request carries. -/
def Request.setup : Request → Option PendingSetup
  | confirming _ _ pending _ | saving _ _ pending => some pending
  | _ => none

/-- The account that a request has written to the registry and has still to adopt. -/
def Request.adopted : Request → Option Account
  | adopting _ _ updated => some updated
  | _ => none

def Handler.Offers (h : Handler) (pending : PendingSetup) : Prop :=
  ∃ d s, h.sessions d = some s ∧ s.pending = some pending

/-- The verifier at the address, which is in use, checks this secret. -/
def Handler.Verifies (h : Handler) (address : Nat) (secret : Bytes) : Prop :=
  address < h.made ∧ (h.verifiers address).secret = secret

structure SetupsKept (h h' : Handler) : Prop where
  offers : ∀ p, h'.Offers p → h.Offers p
  verifies : ∀ address secret, h.Verifies address secret → h'.Verifies address secret

/-- What `setupCredential` makes of a form, the salt and the secret. -/
structure Prepared (prim : Primitives) (input : Input) (h' : Handler) (p : PendingSetup) : Prop where
  name : ∃ username, p.name = trimSpace username
  valid : validAccountName p.name = true
  hash : ∃ password, hashPassword prim password input.salt = some p.passwordHash
  secret : p.secret = input.secret
  verifies : h'.Verifies p.secondFactor p.secret

/-- Where the setups after a step come from, and what the step leaves of the verifiers. -/
structure Setups (prim : Primitives) (input : Input) (h : Handler) (r : Request) (h' : Handler)
    (r' : Request) : Prop where
  source : ∀ p, h'.Offers p ∨ r'.setup = some p →
    (h.Offers p ∨ r.setup = some p) ∨ Prepared prim input h' p
  verifies : ∀ address secret, h.Verifies address secret → h'.Verifies address secret
  adopted : ∀ updated, r'.adopted = some updated → ∃ d s p, r = .saving d s p

theorem SetupsKept.refl (h : Handler) : SetupsKept h h := ⟨fun _ hp => hp, fun _ _ hv => hv⟩

theorem Setups.carried {input : Input} {h' : Handler} {r' : Request} (hkept : SetupsKept h h')
    (hsetup : ∀ p, r'.setup = some p → h.Offers p ∨ r.setup = some p) (hr' : r'.adopted = none) :
    Setups prim input h r h' r' := by
  refine ⟨fun p hp => Or.inl ?_, hkept.verifies, fun updated hupdated => ?_⟩
  · rcases hp with hp | hp
    · exact Or.inl (hkept.offers p hp)
    · exact hsetup p hp
  · rw [hr'] at hupdated
    cases hupdated

theorem Setups.plain {input : Input} {h' : Handler} {r' : Request} (hkept : SetupsKept h h')
    (hr' : r'.setup = none ∧ r'.adopted = none) : Setups prim input h r h' r' := by
  refine .carried hkept (fun p hp => ?_) hr'.2
  rw [hr'.1] at hp
  cases hp

theorem unchanged_finished {input : Input} :
    Effect h r h ∧ Follows h r .finished ∧ Setups prim input h r h .finished :=
  ⟨.same h r, trivial, .plain (.refl h) ⟨rfl, rfl⟩⟩

theorem offers_setSession {digest : Digest} {s' : Session}
    (hs' : ∀ p, s'.pending = some p → h.Offers p) (p : PendingSetup)
    (hp : (h.setSession digest s').Offers p) : h.Offers p := by
  obtain ⟨d, s, hd, hs⟩ := hp
  by_cases heq : d = digest
  · subst heq
    simp only [Handler.setSession, Function.update_self, Option.some.injEq] at hd
    exact hs' p (hd ▸ hs)
  · simp only [Handler.setSession, ne_eq, heq, not_false_eq_true, Function.update_of_ne] at hd
    exact ⟨d, s, hd, hs⟩

theorem SetupsKept.set {digest : Digest} {s s' : Session} (hs : h.sessions digest = some s)
    (hpending : s'.pending = s.pending) : SetupsKept h (h.setSession digest s') :=
  ⟨offers_setSession fun _ hp => ⟨digest, s, hs, hpending ▸ hp⟩, fun _ _ hv => hv⟩

theorem SetupsKept.delete {digest : Digest} : SetupsKept h (h.deleteSession digest) := by
  refine ⟨fun p ⟨d, s, hd, hs⟩ => ?_, fun _ _ hv => hv⟩
  by_cases heq : d = digest
  · subst heq
    simp [Handler.deleteSession] at hd
  · simp only [Handler.deleteSession, ne_eq, heq, not_false_eq_true, Function.update_of_ne] at hd
    exact ⟨d, s, hd, hs⟩

theorem SetupsKept.verify (address : Nat) (presented : Bytes) (now : Time) :
    SetupsKept h (h.verify prim address presented now).1 := by
  refine ⟨fun _ hp => hp, fun a secret hv => ⟨hv.1, ?_⟩⟩
  rw [← hv.2]
  by_cases ha : a = address
  · subst ha
    simp only [Handler.verify, Function.update_self]
    exact TotpVerifier.verify_secret _ _ _
  · simp only [Handler.verify, ne_eq, ha, not_false_eq_true, Function.update_of_ne]

theorem SetupsKept.consumeRecoveryCode (candidate : Bytes) (now : Time) :
    SetupsKept h (h.consumeRecoveryCode prim candidate now).1 := by
  unfold Handler.consumeRecoveryCode
  split
  · exact .refl h
  · exact ⟨fun _ hp => hp, fun _ _ hv => hv⟩

theorem SetupsKept.currentSession (digest : Digest) (now : Time) :
    SetupsKept h (h.currentSession digest now).1 := by
  unfold Handler.currentSession
  split
  · exact .refl h
  · split
    · exact .refl h
    · exact .delete

theorem SetupsKept.startSession (digest : Digest) (csrfToken : Bytes) (origin : Origin)
    (now : Time) : SetupsKept h (h.startSession digest csrfToken origin now) :=
  ⟨fun p hp => offers_setSession (fun _ hnone => by cases hnone) p hp, fun _ _ hv => hv⟩

theorem SetupsKept.finishAction (digest : Digest) (message : FlashMessage) :
    SetupsKept h (h.finishAction digest message) := by
  unfold Handler.finishAction
  split
  · exact .refl h
  · rename_i current hs
    exact .set hs rfl

theorem SetupsKept.takeFlash (digest : Digest) : SetupsKept h (h.takeFlash digest) := by
  unfold Handler.takeFlash
  split
  · exact .refl h
  · rename_i current hs
    split
    · exact .refl h
    · exact .set hs rfl

theorem SetupsKept.adopt (digest : Digest) (stored : Session) (updated : Account) :
    SetupsKept h (h.adopt digest stored updated) := by
  refine ⟨fun p ⟨d, s, hd, hs⟩ => ?_, fun _ _ hv => hv⟩
  simp only [Handler.adopt] at hd
  split at hd
  · cases hd
    cases hs
  · cases hd

/-- The verifier of a new setup is at an address that was not in use. -/
theorem storePending_setups {input : Input} {digest : Digest} {p : PendingSetup} {username : Bytes}
    {password : Bytes} (hname : p.name = trimSpace username) (hvalid : validAccountName p.name = true)
    (hhash : hashPassword prim password input.salt = some p.passwordHash)
    (hsecret : p.secret = input.secret) (haddress : p.secondFactor = h.made) :
    Setups prim input h r (h.storePending digest p) .finished := by
  unfold Handler.storePending
  split
  · exact .plain (.refl h) ⟨rfl, rfl⟩
  · rename_i stored hs
    refine ⟨fun q hq => ?_, fun address secret hv => ⟨Nat.lt_succ_of_lt hv.1, ?_⟩, ?_⟩
    · obtain ⟨d, s, hd, hpending⟩ := hq.resolve_right (by rintro ⟨⟩)
      by_cases heq : d = digest
      · subst heq
        simp only [Handler.setSession, Function.update_self, Option.some.injEq] at hd
        subst hd
        cases hpending
        refine Or.inr ⟨⟨username, hname⟩, hvalid, ⟨password, hhash⟩, hsecret, ?_⟩
        rw [haddress]
        refine ⟨Nat.lt_succ_self _, ?_⟩
        simp only [Function.update_self]
        rfl
      · simp only [Handler.setSession, ne_eq, heq, not_false_eq_true, Function.update_of_ne] at hd
        exact Or.inl (Or.inl ⟨d, s, hd, hpending⟩)
    · have hne : address ≠ p.secondFactor := haddress ▸ Nat.ne_of_lt hv.1
      simp only [ne_eq, hne, not_false_eq_true, Function.update_of_ne]
      exact hv.2
    · rintro updated ⟨⟩

theorem SetupsKept.endSession (digest : Digest) : SetupsKept h (h.endSession digest) :=
  ⟨fun p hp => SetupsKept.delete.offers p hp, fun _ _ hv => hv⟩

/-- The effect of a step, what the request relies on after it, and where its setup comes from. -/
theorem Advances.spec {input : Input} {h' : Handler} {r' : Request}
    (hadvances : Advances prim input h r h' r') :
    Effect h r h' ∧ Follows h r r' ∧ Setups prim input h r h' r' := by
  cases hadvances with
  | refused | unsaved => exact unchanged_finished
  | recovery form _ hr' =>
    refine ⟨consumeRecoveryCode_effect _ _, ?_⟩
    rcases hr' with rfl | rfl
    · exact ⟨trivial, .plain (.consumeRecoveryCode _ _) ⟨rfl, rfl⟩⟩
    · exact ⟨trivial, .plain (.consumeRecoveryCode _ _) ⟨rfl, rfl⟩⟩
  | login form => exact ⟨.same _ _, trivial, .plain (.refl h) ⟨rfl, rfl⟩⟩
  | unverified form current _ _ hr' =>
    rcases hr' with rfl | rfl
    · exact ⟨.same _ _, trivial, .plain (.refl h) ⟨rfl, rfl⟩⟩
    · exact unchanged_finished
  | verified form current address _ _ _ hr' =>
    refine ⟨verify_effect _ _ _, ?_⟩
    rcases hr' with rfl | rfl
    · exact ⟨trivial, .plain (.verify _ _ _) ⟨rfl, rfl⟩⟩
    · exact ⟨trivial, .plain (.verify _ _ _) ⟨rfl, rfl⟩⟩
  | start origin hfresh =>
    exact ⟨.start origin _ _ _ rfl hfresh, trivial, .plain (.startSession _ _ _ _) ⟨rfl, rfl⟩⟩
  | post cookie csrfToken action _ hr' =>
    refine ⟨currentSession_effect _ _, ?_⟩
    rcases hr' with ⟨current, hcurrent, rfl⟩ | rfl
    · exact ⟨(currentSession_some hcurrent).2, .plain (.currentSession _ _) ⟨rfl, rfl⟩⟩
    · exact ⟨trivial, .plain (.currentSession _ _) ⟨rfl, rfl⟩⟩
  | prepare digest current form pending hname hvalid hhash hsecret haddress =>
    exact ⟨storePending_effect _ _, trivial,
      storePending_setups hname hvalid hhash hsecret haddress⟩
  | confirm digest current stored pending totpCode hstored hpending =>
    refine ⟨.same _ _, trivial, .carried (.refl h) (fun p hp => ?_) rfl⟩
    cases hp
    exact Or.inl ⟨digest, stored, hstored, hpending⟩
  | logout digest current =>
    exact ⟨.logout digest current rfl, trivial, .plain (.endSession _) ⟨rfl, rfl⟩⟩
  | manage digest current hmust =>
    exact ⟨.same _ _, ⟨rfl, hmust⟩, .plain (.refl h) ⟨rfl, rfl⟩⟩
  | confirmed digest stored pending totpCode _ hr' =>
    refine ⟨verify_effect _ _ _, ?_⟩
    rcases hr' with rfl | rfl
    · exact ⟨trivial, .carried (.verify _ _ _) (fun _ hp => Or.inr hp) rfl⟩
    · exact ⟨trivial, .plain (.verify _ _ _) ⟨rfl, rfl⟩⟩
  | saved digest stored pending credential _ hr' =>
    have hkept : SetupsKept h { h with stored := some credential } :=
      ⟨fun _ hp => hp, fun _ _ hv => hv⟩
    refine ⟨.save digest stored pending credential rfl, ?_⟩
    rcases hr' with ⟨updated, -, rfl⟩ | rfl
    · refine ⟨trivial, fun p hp => ?_, hkept.verifies, fun _ _ => ⟨digest, stored, pending, rfl⟩⟩
      exact Or.inl (Or.inl (hp.resolve_right (by rintro ⟨⟩)))
    · exact ⟨trivial, .plain hkept ⟨rfl, rfl⟩⟩
  | adopt digest stored updated =>
    exact ⟨.adopt digest stored updated rfl, trivial, .plain (.adopt _ _ _) ⟨rfl, rfl⟩⟩
  | act digest current =>
    exact ⟨finishAction_effect _ _, trivial, .plain (.finishAction _ _) ⟨rfl, rfl⟩⟩
  | browse cookie _ hr' =>
    refine ⟨currentSession_effect _ _, ?_⟩
    rcases hr' with rfl | rfl
    · exact ⟨trivial, .plain (.currentSession _ _) ⟨rfl, rfl⟩⟩
    · exact ⟨trivial, .plain (.currentSession _ _) ⟨rfl, rfl⟩⟩
  | view digest => exact ⟨takeFlash_effect _, trivial, .plain (.takeFlash _) ⟨rfl, rfl⟩⟩

theorem ConsoleStep.spec {t : Nat} {h' : Handler} {r' : Request}
    (hstep : ConsoleStep prim t h r h' r') : Effect h r h' ∧ Follows h r r' := by
  obtain ⟨choice, hnext⟩ := hstep
  unfold consoleNext at hnext
  split at hnext
  · split at hnext
    · rename_i hcall
      cases hnext
      refine ⟨.same _ _, ?_⟩
      cases r' <;> trivial
    · cases hnext
  · split at hnext <;> cases hnext
    exact ⟨.same _ _, trivial⟩
  · obtain ⟨heffect, hfollows, -⟩ := (next_advances hnext).spec
    exact ⟨heffect, hfollows⟩
  · cases hnext

end Effects

/-! ### Sessions that may manage devices -/

/-- The session came of a login that needed more than the published default, or has completed the
setup. -/
def Session.Earned (s : Session) : Prop := s.origin ≠ .default ∨ s.completed = true

instance (s : Session) : Decidable s.Earned := inferInstanceAs (Decidable (_ ∨ _))

/-- A login that the default account let in, when the account has been initialized since. -/
def Handler.outdatedLogin (h : Handler) : Request → Bool
  | .authenticated .default => h.account.initialized
  | _ => false

def TimelyLoginStep (prim : Primitives) (t : Nat) (h : Handler) (r : Request) (h' : Handler)
    (r' : Request) : Prop :=
  ConsoleStep prim t h r h' r' ∧ h.outdatedLogin r = false

/-- What an authorized request knows of its session. -/
def Request.Vetted : Request → Prop
  | authorized _ current _ => current.mustInitialize = false → current.Earned
  | managing _ current => current.Earned
  | _ => True

theorem TimelyLoginStep.own {prim : Primitives} {t : Nat} {h h' : Handler} {r r' : Request}
    (hstep : TimelyLoginStep prim t h r h' r')
    (hs : ∀ d s, h.sessions d = some s → s.mustInitialize = false → s.Earned) (hr : r.Vetted) :
    (∀ d s, h'.sessions d = some s → s.mustInitialize = false → s.Earned) ∧ r'.Vetted := by
  obtain ⟨hstep, htimely⟩ := hstep
  obtain ⟨heffect, hfollows⟩ := hstep.spec
  constructor
  · intro d s hd hmust
    cases heffect with
    | quiet _ hkept =>
      obtain ⟨s₀, hs₀, hsame⟩ := hkept d s hd
      have hearned := hs d s₀ hs₀ (hsame.mustInitialize ▸ hmust)
      rw [Session.Earned, hsame.origin, hsame.completed]
      exact hearned
    | start origin digest csrfToken now hreq hfresh =>
      by_cases hd' : d = digest
      · subst hd'
        simp only [Handler.startSession, Handler.setSession, Function.update_self,
          Option.some.injEq] at hd
        subst hd
        left
        rintro rfl
        rw [hreq] at htimely
        simp only [Handler.outdatedLogin] at htimely
        simp [htimely] at hmust
      · simp only [Handler.startSession, Handler.setSession, ne_eq, hd', not_false_eq_true,
          Function.update_of_ne] at hd
        exact hs d s hd hmust
    | logout digest current hreq =>
      obtain ⟨s₀, hs₀, hsame⟩ := SessionsKept.delete d s hd
      have hearned := hs d s₀ hs₀ (hsame.mustInitialize ▸ hmust)
      rw [Session.Earned, hsame.origin, hsame.completed]
      exact hearned
    | save digest stored pending credential hreq => exact hs d s hd hmust
    | adopt digest stored updated hreq =>
      simp only [Handler.adopt] at hd
      split at hd
      · cases hd
        exact Or.inr rfl
      · cases hd
  · cases r' with
    | authorized digest current action => exact hs digest current hfollows
    | managing digest current =>
      obtain ⟨rfl, hmust⟩ := hfollows
      exact hr hmust
    | _ => trivial

/-- From any stored account, in every interleaving in which no login that the default account let
in starts its session after the account was initialized: a session that need not initialize was
earned, and so was each session that `authorizeManagementPost` accepted. -/
theorem management_sessions_earned {prim : Primitives} {stored : Option AdministratorCredential}
    {recoveryCode : Bytes} {now : Time} {start c : Threads Handler Request}
    (hstart : newHandler prim stored recoveryCode now = some start)
    (hrun : Threads.Reaches (TimelyLoginStep prim) start c) :
    (∀ d s, c.shared.sessions d = some s → s.mustInitialize = false → s.Earned) ∧
      ∀ t d current, c.thread t = .managing d current → current.Earned := by
  have hinitial : (∀ d s, start.shared.sessions d = some s → s.mustInitialize = false → s.Earned) ∧
      ∀ t, (start.thread t).Vetted := by
    obtain ⟨hsessions, -, -, hthreads⟩ := newHandler_some hstart
    rw [hsessions, hthreads]
    exact ⟨fun _ _ h => absurd h (by simp), fun _ => trivial⟩
  obtain ⟨hsessions, hthreads⟩ := hrun.invariant
    (P := fun _ _ r => r.Vetted) (fun _ _ _ _ _ hstep hs hr => hstep.own hs hr)
    (fun _ _ _ _ _ _ _ _ _ _ _ hk => hk) hinitial
  refine ⟨hsessions, fun t d current ht => ?_⟩
  have hvetted := hthreads t
  rw [ht] at hvetted
  exact hvetted

/-- Two logins with the default credentials.  The first session completes the setup between the
check of the second login and the start of its session. -/
def outdatedSchedule : List (Nat × Choice) :=
  serve 0 defaultLogin 3 [1] ++ serve 1 defaultLogin 2 [2] ++ startSetup 2 [1] ++
    confirmSetup 3 [1] 5 ++ [(1, .go (sampleInput [2]))] ++ serve 4 (samplePost [2] .manage) 2 []

theorem default_login_manages_devices :
    ∃ c digest s, Threads.Reaches (ConsoleStep samplePrimitives) sampleConsole c ∧
      c.shared.sessions digest = some s ∧ s.mustInitialize = false ∧ ¬ s.Earned ∧
      c.thread 4 = .managing digest s := by
  let c := Threads.scheduled (consoleNext samplePrimitives) sampleConsole outdatedSchedule
  let s : Session := ⟨[7], later sampleNow sessionLifetime, none, false, none, .default, false⟩
  obtain ⟨hfollows, hsession⟩ :
      (Threads.follow (consoleNext samplePrimitives) sampleConsole outdatedSchedule).isSome = true ∧
      c.shared.sessions (samplePrimitives.sha256 [2]) = some s ∧ s.mustInitialize = false ∧
      ¬ s.Earned ∧ c.thread 4 = .managing (samplePrimitives.sha256 [2]) s := by
    decide +kernel
  have hrun : Threads.Reaches (ConsoleStep samplePrimitives) sampleConsole c :=
    Threads.reaches_scheduled (fun choice _ _ _ _ _ h => ⟨choice, h⟩) hfollows
  exact ⟨c, samplePrimitives.sha256 [2], s, hrun, hsession⟩

/-- One login with the default credentials that completes the setup and then manages devices. -/
theorem management_sessions_earned_setup :
    ∃ c digest s, newHandler samplePrimitives none [] sampleNow = some sampleConsole ∧
      Threads.Reaches (TimelyLoginStep samplePrimitives) sampleConsole c ∧
      c.thread 3 = .managing digest s ∧ s.Earned := by
  let schedule := serve 0 defaultLogin 3 [1] ++ startSetup 1 [1] ++ confirmSetup 2 [1] 5 ++
    serve 3 (samplePost [1] .manage) 2 []
  let next := Threads.guarded Handler.outdatedLogin (consoleNext samplePrimitives)
  let c := Threads.scheduled next sampleConsole schedule
  obtain ⟨hfollows, hmanaging⟩ : (Threads.follow next sampleConsole schedule).isSome = true ∧
      c.thread 3 = .managing (samplePrimitives.sha256 [1])
        ⟨[7], later sampleNow sessionLifetime, some Handler.credentialUpdated, false, none, .default,
          true⟩ := by
    decide +kernel
  have hrun : Threads.Reaches (TimelyLoginStep samplePrimitives) sampleConsole c :=
    Threads.reaches_scheduled (fun choice _ _ _ _ _ h =>
      ⟨⟨choice, (Threads.guarded_some h).1⟩, (Threads.guarded_some h).2⟩) hfollows
  exact ⟨c, _, _, sampleConsole_new, hrun, hmanaging,
    (management_sessions_earned sampleConsole_new hrun).2 3 _ _ hmanaging⟩

/-! ### Sessions that have ended -/

/-- A request that is to write the credential or the account for a session that is gone. -/
def Handler.vanishedSession (h : Handler) : Request → Bool
  | .saving digest _ _ | .adopting digest _ _ => (h.sessions digest).isNone
  | _ => false

def PresentStep (prim : Primitives) (t : Nat) (h : Handler) (r : Request) (h' : Handler)
    (r' : Request) : Prop :=
  ConsoleStep prim t h r h' r' ∧ h.vanishedSession r = false

/-- The session that a request belongs to. -/
def Request.session (prim : Primitives) : Request → Option Digest
  | post cookie _ _ | browsing cookie => some (prim.sha256 cookie)
  | authorized digest _ _ | confirming digest _ _ _ | saving digest _ _ | adopting digest _ _
  | managing digest _ | viewing digest => some digest
  | _ => none

/-- Sessions were issued, and those that ended are gone. -/
structure Handler.Ended (h : Handler) : Prop where
  issued : ∀ x s, h.sessions x = some s → x ∈ h.issued
  ended_issued : ∀ x ∈ h.ended, x ∈ h.issued
  absent : ∀ x ∈ h.ended, h.sessions x = none

def Request.Known (h : Handler) : Request → Prop
  | authorized digest _ _ => digest ∈ h.issued
  | _ => True

theorem Effect.grows {h h' : Handler} {r : Request} (heffect : Effect h r h') :
    h.issued ⊆ h'.issued ∧ h.ended ⊆ h'.ended := by
  cases heffect with
  | quiet _ _ _ _ hissued hended => exact ⟨hissued ▸ fun _ h => h, hended ▸ fun _ h => h⟩
  | start => exact ⟨fun _ h => List.mem_cons_of_mem _ h, fun _ h => h⟩
  | logout => exact ⟨fun _ h => h, fun _ h => List.mem_cons_of_mem _ h⟩
  | save => exact ⟨fun _ h => h, fun _ h => h⟩
  | adopt => exact ⟨fun _ h => h, fun _ h => List.mem_append_right _ h⟩

section Ended

variable {h h' : Handler} {digest : Digest}

theorem Handler.Ended.kept (hh : h.Ended) (hkept : SessionsKept h h') (hissued : h'.issued = h.issued)
    (hended : h'.ended = h.ended) : h'.Ended := by
  refine ⟨fun x s hx => ?_, fun x hx => ?_, fun x hx => ?_⟩
  · obtain ⟨s₀, hs₀, -⟩ := hkept x s hx
    rw [hissued]
    exact hh.issued x s₀ hs₀
  · rw [hissued]
    exact hh.ended_issued x (hended ▸ hx)
  · cases hs : h'.sessions x with
    | none => rfl
    | some s =>
      obtain ⟨s₀, hs₀, -⟩ := hkept x s hs
      rw [hh.absent x (hended ▸ hx)] at hs₀
      cases hs₀

theorem Handler.Ended.startSession (hh : h.Ended) (hfresh : digest ∉ h.issued) (csrfToken : Bytes)
    (origin : Origin) (now : Time) : (h.startSession digest csrfToken origin now).Ended := by
  refine ⟨fun x s hx => ?_, fun x hx => ?_, fun x hx => ?_⟩
  · by_cases hd : x = digest
    · exact hd ▸ List.mem_cons_self
    · simp only [Handler.startSession, Handler.setSession, ne_eq, hd, not_false_eq_true,
        Function.update_of_ne] at hx
      exact List.mem_cons_of_mem _ (hh.issued x s hx)
  · exact List.mem_cons_of_mem _ (hh.ended_issued x hx)
  · have hd : x ≠ digest := fun hd => hfresh (hd ▸ hh.ended_issued x hx)
    simpa [Handler.startSession, Handler.setSession, hd] using hh.absent x hx

theorem Handler.Ended.endSession (hh : h.Ended) (hdigest : digest ∈ h.issued) :
    (h.endSession digest).Ended := by
  refine ⟨fun x s hx => ?_, fun x hx => ?_, fun x hx => ?_⟩
  · obtain ⟨s₀, hs₀, -⟩ := SessionsKept.delete x s hx
    exact hh.issued x s₀ hs₀
  · rcases List.mem_cons.mp hx with rfl | hx
    · exact hdigest
    · exact hh.ended_issued x hx
  · by_cases hd : x = digest
    · simp [Handler.endSession, Handler.deleteSession, hd]
    · rcases List.mem_cons.mp hx with hx | hx
      · exact absurd hx hd
      · simpa [Handler.endSession, Handler.deleteSession, hd] using hh.absent x hx

/-- The session is still there, so it is none of those that ended. -/
theorem Handler.Ended.adopt (hh : h.Ended) {s₀ : Session} (hs₀ : h.sessions digest = some s₀)
    (stored : Session) (updated : Account) : (h.adopt digest stored updated).Ended := by
  have hlive : digest ∉ h.ended := by
    intro hx
    rw [hh.absent digest hx] at hs₀
    cases hs₀
  refine ⟨fun x s hx => ?_, fun x hx => ?_, fun x hx => ?_⟩
  · simp only [Handler.adopt] at hx
    split at hx
    · rename_i hd
      exact hd ▸ hh.issued digest s₀ hs₀
    · cases hx
  · rcases List.mem_append.mp hx with hx | hx
    · exact (List.mem_filter.mp hx).1
    · exact hh.ended_issued x hx
  · have hd : x ≠ digest := by
      rcases List.mem_append.mp hx with hx | hx
      · simpa using (List.mem_filter.mp hx).2
      · exact fun hd => hlive (hd ▸ hx)
    simp [Handler.adopt, hd]

end Ended

theorem PresentStep.ended {prim : Primitives} {t : Nat} {h h' : Handler} {r r' : Request}
    (hstep : PresentStep prim t h r h' r') (hh : h.Ended) (hr : r.Known h) : h'.Ended := by
  obtain ⟨hstep, hpresent⟩ := hstep
  cases hstep.spec.1 with
  | quiet _ hkept _ _ hissued hended => exact hh.kept hkept hissued hended
  | start origin digest csrfToken now hreq hfresh => exact hh.startSession hfresh csrfToken origin now
  | logout digest current hreq =>
    rw [hreq] at hr
    exact hh.endSession hr
  | save digest stored pending credential hreq => exact ⟨hh.issued, hh.ended_issued, hh.absent⟩
  | adopt digest stored updated hreq =>
    rw [hreq] at hpresent
    simp only [Handler.vanishedSession, Option.isNone_eq_false_iff] at hpresent
    obtain ⟨s₀, hs₀⟩ := Option.isSome_iff_exists.mp hpresent
    exact hh.adopt hs₀ stored updated

theorem ended_invariant {prim : Primitives} {stored : Option AdministratorCredential}
    {recoveryCode : Bytes} {now : Time} {start c : Threads Handler Request}
    (hstart : newHandler prim stored recoveryCode now = some start)
    (hrun : Threads.Reaches (PresentStep prim) start c) : c.shared.Ended := by
  obtain ⟨hsessions, hissued, hended, hthreads⟩ := newHandler_some hstart
  have hinitial : start.shared.Ended ∧ ∀ t, (start.thread t).Known start.shared := by
    refine ⟨⟨?_, ?_, ?_⟩, ?_⟩
    · rw [hsessions]
      exact fun _ _ h => absurd h (by simp)
    · simp [hended]
    · simp [hended]
    · rw [hthreads]
      exact fun _ => trivial
  refine (hrun.invariant (P := fun h _ r => r.Known h) ?_ ?_ hinitial).1
  · intro t h r h' r' hstep hh hr
    refine ⟨hstep.ended hh hr, ?_⟩
    obtain ⟨heffect, hfollows⟩ := hstep.1.spec
    cases r' with
    | authorized digest current action => exact heffect.grows.1 (hh.issued digest current hfollows)
    | _ => trivial
  · intro t h r h' r' hstep _ _ u k _ hk
    have hgrows := hstep.1.spec.1.grows.1
    cases k with
    | authorized digest current action => exact hgrows hk
    | _ => trivial

/-- From any stored account, in every interleaving in which a request writes the credential or the
account only while its session is still there: a session that a logout or another session's
replacement of the credential ended is never there again, and no request that belongs to it changes
the account or the stored credential. -/
theorem ended_sessions_stay_ended {prim : Primitives} {stored : Option AdministratorCredential}
    {recoveryCode : Bytes} {now : Time} {start c c' : Threads Handler Request}
    (hstart : newHandler prim stored recoveryCode now = some start)
    (hrun : Threads.Reaches (PresentStep prim) start c) {x : Digest} (hx : x ∈ c.shared.ended)
    (hlater : Threads.Reaches (PresentStep prim) c c') :
    c'.shared.sessions x = none ∧
      ∀ t h' r', PresentStep prim t c'.shared (c'.thread t) h' r' →
        (c'.thread t).session prim = some x →
        h'.account = c'.shared.account ∧ h'.stored = c'.shared.stored := by
  have hended : x ∈ c'.shared.ended := by
    clear hrun
    induction hlater with
    | refl => exact hx
    | tail _ hstep ih =>
      cases hstep with
      | of t hstep => exact hstep.1.spec.1.grows.2 ih
  have habsent := (ended_invariant hstart (hrun.trans hlater)).absent x hended
  refine ⟨habsent, fun t h' r' hstep hsession => ?_⟩
  obtain ⟨hstep, hpresent⟩ := hstep
  cases hstep.spec.1 with
  | quiet _ _ haccount hstored _ _ => exact ⟨haccount, hstored⟩
  | start => exact ⟨rfl, rfl⟩
  | logout => exact ⟨rfl, rfl⟩
  | save digest _ pending credential hreq =>
    rw [hreq] at hpresent hsession
    cases hsession
    simp [Handler.vanishedSession, habsent] at hpresent
  | adopt digest _ updated hreq =>
    rw [hreq] at hpresent hsession
    cases hsession
    simp [Handler.vanishedSession, habsent] at hpresent

/-- A session logs out while its own setup has still to write the credential. -/
def vanishedSchedule : List (Nat × Choice) :=
  serve 0 defaultLogin 3 [1] ++ startSetup 1 [1] ++ confirmSetup 2 [1] 3 ++
    serve 3 (samplePost [1] .logout) 2 []

theorem ended_session_returns :
    ∃ c c' digest, Threads.Reaches (ConsoleStep samplePrimitives) sampleConsole c ∧
      digest ∈ c.shared.ended ∧ c.shared.sessions digest = none ∧
      c.shared.account.initialized = false ∧ c.shared.stored = none ∧
      Threads.Reaches (ConsoleStep samplePrimitives) c c' ∧
      (c.thread 2).session samplePrimitives = some digest ∧
      (∀ t, t ≠ 2 → c'.thread t = c.thread t) ∧
      (c'.shared.sessions digest).isSome = true ∧ c'.shared.account.initialized = true ∧
      c'.shared.stored.isSome = true := by
  let c := Threads.scheduled (consoleNext samplePrimitives) sampleConsole vanishedSchedule
  let rest : List (Nat × Choice) := List.replicate 2 (2, .go (sampleInput []))
  have hnext : ∀ choice t h r h' r', consoleNext samplePrimitives choice t h r = some (h', r') →
      ConsoleStep samplePrimitives t h r h' r' := fun choice _ _ _ _ _ h => ⟨choice, h⟩
  let c' := Threads.scheduled (consoleNext samplePrimitives) c rest
  obtain ⟨hfollows, hends, hsession, hrest, hreturns⟩ :
      (Threads.follow (consoleNext samplePrimitives) sampleConsole vanishedSchedule).isSome = true ∧
      (samplePrimitives.sha256 [1] ∈ c.shared.ended ∧
        c.shared.sessions (samplePrimitives.sha256 [1]) = none ∧
        c.shared.account.initialized = false ∧ c.shared.stored = none) ∧
      (c.thread 2).session samplePrimitives = some (samplePrimitives.sha256 [1]) ∧
      (Threads.follow (consoleNext samplePrimitives) c rest).isSome = true ∧
      (c'.shared.sessions (samplePrimitives.sha256 [1])).isSome = true ∧
      c'.shared.account.initialized = true ∧ c'.shared.stored.isSome = true := by
    decide +kernel
  obtain ⟨hended, hnone, hfresh, hstored⟩ := hends
  have hother : ∀ t, t ≠ 2 → c'.thread t = c.thread t := fun t ht =>
    Threads.scheduled_thread (by simpa [rest] using ht)
  exact ⟨c, c', samplePrimitives.sha256 [1], Threads.reaches_scheduled hnext hfollows, hended, hnone,
    hfresh, hstored, Threads.reaches_scheduled hnext hrest, hsession, hother, hreturns⟩

/-- A login and its logout. -/
theorem ended_sessions_stay_ended_logout :
    ∃ c x, newHandler samplePrimitives none [] sampleNow = some sampleConsole ∧
      Threads.Reaches (PresentStep samplePrimitives) sampleConsole c ∧ x ∈ c.shared.ended ∧
      c.shared.sessions x = none := by
  let next := Threads.guarded Handler.vanishedSession (consoleNext samplePrimitives)
  let schedule := serve 0 defaultLogin 3 [1] ++ serve 1 (samplePost [1] .logout) 2 []
  let c := Threads.scheduled next sampleConsole schedule
  obtain ⟨hfollows, hended⟩ : (Threads.follow next sampleConsole schedule).isSome = true ∧
      samplePrimitives.sha256 [1] ∈ c.shared.ended := by
    decide +kernel
  have hrun : Threads.Reaches (PresentStep samplePrimitives) sampleConsole c :=
    Threads.reaches_scheduled (fun choice _ _ _ _ _ h =>
      ⟨⟨choice, (Threads.guarded_some h).1⟩, (Threads.guarded_some h).2⟩) hfollows
  exact ⟨c, _, sampleConsole_new, hrun, hended,
    (ended_sessions_stay_ended sampleConsole_new hrun hended .refl).1⟩

end SevenMirror.Console
