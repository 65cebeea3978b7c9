import SevenMirror.Console.Account
import SevenMirror.Lib.Threads

/-! The sessions of `internal/adminweb/handler.go`.  A request is a thread; each critical section of
the handler lock, each check of a second factor, and each write to the registry is one step. -/

namespace SevenMirror.Console

open Lib

abbrev Digest := Block 32

def sessionLifetime : Int := 8 * 60 * 60 * 1000000000

def setupPendingLifetime : Int := 10 * 60 * 1000000000

def later (t : Time) (nanos : Int) : Time := ⟨t.nanos + nanos⟩

structure FlashMessage where
  kind : Bytes
  message : Bytes
  secret : Bytes
deriving DecidableEq, Repr

/-- A credential change that waits for its first code; `secondFactor` is the address of its
verifier. -/
structure PendingSetup where
  name : Bytes
  passwordHash : Bytes
  secret : Bytes
  secondFactor : Nat
  expiresAt : Time
deriving DecidableEq, Repr

/-- What authenticated a login: the published default, an initialized account, or the recovery
code. -/
inductive Origin
  | default
  | administrator
  | recovery
deriving DecidableEq, Repr

/-- A session.  `origin` and `completed` are history: what authenticated the login, and whether the
session has completed `setupSecondFactor`.  No step reads them. -/
structure Session where
  csrfToken : Bytes
  expiresAt : Time
  flash : Option FlashMessage
  mustInitialize : Bool
  pending : Option PendingSetup
  origin : Origin
  completed : Bool
deriving DecidableEq, Repr

/-- The handler, the row of the registry, and the verifiers by address.  `issued` and `ended` are
history: the sessions ever inserted, and those that a logout or a replacement of the credential
ended. -/
structure Handler where
  account : Account
  recoveryUsed : Bool
  recoveryDigest : Digest
  recoveryExpiresAt : Time
  sessions : Digest → Option Session
  stored : Option AdministratorCredential
  verifiers : Nat → TotpVerifier
  made : Nat
  issued : List Digest
  ended : List Digest

structure LoginForm where
  recoveryCode : Bytes
  username : Bytes
  password : Bytes
  totpCode : Bytes
deriving DecidableEq, Repr

structure SetupForm where
  username : Bytes
  password : Bytes
  passwordConfirm : Bytes
deriving DecidableEq, Repr

/-- The posts that a session authorizes. -/
inductive Post
  | setupCredential (form : SetupForm)
  | setupSecondFactor (totpCode : Bytes)
  | logout
  | manage
deriving DecidableEq, Repr

/-- Where a request stands.  `checking` has read the account; `confirming` has read the session and
its pending setup, `saving` has seen the right code, and `adopting` has written the registry;
`managing` was accepted by `authorizeManagementPost`. -/
inductive Request
  | idle
  | login (form : LoginForm)
  | checking (form : LoginForm) (current : Account)
  | authenticated (origin : Origin)
  | post (cookie csrfToken : Bytes) (action : Post)
  | authorized (digest : Digest) (current : Session) (action : Post)
  | confirming (digest : Digest) (stored : Session) (pending : PendingSetup) (totpCode : Bytes)
  | saving (digest : Digest) (stored : Session) (pending : PendingSetup)
  | adopting (digest : Digest) (stored : Session) (updated : Account)
  | managing (digest : Digest) (current : Session)
  | browsing (cookie : Bytes)
  | viewing (digest : Digest)
  | finished
deriving DecidableEq, Repr

/-- What a step draws from outside: the clock, random tokens, the salt and secret of a new
credential, the message of a finished action, and whether the registry fails. -/
structure Input where
  now : Time
  token : Bytes
  csrfToken : Bytes
  salt : Bytes
  secret : Bytes
  flash : FlashMessage
  failure : Bool

namespace Handler

variable (prim : Primitives)

def setSession (h : Handler) (digest : Digest) (s : Session) : Handler :=
  { h with sessions := Function.update h.sessions digest (some s) }

def deleteSession (h : Handler) (digest : Digest) : Handler :=
  { h with sessions := Function.update h.sessions digest none }

/-- The check of a code by the verifier at an address. -/
def verify (h : Handler) (address : Nat) (presented : Bytes) (now : Time) : Handler × Bool :=
  let (v, accepted) := (h.verifiers address).verify prim presented now
  ({ h with verifiers := Function.update h.verifiers address v }, accepted)

def consumeRecoveryCode (h : Handler) (candidate : Bytes) (now : Time) : Handler × Bool :=
  if h.recoveryUsed ∨ ¬ h.recoveryExpiresAt.after now ∨ prim.sha256 candidate ≠ h.recoveryDigest then
    (h, false)
  else ({ h with recoveryUsed := true }, true)

/-- `currentSession`, for the digest of the cookie. -/
def currentSession (h : Handler) (digest : Digest) (now : Time) : Handler × Option Session :=
  match h.sessions digest with
  | none => (h, none)
  | some current =>
    if current.expiresAt.after now then (h, some current) else (h.deleteSession digest, none)

/-- The critical section that starts a session. -/
def startSession (h : Handler) (digest : Digest) (csrfToken : Bytes) (origin : Origin)
    (now : Time) : Handler :=
  { h.setSession digest
      { csrfToken, expiresAt := later now sessionLifetime, flash := none
        mustInitialize := !h.account.initialized, pending := none, origin, completed := false } with
    issued := digest :: h.issued }

/-- The critical section that remembers a pending setup, for a session that is still there.  The
verifier of the setup is new. -/
def storePending (h : Handler) (digest : Digest) (pending : PendingSetup) : Handler :=
  match h.sessions digest with
  | none => h
  | some stored =>
    { h.setSession digest { stored with pending := some pending } with
      verifiers := Function.update h.verifiers pending.secondFactor (newTOTPVerifier pending.secret)
      made := h.made + 1 }

/-- The message after a change of the credential. -/
def credentialUpdated : FlashMessage where
  kind := "success".toUTF8.toList
  message := "凭据已更新。下次登录请使用新的用户名、密码和动态验证码。".toUTF8.toList
  secret := []

/-- The last critical section of `setupSecondFactor`. -/
def adopt (h : Handler) (digest : Digest) (stored : Session) (updated : Account) : Handler :=
  { h with
    account := updated
    sessions := fun key =>
      if key = digest then
        some { stored with
          pending := none, mustInitialize := false, flash := some credentialUpdated
          completed := true }
      else none
    ended := h.issued.filter (· ≠ digest) ++ h.ended }

/-- The critical section of `logout`. -/
def endSession (h : Handler) (digest : Digest) : Handler :=
  { h.deleteSession digest with ended := digest :: h.ended }

def finishAction (h : Handler) (digest : Digest) (message : FlashMessage) : Handler :=
  match h.sessions digest with
  | none => h
  | some current => h.setSession digest { current with flash := some message }

def takeFlash (h : Handler) (digest : Digest) : Handler :=
  match h.sessions digest with
  | none => h
  | some current =>
    if current.flash = none then h else h.setSession digest { current with flash := none }

/-- The step of a request that goes on. -/
def next (input : Input) (h : Handler) : Request → Option (Handler × Request)
  | .idle | .finished => none
  | .login form =>
    let candidate := trimSpace form.recoveryCode
    if candidate ≠ [] then
      let (h', accepted) := h.consumeRecoveryCode prim candidate input.now
      some (h', if accepted then .authenticated .recovery else .finished)
    else some (h, .checking form h.account)
  | .checking form current =>
    if ¬ (current.nameMatches prim (trimSpace form.username) ∧
        current.passwordMatches prim form.password) then some (h, .finished)
    else if ¬ current.initialized then some (h, .authenticated .default)
    else
      match current.secondFactor with
      | none => none
      | some address =>
        let (h', accepted) := h.verify prim address form.totpCode input.now
        some (h', if accepted then .authenticated .administrator else .finished)
  | .authenticated origin =>
    let digest := prim.sha256 input.token
    -- the tokens are random, and no two sessions share one
    if digest ∈ h.issued then none
    else some (h.startSession digest input.csrfToken origin input.now, .finished)
  | .post cookie csrfToken action =>
    if cookie = [] then some (h, .finished)
    else
      match h.currentSession (prim.sha256 cookie) input.now with
      | (h', none) => some (h', .finished)
      | (h', some current) =>
        some (h', if csrfToken = current.csrfToken then
          .authorized (prim.sha256 cookie) current action else .finished)
  | .authorized digest _ (.setupCredential form) =>
    let name := trimSpace form.username
    if ¬ validAccountName name ∨ form.passwordConfirm ≠ form.password ∨
        ¬ validNewPassword prim form.password then some (h, .finished)
    else
      match hashPassword prim form.password input.salt with
      | none => some (h, .finished)
      | some encoded =>
        some (h.storePending digest
          ⟨name, encoded, input.secret, h.made, later input.now setupPendingLifetime⟩, .finished)
  | .authorized digest _ (.setupSecondFactor totpCode) =>
    match h.sessions digest with
    | none => some (h, .finished)
    | some stored =>
      match stored.pending with
      | none => some (h, .finished)
      | some pending =>
        if pending.expiresAt.after input.now then
          some (h, .confirming digest stored pending totpCode)
        else some (h, .finished)
  | .authorized digest _ .logout => some (h.endSession digest, .finished)
  | .authorized digest current .manage =>
    some (h, if current.mustInitialize then .finished else .managing digest current)
  | .confirming digest stored pending totpCode =>
    let (h', accepted) := h.verify prim pending.secondFactor totpCode input.now
    some (h', if accepted then .saving digest stored pending else .finished)
  | .saving digest stored pending =>
    let credential : AdministratorCredential :=
      ⟨pending.name, pending.passwordHash, encodeTOTPSecret pending.secret, input.now⟩
    if input.failure ∨ ¬ validAdministratorCredential credential then some (h, .finished)
    else
      match accountFromCredential credential pending.secondFactor with
      | none => some ({ h with stored := some credential }, .finished)
      | some updated => some ({ h with stored := some credential }, .adopting digest stored updated)
  | .adopting digest stored updated => some (h.adopt digest stored updated, .finished)
  | .managing digest _ => some (h.finishAction digest input.flash, .finished)
  | .browsing cookie =>
    if cookie = [] then some (h, .finished)
    else
      match h.currentSession (prim.sha256 cookie) input.now with
      | (h', none) => some (h', .finished)
      | (h', some current) =>
        some (h', if current.mustInitialize then .finished else .viewing (prim.sha256 cookie))
  | .viewing digest => some (h.takeFlash digest, .finished)

end Handler

/-- The positions in which a request arrives. -/
def Request.arrives : Request → Bool
  | login _ | post _ _ _ | browsing _ => true
  | _ => false

/-- The positions in which a request may be turned away: by a limiter, for its origin or its form,
or because no random token was to be had. -/
def Request.refusable : Request → Bool
  | login _ | authenticated _ | post _ _ _ | authorized _ _ _ | browsing _ => true
  | _ => false

/-- How a request goes on: what a step makes of the handler, and where the request stands then. -/
inductive Advances (prim : Primitives) (input : Input) (h : Handler) :
    Request → Handler → Request → Prop
  | refused (r : Request) : r.refusable = true → Advances prim input h r h .finished
  | recovery (form : LoginForm) (r' : Request) : r' = .authenticated .recovery ∨ r' = .finished →
      Advances prim input h (.login form)
        (h.consumeRecoveryCode prim (trimSpace form.recoveryCode) input.now).1 r'
  | login (form : LoginForm) : Advances prim input h (.login form) h (.checking form h.account)
  | unverified (form : LoginForm) (current : Account) (r' : Request) :
      ¬ (current.nameMatches prim (trimSpace form.username) ∧
        current.passwordMatches prim form.password ∧ current.initialized) →
      r' = .authenticated .default ∨ r' = .finished →
      Advances prim input h (.checking form current) h r'
  | verified (form : LoginForm) (current : Account) (address : Nat) (r' : Request) :
      current.nameMatches prim (trimSpace form.username) ∧
        current.passwordMatches prim form.password ∧ current.initialized →
      current.secondFactor = some address →
      r' = .authenticated .administrator ∨ r' = .finished →
      Advances prim input h (.checking form current)
        (h.verify prim address form.totpCode input.now).1 r'
  | start (origin : Origin) : prim.sha256 input.token ∉ h.issued →
      Advances prim input h (.authenticated origin)
        (h.startSession (prim.sha256 input.token) input.csrfToken origin input.now) .finished
  | post (cookie csrfToken : Bytes) (action : Post) (r' : Request) :
      (∃ current, (h.currentSession (prim.sha256 cookie) input.now).2 = some current ∧
        r' = .authorized (prim.sha256 cookie) current action) ∨ r' = .finished →
      Advances prim input h (.post cookie csrfToken action)
        (h.currentSession (prim.sha256 cookie) input.now).1 r'
  | prepare (digest : Digest) (current : Session) (form : SetupForm) (pending : PendingSetup) :
      pending.name = trimSpace form.username → validAccountName pending.name = true →
      hashPassword prim form.password input.salt = some pending.passwordHash →
      pending.secret = input.secret → pending.secondFactor = h.made →
      Advances prim input h (.authorized digest current (.setupCredential form))
        (h.storePending digest pending) .finished
  | confirm (digest : Digest) (current stored : Session) (pending : PendingSetup)
      (totpCode : Bytes) : h.sessions digest = some stored → stored.pending = some pending →
      Advances prim input h (.authorized digest current (.setupSecondFactor totpCode)) h
        (.confirming digest stored pending totpCode)
  | logout (digest : Digest) (current : Session) :
      Advances prim input h (.authorized digest current .logout) (h.endSession digest) .finished
  | manage (digest : Digest) (current : Session) : current.mustInitialize = false →
      Advances prim input h (.authorized digest current .manage) h (.managing digest current)
  | confirmed (digest : Digest) (stored : Session) (pending : PendingSetup) (totpCode : Bytes)
      (r' : Request) : r' = .saving digest stored pending ∨ r' = .finished →
      Advances prim input h (.confirming digest stored pending totpCode)
        (h.verify prim pending.secondFactor totpCode input.now).1 r'
  | unsaved (digest : Digest) (stored : Session) (pending : PendingSetup) :
      Advances prim input h (.saving digest stored pending) h .finished
  | saved (digest : Digest) (stored : Session) (pending : PendingSetup)
      (credential : AdministratorCredential) (r' : Request) :
      (∃ updated, accountFromCredential credential pending.secondFactor = some updated ∧
        r' = .adopting digest stored updated) ∨ r' = .finished →
      Advances prim input h (.saving digest stored pending) { h with stored := some credential } r'
  | adopt (digest : Digest) (stored : Session) (updated : Account) :
      Advances prim input h (.adopting digest stored updated) (h.adopt digest stored updated)
        .finished
  | act (digest : Digest) (current : Session) :
      Advances prim input h (.managing digest current) (h.finishAction digest input.flash) .finished
  | browse (cookie : Bytes) (r' : Request) : r' = .viewing (prim.sha256 cookie) ∨ r' = .finished →
      Advances prim input h (.browsing cookie)
        (h.currentSession (prim.sha256 cookie) input.now).1 r'
  | view (digest : Digest) :
      Advances prim input h (.viewing digest) (h.takeFlash digest) .finished

section Advances

variable {prim : Primitives} {input : Input} {h h' : Handler} {r r' : Request}

-- each lemma of the section unfolds the step at one position
attribute [local simp] Handler.next

theorem advances_checking {form : LoginForm} {current : Account}
    (hnext : h.next prim input (.checking form current) = some (h', r')) :
    Advances prim input h (.checking form current) h' r' := by
  simp only [Handler.next] at hnext
  split at hnext
  · rename_i hmatches
    cases hnext
    exact .unverified form current _ (fun hall => hmatches ⟨hall.1, hall.2.1⟩) (Or.inr rfl)
  · rename_i hmatches
    have hboth := Decidable.not_not.mp hmatches
    split at hnext
    · rename_i hinitialized
      cases hnext
      exact .unverified form current _ (fun hall => hinitialized hall.2.2) (Or.inl rfl)
    · rename_i hinitialized
      split at hnext
      · cases hnext
      · rename_i address haddress
        cases hnext
        exact .verified form current address _
          ⟨hboth.1, hboth.2, Decidable.not_not.mp hinitialized⟩ haddress (ite_eq_or_eq _ _ _)

theorem advances_post {cookie csrfToken : Bytes} {action : Post}
    (hnext : h.next prim input (.post cookie csrfToken action) = some (h', r')) :
    Advances prim input h (.post cookie csrfToken action) h' r' := by
  simp only [Handler.next] at hnext
  split at hnext
  · cases hnext
    exact .refused _ rfl
  · have hadvances := @Advances.post prim input h cookie csrfToken action r'
    split at hnext <;> rename_i hcurrent <;> cases hnext <;> rw [hcurrent] at hadvances
    · exact hadvances (Or.inr rfl)
    · refine hadvances ((ite_eq_or_eq _ _ _).imp (fun heq => ?_) id)
      exact ⟨_, rfl, heq⟩

theorem advances_authorized {digest : Digest} {current : Session} {action : Post}
    (hnext : h.next prim input (.authorized digest current action) = some (h', r')) :
    Advances prim input h (.authorized digest current action) h' r' := by
  cases action with
  | setupCredential form =>
    simp only [Handler.next] at hnext
    split at hnext
    · cases hnext
      exact .refused _ rfl
    · rename_i hchecked
      rw [not_or, Decidable.not_not] at hchecked
      split at hnext
      · cases hnext
        exact .refused _ rfl
      · rename_i encoded hencoded
        cases hnext
        exact .prepare digest current form _ rfl hchecked.1 hencoded rfl rfl
  | setupSecondFactor totpCode =>
    simp only [Handler.next] at hnext
    split at hnext
    · cases hnext
      exact .refused _ rfl
    · rename_i stored hstored
      split at hnext
      · cases hnext
        exact .refused _ rfl
      · rename_i pending hpending
        split at hnext <;> cases hnext
        · exact .confirm digest current stored pending totpCode hstored hpending
        · exact .refused _ rfl
  | logout =>
    cases hnext
    exact .logout digest current
  | manage =>
    simp only [Handler.next] at hnext
    split at hnext <;> cases hnext
    · exact .refused _ rfl
    · rename_i hmust
      exact .manage digest current (Bool.eq_false_iff.mpr hmust)

theorem advances_saving {digest : Digest} {stored : Session} {pending : PendingSetup}
    (hnext : h.next prim input (.saving digest stored pending) = some (h', r')) :
    Advances prim input h (.saving digest stored pending) h' r' := by
  simp only [Handler.next] at hnext
  split at hnext
  · cases hnext
    exact .unsaved digest stored pending
  · split at hnext
    · cases hnext
      exact .saved digest stored pending _ _ (Or.inr rfl)
    · rename_i updated hupdated
      cases hnext
      exact .saved digest stored pending _ _ (Or.inl ⟨updated, hupdated, rfl⟩)

theorem advances_browsing {cookie : Bytes}
    (hnext : h.next prim input (.browsing cookie) = some (h', r')) :
    Advances prim input h (.browsing cookie) h' r' := by
  simp only [Handler.next] at hnext
  split at hnext
  · cases hnext
    exact .refused _ rfl
  · have hadvances := @Advances.browse prim input h cookie r'
    split at hnext <;> rename_i hcurrent <;> cases hnext <;> rw [hcurrent] at hadvances
    · exact hadvances (Or.inr rfl)
    · exact hadvances (ite_eq_or_eq _ _ _).symm

/-- The steps of `next` are those of `Advances`. -/
theorem next_advances (hnext : h.next prim input r = some (h', r')) :
    Advances prim input h r h' r' := by
  cases r with
  | idle | finished => cases hnext
  | login form =>
    simp only [Handler.next] at hnext
    split at hnext <;> cases hnext
    · exact .recovery form _ (ite_eq_or_eq _ _ _)
    · exact .login form
  | checking form current => exact advances_checking hnext
  | authenticated origin =>
    simp only [Handler.next, Option.ite_none_left_eq_some] at hnext
    obtain ⟨hfresh, hnext⟩ := hnext
    cases hnext
    exact .start origin hfresh
  | post cookie csrfToken action => exact advances_post hnext
  | authorized digest current action => exact advances_authorized hnext
  | confirming digest stored pending totpCode =>
    cases hnext
    exact .confirmed digest stored pending totpCode _ (ite_eq_or_eq _ _ _)
  | saving digest stored pending => exact advances_saving hnext
  | adopting digest stored updated =>
    cases hnext
    exact .adopt digest stored updated
  | managing digest current =>
    cases hnext
    exact .act digest current
  | browsing cookie => exact advances_browsing hnext
  | viewing digest =>
    cases hnext
    exact .view digest

end Advances

inductive Choice
  | call (request : Request)
  | refuse
  | go (input : Input)

def consoleNext (prim : Primitives) :
    Choice → Nat → Handler → Request → Option (Handler × Request)
  | .call request, _, h, .idle => if request.arrives then some (h, request) else none
  | .refuse, _, h, r => if r.refusable then some (h, .finished) else none
  | .go input, _, h, r => h.next prim input r
  | _, _, _, _ => none

/-- One step of a request. -/
def ConsoleStep (prim : Primitives) (t : Nat) (h : Handler) (r : Request) (h' : Handler)
    (r' : Request) : Prop :=
  ∃ choice, consoleNext prim choice t h r = some (h', r')

/-- The account of the registry, or the default. -/
def initialAccount : Option AdministratorCredential → Option Account
  | none => some defaultAccount
  | some credential => accountFromCredential credential 0

/-- `NewHandler`, with every request before its arrival. -/
def newHandler (prim : Primitives) (stored : Option AdministratorCredential)
    (recoveryCode : Bytes) (now : Time) : Option (Threads Handler Request) := do
  let account ← initialAccount stored
  return ⟨{ account
            recoveryUsed := recoveryCode = []
            recoveryDigest := prim.sha256 recoveryCode
            recoveryExpiresAt := later now (10 * 60 * 1000000000)
            sessions := fun _ => none
            stored
            verifiers := fun _ => newTOTPVerifier account.secret
            made := 1
            issued := []
            ended := [] }, fun _ => .idle⟩

theorem newHandler_some {prim : Primitives} {stored : Option AdministratorCredential}
    {recoveryCode : Bytes} {now : Time} {start : Threads Handler Request}
    (h : newHandler prim stored recoveryCode now = some start) :
    start.shared.sessions = (fun _ => none) ∧ start.shared.issued = [] ∧ start.shared.ended = [] ∧
      start.thread = fun _ => .idle := by
  simp only [newHandler, Option.bind_eq_bind, Option.bind_eq_some_iff] at h
  obtain ⟨account, -, h⟩ := h
  cases h
  exact ⟨rfl, rfl, rfl, rfl⟩

/-! ### Concrete runs -/

/-- Functions of the right sizes: the digest pads its argument, each code is `000000`, and each key
is zero. -/
def samplePrimitives : Primitives where
  sha256 b := ⟨(b ++ List.replicate 32 0).take 32, by simp⟩
  hmacSha1 _ _ := ⟨List.replicate 20 0, rfl⟩
  scrypt _ _ _ _ _ n := some (List.replicate n 0)

def sampleNow : Time := ⟨1800000000000000000⟩

/-- The console without a stored account and without a recovery code. -/
def sampleConsole : Threads Handler Request :=
  (newHandler samplePrimitives none [] sampleNow).get rfl

theorem sampleConsole_new : newHandler samplePrimitives none [] sampleNow = some sampleConsole := rfl

def sampleInput (token : Bytes) : Input where
  now := sampleNow
  token
  csrfToken := [7]
  salt := List.replicate 16 0
  secret := List.replicate 20 0
  flash := ⟨[], [], []⟩
  failure := false

/-- Request `t` arrives and takes `n` steps. -/
def serve (t : Nat) (request : Request) (n : Nat) (token : Bytes) : List (Nat × Choice) :=
  (t, .call request) :: List.replicate n (t, .go (sampleInput token))

def defaultLogin : Request :=
  .login ⟨[], defaultAdministratorName, defaultAdministratorPassword, []⟩

/-- A post of the session whose cookie is `token`. -/
def samplePost (token : Bytes) (action : Post) : Request := .post token [7] action

/-- The session `token` starts a setup, as request `t`. -/
def startSetup (t : Nat) (token : Bytes) : List (Nat × Choice) :=
  let password := "a new password".toUTF8.toList
  serve t (samplePost token (.setupCredential ⟨"operator".toUTF8.toList, password, password⟩)) 2 []

/-- The session `token` confirms its setup, as request `t`, up to `n` steps. -/
def confirmSetup (t : Nat) (token : Bytes) (n : Nat) : List (Nat × Choice) :=
  serve t (samplePost token (.setupSecondFactor "000000".toUTF8.toList)) n []

end SevenMirror.Console
