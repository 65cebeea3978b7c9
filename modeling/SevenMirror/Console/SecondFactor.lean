import SevenMirror.Console.Restart

/-! Single use of the second factor.  A verifier accepts a step at most once, whatever the clock does;
and in every run of the console the verifier of a setup, which the account adopts, accepts each step
once, for the confirmation and the logins together.  The code of a step is an arbitrary function of
the secret and the step, given by an arbitrary `hmacSha1`. -/

namespace SevenMirror.Console

open Lib

section Verifier

variable (prim : Primitives)

/-- The step may be accepted for the candidate. -/
def TotpVerifier.Accepts (v : TotpVerifier) (candidate : Bytes) (counter : Int) : Prop :=
  (v.armed = true → v.newest < counter) ∧ totpCode prim v.secret counter = candidate

/-- One pass of the loop. -/
def TotpVerifier.pick (v : TotpVerifier) (candidate : Bytes) (matched : Option Int)
    (counter : Int) : Option Int :=
  if v.armed ∧ counter ≤ v.newest then matched
  else if totpCode prim v.secret counter = candidate then some counter
  else matched

/-- The steps that a sequence of calls accepts. -/
def TotpVerifier.accepted (v : TotpVerifier) : List (Bytes × Time) → List Int
  | [] => []
  | (presented, moment) :: calls =>
    let out := v.verify prim presented moment
    if out.2 then out.1.newest :: out.1.accepted calls else out.1.accepted calls

variable {prim} {v : TotpVerifier} {candidate : Bytes}

theorem TotpVerifier.pick_pos {counter : Int} (h : v.Accepts prim candidate counter)
    (matched : Option Int) : v.pick prim candidate matched counter = some counter := by
  rw [pick, if_neg, if_pos h.2]
  rintro ⟨harmed, hle⟩
  have hlt := h.1 harmed
  omega

theorem TotpVerifier.pick_neg {counter : Int} (h : ¬ v.Accepts prim candidate counter)
    (matched : Option Int) : v.pick prim candidate matched counter = matched := by
  unfold pick
  split
  · rfl
  · rename_i hnewest
    rw [if_neg]
    intro hcode
    refine h ⟨fun harmed => ?_, hcode⟩
    by_contra hle
    exact hnewest ⟨harmed, by omega⟩

/-- The loop ends with a step that may be accepted, if there is one. -/
theorem TotpVerifier.foldl_pick (counters : List Int) (matched : Option Int) :
    (∀ k, counters.foldl (v.pick prim candidate) matched = some k →
      matched = some k ∨ k ∈ counters ∧ v.Accepts prim candidate k) ∧
    (matched ≠ none ∨ (∃ k ∈ counters, v.Accepts prim candidate k) →
      counters.foldl (v.pick prim candidate) matched ≠ none) := by
  induction counters generalizing matched with
  | nil => exact ⟨fun k h => Or.inl h, fun h => h.resolve_right (by rintro ⟨k, hk, -⟩; cases hk)⟩
  | cons counter rest ih =>
    rw [List.foldl_cons]
    by_cases haccepts : v.Accepts prim candidate counter
    · rw [pick_pos haccepts]
      obtain ⟨hsome, hnone⟩ := ih (some counter)
      refine ⟨fun k hk => Or.inr ?_, fun _ => hnone (Or.inl (Option.some_ne_none _))⟩
      rcases hsome k hk with heq | ⟨hmem, hk⟩
      · cases heq
        exact ⟨List.mem_cons_self, haccepts⟩
      · exact ⟨List.mem_cons_of_mem _ hmem, hk⟩
    · rw [pick_neg haccepts]
      obtain ⟨hsome, hnone⟩ := ih matched
      refine ⟨fun k hk => ?_, fun h => hnone ?_⟩
      · exact (hsome k hk).imp id fun ⟨hmem, hk⟩ => ⟨List.mem_cons_of_mem _ hmem, hk⟩
      · refine h.imp id ?_
        rintro ⟨k, hmem, hk⟩
        rcases List.mem_cons.mp hmem with rfl | hmem
        · exact absurd hk haccepts
        · exact ⟨k, hmem, hk⟩

/-- What the loop finds is in the window. -/
theorem TotpVerifier.matched_some {current k : Int}
    (h : v.matched prim candidate current = some k) :
    v.Accepts prim candidate k ∧ current - 1 ≤ k ∧ k ≤ current + 1 := by
  obtain ⟨hmem, haccepts⟩ :=
    ((foldl_pick [current - 1, current, current + 1] none).1 k h).resolve_left (by rintro ⟨⟩)
  refine ⟨haccepts, ?_⟩
  simp only [List.mem_cons, List.not_mem_nil, or_false] at hmem
  omega

/-- A step of the window that may be accepted is not overlooked. -/
theorem TotpVerifier.matched_ne_none {current k : Int} (hlow : current - 1 ≤ k)
    (hhigh : k ≤ current + 1) (h : v.Accepts prim candidate k) :
    v.matched prim candidate current ≠ none := by
  refine (foldl_pick [current - 1, current, current + 1] none).2 (Or.inr ⟨k, ?_, h⟩)
  simp only [List.mem_cons, List.not_mem_nil, or_false]
  omega

/-- A code has six digits. -/
theorem totpCode_digits (prim : Primitives) (secret : Bytes) (counter : Int) :
    (totpCode prim secret counter).length = totpDigits ∧
      (totpCode prim secret counter).all isDigit = true :=
  ⟨length_decimal _ _, all_isDigit_decimal _ _⟩

/-- A verifier after a call: it is as before, or it has accepted a step. -/
theorem TotpVerifier.verify_cases (prim : Primitives) (v : TotpVerifier) (presented : Bytes)
    (moment : Time) :
    v.verify prim presented moment = (v, false) ∨
      ∃ k, v.verify prim presented moment = ({ v with newest := k, armed := true }, true) ∧
        v.Accepts prim (trimSpace presented) k ∧ totpCounter moment - 1 ≤ k ∧
        k ≤ totpCounter moment + 1 := by
  unfold verify
  dsimp only
  split
  · exact Or.inl rfl
  · cases hmatched : v.matched prim (trimSpace presented) (totpCounter moment) with
    | none => exact Or.inl rfl
    | some k => exact Or.inr ⟨k, rfl, matched_some hmatched⟩

theorem TotpVerifier.verify_complete {presented : Bytes} {moment : Time} {k : Int}
    (hlow : totpCounter moment - 1 ≤ k) (hhigh : k ≤ totpCounter moment + 1)
    (h : v.Accepts prim (trimSpace presented) k) : (v.verify prim presented moment).2 = true := by
  obtain ⟨hlength, hdigits⟩ := totpCode_digits prim v.secret k
  rw [h.2] at hlength hdigits
  unfold verify
  dsimp only
  rw [if_neg (by simp [hlength, hdigits])]
  cases hmatched : v.matched prim (trimSpace presented) (totpCounter moment) with
  | none => exact absurd hmatched (matched_ne_none hlow hhigh h)
  | some k => rfl

/-- The accepted steps grow, from the newest one on. -/
theorem TotpVerifier.accepted_increasing (v : TotpVerifier) (calls : List (Bytes × Time)) :
    (v.accepted prim calls).Pairwise (· < ·) ∧
      ∀ k ∈ v.accepted prim calls, v.armed = true → v.newest < k := by
  induction calls generalizing v with
  | nil => exact ⟨.nil, fun k hk => absurd hk List.not_mem_nil⟩
  | cons call calls ih =>
    obtain ⟨presented, moment⟩ := call
    rw [accepted]
    rcases v.verify_cases prim presented moment with hsame | ⟨k, hverify, haccepts, -⟩
    · rw [hsame]
      exact ih v
    · rw [hverify]
      obtain ⟨hpairwise, habove⟩ := ih { v with newest := k, armed := true }
      refine ⟨List.pairwise_cons.mpr ⟨fun j hj => habove j hj rfl, hpairwise⟩, fun j hj harmed => ?_⟩
      have hk := haccepts.1 harmed
      rcases List.mem_cons.mp hj with rfl | hj
      · exact hk
      · exact Int.lt_trans hk (habove j hj rfl)

end Verifier

/-! ### The checks of a run -/

section Checks

variable (prim : Primitives)

/-- The verifier and the code that the next step of a request presents to it. -/
def Request.check : Request → Option (Nat × Bytes)
  | checking form current =>
    if current.nameMatches prim (trimSpace form.username) ∧
        current.passwordMatches prim form.password ∧ current.initialized then
      current.secondFactor.map fun address => (address, form.totpCode)
    else none
  | confirming _ _ pending totpCode => some (pending.secondFactor, totpCode)
  | _ => none

/-- The verifier and the step that a step of a request accepts. -/
def Handler.accepts (h : Handler) (r : Request) : Choice → Option (Nat × Int)
  | .go input =>
    match r.check prim with
    | none => none
    | some (address, presented) =>
      let out := (h.verifiers address).verify prim presented input.now
      if out.2 then some (address, out.1.newest) else none
  | _ => none

/-- What the verifiers accept along a schedule, in order. -/
def acceptances : Threads Handler Request → List (Nat × Choice) → List (Nat × Int)
  | _, [] => []
  | c, (t, choice) :: rest =>
    match consoleNext prim choice t c.shared (c.thread t) with
    | none => []
    | some (h, r) =>
      (c.shared.accepts prim (c.thread t) choice).toList ++
        acceptances ⟨h, Function.update c.thread t r⟩ rest

end Checks

/-- The steps that the verifier at one address accepted. -/
def stepsAt (address : Nat) (events : List (Nat × Int)) : List Int :=
  (events.filter (·.1 = address)).map (·.2)

/-- The verifier of an account. -/
def Account.UsesBelow (a : Account) (made : Nat) : Prop :=
  ∀ address, a.secondFactor = some address → address < made

/-- The accounts that a request has read or is to adopt. -/
def Request.account : Request → Option Account
  | checking _ current => some current
  | adopting _ _ updated => some updated
  | _ => none

/-- Every verifier that can be asked has been made. -/
structure InUse (c : Threads Handler Request) : Prop where
  account : c.shared.account.UsesBelow c.shared.made
  offers : ∀ p, c.shared.Offers p → p.secondFactor < c.shared.made
  setups : ∀ t p, (c.thread t).setup = some p → p.secondFactor < c.shared.made
  accounts : ∀ t a, (c.thread t).account = some a → a.UsesBelow c.shared.made

section Steps

variable {prim : Primitives} {h h' : Handler} {r r' : Request}

theorem check_used {c : Threads Handler Request} (hc : InUse c) {t address : Nat} {presented : Bytes}
    (hcheck : (c.thread t).check prim = some (address, presented)) : address < c.shared.made := by
  cases hr : c.thread t with
  | checking form current =>
    rw [hr, Request.check] at hcheck
    split at hcheck
    · obtain ⟨a, ha, heq⟩ := Option.map_eq_some_iff.mp hcheck
      cases heq
      exact hc.accounts t current (by rw [hr]; rfl) _ ha
    · cases hcheck
  | confirming digest stored pending totpCode =>
    rw [hr] at hcheck
    cases hcheck
    exact hc.setups t pending (by rw [hr]; rfl)
  | _ =>
    rw [hr] at hcheck
    cases hcheck

theorem accepts_check {choice : Choice} {address : Nat} {k : Int}
    (haccepts : h.accepts prim r choice = some (address, k)) :
    ∃ presented, r.check prim = some (address, presented) := by
  unfold Handler.accepts at haccepts
  split at haccepts
  · split at haccepts
    · cases haccepts
    · rename_i asked presented hcheck
      dsimp only at haccepts
      split at haccepts
      · cases haccepts
        exact ⟨presented, hcheck⟩
      · cases haccepts
  · cases haccepts

/-- The verifiers that have been made stay as they are. -/
structure SameVerifiers (h h' : Handler) : Prop where
  made : h.made ≤ h'.made
  verifiers : ∀ address, address < h.made → h'.verifiers address = h.verifiers address

theorem SameVerifiers.of_eq (hmade : h'.made = h.made) (hverifiers : h'.verifiers = h.verifiers) :
    SameVerifiers h h' :=
  ⟨Nat.le_of_eq hmade.symm, fun _ _ => by rw [hverifiers]⟩

theorem consumeRecoveryCode_verifiers (candidate : Bytes) (now : Time) :
    SameVerifiers h (h.consumeRecoveryCode prim candidate now).1 := by
  unfold Handler.consumeRecoveryCode
  split <;> exact .of_eq rfl rfl

theorem currentSession_verifiers (digest : Digest) (now : Time) :
    SameVerifiers h (h.currentSession digest now).1 := by
  unfold Handler.currentSession
  split
  · exact .of_eq rfl rfl
  · split <;> exact .of_eq rfl rfl

theorem storePending_verifiers {digest : Digest} {p : PendingSetup} (hp : p.secondFactor = h.made) :
    SameVerifiers h (h.storePending digest p) := by
  unfold Handler.storePending
  split
  · exact .of_eq rfl rfl
  · refine ⟨Nat.le_succ _, fun address haddress => ?_⟩
    exact Function.update_of_ne (hp ▸ Nat.ne_of_lt haddress) _ _

theorem finishAction_verifiers (digest : Digest) (message : FlashMessage) :
    SameVerifiers h (h.finishAction digest message) := by
  unfold Handler.finishAction
  split <;> exact .of_eq rfl rfl

theorem takeFlash_verifiers (digest : Digest) : SameVerifiers h (h.takeFlash digest) := by
  unfold Handler.takeFlash
  split
  · exact .of_eq rfl rfl
  · split <;> exact .of_eq rfl rfl

theorem check_of_refusable (h : r.refusable = true) : r.check prim = none := by
  cases r <;> first | rfl | cases h

/-- A step asks one verifier, or leaves them all. -/
theorem Advances.check {input : Input} (hadvances : Advances prim input h r h' r') :
    (∃ address presented, r.check prim = some (address, presented) ∧
      h' = (h.verify prim address presented input.now).1) ∨
    r.check prim = none ∧ SameVerifiers h h' := by
  cases hadvances with
  | refused _ hr => exact Or.inr ⟨check_of_refusable hr, .of_eq rfl rfl⟩
  | recovery => exact Or.inr ⟨rfl, consumeRecoveryCode_verifiers _ _⟩
  | unverified form current _ hcheck => exact Or.inr ⟨if_neg hcheck, .of_eq rfl rfl⟩
  | verified form current address _ hcheck haddress =>
    refine Or.inl ⟨address, form.totpCode, ?_, rfl⟩
    rw [Request.check, if_pos hcheck, haddress]
    rfl
  | confirmed digest stored pending totpCode =>
    exact Or.inl ⟨pending.secondFactor, totpCode, rfl, rfl⟩
  | post | browse => exact Or.inr ⟨rfl, currentSession_verifiers _ _⟩
  | prepare digest current form pending _ _ _ _ haddress =>
    exact Or.inr ⟨rfl, storePending_verifiers haddress⟩
  | act => exact Or.inr ⟨rfl, finishAction_verifiers _ _⟩
  | view => exact Or.inr ⟨rfl, takeFlash_verifiers _⟩
  | login | start | confirm | logout | manage | unsaved | saved | adopt =>
    exact Or.inr ⟨rfl, .of_eq rfl rfl⟩

/-- What one step does to a verifier that has been made: nothing, or it accepts a newer step. -/
theorem consoleNext_verifier {choice : Choice} {t address : Nat}
    (hnext : consoleNext prim choice t h r = some (h', r')) (haddress : address < h.made) :
    (h'.verifiers address = h.verifiers address ∧
      ∀ k, h.accepts prim r choice ≠ some (address, k)) ∨
    ∃ k, h.accepts prim r choice = some (address, k) ∧
      ((h.verifiers address).armed = true → (h.verifiers address).newest < k) ∧
      (h'.verifiers address).armed = true ∧ (h'.verifiers address).newest = k := by
  unfold consoleNext at hnext
  split at hnext
  · split at hnext <;> cases hnext
    exact Or.inl ⟨rfl, fun k hk => by cases hk⟩
  · split at hnext <;> cases hnext
    exact Or.inl ⟨rfl, fun k hk => by cases hk⟩
  · rename_i input
    rcases (next_advances hnext).check with ⟨asked, presented, hcheck, rfl⟩ | ⟨hcheck, hsame⟩
    · have haccepts : h.accepts prim r (.go input) =
          if ((h.verifiers asked).verify prim presented input.now).2 then
            some (asked, ((h.verifiers asked).verify prim presented input.now).1.newest)
          else none := by
        simp only [Handler.accepts, hcheck]
      rw [haccepts]
      by_cases hasked : address = asked
      · subst hasked
        have hafter : (h.verify prim address presented input.now).1.verifiers address =
            ((h.verifiers address).verify prim presented input.now).1 := by
          simp [Handler.verify]
        rw [hafter]
        rcases (h.verifiers address).verify_cases prim presented input.now with
          hrefused | ⟨k, hverify, hk, -⟩
        · rw [hrefused]
          exact Or.inl ⟨rfl, fun k hk => by cases hk⟩
        · rw [hverify]
          exact Or.inr ⟨k, rfl, hk.1, rfl, rfl⟩
      · refine Or.inl ⟨?_, fun k hk => ?_⟩
        · simp [Handler.verify, hasked]
        · split at hk
          · cases hk
            exact hasked rfl
          · cases hk
    · refine Or.inl ⟨hsame.verifiers address haddress, fun k hk => ?_⟩
      simp only [Handler.accepts, hcheck] at hk
      cases hk
  · cases hnext

/-- The account that a request holds after a step is that of the handler, or the one of its setup. -/
theorem Advances.account {input : Input} {a : Account} (hadvances : Advances prim input h r h' r')
    (ha : r'.account = some a) :
    a = h.account ∨ ∃ d s p, r = .saving d s p ∧ a.secondFactor = some p.secondFactor := by
  cases hadvances with
  | login form =>
    cases ha
    exact Or.inl rfl
  | saved digest stored pending credential _ hr' =>
    rcases hr' with ⟨updated, hupdated, rfl⟩ | rfl
    · cases ha
      exact Or.inr ⟨digest, stored, pending, rfl, (accountFromCredential_address hupdated).1⟩
    · cases ha
  | post cookie csrfToken action _ hr' => rcases hr' with ⟨current, -, rfl⟩ | rfl <;> cases ha
  | recovery _ _ hr' | unverified _ _ _ _ hr' | verified _ _ _ _ _ _ hr' | browse _ _ hr' =>
    rcases hr' with rfl | rfl <;> cases ha
  | confirmed _ _ _ _ _ hr' => rcases hr' with rfl | rfl <;> cases ha
  | _ => cases ha

/-- The account of a setup that was saved has the verifier of the setup. -/
theorem Advances.adopting {input : Input} {d d' : Digest} {stored stored' : Session}
    {p : PendingSetup} {updated : Account}
    (hadvances : Advances prim input h (.saving d stored p) h' (.adopting d' stored' updated)) :
    updated.secondFactor = some p.secondFactor := by
  cases hadvances with
  | saved _ _ _ credential _ hr' =>
    rcases hr' with ⟨account, haccount, heq⟩ | heq <;> cases heq
    exact (accountFromCredential_address haccount).1

theorem arrives_account (h : r.arrives = true) : r.account = none := by
  cases r <;> first | rfl | cases h

/-- Where the setups and the accounts after a step come from. -/
structure Sources (h : Handler) (r : Request) (h' : Handler) (r' : Request) : Prop where
  made : h.made ≤ h'.made
  account : h'.account = h.account ∨ r.account = some h'.account
  setups : ∀ p, h'.Offers p ∨ r'.setup = some p →
    (h.Offers p ∨ r.setup = some p) ∨ p.secondFactor < h'.made
  accounts : ∀ a, r'.account = some a →
    a = h.account ∨ ∃ p, r.setup = some p ∧ a.secondFactor = some p.secondFactor

theorem Sources.same (hsetup : r'.setup = none) (haccount : r'.account = none) :
    Sources h r h r' := by
  refine ⟨Nat.le_refl _, Or.inl rfl, fun p hp => ?_, fun a ha => ?_⟩
  · rcases hp with hp | hp
    · exact Or.inl (Or.inl hp)
    · rw [hsetup] at hp
      cases hp
  · rw [haccount] at ha
    cases ha

theorem Effect.account_source (heffect : Effect h r h') :
    h'.account = h.account ∨ r.account = some h'.account := by
  cases heffect with
  | quiet _ _ haccount => exact Or.inl haccount
  | start => exact Or.inl rfl
  | logout => exact Or.inl rfl
  | save => exact Or.inl rfl
  | adopt digest stored updated hreq =>
    rw [hreq]
    exact Or.inr rfl

theorem consoleNext_sources {choice : Choice} {t : Nat}
    (hnext : consoleNext prim choice t h r = some (h', r')) : Sources h r h' r' := by
  unfold consoleNext at hnext
  split at hnext
  · split at hnext
    · rename_i harrives
      cases hnext
      exact .same (arrives_plain harrives).1 (arrives_account harrives)
    · cases hnext
  · split at hnext <;> cases hnext
    exact .same rfl rfl
  · obtain ⟨heffect, -, hsetups⟩ := (next_advances hnext).spec
    have hmade : h.made ≤ h'.made := by
      rcases (next_advances hnext).check with ⟨address, presented, -, rfl⟩ | ⟨-, hsame⟩
      · exact Nat.le_refl _
      · exact hsame.made
    refine ⟨hmade, heffect.account_source, fun p hp => ?_, fun a ha => ?_⟩
    · exact (hsetups.source p hp).imp id fun hprepared => hprepared.verifies.1
    · rcases (next_advances hnext).account ha with heq | ⟨d, s, p, rfl, hp⟩
      · exact Or.inl heq
      · exact Or.inr ⟨p, rfl, hp⟩
  · cases hnext

end Steps

theorem Account.UsesBelow.mono {a : Account} {n m : Nat} (h : a.UsesBelow n) (hle : n ≤ m) :
    a.UsesBelow m := fun address haddress => Nat.lt_of_lt_of_le (h address haddress) hle

section Runs

variable {prim : Primitives} {c : Threads Handler Request} {h' : Handler} {r' : Request}
  {choice : Choice} {t : Nat}

theorem InUse.step (hc : InUse c)
    (hnext : consoleNext prim choice t c.shared (c.thread t) = some (h', r')) :
    InUse ⟨h', Function.update c.thread t r'⟩ := by
  have hsources := consoleNext_sources hnext
  have hmade := hsources.made
  have hsetup : ∀ p, h'.Offers p ∨ r'.setup = some p → p.secondFactor < h'.made := by
    intro p hp
    rcases hsources.setups p hp with (hoffers | hthread) | hnew
    · exact Nat.lt_of_lt_of_le (hc.offers p hoffers) hmade
    · exact Nat.lt_of_lt_of_le (hc.setups t p hthread) hmade
    · exact hnew
  refine ⟨?_, fun p hp => hsetup p (Or.inl hp), fun u p hp => ?_, fun u a ha => ?_⟩
  · rcases hsources.account with hsame | hthread
    · rw [hsame]
      exact hc.account.mono hmade
    · exact (hc.accounts t _ hthread).mono hmade
  · by_cases hu : u = t
    · subst hu
      exact hsetup p (Or.inr (by simpa using hp))
    · exact Nat.lt_of_lt_of_le (hc.setups u p (by simpa [hu] using hp)) hmade
  · by_cases hu : u = t
    · subst hu
      rcases hsources.accounts a (by simpa using ha) with rfl | ⟨p, hp, ha⟩
      · exact hc.account.mono hmade
      · intro address haddress
        rw [ha] at haddress
        cases haddress
        exact Nat.lt_of_lt_of_le (hc.setups u p hp) hmade
    · exact (hc.accounts u a (by simpa [hu] using ha)).mono hmade

theorem newHandler_inUse {stored : Option AdministratorCredential} {recoveryCode : Bytes} {now : Time}
    {start : Threads Handler Request} (h : newHandler prim stored recoveryCode now = some start) :
    InUse start := by
  simp only [newHandler, Option.bind_eq_bind, Option.bind_eq_some_iff] at h
  obtain ⟨account, haccount, h⟩ := h
  cases h
  refine ⟨fun address haddress => ?_, ?_, fun t p hp => (by cases hp), fun t a ha => (by cases ha)⟩
  · cases stored with
    | none =>
      cases haccount
      cases haddress
    | some credential =>
      have hzero := (accountFromCredential_address haccount).1
      rw [show account.secondFactor = some address from haddress] at hzero
      cases hzero
      exact Nat.one_pos
  · rintro p ⟨d, s, hs, -⟩
    cases hs

theorem mem_stepsAt {address : Nat} {events : List (Nat × Int)} {k : Int} :
    k ∈ stepsAt address events ↔ (address, k) ∈ events := by
  simp only [stepsAt, List.mem_map, List.mem_filter, decide_eq_true_eq]
  constructor
  · rintro ⟨⟨b, j⟩, ⟨hmem, rfl⟩, rfl⟩
    exact hmem
  · intro hmem
    exact ⟨(address, k), ⟨hmem, rfl⟩, rfl⟩

theorem stepsAt_append (address : Nat) (events events' : List (Nat × Int)) :
    stepsAt address (events ++ events') = stepsAt address events ++ stepsAt address events' := by
  simp only [stepsAt, List.filter_append, List.map_append]

theorem stepsAt_toList_none {address : Nat} {event : Option (Nat × Int)}
    (h : ∀ k, event ≠ some (address, k)) : stepsAt address event.toList = [] := by
  refine List.eq_nil_iff_forall_not_mem.mpr fun k hk => ?_
  exact h k (Option.mem_toList.mp (mem_stepsAt.mp hk))

theorem stepsAt_toList_some (address : Nat) (k : Int) :
    stepsAt address (some (address, k)).toList = [k] := by
  simp [stepsAt]

/-- Along a schedule each verifier accepts ever newer steps. -/
theorem InUse.acceptances (hc : InUse c) (schedule : List (Nat × Choice)) (address : Nat) :
    (stepsAt address (acceptances prim c schedule)).Pairwise (· < ·) ∧
      (address < c.shared.made → (c.shared.verifiers address).armed = true →
        ∀ k ∈ stepsAt address (acceptances prim c schedule),
          (c.shared.verifiers address).newest < k) := by
  induction schedule generalizing c with
  | nil => exact ⟨.nil, fun _ _ k hk => absurd hk List.not_mem_nil⟩
  | cons entry rest ih =>
    obtain ⟨t, choice⟩ := entry
    rw [Console.acceptances]
    split
    · exact ⟨.nil, fun _ _ k hk => absurd hk List.not_mem_nil⟩
    · rename_i h' r' hnext
      obtain ⟨hpairwise, habove⟩ := ih (hc.step hnext)
      rw [stepsAt_append]
      by_cases hmade : address < c.shared.made
      · have hmade' := Nat.lt_of_lt_of_le hmade (consoleNext_sources hnext).made
        rcases consoleNext_verifier hnext hmade with ⟨hsame, hnone⟩ | ⟨k, hk, hnewer, harmed, hnewest⟩
        · rw [stepsAt_toList_none hnone, List.nil_append]
          refine ⟨hpairwise, fun _ harmed => ?_⟩
          rw [← hsame] at harmed ⊢
          exact habove hmade' harmed
        · have hlater := habove hmade' harmed
          dsimp only at hlater
          rw [hnewest] at hlater
          rw [hk, stepsAt_toList_some]
          refine ⟨List.pairwise_cons.mpr ⟨hlater, hpairwise⟩, fun _ hbefore j hj => ?_⟩
          have hfirst := hnewer hbefore
          rcases List.mem_cons.mp hj with rfl | hj
          · exact hfirst
          · exact Int.lt_trans hfirst (hlater j hj)
      · -- a verifier that has not been made is not asked
        have hnone : ∀ k, c.shared.accepts prim (c.thread t) choice ≠ some (address, k) := by
          intro k hk
          obtain ⟨presented, hcheck⟩ := accepts_check hk
          exact hmade (check_used hc hcheck)
        rw [stepsAt_toList_none hnone, List.nil_append]
        exact ⟨hpairwise, fun h => absurd h hmade⟩

end Runs

/-- An accepted call raises the newest step, to a step of its window whose code is the candidate; a
rejected call changes nothing; a candidate that is the code of a newer step of the window is accepted;
so no sequence of calls accepts a step twice.  In every run of the console each verifier accepts ever
newer steps, and the account that a confirmed setup leads to keeps the verifier that confirmed it. -/
theorem second_factor_single_use (prim : Primitives) :
    (∀ (v v' : TotpVerifier) presented moment, v.verify prim presented moment = (v', true) →
      (v.armed = true → v.newest < v'.newest) ∧ v'.armed = true ∧
      totpCounter moment - 1 ≤ v'.newest ∧ v'.newest ≤ totpCounter moment + 1 ∧
      totpCode prim v.secret v'.newest = trimSpace presented) ∧
    (∀ (v v' : TotpVerifier) presented moment, v.verify prim presented moment = (v', false) →
      v' = v) ∧
    (∀ (v : TotpVerifier) presented moment k, totpCounter moment - 1 ≤ k →
      k ≤ totpCounter moment + 1 → (v.armed = true → v.newest < k) →
      trimSpace presented = totpCode prim v.secret k →
      (v.verify prim presented moment).2 = true) ∧
    (∀ (v : TotpVerifier) calls, (v.accepted prim calls).Pairwise (· < ·) ∧
      ∀ k ∈ v.accepted prim calls, v.armed = true → v.newest < k) ∧
    (∀ stored recoveryCode now start, newHandler prim stored recoveryCode now = some start →
      ∀ schedule address, (stepsAt address (acceptances prim start schedule)).Pairwise (· < ·)) ∧
    ∀ (h h' h'' : Handler) input digest session pending updated,
      h.next prim input (.saving digest session pending) =
        some (h', .adopting digest session updated) →
      h''.next prim input (.adopting digest session updated) =
        some (h''.adopt digest session updated, .finished) ∧
      (h''.adopt digest session updated).account.secondFactor = some pending.secondFactor := by
  refine ⟨fun v v' presented moment hverify => ?_, fun v v' presented moment hverify => ?_,
    fun v presented moment k hlow hhigh hnewer hcode => ?_, TotpVerifier.accepted_increasing,
    fun stored recoveryCode now start hstart schedule address => ?_,
    fun h h' h'' input digest session pending updated hsave => ⟨rfl, ?_⟩⟩
  · rcases v.verify_cases prim presented moment with hrefused | ⟨k, hk, haccepts, hlow, hhigh⟩
    · rw [hrefused] at hverify
      cases hverify
    · rw [hk] at hverify
      cases hverify
      exact ⟨haccepts.1, rfl, hlow, hhigh, haccepts.2⟩
  · rcases v.verify_cases prim presented moment with hrefused | ⟨k, hk, -⟩
    · rw [hrefused] at hverify
      cases hverify
      rfl
    · rw [hk] at hverify
      cases hverify
  · exact TotpVerifier.verify_complete hlow hhigh ⟨hnewer, hcode.symm⟩
  · exact ((newHandler_inUse hstart).acceptances schedule address).1
  · exact (next_advances hsave).adopting

/-- The code that confirmed a setup is refused to the login that follows. -/
example : acceptances samplePrimitives sampleConsole
    (serve 0 defaultLogin 3 [1] ++ startSetup 1 [1] ++ confirmSetup 2 [1] 5 ++
      serve 3 (.login ⟨[], "operator".toUTF8.toList, "a new password".toUTF8.toList,
        "000000".toUTF8.toList⟩) 2 []) = [(1, 60000001)] := by decide +kernel

end SevenMirror.Console
