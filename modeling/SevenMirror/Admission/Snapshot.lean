import SevenMirror.Admission.MembershipView
import SevenMirror.Admission.RegistryRun

/-! `ReadMembershipState` while other connections commit.  Its statements come in a fixed order, and
a commit that leaves the answers to the statements before it as they were leaves the read as one of
the store after the commit. -/

namespace SevenMirror.Admission

open Lib MembershipCodec

/-- The action concerns the device, or the authority that every device reads. -/
def Action.concerns (deviceID : DeviceID) : Action → Bool
  | .register d | .prove d | .rotateCredential d | .approve d | .rename d | .revoke d =>
    d = deviceID
  | .rotateAuthority => true

/-- The action may publish a roster. -/
def Action.publishes : Action → Bool
  | .approve _ | .rename _ | .revoke _ | .rotateAuthority => true
  | .register _ | .prove _ | .rotateCredential _ => false

/-- The call takes such an action in the workspace. -/
def Call.takes (crypto : Crypto) (s : Registry) (call : Call) (id : WorkspaceID)
    (p : Action → Bool) : Bool :=
  match call.action crypto s with
  | none => false
  | some (id', action) => id' = id ∧ p action

/-- The place of a statement in the call. -/
def MembershipQuery.rank : MembershipQuery → Nat
  | .device => 0
  | .terminalAuthority _ => 1
  | .firstAuthority => 2
  | .transitions _ _ => 3
  | .rosters _ _ => 4
  | .latestEpoch => 5

abbrev MembershipSession :=
  Session Registry MembershipQuery MembershipQuery.Rows
    (Except MembershipReadError MembershipStateView)

/-- From its first statement on, no commit concerns the device or the authority, and from its roster
statement on, none publishes a roster. -/
def undisturbed (crypto : Crypto) (input : MembershipRead) (c : MembershipSession) :
    SessionEvent Call → Bool
  | .statement => true
  | .commit call =>
    match c.rest.pending with
    | none => false
    | some .device => true
    | some .latestEpoch => !call.takes crypto c.state input.workspaceID
        (fun a => a.concerns input.deviceID || a.publishes)
    | some _ => !call.takes crypto c.state input.workspaceID (·.concerns input.deviceID)

/-! ### The order of the statements -/

section Order

variable {crypto : Crypto} {input : MembershipRead}

theorem readLatestEpoch_ranked (view : MembershipStateView) (revoked : Option Nat) :
    (readLatestEpoch view revoked).Ranked MembershipQuery.rank 5 := by
  unfold readLatestEpoch
  split
  · trivial
  · exact ⟨Nat.le_refl _, fun _ => trivial⟩

theorem readRosters_ranked (view : MembershipStateView) (revoked : Option Nat) (after : Int64)
    (maximumEpoch : Nat) :
    (readRosters view revoked after maximumEpoch).Ranked MembershipQuery.rank 4 := by
  refine ⟨Nat.le_refl _, fun rows => ?_⟩
  dsimp only
  split
  · trivial
  · split
    · exact readLatestEpoch_ranked _ _
    · exact readLatestEpoch_ranked _ _

theorem readTransitions_ranked (view : MembershipStateView) (revoked : Option Nat) (after : Int64)
    (maximumEpoch : Nat) :
    (readTransitions view revoked after maximumEpoch).Ranked MembershipQuery.rank 3 := by
  refine ⟨Nat.le_refl _, fun rows => ?_⟩
  dsimp only [Statements.Ranked]
  split
  · trivial
  · exact readRosters_ranked _ _ _ _

theorem readChains_ranked (view : MembershipStateView) (revoked : Option Nat)
    (maximumEpoch : Nat) :
    (readChains crypto input view revoked maximumEpoch).Ranked MembershipQuery.rank 3 := by
  unfold readChains
  split
  · trivial
  · exact readTransitions_ranked _ _ _ _

theorem readMember_ranked (row : MemberRow) :
    (readMember crypto input row).Ranked MembershipQuery.rank 1 := by
  unfold readMember
  split
  · trivial
  · split
    · exact (readChains_ranked _ _ _).mono (by decide)
    · refine ⟨Nat.le_refl _, fun key => ?_⟩
      dsimp only
      split
      · exact (readChains_ranked _ _ _).mono (by decide : 2 ≤ 3)
      · exact ⟨Nat.le_refl _, fun key => readChains_ranked _ _ _⟩

theorem readMembershipState_ranked :
    (readMembershipState crypto input).Ranked MembershipQuery.rank 0 := by
  unfold readMembershipState
  split
  · trivial
  · refine ⟨Nat.le_refl _, fun row => ?_⟩
    dsimp only
    split
    · trivial
    · exact readMember_ranked _

end Order

/-! ### What a commit leaves as it was -/

section Kept

variable {crypto : Crypto} {input : MembershipRead} {s s' : Registry}

theorem WorkspaceStep.kept {w w' : Workspace} {action : Action} {deviceID : DeviceID}
    (h : WorkspaceStep crypto w action w') (hc : action.concerns deviceID = false) :
    w'.authorityPublicKey = w.authorityPublicKey ∧ w'.transitions = w.transitions ∧
      w'.devices.find deviceID = w.devices.find deviceID := by
  cases h with
  | register d devices _ _ hrows =>
    refine ⟨rfl, rfl, Table.find_congr fun x hx => ?_⟩
    have hne : d.id ≠ deviceID := by simpa [Action.concerns] using hc
    rw [hrows, List.mem_append, List.mem_singleton]
    exact ⟨fun h => h.resolve_right fun heq => hne (heq ▸ hx), Or.inl⟩
  | rotateAuthority => cases hc
  | prove d _ _ _ _ hreplaces | rotateCredential d _ _ _ _ hreplaces
  | revokePending d _ _ _ _ hreplaces =>
    exact ⟨rfl, rfl, hreplaces.find_ne (by simpa [Action.concerns] using hc)⟩
  | approve a devices rosters ha =>
    exact ⟨rfl, rfl, ha.replaces.find_ne (by simpa [Action.concerns] using hc)⟩
  | rename r devices rosters hr =>
    exact ⟨rfl, rfl, hr.replaces.find_ne (by simpa [Action.concerns] using hc)⟩
  | revoke r devices rosters hr =>
    exact ⟨rfl, rfl, hr.replaces.find_ne (by simpa [Action.concerns] using hc)⟩

theorem WorkspaceStep.kept_rosters {w w' : Workspace} {action : Action}
    (h : WorkspaceStep crypto w action w') (hp : action.publishes = false) :
    w'.rosters = w.rosters := by
  cases h <;> first | rfl | cases hp

/-- What the workspace is for a commit that takes no action of `p` in it. -/
theorem RegistryStep.kept {call : Call} {id : WorkspaceID} {p : Action → Bool}
    (h : RegistryStep crypto s call s') (hcall : call.takes crypto s id p = false) :
    s'.find id = s.find id ∨
      (∃ key now, s.find id = none ∧ s'.find id = some (newWorkspace id key now)) ∨
      ∃ w w' action, s.find id = some w ∧ s'.find id = some w' ∧ p action = false ∧
        WorkspaceStep crypto w action w' := by
  cases h with
  | unchanged hsame _ =>
    left
    simp only [Registry.find, hsame]
  | created key now id' _ hfresh hrows =>
    by_cases hid : id' = id
    · subst hid
      refine Or.inr (Or.inl ⟨key, now, ?_, ?_⟩)
      · refine Option.eq_none_iff_forall_ne_some.mpr fun w hw => ?_
        obtain ⟨hmem, hid⟩ := Registry.find_eq_some.mp hw
        exact hfresh w hmem hid
      · rw [Registry.find_eq_some, hrows]
        exact ⟨by simp, rfl⟩
    · left
      refine Table.find_congr fun x hx => ?_
      rw [hrows, List.mem_append, List.mem_singleton]
      refine ⟨fun h => h.resolve_right fun heq => hid ?_, Or.inl⟩
      rw [← hx, heq]
      rfl
  | acted w w' action haction hstep _ hreplaces =>
    by_cases hid : w.id = id
    · subst hid
      refine Or.inr (Or.inr ⟨w, w', action, ?_, ?_, ?_, hstep⟩)
      · exact Registry.find_eq_some.mpr ⟨hreplaces.mem, rfl⟩
      · exact Registry.find_eq_some.mpr ⟨(hreplaces.rows w').mpr (Or.inl rfl), hstep.id_eq⟩
      · simpa [Call.takes, haction] using hcall
    · exact Or.inl (hreplaces.find_ne hid)

/-- The statements up to the transitions, after a commit that concerns neither the device nor the
authority. -/
theorem RegistryStep.answer_early {call : Call} {q : MembershipQuery}
    (h : RegistryStep crypto s call s')
    (hcall : call.takes crypto s input.workspaceID (·.concerns input.deviceID) = false)
    (hq : q.rank < 4) : answerMembership crypto input s' q = answerMembership crypto input s q := by
  have hsame : memberRow crypto input s' = memberRow crypto input s ∧
      s'.transitionsOf input.workspaceID = s.transitionsOf input.workspaceID := by
    rcases h.kept hcall with hfind | ⟨key, now, hnone, hnew⟩ | ⟨w, w', action, hw, hw', hc, hstep⟩
    · simp only [memberRow, Registry.transitionsOf, hfind, and_self]
    · simp [memberRow, Registry.transitionsOf, hnone, hnew, newWorkspace, Table.empty, Table.find]
    · obtain ⟨hkey, htransitions, hdevice⟩ := hstep.kept hc
      simp [memberRow, Registry.transitionsOf, hw, hw', hkey, htransitions, hdevice]
  cases q with
  | device => exact hsame.1
  | terminalAuthority | firstAuthority | transitions =>
    simp only [answerMembership, selectTerminalAuthority, selectFirstAuthority, selectTransitions,
      hsame.2]
    rfl
  | rosters | latestEpoch => simp [MembershipQuery.rank] at hq

/-- The roster statement, after a commit that publishes nothing. -/
theorem RegistryStep.answer_rosters {call : Call} {after : Int64} {maximumEpoch : Nat}
    (h : RegistryStep crypto s call s')
    (hcall : call.takes crypto s input.workspaceID Action.publishes = false) :
    answerMembership crypto input s' (.rosters after maximumEpoch) =
      answerMembership crypto input s (.rosters after maximumEpoch) := by
  have hsame : s'.rostersOf input.workspaceID = s.rostersOf input.workspaceID := by
    rcases h.kept hcall with hfind | ⟨key, now, hnone, hnew⟩ | ⟨w, w', action, hw, hw', hp, hstep⟩
    · simp only [Registry.rostersOf, hfind]
    · simp [Registry.rostersOf, hnone, hnew, newWorkspace, Table.empty]
    · simp [Registry.rostersOf, hw, hw', hstep.kept_rosters hp]
  simp only [answerMembership, selectRosters, hsame]
  rfl

end Kept

/-! ### Reads -/

section Reads

variable (crypto : Crypto) (input : MembershipRead)

/-- Reads among the commits of others. -/
def membershipReads : Machine MembershipSession (SessionEvent Call) Unit :=
  sessions (answerMembership crypto input) (store crypto)

def startRead (s : Registry) : MembershipSession where
  state := s
  rest := readMembershipState crypto input

variable {crypto input}

theorem Call.takes_mono {s : Registry} {call : Call} {id : WorkspaceID} {p r : Action → Bool}
    (hpr : ∀ a, p a = true → r a = true) (h : call.takes crypto s id r = false) :
    call.takes crypto s id p = false := by
  unfold Call.takes at h ⊢
  split at h
  · rfl
  · rename_i id' action _
    cases hp : p action with
    | false => simp
    | true => simpa [hpr action hp] using h

/-- What was asked before an undisturbing commit has the same answer after it. -/
theorem undisturbed_answer {c : MembershipSession} {call : Call} {s' : Registry}
    {q q' : MembershipQuery} (hcall : undisturbed crypto input c (.commit call) = true)
    (hstep : RegistryStep crypto c.state call s') (hq' : c.rest.pending = some q')
    (hrank : q.rank < q'.rank) :
    answerMembership crypto input s' q = answerMembership crypto input c.state q := by
  have early (hconcerns : call.takes crypto c.state input.workspaceID
      (·.concerns input.deviceID) = false) (hlt : q.rank < 4) :
      answerMembership crypto input s' q = answerMembership crypto input c.state q :=
    hstep.answer_early hconcerns hlt
  cases q' with
  | device => cases hrank
  | terminalAuthority | firstAuthority | transitions | rosters =>
    exact early (by simpa [undisturbed, hq'] using hcall)
      (Nat.lt_of_lt_of_le hrank (by simp [MembershipQuery.rank]))
  | latestEpoch =>
    have hboth : call.takes crypto c.state input.workspaceID
        (fun a => a.concerns input.deviceID || a.publishes) = false := by
      simpa [undisturbed, hq'] using hcall
    cases q with
    | rosters => exact hstep.answer_rosters (Call.takes_mono (by simp +contextual) hboth)
    | latestEpoch => exact absurd hrank (Nat.lt_irrefl _)
    | device | terminalAuthority | firstAuthority | transitions =>
      exact early (Call.takes_mono (by simp +contextual) hboth) (by simp [MembershipQuery.rank])

/-- A commit that does not disturb the read keeps it consistent with the store. -/
theorem commit_consistent {c : MembershipSession} {call : Call}
    (hall : ∀ w ∈ c.state.workspaces.rows, ∃ initial, w.Chained crypto initial)
    (h : c.Consistent (answerMembership crypto input) (readMembershipState crypto input))
    (hcall : undisturbed crypto input c (.commit call) = true) :
    { c with state := ((store crypto).step c.state call).1 }.Consistent
      (answerMembership crypto input) (readMembershipState crypto input) := by
  obtain ⟨asked, hreached⟩ := h
  refine ⟨asked, hreached.congr fun q hq => ?_⟩
  simp only [store]
  split
  · rename_i s' hcommit
    cases hpending : c.rest.pending with
    | none => simp [undisturbed, hpending] at hcall
    | some q' =>
      exact undisturbed_answer hcall (commit_step hall hcommit) hpending
        (hreached.rank_lt readMembershipState_ranked hq hpending)
  · rfl

theorem undisturbed_consistent (calls : List Call) {events : List (SessionEvent Call)}
    (hevents : (membershipReads crypto input).Allowed
      (fun c e => undisturbed crypto input c e = true)
      (startRead crypto input ((store crypto).run .empty calls)) events) :
    (∃ before, ((membershipReads crypto input).run
      (startRead crypto input ((store crypto).run .empty calls)) events).state =
        (store crypto).run .empty before) ∧
    ((membershipReads crypto input).run
      (startRead crypto input ((store crypto).run .empty calls)) events).Consistent
        (answerMembership crypto input) (readMembershipState crypto input) := by
  refine Machine.run_invariant _ (I := fun c =>
    (∃ before, c.state = (store crypto).run .empty before) ∧
      c.Consistent (answerMembership crypto input) (readMembershipState crypto input)) ?_ ?_ hevents
  · rintro c event ⟨⟨before, hbefore⟩, hc⟩ hevent
    cases event with
    | statement => exact ⟨⟨before, (Session.advance_state c).trans hbefore⟩, hc.advance⟩
    | commit call =>
      refine ⟨⟨before ++ [call], ?_⟩, commit_consistent ?_ hc hevent⟩
      · rw [Machine.run_concat, ← hbefore]
        rfl
      · rw [hbefore]
        exact store_all_chained before
  · exact ⟨⟨calls, rfl⟩, [], .start⟩

/-- A read that no commit disturbs returns the view of the store in which it returns.  There the
returned key ends the returned transitions, and a revoked device reads no later roster. -/
theorem reads_are_snapshots (crypto : Crypto) (input : MembershipRead) (calls : List Call)
    (events : List (SessionEvent Call))
    (hevents : (membershipReads crypto input).Allowed
      (fun c e => undisturbed crypto input c e = true)
      (startRead crypto input ((store crypto).run .empty calls)) events)
    (result : Except MembershipReadError MembershipStateView)
    (hdone : ((membershipReads crypto input).run
      (startRead crypto input ((store crypto).run .empty calls)) events).rest = .done result) :
    let s := ((membershipReads crypto input).run
      (startRead crypto input ((store crypto).run .empty calls)) events).state
    (readMembershipState crypto input).eval (answerMembership crypto input s) = result ∧
      ∀ view, result = .ok view →
        (∃ key, TransitionPath crypto key view.authorityTransitions
          view.authorityPublicKey.bytes) ∧
        ∀ w d epoch, s.find input.workspaceID = some w →
          w.devices.find input.deviceID = some d → d.revokedMembershipEpoch = some epoch →
          Clamped crypto view epoch := by
  obtain ⟨⟨before, hbefore⟩, hconsistent⟩ := undisturbed_consistent calls hevents
  have hresult := hconsistent.result hdone
  refine ⟨hresult, fun view hview => ?_⟩
  rw [hview] at hresult
  refine read_in_one_store ?_ hresult
  rw [hbefore]
  exact store_all_chained before

end Reads

/-! ### A rotation in the middle of a read -/

/-- The first device reads from the start. -/
def sampleRead : MembershipRead where
  workspaceID := sampleWorkspace
  deviceID := numbered 15 1
  authToken := (numbered 31 1).bytes
  afterRosterEpoch := 0

/-- The key of a view, and the keys that its transitions lead to. -/
def MembershipStateView.keys (view : MembershipStateView) : Bytes × List (Option Bytes) :=
  (view.authorityPublicKey.bytes, view.authorityTransitions.map fun encoded =>
    (decodeSignedAuthorityKeyTransition sampleCrypto encoded).toOption.map
      (·.body.newAuthorityPublicKey))

def viewKeys (result : Except MembershipReadError MembershipStateView) :
    Option (Bytes × List (Option Bytes)) :=
  result.toOption.map (·.keys)

/-- The store before the rotation. -/
abbrev beforeRotation : Registry := (store sampleCrypto).run .empty (sampleCreation :: enroll 1)

/-- A pairing code is issued after the statement on the device. -/
def pairingWithin : List (SessionEvent Call) :=
  .statement :: .commit (.issuePairingCode
    ⟨sampleWorkspace, some .android, [], sampleInstant, sampleLifetime, numbered 23 2⟩) ::
      List.replicate 5 .statement

theorem reads_are_snapshots_pairing : ∃ view,
    ((membershipReads sampleCrypto sampleRead).run
      (startRead sampleCrypto sampleRead beforeRotation) pairingWithin).rest = .done (.ok view) ∧
    (readMembershipState sampleCrypto sampleRead).eval (answerMembership sampleCrypto sampleRead
      ((membershipReads sampleCrypto sampleRead).run
        (startRead sampleCrypto sampleRead beforeRotation) pairingWithin).state) = .ok view := by
  obtain ⟨hevents, hsome⟩ : (membershipReads sampleCrypto sampleRead).Allowed
        (fun c e => undisturbed sampleCrypto sampleRead c e = true)
        (startRead sampleCrypto sampleRead beforeRotation) pairingWithin ∧
      (((membershipReads sampleCrypto sampleRead).run
        (startRead sampleCrypto sampleRead beforeRotation) pairingWithin).rest.result?.bind
          Except.toOption).isSome = true := by
    decide +kernel
  obtain ⟨view, hview⟩ := Option.isSome_iff_exists.mp hsome
  obtain ⟨result, hresult, hok⟩ := Option.bind_eq_some_iff.mp hview
  cases result with
  | error e => cases hok
  | ok view =>
    have hdone := Statements.result?_eq_some.mp hresult
    exact ⟨view, hdone, (reads_are_snapshots sampleCrypto sampleRead _ _ hevents _ hdone).1⟩

/-- The authority rotates after the statement on the device. -/
def rotationWithin : List (SessionEvent Call) :=
  .statement :: .commit (.rotateWorkspaceAuthority sampleRotation) :: List.replicate 5 .statement

/-- The read returns the old key with the transition to the new one, as no store would. -/
theorem read_mixes_stores :
    (((membershipReads sampleCrypto sampleRead).run
      (startRead sampleCrypto sampleRead beforeRotation) rotationWithin).rest.result?.bind
        viewKeys) = some (List.replicate 32 1, [some (List.replicate 32 2)]) ∧
    viewKeys ((readMembershipState sampleCrypto sampleRead).eval
      (answerMembership sampleCrypto sampleRead beforeRotation)) =
        some (List.replicate 32 1, []) ∧
    viewKeys ((readMembershipState sampleCrypto sampleRead).eval
      (answerMembership sampleCrypto sampleRead ((store sampleCrypto).run .empty sampleCalls))) =
        some (List.replicate 32 2, [some (List.replicate 32 2)]) := by
  decide +kernel

end SevenMirror.Admission
