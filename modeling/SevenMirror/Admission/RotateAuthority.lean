import SevenMirror.Lib.Statements
import SevenMirror.Admission.Authorization
import SevenMirror.Admission.AuthorityKeys

/-! The `rotate-authority` command of `cmd/admin/main.go`.  It asks whether the rotation to its key
was completed before, loads the private key of the authority in force, and rotates.  These are
separate steps, between which other commands may commit; the rotation itself makes sure that only one
of them does.  What `CompletedWorkspaceAuthorityRotation` reports is put together from three tables,
and stays what the rotation reported until the next rotation. -/

namespace SevenMirror.Admission

open Lib MembershipCodec

/-! ### CompletedWorkspaceAuthorityRotation -/

inductive CompletionQuery
  | current
  | rosterDigest (epoch : Nat)

/-- The key in force, its epoch, and the signed transition of that epoch; the digest of a roster. -/
def CompletionQuery.Rows : CompletionQuery → Type
  | .current => Option (Block 32 × Nat × Bytes)
  | .rosterDigest _ => Option (Block 32)

inductive CompletionError
  | invalidTransition
  | missingRoster
deriving DecidableEq, Repr

def answerCompletion (id : WorkspaceID) (s : Registry) : (q : CompletionQuery) → q.Rows
  | .current => do
    let w ← s.find id
    let t ← w.transitions.find w.authorityEpoch
    return (w.authorityPublicKey, w.authorityEpoch, t.signedTransition)
  | .rosterDigest epoch => do
    let w ← s.find id
    let r ← w.rosters.find epoch
    return r.digest

/-- The answer of a completed rotation, or `none` for `ok = false`. -/
abbrev Completion := Except CompletionError (Option RotatedWorkspaceAuthority)

abbrev CompletionReading := Statements CompletionQuery CompletionQuery.Rows Completion

section Completion

variable (crypto : Crypto) (expectedNewAuthority : Block 32)

/-- The second statement, for the activation roster of the transition. -/
def readActivation (authorityEpoch : Nat) (transitionEncoded transitionDigest : Bytes)
    (activationRosterEpoch : Nat) : CompletionReading :=
  .query (.rosterDigest activationRosterEpoch) fun
    | none => .done (.error .missingRoster)
    | some rosterDigest => .done (.ok (some
        ⟨authorityEpoch, transitionDigest, activationRosterEpoch, rosterDigest.bytes,
          transitionEncoded⟩))

def completedWorkspaceAuthorityRotation : CompletionReading :=
  .query .current fun
    | none => .done (.ok none)
    | some (currentPublicKey, authorityEpoch, transitionEncoded) =>
      if currentPublicKey ≠ expectedNewAuthority then .done (.ok none)
      else
        match decodeSignedAuthorityKeyTransition crypto transitionEncoded with
        | .error _ => .done (.error .invalidTransition)
        | .ok transition =>
          if transition.body.transitionEpoch ≠ UInt64.ofNat authorityEpoch ∨
              transition.body.newAuthorityPublicKey ≠ expectedNewAuthority.bytes then
            .done (.error .invalidTransition)
          else readActivation authorityEpoch transitionEncoded transition.transitionDigest
            transition.body.activationRosterEpoch.toNat

end Completion

/-- The workspace holds what the rotation to `key` reported. -/
structure Workspace.Completed (crypto : Crypto) (w : Workspace) (key : Block 32)
    (rotated : RotatedWorkspaceAuthority) : Prop where
  current : w.authorityPublicKey = key
  epoch : w.authorityEpoch = rotated.authorityEpoch
  transition : ∃ t ∈ w.transitions.rows, t.epoch = w.authorityEpoch ∧
    t.signedTransition = rotated.signedTransition
  decodes : ∃ m, decodeSignedAuthorityKeyTransition crypto rotated.signedTransition = .ok m ∧
    m.body.transitionEpoch = UInt64.ofNat rotated.authorityEpoch ∧
    m.body.newAuthorityPublicKey = key.bytes ∧ m.transitionDigest = rotated.transitionDigest ∧
    m.body.activationRosterEpoch.toNat = rotated.rosterEpoch
  roster : ∃ r ∈ w.rosters.rows, r.epoch = rotated.rosterEpoch ∧
    r.digest.bytes = rotated.rosterDigest

section Completed

variable {crypto : Crypto} {s : Registry} {w w' : Workspace} {id : WorkspaceID} {key : Block 32}
  {rotated : RotatedWorkspaceAuthority}

theorem Rotates.completed {initial : Block 32} {input : RotateWorkspaceAuthorityInput}
    {t : TransitionRow} {r : RosterRow} (h : Rotates w w' input rotated t r)
    (hchained : w'.Chained crypto initial) :
    w'.Completed crypto w'.authorityPublicKey rotated := by
  have ht : t ∈ w'.transitions.rows := by
    rw [h.transitions]
    exact List.mem_concat_self
  obtain ⟨m, hm, -⟩ := hchained.authority.holds t ht
  refine ⟨rfl, h.epoch.2.symm, ⟨t, ht, h.epoch.1, h.signed⟩, ⟨m, ?_, ?_, ?_, ?_, ?_⟩,
    ⟨r, h.roster.1, h.roster.2, h.rosterDigest⟩⟩
  · rw [← h.signed]
    exact hm.decodes
  · rw [h.epoch.2, ← h.epoch.1, ← hm.epoch, UInt64.ofNat_toNat]
  · rw [hm.newKey, h.newKey]
  · exact hm.digest.trans h.digest
  · exact hm.activation.trans h.activation

theorem Workspace.Completed.same (h : w.Completed crypto key rotated) (hsame : SameAuthority w w') :
    w'.Completed crypto key rotated := by
  obtain ⟨t, ht, hepoch, hsigned⟩ := h.transition
  obtain ⟨r, hr, hroster⟩ := h.roster
  refine ⟨hsame.key.trans h.current, hsame.epoch.trans h.epoch, ⟨t, ?_, ?_, hsigned⟩, h.decodes,
    ⟨r, hsame.rosters r hr, hroster⟩⟩
  · rw [hsame.transitions]
    exact ht
  · rw [hsame.epoch]
    exact hepoch

theorem answer_current (h : w.Completed crypto key rotated) (hw : s.find id = some w) :
    answerCompletion id s .current =
      some (key, rotated.authorityEpoch, rotated.signedTransition) := by
  obtain ⟨t, ht, hepoch, hsigned⟩ := h.transition
  have hfind : w.transitions.find w.authorityEpoch = some t := Table.find_eq_some.mpr ⟨ht, hepoch⟩
  simp only [answerCompletion, hw, hfind, Option.bind_eq_bind, Option.bind_some, Option.pure_def,
    h.current, hsigned]
  rw [h.epoch]

theorem answer_rosterDigest (h : w.Completed crypto key rotated) (hw : s.find id = some w) :
    ∃ digest : Block 32, digest.bytes = rotated.rosterDigest ∧
      answerCompletion id s (.rosterDigest rotated.rosterEpoch) = some digest := by
  obtain ⟨r, hr, hepoch, hdigest⟩ := h.roster
  have hfind : w.rosters.find rotated.rosterEpoch = some r := Table.find_eq_some.mpr ⟨hr, hepoch⟩
  refine ⟨r.digest, hdigest, ?_⟩
  simp only [answerCompletion, hw, hfind, Option.bind_eq_bind, Option.bind_some, Option.pure_def]
  rfl

/-- The second statement of a check that finds its key in force. -/
def RotatedWorkspaceAuthority.readActivation (rotated : RotatedWorkspaceAuthority) :
    CompletionReading :=
  Admission.readActivation rotated.authorityEpoch rotated.signedTransition rotated.transitionDigest
    rotated.rosterEpoch

/-- What the first statement of a check leads to. -/
theorem completed_current (h : w.Completed crypto key rotated) (hw : s.find id = some w)
    (expected : Block 32) : ∃ next, completedWorkspaceAuthorityRotation crypto expected =
        .query .current next ∧
      next (answerCompletion id s .current) =
        if expected = key then rotated.readActivation else .done (.ok none) := by
  refine ⟨_, rfl, ?_⟩
  obtain ⟨m, hm, hepoch, hkey, hdigest, hactivation⟩ := h.decodes
  rw [answer_current h hw]
  by_cases hexpected : expected = key
  · subst hexpected
    simp [hm, hepoch, hkey, hdigest, hactivation, RotatedWorkspaceAuthority.readActivation]
  · simp [hexpected, Ne.symm hexpected]

/-- What the second statement leads to. -/
theorem completed_activation (h : w.Completed crypto key rotated) (hw : s.find id = some w) :
    ∃ next, rotated.readActivation = .query (.rosterDigest rotated.rosterEpoch) next ∧
      next (answerCompletion id s (.rosterDigest rotated.rosterEpoch)) =
        .done (.ok (some rotated)) := by
  obtain ⟨digest, hroster, hanswer⟩ := answer_rosterDigest h hw
  refine ⟨_, rfl, ?_⟩
  rw [hanswer]
  simp only [hroster]

/-- The answer of the check. -/
def completion (key : Block 32) (rotated : RotatedWorkspaceAuthority) (expected : Block 32) :
    Completion :=
  .ok (if expected = key then some rotated else none)

theorem completed_eval (h : w.Completed crypto key rotated) (hw : s.find id = some w)
    (expected : Block 32) :
    (completedWorkspaceAuthorityRotation crypto expected).eval (answerCompletion id s) =
      completion key rotated expected := by
  obtain ⟨next, hnext, hfirst⟩ := completed_current h hw expected
  obtain ⟨next', hnext', hsecond⟩ := completed_activation h hw
  rw [hnext, Statements.eval, hfirst, completion]
  split
  · rw [hnext', Statements.eval, hsecond]
    rfl
  · rfl

/-! ### A check among the commits of others -/

abbrev CompletionSession := Session Registry CompletionQuery CompletionQuery.Rows Completion

/-- A `CompletedWorkspaceAuthorityRotation` among the commits of others. -/
def completions (crypto : Crypto) (id : WorkspaceID) :
    Machine CompletionSession (SessionEvent Call) Unit :=
  sessions (answerCompletion id) (store crypto)

def startCompletion (crypto : Crypto) (expected : Block 32) (s : Registry) : CompletionSession where
  state := s
  rest := completedWorkspaceAuthorityRotation crypto expected

/-- The event is not another rotation of the workspace. -/
def KeepsAuthority (crypto : Crypto) (id : WorkspaceID) (c : CompletionSession)
    (event : SessionEvent Call) : Prop :=
  ∀ call, event = .commit call → ¬ call.commits crypto c.state id .rotateAuthority

/-- The check has asked nothing, or asks for the activation roster, or is complete. -/
structure Checking (crypto : Crypto) (id : WorkspaceID) (key : Block 32)
    (rotated : RotatedWorkspaceAuthority) (expected : Block 32) (c : CompletionSession) : Prop where
  reachable : Reachable crypto c.state
  free : c.held = false
  completed : ∃ w, c.state.find id = some w ∧ w.Completed crypto key rotated
  rest : c.rest = completedWorkspaceAuthorityRotation crypto expected ∨
    (expected = key ∧ c.rest = rotated.readActivation) ∨
    c.rest = .done (completion key rotated expected)

/-- A call that does not rotate the authority leaves a completed rotation. -/
theorem Reachable.keeps_completed (hs : Reachable crypto s) {call : Call}
    (hspares : ¬ call.commits crypto s id .rotateAuthority) (hw : s.find id = some w)
    (h : w.Completed crypto key rotated) :
    ∃ w', ((store crypto).step s call).1.find id = some w' ∧ w'.Completed crypto key rotated := by
  cases hcommit : commit crypto s call with
  | error e =>
    rw [store_error hcommit]
    exact ⟨w, hw, h⟩
  | ok s' =>
    rw [store_ok hcommit]
    obtain ⟨w', hw', hsame | ⟨input, rotated, t, r, rfl, rfl, -⟩⟩ := commit_authority hs hcommit hw
    · exact ⟨w', hw', h.same hsame⟩
    · rw [Call.commits_of_ok hcommit] at hspares
      exact absurd (decide_eq_true rfl) hspares

theorem Checking.step {expected : Block 32} {c : CompletionSession} {event : SessionEvent Call}
    (h : Checking crypto id key rotated expected c) (hevent : KeepsAuthority crypto id c event) :
    Checking crypto id key rotated expected ((completions crypto id).step c event).1 := by
  obtain ⟨w, hw, hcompleted⟩ := h.completed
  cases event with
  | commit call =>
    exact ⟨h.reachable.step call, h.free,
      h.reachable.keeps_completed (hevent call rfl) hw hcompleted, h.rest⟩
  | statement =>
    show Checking crypto id key rotated expected (c.advance (answerCompletion id))
    rcases h.rest with hrest | ⟨rfl, hrest⟩ | hrest
    · obtain ⟨next, hnext, hfirst⟩ := completed_current hcompleted hw expected
      rw [hnext] at hrest
      rw [Session.advance_query hrest, h.free, if_neg Bool.false_ne_true, hfirst]
      refine ⟨h.reachable, rfl, ⟨w, hw, hcompleted⟩, Or.inr ?_⟩
      by_cases hexpected : expected = key
      · exact Or.inl ⟨hexpected, if_pos hexpected⟩
      · refine Or.inr ?_
        simp [completion, hexpected]
    · obtain ⟨next, hnext, hsecond⟩ := completed_activation hcompleted hw
      rw [hnext] at hrest
      rw [Session.advance_query hrest, h.free, if_neg Bool.false_ne_true, hsecond]
      exact ⟨h.reachable, rfl, ⟨w, hw, hcompleted⟩, Or.inr (Or.inr (by simp [completion]))⟩
    · rw [Session.advance_done hrest]
      exact h

end Completed

/-! ### The command -/

/-- The workspace of the command and the key of its prepared file. -/
structure RotateAuthority where
  workspaceID : WorkspaceID
  newPrivateKey : Bytes
  newPublicKey : Block 32
  loaded : newPublicKey.bytes = publicKey newPrivateKey

inductive CommandResult
  | failed
  | alreadyRotated (completed : RotatedWorkspaceAuthority)
  | rotated (rotated : RotatedWorkspaceAuthority)

/-- What a command does next: a statement of the completion check, the read of the key in force, the
read of its file, or the rotation. -/
inductive CommandState
  | checking (rest : CompletionReading)
  | loadingPublicKey
  | loadingPrivateKey (expected : Block 32)
  | rotating (previousPrivateKey : Bytes)
  | finished (result : CommandResult)

/-- The store and the commands. -/
structure CommandWorld where
  state : Registry
  commands : List CommandState := []

/-- A command starts or takes its next step, or another client calls.  A command that reads a key file
finds the private key `file` there. -/
inductive CommandEvent
  | start
  | step (i : Nat) (file : Option Bytes) (now : Time)
  | call (call : Call)

section Commands

variable (crypto : Crypto) (args : RotateAuthority)

def startCommand : CommandState :=
  .checking (completedWorkspaceAuthorityRotation crypto args.newPublicKey)

/-- A check that is complete. -/
def checked : CompletionReading → CommandState
  | .done (.error _) => .finished .failed
  | .done (.ok (some completed)) => .finished (.alreadyRotated completed)
  | .done (.ok none) => .loadingPublicKey
  | rest => .checking rest

/-- The next step of a command, with the rotation that it commits. -/
def CommandState.next (file : Option Bytes) (now : Time) (s : Registry) :
    CommandState → Registry × CommandState × Option RotatedWorkspaceAuthority
  | .checking (.query q next) => (s, checked (next (answerCompletion args.workspaceID s q)), none)
  | .checking (.rows q next) => (s, checked (next (answerCompletion args.workspaceID s q)), none)
  | .checking (.close next) => (s, checked next, none)
  | .checking (.done result) => (s, checked (.done result), none)
  | .loadingPublicKey =>
    match workspaceAuthorityPublicKey s args.workspaceID with
    | none => (s, .finished .failed, none)
    | some publicKey => (s, .loadingPrivateKey publicKey, none)
  | .loadingPrivateKey expected =>
    match file with
    | none => (s, .finished .failed, none)
    | some privateKey =>
      if privateKey.length ≠ ed25519PrivateKeySize ∨ publicKey privateKey ≠ expected.bytes then
        (s, .finished .failed, none)
      else (s, .rotating privateKey, none)
  | .rotating previousPrivateKey =>
    match rotateWorkspaceAuthority crypto s
        ⟨args.workspaceID, previousPrivateKey, args.newPrivateKey, now⟩ with
    | .error _ => (s, .finished .failed, none)
    | .ok (s', rotated) => (s', .finished (.rotated rotated), some rotated)
  | .finished result => (s, .finished result, none)

/-- Commands with the same new key, among the calls of others. -/
def commands : Machine CommandWorld CommandEvent (Option RotatedWorkspaceAuthority) where
  step c
    | .start => ({ c with commands := c.commands ++ [startCommand crypto args] }, none)
    | .call call => ({ c with state := ((store crypto).step c.state call).1 }, none)
    | .step i file now =>
      match c.commands[i]? with
      | none => (c, none)
      | some command =>
        let (s, command, rotated) := command.next crypto args file now c.state
        (⟨s, c.commands.set i command⟩, rotated)

/-- The event is not another rotation of the workspace. -/
def CommandEvent.Spares (c : CommandWorld) : CommandEvent → Prop
  | .call other => ¬ other.commits crypto c.state args.workspaceID .rotateAuthority
  | _ => True

end Commands

section Runs

variable {crypto : Crypto} {args : RotateAuthority} {s : Registry} {c : CommandWorld}

/-- A step of a command leaves the store, or is a rotation that succeeds. -/
theorem CommandState.next_cases (crypto : Crypto) (args : RotateAuthority) (file : Option Bytes)
    (now : Time) (s : Registry) (command : CommandState) :
    ((command.next crypto args file now s).1 = s ∧
        (command.next crypto args file now s).2.2 = none) ∨
      ∃ previousPrivateKey s' rotated, rotateWorkspaceAuthority crypto s
          ⟨args.workspaceID, previousPrivateKey, args.newPrivateKey, now⟩ = .ok (s', rotated) ∧
        command.next crypto args file now s =
          (s', .finished (.rotated rotated), some rotated) := by
  cases command with
  | checking rest => cases rest <;> exact Or.inl ⟨rfl, rfl⟩
  | loadingPublicKey =>
    left
    cases hkey : workspaceAuthorityPublicKey s args.workspaceID <;> simp [CommandState.next, hkey]
  | loadingPrivateKey expected =>
    left
    cases file with
    | none => exact ⟨rfl, rfl⟩
    | some privateKey =>
      simp only [CommandState.next]
      split <;> exact ⟨rfl, rfl⟩
  | rotating previousPrivateKey =>
    cases hrotate : rotateWorkspaceAuthority crypto s
        ⟨args.workspaceID, previousPrivateKey, args.newPrivateKey, now⟩ with
    | error e => simp [CommandState.next, hrotate]
    | ok result =>
      obtain ⟨s', rotated⟩ := result
      exact Or.inr ⟨previousPrivateKey, s', rotated, hrotate, by simp [CommandState.next, hrotate]⟩
  | finished => exact Or.inl ⟨rfl, rfl⟩

/-- A rotation to the key of the command replaces another one. -/
theorem rotates_key {previousPrivateKey : Bytes} {now : Time} {s' : Registry}
    {rotated : RotatedWorkspaceAuthority}
    (h : rotateWorkspaceAuthority crypto s
      ⟨args.workspaceID, previousPrivateKey, args.newPrivateKey, now⟩ = .ok (s', rotated)) :
    workspaceAuthorityPublicKey s args.workspaceID ≠ some args.newPublicKey ∧
      workspaceAuthorityPublicKey s' args.workspaceID = some args.newPublicKey := by
  obtain ⟨w, -, hw, -⟩ := rotateWorkspaceAuthority_ok h
  obtain ⟨w', t, r, hw', -, hrotates, hother⟩ := rotateWorkspaceAuthority_rotates hw h
  have hnew : w'.authorityPublicKey = args.newPublicKey :=
    Block.ext (hrotates.key.trans args.loaded.symm)
  constructor
  · intro hkey
    simp only [workspaceAuthorityPublicKey, hw, Option.map_some, Option.some.injEq] at hkey
    rw [← hrotates.previous, ← args.loaded, hkey] at hother
    exact hother rfl
  · have hfind : s'.find args.workspaceID = some w' := hw'
    rw [workspaceAuthorityPublicKey, hfind, Option.map_some, hnew]

/-- A call that does not rotate the authority leaves the key in force. -/
theorem Reachable.keeps_key (hs : Reachable crypto s) {id : WorkspaceID} {call : Call}
    (hspares : ¬ call.commits crypto s id .rotateAuthority) {key : Block 32}
    (hkey : workspaceAuthorityPublicKey s id = some key) :
    workspaceAuthorityPublicKey ((store crypto).step s call).1 id = some key := by
  obtain ⟨w, hw, rfl⟩ := Option.map_eq_some_iff.mp hkey
  cases hcommit : commit crypto s call with
  | error e =>
    rw [store_error hcommit]
    exact hkey
  | ok s' =>
    rw [store_ok hcommit]
    obtain ⟨w', hw', hsame | ⟨input, rotated, t, r, rfl, rfl, -⟩⟩ := commit_authority hs hcommit hw
    · rw [workspaceAuthorityPublicKey, hw', Option.map_some, hsame.key]
    · rw [Call.commits_of_ok hcommit] at hspares
      exact absurd (decide_eq_true rfl) hspares

theorem commands_step (crypto : Crypto) (args : RotateAuthority) (c : CommandWorld)
    (event : CommandEvent) :
    (((commands crypto args).step c event).2 = none ∧
        (((commands crypto args).step c event).1.state = c.state ∨
          ∃ call, event = .call call ∧
            ((commands crypto args).step c event).1.state =
              ((store crypto).step c.state call).1)) ∨
      ∃ previousPrivateKey now s' rotated, rotateWorkspaceAuthority crypto c.state
          ⟨args.workspaceID, previousPrivateKey, args.newPrivateKey, now⟩ = .ok (s', rotated) ∧
        ((commands crypto args).step c event).1.state = s' := by
  cases event with
  | start => exact Or.inl ⟨rfl, Or.inl rfl⟩
  | call call => exact Or.inl ⟨rfl, Or.inr ⟨call, rfl, rfl⟩⟩
  | step i file now =>
    simp only [commands]
    cases c.commands[i]? with
    | none => exact Or.inl ⟨rfl, Or.inl rfl⟩
    | some command =>
      rcases command.next_cases crypto args file now c.state with
        ⟨hsame, hnone⟩ | ⟨previousPrivateKey, s', rotated, hok, hnext⟩
      · exact Or.inl ⟨hnone, Or.inl hsame⟩
      · refine Or.inr ⟨previousPrivateKey, now, s', rotated, hok, ?_⟩
        simp only [hnext]

theorem Reachable.commands_step (hs : Reachable crypto c.state) (event : CommandEvent) :
    Reachable crypto ((commands crypto args).step c event).1.state := by
  rcases Admission.commands_step crypto args c event with
    ⟨-, hsame | ⟨call, -, hcall⟩⟩ | ⟨previousPrivateKey, now, s', rotated, hok, hstate⟩
  · rw [hsame]
    exact hs
  · rw [hcall]
    exact hs.step call
  · rw [hstate]
    exact hs.commits (.rotateWorkspaceAuthority _) (map_eq_ok.mpr ⟨_, hok, rfl⟩)

/-- At most one of the commands commits. -/
theorem commands_rotate_once (hs : Reachable crypto s) {events : List CommandEvent}
    (hevents : (commands crypto args).Allowed (fun c e => e.Spares crypto args c) ⟨s, []⟩ events) :
    ((commands crypto args).trace ⟨s, []⟩ events).countP (·.2.isSome) ≤ 1 := by
  refine ((commands crypto args).counts_at_most_once
    (fun c e => Reachable crypto c.state ∧ e.Spares crypto args c) _
    (fun c => workspaceAuthorityPublicKey c.state args.workspaceID = some args.newPublicKey) ?_ ?_
    ((commands crypto args).allowed_and_invariant (I := fun c => Reachable crypto c.state)
      (fun c e hc _ => hc.commands_step e) hs hevents)).1
  · intro c event _ hcounts
    rcases commands_step crypto args c event with
      ⟨hnone, -⟩ | ⟨previousPrivateKey, now, s', rotated, hok, hstate⟩
    · rw [hnone] at hcounts
      cases hcounts
    · rw [hstate]
      exact rotates_key hok
  · intro c event hevent hkey
    rcases commands_step crypto args c event with
      ⟨-, hsame | ⟨call, rfl, hcall⟩⟩ | ⟨previousPrivateKey, now, s', rotated, hok, hstate⟩
    · rw [hsame]
      exact hkey
    · rw [hcall]
      exact hevent.1.keeps_key hevent.2 hkey
    · rw [hstate]
      exact (rotates_key hok).2

end Runs

/-- The rotation of an authority can be retried.  Until the next rotation of the workspace, the check
for the new key reports what the rotation reported, and the check for any other key reports nothing,
whatever commits before the check or between its statements.  Of commands with the same new key, at
most one commits a rotation. -/
theorem authority_rotation_retried (crypto : Crypto) (s : Registry) (hs : Reachable crypto s) :
    (∀ input s' rotated, rotateWorkspaceAuthority crypto s input = .ok (s', rotated) →
      ∃ key : Block 32, key.bytes = publicKey input.newAuthorityPrivateKey ∧
        ∀ expected events, (completions crypto input.workspaceID).Allowed
            (KeepsAuthority crypto input.workspaceID) (startCompletion crypto expected s') events →
          (completedWorkspaceAuthorityRotation crypto expected).eval
              (answerCompletion input.workspaceID ((completions crypto input.workspaceID).run
                (startCompletion crypto expected s') events).state) =
            .ok (if expected = key then some rotated else none) ∧
          ∀ result, ((completions crypto input.workspaceID).run
              (startCompletion crypto expected s') events).rest = .done result →
            result = .ok (if expected = key then some rotated else none)) ∧
    ∀ args events,
      (commands crypto args).Allowed (fun c e => e.Spares crypto args c) ⟨s, []⟩ events →
      ((commands crypto args).trace ⟨s, []⟩ events).countP (·.2.isSome) ≤ 1 := by
  refine ⟨fun input s' rotated hok => ?_, fun args events => commands_rotate_once hs⟩
  obtain ⟨w, -, hw, -⟩ := rotateWorkspaceAuthority_ok hok
  obtain ⟨w', t, r, hw', -, hrotates, -⟩ := rotateWorkspaceAuthority_rotates hw hok
  have hs' : Reachable crypto s' :=
    hs.commits (.rotateWorkspaceAuthority input) (map_eq_ok.mpr ⟨_, hok, rfl⟩)
  obtain ⟨initial, hchained⟩ := hs'.chained w' (Registry.find_eq_some.mp hw').1
  have hcompleted := hrotates.completed hchained
  refine ⟨w'.authorityPublicKey, hrotates.key, fun expected events hevents => ?_⟩
  have hchecking : Checking crypto input.workspaceID w'.authorityPublicKey rotated expected
      ((completions crypto input.workspaceID).run (startCompletion crypto expected s') events) :=
    (completions crypto input.workspaceID).run_invariant (fun c event hc hevent => hc.step hevent)
      ⟨hs', rfl, ⟨w', hw', hcompleted⟩, Or.inl rfl⟩ hevents
  obtain ⟨v, hv, hcompleted'⟩ := hchecking.completed
  refine ⟨completed_eval hcompleted' hv expected, fun result hresult => ?_⟩
  rcases hchecking.rest with hrest | ⟨-, hrest⟩ | hrest
  · rw [hresult] at hrest
    cases hrest
  · rw [hresult] at hrest
    cases hrest
  · rw [hresult] at hrest
    exact Statements.done.inj hrest

/-- A workspace with a member, under its first key. -/
def enrolledRegistry : Registry := (store sampleCrypto).run .empty (sampleCreation :: enroll 1)

def sampleCommand : RotateAuthority :=
  ⟨sampleWorkspace, samplePrivateKey 2, ⟨List.replicate 32 2, rfl⟩, by decide +kernel⟩

/-- Two commands check and load before either rotates. -/
def racingCommands : List CommandEvent :=
  let step (i : Nat) : CommandEvent := .step i (some (samplePrivateKey 1)) sampleInstant
  [.start, .start, step 0, step 1, step 0, step 1, step 0, step 1, step 0, step 1]

theorem authority_rotation_retried_race :
    (∃ s' rotated, rotateWorkspaceAuthority sampleCrypto enrolledRegistry sampleRotation =
        .ok (s', rotated) ∧
      ∃ key, (completedWorkspaceAuthorityRotation sampleCrypto key).eval
        (answerCompletion sampleWorkspace s') = .ok (some rotated)) ∧
    ((commands sampleCrypto sampleCommand).trace ⟨enrolledRegistry, []⟩ racingCommands).map
      (·.2.isSome) = [false, false, false, false, false, false, false, false, true, false] ∧
    ((commands sampleCrypto sampleCommand).trace ⟨enrolledRegistry, []⟩ racingCommands).countP
      (·.2.isSome) ≤ 1 := by
  have hretried := authority_rotation_retried sampleCrypto enrolledRegistry ⟨_, rfl⟩
  obtain ⟨hisOk, htrace⟩ :
      (rotateWorkspaceAuthority sampleCrypto enrolledRegistry sampleRotation).isOk ∧
      ((commands sampleCrypto sampleCommand).trace ⟨enrolledRegistry, []⟩ racingCommands).map
        (·.2.isSome) = [false, false, false, false, false, false, false, false, true, false] := by
    decide +kernel
  refine ⟨?_, htrace, hretried.2 sampleCommand racingCommands ?_⟩
  · obtain ⟨⟨s', rotated⟩, hok⟩ := isOk_iff.mp hisOk
    obtain ⟨key, -, hcheck⟩ := hretried.1 sampleRotation s' rotated hok
    refine ⟨s', rotated, hok, key, ?_⟩
    have hcompleted := (hcheck key [] trivial).1
    rw [if_pos rfl] at hcompleted
    exact hcompleted
  · exact ⟨trivial, trivial, trivial, trivial, trivial, trivial, trivial, trivial, trivial, trivial,
      trivial⟩

end SevenMirror.Admission
