import SevenMirror.Admission.Rotation
import SevenMirror.Lib.Statements

/-! `ReadMembershipState` of `internal/admission/store.go`: its statements, what each of them reads,
and what the call does with the rows.  `Open` gives the store one connection. -/

namespace SevenMirror.Admission

open Lib MembershipCodec

def maxMembershipRosterPage : Nat := 256

def maxMembershipRosterPageRaw : Nat := 0x100000

def maxAuthorityTransitions : Nat := 256

/-- The arguments of the call. -/
structure MembershipRead where
  workspaceID : WorkspaceID
  deviceID : DeviceID
  authToken : Bytes
  afterRosterEpoch : Int64

structure MembershipStateView where
  state : MembershipState
  authorityPublicKey : Block 32
  signedCertificate : Bytes
  authorityTransitions : List Bytes := []
  rosters : List Bytes := []
  latestRosterEpoch : Nat := 0
deriving DecidableEq, Repr

inductive MembershipReadError
  | unavailable | certificateInvalid | transitionLimit | notContiguous
deriving DecidableEq, Repr

/-! ### The statements -/

/-- The columns of the device and its workspace. -/
structure MemberRow where
  state : MembershipState
  authorityPublicKey : Block 32
  signedCertificate : Option Bytes
  revokedMembershipEpoch : Option Nat
deriving DecidableEq, Repr

inductive MembershipQuery
  | device
  | terminalAuthority (maximumEpoch : Nat)
  | firstAuthority
  | transitions (after : Int64) (maximumEpoch : Nat)
  | rosters (after : Int64) (maximumEpoch : Nat)
  | latestEpoch
deriving DecidableEq, Repr

/-- What a statement selects. -/
def MembershipQuery.Rows : MembershipQuery → Type
  | .device => Option MemberRow
  | .terminalAuthority _ => Option (Block 32)
  | .firstAuthority => Option (Block 32)
  | .transitions _ _ => List Bytes
  | .rosters _ _ => List (Nat × Bytes)
  | .latestEpoch => Nat

/-- The conditions of the device statement on the state of the device. -/
def Device.readable (d : Device) : Bool :=
  (d.revokedAtMs = none ∧ (d.membershipState = .pendingProof ∨
    d.membershipState = .pendingApproval ∨ d.membershipState = .approved)) ∨
  (d.membershipState = .revoked ∧ d.revokedMembershipEpoch.isSome)

/-- `WHERE p ORDER BY key`. -/
def orderedRows {ρ : Type} (key : ρ → Nat) (p : ρ → Bool) (rows : List ρ) : List ρ :=
  (rows.filter p).insertionSort fun a b => key a ≤ key b

def Registry.transitionsOf (s : Registry) (id : WorkspaceID) : List TransitionRow :=
  ((s.find id).map (·.transitions.rows)).getD []

def Registry.rostersOf (s : Registry) (id : WorkspaceID) : List RosterRow :=
  ((s.find id).map (·.rosters.rows)).getD []

/-- `COALESCE(MAX(epoch), 0)`. -/
def maxRosterEpoch (rows : List RosterRow) : Nat := rows.foldl (fun m r => Nat.max m r.epoch) 0

variable (crypto : Crypto) (input : MembershipRead)

/-- The statement on the device, joined with its workspace. -/
def memberRow (s : Registry) : Option MemberRow := do
  let w ← s.find input.workspaceID
  let d ← w.devices.find input.deviceID
  if d.authTokenHash = crypto.sha256 input.authToken ∧ d.readable then
    some ⟨d.membershipState, w.authorityPublicKey, d.signedCertificate, d.revokedMembershipEpoch⟩
  else none

/-- `after < epoch AND epoch <= maximumEpoch`. -/
def within (after : Int64) (maximumEpoch epoch : Nat) : Bool :=
  after.toInt < epoch ∧ epoch ≤ maximumEpoch

/-- The new key of the last transition up to an epoch. -/
def selectTerminalAuthority (s : Registry) (maximumEpoch : Nat) : Option (Block 32) :=
  (orderedRows TransitionRow.activationRosterEpoch
    (fun t => t.activationRosterEpoch ≤ maximumEpoch)
    (s.transitionsOf input.workspaceID)).getLast?.map (·.newAuthorityPublicKey)

/-- The previous key of the first transition. -/
def selectFirstAuthority (s : Registry) : Option (Block 32) :=
  (orderedRows TransitionRow.activationRosterEpoch (fun _ => true)
    (s.transitionsOf input.workspaceID)).head?.map (·.previousAuthorityPublicKey)

def selectTransitions (s : Registry) (after : Int64) (maximumEpoch : Nat) : List Bytes :=
  ((orderedRows TransitionRow.epoch (fun t => within after maximumEpoch t.activationRosterEpoch)
    (s.transitionsOf input.workspaceID)).take (maxAuthorityTransitions + 1)).map
      (·.signedTransition)

def selectRosters (s : Registry) (after : Int64) (maximumEpoch : Nat) : List (Nat × Bytes) :=
  ((orderedRows RosterRow.epoch (fun r => within after maximumEpoch r.epoch)
    (s.rostersOf input.workspaceID)).take maxMembershipRosterPage).map
      fun r => (r.epoch, r.signedRoster)

def answerMembership (s : Registry) : (q : MembershipQuery) → q.Rows
  | .device => memberRow crypto input s
  | .terminalAuthority maximumEpoch => selectTerminalAuthority input s maximumEpoch
  | .firstAuthority => selectFirstAuthority input s
  | .transitions after maximumEpoch => selectTransitions input s after maximumEpoch
  | .rosters after maximumEpoch => selectRosters input s after maximumEpoch
  | .latestEpoch => maxRosterEpoch (s.rostersOf input.workspaceID)

/-! ### The call -/

abbrev MembershipReading :=
  Statements MembershipQuery MembershipQuery.Rows (Except MembershipReadError MembershipStateView)

/-- The epoch after which the chains are read. -/
def queryAfterEpoch (signedCertificate : Bytes) (authorityPublicKey : Block 32) :
    Except MembershipReadError Int64 := do
  if input.afterRosterEpoch = 0 then
    let certificate ← rethrow (fun _ => .certificateInvalid)
      (decodeSignedDeviceCertificate crypto signedCertificate authorityPublicKey.bytes)
    reject (certificate.body.membershipEpoch < 1 ∨ certificate.body.membershipEpoch > maxEpoch)
      .certificateInvalid
    return certificate.body.membershipEpoch.toInt64 - 1
  else return input.afterRosterEpoch

/-- The loop over the transitions. -/
def collectTransitions (taken : List Bytes) :
    List Bytes → Except MembershipReadError (List Bytes)
  | [] => .ok taken
  | encoded :: rest =>
    if taken.length = maxAuthorityTransitions then .error .transitionLimit
    else collectTransitions (taken ++ [encoded]) rest

/-- The loop over the rosters.  It reports whether it exhausted the rows, and so closed them. -/
def collectRosters (expectedEpoch : Int64) (pageBytes : Nat) (taken : List Bytes) :
    List (Nat × Bytes) → Except MembershipReadError (List Bytes × Bool)
  | [] => .ok (taken, true)
  | (epoch, signedRoster) :: rest =>
    if (epoch : Int) ≠ expectedEpoch.toInt then .error .notContiguous
    else if taken.length ≠ 0 ∧ pageBytes + signedRoster.length > maxMembershipRosterPageRaw then
      .ok (taken, false)
    else
      collectRosters (expectedEpoch + 1) (pageBytes + signedRoster.length)
        (taken ++ [signedRoster]) rest

def readLatestEpoch (view : MembershipStateView) (revokedMembershipEpoch : Option Nat) :
    MembershipReading :=
  match revokedMembershipEpoch with
  | some epoch => .done (.ok { view with latestRosterEpoch := epoch })
  | none => .query .latestEpoch fun epoch => .done (.ok { view with latestRosterEpoch := epoch })

def readRosters (view : MembershipStateView) (revokedMembershipEpoch : Option Nat)
    (after : Int64) (maximumEpoch : Nat) : MembershipReading :=
  .rows (.rosters after maximumEpoch) fun rows =>
    match collectRosters (after + 1) 0 [] rows with
    | .error e => .done (.error e)
    | .ok (rosters, exhausted) =>
      -- after a break the rows stay open until the call returns
      if exhausted then .close (readLatestEpoch { view with rosters } revokedMembershipEpoch)
      else readLatestEpoch { view with rosters } revokedMembershipEpoch

def readTransitions (view : MembershipStateView) (revokedMembershipEpoch : Option Nat)
    (after : Int64) (maximumEpoch : Nat) : MembershipReading :=
  .rows (.transitions after maximumEpoch) fun rows => .close
    (match collectTransitions [] rows with
    | .error e => .done (.error e)
    | .ok authorityTransitions =>
      readRosters { view with authorityTransitions } revokedMembershipEpoch after maximumEpoch)

def readChains (view : MembershipStateView) (revokedMembershipEpoch : Option Nat)
    (maximumEpoch : Nat) : MembershipReading :=
  match queryAfterEpoch crypto input view.signedCertificate view.authorityPublicKey with
  | .error e => .done (.error e)
  | .ok after => readTransitions view revokedMembershipEpoch after maximumEpoch

def MemberRow.view (row : MemberRow) (state : MembershipState) : MembershipStateView where
  state := state
  authorityPublicKey := row.authorityPublicKey
  signedCertificate := row.signedCertificate.getD []

/-- What follows the statement on the device. -/
def readMember (row : MemberRow) : MembershipReading :=
  if row.state ≠ .revoked ∧ row.state ≠ .approved then .done (.ok (row.view row.state))
  else
    match row.revokedMembershipEpoch with
    | none => readChains crypto input (row.view .approved) none maxInt64
    | some epoch => .query (.terminalAuthority epoch) fun
      | some key => readChains crypto input
          { row.view .approved with authorityPublicKey := key } (some epoch) epoch
      | none => .query .firstAuthority fun key => readChains crypto input
          { row.view .approved with authorityPublicKey := key.getD row.authorityPublicKey }
          (some epoch) epoch

def readMembershipState : MembershipReading :=
  if input.authToken.length ≠ authTokenBytes ∨ input.afterRosterEpoch < 0 then
    .done (.error .unavailable)
  else .query .device fun
    | none => .done (.error .unavailable)
    | some row => readMember crypto input row

/-! ### One connection -/

/-- The bytes of the rosters. -/
def pageSize : List (Nat × Bytes) → Nat
  | [] => 0
  | (_, signedRoster) :: rest => signedRoster.length + pageSize rest

/-- The loop over these rows reaches their end. -/
def pageFits (rows : List (Nat × Bytes)) : Bool :=
  rows.length ≤ 1 ∨ pageSize rows ≤ maxMembershipRosterPageRaw

/-- If the device is a member, then its page fits. -/
def readFits (s : Registry) : Bool :=
  match memberRow crypto input s with
  | none => true
  | some row =>
    row.state != .approved || row.revokedMembershipEpoch.isSome ||
      match queryAfterEpoch crypto input (row.signedCertificate.getD [])
        row.authorityPublicKey with
      | .error _ => true
      | .ok after => pageFits (selectRosters input s after maxInt64)

section Alone

variable {crypto : Crypto} {input : MembershipRead}

theorem collectRosters_exhausts {rows : List (Nat × Bytes)} {expectedEpoch : Int64}
    {pageBytes : Nat} {taken rosters : List Bytes} {exhausted : Bool}
    (h : taken.length = 0 ∧ rows.length ≤ 1 ∨
      pageBytes + pageSize rows ≤ maxMembershipRosterPageRaw)
    (hok : collectRosters expectedEpoch pageBytes taken rows = .ok (rosters, exhausted)) :
    exhausted = true := by
  induction rows generalizing expectedEpoch pageBytes taken with
  | nil =>
    cases hok
    rfl
  | cons row rest ih =>
    obtain ⟨epoch, signedRoster⟩ := row
    simp only [collectRosters, pageSize, List.length_cons] at hok h
    split at hok
    · cases hok
    · split at hok
      · omega
      · rcases h with ⟨-, hrest⟩ | h
        · obtain rfl : rest = [] := List.eq_nil_of_length_eq_zero (by omega)
          cases hok
          rfl
        · exact ih (Or.inr (by omega)) hok

/-- The loop stops before the end of more than one row that are too large together. -/
theorem collectRosters_stops {rows : List (Nat × Bytes)} {expectedEpoch : Int64}
    {pageBytes : Nat} {taken rosters : List Bytes} {exhausted : Bool}
    (h : rows ≠ [] ∧ (taken.length = 0 → 1 < rows.length))
    (hlarge : maxMembershipRosterPageRaw < pageBytes + pageSize rows)
    (hok : collectRosters expectedEpoch pageBytes taken rows = .ok (rosters, exhausted)) :
    exhausted = false := by
  induction rows generalizing expectedEpoch pageBytes taken with
  | nil => exact absurd rfl h.1
  | cons row rest ih =>
    obtain ⟨epoch, signedRoster⟩ := row
    simp only [collectRosters, pageSize, List.length_cons] at hok h hlarge
    split at hok
    · cases hok
    · split at hok
      · cases hok
        rfl
      · rename_i hfits
        refine ih ⟨fun hnil => ?_, fun hzero => ?_⟩ (by omega) hok
        · -- the last row fits, and so do they all
          subst hnil
          simp only [pageSize, List.length_nil] at hlarge h
          omega
        · simp at hzero

variable {answer : (q : MembershipQuery) → q.Rows}

-- the lemmas below run the read, from its last statement to its first
attribute [local simp] Statements.alone Statements.eval

theorem readLatestEpoch_alone {view : MembershipStateView} {revoked : Option Nat} {held : Bool}
    (h : held = false ∨ revoked.isSome) :
    (readLatestEpoch view revoked).alone answer held =
      some ((readLatestEpoch view revoked).eval answer) := by
  cases revoked with
  | none => simp_all [readLatestEpoch, Statements.alone, Statements.eval]
  | some epoch => rfl

theorem readRosters_alone {view : MembershipStateView} {revoked : Option Nat} {after : Int64}
    {maximumEpoch : Nat} (h : revoked.isSome ∨ pageFits (answer (.rosters after maximumEpoch)) = true) :
    (readRosters view revoked after maximumEpoch).alone answer false =
      some ((readRosters view revoked after maximumEpoch).eval answer) := by
  simp only [readRosters, Statements.alone, Statements.eval, Bool.false_eq_true, if_false]
  split
  · rfl
  · rename_i rosters exhausted hok
    split
    · exact readLatestEpoch_alone (Or.inl rfl)
    · rename_i hopen
      refine readLatestEpoch_alone (Or.inr (h.resolve_right fun hfits => hopen ?_))
      refine collectRosters_exhausts ?_ hok
      rcases of_decide_eq_true hfits with hfits | hfits
      · exact Or.inl ⟨rfl, hfits⟩
      · exact Or.inr (by omega)

theorem readTransitions_alone {view : MembershipStateView} {revoked : Option Nat} {after : Int64}
    {maximumEpoch : Nat} (h : revoked.isSome ∨ pageFits (answer (.rosters after maximumEpoch)) = true) :
    (readTransitions view revoked after maximumEpoch).alone answer false =
      some ((readTransitions view revoked after maximumEpoch).eval answer) := by
  simp only [readTransitions, Statements.alone, Statements.eval, Bool.false_eq_true, if_false]
  split
  · rfl
  · exact readRosters_alone h

theorem readChains_alone {view : MembershipStateView} {revoked : Option Nat} {maximumEpoch : Nat}
    (h : revoked.isSome ∨
      ∀ after, queryAfterEpoch crypto input view.signedCertificate view.authorityPublicKey =
        .ok after → pageFits (answer (.rosters after maximumEpoch)) = true) :
    (readChains crypto input view revoked maximumEpoch).alone answer false =
      some ((readChains crypto input view revoked maximumEpoch).eval answer) := by
  unfold readChains
  split
  · rfl
  · rename_i after hafter
    exact readTransitions_alone (h.imp id fun hfits => hfits after hafter)

/-- The read of a member that leaves its rows open waits for itself at the latest epoch. -/
theorem readChains_waits {view : MembershipStateView} {maximumEpoch : Nat} {after : Int64}
    {transitions rosters : List Bytes}
    (hafter : queryAfterEpoch crypto input view.signedCertificate view.authorityPublicKey = .ok after)
    (htransitions : collectTransitions [] (answer (.transitions after maximumEpoch)) =
      .ok transitions)
    (hrosters : collectRosters (after + 1) 0 [] (answer (.rosters after maximumEpoch)) =
      .ok (rosters, false)) :
    (readChains crypto input view none maximumEpoch).alone answer false = none := by
  simp only [readChains, hafter, readTransitions, Statements.alone, htransitions, readRosters,
    hrosters, Bool.false_eq_true, if_false, readLatestEpoch, if_true]

/-- A device that is revoked has the epoch of its revocation. -/
theorem memberRow_revoked {s : Registry} {row : MemberRow}
    (h : memberRow crypto input s = some row) (hepoch : row.revokedMembershipEpoch = none) :
    row.state ≠ .revoked := by
  simp only [memberRow, Option.bind_eq_bind, Option.bind_eq_some_iff] at h
  obtain ⟨w, -, d, -, h⟩ := h
  split at h
  · rename_i hread
    cases h
    simp only at hepoch ⊢
    intro hstate
    simp [Device.readable, hstate, hepoch] at hread
  · cases h

/-- A read whose page fits never waits for itself, and returns. -/
theorem readMembershipState_alone (s : Registry) (h : readFits crypto input s = true) :
    (readMembershipState crypto input).alone (answerMembership crypto input s) false =
      some ((readMembershipState crypto input).eval (answerMembership crypto input s)) := by
  unfold readMembershipState
  split
  · rfl
  · simp only [Statements.alone, Statements.eval, Bool.false_eq_true, if_false]
    split
    · rfl
    · rename_i row hrow
      unfold readMember
      split
      · rfl
      · rename_i hstate
        split
        · rename_i hepoch
          refine readChains_alone (Or.inr fun after hafter => ?_)
          have hrow' : memberRow crypto input s = some row := hrow
          have happroved : row.state = .approved := by
            have := memberRow_revoked hrow' hepoch
            tauto
          have hafter' : queryAfterEpoch crypto input (row.signedCertificate.getD [])
            row.authorityPublicKey = .ok after := hafter
          have hfits : pageFits (selectRosters input s after maxInt64) = true := by
            simpa [readFits, hrow', happroved, hepoch, hafter'] using h
          exact hfits
        · simp only [Statements.alone, Statements.eval, Bool.false_eq_true, if_false]
          split
          · exact readChains_alone (Or.inl rfl)
          · simp only [Statements.alone, Statements.eval, Bool.false_eq_true, if_false]
            exact readChains_alone (Or.inl rfl)

end Alone

end SevenMirror.Admission
