import SevenMirror.Admission.Rows
import SevenMirror.Admission.MemberTable

/-! `ChangeDeviceAccess` of `internal/adminservice/service.go`, among other clients.  The call reads
the state of the device first, loads the authority key only if the device is approved, and revokes the
device later, in a transaction of its own.  A device that was pending may be approved in between; the
revocation then finds a member and no key. -/

namespace SevenMirror.AdminService

open Lib MembershipCodec Admission

/-! ### The calls -/

structure DeviceSummary where
  reference : Bytes
  deviceType : Admission.DeviceType
  deviceName : Bytes
  membershipState : MembershipState
  registeredAtMs : Int
  approvedAtMs : Option Int
  revokedAtMs : Option Int
  revoked : Bool
deriving DecidableEq, Repr

/-- `other` is any text that names no action. -/
inductive DeviceAccessAction
  | rejectPending | removeApproved | revokeCurrent | other
deriving DecidableEq, Repr

/-- The arguments of `ChangeDeviceAccess`. -/
structure DeviceAccess where
  workspaceID : WorkspaceID
  deviceReference : Bytes
  action : DeviceAccessAction
  now : Time

inductive AccessError
  | invalidDeviceState | authorityKey | interrupted
  | registry (error : RegistryError)
deriving DecidableEq, Repr

section Calls

variable (crypto : Crypto)

/-- The loop of `ListDevices`. -/
def summarize (workspaceID : WorkspaceID) (references : List Bytes) :
    List Device → Except RegistryError (List DeviceSummary)
  | [] => .ok []
  | d :: rest => do
    let reference := deviceReference crypto workspaceID d.id
    reject (reference ∈ references) .ambiguousReference
    let devices ← summarize workspaceID (reference :: references) rest
    return {
      reference, deviceType := d.deviceType, deviceName := d.deviceName
      membershipState := d.membershipState, registeredAtMs := d.registeredAtMs
      approvedAtMs := d.approvedAtMs, revokedAtMs := d.revokedAtMs
      revoked := d.revokedAtMs.isSome } :: devices

/-- `ORDER BY registered_at_ms, id`. -/
def listedBefore (a b : Device) : Bool :=
  a.registeredAtMs < b.registeredAtMs ∨ a.registeredAtMs = b.registeredAtMs ∧ a.id.bytes ≤ b.id.bytes

def listDevices (s : Registry) (workspaceID : WorkspaceID) :
    Except RegistryError (List DeviceSummary) :=
  summarize crypto workspaceID [] ((((s.find workspaceID).map (·.devices.rows)).getD []).insertionSort
    fun a b => listedBefore a b)

def device (s : Registry) (workspaceID : WorkspaceID) (reference : Bytes) :
    Except RegistryError DeviceSummary := do
  let devices ← listDevices crypto s workspaceID
  require (devices.find? (·.reference = reference)) .deviceNotFound

/-- The check of `ChangeDeviceAccess` on what it has read. -/
def DeviceAccessAction.refuses (action : DeviceAccessAction) (d : DeviceSummary) : Bool :=
  let pending := d.membershipState = .pendingProof ∨ d.membershipState = .pendingApproval
  let approved := d.membershipState = .approved
  d.revoked ∨ (action = .rejectPending ∧ ¬ pending) ∨ (action = .removeApproved ∧ ¬ approved) ∨
    (action ≠ .rejectPending ∧ action ≠ .removeApproved ∧ action ≠ .revokeCurrent)

/-- `LoadAuthorityPrivateKey` of the key file, which holds the private key `file`. -/
def loadAuthorityPrivateKey (file : Option Bytes) (expected : Block 32) : Option Bytes := do
  let privateKey ← file
  if privateKey.length = ed25519PrivateKeySize ∧ publicKey privateKey = expected.bytes then
    some privateKey
  else none

/-- The transaction of `RevokeDevice`, on the device that was looked up before. -/
def revokeResolved (s : Registry) (deviceID : DeviceID) (input : RevokeDeviceInput) :
    Except RegistryError (Registry × RevokedDevice) := do
  let w ← require (s.find input.workspaceID) .deviceNotFound
  let (w', revoked) ← revokeDeviceOf crypto w deviceID input
  return (s.put w', revoked)

/-- What a call does next. -/
inductive AccessState
  | listing
  | loadingPublicKey
  | loadingPrivateKey (expected : Block 32)
  | resolving (privateKey : Bytes)
  | revoking (deviceID : DeviceID) (privateKey : Bytes)
  | finished (result : Except AccessError RevokedDevice)

/-- The next step of `ChangeDeviceAccess`.  It reads, or it runs the transaction of `RevokeDevice`. -/
def AccessState.next (args : DeviceAccess) (file : Option Bytes) (s : Registry) :
    AccessState → Registry × AccessState
  | .listing =>
    match device crypto s args.workspaceID args.deviceReference with
    | .error e => (s, .finished (.error (.registry e)))
    | .ok d =>
      if args.action.refuses d then (s, .finished (.error .invalidDeviceState))
      else if d.membershipState = .approved then (s, .loadingPublicKey)
      else (s, .resolving [])
  | .loadingPublicKey =>
    match workspaceAuthorityPublicKey s args.workspaceID with
    | none => (s, .finished (.error .authorityKey))
    | some expected => (s, .loadingPrivateKey expected)
  | .loadingPrivateKey expected =>
    match loadAuthorityPrivateKey file expected with
    | none => (s, .finished (.error .authorityKey))
    | some privateKey => (s, .resolving privateKey)
  | .resolving privateKey =>
    match (require (s.find args.workspaceID) .deviceNotFound).bind
        (resolveDeviceReference crypto · args.deviceReference) with
    | .error e => (s, .finished (.error (.registry e)))
    | .ok deviceID => (s, .revoking deviceID privateKey)
  | .revoking deviceID privateKey =>
    match revokeResolved crypto s deviceID
        ⟨args.workspaceID, args.deviceReference, privateKey, args.now⟩ with
    | .error e => (s, .finished (.error (.registry e)))
    | .ok (s', revoked) => (s', .finished (.ok revoked))
  | .finished result => (s, .finished result)

/-- The transaction of another client, on the device that it looked up before. -/
inductive Transaction
  | approve (deviceID : DeviceID) (input : ApprovePendingDevice)
  | rename (deviceID : DeviceID) (input : RenameDeviceInput)
  | revoke (deviceID : DeviceID) (input : RevokeDeviceInput)

def transact (s : Registry) : Transaction → Except RegistryError Registry
  | .approve deviceID input => do
    let w ← require (s.find input.workspaceID) .deviceNotFound
    let (w', _) ← approveDevice crypto w deviceID input
    return s.put w'
  | .rename deviceID input => do
    validateDeviceName input.displayName
    let w ← require (s.find input.workspaceID) .deviceNotFound
    let (w', _) ← renameDeviceTo crypto w deviceID input
    return s.put w'
  | .revoke deviceID input => do
    let (s', _) ← revokeResolved crypto s deviceID input
    return s'

/-- The store and the calls of `ChangeDeviceAccess`. -/
structure AccessWorld where
  state : Registry
  calls : List (DeviceAccess × AccessState) := []

/-- A call starts, takes its next step, or fails on its own; or another client calls the store, or
runs the transaction of a call whose lookup was earlier. -/
inductive AccessEvent
  | start (args : DeviceAccess)
  | step (i : Nat) (file : Option Bytes)
  | interrupt (i : Nat)
  | call (call : Call)
  | transaction (t : Transaction)

/-- The result, in the step in which the call returns it. -/
def AccessState.reported : AccessState → AccessState → Option (Except AccessError RevokedDevice)
  | .finished _, _ => none
  | _, .finished result => some result
  | _, _ => none

/-- The state of a call that was cancelled or whose statement failed. -/
def AccessState.interrupted : AccessState → AccessState
  | .finished result => .finished result
  | _ => .finished (.error .interrupted)

def accesses : Machine AccessWorld AccessEvent (Option (Except AccessError RevokedDevice)) where
  step c
    | .start args => ({ c with calls := c.calls ++ [(args, .listing)] }, none)
    | .step i file =>
      match c.calls[i]? with
      | none => (c, none)
      | some (args, state) =>
        let (s, state') := state.next crypto args file c.state
        (⟨s, c.calls.set i (args, state')⟩, state.reported state')
    | .interrupt i =>
      match c.calls[i]? with
      | none => (c, none)
      | some (args, state) =>
        (⟨c.state, c.calls.set i (args, state.interrupted)⟩, state.reported state.interrupted)
    | .call call => ({ c with state := ((store crypto).step c.state call).1 }, none)
    | .transaction t =>
      match transact crypto c.state t with
      | .error _ => (c, none)
      | .ok s => ({ c with state := s }, none)

end Calls

/-! ### What any transaction does -/

/-- Every workspace has its chains. -/
def Linked (crypto : Crypto) (s : Registry) : Prop :=
  ∀ w ∈ s.workspaces.rows, ∃ initial, w.Chained crypto initial

/-- The chains stay, and the row of every device stays or is moved by an action. -/
structure Advances (crypto : Crypto) (s s' : Registry) : Prop where
  linked : Linked crypto s'
  moves : ∀ id deviceID d, s.device id deviceID = some d →
    ∃ d', s'.device id deviceID = some d' ∧ (d' = d ∨ ∃ action, d.Moves action d')

section Advances

variable {crypto : Crypto} {s s' : Registry}

theorem Advances.refl (h : Linked crypto s) : Advances crypto s s :=
  ⟨h, fun _ _ d hd => ⟨d, hd, Or.inl rfl⟩⟩

theorem advances_of_step {call : Call} (h : Linked crypto s)
    (hstep : RegistryStep crypto s call s') : Advances crypto s s' where
  linked := by
    intro x hx
    cases hstep with
    | unchanged hsame _ => exact h x (hsame ▸ hx)
    | created key now id _ _ hrows =>
      rw [hrows, List.mem_append, List.mem_singleton] at hx
      rcases hx with hx | rfl
      · exact h x hx
      · exact ⟨key, newWorkspace_chained id key now⟩
    | acted w w' action _ _ hchained hreplaces =>
      rcases (hreplaces.rows x).mp hx with rfl | ⟨hx, -⟩
      · obtain ⟨initial, hinitial⟩ := h w hreplaces.mem
        exact ⟨initial, hchained initial hinitial⟩
      · exact h x hx
  moves := by
    intro id deviceID d hd
    obtain ⟨d', hd', ⟨rfl, -⟩ | ⟨action, -, hmoves⟩⟩ := hstep.moves hd
    · exact ⟨d', hd', Or.inl rfl⟩
    · exact ⟨d', hd', Or.inr ⟨action, hmoves⟩⟩

theorem advances_of_commit {call : Call} (h : Linked crypto s) :
    Advances crypto s ((store crypto).step s call).1 := by
  cases hcommit : commit crypto s call with
  | error e =>
    rw [store_error hcommit]
    exact .refl h
  | ok s' =>
    rw [store_ok hcommit]
    exact advances_of_step h (commit_step h hcommit)

/-- The transaction of one workspace. -/
theorem advances_of_put {id : WorkspaceID} {w w' : Workspace} {action : Action}
    {initial : Block 32} (h : Linked crypto s) (hw : s.find id = some w)
    (hstep : WorkspaceStep crypto w action w') (h' : w'.Chained crypto initial) :
    Advances crypto s (s.put w') := by
  obtain ⟨hmem, rfl⟩ := Registry.find_eq_some.mp hw
  have hreplaces := Registry.put_replaces hmem hstep.id_eq
  constructor
  · intro x hx
    rcases (hreplaces.rows x).mp hx with rfl | ⟨hx, -⟩
    · exact ⟨initial, h'⟩
    · exact h x hx
  · intro id deviceID d hd
    obtain ⟨v, hv, hfind⟩ := Registry.device_eq_some.mp hd
    by_cases hid : w.id = id
    · subst hid
      rw [hw] at hv
      cases hv
      obtain ⟨d', hd', hmoves⟩ := hstep.moves hfind
      exact ⟨d', Registry.device_eq_some.mpr ⟨w', Registry.find_put hw hstep.id_eq, hd'⟩,
        Or.inr ⟨action, hmoves⟩⟩
    · exact ⟨d, Registry.device_eq_some.mpr ⟨v, (hreplaces.find_ne hid).trans hv, hfind⟩, Or.inl rfl⟩

theorem advances_of_revoke {deviceID : DeviceID} {input : RevokeDeviceInput}
    {revoked : RevokedDevice} (h : Linked crypto s)
    (hok : revokeResolved crypto s deviceID input = .ok (s', revoked)) : Advances crypto s s' := by
  simp only [revokeResolved, bind_eq_ok, require_eq_ok, pure_eq_ok, Prod.mk.injEq] at hok
  obtain ⟨w, hw, ⟨w', revoked'⟩, hrevoke, rfl, -⟩ := hok
  have hmem := (Registry.find_eq_some.mp hw).1
  obtain ⟨initial, hinitial⟩ := h w hmem
  rcases revokeDeviceOf_step hinitial hrevoke with ⟨rfl, -⟩ | ⟨hstep, h'⟩
  · rw [Registry.put_self hmem]
    exact .refl h
  · exact advances_of_put h hw hstep h'

theorem advances_of_transact {t : Transaction} (h : Linked crypto s)
    (hok : transact crypto s t = .ok s') : Advances crypto s s' := by
  cases t with
  | approve deviceID input =>
    simp only [transact, bind_eq_ok, require_eq_ok, pure_eq_ok] at hok
    obtain ⟨w, hw, ⟨w', change⟩, happrove, rfl⟩ := hok
    obtain ⟨initial, hinitial⟩ := h w (Registry.find_eq_some.mp hw).1
    obtain ⟨hstep, h'⟩ := approveDevice_step hinitial happrove
    exact advances_of_put h hw hstep h'
  | rename deviceID input =>
    simp only [transact, bind_eq_ok, exists_unit, require_eq_ok, pure_eq_ok] at hok
    obtain ⟨hname, w, hw, ⟨w', change⟩, hrename, rfl⟩ := hok
    obtain ⟨initial, hinitial⟩ := h w (Registry.find_eq_some.mp hw).1
    obtain ⟨hstep, h'⟩ := renameDeviceTo_step hinitial hname hrename
    exact advances_of_put h hw hstep h'
  | revoke deviceID input =>
    simp only [transact, bind_eq_ok, pure_eq_ok] at hok
    obtain ⟨⟨s', revoked⟩, hrevoke, rfl⟩ := hok
    exact advances_of_revoke h hrevoke

end Advances

/-! ### What a call knows -/

/-- The device was approved: it is a member, or it is revoked. -/
def Settled (d : Device) : Prop := d.membershipState = .approved ∨ d.revokedAtMs.isSome

theorem Settled.moves {d d' : Device} {action : Action} (h : Settled d) (hmoves : d.Moves action d') :
    Settled d' := by
  unfold Settled at h ⊢
  cases hmoves with
  | other => exact h
  | prove now hstate hrevoked => simp [hstate, hrevoked] at h
  | rotateCredential hash hstate => exact Or.inl hstate
  | approve id encoded now hstate hrevoked => simp [hstate, hrevoked] at h
  | rename name id encoded hmember => exact Or.inl hmember.1
  | revokePending now => exact Or.inr rfl
  | revoke epoch now => exact Or.inr rfl
  | reissue d' hsame =>
    have hstate : d'.membershipState = d.membershipState := congrArg (·.membershipState) hsame
    have hrevoked : d'.revokedAtMs = d.revokedAtMs := congrArg (·.revokedAtMs) hsame
    rw [hstate, hrevoked]
    exact h

section Knows

variable (crypto : Crypto) (s : Registry) (args : DeviceAccess)

/-- The reference is that of the device, and the device was approved. -/
def WasApproved (deviceID : DeviceID) : Prop :=
  deviceReference crypto args.workspaceID deviceID = args.deviceReference ∧
    ∃ d, s.device args.workspaceID deviceID = some d ∧ Settled d

/-- A call that rejects has no key, and a call that removes has read that its device is approved. -/
def AccessState.Knows : AccessState → Prop
  | .listing | .finished _ => True
  | .loadingPublicKey | .loadingPrivateKey _ =>
    args.action ≠ .rejectPending ∧ ∃ deviceID, WasApproved crypto s args deviceID
  | .resolving privateKey =>
    (args.action = .rejectPending → privateKey = []) ∧
      (args.action = .removeApproved → ∃ deviceID, WasApproved crypto s args deviceID)
  | .revoking deviceID privateKey =>
    (args.action = .rejectPending → privateKey = []) ∧
      (args.action = .removeApproved → WasApproved crypto s args deviceID)

end Knows

section Runs

variable {crypto : Crypto} {s s' : Registry} {args : DeviceAccess} {state : AccessState}

theorem WasApproved.advances {deviceID : DeviceID} (h : WasApproved crypto s args deviceID)
    (hs : Advances crypto s s') : WasApproved crypto s' args deviceID := by
  obtain ⟨hreference, d, hd, hsettled⟩ := h
  obtain ⟨d', hd', rfl | ⟨action, hmoves⟩⟩ := hs.moves _ _ d hd
  · exact ⟨hreference, d', hd', hsettled⟩
  · exact ⟨hreference, d', hd', hsettled.moves hmoves⟩

theorem AccessState.Knows.advances (h : state.Knows crypto s args) (hs : Advances crypto s s') :
    state.Knows crypto s' args := by
  cases state with
  | listing => trivial
  | finished result => trivial
  | loadingPublicKey => exact ⟨h.1, h.2.imp fun _ hd => hd.advances hs⟩
  | loadingPrivateKey expected => exact ⟨h.1, h.2.imp fun _ hd => hd.advances hs⟩
  | resolving privateKey => exact ⟨h.1, fun ha => (h.2 ha).imp fun _ hd => hd.advances hs⟩
  | revoking deviceID privateKey => exact ⟨h.1, fun ha => (h.2 ha).advances hs⟩

theorem summarize_mem {workspaceID : WorkspaceID} {references : List Bytes} {rows : List Device}
    {devices : List DeviceSummary} (h : summarize crypto workspaceID references rows = .ok devices)
    {x : DeviceSummary} (hx : x ∈ devices) :
    ∃ d ∈ rows, x.reference = deviceReference crypto workspaceID d.id ∧
      x.membershipState = d.membershipState := by
  induction rows generalizing references devices with
  | nil =>
    cases h
    cases hx
  | cons d rest ih =>
    simp only [summarize, bind_eq_ok, exists_unit, pure_eq_ok] at h
    obtain ⟨-, tail, hrest, rfl⟩ := h
    rcases List.mem_cons.mp hx with rfl | hx
    · exact ⟨d, List.mem_cons_self, rfl, rfl⟩
    · obtain ⟨y, hy, hsummary⟩ := ih hrest hx
      exact ⟨y, List.mem_cons_of_mem _ hy, hsummary⟩

/-- What the first read finds is the state of a device with the reference. -/
theorem device_ok {workspaceID : WorkspaceID} {reference : Bytes} {x : DeviceSummary}
    (h : device crypto s workspaceID reference = .ok x) :
    ∃ d, s.device workspaceID d.id = some d ∧
      deviceReference crypto workspaceID d.id = reference ∧
      x.membershipState = d.membershipState := by
  simp only [device, bind_eq_ok, require_eq_ok] at h
  obtain ⟨devices, hlist, hfind⟩ := h
  obtain ⟨d, hd, hreference, hstate⟩ := summarize_mem hlist (List.mem_of_find?_eq_some hfind)
  rw [List.mem_insertionSort] at hd
  cases hw : s.find workspaceID with
  | none =>
    rw [hw] at hd
    cases hd
  | some w =>
    rw [hw] at hd
    refine ⟨d, Registry.device_eq_some.mpr ⟨w, hw, Table.find_eq_some.mpr ⟨hd, rfl⟩⟩, ?_, hstate⟩
    rw [← hreference]
    simpa using List.find?_some hfind

/-- What a call knows after its step. -/
theorem AccessState.Knows.next {file : Option Bytes} (h : state.Knows crypto s args) :
    (state.next crypto args file s).2.Knows crypto s args := by
  cases state with
  | listing =>
    simp only [AccessState.next]
    split
    · trivial
    · rename_i x hx
      obtain ⟨d, hd, hreference, hstate⟩ := device_ok hx
      split
      · trivial
      · rename_i hallowed
        simp only [DeviceAccessAction.refuses, decide_eq_true_eq, not_or, not_and,
          Decidable.not_not] at hallowed
        obtain ⟨-, hreject, hremove, -⟩ := hallowed
        split
        · rename_i happroved
          refine ⟨fun haction => ?_, d.id, hreference, d, hd, Or.inl (hstate.symm.trans happroved)⟩
          have := hreject haction
          simp [happroved] at this
        · rename_i happroved
          exact ⟨fun _ => rfl, fun haction => absurd (hremove haction) happroved⟩
  | loadingPublicKey =>
    simp only [AccessState.next]
    split
    · trivial
    · exact h
  | loadingPrivateKey expected =>
    simp only [AccessState.next]
    split
    · trivial
    · exact ⟨fun haction => absurd haction h.1, fun _ => h.2⟩
  | resolving privateKey =>
    simp only [AccessState.next]
    split
    · trivial
    · rename_i deviceID hresolve
      refine ⟨h.1, fun haction => ?_⟩
      obtain ⟨other, hreference, d, hd, hsettled⟩ := h.2 haction
      -- the device that was read is still there, and it is the only one with the reference
      obtain ⟨w, hw, hfind⟩ := Registry.device_eq_some.mp hd
      obtain ⟨hmem, rfl⟩ := Table.find_eq_some.mp hfind
      have hid : w.id = args.workspaceID := (Registry.find_eq_some.mp hw).2
      simp only [hw, require, Except.bind] at hresolve
      obtain rfl := resolveDeviceReference_unique hresolve hmem (hid ▸ hreference)
      exact ⟨hreference, d, hd, hsettled⟩
  | revoking deviceID privateKey =>
    simp only [AccessState.next]
    split <;> trivial
  | finished result => trivial

/-- A step of a call reads, or it is the transaction. -/
theorem AccessState.next_cases (crypto : Crypto) (args : DeviceAccess) (file : Option Bytes)
    (s : Registry) (state : AccessState) :
    ((state.next crypto args file s).1 = s ∧
        ∀ revoked, state.reported (state.next crypto args file s).2 ≠ some (.ok revoked)) ∨
      ∃ deviceID privateKey s' revoked, state = .revoking deviceID privateKey ∧
        revokeResolved crypto s deviceID
          ⟨args.workspaceID, args.deviceReference, privateKey, args.now⟩ = .ok (s', revoked) ∧
        state.next crypto args file s = (s', .finished (.ok revoked)) := by
  cases state with
  | listing =>
    left
    simp only [AccessState.next]
    split
    · simp [AccessState.reported]
    · split
      · simp [AccessState.reported]
      · split <;> simp [AccessState.reported]
  | loadingPublicKey =>
    left
    simp only [AccessState.next]
    split <;> simp [AccessState.reported]
  | loadingPrivateKey expected =>
    left
    simp only [AccessState.next]
    split <;> simp [AccessState.reported]
  | resolving privateKey =>
    left
    simp only [AccessState.next]
    split <;> simp [AccessState.reported]
  | revoking deviceID privateKey =>
    cases hrevoke : revokeResolved crypto s deviceID
        ⟨args.workspaceID, args.deviceReference, privateKey, args.now⟩ with
    | error e =>
      left
      simp [AccessState.next, hrevoke, AccessState.reported]
    | ok result =>
      obtain ⟨s', revoked⟩ := result
      exact Or.inr ⟨deviceID, privateKey, s', revoked, rfl, hrevoke, by
        simp [AccessState.next, hrevoke]⟩
  | finished result => exact Or.inl ⟨rfl, fun _ h => by cases h⟩

theorem AccessState.next_advances (h : Linked crypto s) (file : Option Bytes) :
    Advances crypto s (state.next crypto args file s).1 := by
  rcases state.next_cases crypto args file s with
    ⟨hsame, -⟩ | ⟨deviceID, privateKey, s', revoked, -, hrevoke, hnext⟩
  · rw [hsame]
    exact .refl h
  · rw [hnext]
    exact advances_of_revoke h hrevoke

/-- The workspaces have their chains, and every call knows what it should. -/
structure Accessible (crypto : Crypto) (c : AccessWorld) : Prop where
  linked : Linked crypto c.state
  knows : ∀ call ∈ c.calls, call.2.Knows crypto c.state call.1

theorem Accessible.advances {c : AccessWorld} (h : Accessible crypto c)
    (hs : Advances crypto c.state s) : Accessible crypto { c with state := s } :=
  ⟨hs.linked, fun call hcall => (h.knows call hcall).advances hs⟩

/-- A call that takes a step. -/
theorem Accessible.set {c : AccessWorld} {i : Nat} (h : Accessible crypto c)
    (hs : Advances crypto c.state s) (hknows : state.Knows crypto c.state args) :
    Accessible crypto ⟨s, c.calls.set i (args, state)⟩ := by
  refine ⟨hs.linked, fun call hcall => ?_⟩
  rcases List.mem_or_eq_of_mem_set hcall with hcall | rfl
  · exact (h.knows call hcall).advances hs
  · exact hknows.advances hs

theorem Accessible.step {c : AccessWorld} (h : Accessible crypto c) (event : AccessEvent) :
    Accessible crypto ((accesses crypto).step c event).1 := by
  cases event with
  | start args =>
    refine ⟨h.linked, fun call hcall => ?_⟩
    rcases List.mem_append.mp hcall with hcall | hcall
    · exact h.knows call hcall
    · rw [List.mem_singleton.mp hcall]
      trivial
  | step i file =>
    simp only [accesses]
    split
    · exact h
    · rename_i args state hcall
      exact h.set (state.next_advances h.linked file) (h.knows _ (List.mem_of_getElem? hcall)).next
  | interrupt i =>
    simp only [accesses]
    split
    · exact h
    · rename_i args state hcall
      refine h.set (.refl h.linked) ?_
      cases state <;> trivial
  | call call => exact h.advances (advances_of_commit h.linked)
  | transaction t =>
    simp only [accesses]
    split
    · exact h
    · rename_i s' hok
      exact h.advances (advances_of_transact h.linked hok)

theorem accesses_step {c : AccessWorld} {i : Nat} (hcall : c.calls[i]? = some (args, state))
    (file : Option Bytes) : (accesses crypto).step c (.step i file) =
      (⟨(state.next crypto args file c.state).1,
        c.calls.set i (args, (state.next crypto args file c.state).2)⟩,
        state.reported (state.next crypto args file c.state).2) := by
  simp only [accesses, hcall]

theorem accesses_accessible (hs : Reachable crypto s) (events : List AccessEvent) :
    Accessible crypto ((accesses crypto).run ⟨s, []⟩ events) := by
  have start : Accessible crypto ⟨s, []⟩ :=
    ⟨hs.chained, fun call hcall => absurd hcall List.not_mem_nil⟩
  exact Machine.run_induction (R := fun c _ => Accessible crypto c) _ start
    (fun c _ event h => h.step event) events

/-! ### The transaction -/

/-- No roster is created, and no member changes. -/
structure SparesMembers (s s' : Registry) : Prop where
  rosters : ∀ id, (s'.find id).map (·.rosters) = (s.find id).map (·.rosters)
  members : ∀ id deviceID d, s.device id deviceID = some d → d.membershipState = .approved →
    s'.device id deviceID = some d

/-- The device with the reference is a member and is revoked, and one roster is created. -/
def RemovesMember (crypto : Crypto) (args : DeviceAccess) (s s' : Registry) : Prop :=
  ∃ w w' d d' roster, s.find args.workspaceID = some w ∧ s'.find args.workspaceID = some w' ∧
    deviceReference crypto args.workspaceID d.id = args.deviceReference ∧
    d.membershipState = .approved ∧ d.revokedAtMs = none ∧
    w.devices.Replaces w'.devices d d' ∧ d'.membershipState = .revoked ∧ d'.revokedAtMs.isSome ∧
    w'.rosters.rows = w.rosters.rows ++ [roster] ∧
    ∀ id, id ≠ args.workspaceID → s'.find id = s.find id

/-- A workspace that is written back with the same rosters and members. -/
theorem sparesMembers_put {id : WorkspaceID} {w : Workspace} {devices : Table Device.id}
    (hw : s.find id = some w)
    (hmembers : ∀ d ∈ w.devices.rows, d.membershipState = .approved → d ∈ devices.rows) :
    SparesMembers s (s.put { w with devices }) := by
  obtain ⟨hmem, rfl⟩ := Registry.find_eq_some.mp hw
  have hreplaces : s.workspaces.Replaces (s.put { w with devices }).workspaces w
    { w with devices } := Registry.put_replaces hmem rfl
  have hput : (s.put { w with devices }).find w.id = some { w with devices } :=
    Registry.find_put hw rfl
  constructor
  · intro id
    by_cases hid : w.id = id
    · subst hid
      rw [hput, hw]
      rfl
    · exact congrArg (Option.map _) (hreplaces.find_ne hid)
  · intro id deviceID d hd hstate
    obtain ⟨v, hv, hfind⟩ := Registry.device_eq_some.mp hd
    by_cases hid : w.id = id
    · subst hid
      rw [hw] at hv
      cases hv
      obtain ⟨hrow, rfl⟩ := Table.find_eq_some.mp hfind
      exact Registry.device_eq_some.mpr
        ⟨_, hput, Table.find_eq_some.mpr ⟨hmembers d hrow hstate, rfl⟩⟩
    · exact Registry.device_eq_some.mpr ⟨v, (hreplaces.find_ne hid).trans hv, hfind⟩

/-- Without a key the transaction revokes only a device that is no member. -/
theorem revokeResolved_spares (h : Linked crypto s) {deviceID : DeviceID}
    {input : RevokeDeviceInput} {revoked : RevokedDevice} (hkey : input.authorityPrivateKey = [])
    (hok : revokeResolved crypto s deviceID input = .ok (s', revoked)) : SparesMembers s s' := by
  simp only [revokeResolved, bind_eq_ok, require_eq_ok, pure_eq_ok, Prod.mk.injEq] at hok
  obtain ⟨w, hw, ⟨w', revoked'⟩, hrevoke, rfl, -⟩ := hok
  obtain ⟨initial, hinitial⟩ := h w (Registry.find_eq_some.mp hw).1
  obtain ⟨d, hd, rfl, -, changed, -, hrevokes⟩ := revokeDeviceOf_revokes hinitial hrevoke
  cases hrevokes with
  | already => exact sparesMembers_put hw fun _ hx _ => hx
  | pending devices hstate _ hreplaces =>
    refine sparesMembers_put hw fun x hx happroved => (hreplaces.rows x).mpr (Or.inr ⟨hx, ?_⟩)
    intro hid
    rw [Table.eq_of_key hx hd hid] at happroved
    exact hstate happroved
  | member r devices rosters _ _ _ hlength =>
    rw [hkey] at hlength
    cases hlength

/-- The transaction on a device that was approved revokes a member, or reports no change. -/
theorem revokeResolved_removes (h : Linked crypto s) {deviceID : DeviceID} {privateKey : Bytes}
    {revoked : RevokedDevice} (hdevice : WasApproved crypto s args deviceID)
    (hok : revokeResolved crypto s deviceID
      ⟨args.workspaceID, args.deviceReference, privateKey, args.now⟩ = .ok (s', revoked))
    (hchanged : revoked.changed = true) : RemovesMember crypto args s s' := by
  simp only [revokeResolved, bind_eq_ok, require_eq_ok, pure_eq_ok, Prod.mk.injEq] at hok
  obtain ⟨w, hw, ⟨w', revoked'⟩, hrevoke, rfl, rfl⟩ := hok
  obtain ⟨hmem, hwid⟩ := Registry.find_eq_some.mp hw
  obtain ⟨initial, hinitial⟩ := h w hmem
  obtain ⟨d, hd, rfl, -, changed, hreport, hrevokes⟩ := revokeDeviceOf_revokes hinitial hrevoke
  obtain ⟨hreference, x, hx, hsettled⟩ := hdevice
  obtain ⟨v, hv, hfind⟩ := Registry.device_eq_some.mp hx
  rw [hw] at hv
  cases hv
  obtain rfl := Table.eq_of_key hd (Table.find_eq_some.mp hfind).1 (Table.find_eq_some.mp hfind).2.symm
  cases hrevokes with
  | already =>
    rw [hreport] at hchanged
    cases hchanged
  | pending devices hstate hnone _ =>
    rcases hsettled with happroved | hrevoked
    · exact absurd happroved hstate
    · rw [hnone] at hrevoked
      cases hrevoked
  | member r devices rosters _ hdevice hr _ =>
    subst hdevice
    obtain ⟨row, m, hrows, -⟩ := hr.published
    have hreplaces : s.workspaces.Replaces (s.put { w with devices, rosters }).workspaces w
      { w with devices, rosters } := Registry.put_replaces hmem rfl
    exact ⟨w, _, r.device, _, row, hw, Registry.find_put hw rfl, hreference, hr.member.1,
      hr.member.2, hr.replaces, rfl, rfl, hrows, fun id hid => hreplaces.find_ne (hwid ▸ hid.symm)⟩

end Runs

/-- However the steps of `ChangeDeviceAccess` fall among those of other clients, a call that rejects a
pending device spares every member and creates no roster, and a call that removes an approved device
and reports a change has revoked a member and created one roster. -/
theorem reject_spares_members (crypto : Crypto) (s : Registry) (hs : Reachable crypto s)
    (events : List AccessEvent) (i : Nat) (file : Option Bytes) (args : DeviceAccess)
    (state : AccessState)
    (hcall : ((accesses crypto).run ⟨s, []⟩ events).calls[i]? = some (args, state)) :
    (args.action = .rejectPending →
      SparesMembers ((accesses crypto).run ⟨s, []⟩ events).state
        ((accesses crypto).run ⟨s, []⟩ (events ++ [.step i file])).state) ∧
    (args.action = .removeApproved → ∀ revoked,
      ((accesses crypto).step ((accesses crypto).run ⟨s, []⟩ events) (.step i file)).2 =
        some (.ok revoked) → revoked.changed = true →
      RemovesMember crypto args ((accesses crypto).run ⟨s, []⟩ events).state
        ((accesses crypto).run ⟨s, []⟩ (events ++ [.step i file])).state) := by
  have h := accesses_accessible hs events
  have hknows := h.knows _ (List.mem_of_getElem? hcall)
  rw [Machine.run_concat, accesses_step hcall]
  rcases state.next_cases crypto args file ((accesses crypto).run ⟨s, []⟩ events).state with
    ⟨hsame, hreports⟩ | ⟨deviceID, privateKey, s', revoked, rfl, hrevoke, hnext⟩
  · refine ⟨fun _ => ?_, fun _ revoked hrevoked => absurd hrevoked (hreports revoked)⟩
    rw [hsame]
    exact ⟨fun _ => rfl, fun _ _ _ hd _ => hd⟩
  · rw [hnext]
    refine ⟨fun haction => revokeResolved_spares h.linked (hknows.1 haction) hrevoke,
      fun haction result hresult hchanged => ?_⟩
    cases hresult
    exact revokeResolved_removes h.linked (hknows.2 haction) hrevoke hchanged

/-- A device that has proved its identity and waits for approval. -/
def pendingRegistry : Registry :=
  (store sampleCrypto).run .empty (sampleCreation :: (enroll 1).take 3)

/-- The device is read as pending, approved by another client, and rejected then. -/
def overtaken : List AccessEvent :=
  [.start ⟨sampleWorkspace, sampleReference 1, .rejectPending, sampleInstant⟩, .step 0 none] ++
    ((enroll 1).drop 3).map .call ++ [.step 0 none]

/-- The rejection finds a member, and leaves it. -/
theorem reject_spares_members_overtaken :
    (((accesses sampleCrypto).run ⟨pendingRegistry, []⟩ overtaken).state.device sampleWorkspace
      (numbered 15 1)).map (·.membershipState) = some .approved ∧
    SparesMembers ((accesses sampleCrypto).run ⟨pendingRegistry, []⟩ overtaken).state
      ((accesses sampleCrypto).run ⟨pendingRegistry, []⟩ (overtaken ++ [.step 0 none])).state := by
  have hcall : (((accesses sampleCrypto).run ⟨pendingRegistry, []⟩ overtaken).calls[0]?).map
      (·.1.action) = some .rejectPending := by
    decide +kernel
  refine ⟨by decide +kernel, ?_⟩
  obtain ⟨⟨args, state⟩, hcall, haction⟩ := Option.map_eq_some_iff.mp hcall
  exact (reject_spares_members sampleCrypto pendingRegistry ⟨_, rfl⟩ overtaken 0 none args state
    hcall).1 haction

end SevenMirror.AdminService
