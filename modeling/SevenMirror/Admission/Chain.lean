import SevenMirror.Admission.Rotation
import SevenMirror.Lib.Numbered
import SevenMirror.MembershipCodec.Validity

/-! The two chains of a workspace: its rosters, each of which names the digest of the one before, and
its authority transitions, each of which hands the authority from one key to the next at one roster.
A roster and a transition extend the chains. -/

namespace SevenMirror.Admission

open Lib MembershipCodec

def zeroDigest : Block 32 := ⟨List.replicate 32 (UInt8.ofNat 0), rfl⟩

/-- The key that signs roster `epoch`: the new key of the last transition that is active there. -/
def keyInForce (initial : Block 32) (transitions : List TransitionRow) (epoch : Nat) : Block 32 :=
  match (transitions.filter fun t => t.activationRosterEpoch ≤ epoch).getLast? with
  | none => initial
  | some t => t.newAuthorityPublicKey

/-- The stored roster is `m`, under `key`, and its columns are those of `m`. -/
structure RosterRow.Holds (crypto : Crypto) (id : WorkspaceID) (key : Block 32) (r : RosterRow)
    (m : SignedWorkspaceRoster) : Prop where
  decodes : decodeSignedWorkspaceRoster crypto r.signedRoster key.bytes = .ok m
  workspace : m.body.workspaceId = id.bytes
  epoch : m.body.rosterEpoch.toNat = r.epoch
  digest : m.rosterDigest = r.digest.bytes
  previous : m.body.previousRosterDigest = r.previousDigest.bytes

/-- The stored transition is `m`, and its columns are those of `m`. -/
structure TransitionRow.Holds (crypto : Crypto) (id : WorkspaceID) (t : TransitionRow)
    (m : SignedAuthorityKeyTransition) : Prop where
  decodes : decodeSignedAuthorityKeyTransition crypto t.signedTransition = .ok m
  workspace : m.body.workspaceId = id.bytes
  epoch : m.body.transitionEpoch.toNat = t.epoch
  digest : m.transitionDigest = t.digest.bytes
  previous : m.body.previousTransitionDigest = t.previousDigest.bytes
  previousKey : m.body.previousAuthorityPublicKey = t.previousAuthorityPublicKey.bytes
  newKey : m.body.newAuthorityPublicKey = t.newAuthorityPublicKey.bytes
  activation : m.body.activationRosterEpoch.toNat = t.activationRosterEpoch

/-- Rosters `1, 2, …`, each under the key of its epoch and linked to the one before. -/
structure RosterChain (crypto : Crypto) (id : WorkspaceID) (key : Nat → Block 32)
    (rows : List RosterRow) : Prop where
  epochs : Numbered RosterRow.epoch 1 rows
  holds : ∀ r ∈ rows, ∃ m, r.Holds crypto id (key r.epoch) m
  first : ∀ r ∈ rows.head?, r.previousDigest = zeroDigest
  linked : rows.IsChain fun r r' => r'.previousDigest = r.digest

/-- Transition `t` binds the digest of the roster before its activation. -/
def Binds (rosters : List RosterRow) (t : TransitionRow) (m : SignedAuthorityKeyTransition) :
    Prop :=
  ∃ r ∈ rosters, r.epoch + 1 = t.activationRosterEpoch ∧
    m.body.previousRosterDigest = r.digest.bytes

/-- Transitions `2, 3, …`, from the initial key, each linked to the one before, to the key, epoch,
and digest of the workspace. -/
structure AuthorityChain (crypto : Crypto) (id : WorkspaceID) (initial : Block 32)
    (rosters : List RosterRow) (rows : List TransitionRow) (key : Block 32) (epoch : Nat)
    (digest : Block 32) : Prop where
  epochs : Numbered TransitionRow.epoch 2 rows
  holds : ∀ t ∈ rows, ∃ m, t.Holds crypto id m ∧ Binds rosters t m
  first : ∀ t ∈ rows.head?,
    t.previousDigest = zeroDigest ∧ t.previousAuthorityPublicKey = initial
  linked : rows.IsChain fun t t' => t'.previousDigest = t.digest ∧
    t'.previousAuthorityPublicKey = t.newAuthorityPublicKey ∧
    t.activationRosterEpoch < t'.activationRosterEpoch
  activated : ∀ t ∈ rows, t.activationRosterEpoch ≤ rosters.length
  current_key : key = (rows.getLast?.map (·.newAuthorityPublicKey)).getD initial
  current_epoch : epoch = rows.length + 1
  current_digest : digest = (rows.getLast?.map (·.digest)).getD zeroDigest
  bounded : epoch ≤ maxInt64

/-- Both chains of a workspace that was created with the key `initial`. -/
structure Workspace.Chained (crypto : Crypto) (initial : Block 32) (w : Workspace) : Prop where
  rosters : RosterChain crypto w.id (keyInForce initial w.transitions.rows) w.rosters.rows
  authority : AuthorityChain crypto w.id initial w.rosters.rows w.transitions.rows
    w.authorityPublicKey w.authorityEpoch w.authorityTransitionDigest

/-! ### The latest roster -/

theorem latestRoster_mem {rows : List RosterRow} {r : RosterRow} (h : latestRoster rows = some r) :
    r ∈ rows := by
  induction rows using List.reverseRecOn generalizing r with
  | nil => cases h
  | append_singleton rows x ih =>
    simp only [latestRoster, List.foldl_append, List.foldl_cons, List.foldl_nil] at h ih
    split at h
    · cases h
      simp
    · rename_i b hb
      split at h <;> cases h
      · simp
      · simp [ih hb]

/-- The latest roster of a chain is its last row. -/
theorem RosterChain.latest {crypto : Crypto} {id : WorkspaceID} {key : Nat → Block 32}
    {rows : List RosterRow} (h : RosterChain crypto id key rows) :
    latestRoster rows = rows.getLast? := by
  rcases List.eq_nil_or_concat' rows with rfl | ⟨before, r, rfl⟩
  · rfl
  · rw [List.getLast?_concat]
    simp only [latestRoster, List.foldl_append, List.foldl_cons, List.foldl_nil]
    split
    · rfl
    · rename_i b hb
      have hmem : b ∈ before := latestRoster_mem hb
      obtain ⟨hbefore, hlast⟩ := h.epochs.of_concat
      have hb := (hbefore.bounds hmem).2
      rw [if_pos (by omega)]

/-! ### The key in force -/

section Keys

variable {initial : Block 32} {rows : List TransitionRow} {t : TransitionRow} {epoch : Nat}

theorem keyInForce_last (h : ∀ t ∈ rows, t.activationRosterEpoch ≤ epoch) :
    keyInForce initial rows epoch = (rows.getLast?.map (·.newAuthorityPublicKey)).getD initial := by
  have hall : (rows.filter fun t => t.activationRosterEpoch ≤ epoch) = rows := by
    simpa [List.filter_eq_self] using h
  unfold keyInForce
  rw [hall]
  cases rows.getLast? <;> rfl

theorem keyInForce_before (h : epoch < t.activationRosterEpoch) :
    keyInForce initial (rows ++ [t]) epoch = keyInForce initial rows epoch := by
  unfold keyInForce
  rw [List.filter_append, List.filter_singleton]
  simp [show ¬ t.activationRosterEpoch ≤ epoch by omega]

theorem keyInForce_after (h : t.activationRosterEpoch ≤ epoch) :
    keyInForce initial (rows ++ [t]) epoch = t.newAuthorityPublicKey := by
  unfold keyInForce
  rw [List.filter_append, List.filter_singleton]
  simp [h]

end Keys

/-- From the last activation on, the key in force is that of the workspace. -/
theorem AuthorityChain.key_current {crypto : Crypto} {id : WorkspaceID} {initial key digest : Block 32}
    {rosters : List RosterRow} {rows : List TransitionRow} {n epoch : Nat}
    (h : AuthorityChain crypto id initial rosters rows key n digest) (he : rosters.length ≤ epoch) :
    keyInForce initial rows epoch = key := by
  rw [keyInForce_last fun t ht => Nat.le_trans (h.activated t ht) he, ← h.current_key]

/-! ### Extending the chains -/

theorem RosterChain.concat {crypto : Crypto} {id : WorkspaceID} {key key' : Nat → Block 32}
    {rows : List RosterRow} {r : RosterRow} (h : RosterChain crypto id key rows)
    (hepoch : r.epoch = 1 + rows.length)
    (hkey : ∀ epoch, epoch ≤ rows.length → key' epoch = key epoch)
    (hr : ∃ m, r.Holds crypto id (key' r.epoch) m)
    (hfirst : rows = [] → r.previousDigest = zeroDigest)
    (hlink : ∀ x ∈ rows.getLast?, r.previousDigest = x.digest) :
    RosterChain crypto id key' (rows ++ [r]) where
  epochs := h.epochs.concat hepoch
  holds x hx := by
    rcases List.mem_append.mp hx with hx | hx
    · have hbound := h.epochs.bounds hx
      rw [hkey x.epoch (by omega)]
      exact h.holds x hx
    · rw [List.mem_singleton.mp hx]
      exact hr
  first := head?_concat h.first hfirst
  linked := isChain_concat h.linked hlink

theorem Binds.mono {rosters : List RosterRow} {t : TransitionRow} {m : SignedAuthorityKeyTransition}
    (h : Binds rosters t m) (r : RosterRow) : Binds (rosters ++ [r]) t m := by
  obtain ⟨x, hx, hbinds⟩ := h
  exact ⟨x, List.mem_append_left _ hx, hbinds⟩

section Authority

variable {crypto : Crypto} {id : WorkspaceID} {initial key digest : Block 32}
  {rosters : List RosterRow} {rows : List TransitionRow} {epoch : Nat}

theorem AuthorityChain.concatRoster
    (h : AuthorityChain crypto id initial rosters rows key epoch digest) (r : RosterRow) :
    AuthorityChain crypto id initial (rosters ++ [r]) rows key epoch digest where
  epochs := h.epochs
  holds t ht := by
    obtain ⟨m, hm, hbinds⟩ := h.holds t ht
    exact ⟨m, hm, hbinds.mono r⟩
  first := h.first
  linked := h.linked
  activated t ht := by
    have := h.activated t ht
    rw [List.length_append]
    omega
  current_key := h.current_key
  current_epoch := h.current_epoch
  current_digest := h.current_digest
  bounded := h.bounded

/-- A transition that takes effect at the roster that comes with it. -/
theorem AuthorityChain.concat
    (h : AuthorityChain crypto id initial rosters rows key epoch digest) {t : TransitionRow}
    {r : RosterRow} (hepoch : t.epoch = epoch + 1) (hmax : epoch ≠ maxInt64)
    (hactivation : t.activationRosterEpoch = rosters.length + 1)
    (hdigest : t.previousDigest = digest) (hkey : t.previousAuthorityPublicKey = key)
    (ht : ∃ m, t.Holds crypto id m ∧ Binds rosters t m) :
    AuthorityChain crypto id initial (rosters ++ [r]) (rows ++ [t]) t.newAuthorityPublicKey
      (epoch + 1) t.digest where
  epochs := h.epochs.concat (by rw [hepoch, h.current_epoch]; omega)
  holds x hx := by
    rcases List.mem_append.mp hx with hx | hx
    · obtain ⟨m, hm, hbinds⟩ := h.holds x hx
      exact ⟨m, hm, hbinds.mono r⟩
    · obtain ⟨m, hm, hbinds⟩ := ht
      rw [List.mem_singleton.mp hx]
      exact ⟨m, hm, hbinds.mono r⟩
  first := by
    refine head?_concat h.first fun hnil => ?_
    subst hnil
    exact ⟨hdigest.trans h.current_digest, hkey.trans h.current_key⟩
  linked := by
    refine isChain_concat h.linked fun x hx => ?_
    have hlast : rows.getLast? = some x := hx
    have hcurrent := h.current_digest
    have hcurrent' := h.current_key
    have hbound := h.activated x (List.mem_of_getLast? hlast)
    rw [hlast] at hcurrent hcurrent'
    exact ⟨hdigest.trans hcurrent, hkey.trans hcurrent', by omega⟩
  activated x hx := by
    rw [List.length_append, List.length_singleton]
    rcases List.mem_append.mp hx with hx | hx
    · have := h.activated x hx
      omega
    · rw [List.mem_singleton.mp hx]
      omega
  current_key := by simp
  current_epoch := by
    rw [List.length_append, List.length_singleton, h.current_epoch]
  current_digest := by simp
  bounded := by
    have := h.bounded
    omega

end Authority

end SevenMirror.Admission
