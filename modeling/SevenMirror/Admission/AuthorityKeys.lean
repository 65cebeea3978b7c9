import SevenMirror.Lib.History
import SevenMirror.Admission.Rows
import SevenMirror.Admission.Later

/-! The authority keys of a workspace over time.  A rotation compares the new key with the key in
force and with no earlier one, so that a key that was retired can be installed again.  It is not, as
long as no call names a key again after another one was named. -/

namespace SevenMirror.Admission

open Lib MembershipCodec

/-- The key that a call names for the workspace: the first one, or the one to rotate to. -/
def Call.namedKey (id : WorkspaceID) : Call → Option (Bytes)
  | .createWorkspace key _ workspaceID => if workspaceID = id then some key.bytes else none
  | .rotateWorkspaceAuthority input =>
    if input.workspaceID = id then some (publicKey input.newAuthorityPrivateKey) else none
  | _ => none

def namedKeys (id : WorkspaceID) (calls : List Call) : List Bytes :=
  calls.filterMap (·.namedKey id)

/-- The keys of a workspace that was created with the key `initial`, in order. -/
def Workspace.keys (initial : Block 32) (w : Workspace) : List Bytes :=
  initial.bytes :: w.transitions.rows.map (·.newAuthorityPublicKey.bytes)

section Steps

variable {crypto : Crypto} {s s' : Registry} {w w' : Workspace} {id : WorkspaceID}

/-- What an action other than a rotation leaves of the authority. -/
structure SameAuthority (w w' : Workspace) : Prop where
  key : w'.authorityPublicKey = w.authorityPublicKey
  epoch : w'.authorityEpoch = w.authorityEpoch
  transitions : w'.transitions = w.transitions
  rosters : ∀ r ∈ w.rosters.rows, r ∈ w'.rosters.rows

theorem SameAuthority.refl (w : Workspace) : SameAuthority w w := ⟨rfl, rfl, rfl, fun _ h => h⟩

theorem WorkspaceStep.sameAuthority {action : Action} (hstep : WorkspaceStep crypto w action w')
    (haction : action ≠ .rotateAuthority) : SameAuthority w w' := by
  have hrosters : ∀ r ∈ w.rosters.rows, r ∈ w'.rosters.rows := by
    intro r hr
    rcases hstep.rosters_cases with hsame | ⟨x, hmore⟩
    · exact hsame ▸ hr
    · rw [hmore]
      exact List.mem_append_left _ hr
  cases hstep with
  | rotateAuthority => exact absurd rfl haction
  | _ => exact ⟨rfl, rfl, rfl, hrosters⟩

theorem action_rotateAuthority {call : Call} (h : call.action crypto s = some (id, .rotateAuthority)) :
    ∃ input, call = .rotateWorkspaceAuthority input ∧ input.workspaceID = id := by
  cases call with
  | rotateWorkspaceAuthority input =>
    simp only [Call.action, Option.some.injEq, Prod.mk.injEq, and_true] at h
    exact ⟨input, rfl, h⟩
  | _ => simp [Call.action, Option.bind_eq_some_iff] at h

theorem rotateWorkspaceAuthority_ok {input : RotateWorkspaceAuthorityInput}
    {rotated : RotatedWorkspaceAuthority}
    (h : rotateWorkspaceAuthority crypto s input = .ok (s', rotated)) :
    ∃ w w', s.find input.workspaceID = some w ∧ rotateAuthority crypto w input = .ok (w', rotated) ∧
      s' = s.put w' ∧
      publicKey input.previousAuthorityPrivateKey ≠ publicKey input.newAuthorityPrivateKey := by
  simp only [rotateWorkspaceAuthority, bind_eq_ok, exists_unit, reject_eq_ok, require_eq_ok,
    pure_eq_ok, Prod.mk.injEq] at h
  obtain ⟨-, hother, w, hw, ⟨w', rotated'⟩, hok, rfl, rfl⟩ := h
  exact ⟨w, w', hw, hok, rfl, hother⟩

/-- The rows that a rotation inserts, and what it reports of them. -/
structure Rotates (w w' : Workspace) (input : RotateWorkspaceAuthorityInput)
    (rotated : RotatedWorkspaceAuthority) (t : TransitionRow) (r : RosterRow) : Prop where
  previous : w.authorityPublicKey.bytes = publicKey input.previousAuthorityPrivateKey
  key : w'.authorityPublicKey.bytes = publicKey input.newAuthorityPrivateKey
  id : w'.id = w.id
  transitions : w'.transitions.rows = w.transitions.rows ++ [t]
  newKey : t.newAuthorityPublicKey = w'.authorityPublicKey
  epoch : t.epoch = w'.authorityEpoch ∧ rotated.authorityEpoch = w'.authorityEpoch
  digest : t.digest.bytes = rotated.transitionDigest
  activation : t.activationRosterEpoch = rotated.rosterEpoch
  signed : t.signedTransition = rotated.signedTransition
  roster : r ∈ w'.rosters.rows ∧ r.epoch = rotated.rosterEpoch
  rosterDigest : r.digest.bytes = rotated.rosterDigest

theorem rotateAuthority_rotates {input : RotateWorkspaceAuthorityInput}
    {rotated : RotatedWorkspaceAuthority}
    (hok : rotateAuthority crypto w input = .ok (w', rotated)) :
    ∃ t r, Rotates w w' input rotated t r := by
  simp only [rotateAuthority, bind_eq_ok, exists_unit, reject_eq_ok, require_eq_ok, rethrow_eq_ok,
    pure_eq_ok, Prod.mk.injEq, ne_eq, Decidable.not_not] at hok
  obtain ⟨hkey, -, row, -, previous, -, -, transition, -, encoded, -, ⟨devices, active⟩, -, roster, -,
    rosterEncoded, -, newKey, hnewKey, w₁, hw₁, w₂, hw₂, w₃, hw₃, rfl, rfl⟩ := hok
  obtain ⟨digest, transitions, rfl, hdigest, htransitions⟩ := insertAuthorityTransition_ok hw₁
  obtain ⟨r, rosters, rfl, hrows, hepoch, hrosterDigest, -, -⟩ := insertWorkspaceRoster_ok hw₂
  simp only [activateAuthority, bind_eq_ok, require_eq_ok, pure_eq_ok] at hw₃
  obtain ⟨digest', -, rfl⟩ := hw₃
  refine ⟨_, r, hkey, Block.check_eq_some.mp hnewKey, rfl, htransitions, rfl, ⟨rfl, rfl⟩, hdigest, rfl,
    rfl, ⟨?_, hepoch⟩, hrosterDigest⟩
  rw [hrows]
  exact List.mem_concat_self

theorem rotateWorkspaceAuthority_rotates {input : RotateWorkspaceAuthorityInput}
    {rotated : RotatedWorkspaceAuthority} (hw : s.find input.workspaceID = some w)
    (h : rotateWorkspaceAuthority crypto s input = .ok (s', rotated)) :
    ∃ w' t r, s'.find input.workspaceID = some w' ∧
      rotateAuthority crypto w input = .ok (w', rotated) ∧ Rotates w w' input rotated t r ∧
      publicKey input.previousAuthorityPrivateKey ≠ publicKey input.newAuthorityPrivateKey := by
  obtain ⟨v, w', hv, hrotate, rfl, hother⟩ := rotateWorkspaceAuthority_ok h
  rw [hw] at hv
  cases hv
  obtain ⟨t, r, hrotates⟩ := rotateAuthority_rotates hrotate
  obtain ⟨hmem, hid⟩ := Registry.find_eq_some.mp hw
  refine ⟨w', t, r, Registry.find_eq_some.mpr ⟨?_, hrotates.id.trans hid⟩, hrotate, hrotates, hother⟩
  exact ((Registry.put_replaces hmem hrotates.id).rows w').mpr (Or.inl rfl)

/-- A committed call leaves the authority of a workspace, or rotates it. -/
theorem commit_authority (hs : Reachable crypto s) {call : Call}
    (hcommit : commit crypto s call = .ok s') (hw : s.find id = some w) :
    ∃ w', s'.find id = some w' ∧
      (SameAuthority w w' ∨ ∃ input rotated t r, call = .rotateWorkspaceAuthority input ∧
        input.workspaceID = id ∧ rotateAuthority crypto w input = .ok (w', rotated) ∧
        Rotates w w' input rotated t r ∧
        publicKey input.previousAuthorityPrivateKey ≠ publicKey input.newAuthorityPrivateKey) := by
  obtain ⟨w', hw', ⟨rfl, -⟩ | ⟨action, haction, hstep⟩⟩ :=
    (commit_step hs.chained hcommit).workspace hw
  · exact ⟨w', hw', Or.inl (.refl w')⟩
  · refine ⟨w', hw', ?_⟩
    by_cases hrotate : action = .rotateAuthority
    · subst hrotate
      obtain ⟨input, rfl, rfl⟩ := action_rotateAuthority haction
      obtain ⟨⟨s', rotated⟩, hok, rfl⟩ := map_eq_ok.mp hcommit
      obtain ⟨x, t, r, hx, hrotate⟩ := rotateWorkspaceAuthority_rotates hw hok
      rw [hw'] at hx
      cases hx
      exact Or.inr ⟨input, rotated, t, r, rfl, rfl, hrotate⟩
    · exact Or.inl (hstep.sameAuthority hrotate)

/-- A workspace that the call made is the one that it created. -/
theorem RegistryStep.find_back {call : Call} (hstep : RegistryStep crypto s call s')
    (hnone : s.find id = none) (hw : s'.find id = some w) :
    ∃ key now, call = .createWorkspace key now id ∧ w = newWorkspace id key now := by
  obtain ⟨hmem, rfl⟩ := Registry.find_eq_some.mp hw
  have hold {x : Workspace} (hx : x ∈ s.workspaces.rows) (hid : x.id = w.id) : False := by
    rw [Registry.find_eq_some.mpr ⟨hx, hid⟩] at hnone
    cases hnone
  cases hstep with
  | unchanged hsame _ => exact (hold (hsame ▸ hmem) rfl).elim
  | created key now newID hcall _ hrows =>
    rw [hrows, List.mem_append, List.mem_singleton] at hmem
    rcases hmem with hmem | rfl
    · exact (hold hmem rfl).elim
    · exact ⟨key, now, hcall, rfl⟩
  | acted v v' action _ hstep _ hreplaces =>
    rcases (hreplaces.rows w).mp hmem with rfl | ⟨hmem, -⟩
    · exact (hold hreplaces.mem hstep.id_eq.symm).elim
    · exact (hold hmem rfl).elim

end Steps

/-! ### Keys over time -/

section Keys

variable {crypto : Crypto} {id : WorkspaceID}

/-- The keys of the workspace are among those that the calls named, and none repeats the one
before. -/
structure Keyed (crypto : Crypto) (calls : List Call) (w : Workspace) (initial : Block 32) :
    Prop where
  created : CreatedWith ((store crypto).trace .empty calls) w initial
  named : (w.keys initial).Sublist (namedKeys w.id calls)
  chain : (w.keys initial).IsChain (· ≠ ·)
  current : (w.keys initial).getLast? = some w.authorityPublicKey.bytes

theorem namedKeys_concat (calls : List Call) (call : Call) :
    namedKeys id (calls ++ [call]) = namedKeys id calls ++ (call.namedKey id).toList := by
  rw [namedKeys, List.filterMap_append, namedKeys]
  cases h : call.namedKey id <;> simp [h]

theorem CreatedWith.concat {calls : List Call} {call : Call} {w w' : Workspace} {initial : Block 32}
    (h : CreatedWith ((store crypto).trace .empty calls) w initial) (hid : w'.id = w.id) :
    CreatedWith ((store crypto).trace .empty (calls ++ [call])) w' initial := by
  obtain ⟨now, hcreated⟩ := h
  rw [CreatedWith, Machine.trace_concat, hid]
  exact ⟨now, List.mem_append_left _ hcreated⟩

theorem Keyed.same {calls : List Call} {w w' : Workspace} {initial : Block 32} (call : Call)
    (h : Keyed crypto calls w initial) (hid : w'.id = w.id) (hsame : SameAuthority w w') :
    Keyed crypto (calls ++ [call]) w' initial := by
  have hkeys : w'.keys initial = w.keys initial := by rw [Workspace.keys, hsame.transitions]; rfl
  refine ⟨h.created.concat hid, ?_, ?_, ?_⟩
  · rw [hkeys, hid, namedKeys_concat]
    exact h.named.trans (List.sublist_append_left _ _)
  · rw [hkeys]
    exact h.chain
  · rw [hkeys, hsame.key]
    exact h.current

theorem Rotates.keys {w w' : Workspace} {input : RotateWorkspaceAuthorityInput}
    {rotated : RotatedWorkspaceAuthority} {t : TransitionRow} {r : RosterRow}
    (h : Rotates w w' input rotated t r) (initial : Block 32) :
    w'.keys initial = w.keys initial ++ [w'.authorityPublicKey.bytes] := by
  simp [Workspace.keys, h.transitions, h.newKey]

theorem Keyed.rotates {calls : List Call} {w w' : Workspace} {initial : Block 32}
    {input : RotateWorkspaceAuthorityInput} {rotated : RotatedWorkspaceAuthority} {t : TransitionRow}
    {r : RosterRow} (h : Keyed crypto calls w initial) (hrotates : Rotates w w' input rotated t r)
    (hid : input.workspaceID = w.id)
    (hother : publicKey input.previousAuthorityPrivateKey ≠ publicKey input.newAuthorityPrivateKey) :
    Keyed crypto (calls ++ [.rotateWorkspaceAuthority input]) w' initial := by
  have hkeys := hrotates.keys initial
  refine ⟨h.created.concat hrotates.id, ?_, ?_, ?_⟩
  · rw [hkeys, hrotates.id, namedKeys_concat, hrotates.key]
    refine h.named.append ?_
    simp [Call.namedKey, hid]
  · rw [hkeys]
    refine List.isChain_append.mpr ⟨h.chain, List.isChain_singleton _, ?_⟩
    intro x hx y hy
    rw [h.current] at hx
    cases hx
    cases hy
    rw [hrotates.previous, hrotates.key]
    exact hother
  · rw [hkeys, List.getLast?_concat]

/-- A call adds at most a key. -/
theorem Keyed.step {calls : List Call} {w : Workspace} {initial : Block 32}
    (h : Keyed crypto calls w initial) (hw : ((store crypto).run .empty calls).find id = some w)
    (call : Call) : ∃ w', ((store crypto).run .empty (calls ++ [call])).find id = some w' ∧
      Keyed crypto (calls ++ [call]) w' initial ∧
      ∃ more, w'.keys initial = w.keys initial ++ more := by
  have hs : Reachable crypto ((store crypto).run .empty calls) := ⟨calls, rfl⟩
  cases hcommit : commit crypto ((store crypto).run .empty calls) call with
  | error e =>
    rw [run_error hcommit]
    exact ⟨w, hw, h.same call rfl (.refl w), [], (List.append_nil _).symm⟩
  | ok s' =>
    rw [run_ok hcommit]
    obtain ⟨w', hw', hsame | ⟨input, rotated, t, r, rfl, hid, -, hrotates, hother⟩⟩ :=
      commit_authority hs hcommit hw
    · have hids : w'.id = w.id :=
        (Registry.find_eq_some.mp hw').2.trans (Registry.find_eq_some.mp hw).2.symm
      refine ⟨w', hw', h.same call hids hsame, [], ?_⟩
      rw [Workspace.keys, hsame.transitions, List.append_nil]
      rfl
    · have hid' : input.workspaceID = w.id := hid.trans (Registry.find_eq_some.mp hw).2.symm
      exact ⟨w', hw', h.rotates hrotates hid' hother, _, hrotates.keys initial⟩

theorem run_keyed (calls : List Call) : ∀ w, ((store crypto).run .empty calls).find id = some w →
    ∃ initial, Keyed crypto calls w initial := by
  induction calls using List.reverseRecOn with
  | nil => intro w hw; cases hw
  | append_singleton calls call ih =>
    intro w' hw'
    cases hw : ((store crypto).run .empty calls).find id with
    | some w =>
      obtain ⟨initial, hkeyed⟩ := ih w hw
      obtain ⟨x, hx, hkeyed', -⟩ := hkeyed.step hw call
      rw [hw'] at hx
      cases hx
      exact ⟨initial, hkeyed'⟩
    | none =>
      have hs : Reachable crypto ((store crypto).run .empty calls) := ⟨calls, rfl⟩
      cases hcommit : commit crypto ((store crypto).run .empty calls) call with
      | error e =>
        rw [run_error hcommit, hw] at hw'
        cases hw'
      | ok s' =>
        rw [run_ok hcommit] at hw'
        obtain ⟨key, now, rfl, rfl⟩ := (commit_step hs.chained hcommit).find_back hw hw'
        refine ⟨key, ⟨now, ?_⟩, ?_, List.isChain_singleton _, rfl⟩
        · rw [Machine.trace_concat, store_ok hcommit]
          exact List.mem_concat_self
        · rw [namedKeys_concat]
          simp [Call.namedKey, newWorkspace, Workspace.keys, Table.empty]

/-- Later keys come after the earlier ones. -/
theorem Keyed.later {calls : List Call} {w : Workspace} {initial : Block 32}
    (h : Keyed crypto calls w initial) (hw : ((store crypto).run .empty calls).find id = some w)
    (later : List Call) : ∃ w', ((store crypto).run .empty (calls ++ later)).find id = some w' ∧
      Keyed crypto (calls ++ later) w' initial ∧
      ∃ more, w'.keys initial = w.keys initial ++ more := by
  induction later using List.reverseRecOn with
  | nil =>
    rw [List.append_nil]
    exact ⟨w, hw, h, [], (List.append_nil _).symm⟩
  | append_singleton later call ih =>
    obtain ⟨w', hw', hkeyed', more, hmore⟩ := ih
    obtain ⟨w'', hw'', hkeyed'', more', hmore'⟩ := hkeyed'.step hw' call
    rw [← List.append_assoc]
    exact ⟨w'', hw'', hkeyed'', more ++ more', by rw [hmore', hmore, List.append_assoc]⟩

theorem Keyed.nodup {calls : List Call} {w : Workspace} {initial : Block 32}
    (h : Keyed crypto calls w initial) (later : List Call)
    (hforward : Forward (namedKeys w.id (calls ++ later))) :
    (w.keys initial).Nodup := by
  refine hforward.nodup (h.named.trans ?_) h.chain
  exact (List.sublist_append_left calls later).filterMap _

end Keys

/-- If no call names a key of the workspace again after another one, no key is in force twice: the
keys of the workspace, from the one that it was created with to the one in force, are distinct, and
every rotation installs a key that was never in force before. -/
theorem retired_keys_stay_retired (crypto : Crypto) (id : WorkspaceID) (calls : List Call)
    (hforward : Forward (namedKeys id calls)) :
    (∀ w, ((store crypto).run .empty calls).find id = some w →
      ∃ initial, CreatedWith ((store crypto).trace .empty calls) w initial ∧
        (w.keys initial).Nodup ∧ (w.keys initial).getLast? = some w.authorityPublicKey.bytes) ∧
    ∀ earlier middle input later s',
      calls = earlier ++ middle ++ .rotateWorkspaceAuthority input :: later →
      input.workspaceID = id →
      commit crypto ((store crypto).run .empty (earlier ++ middle))
        (.rotateWorkspaceAuthority input) = .ok s' →
      ∀ k k', workspaceAuthorityPublicKey ((store crypto).run .empty earlier) id = some k →
        workspaceAuthorityPublicKey s' id = some k' → k' ≠ k := by
  refine ⟨fun w hw => ?_, fun earlier middle input later s' hcalls hid hcommit k k' hk hk' => ?_⟩
  · obtain ⟨initial, hkeyed⟩ := run_keyed calls w hw
    obtain ⟨-, rfl⟩ := Registry.find_eq_some.mp hw
    refine ⟨initial, hkeyed.created, hkeyed.nodup [] ?_, hkeyed.current⟩
    rw [List.append_nil]
    exact hforward
  · obtain ⟨w₀, hw₀, rfl⟩ := Option.map_eq_some_iff.mp hk
    obtain ⟨w', hw', rfl⟩ := Option.map_eq_some_iff.mp hk'
    obtain ⟨initial, hkeyed₀⟩ := run_keyed earlier w₀ hw₀
    obtain ⟨w, hw, hkeyed, more, hmore⟩ := hkeyed₀.later hw₀ middle
    obtain ⟨x, hx, hkeyed', -⟩ := hkeyed.step hw (.rotateWorkspaceAuthority input)
    rw [run_ok hcommit, hw'] at hx
    cases hx
    have hnodup : (w'.keys initial).Nodup := by
      refine hkeyed'.nodup later ?_
      rw [List.append_assoc, List.singleton_append, ← hcalls, (Registry.find_eq_some.mp hw').2]
      exact hforward
    -- the rotation puts its key after those that were in force
    obtain ⟨⟨s', rotated⟩, hok, rfl⟩ := map_eq_ok.mp hcommit
    subst hid
    obtain ⟨x, t, r, hx, -, hrotates, -⟩ := rotateWorkspaceAuthority_rotates hw hok
    rw [hw'] at hx
    cases hx
    rw [hrotates.keys initial, List.nodup_append] at hnodup
    have hearlier : w₀.authorityPublicKey.bytes ∈ w.keys initial := by
      rw [hmore]
      exact List.mem_append_left _ (List.mem_of_getLast? hkeyed₀.current)
    intro heq
    exact hnodup.2.2 _ hearlier _ (List.mem_singleton.mpr rfl) (by rw [heq])

/-- A device joins, and the authority passes to another key and back. -/
def returningRotations : List Call :=
  [.rotateWorkspaceAuthority sampleRotation,
    .rotateWorkspaceAuthority
      ⟨sampleWorkspace, samplePrivateKey 2, samplePrivateKey 1, sampleInstant⟩]

/-- A rotation installs a key that was retired. -/
theorem retired_key_returns :
    workspaceAuthorityPublicKey ((store sampleCrypto).run .empty (sampleCreation :: enroll 1))
      sampleWorkspace = some ⟨List.replicate 32 1, rfl⟩ ∧
    workspaceAuthorityPublicKey ((store sampleCrypto).run .empty (sampleCreation :: enroll 1 ++
      returningRotations.take 1)) sampleWorkspace = some ⟨List.replicate 32 2, rfl⟩ ∧
    workspaceAuthorityPublicKey ((store sampleCrypto).run .empty (sampleCreation :: enroll 1 ++
      returningRotations)) sampleWorkspace = some ⟨List.replicate 32 1, rfl⟩ := by
  decide +kernel

theorem retired_keys_stay_retired_once :
    Forward (namedKeys sampleWorkspace sampleCalls) ∧
    ∃ w, ((store sampleCrypto).run .empty sampleCalls).find sampleWorkspace = some w ∧
      ∃ initial, (w.keys initial).Nodup := by
  have hforward : Forward (namedKeys sampleWorkspace sampleCalls) := by decide +kernel
  refine ⟨hforward, ?_⟩
  obtain ⟨w, hw, -⟩ := Option.map_eq_some_iff.mp sampleCalls_find
  obtain ⟨initial, -, hnodup, -⟩ :=
    (retired_keys_stay_retired sampleCrypto sampleWorkspace sampleCalls hforward).1 w hw
  exact ⟨w, hw, initial, hnodup⟩

end SevenMirror.Admission
