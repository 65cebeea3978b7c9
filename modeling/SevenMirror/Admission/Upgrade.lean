import SevenMirror.Admission.AuthorityKeys

/-! `applySchemaVersion5` in `internal/admission/store.go`: the layout with a column for the roster
that revoked a device.  The upgrade finds the roster again, as the first one that lists the
revocation, which is the one that `RevokeDevice` published. -/

namespace SevenMirror.Admission

open Lib MembershipCodec

/-! ### The upgrade -/

/-- A row of `schema_migrations`. -/
structure SchemaMigration where
  version : Nat
  appliedAtMs : Int

structure Database where
  registry : Registry
  migrations : Table SchemaMigration.version

/-- A database of version 4, which has no column of epochs.  It is kept as one with an empty
column, which is what `ALTER TABLE` makes of it. -/
structure Version4 extends Database where
  empty : ∀ w ∈ registry.workspaces.rows, ∀ d ∈ w.devices.rows, d.revokedMembershipEpoch = none
  latest : ∀ m ∈ migrations.rows, m.version ≤ 4

/-- The rows of `devices` after a statement. -/
def Registry.mapDevices (s : Registry) (f : WorkspaceID → Device → Device)
    (hf : ∀ id d, (f id d).id = d.id) : Registry :=
  { s with
    workspaces := s.workspaces.map (fun w => { w with devices := w.devices.map (f w.id) (hf w.id) })
      fun _ => rfl }

def Registry.eraseEpochs (s : Registry) : Registry :=
  s.mapDevices (fun _ d => { d with revokedMembershipEpoch := none }) fun _ _ => rfl

inductive SchemaError
  | codec (error : CodecError)
  | missingRoster
  | constraint
deriving DecidableEq, Repr

/-- `revokedCertificate`.  The lengths that the upgrade checks are those of the columns. -/
structure CertifiedRevocation where
  workspaceID : WorkspaceID
  deviceID : DeviceID
  certificateID : Block 32
  authorityPublicKey : Block 32
deriving DecidableEq

/-- The devices with a certificate that are revoked, with the key of their workspace. -/
def certifiedRevocations (s : Registry) : List CertifiedRevocation :=
  s.workspaces.rows.flatMap fun w => w.devices.rows.filterMap fun d =>
    if d.membershipState = .revoked then
      d.certificateID.map fun certificateID => ⟨w.id, d.id, certificateID, w.authorityPublicKey⟩
    else none

/-- The roster has an entry for the certificate and the device. -/
def CertifiedRevocation.listedIn (item : CertifiedRevocation) (roster : SignedWorkspaceRoster) :
    Bool :=
  roster.body.revocations.any fun entry =>
    entry.certificateId = item.certificateID.bytes ∧ entry.deviceId = item.deviceID.bytes

/-- The loop over the rosters, up to the first that lists the revocation; 0 if there is none. -/
def revocationEpoch (crypto : Crypto) (item : CertifiedRevocation) :
    List RosterRow → Except SchemaError Nat
  | [] => return 0
  | row :: rest => do
    let roster ← rethrow .codec
      (decodeSignedWorkspaceRoster crypto row.signedRoster item.authorityPublicKey.bytes)
    let epoch := if item.listedIn roster then row.epoch else 0
    if epoch ≠ 0 then return epoch else revocationEpoch crypto item rest

/-- `UPDATE devices SET revoked_membership_epoch = ? WHERE workspace_id = ? AND id = ?`. -/
def Registry.setEpoch (s : Registry) (workspaceID : WorkspaceID) (deviceID : DeviceID)
    (epoch : Nat) : Registry :=
  s.mapDevices (fun id d => if id = workspaceID ∧ d.id = deviceID then
    { d with revokedMembershipEpoch := some epoch } else d) fun _ d => by split <;> rfl

/-- The loop over the revocations. -/
def backfill (crypto : Crypto) : List CertifiedRevocation → Registry → Except SchemaError Registry
  | [], s => return s
  | item :: rest, s => do
    let epoch ← revocationEpoch crypto item
      (orderedRows RosterRow.epoch (fun _ => true) (s.rostersOf item.workspaceID))
    reject (epoch = 0) .missingRoster
    backfill crypto rest (s.setEpoch item.workspaceID item.deviceID epoch)

/-- The upgrade at `now`, with the revocations in the order that the query returns them. -/
def applySchemaVersion5 (crypto : Crypto) (db : Version4) (revoked : List CertifiedRevocation)
    (now : Time) : Except SchemaError Database := do
  let registry ← backfill crypto revoked db.registry
  let migrations ← require (db.migrations.insert ⟨5, now.unixMilli⟩) .constraint
  return ⟨registry, migrations⟩

/-! ### Statements over the devices -/

section Devices

variable {s : Registry} {f g : WorkspaceID → Device → Device}
  {hf : ∀ id d, (f id d).id = d.id} {hg : ∀ id d, (g id d).id = d.id}

theorem mapDevices_mapDevices : (s.mapDevices f hf).mapDevices g hg =
    s.mapDevices (fun id d => g id (f id d)) fun id d => (hg id _).trans (hf id d) := by
  simp [Registry.mapDevices, Table.map, Function.comp_def]

theorem mapDevices_congr
    (h : ∀ w ∈ s.workspaces.rows, ∀ d ∈ w.devices.rows, f w.id d = g w.id d) :
    s.mapDevices f hf = s.mapDevices g hg := by
  simp only [Registry.mapDevices, Table.map, Registry.mk.injEq, Table.mk.injEq, and_true]
  refine List.map_congr_left fun w hw => ?_
  simp only [Workspace.mk.injEq, Table.mk.injEq, true_and, and_true]
  exact List.map_congr_left (h w hw)

theorem mapDevices_self (h : ∀ w ∈ s.workspaces.rows, ∀ d ∈ w.devices.rows, f w.id d = d) :
    s.mapDevices f hf = s := by
  have hid : s.mapDevices (fun _ d => d) (fun _ _ => rfl) = s := by
    simp [Registry.mapDevices, Table.map]
  rw [← hid, mapDevices_mapDevices]
  exact mapDevices_congr h

theorem rostersOf_mapDevices (id : WorkspaceID) :
    (s.mapDevices f hf).rostersOf id = s.rostersOf id := by
  simp [Registry.rostersOf, Registry.find, Registry.mapDevices, Table.find_map, Function.comp_def]

end Devices

/-! ### The rosters that list a revocation -/

/-- What the rosters list was revoked by one of them or an earlier one. -/
structure Workspace.Dated (crypto : Crypto) (initial : Block 32) (w : Workspace) : Prop where
  positive : ∀ d ∈ w.devices.rows, ∀ epoch, d.revokedMembershipEpoch = some epoch → 1 ≤ epoch
  listed : ∀ r ∈ w.rosters.rows, ∀ m,
    r.Holds crypto w.id (keyInForce initial w.transitions.rows r.epoch) m →
    ∀ x ∈ m.body.revocations, ∃ d ∈ w.devices.rows, Revokes x d ∧
      ∃ epoch, d.revokedMembershipEpoch = some epoch ∧ epoch ≤ r.epoch

section Dated

variable {crypto : Crypto} {initial : Block 32} {w w' : Workspace}

/-- The last roster lists the devices that a roster revoked, and no others. -/
theorem Workspace.Agreed.last_dated (hagreed : w.Agreed crypto) (h : w.Chained crypto initial)
    (hrecorded : w.Recorded crypto initial) {r : RosterRow}
    (hr : w.rosters.rows.getLast? = some r) {m : SignedWorkspaceRoster}
    (hm : r.Holds crypto w.id (keyInForce initial w.transitions.rows r.epoch) m)
    {x : RevokedCertificate} (hx : x ∈ m.body.revocations) :
    ∃ d ∈ w.devices.rows, Revokes x d ∧
      ∃ epoch, d.revokedMembershipEpoch = some epoch ∧ epoch ≤ r.epoch := by
  obtain ⟨active, revocations, hcurrent, hagrees⟩ := hagreed
  have hlatest : latestRoster w.rosters.rows = some r := by rw [h.rosters.latest, hr]
  have hlast := h.rosters.epochs.last hr
  have hkey : keyInForce initial w.transitions.rows r.epoch = w.authorityPublicKey :=
    h.authority.key_current (by omega)
  obtain ⟨-, rfl⟩ := (Current.roster r m hlatest (hkey ▸ hm.decodes)).unique hcurrent
  obtain ⟨d, hd, hsome, hrevokes⟩ := hagrees.revocation x hx
  obtain ⟨epoch, hepoch⟩ := Option.isSome_iff_exists.mp hsome
  have hle := (hrecorded d hd epoch hepoch).epoch_le
  exact ⟨d, hd, hrevokes, epoch, hepoch, by omega⟩

theorem WorkspaceStep.dated {action : Action} (h : w.Chained crypto initial)
    (hagreed : w.Agreed crypto) (hrecorded : w.Recorded crypto initial)
    (hdated : w.Dated crypto initial) (hstep : WorkspaceStep crypto w action w')
    (h' : w'.Chained crypto initial) : w'.Dated crypto initial := by
  have hagreed' := hstep.agreed h hagreed h'
  have hrecorded' := hstep.recorded h hagreed hrecorded h'
  have hext := hstep.extends h
  refine ⟨fun d hd epoch hepoch => ?_, fun r hr m hm x hx => ?_⟩
  · rcases hstep.revoked_cases h hagreed hagreed' hd hepoch with hold | ⟨-, hnew, -⟩
    · exact hdated.positive d hold epoch hepoch
    · omega
  · -- the row of a revoked device is still there
    have old (hold : r ∈ w.rosters.rows) : ∃ d ∈ w'.devices.rows, Revokes x d ∧
        ∃ epoch, d.revokedMembershipEpoch = some epoch ∧ epoch ≤ r.epoch := by
      have hbound : r.epoch ≤ w.rosters.rows.length := by
        have := (h.rosters.epochs.bounds hold).2
        omega
      rw [hext.id_eq, hext.keyInForce_eq hbound] at hm
      obtain ⟨d, hd, hrevokes, epoch, hepoch, hle⟩ := hdated.listed r hold m hm x hx
      exact ⟨d, hext.revoked d hd (hrecorded d hd epoch hepoch).revoked, hrevokes, epoch, hepoch, hle⟩
    rcases hstep.rosters_cases with hsame | ⟨y, hy⟩
    · exact old (hsame ▸ hr)
    · rw [hy, List.mem_append, List.mem_singleton] at hr
      rcases hr with hold | rfl
      · exact old hold
      · exact hagreed'.last_dated h' hrecorded' (by rw [hy, List.getLast?_concat]) hm hx

end Dated

theorem Reachable.dated {crypto : Crypto} {s : Registry} (hs : Reachable crypto s) {w : Workspace}
    (hw : w ∈ s.workspaces.rows) {initial : Block 32} (h : w.Chained crypto initial) :
    w.Dated crypto initial := by
  obtain ⟨calls, rfl⟩ := hs
  refine ((store_keeps (P := fun w => w.Agreed crypto ∧ ∀ initial, w.Chained crypto initial →
    w.Recorded crypto initial ∧ w.Dated crypto initial) ?_ ?_ calls w hw).2.2 initial h).2
  · intro id key now
    refine ⟨newWorkspace_agreed id key now, fun _ _ => ⟨fun d hd => ?_, fun d hd => ?_, ?_⟩⟩
    · cases hd
    · cases hd
    · intro r hr
      cases hr
  · intro v v' action initial hchained hP hstep hchained'
    obtain ⟨hrecorded, hdated⟩ := hP.2 initial hchained
    refine ⟨hstep.agreed hchained hP.1 hchained', fun _ hinitial => ?_⟩
    rw [hchained'.initial_eq hinitial]
    exact ⟨hstep.recorded hchained hP.1 hrecorded hchained',
      hstep.dated hchained hP.1 hrecorded hdated hchained'⟩

/-- Without a rotation of the authority, there is no transition. -/
theorem run_transitions {crypto : Crypto} {calls : List Call}
    (hcalls : ∀ call ∈ calls, ∀ input, call ≠ .rotateWorkspaceAuthority input) :
    ∀ w ∈ ((store crypto).run .empty calls).workspaces.rows, w.transitions.rows = [] := by
  induction calls using List.reverseRecOn with
  | nil => exact fun w hw => absurd hw List.not_mem_nil
  | append_singleton calls call ih =>
    have ih := ih fun c hc => hcalls c (List.mem_append_left _ hc)
    have hcall := hcalls call (by simp)
    cases hcommit : commit crypto ((store crypto).run .empty calls) call with
    | error e => rwa [run_error hcommit]
    | ok s' =>
      rw [run_ok hcommit]
      intro w hw
      cases commit_step (store_all_chained calls) hcommit with
      | unchanged hsame => exact ih w (hsame ▸ hw)
      | created key now id _ _ hrows =>
        rw [hrows, List.mem_append, List.mem_singleton] at hw
        rcases hw with hw | rfl
        · exact ih w hw
        · rfl
      | acted v v' action haction hstep _ hreplaces =>
        rcases (hreplaces.rows w).mp hw with rfl | ⟨hw, -⟩
        · have hother : action ≠ .rotateAuthority := by
            rintro rfl
            obtain ⟨input, rfl, -⟩ := action_rotateAuthority haction
            exact hcall input rfl
          rw [(hstep.sameAuthority hother).transitions]
          exact ih v hreplaces.mem
        · exact ih w hw

/-! ### The upgrade finds what was stored -/

theorem mem_certifiedRevocations {s : Registry} {item : CertifiedRevocation} :
    item ∈ certifiedRevocations s ↔ ∃ w ∈ s.workspaces.rows, ∃ d ∈ w.devices.rows,
      d.membershipState = .revoked ∧ d.certificateID = some item.certificateID ∧
      item.workspaceID = w.id ∧ item.deviceID = d.id ∧
      item.authorityPublicKey = w.authorityPublicKey := by
  simp only [certifiedRevocations, List.mem_flatMap, List.mem_filterMap]
  refine exists_congr fun w => and_congr_right fun _ => exists_congr fun d =>
    and_congr_right fun _ => ?_
  constructor
  · intro h
    split at h
    · rename_i hstate
      obtain ⟨certificateID, hcertificate, rfl⟩ := Option.map_eq_some_iff.mp h
      exact ⟨hstate, hcertificate, rfl, rfl, rfl⟩
    · cases h
  · rintro ⟨hstate, hcertificate, hid, hdevice, hkey⟩
    rw [if_pos hstate, hcertificate, Option.map_some, ← hid, ← hdevice, ← hkey]

/-- The loop over the rosters, when all from roster `epoch` on list the revocation. -/
theorem revocationEpoch_eq {crypto : Crypto} {item : CertifiedRevocation} {epoch : Nat}
    {rows : List RosterRow} (hepoch : 1 ≤ epoch)
    (hrows : ∀ r ∈ rows, ∃ m,
      decodeSignedWorkspaceRoster crypto r.signedRoster item.authorityPublicKey.bytes = .ok m ∧
      (item.listedIn m = true ↔ epoch ≤ r.epoch))
    (hascend : rows.Pairwise fun r r' => r.epoch < r'.epoch)
    (hmem : ∃ r ∈ rows, r.epoch = epoch) : revocationEpoch crypto item rows = .ok epoch := by
  induction rows with
  | nil =>
    obtain ⟨r, hr, -⟩ := hmem
    cases hr
  | cons row rest ih =>
    obtain ⟨hfirst, hrest⟩ := List.pairwise_cons.mp hascend
    obtain ⟨m, hm, hlisted⟩ := hrows row List.mem_cons_self
    obtain ⟨r, hr, hr'⟩ := hmem
    simp only [revocationEpoch, hm, rethrow, ok_bind]
    by_cases hle : epoch ≤ row.epoch
    · -- the roster of the epoch is not after this one
      have hrow : row.epoch = epoch := by
        rcases List.mem_cons.mp hr with rfl | hr
        · exact hr'
        · have := hfirst r hr
          omega
      rw [if_pos (hlisted.mpr hle), hrow, if_pos (by omega)]
      rfl
    · rw [if_neg fun h => hle (hlisted.mp h), if_neg (by simp)]
      refine ih (fun x hx => hrows x (List.mem_cons_of_mem _ hx)) hrest ⟨r, ?_, hr'⟩
      refine (List.mem_cons.mp hr).resolve_left fun heq => ?_
      subst heq
      omega

section Stored

variable {crypto : Crypto} {w : Workspace} {initial : Block 32} {d : Device} {epoch : Nat}
  {item : CertifiedRevocation}

/-- The upgrade finds the epoch that a revoked device has. -/
theorem Workspace.Dated.revocationEpoch_eq (hdated : w.Dated crypto initial)
    (hrecorded : w.Recorded crypto initial) (h : w.Chained crypto initial)
    (htransitions : w.transitions.rows = []) (hd : d ∈ w.devices.rows)
    (hepoch : d.revokedMembershipEpoch = some epoch)
    (hcertificate : d.certificateID = some item.certificateID) (hdevice : item.deviceID = d.id)
    (hkey : item.authorityPublicKey = w.authorityPublicKey) :
    revocationEpoch crypto item
      (orderedRows RosterRow.epoch (fun _ => true) w.rosters.rows) = .ok epoch := by
  have hrevoked := hrecorded d hd epoch hepoch
  have hpositive := hdated.positive d hd epoch hepoch
  have hinitial : initial = w.authorityPublicKey := by
    have := h.authority.current_key
    rw [htransitions] at this
    exact this.symm
  have hforce (n : Nat) : keyInForce initial w.transitions.rows n = item.authorityPublicKey := by
    rw [htransitions, hkey, ← hinitial]
    rfl
  rw [orderedRows_eq (h.rosters.epochs.ascending.imp Nat.le_of_lt),
    List.filter_eq_self.mpr fun _ _ => rfl]
  refine Admission.revocationEpoch_eq hpositive (fun r hr => ?_) h.rosters.epochs.ascending ?_
  · obtain ⟨m, hm⟩ := h.rosters.holds r hr
    refine ⟨m, hforce r.epoch ▸ hm.decodes, fun hlisted => ?_, fun hle => ?_⟩
    · simp only [CertifiedRevocation.listedIn, List.any_eq_true, decide_eq_true_eq] at hlisted
      obtain ⟨x, hx, -, hid⟩ := hlisted
      obtain ⟨d', hd', hrevokes, epoch', hepoch', hle⟩ := hdated.listed r hr m hm x hx
      have hsame : d' = d := by
        refine Table.eq_of_key hd' hd (Block.ext ?_)
        rw [← hrevokes.1, hid, hdevice]
      rw [hsame, hepoch] at hepoch'
      cases hepoch'
      exact hle
    · obtain ⟨m', hm', -, x, hx, hid, hcertified⟩ := hrevoked.listed r hr hle
      obtain rfl := hm.eq hm'.decodes
      rw [hcertificate, Option.map_some, Option.some.injEq] at hcertified
      simp only [CertifiedRevocation.listedIn, List.any_eq_true, decide_eq_true_eq]
      exact ⟨x, hx, hcertified.symm, by rw [hid, hdevice]⟩
  · have hle := hrevoked.epoch_le
    exact h.rosters.epochs.exists_number hpositive (by omega)

end Stored

/-- The registry with only the epochs of these revocations. -/
def Registry.onlyEpochs (s : Registry) (items : List CertifiedRevocation) : Registry :=
  s.mapDevices (fun id d => if ∃ item ∈ items, item.workspaceID = id ∧ item.deviceID = d.id then d
    else { d with revokedMembershipEpoch := none }) fun _ d => by split <;> rfl

theorem eraseEpochs_eq (s : Registry) : s.eraseEpochs = s.onlyEpochs [] :=
  mapDevices_congr fun _ _ _ _ => by simp

/-- The epoch of one more revocation. -/
theorem onlyEpochs_setEpoch {s : Registry} {items : List CertifiedRevocation}
    {item : CertifiedRevocation} {w : Workspace} {d : Device} {epoch : Nat}
    (hw : w ∈ s.workspaces.rows) (hd : d ∈ w.devices.rows) (hid : item.workspaceID = w.id)
    (hdevice : item.deviceID = d.id) (hepoch : d.revokedMembershipEpoch = some epoch) :
    (s.onlyEpochs items).setEpoch item.workspaceID item.deviceID epoch =
      s.onlyEpochs (items ++ [item]) := by
  simp only [Registry.setEpoch, Registry.onlyEpochs, mapDevices_mapDevices]
  refine mapDevices_congr fun v hv x hx => ?_
  by_cases hsame : v.id = item.workspaceID ∧ x.id = item.deviceID
  · obtain rfl := Table.eq_of_key hv hw (hsame.1.trans hid)
    obtain rfl := Table.eq_of_key hx hd (hsame.2.trans hdevice)
    have hset : { x with revokedMembershipEpoch := some epoch } = x := by rw [← hepoch]
    rw [if_pos (⟨item, by simp, hid, hdevice⟩ : ∃ i ∈ items ++ [item], _)]
    split
    · exact hset
    · exact hset
  · have hother : (∃ i ∈ items ++ [item], i.workspaceID = v.id ∧ i.deviceID = x.id) ↔
        ∃ i ∈ items, i.workspaceID = v.id ∧ i.deviceID = x.id := by
      simp only [List.mem_append, List.mem_singleton, or_and_right, exists_or, exists_eq_left,
        or_iff_left_iff_imp]
      intro hitem
      exact absurd ⟨hitem.1.symm, hitem.2.symm⟩ hsame
    simp only [hother]
    split <;> rfl

/-- The registry has nothing but the epochs of its revocations. -/
theorem onlyEpochs_certified {crypto : Crypto} {s : Registry} {items : List CertifiedRevocation}
    (hsound : ∀ w ∈ s.workspaces.rows, ∀ d ∈ w.devices.rows, d.Sound crypto)
    (hitems : ∀ item ∈ certifiedRevocations s, item ∈ items) : s.onlyEpochs items = s := by
  refine mapDevices_self fun w hw d hd => ?_
  split
  · rfl
  · rename_i hnone
    have hd' := hsound w hw d hd
    have hepoch : d.revokedMembershipEpoch = none := by
      by_contra hne
      have hsome := Option.isSome_iff_ne_none.mpr hne
      obtain ⟨certificateID, hcertificate⟩ :=
        Option.isSome_iff_exists.mp (hd'.certified.mpr (Or.inr hsome))
      refine hnone ⟨⟨w.id, d.id, certificateID, w.authorityPublicKey⟩, hitems _ ?_, rfl, rfl⟩
      exact mem_certifiedRevocations.mpr
        ⟨w, hw, d, hd, hd'.epoch hsome, hcertificate, rfl, rfl, rfl⟩
    rw [← hepoch]

section Upgrade

variable {crypto : Crypto} {s : Registry}

/-- The query reads no epoch. -/
theorem certifiedRevocations_erased (s : Registry) :
    certifiedRevocations s.eraseEpochs = certifiedRevocations s := by
  simp [certifiedRevocations, Registry.eraseEpochs, Registry.mapDevices, Table.map,
    List.flatMap_map, List.filterMap_map]

/-- One revocation of the loop. -/
theorem Reachable.backfill_cons (hs : Reachable crypto s)
    (htransitions : ∀ w ∈ s.workspaces.rows, w.transitions.rows = [])
    {item : CertifiedRevocation} (hitem : item ∈ certifiedRevocations s)
    (items done : List CertifiedRevocation) :
    backfill crypto (item :: items) (s.onlyEpochs done) =
      backfill crypto items (s.onlyEpochs (done ++ [item])) := by
  obtain ⟨w, hw, d, hd, hstate, hcertificate, hid, hdevice, hkey⟩ :=
    mem_certifiedRevocations.mp hitem
  obtain ⟨initial, h⟩ := hs.chained w hw
  have hdated := hs.dated hw h
  have hsome : d.revokedMembershipEpoch.isSome := by
    refine ((hs.sound hw d hd).certified.mp (by simp [hcertificate])).resolve_left ?_
    rw [hstate]
    decide
  obtain ⟨epoch, hepoch⟩ := Option.isSome_iff_exists.mp hsome
  have hpositive := hdated.positive d hd epoch hepoch
  have hfind : s.find item.workspaceID = some w := Registry.find_eq_some.mpr ⟨hw, hid.symm⟩
  have hread : revocationEpoch crypto item (orderedRows RosterRow.epoch (fun _ => true)
      ((s.onlyEpochs done).rostersOf item.workspaceID)) = .ok epoch := by
    rw [Registry.onlyEpochs, rostersOf_mapDevices, Registry.rostersOf, hfind, Option.map_some,
      Option.getD_some]
    exact hdated.revocationEpoch_eq (hs.recorded hw h) h (htransitions w hw) hd hepoch hcertificate
      hdevice hkey
  have hset : (s.onlyEpochs done).setEpoch item.workspaceID item.deviceID epoch =
      s.onlyEpochs (done ++ [item]) := onlyEpochs_setEpoch hw hd hid hdevice hepoch
  simp only [backfill, hread, ok_bind, reject, if_neg (by omega : ¬ epoch = 0), hset]

theorem Reachable.backfill_eq (hs : Reachable crypto s)
    (htransitions : ∀ w ∈ s.workspaces.rows, w.transitions.rows = [])
    (items done : List CertifiedRevocation) (hitems : ∀ item ∈ items, item ∈ certifiedRevocations s) :
    backfill crypto items (s.onlyEpochs done) = .ok (s.onlyEpochs (done ++ items)) := by
  induction items generalizing done with
  | nil => simp [backfill]
  | cons item items ih =>
    rw [hs.backfill_cons htransitions (hitems item List.mem_cons_self),
      ih (done ++ [item]) fun x hx => hitems x (List.mem_cons_of_mem _ hx), List.append_assoc]
    rfl

/-- The database of version 4 for a registry. -/
def Registry.version4 (s : Registry) (migrations : Table SchemaMigration.version)
    (latest : ∀ m ∈ migrations.rows, m.version ≤ 4) : Version4 where
  registry := s.eraseEpochs
  migrations := migrations
  latest := latest
  empty := by
    intro w hw d hd
    obtain ⟨v, -, rfl⟩ := List.mem_map.mp hw
    obtain ⟨x, -, rfl⟩ := List.mem_map.mp hd
    rfl

end Upgrade

/-- The upgrade of a registry whose authority was never rotated gives every device the epoch that
`RevokeDevice` stored, which is none for a device without a certificate. -/
theorem upgrade_restores (crypto : Crypto) (calls : List Call)
    (hcalls : ∀ call ∈ calls, ∀ input, call ≠ .rotateWorkspaceAuthority input)
    (migrations : Table SchemaMigration.version) (hlatest : ∀ m ∈ migrations.rows, m.version ≤ 4)
    (revoked : List CertifiedRevocation) (now : Time)
    (hrevoked : revoked.Perm
      (certifiedRevocations (((store crypto).run .empty calls).version4 migrations hlatest).registry)) :
    ∃ migrations', migrations'.rows = migrations.rows ++ [⟨5, now.unixMilli⟩] ∧
      applySchemaVersion5 crypto (((store crypto).run .empty calls).version4 migrations hlatest)
        revoked now = .ok ⟨(store crypto).run .empty calls, migrations'⟩ ∧
      ∀ w ∈ ((store crypto).run .empty calls).workspaces.rows, ∀ d ∈ w.devices.rows,
        d.membershipState = .revoked →
          (d.certificateID = none ↔ d.revokedMembershipEpoch = none) := by
  have hs : Reachable crypto ((store crypto).run .empty calls) := ⟨calls, rfl⟩
  have hitems (item : CertifiedRevocation) :
      item ∈ revoked ↔ item ∈ certifiedRevocations ((store crypto).run .empty calls) := by
    rw [hrevoked.mem_iff, Registry.version4, certifiedRevocations_erased]
  have hbackfill := hs.backfill_eq (run_transitions hcalls) revoked [] fun x hx => (hitems x).mp hx
  rw [List.nil_append, onlyEpochs_certified (fun w hw => hs.sound hw) fun x hx => (hitems x).mpr hx,
    ← eraseEpochs_eq] at hbackfill
  obtain ⟨migrations', hinsert, hrows⟩ :=
    Table.insert_of_fresh (t := migrations) (r := ⟨5, now.unixMilli⟩) fun m hm heq => by
      have hversion : m.version = 5 := heq
      have := hlatest m hm
      omega
  refine ⟨migrations', hrows, ?_, fun w hw d hd hstate => ?_⟩
  · simp [applySchemaVersion5, Registry.version4, hbackfill, hinsert, require]
  · have hcertified := (hs.sound hw d hd).certified
    rw [hstate] at hcertified
    rw [← Option.not_isSome_iff_eq_none, ← Option.not_isSome_iff_eq_none, hcertified]
    simp

/-- The epoch of a device that roster 2 revoked is found again. -/
theorem upgrade_restores_revoked : ∃ db,
    applySchemaVersion5 sampleCrypto
      (((store sampleCrypto).run .empty revokedCalls).version4 .empty fun _ h => by cases h)
      (certifiedRevocations ((store sampleCrypto).run .empty revokedCalls)) sampleInstant = .ok db ∧
    ((db.registry.find sampleWorkspace).bind fun w =>
      (w.devices.find (numbered 15 1)).map (·.revokedMembershipEpoch)) = some (some 2) := by
  obtain ⟨migrations, -, happly, -⟩ := upgrade_restores sampleCrypto revokedCalls
    (by simp [revokedCalls, enroll, sampleCreation]) .empty (fun _ h => by cases h)
    (certifiedRevocations ((store sampleCrypto).run .empty revokedCalls)) sampleInstant
    (by rw [Registry.version4, certifiedRevocations_erased])
  refine ⟨_, happly, ?_⟩
  dsimp only
  exact revokedCalls_find.1

end SevenMirror.Admission
