import SevenMirror.Lib.Optimistic
import SevenMirror.Admission.RegistryRun

/-! `ReadWorkspacePreference` and `WriteWorkspacePreference` of `internal/admission/store.go`.  Each
call is one statement, which SQLite runs as a transaction of its own, so that an interleaving of calls
is a sequence of statements. -/

namespace SevenMirror.Admission

open Lib MembershipCodec

def maxPreferenceKeyBytes : Nat := 64

def maxPreferencePayloadBytes : Nat := 0x40000

/-- A row of `workspace_preferences`. -/
structure PreferenceRow where
  workspaceID : WorkspaceID
  preferenceKey : Bytes
  revision : Nat
  payload : Bytes
  updatedAtMs : Int
deriving DecidableEq, Repr

/-- `PRIMARY KEY(workspace_id, preference_key)`. -/
def PreferenceRow.key (r : PreferenceRow) : WorkspaceID × Bytes := (r.workspaceID, r.preferenceKey)

/-- The tables that the calls read and write. -/
structure PreferenceStore where
  registry : Registry
  preferences : Table PreferenceRow.key

def PreferenceStore.empty : PreferenceStore := ⟨.empty, .empty⟩

structure PreferenceRecord where
  revision : Nat
  payload : Bytes
  updatedAtMS : Int
deriving DecidableEq, Repr

inductive PreferenceError
  | keyInvalid | payloadInvalid | revisionConflict | constraint
deriving DecidableEq, Repr

/-- The loop of the source is over the characters of the key.  Those outside ASCII consist of bytes
above the bound. -/
def validatePreferenceKey (key : Bytes) : Except PreferenceError Unit := do
  reject (key.length < 1 ∨ key.length > maxPreferenceKeyBytes ∨ ¬ validUtf8 key) .keyInvalid
  reject (∃ character ∈ key, character < 0x21 ∨ character > 0x7e) .keyInvalid

def readWorkspacePreference (s : PreferenceStore) (workspaceID : WorkspaceID) (key : Bytes) :
    Except PreferenceError (Option PreferenceRecord) := do
  validatePreferenceKey key
  return (s.preferences.find (workspaceID, key)).map fun r => ⟨r.revision, r.payload, r.updatedAtMs⟩

/-- The arguments of `WriteWorkspacePreference`. -/
structure PreferenceWrite where
  workspaceID : WorkspaceID
  key : Bytes
  expectedRevision : Int64
  payload : Bytes
  now : Time

/-- `INSERT … ON CONFLICT(workspace_id, preference_key) DO NOTHING`, with the rows that it affects. -/
def insertPreference (s : PreferenceStore) (input : PreferenceWrite) :
    Except PreferenceError (PreferenceStore × Nat) := do
  match s.preferences.insert ⟨input.workspaceID, input.key, 1, input.payload, unixMillis input.now⟩ with
  | none => return (s, 0)
  | some preferences =>
    -- `workspace_id` references `workspaces(id)`
    reject (s.registry.find input.workspaceID).isNone .constraint
    return ({ s with preferences }, 1)

/-- `WHERE workspace_id = ? AND preference_key = ? AND revision = ?`. -/
def PreferenceWrite.chooses (input : PreferenceWrite) (r : PreferenceRow) : Bool :=
  r.key = (input.workspaceID, input.key) ∧ (r.revision : Int) = input.expectedRevision.toInt

/-- `SET payload = ?, updated_at_ms = ?, revision = revision + 1`. -/
def PreferenceWrite.replacing (input : PreferenceWrite) (r : PreferenceRow) : PreferenceRow :=
  { r with
    payload := input.payload, updatedAtMs := unixMillis input.now, revision := r.revision + 1 }

/-- The `UPDATE`, with the rows that it affects.  A sum that is no integer of 64 bits does not fit the
column. -/
def updatePreference (s : PreferenceStore) (input : PreferenceWrite) :
    Except PreferenceError (PreferenceStore × Nat) := do
  reject (∃ r ∈ s.preferences.rows, input.chooses r ∧ r.revision = maxInt64) .constraint
  let preferences := s.preferences.update input.chooses input.replacing (fun _ _ => rfl)
  return ({ s with preferences }, s.preferences.affected input.chooses)

def writeWorkspacePreference (s : PreferenceStore) (input : PreferenceWrite) :
    Except PreferenceError (PreferenceStore × Int64) := do
  validatePreferenceKey input.key
  reject (input.payload.length < 1 ∨ input.payload.length > maxPreferencePayloadBytes) .payloadInvalid
  reject (input.expectedRevision < 0) .revisionConflict
  if input.expectedRevision = 0 then
    let (s', rows) ← insertPreference s input
    reject (rows ≠ 1) .revisionConflict
    return (s', 1)
  else
    let (s', rows) ← updatePreference s input
    reject (rows ≠ 1) .revisionConflict
    return (s', input.expectedRevision + 1)

/-! ### Runs -/

/-- A read or a write of a preference, or another call of the store. -/
inductive PreferenceCall
  | read (workspaceID : WorkspaceID) (key : Bytes)
  | write (input : PreferenceWrite)
  | other (call : Call)

inductive PreferenceAnswer
  | read (result : Except PreferenceError (Option PreferenceRecord))
  | wrote (result : Except PreferenceError Int64)
  | other (error : Option RegistryError)

def preferences (crypto : Crypto) : Machine PreferenceStore PreferenceCall PreferenceAnswer where
  step s
    | .read workspaceID key => (s, .read (readWorkspacePreference s workspaceID key))
    | .write input =>
      match writeWorkspacePreference s input with
      | .ok (s', revision) => (s', .wrote (.ok revision))
      | .error e => (s, .wrote (.error e))
    | .other call =>
      let (registry, error) := (store crypto).step s.registry call
      ({ s with registry }, .other error)

/-- What a preference holds: the payload, and the time of the write. -/
structure PreferenceValue where
  payload : Bytes
  updatedAtMs : Int
deriving DecidableEq, Repr

def PreferenceStore.stored (s : PreferenceStore) (workspaceID : WorkspaceID) (key : Bytes) :
    Option (Versioned PreferenceValue) :=
  (s.preferences.find (workspaceID, key)).map fun r => ⟨r.revision, r.payload, r.updatedAtMs⟩

/-- The write of the preference that the call made, if it succeeded. -/
def successfulWrite (workspaceID : WorkspaceID) (key : Bytes) :
    PreferenceCall × PreferenceAnswer → Option (VersionedWrite PreferenceValue)
  | (.write input, .wrote (.ok revision)) =>
    if input.workspaceID = workspaceID ∧ input.key = key then
      some {
        expected := input.expectedRevision.toInt.toNat
        stored := ⟨revision.toInt.toNat, input.payload, unixMillis input.now⟩ }
    else none
  | _ => none

/-- The successful writes of the preference, in the order in which they were committed. -/
def successfulWrites (workspaceID : WorkspaceID) (key : Bytes)
    (history : List (PreferenceCall × PreferenceAnswer)) : List (VersionedWrite PreferenceValue) :=
  history.filterMap (successfulWrite workspaceID key)

section Writes

variable {s s' : PreferenceStore} {input : PreferenceWrite} {revision : Int64}

/-- The row of the preference after a write, and those of the others. -/
structure StoresPreference (s s' : PreferenceStore) (input : PreferenceWrite) (revision : Nat) :
    Prop where
  stored : s'.stored input.workspaceID input.key =
    some ⟨revision, input.payload, unixMillis input.now⟩
  others : ∀ k, k ≠ (input.workspaceID, input.key) → s'.preferences.find k = s.preferences.find k

theorem PreferenceStore.stored_of_find {r : PreferenceRow} {workspaceID : WorkspaceID} {key : Bytes}
    (h : s.preferences.find (workspaceID, key) = some r) :
    s.stored workspaceID key = some ⟨r.revision, r.payload, r.updatedAtMs⟩ := by
  rw [PreferenceStore.stored, h, Option.map_some]

/-- A row is inserted only where there is none. -/
theorem insertPreference_ok (hok : insertPreference s input = .ok (s', 1)) :
    s.stored input.workspaceID input.key = none ∧ StoresPreference s s' input 1 := by
  simp only [insertPreference] at hok
  split at hok
  · cases hok
  · rename_i t hinsert
    simp only [bind_eq_ok, exists_unit, reject_eq_ok, pure_eq_ok, Prod.mk.injEq] at hok
    obtain ⟨-, rfl, -⟩ := hok
    obtain ⟨hfresh, hrows⟩ := Table.insert_eq_some.mp hinsert
    refine ⟨?_, ?_, fun k hk => Table.find_congr fun x hx => ?_⟩
    · rw [PreferenceStore.stored, Option.map_eq_none_iff]
      cases hfind : s.preferences.find (input.workspaceID, input.key) with
      | none => rfl
      | some r =>
        obtain ⟨hr, hkey⟩ := Table.find_eq_some.mp hfind
        exact absurd hkey (hfresh r hr)
    · have hfind : t.find (input.workspaceID, input.key) =
          some ⟨input.workspaceID, input.key, 1, input.payload, unixMillis input.now⟩ := by
        refine Table.find_eq_some.mpr ⟨?_, rfl⟩
        rw [hrows]
        exact List.mem_concat_self
      simp only [PreferenceStore.stored, hfind, Option.map_some]
    · rw [hrows, List.mem_append, List.mem_singleton]
      exact or_iff_left fun heq => hk (by rw [← hx, heq]; rfl)

/-- A row is updated only at the revision that the write names. -/
theorem updatePreference_ok (hok : updatePreference s input = .ok (s', 1)) :
    ∃ r, s.preferences.find (input.workspaceID, input.key) = some r ∧
      (r.revision : Int) = input.expectedRevision.toInt ∧ r.revision ≠ maxInt64 ∧
      StoresPreference s s' input (r.revision + 1) := by
  simp only [updatePreference, bind_eq_ok, exists_unit, reject_eq_ok, pure_eq_ok,
    Prod.mk.injEq] at hok
  obtain ⟨hbound, rfl, haffected⟩ := hok
  obtain ⟨r, hr, hchosen⟩ := Table.exists_of_affected haffected
  have hkeys {x : PreferenceRow} (hx : input.chooses x = true) :
      x.key = (input.workspaceID, input.key) ∧
        (x.revision : Int) = input.expectedRevision.toInt := of_decide_eq_true hx
  obtain ⟨hkey, hrevision⟩ := hkeys hchosen
  have hreplaces := Table.update_replaces (f := input.replacing) (fun _ _ => rfl) hr hchosen
    fun x hx => (hkeys hx).1.trans hkey.symm
  refine ⟨r, Table.find_eq_some.mpr ⟨hr, hkey⟩, hrevision, fun hmax => ?_, ?_, fun k hk => ?_⟩
  · exact hbound ⟨r, hr, hchosen, hmax⟩
  · have hfind : (s.preferences.update input.chooses input.replacing fun _ _ => rfl).find
        (input.workspaceID, input.key) = some (input.replacing r) :=
      Table.find_eq_some.mpr ⟨(hreplaces.rows _).mpr (Or.inl rfl), hkey⟩
    simp only [PreferenceStore.stored, hfind, Option.map_some]
    rfl
  · exact hreplaces.find_ne fun heq => hk (heq.symm.trans hkey)

/-- A write that succeeds meets the revision that it names, and stores the next one. -/
theorem writeWorkspacePreference_ok (hok : writeWorkspacePreference s input = .ok (s', revision)) :
    revisionOf (s.stored input.workspaceID input.key) = input.expectedRevision.toInt.toNat ∧
      revision.toInt.toNat = input.expectedRevision.toInt.toNat + 1 ∧
      StoresPreference s s' input revision.toInt.toNat := by
  simp only [writeWorkspacePreference, bind_eq_ok, exists_unit, reject_eq_ok] at hok
  obtain ⟨-, -, hpositive, hok⟩ := hok
  split at hok
  · rename_i hzero
    simp only [bind_eq_ok, exists_unit, reject_eq_ok, pure_eq_ok, Prod.mk.injEq, ne_eq,
      Decidable.not_not] at hok
    obtain ⟨⟨s₁, rows⟩, hinsert, rfl, rfl, rfl⟩ := hok
    obtain ⟨hnone, hstores⟩ := insertPreference_ok hinsert
    rw [hnone, hzero]
    exact ⟨rfl, rfl, hstores⟩
  · simp only [bind_eq_ok, exists_unit, reject_eq_ok, pure_eq_ok, Prod.mk.injEq, ne_eq,
      Decidable.not_not] at hok
    obtain ⟨⟨s₁, rows⟩, hupdate, rfl, rfl, rfl⟩ := hok
    obtain ⟨r, hfind, hrevision, hbound, hstores⟩ := updatePreference_ok hupdate
    have hlt := Int64.toInt_lt input.expectedRevision
    have hnext : (input.expectedRevision + 1).toInt = input.expectedRevision.toInt + 1 := by
      refine toInt_add_one (by omega) ?_
      unfold maxInt64 at hbound ⊢
      omega
    have hstored : (input.expectedRevision + 1).toInt.toNat = r.revision + 1 := by omega
    rw [PreferenceStore.stored_of_find hfind, hstored]
    refine ⟨?_, by omega, hstores⟩
    simp only [revisionOf, Option.map_some, Option.getD_some]
    omega

end Writes

section Runs

variable {crypto : Crypto}

theorem preferences_write_ok {s s' : PreferenceStore} {input : PreferenceWrite} {revision : Int64}
    (hok : writeWorkspacePreference s input = .ok (s', revision)) :
    (preferences crypto).step s (.write input) = (s', .wrote (.ok revision)) := by
  simp only [preferences, hok]

theorem preferences_write_error {s : PreferenceStore} {input : PreferenceWrite}
    {e : PreferenceError} (herror : writeWorkspacePreference s input = .error e) :
    (preferences crypto).step s (.write input) = (s, .wrote (.error e)) := by
  simp only [preferences, herror]

theorem preferences_optimistic (crypto : Crypto) (workspaceID : WorkspaceID) (key : Bytes) :
    Optimistic (preferences crypto) (·.stored workspaceID key)
      (successfulWrite workspaceID key) where
  write s call w hwrote := by
    cases call with
    | read => cases hwrote
    | other => cases hwrote
    | write input =>
      cases hwrite : writeWorkspacePreference s input with
      | error e =>
        rw [preferences_write_error hwrite] at hwrote
        cases hwrote
      | ok result =>
        obtain ⟨s', revision⟩ := result
        rw [preferences_write_ok hwrite] at hwrote ⊢
        simp only [successfulWrite, Option.ite_none_right_eq_some, Option.some.injEq] at hwrote
        obtain ⟨⟨rfl, rfl⟩, rfl⟩ := hwrote
        obtain ⟨hexpected, hnext, hstores⟩ := writeWorkspacePreference_ok hwrite
        exact ⟨hexpected, hnext, hstores.stored⟩
  other s call hwrote := by
    cases call with
    | read => rfl
    | other => rfl
    | write input =>
      cases hwrite : writeWorkspacePreference s input with
      | error e => rw [preferences_write_error hwrite]
      | ok result =>
        obtain ⟨s', revision⟩ := result
        rw [preferences_write_ok hwrite] at hwrote ⊢
        simp only [successfulWrite, ite_eq_right_iff, reduceCtorEq, imp_false] at hwrote
        obtain ⟨-, -, hstores⟩ := writeWorkspacePreference_ok hwrite
        refine congrArg (Option.map _) (hstores.others _ fun heq => hwrote ?_)
        exact ⟨(Prod.mk.inj heq).1.symm, (Prod.mk.inj heq).2.symm⟩

end Runs

/-- The record that a write leaves. -/
def recordOf (w : VersionedWrite PreferenceValue) : PreferenceRecord :=
  ⟨w.stored.revision, w.stored.value.payload, w.stored.value.updatedAtMs⟩

/-- No update of a preference is lost.  The successful writes return the revisions `1, 2, 3, …`, each
the one after that which the write named; at most one write succeeds at a revision; a write that
succeeds replaces the value of the write before it, and one that is rejected changes nothing; and a
read returns what the last successful write left. -/
theorem preferences_never_lose_updates (crypto : Crypto) (workspaceID : WorkspaceID) (key : Bytes)
    (calls : List PreferenceCall) :
    let s := (preferences crypto).run .empty calls
    let writes := successfulWrites workspaceID key ((preferences crypto).trace .empty calls)
    writes.map (·.stored.revision) = List.range' 1 writes.length ∧
    (∀ w ∈ writes, w.stored.revision = w.expected + 1) ∧
    (∀ n, writes.countP (·.expected = n) ≤ 1) ∧
    (∀ input s' revision, (preferences crypto).step s (.write input) = (s', .wrote (.ok revision)) →
      input.workspaceID = workspaceID → input.key = key →
      s.stored workspaceID key = writes.getLast?.map (·.stored) ∧
      revisionOf (writes.getLast?.map (·.stored)) = input.expectedRevision.toInt.toNat ∧
      revision.toInt.toNat = input.expectedRevision.toInt.toNat + 1 ∧
      s'.stored workspaceID key =
        some ⟨revision.toInt.toNat, input.payload, unixMillis input.now⟩) ∧
    (∀ input s' e, (preferences crypto).step s (.write input) = (s', .wrote (.error e)) → s' = s) ∧
    (validatePreferenceKey key = .ok () →
      (preferences crypto).step s (.read workspaceID key) =
        (s, .read (.ok (writes.getLast?.map recordOf)))) := by
  intro s writes
  have hoptimistic := preferences_optimistic crypto workspaceID key
  have hnone : PreferenceStore.empty.stored workspaceID key = none := rfl
  obtain ⟨hnumbered, hnext, hlast⟩ := hoptimistic.run hnone calls
  refine ⟨hnumbered, hnext, hoptimistic.expected_at_most_once hnone calls, ?_, ?_, fun hkey => ?_⟩
  · rintro input s' revision hstep rfl rfl
    cases hwrite : writeWorkspacePreference s input with
    | error e =>
      rw [preferences_write_error hwrite] at hstep
      cases hstep
    | ok result =>
      obtain ⟨s₁, revision₁⟩ := result
      rw [preferences_write_ok hwrite] at hstep
      cases hstep
      obtain ⟨hexpected, hreturned, hstores⟩ := writeWorkspacePreference_ok hwrite
      refine ⟨hlast, ?_, hreturned, hstores.stored⟩
      rw [← hexpected]
      exact congrArg revisionOf hlast.symm
  · intro input s' e hstep
    cases hwrite : writeWorkspacePreference s input with
    | error e =>
      rw [preferences_write_error hwrite] at hstep
      cases hstep
      rfl
    | ok result =>
      rw [preferences_write_ok hwrite] at hstep
      cases hstep
  · have hfind : (s.preferences.find (workspaceID, key)).map (fun r =>
        (⟨r.revision, r.payload, r.updatedAtMs⟩ : PreferenceRecord)) = writes.getLast?.map recordOf := by
      have hrecord := congrArg (Option.map fun v : Versioned PreferenceValue =>
        (⟨v.revision, v.value.payload, v.value.updatedAtMs⟩ : PreferenceRecord)) hlast
      rw [Option.map_map] at hrecord
      rw [PreferenceStore.stored, Option.map_map] at hrecord
      exact hrecord
    simp only [preferences, readWorkspacePreference, hkey, ok_bind, hfind]
    rfl

/-- A write of one byte to the preference `a`. -/
def sampleWrite (expectedRevision : Int64) (payload : UInt8) : PreferenceCall :=
  .write ⟨sampleWorkspace, [0x61], expectedRevision, [payload], sampleInstant⟩

/-- Two devices create the preference, and then two of them replace its first value. -/
def racingWrites : List PreferenceCall :=
  [.other sampleCreation, sampleWrite 0 1, sampleWrite 0 2, sampleWrite 1 3, sampleWrite 1 4]

/-- The first write of each pair succeeds, and a read returns the second of these. -/
theorem preferences_never_lose_updates_raced :
    (successfulWrites sampleWorkspace [0x61]
      ((preferences sampleCrypto).trace .empty racingWrites)).map (·.stored.value.payload) =
        [[1], [3]] ∧
    (preferences sampleCrypto).step ((preferences sampleCrypto).run .empty racingWrites)
        (.read sampleWorkspace [0x61]) =
      ((preferences sampleCrypto).run .empty racingWrites,
        .read (.ok (some ⟨2, [3], unixMillis sampleInstant⟩))) := by
  have hlast : (successfulWrites sampleWorkspace [0x61]
      ((preferences sampleCrypto).trace .empty racingWrites)).getLast?.map recordOf =
        some ⟨2, [3], unixMillis sampleInstant⟩ := by
    decide +kernel
  obtain ⟨-, -, -, -, -, hread⟩ :=
    preferences_never_lose_updates sampleCrypto sampleWorkspace [0x61] racingWrites
  refine ⟨by decide +kernel, ?_⟩
  rw [← hlast]
  exact hread (by decide)

end SevenMirror.Admission
