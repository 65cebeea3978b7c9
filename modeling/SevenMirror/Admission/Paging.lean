import Mathlib.Order.Bounds.Defs
import SevenMirror.Admission.Bootstrap
import SevenMirror.Admission.Growth

/-! Reading the roster chain page by page.  Each call returns the longest page that its bounds allow,
and a device that goes on after the last roster it got reads the whole chain up to the last roster
that it may see, unless more than 256 authority transitions lie ahead of it. -/

namespace SevenMirror.Admission

open Lib MembershipCodec

/-- The chains of every workspace are whole, and no device names a roster that is not there. -/
def Registry.WellFormed (crypto : Crypto) (s : Registry) : Prop :=
  ∀ w ∈ s.workspaces.rows, (∃ initial, w.Chained crypto initial) ∧
    ∀ d ∈ w.devices.rows, d.Sound crypto ∧ visibleCeiling w d ≤ w.rosters.rows.length

theorem Reachable.wellFormed {crypto : Crypto} {s : Registry} (hs : Reachable crypto s) :
    s.WellFormed crypto := by
  intro w hw
  obtain ⟨initial, h⟩ := hs.chained w hw
  exact ⟨⟨initial, h⟩, fun d hd => ⟨hs.sound hw d hd, hs.ceiling_le hw h hd⟩⟩

/-! ### The longest page -/

/-- The rosters after the epoch `low`, up to the epoch `high`. -/
def rostersBetween (w : Workspace) (low high : Nat) : List RosterRow :=
  w.rosters.rows.filter fun r => low < r.epoch ∧ r.epoch ≤ high

def signedBytes (rows : List RosterRow) : Nat :=
  pageSize (rows.map fun r => (r.epoch, r.signedRoster))

/-- The first `k` rosters keep to the bounds of a page; a single roster may exceed the bytes. -/
structure FitsPage (rows : List RosterRow) (k : Nat) : Prop where
  there : k ≤ rows.length
  count : k ≤ maxMembershipRosterPage
  bytes : k ≤ 1 ∨ signedBytes (rows.take k) ≤ maxMembershipRosterPageRaw

theorem signedBytes_append (rows more : List RosterRow) :
    signedBytes (rows ++ more) = signedBytes rows + signedBytes more := by
  induction rows with
  | nil => simp [signedBytes, pageSize]
  | cons r rest ih =>
    simp only [signedBytes, List.cons_append, List.map_cons, pageSize] at ih ⊢
    omega

theorem signedBytes_take_mono (rows : List RosterRow) {j k : Nat} (h : j ≤ k) :
    signedBytes (rows.take j) ≤ signedBytes (rows.take k) := by
  have hsplit : rows.take k = rows.take j ++ (rows.drop j).take (k - j) := by
    rw [← List.take_add, Nat.add_sub_cancel' h]
  rw [hsplit, signedBytes_append]
  exact Nat.le_add_right _ _

section Pages

variable {crypto : Crypto} {s : Registry} {input : MembershipRead} {initial : Block 32}
  {w : Workspace} {d : Device} {low high : Nat}

theorem rostersBetween_eq (h : w.Chained crypto initial) (low high : Nat) :
    rostersBetween w low high = (w.rosters.rows.drop low).take (high - low) := by
  rw [rostersBetween, h.rosters.epochs.filter_within (by omega), Nat.add_sub_cancel]

theorem rostersBetween_length (h : w.Chained crypto initial) (hle : high ≤ w.rosters.rows.length) :
    (rostersBetween w low high).length = high - low := by
  rw [rostersBetween_eq h, List.length_take, List.length_drop]
  omega

/-- They are the rosters `low + 1`, …, `high`. -/
theorem rostersBetween_epochs (h : w.Chained crypto initial) (hle : high ≤ w.rosters.rows.length) :
    (rostersBetween w low high).map (·.epoch) = List.range' (low + 1) (high - low) := by
  have hnumbered := (h.rosters.epochs.drop low).take (high - low)
  rw [← rostersBetween_eq h, Nat.add_comm] at hnumbered
  rw [hnumbered, rostersBetween_length h hle]

theorem rostersBetween_drop (h : w.Chained crypto initial) (k : Nat) :
    (rostersBetween w low high).drop k = rostersBetween w (low + k) high := by
  rw [rostersBetween_eq h, rostersBetween_eq h, List.drop_take, List.drop_drop, Nat.sub_add_eq]

/-- A full page is the longest one. -/
theorem FullPage.longest {k : Nat} (hpage : FullPage w low high k) (h : w.Chained crypto initial)
    (hle : high ≤ w.rosters.rows.length) :
    IsGreatest {j | FitsPage (rostersBetween w low high) j} k := by
  have hlength : (rostersBetween w low high).length = high - low := rostersBetween_length h hle
  have hvisible := hpage.visible
  have hbytes {j : Nat} (hj : j ≤ high - low) :
      signedBytes ((rostersBetween w low high).take j) = rosterBytes w low j := by
    rw [rostersBetween_eq h, List.take_take, Nat.min_eq_left hj]
    rfl
  refine ⟨⟨by omega, hpage.count, ?_⟩, fun j hj => ?_⟩
  · by_cases hone : k ≤ 1
    · exact Or.inl hone
    · rw [hbytes (by omega)]
      exact Or.inr (hpage.fits (by omega))
  · by_contra hlonger
    have hthere := hj.there
    have hcount := hj.count
    have hpositive := hpage.positive
    rcases hpage.full with hlast | hfull | hlarge
    · omega
    · omega
    · have hmono := signedBytes_take_mono (rostersBetween w low high) (j := k + 1) (k := j) (by omega)
      rw [hbytes (by omega)] at hmono
      have hsmall := hj.bytes.resolve_left (by omega)
      omega

/-- One call of a device that reads on. -/
structure PageAfter (w : Workspace) (low high : Nat) (view : MembershipStateView) (k : Nat) :
    Prop where
  latest : view.latestRosterEpoch = high
  rosters : view.rosters = ((rostersBetween w low high).take k).map (·.signedRoster)
  longest : IsGreatest {j | FitsPage (rostersBetween w low high) j} k

/-- A device that has rosters left to read gets one. -/
theorem PageAfter.positive {view : MembershipStateView} {k : Nat}
    (hpage : PageAfter w low high view k) (h : w.Chained crypto initial)
    (hle : high ≤ w.rosters.rows.length) (hlt : low < high) : 1 ≤ k := by
  refine hpage.longest.2 ⟨?_, by decide, Or.inl (Nat.le_refl 1)⟩
  rw [rostersBetween_length h hle]
  omega

/-- A member that reads on after the epoch `low`. -/
structure ReadsOn (crypto : Crypto) (s : Registry) (w : Workspace) (d : Device)
    (input : MembershipRead) (low : Nat) : Prop where
  workspace : s.find input.workspaceID = some w
  device : w.devices.find input.deviceID = some d
  enrolled : d.Enrolled
  token : d.authTokenHash = crypto.sha256 input.authToken
  tokenLength : input.authToken.length = authTokenBytes
  after : input.afterRosterEpoch.toInt = low
  positive : 1 ≤ low
  visible : low ≤ visibleCeiling w d

/-- The transitions that lie ahead. -/
def transitionsAhead (w : Workspace) (d : Device) (low : Nat) : Nat :=
  (transitionsWithin w.transitions.rows low (visibleCeiling w d)).length

theorem ReadsOn.eval_eq (hread : ReadsOn crypto s w d input low) (hs : s.WellFormed crypto) :
    (readMembershipState crypto input).eval (answerMembership crypto input s) =
      memberView crypto input s (d.row w) := by
  have hmem := (Registry.find_eq_some.mp hread.workspace).1
  obtain ⟨hsound, -⟩ := (hs w hmem).2 d (Table.find_eq_some.mp hread.device).1
  exact hsound.eval_enrolled hread.workspace hread.device hread.enrolled hread.token
    hread.tokenLength (afterRosterEpoch_nonneg hread.after)

theorem collectTransitions_refused {taken rows : List Bytes}
    (htaken : taken.length ≤ maxAuthorityTransitions)
    (hmany : maxAuthorityTransitions < taken.length + rows.length) :
    collectTransitions taken rows = .error .transitionLimit := by
  induction rows generalizing taken with
  | nil => exact absurd hmany (Nat.not_lt.mpr htaken)
  | cons encoded rest ih =>
    rw [collectTransitions]
    split
    · rfl
    · rw [List.length_cons] at hmany
      refine ih ?_ ?_ <;> rw [List.length_append, List.length_singleton] <;> omega

/-- Too many transitions ahead end the call. -/
theorem ReadsOn.refused (hread : ReadsOn crypto s w d input low) (hs : s.WellFormed crypto)
    (hmany : maxAuthorityTransitions < transitionsAhead w d low) :
    (readMembershipState crypto input).eval (answerMembership crypto input s) =
      .error .transitionLimit := by
  obtain ⟨⟨initial, h⟩, -⟩ := hs w (Registry.find_eq_some.mp hread.workspace).1
  have hquery : queryAfterEpoch crypto input ((d.row w).signedCertificate.getD [])
      (effectiveKey input s (d.row w)) = .ok input.afterRosterEpoch :=
    queryAfterEpoch_given hread.after hread.positive _ _
  have htransitions : collectTransitions []
      (selectTransitions input s input.afterRosterEpoch (d.row w).ceiling) =
        .error .transitionLimit := by
    refine collectTransitions_refused (Nat.zero_le _) ?_
    rw [transitionsAhead, ← (h.ceiling_eq low).1] at hmany
    rw [selectTransitions_eq hread.workspace h hread.after, List.length_map, List.length_take,
      List.length_nil]
    omega
  rw [hread.eval_eq hs]
  simp only [memberView, hquery, ok_bind, htransitions]
  rfl

/-- Otherwise the call returns the longest page. -/
theorem ReadsOn.page (hread : ReadsOn crypto s w d input low) (hs : s.WellFormed crypto)
    (hfew : transitionsAhead w d low ≤ maxAuthorityTransitions) :
    ∃ view k, (readMembershipState crypto input).eval (answerMembership crypto input s) = .ok view ∧
      PageAfter w low (visibleCeiling w d) view k := by
  have hmem := (Registry.find_eq_some.mp hread.workspace).1
  obtain ⟨⟨initial, h⟩, hdevices⟩ := hs w hmem
  obtain ⟨-, hle⟩ := hdevices d (Table.find_eq_some.mp hread.device).1
  have hquery : queryAfterEpoch crypto input ((d.row w).signedCertificate.getD [])
      (keyInForce initial w.transitions.rows (d.row w).ceiling) = .ok input.afterRosterEpoch :=
    queryAfterEpoch_given hread.after hread.positive _ _
  rw [transitionsAhead, ← (h.ceiling_eq low).1] at hfew
  rw [hread.eval_eq hs]
  rcases Nat.lt_or_eq_of_le hread.visible with hlt | heq
  · obtain ⟨k, hview, hfull⟩ := memberView_page hread.workspace h hquery hread.after hfew hle hlt
    refine ⟨_, k, hview, rfl, ?_, hfull.longest h hle⟩
    rw [rostersBetween_eq h, List.take_take, Nat.min_eq_left (by have := hfull.visible; omega)]
    rfl
  · obtain ⟨k, hk, hview⟩ := memberView_eq hread.workspace h rfl hquery hread.after hfew
    -- nothing is left to read
    have hnone : (w.rosters.rows.drop low).take k = [] := by
      cases hepoch : d.revokedMembershipEpoch with
      | none =>
        rw [heq, visibleCeiling_none hepoch, List.drop_length, List.take_nil]
      | some epoch =>
        rw [MemberRow.ceiling, Device.row, hepoch, Option.getD_some, heq,
          visibleCeiling_some hepoch, Nat.sub_self] at hk
        rw [Nat.le_zero.mp hk, List.take_zero]
    refine ⟨_, 0, hview, rfl, ?_, ⟨Nat.zero_le _, Nat.zero_le _, Or.inl (Nat.zero_le _)⟩, ?_⟩
    · rw [viewAfter, hnone]
      rfl
    · intro j hj
      have hthere := hj.there
      rw [rostersBetween_length h hle, ← heq, Nat.sub_self] at hthere
      exact hthere

/-- The pages of so many calls, each of which goes on after the page before it. -/
def readPages (crypto : Crypto) (s : Registry) :
    Nat → MembershipRead → Except MembershipReadError (List (List Bytes))
  | 0, _ => .ok []
  | calls + 1, input => do
    let view ← (readMembershipState crypto input).eval (answerMembership crypto input s)
    let pages ← readPages crypto s calls { input with
      afterRosterEpoch := input.afterRosterEpoch + Int64.ofNat view.rosters.length }
    return view.rosters :: pages

theorem PageAfter.length {view : MembershipStateView} {k : Nat}
    (hpage : PageAfter w low high view k) : view.rosters.length = k := by
  rw [hpage.rosters, List.length_map, List.length_take, Nat.min_eq_left hpage.longest.1.there]

/-- The next call goes on after the page. -/
theorem ReadsOn.next {k : Nat} (hread : ReadsOn crypto s w d input low)
    (h : w.Chained crypto initial) (hle : visibleCeiling w d ≤ w.rosters.rows.length)
    (hk : low + k ≤ visibleCeiling w d) :
    ReadsOn crypto s w d
      { input with afterRosterEpoch := input.afterRosterEpoch + Int64.ofNat k } (low + k) where
  workspace := hread.workspace
  device := hread.device
  enrolled := hread.enrolled
  token := hread.token
  tokenLength := hread.tokenLength
  after := by
    have hbound := h.length_le
    have hafter := hread.after
    unfold maxInt64 at hbound
    have hofNat : (Int64.ofNat k).toInt = k := Int64.toInt_ofNat_of_lt (by omega)
    rw [Int64.toInt_add, hafter, hofNat, Int.bmod_eq_of_le] <;> omega
  positive := Nat.le_trans hread.positive (Nat.le_add_right _ _)
  visible := hk

/-- Fewer transitions lie ahead of a later roster. -/
theorem transitionsAhead_mono (w : Workspace) (d : Device) (low k : Nat) :
    transitionsAhead w d (low + k) ≤ transitionsAhead w d low := by
  unfold transitionsAhead transitionsWithin
  rw [← List.countP_eq_length_filter, ← List.countP_eq_length_filter]
  refine List.countP_mono_left fun t _ ht => ?_
  simp only [decide_eq_true_eq] at ht ⊢
  omega

/-- The pages are what the chain starts with after `low`, one roster for each call at least. -/
theorem ReadsOn.pages (hread : ReadsOn crypto s w d input low) (hs : s.WellFormed crypto)
    (hfew : transitionsAhead w d low ≤ maxAuthorityTransitions) (calls : Nat) :
    ∃ pages m, readPages crypto s calls input = .ok pages ∧
      pages.flatten = ((rostersBetween w low (visibleCeiling w d)).take m).map (·.signedRoster) ∧
      (calls ≤ m ∨ visibleCeiling w d - low ≤ m) := by
  obtain ⟨⟨initial, h⟩, hdevices⟩ := hs w (Registry.find_eq_some.mp hread.workspace).1
  obtain ⟨-, hle⟩ := hdevices d (Table.find_eq_some.mp hread.device).1
  induction calls generalizing input low with
  | zero => exact ⟨[], 0, rfl, rfl, Or.inl (Nat.le_refl 0)⟩
  | succ calls ih =>
    obtain ⟨view, k, hview, hpage⟩ := hread.page hs hfew
    have hthere := hpage.longest.1.there
    rw [rostersBetween_length h hle] at hthere
    have hnext := hread.next h hle (k := k) (by have := hread.visible; omega)
    obtain ⟨pages, m, hpages, hflatten, hm⟩ :=
      ih hnext (Nat.le_trans (transitionsAhead_mono w d low k) hfew)
    refine ⟨view.rosters :: pages, k + m, ?_, ?_, ?_⟩
    · simp only [readPages, hview, ok_bind, hpage.length, hpages]
      rfl
    · rw [List.flatten_cons, hflatten, hpage.rosters, ← rostersBetween_drop h, List.take_add,
        List.map_append]
    · by_cases hlt : low < visibleCeiling w d
      · have hpositive := hpage.positive h hle hlt
        omega
      · omega

end Pages

/-- A member that reads on after the roster `low` may see the rosters `low + 1`, …, up to its ceiling.
With at most 256 transitions ahead, a call returns the longest page of them, and so many calls as there
are rosters return them all, each once, in order, and as they are stored.  With more transitions ahead,
every call fails at their limit. -/
theorem roster_pages_whole (crypto : Crypto) (s : Registry) (hs : s.WellFormed crypto) (w : Workspace)
    (d : Device) (input : MembershipRead) (low : Nat) (hread : ReadsOn crypto s w d input low) :
    (rostersBetween w low (visibleCeiling w d)).map (·.epoch) =
        List.range' (low + 1) (visibleCeiling w d - low) ∧
      (maxAuthorityTransitions < transitionsAhead w d low →
        (readMembershipState crypto input).eval (answerMembership crypto input s) =
          .error .transitionLimit) ∧
      (transitionsAhead w d low ≤ maxAuthorityTransitions →
        (∃ view k, (readMembershipState crypto input).eval (answerMembership crypto input s) =
            .ok view ∧
          (∀ result, (readMembershipState crypto input).alone (answerMembership crypto input s)
            false = some result → result = .ok view) ∧
          PageAfter w low (visibleCeiling w d) view k) ∧
        ∀ calls, ∃ pages, readPages crypto s calls input = .ok pages ∧
          pages.flatten <+: (rostersBetween w low (visibleCeiling w d)).map (·.signedRoster) ∧
          (visibleCeiling w d - low ≤ calls →
            pages.flatten = (rostersBetween w low (visibleCeiling w d)).map (·.signedRoster))) := by
  obtain ⟨⟨initial, h⟩, hdevices⟩ := hs w (Registry.find_eq_some.mp hread.workspace).1
  obtain ⟨-, hle⟩ := hdevices d (Table.find_eq_some.mp hread.device).1
  refine ⟨rostersBetween_epochs h hle, hread.refused hs, fun hfew => ⟨?_, fun calls => ?_⟩⟩
  · obtain ⟨view, k, hview, hpage⟩ := hread.page hs hfew
    exact ⟨view, k, hview,
      fun result hresult => (Statements.alone_eq_some hresult).symm.trans hview, hpage⟩
  · obtain ⟨pages, m, hpages, hflatten, hm⟩ := hread.pages hs hfew calls
    refine ⟨pages, hpages, ?_, fun hcalls => ?_⟩
    · rw [hflatten]
      exact (List.take_prefix _ _).map _
    · rw [hflatten, List.take_of_length_le]
      rw [rostersBetween_length h hle]
      omega

/-- The device has the first roster, and the authority rotated with the second. -/
theorem roster_pages_whole_rotation :
    ∃ w d pages, ReadsOn sampleCrypto ((store sampleCrypto).run .empty sampleCalls) w d
        { sampleRead with afterRosterEpoch := 1 } 1 ∧ visibleCeiling w d = 2 ∧
      readPages sampleCrypto ((store sampleCrypto).run .empty sampleCalls) 1
        { sampleRead with afterRosterEpoch := 1 } = .ok pages ∧
      pages.flatten = (rostersBetween w 1 2).map (·.signedRoster) := by
  have hcolumns : (((store sampleCrypto).run .empty sampleCalls).find sampleWorkspace).bind (fun w =>
      (w.devices.find (numbered 15 1)).map fun d => (d.membershipState, d.authTokenHash,
        visibleCeiling w d, transitionsAhead w d 1)) =
      some (.approved, sampleCrypto.sha256 sampleRead.authToken, 2, 1) := by
    decide +kernel
  obtain ⟨w, hw, hdevice⟩ := Option.bind_eq_some_iff.mp hcolumns
  obtain ⟨d, hd, hdevice⟩ := Option.map_eq_some_iff.mp hdevice
  simp only [Prod.mk.injEq] at hdevice
  obtain ⟨hstate, htoken, hceiling, hcount⟩ := hdevice
  have hread : ReadsOn sampleCrypto ((store sampleCrypto).run .empty sampleCalls) w d
      { sampleRead with afterRosterEpoch := 1 } 1 :=
    ⟨hw, hd, Or.inl hstate, htoken, by decide, by decide, Nat.le_refl 1, by rw [hceiling]; decide⟩
  obtain ⟨-, -, hpages⟩ := roster_pages_whole sampleCrypto _
    (Reachable.wellFormed ⟨sampleCalls, rfl⟩) w d _ 1 hread
  obtain ⟨pages, hpages, -, hall⟩ := (hpages (by rw [hcount]; decide)).2 1
  refine ⟨w, d, pages, hread, hceiling, hpages, ?_⟩
  rw [hall (by rw [hceiling]), hceiling]

/-! ### Many rotations -/

/-- The authority key after `n` rotations, which go back and forth between two keys. -/
def turnKey (n : Nat) : Bytes := List.replicate 64 (UInt8.ofNat (n % 2 + 1))

theorem turnKey_cases (n : Nat) : turnKey n = turnKey 0 ∨ turnKey n = turnKey 1 := by
  rcases Nat.mod_two_eq_zero_or_one n with h | h <;> simp [turnKey, h]

theorem turnKey_pair (n : Nat) : KeyPair idealCrypto (turnKey n) := by
  rcases turnKey_cases n with h | h <;> rw [h] <;> exact ⟨rfl, by decide, fun _ => rfl⟩

theorem turnKey_ne (n : Nat) : publicKey (turnKey n) ≠ publicKey (turnKey (n + 1)) := by
  rcases Nat.mod_two_eq_zero_or_one n with h | h
  · have hnext : (n + 1) % 2 = 1 := by omega
    rw [turnKey, turnKey, h, hnext]
    decide
  · have hnext : (n + 1) % 2 = 0 := by omega
    rw [turnKey, turnKey, h, hnext]
    decide

/-- A workspace with one member, whose authority rotated `n` times. -/
structure Turned (s : Registry) (w : Workspace) (d : Device) (n : Nat) : Prop where
  reachable : Reachable idealCrypto s
  found : s.find w.id = some w
  id : w.id = fleetWorkspace
  key : publicKey (turnKey n) = w.authorityPublicKey.bytes
  authority : w.authorityEpoch = n + 1
  devices : ∀ x ∈ w.devices.rows, x.id = counted 14 0
  member : EnrolledAs w 0 d
  rosters : w.rosters.rows.length = n + 1
  transitions : w.transitions.rows.length = n
  activated : ∀ t ∈ w.transitions.rows, 1 < t.activationRosterEpoch

section Turned

variable {s : Registry} {w : Workspace} {d : Device} {n : Nat}

theorem turned_start : ∃ s w d, Turned s w d 0 := by
  obtain ⟨s, w, d, h, hl, -, hd⟩ := fleet_enrolled (n := 0) (by decide)
  obtain ⟨initial, hchained⟩ := h.reachable.chained w h.mem
  have hnone : w.transitions.rows.length = 0 := by
    have hepoch := hchained.authority.current_epoch
    rw [h.authority] at hepoch
    omega
  refine ⟨s, w, d, h.reachable, h.found, h.id, h.key.symm, h.authority, fun x hx => ?_, hd, hl.rosters,
    hnone, fun t ht => ?_⟩
  · obtain ⟨i, hi, hid, -⟩ := h.devices x hx
    rw [hid, Nat.lt_one_iff.mp hi]
  · rw [List.eq_nil_of_length_eq_zero hnone] at ht
    cases ht

theorem Turned.administered (h : Turned s w d n) (hn : n + 1 < maxInt64) :
    Administered idealCrypto s w (turnKey n) sampleInstant := by
  obtain ⟨initial, hchained⟩ := h.reachable.chained w (Registry.find_eq_some.mp h.found).1
  constructor
  case reachable => exact h.reachable
  case found => exact h.found
  case epochs =>
    refine ⟨fun row hrow => ?_, by rw [h.authority]; exact hn⟩
    have hbound := (hchained.rosters.epochs.bounds hrow).2
    rw [h.rosters] at hbound
    omega
  case named =>
    refine ⟨by rw [h.id]; exact counted_nonzero 13 0, fun x hx => ?_⟩
    rw [h.devices x hx]
    exact counted_nonzero 13 0
  case references =>
    intro x hx y hy _
    rw [h.devices x hx, h.devices y hy]
  case authority => exact ⟨turnKey_pair n, h.key⟩
  case instant => decide

/-- One more rotation. -/
theorem Turned.turns (h : Turned s w d n) (hn : n + 1 < maxInt64) :
    ∃ s' w' d', Turned s' w' d' (n + 1) := by
  have hadministered := h.administered hn
  obtain ⟨initial, hhealthy⟩ := hadministered.healthy
  have hchained := hhealthy.chained
  have hrosters : w.rosters.rows ≠ [] := by
    rw [← List.length_pos_iff, h.rosters]
    exact Nat.succ_pos n
  obtain ⟨⟨w', rotated⟩, hok⟩ := rotateAuthority_succeeds
    ⟨w.id, turnKey n, turnKey (n + 1), sampleInstant⟩ hhealthy idealCrypto_ideal
    hadministered.named hadministered.authority (turnKey_pair (n + 1)) (turnKey_ne n)
    hadministered.epochs.authority hrosters hadministered.instant
  have hcommit : commit idealCrypto s (.rotateWorkspaceAuthority
      ⟨w.id, turnKey n, turnKey (n + 1), sampleInstant⟩) = .ok (s.put w') := by
    simp only [commit, hadministered.rotate_eq (turnKey_pair (n + 1)) (turnKey_ne n), hok]
    rfl
  obtain ⟨a, devices, rosters, transitions, hinput, htakes, hw', -⟩ :=
    rotateAuthority_takes hchained hok
  obtain ⟨hmem, hid, htoken, hstate⟩ := h.member
  obtain ⟨d', hd', hsame⟩ := reissueCertificates_row htakes.reissue hmem
  obtain ⟨row, m, hpublished, -⟩ := htakes.published
  refine ⟨s.put w', w', d', ?_⟩
  subst hw'
  constructor
  case reachable => exact h.reachable.commits _ hcommit
  case found => exact Registry.find_put h.found rfl
  case id => exact h.id
  case key => rw [htakes.newKey, hinput]
  case authority => exact congrArg (· + 1) h.authority
  case devices =>
    exact reissueCertificates_rows (P := fun x => x.id = counted 14 0) (fun _ _ _ hx _ => hx)
      htakes.reissue h.devices
  case member =>
    exact ⟨hd', (congrArg Device.id hsame).trans hid, (congrArg Device.authTokenHash hsame).trans htoken,
      (congrArg Device.membershipState hsame).trans hstate⟩
  case rosters => rw [hpublished, List.length_append, h.rosters, List.length_singleton]
  case transitions => rw [htakes.rows, List.length_append, h.transitions, List.length_singleton]
  case activated =>
    intro t ht
    rw [htakes.rows, List.mem_append, List.mem_singleton] at ht
    rcases ht with ht | rfl
    · exact h.activated t ht
    · have hepoch := htakes.draft.epoch_eq hchained
      have hlength := h.rosters
      simp only [transitionRow]
      omega

theorem turned (n : Nat) (hn : n < maxInt64) : ∃ s w d, Turned s w d n := by
  induction n with
  | zero => exact turned_start
  | succ n ih =>
    obtain ⟨s, w, d, h⟩ := ih (Nat.lt_of_succ_lt hn)
    exact h.turns hn

end Turned

/-- The member reads on after the first roster. -/
def turnedRead : MembershipRead where
  workspaceID := fleetWorkspace
  deviceID := counted 14 0
  authToken := (counted 30 0).bytes
  afterRosterEpoch := 1

/-- After 257 rotations the member that has the first roster cannot read on, however often it calls. -/
theorem roster_pages_refused : ∃ s w d, s.WellFormed idealCrypto ∧
    ReadsOn idealCrypto s w d turnedRead 1 ∧ visibleCeiling w d = 258 ∧
    (readMembershipState idealCrypto turnedRead).eval (answerMembership idealCrypto turnedRead s) =
      .error .transitionLimit ∧
    ∀ calls, readPages idealCrypto s (calls + 1) turnedRead = .error .transitionLimit := by
  obtain ⟨s, w, d, h⟩ := turned 257 (by decide)
  obtain ⟨hmem, hid, htoken, hstate⟩ := h.member
  have hs := h.reachable.wellFormed
  have hw := h.found
  rw [h.id] at hw
  have hsound := h.reachable.sound (Registry.find_eq_some.mp h.found).1 d hmem
  have hceiling : visibleCeiling w d = 258 := by
    rw [visibleCeiling_none (hsound.unrevoked hstate).2, h.rosters]
  have hread : ReadsOn idealCrypto s w d turnedRead 1 :=
    ⟨hw, Table.find_eq_some.mpr ⟨hmem, hid⟩, Or.inl hstate, htoken, by decide, by decide,
      Nat.le_refl 1, by rw [hceiling]; decide⟩
  have hmany : maxAuthorityTransitions < transitionsAhead w d 1 := by
    obtain ⟨initial, hchained⟩ := h.reachable.chained w (Registry.find_eq_some.mp h.found).1
    have hall : transitionsWithin w.transitions.rows 1 (visibleCeiling w d) = w.transitions.rows := by
      refine List.filter_eq_self.mpr fun t ht => decide_eq_true ⟨h.activated t ht, ?_⟩
      rw [visibleCeiling_none (hsound.unrevoked hstate).2]
      exact hchained.authority.activated t ht
    rw [transitionsAhead, hall, h.transitions]
    decide
  have hrefused := hread.refused hs hmany
  refine ⟨s, w, d, hs, hread, hceiling, hrefused, fun calls => ?_⟩
  simp only [readPages, hrefused]
  rfl

end SevenMirror.Admission
