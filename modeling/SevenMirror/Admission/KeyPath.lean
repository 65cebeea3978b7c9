import SevenMirror.Admission.Chain

/-! What a client follows: a path of authority transitions from one key to another, and a path of
rosters from one digest on.  The chains of a workspace hold such paths between any two epochs. -/

namespace SevenMirror.Admission

open Lib MembershipCodec

/-- The transitions lead from the first key to the last. -/
def TransitionPath (crypto : Crypto) : Bytes → List Bytes → Bytes → Prop
  | key, [], last => key = last
  | key, encoded :: rest, last =>
    ∃ m, decodeSignedAuthorityKeyTransition crypto encoded = .ok m ∧
      m.body.previousAuthorityPublicKey = key ∧
      TransitionPath crypto m.body.newAuthorityPublicKey rest last

instance decidableTransitionPath (crypto : Crypto) :
    (key : Bytes) → (path : List Bytes) → (last : Bytes) →
      Decidable (TransitionPath crypto key path last)
  | key, [], last => inferInstanceAs (Decidable (key = last))
  | key, encoded :: rest, last =>
    match h : decodeSignedAuthorityKeyTransition crypto encoded with
    | .error _ => .isFalse fun ⟨m, hm, _⟩ => by simp [h] at hm
    | .ok m =>
      have := decidableTransitionPath crypto m.body.newAuthorityPublicKey rest last
      decidable_of_iff (m.body.previousAuthorityPublicKey = key ∧
          TransitionPath crypto m.body.newAuthorityPublicKey rest last)
        ⟨fun hm => ⟨m, h, hm⟩, fun ⟨m', hm', hm⟩ => by
          obtain rfl : m = m' := Except.ok.inj (h.symm.trans hm')
          exact hm⟩

/-- The rosters follow that of `epoch`, whose digest is `digest`, one epoch after the other, each
under the key of its epoch. -/
def RosterPath (crypto : Crypto) (key : Nat → Block 32) : Nat → Bytes → List Bytes → Prop
  | _, _, [] => True
  | epoch, digest, encoded :: rest =>
    ∃ m, decodeSignedWorkspaceRoster crypto encoded (key (epoch + 1)).bytes = .ok m ∧
      m.body.rosterEpoch.toNat = epoch + 1 ∧ m.body.previousRosterDigest = digest ∧
      RosterPath crypto key (epoch + 1) m.rosterDigest rest

section Transitions

variable {crypto : Crypto} {id : WorkspaceID} {initial : Block 32} {rows : List TransitionRow}

theorem TransitionPath.concat {first middle last encoded : Bytes} {path : List Bytes}
    {m : SignedAuthorityKeyTransition} (h : TransitionPath crypto first path middle)
    (hm : decodeSignedAuthorityKeyTransition crypto encoded = .ok m)
    (hprevious : m.body.previousAuthorityPublicKey = middle)
    (hnew : m.body.newAuthorityPublicKey = last) :
    TransitionPath crypto first (path ++ [encoded]) last := by
  induction path generalizing first with
  | nil =>
    cases h
    exact ⟨m, hm, hprevious, hnew⟩
  | cons x rest ih =>
    obtain ⟨m', hm', hfirst, hrest⟩ := h
    exact ⟨m', hm', hfirst, ih hrest⟩

/-- The activations of a chain ascend. -/
theorem activations_ascend
    (h : rows.IsChain fun t t' => t.activationRosterEpoch < t'.activationRosterEpoch) :
    rows.Pairwise fun t t' => t.activationRosterEpoch < t'.activationRosterEpoch := by
  have htrans : IsTrans TransitionRow fun t t' =>
      t.activationRosterEpoch < t'.activationRosterEpoch := ⟨fun _ _ _ => Nat.lt_trans⟩
  exact List.isChain_iff_pairwise.mp h

/-- The transitions that become active between two epochs lead from the key in force at the one to
the key in force at the other. -/
theorem transitionPath_between (hholds : ∀ t ∈ rows, ∃ m, t.Holds crypto id m)
    (hfirst : ∀ t ∈ rows.head?, t.previousAuthorityPublicKey = initial)
    (hlinked : rows.IsChain fun t t' =>
      t'.previousAuthorityPublicKey = t.newAuthorityPublicKey ∧
        t.activationRosterEpoch < t'.activationRosterEpoch) {low high : Nat} (hle : low ≤ high) :
    TransitionPath crypto (keyInForce initial rows low).bytes
      ((rows.filter fun t => low < t.activationRosterEpoch ∧ t.activationRosterEpoch ≤ high).map
        (·.signedTransition)) (keyInForce initial rows high).bytes := by
  induction rows using List.reverseRecOn with
  | nil => rfl
  | append_singleton rows t ih =>
    obtain ⟨hlinked', -, hlast⟩ := List.isChain_append.mp hlinked
    have hbefore : ∀ x ∈ rows, x.activationRosterEpoch < t.activationRosterEpoch := by
      have hascend := activations_ascend (hlinked.imp fun _ _ h => h.2)
      exact fun x hx => (List.pairwise_append.mp hascend).2.2 x hx t (List.mem_singleton_self t)
    have hprevious : t.previousAuthorityPublicKey =
        (rows.getLast?.map (·.newAuthorityPublicKey)).getD initial := by
      rcases List.eq_nil_or_concat' rows with rfl | ⟨before, x, rfl⟩
      · exact hfirst t rfl
      · rw [List.getLast?_concat]
        exact (hlast x (by simp) t rfl).1
    have hhead : ∀ x ∈ rows.head?, x.previousAuthorityPublicKey = initial := by
      intro x hx
      cases rows with
      | nil => cases hx
      | cons y rest => exact hfirst x hx
    have ih := ih (fun x hx => hholds x (List.mem_append_left _ hx)) hhead hlinked'
    rw [List.filter_append, List.map_append]
    by_cases hlow : t.activationRosterEpoch ≤ low
    · -- everything is active at the lower epoch
      rw [keyInForce_after hlow, keyInForce_after (Nat.le_trans hlow hle)]
      have hnone : (rows.filter fun t => low < t.activationRosterEpoch ∧
          t.activationRosterEpoch ≤ high) = [] := by
        simp only [List.filter_eq_nil_iff, decide_eq_true_eq]
        intro x hx
        have := hbefore x hx
        omega
      rw [hnone, List.filter_cons_of_neg (by simp; omega)]
      rfl
    · rw [keyInForce_before (by omega)]
      by_cases hhigh : t.activationRosterEpoch ≤ high
      · obtain ⟨m, hm⟩ := hholds t (by simp)
        rw [List.filter_cons_of_pos (by simp; omega), keyInForce_after hhigh]
        refine ih.concat hm.decodes ?_ hm.newKey
        rw [hm.previousKey, hprevious, keyInForce_last]
        intro x hx
        have := hbefore x hx
        omega
      · rw [List.filter_cons_of_neg (by simp; omega), keyInForce_before (by omega)]
        simpa using ih

end Transitions

/-- The rosters after `epoch`, as far as one likes. -/
theorem rosterPath_from {crypto : Crypto} {id : WorkspaceID} {key : Nat → Block 32}
    {rows : List RosterRow} {epoch : Nat} {digest : Block 32}
    (hepochs : Numbered RosterRow.epoch (epoch + 1) rows)
    (hholds : ∀ r ∈ rows, ∃ m, r.Holds crypto id (key r.epoch) m)
    (hfirst : ∀ r ∈ rows.head?, r.previousDigest = digest)
    (hlinked : rows.IsChain fun r r' => r'.previousDigest = r.digest) :
    RosterPath crypto key epoch digest.bytes (rows.map (·.signedRoster)) := by
  induction rows generalizing epoch digest with
  | nil => trivial
  | cons r rest ih =>
    obtain ⟨hr, hrest⟩ := hepochs.of_cons
    obtain ⟨m, hm⟩ := hholds r List.mem_cons_self
    rw [List.isChain_cons] at hlinked
    refine ⟨m, ?_, ?_, ?_, ?_⟩
    · rw [← hr]
      exact hm.decodes
    · rw [hm.epoch, hr]
    · rw [hm.previous, hfirst r rfl]
    · rw [hm.digest]
      exact ih hrest (fun x hx => hholds x (List.mem_cons_of_mem _ hx)) hlinked.1 hlinked.2

/-- The rosters after roster `epoch`. -/
theorem RosterChain.path {crypto : Crypto} {id : WorkspaceID} {key : Nat → Block 32}
    {rows : List RosterRow} (h : RosterChain crypto id key rows) {epoch : Nat}
    (hpositive : 1 ≤ epoch) (hle : epoch ≤ rows.length) (k : Nat) :
    ∃ r ∈ rows, r.epoch = epoch ∧
      RosterPath crypto key epoch r.digest.bytes
        (((rows.drop epoch).take k).map (·.signedRoster)) := by
  have hlength : (rows.take epoch).length = epoch := List.length_take_of_le hle
  rcases List.eq_nil_or_concat' (rows.take epoch) with hnil | ⟨before, r, hbefore⟩
  · rw [hnil, List.length_nil] at hlength
    omega
  · have hr : r ∈ (rows.take epoch).getLast? := by rw [hbefore, List.getLast?_concat]; rfl
    have hlast := (h.epochs.take epoch).last hr
    have hlinked := h.linked
    rw [← List.take_append_drop epoch rows, List.isChain_append] at hlinked
    have hepochs := (h.epochs.drop epoch).take k
    rw [Nat.add_comm] at hepochs
    refine ⟨r, List.mem_of_mem_take (List.mem_of_getLast? hr), by omega, rosterPath_from hepochs
      (fun x hx => h.holds x (List.mem_of_mem_drop (List.mem_of_mem_take hx)))
      (fun x hx => hlinked.2.2 r hr x ?_) (hlinked.2.1.take k)⟩
    cases k with
    | zero => cases hx
    | succ k => rwa [List.head?_take] at hx

end SevenMirror.Admission
