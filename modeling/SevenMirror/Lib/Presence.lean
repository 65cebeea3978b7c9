import SevenMirror.Lib.FieldKinds

/-! Protobuf fields with presence: byte strings that may be absent, and the members of a oneof, of
which at most one is set. -/

namespace SevenMirror.Lib.Wire

/-- A byte string that `accepts` holds of, or none.  It is written if it is there, even when it is
empty. -/
def optionalBlob (accepts : List UInt8 → Bool) : Kind (Option (List UInt8)) where
  default := none
  emit number
    | none => some []
    | some v => if accepts v then some (delimited number v) else none
  absorb
    | .bytes b, _ => if accepts b then .merged (some b) else .malformed
    | _, _ => .mismatch
  plain _ := True
  law := by
    intro number v b hn _ hb hsize
    cases v with
    | none =>
      cases hb
      exact .nil
    | some v =>
      dsimp only at hb
      split at hb
      · rename_i haccepts
        cases hb
        have hlength := length_le_delimited number v
        exact .single (spells_delimited hn (by unfold textLimit at hsize; omega)) rfl
          (by simp [haccepts])
      · cases hb

def optionalBytes : Kind (Option (List UInt8)) := optionalBlob fun _ => true

def optionalString : Kind (Option (List UInt8)) := optionalBlob validUtf8

/-- A member of a oneof: its message, if it is the one that is set, and how it is set. -/
structure Member (M V : Type) where
  get : M → Option V
  set : V → M → M

/-- The field of a member.  A second occurrence is merged into the first, unless another member was
set meanwhile. -/
def Member.field {M V : Type} (part : Member M V) (number : Nat) (c : Codec V) : Field M where
  number
  emit m := (message c).emit number (part.get m)
  absorb p m := ((message c).absorb p (part.get m)).map fun v => v.elim m (part.set · m)
  plain m := (message c).plain (part.get m)
  unset m := part.get m = none
  copy m acc := (part.get m).elim acc (part.set · acc)
  law := by
    intro m acc b hn hp hu he hb
    cases hv : part.get m with
    | none =>
      rw [hv] at he
      cases he
      exact .nil
    | some v =>
      rw [hv] at hp he
      simp only [message, Option.map_eq_some_iff] at he
      obtain ⟨body, hbody, rfl⟩ := he
      have hlength := length_le_delimited number body
      have hread : c.unmarshalInto body c.empty = some v :=
        Codec.unmarshal_marshal (hp v rfl) hbody (by omega)
      refine .single (spells_delimited hn (by unfold textLimit at hb; omega)) rfl ?_
      simp [message, hu, hread, Outcome.map]

end SevenMirror.Lib.Wire
