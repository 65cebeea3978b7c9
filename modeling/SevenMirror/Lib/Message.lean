import SevenMirror.Lib.Text
import SevenMirror.Lib.Wire
import Mathlib.Data.Int.Init

/-! Protobuf messages over structures.  A codec lists the fields of a structure; it writes a
message and reads one back, keeping the records it does not know.  Each kind of field carries the
proof that it reads what it writes, each codec the proof that its fields determine the message, and
so every message without unknown records is read back from its text. -/

namespace SevenMirror.Lib.Wire

/-- What a field makes of a value: it is of another type, or malformed, or merged. -/
inductive Outcome (α : Type)
  | mismatch
  | malformed
  | merged (a : α)

def Outcome.map {α β : Type} (f : α → β) : Outcome α → Outcome β
  | mismatch => mismatch
  | malformed => malformed
  | merged a => merged (f a)

/-- Merges all records, if each of them can be. -/
def absorbAll {α : Type} (absorb : Payload → α → Outcome α) : List Record → α → Option α
  | [], a => some a
  | r :: rs, a =>
    match absorb r.payload a with
    | .merged a' => absorbAll absorb rs a'
    | _ => none

theorem absorbAll_append {α : Type} {absorb : Payload → α → Outcome α} {rs rs' : List Record}
    {a a' : α} (h : absorbAll absorb rs a = some a') :
    absorbAll absorb (rs ++ rs') a = absorbAll absorb rs' a' := by
  induction rs generalizing a with
  | nil =>
    cases h
    rfl
  | cons r rs ih =>
    simp only [List.cons_append, absorbAll] at h ⊢
    split at h
    · exact ih h
    · cases h

/-- `b` is the text of records of one field that take `a` to `a'`. -/
def Carries {α : Type} (absorb : Payload → α → Outcome α) (number : Nat) (a a' : α)
    (b : List UInt8) : Prop :=
  ∃ rs, SpellsAll b rs ∧ (∀ r ∈ rs, r.number = number) ∧ absorbAll absorb rs a = some a'

namespace Carries

variable {α : Type} {absorb : Payload → α → Outcome α} {number : Nat} {a a' a'' : α}
  {b b' : List UInt8}

theorem nil : Carries absorb number a a [] := ⟨[], .nil, nofun, rfl⟩

theorem single {r : Record} (hs : Spells b r) (hn : r.number = number)
    (ha : absorb r.payload a = .merged a') : Carries absorb number a a' b :=
  ⟨[r], .single hs, by simp [hn], by simp [absorbAll, ha]⟩

theorem append (h : Carries absorb number a a' b) (h' : Carries absorb number a' a'' b') :
    Carries absorb number a a'' (b ++ b') := by
  obtain ⟨rs, hs, hn, ha⟩ := h
  obtain ⟨rs', hs', hn', ha'⟩ := h'
  refine ⟨rs ++ rs', hs.append hs', fun r hr => ?_, (absorbAll_append ha).trans ha'⟩
  rcases List.mem_append.mp hr with hr | hr
  · exact hn r hr
  · exact hn' r hr

end Carries

/-- The texts below this size have lengths that a varint holds. -/
def textLimit : Nat := 0x10000000000000000

/-- A type of field values.  `plain` says that no message in the value has unknown records. -/
structure Kind (V : Type) where
  default : V
  emit : Nat → V → Option (List UInt8)
  absorb : Payload → V → Outcome V
  plain : V → Prop
  law : ∀ {number : Nat} {v : V} {b : List UInt8}, ValidNumber number → plain v →
    emit number v = some b → b.length < textLimit → Carries absorb number default v b

/-- A part of a structure. -/
structure Lens (M V : Type) where
  get : M → V
  set : V → M → M
  get_set : ∀ v m, get (set v m) = v := by intros; rfl
  set_set : ∀ v w m, set v (set w m) = set v m := by intros; rfl
  set_get : ∀ m, set (get m) m = m := by intros; rfl

/-- A field of the structure `M`. -/
structure Field (M : Type) where
  number : Nat
  emit : M → Option (List UInt8)
  absorb : Payload → M → Outcome M
  plain : M → Prop
  unset : M → Prop
  copy : M → M → M
  law : ∀ {m acc : M} {b : List UInt8}, ValidNumber number → plain m → unset acc →
    emit m = some b → b.length < textLimit → Carries absorb number acc (copy m acc) b

theorem Carries.lift {M V : Type} {kind : Kind V} {part : Lens M V} {number : Nat} {acc : M}
    {v : V} {b : List UInt8} (h : Carries kind.absorb number (part.get acc) v b) :
    Carries (fun p m => (kind.absorb p (part.get m)).map (part.set · m)) number acc
      (part.set v acc) b := by
  obtain ⟨rs, hs, hn, ha⟩ := h
  refine ⟨rs, hs, hn, ?_⟩
  clear hs hn
  induction rs generalizing acc with
  | nil =>
    cases ha
    simp [absorbAll, part.set_get]
  | cons r rs ih =>
    simp only [absorbAll] at ha ⊢
    split at ha
    · rename_i v' hv'
      simp only [hv', Outcome.map]
      have hv : absorbAll kind.absorb rs (part.get (part.set v' acc)) = some v := by
        rwa [part.get_set]
      have hrest := ih hv
      rwa [part.set_set] at hrest
    · cases ha

/-- The field that holds `part`. -/
def Kind.field {M V : Type} (kind : Kind V) (number : Nat) (part : Lens M V) : Field M where
  number
  emit m := kind.emit number (part.get m)
  absorb p m := (kind.absorb p (part.get m)).map (part.set · m)
  plain m := kind.plain (part.get m)
  unset m := part.get m = kind.default
  copy m acc := part.set (part.get m) acc
  law hn hp hu he hb := by
    apply Carries.lift
    rw [hu]
    exact kind.law hn hp he hb

/-- The fields, copied one after the other, make `m` of the accumulated message. -/
def Builds {M : Type} (m : M) : List (Field M) → M → Prop
  | [], acc => acc = m
  | f :: fs, acc => f.unset acc ∧ Builds m fs (f.copy m acc)

/-- The fields of a structure, in the order of their numbers. -/
structure Codec (M : Type) where
  fields : List (Field M)
  empty : M
  unknown : Lens M (List UInt8)
  ascending : fields.Pairwise (fun f g => f.number < g.number)
  valid : ∀ f ∈ fields, ValidNumber f.number
  builds : ∀ m, unknown.get m = [] → Builds m fields empty

namespace Codec

variable {M : Type} (c : Codec M)

def emitAll (m : M) : List (Field M) → Option (List UInt8)
  | [] => some []
  | f :: fs => do
    let b ← f.emit m
    let rest ← emitAll m fs
    return b ++ rest

/-- `proto.MarshalOptions{Deterministic: true}.Marshal`. -/
def marshal (m : M) : Option (List UInt8) := do
  let b ← emitAll m c.fields
  return b ++ c.unknown.get m

def keep (text : List UInt8) (m : M) : M := c.unknown.set (c.unknown.get m ++ text) m

def step (m : M) (r : Record) : Option M :=
  match c.fields.find? (·.number == r.number) with
  | none => some (c.keep r.text m)
  | some f =>
    match f.absorb r.payload m with
    | .mismatch => some (c.keep r.text m)
    | .malformed => none
    | .merged m' => some m'

def unmarshalInto (b : List UInt8) (m : M) : Option M := do
  let rs ← records b
  rs.foldlM c.step m

/-- `proto.UnmarshalOptions{DiscardUnknown: false}.Unmarshal`. -/
def unmarshal (b : List UInt8) : Option M := c.unmarshalInto b c.empty

/-- The message has no unknown record, at any depth. -/
def Plain (m : M) : Prop := c.unknown.get m = [] ∧ ∀ f ∈ c.fields, f.plain m

variable {c}

theorem find_field {f : Field M} (hf : f ∈ c.fields) :
    c.fields.find? (·.number == f.number) = some f := by
  have hasc := c.ascending
  generalize c.fields = fields at hf hasc
  induction fields with
  | nil => cases hf
  | cons g fs ih =>
    obtain ⟨hg, hfs⟩ := List.pairwise_cons.mp hasc
    rcases List.mem_cons.mp hf with rfl | hf
    · simp
    · have hne : (g.number == f.number) = false := by
        have := hg f hf
        simp
        omega
      rw [List.find?_cons, hne]
      exact ih hf hfs

theorem foldlM_step {f : Field M} (hf : f ∈ c.fields) {rs : List Record}
    (hn : ∀ r ∈ rs, r.number = f.number) {m m' : M} (h : absorbAll f.absorb rs m = some m') :
    rs.foldlM c.step m = some m' := by
  induction rs generalizing m with
  | nil => exact h
  | cons r rs ih =>
    simp only [absorbAll] at h
    split at h
    · rename_i m₁ hm₁
      have hstep : c.step m r = some m₁ := by
        rw [step, hn r List.mem_cons_self, find_field hf]
        simp only [hm₁]
      rw [List.foldlM_cons, hstep]
      exact ih (fun r hr => hn r (List.mem_cons_of_mem _ hr)) h
    · cases h

theorem emitAll_reads {m acc : M} {fs : List (Field M)} (hfs : ∀ f ∈ fs, f ∈ c.fields)
    (hplain : ∀ f ∈ fs, f.plain m) (hbuild : Builds m fs acc) {b : List UInt8}
    (hb : emitAll m fs = some b) (hsize : b.length < textLimit) :
    ∃ rs, SpellsAll b rs ∧ rs.foldlM c.step acc = some m := by
  induction fs generalizing acc b with
  | nil =>
    cases hb
    exact ⟨[], .nil, congrArg some hbuild⟩
  | cons f fs ih =>
    simp only [emitAll, Option.bind_eq_bind, Option.bind_eq_some_iff, Option.pure_def,
      Option.some.injEq] at hb
    obtain ⟨b₁, hb₁, b₂, hb₂, rfl⟩ := hb
    rw [List.length_append] at hsize
    have hf := hfs f List.mem_cons_self
    obtain ⟨rs₁, hs₁, hn₁, ha₁⟩ := f.law (c.valid f hf) (hplain f List.mem_cons_self) hbuild.1 hb₁
      (by omega)
    obtain ⟨rs₂, hs₂, ha₂⟩ := ih (fun g hg => hfs g (List.mem_cons_of_mem _ hg))
      (fun g hg => hplain g (List.mem_cons_of_mem _ hg)) hbuild.2 hb₂ (by omega)
    refine ⟨rs₁ ++ rs₂, hs₁.append hs₂, ?_⟩
    rw [List.foldlM_append, foldlM_step hf hn₁ ha₁]
    exact ha₂

/-- A message without unknown records is read back from its text. -/
theorem unmarshal_marshal {m : M} {b : List UInt8} (hm : c.Plain m) (hb : c.marshal m = some b)
    (hsize : b.length < textLimit) : c.unmarshal b = some m := by
  simp only [marshal, Option.bind_eq_bind, Option.bind_eq_some_iff, Option.pure_def,
    Option.some.injEq, hm.1, List.append_nil] at hb
  obtain ⟨b, hb, rfl⟩ := hb
  obtain ⟨rs, hs, hread⟩ := emitAll_reads (fun _ hf => hf) hm.2 (c.builds m hm.1) hb hsize
  simp only [unmarshal, unmarshalInto, hs.records, Option.bind_eq_bind, Option.bind_some, hread]

end Codec

end SevenMirror.Lib.Wire
