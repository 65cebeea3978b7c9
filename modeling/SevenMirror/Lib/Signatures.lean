import Mathlib.Data.List.Induction

/-! Texts for several purposes.  A text starts with the word of its purpose, which ends with a mark,
so that no text is read as one for another purpose; and what was signed is known from the calls that
signed it. -/

namespace SevenMirror.Lib

/-! ### Words that end with a mark -/

section Terminated

variable {α : Type*} {mark : α}

/-- The word ends with the mark, which does not occur before. -/
def Terminated (mark : α) (word : List α) : Prop :=
  ∃ front, word = front ++ [mark] ∧ mark ∉ front

/-- Such words are told apart, whatever follows them. -/
theorem Terminated.append_inj {u v x y : List α} (hu : Terminated mark u) (hv : Terminated mark v)
    (h : u ++ x = v ++ y) : u = v ∧ x = y := by
  obtain ⟨front, rfl, hfront⟩ := hu
  obtain ⟨front', rfl, hfront'⟩ := hv
  induction front generalizing front' with
  | nil =>
    cases front' with
    | nil => simpa using h
    | cons c front' =>
      obtain ⟨rfl, -⟩ := List.cons.inj h
      exact absurd List.mem_cons_self hfront'
  | cons c front ih =>
    cases front' with
    | nil =>
      obtain ⟨rfl, -⟩ := List.cons.inj h
      exact absurd List.mem_cons_self hfront
    | cons d front' =>
      obtain ⟨rfl, htail⟩ := List.cons.inj h
      obtain ⟨hwords, hrest⟩ := ih (fun hmem => hfront (List.mem_cons_of_mem _ hmem)) front'
        (fun hmem => hfront' (List.mem_cons_of_mem _ hmem)) htail
      exact ⟨congrArg (c :: ·) hwords, hrest⟩

end Terminated

/-! ### Transcripts -/

section Transcript

variable {Call Request : Type*} (ask : List Request → Call → List Request)

/-- What the calls ask for, one after the other, when what a call asks for depends on what was asked
for before. -/
def transcript (calls : List Call) : List Request :=
  calls.foldl (fun log call => log ++ ask log call) []

theorem transcript_concat (calls : List Call) (call : Call) :
    transcript ask (calls ++ [call]) =
      transcript ask calls ++ ask (transcript ask calls) call := by
  simp [transcript]

/-- What was asked for was asked for by one of the calls. -/
theorem exists_of_mem_transcript {calls : List Call} {r : Request} (h : r ∈ transcript ask calls) :
    ∃ before call later, calls = before ++ call :: later ∧
      r ∈ ask (transcript ask before) call := by
  induction calls using List.reverseRecOn with
  | nil => exact absurd h List.not_mem_nil
  | append_singleton calls call ih =>
    rw [transcript_concat, List.mem_append] at h
    rcases h with hbefore | hcall
    · obtain ⟨before, earlier, later, rfl, hasked⟩ := ih hbefore
      exact ⟨before, earlier, later ++ [call], by simp, hasked⟩
    · exact ⟨calls, call, [], rfl, hcall⟩

end Transcript

end SevenMirror.Lib
