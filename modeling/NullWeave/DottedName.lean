/-!
# Names with dots

A dotted name is cut at its last dot, into what leads up to it and what follows.
-/

namespace NullWeave

/-- What stands before and after the last dot, if there is a dot. -/
def cutAtLastDot? : List Char → Option (List Char × List Char)
  | [] => none
  | c :: rest =>
      match cutAtLastDot? rest with
      | some (lead, segment) => some (c :: lead, segment)
      | none => if c = '.' then some ([], rest) else none

/-- The two sides of the last dot, joined by a dot, are the name. -/
theorem eq_append_of_cutAtLastDot? {name lead segment : List Char}
    (cut : cutAtLastDot? name = some (lead, segment)) :
    name = lead ++ '.' :: segment := by
  induction name generalizing lead segment with
  | nil => simp [cutAtLastDot?] at cut
  | cons c rest ih =>
      rw [cutAtLastDot?] at cut
      split at cut
      next innerLead innerSegment inner =>
        obtain ⟨rfl, rfl⟩ : c :: innerLead = lead ∧ innerSegment = segment := by
          simpa using cut
        simp [ih inner]
      next =>
        split at cut
        next dot =>
          obtain ⟨rfl, rfl⟩ : [] = lead ∧ rest = segment := by simpa using cut
          simp [dot]
        next => simp at cut

/-- A name without a dot is not cut. -/
theorem cutAtLastDot?_eq_none_iff (name : List Char) :
    cutAtLastDot? name = none ↔ '.' ∉ name := by
  induction name with
  | nil => simp [cutAtLastDot?]
  | cons c rest ih =>
      rw [cutAtLastDot?]
      cases inner : cutAtLastDot? rest with
      | some parts =>
          have dot : '.' ∈ rest := by
            refine Decidable.byContradiction fun absent => ?_
            rw [ih.2 absent] at inner
            simp at inner
          simp [dot]
      | none =>
          have absent : '.' ∉ rest := ih.1 inner
          by_cases dot : c = '.'
          · simp [dot]
          · simp [dot, absent, Ne.symm dot]

end NullWeave
