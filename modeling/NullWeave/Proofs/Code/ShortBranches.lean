import Mathlib.Data.Finset.Insert
import NullWeave.Proofs.Code.Narrowing

/-!
# The short branches of narrowed code

Apart from the forms of its branches code is fixed, so the layouts of a list of
instructions are the sets of its short branches.  A layout is settled when its
set is closed: a branch that would fit as one more short branch is in the set
already.  Narrowing ends at the least closed set above the branches that were
short at the start.
-/

namespace NullWeave

open Relation

/-- The identities of the short branches. -/
def shortBranches (instructions : List Instruction) : Finset InstrId :=
  ((instructions.filter (·.operation.isShortBranch)).map (·.id)).toFinset

/-- The code with the branches of a set short and all others long. -/
def withShort (short : Finset InstrId) (instructions : List Instruction) :
    List Instruction :=
  instructions.map fun instruction =>
    instruction.withForm (if instruction.id ∈ short then .short else .long)

/--
Does a set hold every branch that fits once it is short as well?

Its displacement is the one in the code whose short branches are those of the
set and the branch itself.
-/
def ClosedUnderFitting (low high : Int) (instructions : List Instruction)
    (short : Finset InstrId) : Prop :=
  ∀ index target id kind form label,
    instructions[index]? = some ⟨id, .branch kind form label⟩ →
    (∃ other, instructions[target]? = some other ∧ other.id = label) →
    low ≤ displacement (withShort (insert id short) instructions)
      index target →
    displacement (withShort (insert id short) instructions)
      index target ≤ high →
    id ∈ short

theorem mem_shortBranches
    {instructions : List Instruction} {id : InstrId} :
    id ∈ shortBranches instructions ↔
      ∃ kind label,
        (⟨id, .branch kind .short label⟩ : Instruction) ∈ instructions := by
  simp only [shortBranches, List.mem_toFinset, List.mem_map, List.mem_filter]
  constructor
  · rintro ⟨⟨found, operation⟩, ⟨member, isShort⟩, rfl⟩
    cases operation with
    | branch kind form label =>
        cases form with
        | short => exact ⟨kind, label, member⟩
        | long => simp [Operation.isShortBranch] at isShort
    | _ => simp [Operation.isShortBranch] at isShort
  · rintro ⟨kind, label, member⟩
    exact ⟨_, ⟨member, rfl⟩, rfl⟩

theorem getElem?_withShort
    (short : Finset InstrId) (instructions : List Instruction) (index : Nat) :
    (withShort short instructions)[index]? =
      instructions[index]?.map fun instruction =>
        instruction.withForm (if instruction.id ∈ short then .short else .long) := by
  simp [withShort]

theorem shortBranches_withShort_subset
    (short : Finset InstrId) (instructions : List Instruction) :
    shortBranches (withShort short instructions) ⊆ short := by
  intro id member
  obtain ⟨kind, label, there⟩ := mem_shortBranches.mp member
  obtain ⟨⟨found, operation⟩, -, changed⟩ := List.mem_map.mp there
  cases operation with
  | branch kind form label =>
      by_cases chosen : found ∈ short
      · obtain rfl : found = id := congrArg Instruction.id changed
        exact chosen
      · simp [chosen, Instruction.withForm, Operation.withForm] at changed
  | _ =>
      simp [Instruction.withForm, Operation.withForm] at changed

/-- Code is determined by its short branches. -/
theorem withShort_shortBranches
    {instructions : List Instruction}
    (distinct : (identities instructions).Nodup) :
    withShort (shortBranches instructions) instructions = instructions := by
  refine (List.map_congr_left ?_).trans (List.map_id instructions)
  rintro ⟨id, operation⟩ member
  cases operation with
  | branch kind form label =>
      cases form with
      | short =>
          have chosen : id ∈ shortBranches instructions :=
            mem_shortBranches.mpr ⟨kind, label, member⟩
          simp [chosen, Instruction.withForm, Operation.withForm]
      | long =>
          have notChosen : id ∉ shortBranches instructions := by
            intro chosen
            obtain ⟨otherKind, otherLabel, short⟩ :=
              mem_shortBranches.mp chosen
            have same := eq_of_id_eq distinct member short rfl
            simp at same
          simp [notChosen, Instruction.withForm, Operation.withForm]
  | _ =>
      rfl

theorem Narrows.withShort_eq
    {before after : List Instruction} (narrows : Narrows before after)
    (short : Finset InstrId) :
    withShort short after = withShort short before := by
  induction narrows with
  | nil =>
      rfl
  | cons first rest inductionHypothesis =>
      simp only [withShort, List.map_cons] at inductionHypothesis ⊢
      rw [inductionHypothesis]
      cases first <;> rfl

theorem Narrows.shortBranches_subset
    {before after : List Instruction} (narrows : Narrows before after) :
    shortBranches before ⊆ shortBranches after := by
  intro id member
  obtain ⟨kind, label, here⟩ := mem_shortBranches.mp member
  obtain ⟨index, atIndex⟩ := List.getElem?_of_mem here
  obtain ⟨other, there, narrowsHere⟩ := narrows.getElem? atIndex
  cases narrowsHere
  exact mem_shortBranches.mpr ⟨kind, label, List.mem_of_getElem? there⟩

/-- Making more branches short narrows code. -/
theorem narrows_withShort
    {instructions : List Instruction} {short : Finset InstrId}
    (more : shortBranches instructions ⊆ short) :
    Narrows instructions (withShort short instructions) := by
  refine List.forall₂_map_right_iff.mpr (List.forall₂_same.mpr ?_)
  rintro ⟨id, operation⟩ member
  cases operation with
  | branch kind form label =>
      cases form with
      | short =>
          have chosen : id ∈ short :=
            more (mem_shortBranches.mpr ⟨kind, label, member⟩)
          simp only [chosen, if_true]
          exact .same _
      | long =>
          by_cases chosen : id ∈ short
          · simp only [chosen, if_true]
            exact .narrowed id kind label
          · simp only [chosen, if_false]
            exact .same _
  | _ =>
      exact .same _

/-- Narrowing one branch puts it into the set. -/
theorem narrowAt_withShort
    {instructions : List Instruction}
    (distinct : (identities instructions).Nodup)
    (short : Finset InstrId) {index : Nat} {instruction : Instruction}
    (here : instructions[index]? = some instruction) :
    narrowAt (withShort short instructions) index =
      withShort (insert instruction.id short) instructions := by
  apply List.ext_getElem?
  intro position
  rw [getElem?_narrowAt, getElem?_withShort, getElem?_withShort]
  by_cases same : index = position
  · subst position
    simp [here]
  · rw [if_neg same]
    cases there : instructions[position]? with
    | none =>
        rfl
    | some other =>
        have otherId : other.id ≠ instruction.id := by
          intro sameId
          exact same (@MethodBody.position_eq_of_id_eq { instructions }
            distinct _ _ _ _ here there sameId.symm)
        simp [otherId]

/-- A layout is settled exactly if its set is closed. -/
theorem settled_withShort_iff
    {instructions : List Instruction}
    (distinct : (identities instructions).Nodup)
    {low high : Int} {short : Finset InstrId} :
    Settled low high (withShort short instructions) ↔
      ClosedUnderFitting low high instructions short := by
  constructor
  · intro settled index target id kind form label here atTarget atLeast atMost
    by_contra notShort
    refine settled index target
      ⟨id, kind, label, ?_, ?_⟩ ?_
    · rw [getElem?_withShort, here]
      simp [notShort, Instruction.withForm, Operation.withForm]
    · obtain ⟨other, there, rfl⟩ := atTarget
      exact ⟨other.withForm (if other.id ∈ short then .short else .long),
        by rw [getElem?_withShort, there, Option.map_some], rfl⟩
    · rw [InReach, narrowAt_withShort distinct short here]
      exact ⟨atLeast, atMost⟩
  · rintro closed index target ⟨id, kind, label, here, other, there, rfl⟩ fits
    rw [getElem?_withShort] at here there
    obtain ⟨⟨found, operation⟩, original, changed⟩ :=
      Option.map_eq_some_iff.mp here
    obtain ⟨destination, atTarget, rfl⟩ := Option.map_eq_some_iff.mp there
    rw [InReach, narrowAt_withShort distinct short original] at fits
    cases operation with
    | branch foundKind form foundLabel =>
        by_cases chosen : found ∈ short
        · simp [chosen, Instruction.withForm, Operation.withForm] at changed
        · obtain ⟨rfl, rfl, sameLabel⟩ :
              found = id ∧ foundKind = kind ∧ foundLabel = destination.id := by
            simpa [chosen, Instruction.withForm, Operation.withForm]
              using changed
          exact chosen (closed index target found foundKind form foundLabel
            original ⟨destination, atTarget, sameLabel.symm⟩ fits.1 fits.2)
    | _ =>
        simp [Instruction.withForm, Operation.withForm] at changed

/-- The short branches of the widest settled code are the least closed set. -/
theorem isLeast_shortBranches
    {low high : Int} {instructions narrowed : List Instruction}
    (distinct : (identities instructions).Nodup)
    (widest : IsWidestSettled low high instructions narrowed) :
    IsLeast
      { short | shortBranches instructions ⊆ short ∧
        ClosedUnderFitting low high instructions short }
      (shortBranches narrowed) := by
  have distinctNarrowed : (identities narrowed).Nodup := by
    rw [widest.narrows.identities_eq]
    exact distinct
  constructor
  · refine ⟨widest.narrows.shortBranches_subset, ?_⟩
    rw [← settled_withShort_iff distinct, ← widest.narrows.withShort_eq,
      withShort_shortBranches distinctNarrowed]
    exact widest.settled
  · rintro short ⟨more, closed⟩
    have narrows : Narrows narrowed (withShort short instructions) :=
      widest.widest _ (narrows_withShort more)
        ((settled_withShort_iff distinct).mpr closed)
    exact narrows.shortBranches_subset.trans
      (shortBranches_withShort_subset short instructions)

/-! ## Narrowing -/

/-- What narrowing code into a range has to end at. -/
structure IsNarrowedFixpoint (low high : Int)
    (instructions narrowed : List Instruction) : Prop where
  /-- The rounds end: more of them than there are long branches change nothing. -/
  ends : ∀ rounds, longCount instructions ≤ rounds →
    narrowWithin low high rounds instructions = narrowed ∧
      (narrowable low high narrowed).any id = false
  /-- Nothing changes except that long branches become short. -/
  narrows : Narrows instructions narrowed
  least : IsLeast
    { short | shortBranches instructions ⊆ short ∧
      ClosedUnderFitting low high instructions short }
    (shortBranches narrowed)
  /-- Narrowing one branch at a time comes to an end. -/
  stepsEnd : WellFounded fun after before => NarrowStep low high before after
  reached : ReflTransGen (NarrowStep low high) instructions narrowed
  /-- Whatever the order of the steps is, they end here. -/
  confluent : ∀ after,
    ReflTransGen (NarrowStep low high) instructions after →
      ReflTransGen (NarrowStep low high) after narrowed ∧
        (Settled low high after → after = narrowed)
  /-- Every branch that became short fits in the code as it is in the end. -/
  shortFits : ∀ index id kind label,
    instructions[index]? = some ⟨id, .branch kind .long label⟩ →
    narrowed[index]? = some ⟨id, .branch kind .short label⟩ →
    ∃ target other,
      narrowed[target]? = some other ∧ other.id = label ∧
        low ≤ displacement narrowed index target ∧
        displacement narrowed index target ≤ high
  /-- No branch that stayed long would fit. -/
  longDoesNotFit : Settled low high narrowed

theorem isNarrowedFixpoint
    {low high : Int} (atMostZero : low ≤ 0) (atLeastZero : 0 ≤ high)
    {instructions : List Instruction}
    (distinct : (identities instructions).Nodup) :
    IsNarrowedFixpoint low high instructions
      (narrowBranches low high instructions) := by
  have widest : ∀ rounds, longCount instructions ≤ rounds →
      IsWidestSettled low high instructions
        (narrowWithin low high rounds instructions) :=
    fun _ => isWidestSettled_narrowWithin atMostZero atLeastZero distinct
  have narrowed :
      IsWidestSettled low high instructions
        (narrowBranches low high instructions) :=
    widest _ (Nat.le_refl _)
  have distinctNarrowed :
      (identities (narrowBranches low high instructions)).Nodup := by
    rw [narrowed.narrows.identities_eq]
    exact distinct
  have confluent : ∀ after,
      ReflTransGen (NarrowStep low high) instructions after →
        ReflTransGen (NarrowStep low high) after
            (narrowBranches low high instructions) ∧
          (Settled low high after →
            after = narrowBranches low high instructions) := by
    intro after steps
    have settledThere : ∀ other,
        ReflTransGen (NarrowStep low high) instructions other →
        Settled low high other →
          other = narrowBranches low high instructions :=
      fun other steps settled =>
        (isWidestSettled_of_narrowSteps atMostZero atLeastZero steps
          settled).unique narrowed
    obtain ⟨last, further, settled⟩ := exists_narrowSteps low high after
    obtain rfl := settledThere last (steps.trans further) settled
    exact ⟨further, settledThere after steps⟩
  have reached := (confluent instructions .refl).1
  exact {
    ends := fun rounds enough =>
      ⟨(widest rounds enough).unique narrowed,
        (any_narrowable_eq_false_iff distinctNarrowed).mpr narrowed.settled⟩
    narrows := narrowed.narrows
    least := isLeast_shortBranches distinct narrowed
    stepsEnd := wellFounded_narrowStep low high
    reached
    confluent
    shortFits := fun _ _ _ _ before short =>
      within_of_narrowSteps atMostZero atLeastZero reached before short
    longDoesNotFit := narrowed.settled }

/--
Narrowing into the range of a signed byte ends at the one fixpoint of the rule
that a long branch becomes short when it then fits.
-/
theorem narrowBranches_isNarrowedFixpoint
    (instructions : List Instruction)
    (distinct : (identities instructions).Nodup) :
    IsNarrowedFixpoint (-128) 127 instructions
      (narrowBranches (-128) 127 instructions) :=
  isNarrowedFixpoint (by decide) (by decide) distinct

/-- Two branches over a wide `switch`; the outer one fits once the inner one is short. -/
def nestedBranches : List Instruction :=
  [⟨⟨0⟩, .branch .always .long ⟨3⟩⟩,
    ⟨⟨1⟩, .branch .ifTrue .long ⟨3⟩⟩,
    ⟨⟨2⟩, .switch (List.replicate 30 ⟨0⟩)⟩,
    ⟨⟨3⟩, .ret⟩]

theorem narrowBranches_nestedBranches :
    narrowable (-128) 127 nestedBranches = [false, true, false, false] ∧
      shortBranches (narrowBranches (-128) 127 nestedBranches) =
        {⟨0⟩, ⟨1⟩} ∧
      IsNarrowedFixpoint (-128) 127 nestedBranches
        (narrowBranches (-128) 127 nestedBranches) :=
  ⟨by decide, by decide,
    narrowBranches_isNarrowedFixpoint nestedBranches (by decide)⟩

end NullWeave
