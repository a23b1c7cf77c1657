import Mathlib.Data.Finset.Dedup
import Mathlib.Logic.Relation
import Mathlib.Order.Bounds.Basic
import NullWeave.Proofs.Code.Offset

/-!
# The narrowest code

A long branch may become short when its displacement would then lie in the
range of the short form.  Code in which no branch may is settled.  Narrowing
brings displacements closer to zero, so a branch that may become short still
may after any other did, and every settled code below given code is narrower
than whatever the given code can be narrowed to step by step.

So one settled code is the widest of them all.  It is reached by narrowing all
branches of a round at once and by narrowing them one at a time in any order,
and its short branches are the least set that holds those that were short and
is closed under what the rule adds.
-/

namespace NullWeave

open Relation

/-! ## Positions of identities -/

/-- With distinct identities, the last position of one is where it stands. -/
theorem lastIndexOf?_eq_some_iff
    {instructions : List Instruction}
    (distinct : (identities instructions).Nodup)
    {id : InstrId} {index : Nat} :
    lastIndexOf? instructions id = some index ↔
      ∃ instruction,
        instructions[index]? = some instruction ∧ instruction.id = id := by
  have reversedDistinct : (identities instructions.reverse).Nodup := by
    simpa [identities] using distinct
  have found : ∀ position,
      instructions.reverse.findIdx? (·.id == id) = some position ↔
        ∃ instruction, instructions.reverse[position]? = some instruction ∧
          instruction.id = id :=
    fun _ => @MethodBody.indexOf?_eq_some_iff
      { instructions := instructions.reverse } reversedDistinct id _
  simp only [lastIndexOf?, Option.map_eq_some_iff, found]
  constructor
  · rintro ⟨position, ⟨instruction, here, sameId⟩, rfl⟩
    have inside : position < instructions.length := by
      simpa using (List.getElem?_eq_some_iff.mp here).1
    rw [List.getElem?_reverse inside] at here
    exact ⟨instruction, here, sameId⟩
  · rintro ⟨instruction, here, sameId⟩
    have inside := (List.getElem?_eq_some_iff.mp here).1
    refine ⟨instructions.length - 1 - index, ⟨instruction, ?_, sameId⟩,
      by omega⟩
    rw [List.getElem?_reverse (by omega),
      show instructions.length - 1 - (instructions.length - 1 - index) =
        index by omega]
    exact here

/-! ## Narrowing one branch -/

/-- Give the short form to the instruction at a position. -/
def narrowAt (instructions : List Instruction) (index : Nat) :
    List Instruction :=
  instructions.modify index (·.withForm .short)

/-- A long branch stands at one position, and its target at another one. -/
def LongBranch (instructions : List Instruction) (index target : Nat) : Prop :=
  ∃ id kind label,
    instructions[index]? = some ⟨id, .branch kind .long label⟩ ∧
      ∃ other, instructions[target]? = some other ∧ other.id = label

theorem longBranch_of_longTarget?
    {instructions : List Instruction} {index target : Nat}
    {instruction : Instruction} {label : InstrId}
    (here : instructions[index]? = some instruction)
    (isLong : longTarget? instruction = some label)
    (atTarget : ∃ other,
      instructions[target]? = some other ∧ other.id = label) :
    LongBranch instructions index target := by
  obtain ⟨id, operation⟩ := instruction
  cases operation with
  | branch kind form found =>
      cases form with
      | short =>
          simp [longTarget?] at isLong
      | long =>
          obtain rfl : found = label := by simpa [longTarget?] using isLong
          exact ⟨id, kind, found, here, atTarget⟩
  | _ =>
      simp [longTarget?] at isLong

/-- Would a branch at a position have its displacement in a range if it were short? -/
def InReach (low high : Int) (instructions : List Instruction)
    (index target : Nat) : Prop :=
  low ≤ displacement (narrowAt instructions index) index target ∧
    displacement (narrowAt instructions index) index target ≤ high

/-- One long branch that fits becomes short. -/
def NarrowStep (low high : Int) (before after : List Instruction) : Prop :=
  ∃ index target,
    LongBranch before index target ∧
      InReach low high before index target ∧
        after = narrowAt before index

/-- No long branch fits. -/
def Settled (low high : Int) (instructions : List Instruction) : Prop :=
  ∀ index target,
    LongBranch instructions index target →
      ¬ InReach low high instructions index target

theorem getElem?_narrowAt
    (instructions : List Instruction) (index position : Nat) :
    (narrowAt instructions index)[position]? =
      if index = position then
        instructions[position]?.map (·.withForm .short)
      else instructions[position]? := by
  rw [narrowAt, List.getElem?_modify]
  split <;> simp

@[simp]
theorem narrowAt_nil (index : Nat) : narrowAt [] index = [] :=
  List.modify_nil _ _

theorem narrows_narrowAt (instructions : List Instruction) (index : Nat) :
    Narrows instructions (narrowAt instructions index) := by
  induction instructions generalizing index with
  | nil =>
      rw [narrowAt_nil]
      exact Narrows.refl []
  | cons instruction rest inductionHypothesis =>
      cases index with
      | zero =>
          exact .cons (.withForm_short instruction) (Narrows.refl rest)
      | succ index =>
          exact .cons (.same instruction) (inductionHypothesis index)

namespace Narrows

variable {before after : List Instruction}

theorem narrowAt_both (narrows : Narrows before after) (index : Nat) :
    Narrows (narrowAt before index) (narrowAt after index) := by
  induction narrows generalizing index with
  | nil =>
      rw [narrowAt_nil]
      exact Narrows.refl []
  | cons first rest inductionHypothesis =>
      cases index with
      | zero =>
          exact .cons first.congr_short rest
      | succ index =>
          exact .cons first (inductionHypothesis index)

/-- A branch that fits still fits in narrower code. -/
theorem fits (narrows : Narrows before after)
    {low high : Int} (atMostZero : low ≤ 0) (atLeastZero : 0 ≤ high)
    {index target : Nat} (fits : InReach low high before index target) :
    InReach low high after index target :=
  (narrows.narrowAt_both index).displacement_between atMostZero atLeastZero
    fits

/-- A branch that is still long has its target where it had it. -/
theorem longBranch_of_long (narrows : Narrows before after)
    {index target : Nat} (branch : LongBranch before index target)
    {id : InstrId} {kind : BranchKind} {label : InstrId}
    (long : after[index]? = some ⟨id, .branch kind .long label⟩) :
    LongBranch after index target := by
  obtain ⟨_, _, _, here, other, there, rfl⟩ := branch
  obtain ⟨_, hereAfter, narrowsHere⟩ := narrows.getElem? here
  obtain ⟨later, thereAfter, narrowsThere⟩ := narrows.getElem? there
  obtain rfl := Option.some.inj (hereAfter.symm.trans long)
  cases narrowsHere
  exact ⟨_, _, _, long, later, thereAfter, narrowsThere.id_eq⟩

/-- Code is narrower than other code as soon as it is at every position. -/
theorem of_getElem?
    (sameLength : before.length = after.length)
    (pointwise : ∀ (index : Nat) (former latter : Instruction),
      before[index]? = some former → after[index]? = some latter →
        former.Narrows latter) :
    Narrows before after := by
  refine List.forall₂_iff_get.mpr ⟨sameLength, ?_⟩
  intro index insideBefore insideAfter
  exact pointwise index _ _
    (List.getElem?_eq_getElem insideBefore)
    (List.getElem?_eq_getElem insideAfter)

/-- Settled code below given code has every branch short that fits there. -/
theorem short_of_fits {settled : List Instruction}
    (narrows : Narrows before settled)
    {low high : Int} (atMostZero : low ≤ 0) (atLeastZero : 0 ≤ high)
    (isSettled : Settled low high settled)
    {index target : Nat} (branch : LongBranch before index target)
    (fits : InReach low high before index target)
    {former latter : Instruction}
    (here : before[index]? = some former)
    (there : settled[index]? = some latter) :
    (former.withForm .short).Narrows latter := by
  obtain ⟨other, found, narrowsHere⟩ := narrows.getElem? here
  obtain rfl := Option.some.inj (found.symm.trans there)
  obtain ⟨id, kind, label, long, -⟩ := id branch
  obtain rfl := Option.some.inj (here.symm.trans long)
  cases narrowsHere with
  | same =>
      have stillLong := narrows.longBranch_of_long branch there
      exact absurd (narrows.fits atMostZero atLeastZero fits)
        (isSettled index target stillLong)
  | narrowed =>
      exact .same _

/-- A step stays above every settled code that it starts above. -/
theorem of_narrowStep {middle settled : List Instruction}
    (narrows : Narrows before settled)
    {low high : Int} (atMostZero : low ≤ 0) (atLeastZero : 0 ≤ high)
    (isSettled : Settled low high settled)
    (step : NarrowStep low high before middle) :
    Narrows middle settled := by
  obtain ⟨index, target, branch, fits, rfl⟩ := step
  have sameLength :=
    (narrows_narrowAt before index).length_eq.symm.trans narrows.length_eq
  refine of_getElem? sameLength ?_
  intro position former latter here there
  rw [getElem?_narrowAt] at here
  split at here
  · subst position
    obtain ⟨original, hereBefore, rfl⟩ := Option.map_eq_some_iff.mp here
    exact narrows.short_of_fits atMostZero atLeastZero isSettled branch fits
      hereBefore there
  · obtain ⟨other, found, narrowsHere⟩ := narrows.getElem? here
    obtain rfl := Option.some.inj (found.symm.trans there)
    exact narrowsHere

end Narrows

/-! ## Counting long branches -/

/-- The number of long branches. -/
def longCount (instructions : List Instruction) : Nat :=
  instructions.countP fun instruction => (longTarget? instruction).isSome

theorem longCount_cons
    (instruction : Instruction) (rest : List Instruction) :
    longCount (instruction :: rest) =
      longCount rest + if (longTarget? instruction).isSome then 1 else 0 :=
  List.countP_cons

/-- Narrower code has fewer long branches, unless it is the same code. -/
theorem Narrows.eq_or_longCount_lt
    {before after : List Instruction} (narrows : Narrows before after) :
    before = after ∨ longCount after < longCount before := by
  induction narrows with
  | nil =>
      exact .inl rfl
  | cons first rest inductionHypothesis =>
      rw [longCount_cons, longCount_cons]
      cases first with
      | same instruction =>
          refine inductionHypothesis.imp ?_ ?_
          · rintro rfl
            rfl
          · intro fewer
            omega
      | narrowed id kind label =>
          refine .inr ?_
          show longCount _ + 0 < longCount _ + 1
          rcases inductionHypothesis with rfl | fewer <;> omega

theorem Narrows.longCount_lt
    {before after : List Instruction} (narrows : Narrows before after)
    (changed : before ≠ after) :
    longCount after < longCount before :=
  narrows.eq_or_longCount_lt.resolve_left changed

theorem LongBranch.longCount_pos
    {instructions : List Instruction} {index target : Nat}
    (branch : LongBranch instructions index target) :
    0 < longCount instructions := by
  obtain ⟨id, kind, label, here, -⟩ := branch
  exact List.countP_pos_iff.mpr ⟨_, List.mem_of_getElem? here, rfl⟩

theorem NarrowStep.narrows {low high : Int} {before after : List Instruction}
    (step : NarrowStep low high before after) : Narrows before after := by
  obtain ⟨index, -, -, -, rfl⟩ := step
  exact narrows_narrowAt before index

theorem NarrowStep.longCount_lt {low high : Int}
    {before after : List Instruction}
    (step : NarrowStep low high before after) :
    longCount after < longCount before := by
  refine step.narrows.longCount_lt ?_
  obtain ⟨index, target, ⟨id, kind, label, here, -⟩, -, rfl⟩ := step
  intro same
  have there : (narrowAt before index)[index]? =
      some ⟨id, .branch kind .short label⟩ := by
    rw [getElem?_narrowAt, if_pos rfl, here]
    rfl
  rw [← same, here] at there
  simp at there

theorem narrows_of_narrowSteps {low high : Int}
    {before after : List Instruction}
    (steps : ReflTransGen (NarrowStep low high) before after) :
    Narrows before after := by
  induction steps with
  | refl =>
      exact .refl before
  | tail _ step inductionHypothesis =>
      exact inductionHypothesis.trans step.narrows

/-- Branches cannot be narrowed one at a time for ever. -/
theorem wellFounded_narrowStep (low high : Int) :
    WellFounded fun after before => NarrowStep low high before after :=
  Subrelation.wf (fun step => step.longCount_lt)
    (measure longCount).wf

/-! ## One round -/

section Round

variable {low high : Int} {instructions : List Instruction}

/-- Narrowing a branch moves what comes after it by the bytes that it saves. -/
theorem offsetAt_narrowAt
    {index : Nat} {id : InstrId} {kind : BranchKind} {label : InstrId}
    (here : instructions[index]? = some ⟨id, .branch kind .long label⟩)
    (position : Nat) :
    offsetAt (narrowAt instructions index) position +
        (if index < position then shortSaving else 0) =
      offsetAt instructions position := by
  induction instructions generalizing index position with
  | nil =>
      simp at here
  | cons instruction rest inductionHypothesis =>
      cases position with
      | zero =>
          rfl
      | succ position =>
          cases index with
          | zero =>
              obtain rfl : instruction = ⟨id, .branch kind .long label⟩ := by
                simpa using here
              show Operation.branchWidth .short + offsetAt rest position +
                shortSaving = Operation.branchWidth .long + offsetAt rest position
              simp only [shortSaving, Operation.branchWidth]
              omega
          | succ index =>
              have tail := inductionHypothesis (by simpa using here) position
              show instruction.width + offsetAt (narrowAt rest index) position +
                _ = instruction.width + offsetAt rest position
              rw [← tail]
              simp only [Nat.add_lt_add_iff_right, Nat.add_assoc]

/-- The offsets before a round tell how far a branch would jump in its short form. -/
theorem shortDisplacement_eq
    {index target : Nat} (branch : LongBranch instructions index target) :
    shortDisplacement (offsets instructions).toArray index target =
      displacement (narrowAt instructions index) index target := by
  obtain ⟨id, kind, label, here, other, there, -⟩ := branch
  have hereInside := (List.getElem?_eq_some_iff.mp here).1
  have thereInside := (List.getElem?_eq_some_iff.mp there).1
  have startOffset := getElem?_offsets instructions hereInside.le
  have targetOffset := getElem?_offsets instructions thereInside.le
  have startAfter := offsetAt_narrowAt here index
  have targetAfter := offsetAt_narrowAt here target
  have finishAfter :
      offsetAt (narrowAt instructions index) (index + 1) =
        offsetAt (narrowAt instructions index) index +
          Operation.branchWidth .short :=
    offsetAt_succ
      (show (narrowAt instructions index)[index]? =
          some ⟨id, .branch kind .short label⟩ by
        rw [getElem?_narrowAt, if_pos rfl, here]
        rfl)
  simp only [shortDisplacement, displacement, Array.getD_eq_getD_getElem?,
    List.getElem?_toArray, startOffset, targetOffset, Option.getD_some]
  rw [finishAfter, ← startAfter, ← targetAfter]
  split <;> simp

/-- A round marks the long branches that fit. -/
theorem fitsShort_eq_true_iff
    (distinct : (identities instructions).Nodup)
    {index : Nat} {instruction : Instruction}
    (here : instructions[index]? = some instruction) :
    fitsShort low high instructions (offsets instructions).toArray
        instruction index = true ↔
      ∃ target, LongBranch instructions index target ∧
        InReach low high instructions index target := by
  constructor
  · intro marked
    rw [fitsShort] at marked
    cases found :
        (longTarget? instruction).bind (lastIndexOf? instructions) with
    | none =>
        simp [found] at marked
    | some target =>
        obtain ⟨label, isLong, atTarget⟩ := Option.bind_eq_some_iff.mp found
        have branch : LongBranch instructions index target :=
          longBranch_of_longTarget? here isLong
            ((lastIndexOf?_eq_some_iff distinct).mp atTarget)
        refine ⟨target, branch, ?_⟩
        simpa [InReach, found, shortDisplacement_eq branch] using marked
  · rintro ⟨target, branch, fits⟩
    have displaced := shortDisplacement_eq branch
    obtain ⟨id, kind, label, there, atTarget⟩ := branch
    obtain rfl := Option.some.inj (here.symm.trans there)
    have found := (lastIndexOf?_eq_some_iff distinct).mpr atTarget
    simpa [InReach, fitsShort, longTarget?, found, displaced] using fits

theorem getElem?_round (index : Nat) :
    (narrowMarked instructions (narrowable low high instructions))[index]? =
      instructions[index]?.map fun instruction =>
        if fitsShort low high instructions (offsets instructions).toArray
            instruction index then
          instruction.withForm .short
        else instruction := by
  simp only [narrowMarked, narrowable, List.getElem?_zipWith,
    List.getElem?_mapIdx]
  cases instructions[index]? <;> rfl

/-- The rounds end where the code is settled. -/
theorem any_narrowable_eq_false_iff
    (distinct : (identities instructions).Nodup) :
    (narrowable low high instructions).any id = false ↔
      Settled low high instructions := by
  simp only [List.any_eq_false, narrowable, List.mem_mapIdx]
  constructor
  · intro unmarked index target branch fits
    obtain ⟨id, kind, label, here, -⟩ := id branch
    obtain ⟨inside, atIndex⟩ := List.getElem?_eq_some_iff.mp here
    refine unmarked _ ⟨index, inside, rfl⟩ ?_
    rw [atIndex]
    exact (fitsShort_eq_true_iff distinct here).mpr ⟨target, branch, fits⟩
  · rintro settled mark ⟨index, inside, rfl⟩ marked
    obtain ⟨target, branch, fits⟩ :=
      (fitsShort_eq_true_iff distinct (List.getElem?_eq_getElem inside)).mp
        marked
    exact settled index target branch fits

theorem narrows_round :
    Narrows instructions
      (narrowMarked instructions (narrowable low high instructions)) := by
  refine .of_getElem? (by simp [narrowMarked, narrowable]) ?_
  intro index former latter here there
  rw [getElem?_round, here] at there
  obtain rfl := Option.some.inj there
  beta_reduce
  split
  · exact .withForm_short former
  · exact .same former

/-- A round stays above every settled code that it starts above. -/
theorem Narrows.of_round
    (distinct : (identities instructions).Nodup)
    (atMostZero : low ≤ 0) (atLeastZero : 0 ≤ high)
    {settled : List Instruction} (narrows : Narrows instructions settled)
    (isSettled : Settled low high settled) :
    Narrows (narrowMarked instructions (narrowable low high instructions))
      settled := by
  refine .of_getElem? (narrows_round.length_eq.symm.trans narrows.length_eq) ?_
  intro index former latter here there
  rw [getElem?_round] at here
  obtain ⟨original, hereBefore, rfl⟩ := Option.map_eq_some_iff.mp here
  split
  next marked =>
    obtain ⟨target, branch, fits⟩ :=
      (fitsShort_eq_true_iff distinct hereBefore).mp marked
    exact narrows.short_of_fits atMostZero atLeastZero isSettled branch fits
      hereBefore there
  next =>
    obtain ⟨other, found, narrowsHere⟩ := narrows.getElem? hereBefore
    obtain rfl := Option.some.inj (found.symm.trans there)
    exact narrowsHere

/-- A round that marks a branch changes the code. -/
theorem round_ne
    (distinct : (identities instructions).Nodup)
    (marked : (narrowable low high instructions).any id = true) :
    instructions ≠
      narrowMarked instructions (narrowable low high instructions) := by
  intro same
  obtain ⟨mark, member, rfl⟩ := List.any_eq_true.mp marked
  obtain ⟨index, inside, isMarked⟩ := List.mem_mapIdx.mp member
  have here := List.getElem?_eq_getElem inside
  obtain ⟨target, ⟨id, kind, label, long, -⟩, -⟩ :=
    (fitsShort_eq_true_iff distinct here).mp isMarked
  have narrowed := @getElem?_round low high instructions index
  rw [← same, here, Option.map_some, if_pos isMarked,
    Option.some.inj (here.symm.trans long)] at narrowed
  simp [Instruction.withForm, Operation.withForm] at narrowed

end Round

/-! ## The narrowest code -/

/-- The settled code that is wider than every other one that given code narrows to. -/
structure IsWidestSettled (low high : Int)
    (instructions narrowed : List Instruction) : Prop where
  narrows : Narrows instructions narrowed
  settled : Settled low high narrowed
  widest : ∀ other, Narrows instructions other → Settled low high other →
    Narrows narrowed other

theorem IsWidestSettled.unique {low high : Int}
    {instructions left right : List Instruction}
    (leftWidest : IsWidestSettled low high instructions left)
    (rightWidest : IsWidestSettled low high instructions right) :
    left = right :=
  (leftWidest.widest right rightWidest.narrows rightWidest.settled).antisymm
    (rightWidest.widest left leftWidest.narrows leftWidest.settled)

section Fixpoint

variable {low high : Int} {instructions : List Instruction}

/-- With a round for each long branch, the rounds reach the widest settled code. -/
theorem isWidestSettled_narrowWithin
    (atMostZero : low ≤ 0) (atLeastZero : 0 ≤ high)
    (distinct : (identities instructions).Nodup)
    {rounds : Nat} (enough : longCount instructions ≤ rounds) :
    IsWidestSettled low high instructions
      (narrowWithin low high rounds instructions) := by
  induction rounds generalizing instructions with
  | zero =>
      exact {
        narrows := .refl instructions
        settled := fun index target branch _ =>
          have some : 0 < longCount instructions := branch.longCount_pos
          absurd some (by omega)
        widest := fun other narrows _ => narrows }
  | succ rounds inductionHypothesis =>
      rw [narrowWithin]
      split
      next marked =>
        have fewer := narrows_round.longCount_lt (round_ne distinct marked)
        have distinctAfter :
            (identities (narrowMarked instructions
              (narrowable low high instructions))).Nodup := by
          rw [narrows_round.identities_eq]
          exact distinct
        have rest := inductionHypothesis distinctAfter (by omega)
        exact {
          narrows := narrows_round.trans rest.narrows
          settled := rest.settled
          widest := fun other narrows settled =>
            rest.widest other
              (narrows.of_round distinct atMostZero atLeastZero settled) settled }
      next unmarked =>
        exact {
          narrows := .refl instructions
          settled := (any_narrowable_eq_false_iff distinct).mp
            (by simpa using unmarked)
          widest := fun other narrows _ => narrows }

/-- Settled code is not narrowed. -/
theorem narrowBranches_of_settled
    (atMostZero : low ≤ 0) (atLeastZero : 0 ≤ high)
    (distinct : (identities instructions).Nodup)
    (settled : Settled low high instructions) :
    narrowBranches low high instructions = instructions :=
  (isWidestSettled_narrowWithin atMostZero atLeastZero distinct
      (Nat.le_refl _)).unique
    ⟨.refl instructions, settled, fun _ narrows _ => narrows⟩

/-- Narrowing one branch at a time, in whatever order, ends at the same code. -/
theorem isWidestSettled_of_narrowSteps
    (atMostZero : low ≤ 0) (atLeastZero : 0 ≤ high)
    {after : List Instruction}
    (steps : ReflTransGen (NarrowStep low high) instructions after)
    (settled : Settled low high after) :
    IsWidestSettled low high instructions after := by
  induction steps using ReflTransGen.head_induction_on with
  | refl =>
      exact {
        narrows := .refl after
        settled
        widest := fun other narrows _ => narrows }
  | head step _ inductionHypothesis =>
      exact {
        narrows := step.narrows.trans inductionHypothesis.narrows
        settled
        widest := fun other narrows isSettled =>
          inductionHypothesis.widest other
            (narrows.of_narrowStep atMostZero atLeastZero isSettled step)
            isSettled }

/-- Branches can be narrowed one at a time until none fits. -/
theorem exists_narrowSteps (low high : Int) (instructions : List Instruction) :
    ∃ after, ReflTransGen (NarrowStep low high) instructions after ∧
      Settled low high after := by
  induction instructions using (wellFounded_narrowStep low high).induction with
  | _ instructions inductionHypothesis =>
      by_cases settled : Settled low high instructions
      · exact ⟨instructions, .refl, settled⟩
      · simp only [Settled, not_forall, not_not] at settled
        obtain ⟨index, target, branch, fits⟩ := settled
        have step : NarrowStep low high instructions
            (narrowAt instructions index) :=
          ⟨index, target, branch, fits, rfl⟩
        obtain ⟨after, steps, isSettled⟩ := inductionHypothesis _ step
        exact ⟨after, .head step steps, isSettled⟩

/-- A branch that some step narrowed still fits at the end. -/
theorem within_of_narrowSteps
    (atMostZero : low ≤ 0) (atLeastZero : 0 ≤ high)
    {after : List Instruction}
    (steps : ReflTransGen (NarrowStep low high) instructions after)
    {index : Nat} {id : InstrId} {kind : BranchKind} {label : InstrId}
    (before : instructions[index]? = some ⟨id, .branch kind .long label⟩)
    (short : after[index]? = some ⟨id, .branch kind .short label⟩) :
    ∃ target other,
      after[target]? = some other ∧ other.id = label ∧
        low ≤ displacement after index target ∧
        displacement after index target ≤ high := by
  induction steps using ReflTransGen.head_induction_on with
  | refl =>
      simp [before] at short
  | head step rest inductionHypothesis =>
      obtain ⟨position, target, branch, fits, rfl⟩ := step
      have further := narrows_of_narrowSteps rest
      by_cases same : position = index
      · subst position
        obtain ⟨_, _, _, here, destination, there, rfl⟩ := branch
        cases Option.some.inj (here.symm.trans before)
        obtain ⟨other, atTarget, narrowsThere⟩ :=
          ((narrows_narrowAt _ index).trans further).getElem? there
        exact ⟨target, other, atTarget, narrowsThere.id_eq,
          further.displacement_between atMostZero atLeastZero fits⟩
      · refine inductionHypothesis ?_
        rw [getElem?_narrowAt, if_neg same, before]

end Fixpoint

end NullWeave
