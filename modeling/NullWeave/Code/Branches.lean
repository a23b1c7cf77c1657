import NullWeave.Code.Body

/-!
# Widening and narrowing branches

While code is put into a body every branch has the long form, so that no
displacement can become too large.  Afterwards branches are narrowed in rounds:
a round gives the short form to every long branch that would then fit, judged
by the offsets before the round.  Narrowing a branch takes three bytes out and
never moves two instructions apart, so a branch that fits keeps fitting, and
the rounds end because each but the last narrows a branch.
-/

namespace NullWeave

/-! ## Offsets -/

/-- The offset of each instruction counted from a start, and the end of the last one. -/
def offsetsFrom (start : Nat) : List Instruction → List Nat
  | [] => [start]
  | instruction :: rest => start :: offsetsFrom (start + instruction.width) rest

/-- The offset of each instruction and, last, the size of all of them. -/
def offsets (instructions : List Instruction) : List Nat := offsetsFrom 0 instructions

/-- The number of bytes that instructions take. -/
def codeSize : List Instruction → Nat
  | [] => 0
  | instruction :: rest => instruction.width + codeSize rest

@[simp]
theorem length_offsetsFrom (start : Nat) (instructions : List Instruction) :
    (offsetsFrom start instructions).length = instructions.length + 1 := by
  induction instructions generalizing start with
  | nil => rfl
  | cons instruction rest ih => simp [offsetsFrom, ih]

/-! ## Forms -/

/-- Give every branch the long form. -/
def widenBranches (instructions : List Instruction) : List Instruction :=
  instructions.map (·.withForm .long)

/-- The target of a branch in its long form. -/
def longTarget? (instruction : Instruction) : Option InstrId :=
  match instruction.operation with
  | .branch _ .long target => some target
  | _ => none

/-- The bytes that a branch saves by the short form. -/
def shortSaving : Nat :=
  Operation.branchWidth .long - Operation.branchWidth .short

/--
The displacement that a long branch at a position would have in the short form.

It is counted from the end of the narrowed branch, and a target that comes
later has moved closer by what the branch saves.
-/
def shortDisplacement (offsetTable : Array Nat) (index target : Nat) : Int :=
  let targetOffset : Int := offsetTable.getD target 0
  let saved : Int := if index < target then shortSaving else 0
  targetOffset - saved - (offsetTable.getD index 0 + Operation.branchWidth .short : Nat)

/-- Is the instruction at a position a long branch whose displacement lies in a range? -/
def fitsShort (low high : Int) (instructions : List Instruction) (offsetTable : Array Nat)
    (instruction : Instruction) (index : Nat) : Bool :=
  match (longTarget? instruction).bind (lastIndexOf? instructions) with
  | none => false
  | some target =>
      let displacement := shortDisplacement offsetTable index target
      decide (low ≤ displacement) && decide (displacement ≤ high)

/-- For each instruction, whether a round narrows it. -/
def narrowable (low high : Int) (instructions : List Instruction) : List Bool :=
  let offsetTable := (offsets instructions).toArray
  instructions.mapIdx fun index instruction =>
    fitsShort low high instructions offsetTable instruction index

/-- Give the short form to the marked instructions. -/
def narrowMarked (instructions : List Instruction) (marks : List Bool) : List Instruction :=
  List.zipWith (fun instruction mark =>
    if mark then instruction.withForm .short else instruction) instructions marks

/-- Narrow branches for at most a number of rounds. -/
def narrowWithin (low high : Int) : Nat → List Instruction → List Instruction
  | 0, instructions => instructions
  | rounds + 1, instructions =>
      let marks := narrowable low high instructions
      if marks.any id then
        narrowWithin low high rounds (narrowMarked instructions marks)
      else
        instructions

/--
Narrow branches until no other long branch has its displacement in the range.

Branches to instructions that are not in the list keep their form.
-/
def narrowBranches (low high : Int) (instructions : List Instruction) : List Instruction :=
  narrowWithin low high (instructions.countP fun instruction =>
    (longTarget? instruction).isSome) instructions

namespace MethodBody

/-- Give every branch the long form, so that code can be put in anywhere. -/
def widen (body : MethodBody) : MethodBody :=
  { body with instructions := widenBranches body.instructions }

/-- Give the short form to every branch whose displacement fits in a signed byte. -/
def narrow (body : MethodBody) : MethodBody :=
  { body with instructions := narrowBranches (-128) 127 body.instructions }

/-- Does every branch have the long form? -/
def isWidened (body : MethodBody) : Bool :=
  body.instructions.all fun instruction => !instruction.operation.isShortBranch

end MethodBody

end NullWeave
