import NullWeave.Proofs.Code.Offset
import NullWeave.Proofs.Code.OperationBytes

/-!
# The layout of encoded code

Code is encoded instruction by instruction, each behind what was written before
it.  Whatever was written before an instruction is as long as the offset that
was computed for it, so the offsets that are handed out are the ones of the
bytes, and so are those that displacements lead to.
-/

namespace NullWeave

/-! ## The offsets that are handed out -/

/-- The identities of instructions, each with its offset. -/
def placements (instructions : List Instruction) : List (InstrId × Nat) :=
  (identities instructions).zip (offsets instructions)

theorem mem_placements
    {instructions : List Instruction} {id : InstrId} {offset : Nat} :
    (id, offset) ∈ placements instructions ↔
      ∃ index instruction,
        instructions[index]? = some instruction ∧ instruction.id = id ∧
          offset = offsetAt instructions index := by
  rw [placements, List.mem_iff_getElem?]
  simp only [List.getElem?_zip_eq_some, identities, List.getElem?_map,
    Option.map_eq_some_iff]
  refine exists_congr fun index => ?_
  constructor
  · rintro ⟨⟨instruction, here, sameId⟩, there⟩
    have inside := (List.getElem?_eq_some_iff.mp here).1
    rw [getElem?_offsets instructions (Nat.le_of_lt inside)] at there
    exact ⟨instruction, here, sameId, (Option.some.inj there).symm⟩
  · rintro ⟨instruction, here, sameId, rfl⟩
    have inside := (List.getElem?_eq_some_iff.mp here).1
    exact ⟨⟨instruction, here, sameId⟩,
      getElem?_offsets instructions (Nat.le_of_lt inside)⟩

/-- With distinct identities, an offset is found exactly where the identity stands. -/
theorem lastOffset?_placements
    {instructions : List Instruction}
    (distinct : (identities instructions).Nodup)
    {index : Nat} {instruction : Instruction}
    (here : instructions[index]? = some instruction) :
    lastOffset? (placements instructions) instruction.id =
      some (offsetAt instructions index) := by
  have member :
      (instruction.id, offsetAt instructions index) ∈
        (placements instructions).reverse :=
    List.mem_reverse.mpr
      (mem_placements.mpr ⟨index, instruction, here, rfl, rfl⟩)
  rw [lastOffset?]
  cases found : (placements instructions).reverse.find?
      (·.1 == instruction.id) with
  | none =>
      have missing := List.find?_eq_none.mp found _ member
      simp at missing
  | some entry =>
      obtain ⟨id, offset⟩ := entry
      have sameId : id = instruction.id := by
        simpa using List.find?_some found
      subst sameId
      obtain ⟨other, otherInstruction, otherHere, otherId, rfl⟩ :=
        mem_placements.mp
          (List.mem_reverse.mp (List.mem_of_find?_eq_some found))
      obtain rfl := @MethodBody.position_eq_of_id_eq { instructions }
        distinct _ _ _ _ otherHere here otherId
      rfl

namespace MethodBody

variable
    {graph : Graph} {body : MethodBody} {returnsValue : Bool}
    {placed : List (InstrId × Nat)} {pool final : TokenPool}

/-! ## Instruction by instruction -/

/-- What is written for an instruction comes behind what is written before it. -/
theorem run_encodeFrom_split
    {start : Nat} {front back : List Instruction} {instruction : Instruction}
    {code : List UInt8}
    (ran : (encodeFrom graph placed start (front ++ instruction :: back)).run
      pool = (.ok code, final)) :
    ∃ emitted bytes rest before after,
      (encodeFrom graph placed start front).run pool = (.ok emitted, before) ∧
      (instruction.operation.encode graph instruction.id
        (displacementFrom placed
          (start + codeSize front + instruction.width))).run before =
        (.ok bytes, after) ∧
      code = emitted ++ bytes ++ rest ∧
      emitted.length = codeSize front ∧
      bytes.length = instruction.operation.width := by
  induction front generalizing start pool code with
  | nil =>
      obtain ⟨bytes, after, here, later⟩ := run_bind_eq_ok ran
      obtain ⟨rest, last, -, written⟩ := run_bind_eq_ok later
      cases written
      exact ⟨[], bytes, rest, pool, after, rfl, here, rfl, rfl,
        Operation.length_of_encode here⟩
  | cons first front inductionHypothesis =>
      obtain ⟨head, between, here, later⟩ := run_bind_eq_ok ran
      obtain ⟨tail, last, there, written⟩ := run_bind_eq_ok later
      cases written
      obtain ⟨emitted, bytes, rest, before, after, earlier, encoded, rfl,
        emittedLength, bytesLength⟩ := inductionHypothesis there
      refine ⟨head ++ emitted, bytes, rest, before, after, ?_, ?_, ?_, ?_,
        bytesLength⟩
      · rw [encodeFrom, run_bind, here]
        dsimp only
        rw [run_bind, earlier]
        rfl
      · rw [codeSize_cons, ← Nat.add_assoc]
        exact encoded
      · simp only [List.append_assoc]
      · rw [List.length_append, Operation.length_of_encode here, emittedLength]
        rfl

theorem run_encodeFrom_cons_error
    {start : Nat} {first : Instruction} {failure : CodeError}
    (rest : List Instruction)
    (failed : (first.operation.encode graph first.id
      (displacementFrom placed (start + first.width))).run pool =
        (.error failure, final)) :
    (encodeFrom graph placed start (first :: rest)).run pool =
      (.error failure, final) := by
  rw [encodeFrom, run_bind, failed]

/-- A fault ends the encoding at the instruction that has it. -/
theorem fault_of_encodeFrom
    {start : Nat} {instructions : List Instruction} {failure : CodeError}
    (failed : (encodeFrom graph placed start instructions).run pool =
      (.error failure, final)) :
    ∃ front instruction back before,
      instructions = front ++ instruction :: back ∧
      (instruction.operation.encode graph instruction.id
        (displacementFrom placed
          (start + codeSize front + instruction.width))).run before =
        (.error failure, final) := by
  induction instructions generalizing start pool with
  | nil =>
      cases failed
  | cons first rest inductionHypothesis =>
      rcases run_bind_eq_error failed with here | ⟨bytes, between, -, later⟩
      · exact ⟨[], first, rest, pool, rfl, here⟩
      · rcases run_bind_eq_error later with there | ⟨others, last, -, never⟩
        · obtain ⟨front, instruction, back, before, rfl, encoded⟩ :=
            inductionHypothesis there
          refine ⟨first :: front, instruction, back, before, rfl, ?_⟩
          rw [codeSize_cons, ← Nat.add_assoc]
          exact encoded
        · cases never

theorem run_encode :
    (body.encode graph returnsValue).run pool =
      match body.checkDepths graph returnsValue with
      | .error failure => (.error failure, pool)
      | .ok maxStack =>
          if 65535 < maxStack then
            (.error (.maxStackOverflow maxStack), pool)
          else
            match (encodeFrom graph (placements body.instructions) 0
              body.instructions).run pool with
            | (.error failure, after) => (.error failure, after)
            | (.ok code, after) =>
                (.ok ⟨code, maxStack, body.initLocals,
                  placements body.instructions⟩, after) := by
  rw [encode, run_lift_bind]
  cases body.checkDepths graph returnsValue with
  | error failure =>
      rfl
  | ok maxStack =>
      dsimp only
      split
      · rfl
      · show (encodeFrom graph (placements body.instructions) 0
          body.instructions >>= _ : Encoder EncodedBody).run pool = _
        rw [run_bind]
        rcases (encodeFrom graph (placements body.instructions) 0
          body.instructions).run pool with ⟨_ | _, _⟩ <;> rfl

/-- A body that is encoded passed the check, and its code was written whole. -/
theorem of_run_encode
    {encoded : EncodedBody}
    (ran : (body.encode graph returnsValue).run pool = (.ok encoded, final)) :
    (encodeFrom graph (placements body.instructions) 0
        body.instructions).run pool = (.ok encoded.code, final) ∧
      encoded.instructionOffsets = placements body.instructions := by
  rw [run_encode] at ran
  cases checked : body.checkDepths graph returnsValue with
  | error failure =>
      rw [checked] at ran
      cases ran
  | ok maxStack =>
      rw [checked] at ran
      dsimp only at ran
      split at ran
      · cases ran
      · rcases written : (encodeFrom graph (placements body.instructions) 0
          body.instructions).run pool with ⟨failure | code, after⟩
        · rw [written] at ran
          cases ran
        · rw [written] at ran
          cases ran
          exact ⟨rfl, rfl⟩

end MethodBody

/-! ## The layout -/

/--
Is a body encoded in the layout that its offsets say?

`emitted` is about the moment at which an instruction is encoded: what was
written until then, with the tokens given out by it, is as long as the code
before the instruction, and the instruction adds as many bytes as its width.
-/
structure EncodedBody.LaysOut
    (graph : Graph) (body : MethodBody) (pool : TokenPool)
    (encoded : EncodedBody) : Prop where
  emitted : ∀ front instruction back,
    body.instructions = front ++ instruction :: back →
    ∃ emitted bytes rest before after,
      (MethodBody.encodeFrom graph encoded.instructionOffsets 0 front).run
        pool = (.ok emitted, before) ∧
      (instruction.operation.encode graph instruction.id
        (MethodBody.displacementFrom encoded.instructionOffsets
          (codeSize (front ++ [instruction])))).run before =
        (.ok bytes, after) ∧
      encoded.code = emitted ++ bytes ++ rest ∧
      emitted.length = codeSize front ∧
      bytes.length = instruction.operation.width
  offset : ∀ front instruction back,
    body.instructions = front ++ instruction :: back →
    encoded.offset? instruction.id = some (codeSize front)
  /-- The displacement of a branch leads from behind it to its target. -/
  branch : ∀ front id kind form target back,
    body.instructions = front ++ ⟨id, .branch kind form target⟩ :: back →
    ∃ offset,
      encoded.offset? target = some offset ∧
      (codeSize (front ++ [⟨id, .branch kind form target⟩]) : Int) +
        signedOf ((encoded.code.drop (codeSize front + 1)).take
          (Operation.displacementWidth form)) = offset
  /-- So does each displacement of a `switch`. -/
  switch : ∀ front id targets back,
    body.instructions = front ++ ⟨id, .switch targets⟩ :: back →
    ∀ arm target, targets[arm]? = some target →
    ∃ offset,
      encoded.offset? target = some offset ∧
      (codeSize (front ++ [⟨id, .switch targets⟩]) : Int) +
        signedOf ((encoded.code.drop (codeSize front + 5 + 4 * arm)).take 4) =
          offset

theorem displacementFrom_eq_ok
    {placed : List (InstrId × Nat)} {finish : Nat} {target : InstrId}
    {distance : Int}
    (known : MethodBody.displacementFrom placed finish target = .ok distance) :
    ∃ offset, lastOffset? placed target = some offset ∧
      (finish : Int) + distance = offset := by
  rw [MethodBody.displacementFrom] at known
  cases found : lastOffset? placed target with
  | none =>
      rw [found] at known
      cases known
  | some offset =>
      rw [found] at known
      cases known
      exact ⟨offset, rfl, by omega⟩

/-- What is read inside one part of the code is read from that part. -/
theorem take_drop_middle
    {emitted bytes rest : List UInt8} {skip count : Nat}
    (inside : skip + count ≤ bytes.length) :
    ((emitted ++ bytes ++ rest).drop (emitted.length + skip)).take count =
      (bytes.drop skip).take count := by
  rw [List.append_assoc, ← List.drop_drop, List.drop_left,
    List.drop_append_of_le_length (by omega),
    List.take_append_of_le_length (by rw [List.length_drop]; omega)]

theorem MethodBody.laysOut_of_run_encode
    {graph : Graph} {body : MethodBody} {returnsValue : Bool}
    {pool final : TokenPool} {encoded : EncodedBody}
    (distinct : (identities body.instructions).Nodup)
    (ran : (body.encode graph returnsValue).run pool = (.ok encoded, final)) :
    encoded.LaysOut graph body pool := by
  obtain ⟨written, placed⟩ := of_run_encode ran
  rw [← placed] at written
  have emitted : ∀ front instruction back,
      body.instructions = front ++ instruction :: back →
      ∃ emitted bytes rest before after,
        (encodeFrom graph encoded.instructionOffsets 0 front).run pool =
          (.ok emitted, before) ∧
        (instruction.operation.encode graph instruction.id
          (displacementFrom encoded.instructionOffsets
            (codeSize (front ++ [instruction])))).run before =
          (.ok bytes, after) ∧
        encoded.code = emitted ++ bytes ++ rest ∧
        emitted.length = codeSize front ∧
        bytes.length = instruction.operation.width := by
    intro front instruction back split
    rw [split] at written
    have parts := run_encodeFrom_split written
    rwa [Nat.zero_add, show codeSize front + instruction.width =
      codeSize (front ++ [instruction]) by simp] at parts
  constructor
  case emitted =>
    exact emitted
  case offset =>
    intro front instruction back split
    have here : body.instructions[front.length]? = some instruction := by
      simp [split]
    rw [EncodedBody.offset?, placed, lastOffset?_placements distinct here,
      offsetAt, split, List.take_left]
  case branch =>
    intro front id kind form target back split
    obtain ⟨written, bytes, rest, before, after, -, ran, parts,
      writtenLength, bytesLength⟩ := emitted _ _ _ split
    obtain ⟨offset, found, reaches⟩ :=
      displacementFrom_eq_ok (Operation.signedOf_encode_branch ran)
    refine ⟨offset, found, ?_⟩
    rw [parts, ← writtenLength, take_drop_middle]
    · exact reaches
    · exact Nat.le_of_eq (bytesLength.trans (Operation.branchWidth_eq form)).symm
  case switch =>
    intro front id targets back split arm target here
    obtain ⟨written, bytes, rest, before, after, -, ran, parts,
      writtenLength, bytesLength⟩ := emitted _ _ _ split
    obtain ⟨offset, found, reaches⟩ :=
      displacementFrom_eq_ok (Operation.signedOf_encode_switch ran here)
    have inside := (List.getElem?_eq_some_iff.mp here).1
    refine ⟨offset, found, ?_⟩
    rw [parts, ← writtenLength, Nat.add_assoc, take_drop_middle]
    · exact reaches
    · rw [bytesLength, Operation.width]
      omega

end NullWeave
