import Mathlib.Data.List.Chain
import NullWeave.Proofs.Code.Depth

/-!
# Code with depths

Code can be written down with a depth before each instruction, or with none
where control does not come.  If every instruction hands its depth on to where
control goes from it, then no instruction is reached with another depth than
the one that is written before it.
-/

namespace NullWeave

/-- Code with the depth before each instruction, if there is one. -/
abbrev DepthCode := List (Instruction × Option Nat)

namespace DepthCode

/-- Is a depth written before an instruction? -/
def Has (code : DepthCode) (id : InstrId) (depth : Nat) : Prop :=
  ∃ point ∈ code, point.1.id = id ∧ point.2 = some depth

/-- Is the depth before an instruction the one behind the instruction before it? -/
def Follows
    (graph : Graph) (before behind : Instruction × Option Nat) : Prop :=
  ∀ depth, before.2 = some depth →
    before.1.operation.neverFallsThrough = false →
    behind.2 = some (before.1.operation.depthAfter graph depth)

/-- Does an instruction find what it needs, and do its targets have the depth that it leaves? -/
structure Fits
    (graph : Graph) (code : DepthCode) (returnsValue : Bool)
    (instruction : Instruction) (depth : Nat) : Prop where
  returns : instruction.operation.isRet = true →
    depth = returnsValue.toNat
  pops : instruction.operation.isRet = false →
    (instruction.operation.stackEffect graph).pops ≤ depth
  targets : ∀ target ∈ instruction.operation.targets,
    code.Has target
      (instruction.operation.depthAtTarget
        (instruction.operation.depthAfter graph depth))

/-- Are the depths written before the instructions of a body right? -/
structure Annotates
    (graph : Graph) (body : MethodBody) (returnsValue : Bool)
    (code : DepthCode) : Prop where
  instructions : code.map (·.1) = body.instructions
  entry : ∀ first ∈ code.head?, first.2 = some 0
  handlers : ∀ handler ∈ body.handlers,
    code.Has handler.handlerStart handler.kind.entryDepth
  chain : code.IsChain (Follows graph)
  ends : ∀ last ∈ code.getLast?, ∀ depth, last.2 = some depth →
    last.1.operation.neverFallsThrough = true
  fits : ∀ point ∈ code, ∀ depth, point.2 = some depth →
    Fits graph code returnsValue point.1 depth

namespace Annotates

variable
    {graph : Graph} {body : MethodBody} {returnsValue : Bool}
    {code : DepthCode}

/-- With distinct identities, one depth is written before an instruction. -/
theorem depth_eq
    (annotates : Annotates graph body returnsValue code)
    (distinct : (identities body.instructions).Nodup)
    {point : Instruction × Option Nat} (member : point ∈ code)
    {depth : Nat} (has : code.Has point.1.id depth) :
    point.2 = some depth := by
  obtain ⟨other, there, same, written⟩ := has
  rw [← annotates.instructions, identities, List.map_map] at distinct
  cases List.inj_on_of_nodup_map distinct there member same
  exact written

theorem mem_instructions
    (annotates : Annotates graph body returnsValue code)
    {id : InstrId} {depth : Nat} (has : code.Has id depth) :
    id ∈ identities body.instructions := by
  obtain ⟨point, member, rfl, -⟩ := has
  rw [← annotates.instructions]
  exact id_mem_identities (List.mem_map_of_mem member)

theorem exists_point
    (annotates : Annotates graph body returnsValue code)
    {instruction : Instruction}
    (member : instruction ∈ body.instructions) :
    ∃ point ∈ code, point.1 = instruction := by
  rw [← annotates.instructions] at member
  exact List.mem_map.mp member

/-- An instruction is reached with no other depth than the one before it. -/
theorem has_of_reached
    (annotates : Annotates graph body returnsValue code)
    (distinct : (identities body.instructions).Nodup)
    {id : InstrId} {depth : Nat} (reached : body.Reached graph id depth) :
    code.Has id depth := by
  induction reached with
  | entry whole =>
      rw [← annotates.instructions] at whole
      obtain ⟨point, rest, parts, same, -⟩ := List.map_eq_cons_iff.mp whole
      refine ⟨point, by simp [parts], by rw [same], ?_⟩
      exact annotates.entry point (by simp [parts])
  | handler member =>
      exact annotates.handlers _ member
  | jump member before targeted inductionHypothesis =>
      obtain ⟨point, here, rfl⟩ := annotates.exists_point member
      have written := annotates.depth_eq distinct here inductionHypothesis
      exact (annotates.fits point here _ written).targets _ targeted
  | next split before goesOn inductionHypothesis =>
      rw [← annotates.instructions] at split
      obtain ⟨front, rest, parts, -, behind⟩ :=
        List.map_eq_append_iff.mp split
      obtain ⟨point, tail, tailParts, rfl, others⟩ :=
        List.map_eq_cons_iff.mp behind
      obtain ⟨following, back, backParts, rfl, -⟩ :=
        List.map_eq_cons_iff.mp others
      subst tailParts backParts
      have written :=
        annotates.depth_eq distinct (by simp [parts]) inductionHypothesis
      have follows :=
        List.isChain_iff_forall_rel_of_append_cons_cons.mp
          annotates.chain parts
      exact ⟨following, by simp [parts], rfl,
        follows _ written goesOn⟩

theorem disciplined
    (annotates : Annotates graph body returnsValue code)
    (distinct : (identities body.instructions).Nodup) :
    body.Disciplined graph returnsValue := by
  refine ⟨fun handler member =>
    annotates.mem_instructions (annotates.handlers handler member), ?_, ?_⟩
  · intro id left right reachedLeft reachedRight
    obtain ⟨point, member, rfl, written⟩ :=
      annotates.has_of_reached distinct reachedLeft
    have other :=
      annotates.depth_eq distinct member
        (annotates.has_of_reached distinct reachedRight)
    exact Option.some.inj (written.symm.trans other)
  · intro instruction member depth reached
    obtain ⟨point, here, rfl⟩ := annotates.exists_point member
    have written :=
      annotates.depth_eq distinct here
        (annotates.has_of_reached distinct reached)
    have fits := annotates.fits point here depth written
    refine ⟨fits.returns, fits.pops, fun target targeted =>
      annotates.mem_instructions (fits.targets target targeted), ?_⟩
    intro goesOn front last
    rw [← annotates.instructions] at last
    obtain ⟨others, rest, parts, -, restSame⟩ :=
      List.map_eq_append_iff.mp last
    obtain ⟨final, none, restParts, same, noneSame⟩ :=
      List.map_eq_cons_iff.mp restSame
    cases List.map_eq_nil_iff.mp noneSame
    have finalHere : final ∈ code := by simp [parts, restParts]
    have reachedFinal : body.Reached graph final.1.id depth := by
      rw [same]
      exact reached
    have ends :=
      annotates.ends final (by simp [parts, restParts]) depth
        (annotates.depth_eq distinct finalHere
          (annotates.has_of_reached distinct reachedFinal))
    rw [same, goesOn] at ends
    cases ends

end Annotates

/-! ## The depths that instructions are reached with -/

/-- Instructions with the depths that are known before them. -/
def of (depths : InstrId → Option Nat)
    (instructions : List Instruction) : DepthCode :=
  instructions.map fun instruction => (instruction, depths instruction.id)

theorem has_of_iff
    {depths : InstrId → Option Nat} {instructions : List Instruction}
    {id : InstrId} {depth : Nat} :
    (of depths instructions).Has id depth ↔
      id ∈ identities instructions ∧ depths id = some depth := by
  simp only [Has, of, List.mem_map, mem_identities]
  constructor
  · rintro ⟨-, ⟨instruction, member, rfl⟩, rfl, written⟩
    exact ⟨⟨instruction, member, rfl⟩, written⟩
  · rintro ⟨⟨instruction, member, rfl⟩, written⟩
    exact ⟨_, ⟨instruction, member, rfl⟩, rfl, written⟩

end DepthCode

namespace MethodBody.Disciplined

open DepthCode

variable
    {graph : Graph} {body : MethodBody} {returnsValue : Bool}
    {depths : InstrId → Option Nat}

/-- A disciplined body can be written down with the depths it is reached with. -/
theorem annotates
    (disciplined : body.Disciplined graph returnsValue)
    (known : ∀ id depth,
      depths id = some depth ↔ body.Reached graph id depth) :
    Annotates graph body returnsValue (of depths body.instructions) where
  instructions := by
    simp [of, Function.comp_def]
  entry := by
    intro first head
    cases whole : body.instructions with
    | nil =>
        simp [whole, of] at head
    | cons start rest =>
        have same : (start, depths start.id) = first := by
          simpa [whole, of] using head
        rw [← same]
        exact (known _ _).mpr (.entry whole)
  handlers handler member :=
    has_of_iff.mpr ⟨disciplined.handlers handler member,
      (known _ _).mpr (.handler member)⟩
  chain := by
    refine List.isChain_iff_forall_rel_of_append_cons_cons.mpr ?_
    intro before behind front back split depth written goesOn
    obtain ⟨earlier, rest, parts, -, tail⟩ :=
      List.map_eq_append_iff.mp split
    obtain ⟨instruction, others, restParts, rfl, last⟩ :=
      List.map_eq_cons_iff.mp tail
    obtain ⟨following, later, otherParts, rfl, -⟩ :=
      List.map_eq_cons_iff.mp last
    subst restParts otherParts
    exact (known _ _).mpr
      (.next parts ((known _ _).mp written) goesOn)
  ends := by
    intro point last depth written
    simp only [of, List.getLast?_map, Option.mem_def,
      Option.map_eq_some_iff] at last
    obtain ⟨instruction, final, rfl⟩ := last
    have admits :=
      disciplined.admits instruction (List.mem_of_getLast? final) depth
        ((known _ _).mp written)
    obtain ⟨front, split⟩ := List.getLast?_eq_some_iff.mp final
    by_contra goesOn
    exact admits.inside (by simpa using goesOn) front split
  fits := by
    intro point member depth written
    obtain ⟨instruction, here, rfl⟩ := List.mem_map.mp member
    have reached := (known _ _).mp written
    have admits := disciplined.admits instruction here depth reached
    exact ⟨admits.returns, admits.pops, fun target targeted =>
      has_of_iff.mpr ⟨admits.targets target targeted,
        (known _ _).mpr (.jump here reached targeted)⟩⟩

theorem exists_depths
    (disciplined : body.Disciplined graph returnsValue) :
    ∃ depths : InstrId → Option Nat,
      ∀ id depth, depths id = some depth ↔ body.Reached graph id depth := by
  have known : ∀ id, ∃ known : Option Nat, ∀ depth,
      known = some depth ↔ body.Reached graph id depth := by
    intro id
    by_cases somehow : ∃ depth, body.Reached graph id depth
    · obtain ⟨depth, reached⟩ := somehow
      refine ⟨some depth, fun other => ⟨?_, fun otherReached => ?_⟩⟩
      · rintro ⟨⟩
        exact reached
      · rw [disciplined.consistent id _ _ reached otherReached]
    · exact ⟨none, fun depth =>
        ⟨nofun, fun reached => absurd ⟨depth, reached⟩ somehow⟩⟩
  exact Classical.skolem.mp known

end MethodBody.Disciplined

end NullWeave
