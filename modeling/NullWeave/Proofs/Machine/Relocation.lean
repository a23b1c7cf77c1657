import Mathlib.Data.List.Find
import NullWeave.Proofs.Code.Region
import NullWeave.Proofs.Machine.Checked
import NullWeave.Proofs.Weave.WovenBody

/-!
# Positions in a guarded body

An instruction of the original body is entered, in the guarded one, where the
row before it starts.  This moves positions up and keeps their order, so a
region of the original body holds a position exactly if the moved region holds
what the position became: the instruction and all the guards before it.
-/

namespace NullWeave

/-- A row is entered where it starts. -/
theorem GuardRow.indexOf?_entrance
    {debugBuild : Bool} {body : MethodBody}
    (distinct : (identities body.instructions).Nodup)
    {front back : List Instruction} {row : GuardRow}
    {behind : Instruction}
    (split : body.instructions =
      front ++ (row.code debugBuild behind.id ++ behind :: back)) :
    body.indexOf? (row.entrance behind.id) = some front.length := by
  have head := GuardRow.head?_code_append debugBuild row behind back
  rw [List.head?_eq_getElem?, Option.map_eq_some_iff] at head
  obtain ⟨start, there, named⟩ := head
  refine (MethodBody.indexOf?_eq_some_iff distinct).mpr
    ⟨start, ?_, named⟩
  rw [split, List.getElem?_append_right (Nat.le_refl _), Nat.sub_self]
  exact there

theorem MethodBody.protects_eq_within
    (body : MethodBody) (handler : ExceptionHandler) (position : Nat) :
    body.protects handler position =
      body.within handler.tryStart (some handler.tryEnd) position := by
  simp only [protects, within, Option.all_some]
  cases body.indexOf? handler.tryStart <;>
    cases body.indexOf? handler.tryEnd <;> simp

namespace GuardLayout

/-- The position at which the row before an instruction starts. -/
def shift
    (layout : GuardLayout) (debugBuild : Bool)
    (instructions : List Instruction) (position : Nat) : Nat :=
  layout.offset debugBuild instructions (instructions.take position)

variable
    {layout : GuardLayout} {debugBuild : Bool}
    {instructions : List Instruction}

theorem shift_succ
    {position : Nat} {instruction : Instruction}
    (here : instructions[position]? = some instruction) :
    layout.shift debugBuild instructions (position + 1) =
      layout.shift debugBuild instructions position +
        (layout.before instruction.id).size debugBuild + 1 := by
  have taken :
      instructions.take (position + 1) =
        instructions.take position ++ [instruction] := by
    rw [List.take_add_one, here]
    rfl
  rw [shift, shift, taken, offset, offset, blocks_append]
  simp [block]
  omega

theorem shift_mono
    {left right : Nat} (le : left ≤ right) :
    layout.shift debugBuild instructions left ≤
      layout.shift debugBuild instructions right := by
  obtain ⟨more, rfl⟩ := Nat.exists_eq_add_of_le le
  rw [shift, shift, List.take_add, offset, offset, blocks_append]
  simp

/-- Moving keeps an order where it matters for regions. -/
theorem le_shift_iff
    {bound position there : Nat}
    (behind : layout.shift debugBuild instructions position ≤ there)
    (before :
      there < layout.shift debugBuild instructions (position + 1)) :
    layout.shift debugBuild instructions bound ≤ there ↔
      bound ≤ position := by
  constructor
  · intro le
    by_contra beyond
    have later :
        layout.shift debugBuild instructions (position + 1) ≤
          layout.shift debugBuild instructions bound :=
      shift_mono (by omega)
    omega
  · intro le
    exact (shift_mono le).trans behind

namespace Describes

variable {original guarded : MethodBody}

/-- What stands at and behind the position that an instruction was moved to. -/
theorem stands_at_shift
    (described : layout.Describes debugBuild original guarded)
    {position : Nat} {instruction : Instruction}
    (here : original.instructions[position]? = some instruction) :
    ∃ front back,
      guarded.instructions =
          front ++
            ((layout.before instruction.id).code debugBuild
                (instruction.mapTargets layout.entrance).id ++
              instruction.mapTargets layout.entrance :: back) ∧
        front.length =
          layout.shift debugBuild original.instructions position := by
  obtain ⟨inside, rfl⟩ := List.getElem?_eq_some_iff.mp here
  have split :
      original.instructions =
        original.instructions.take position ++
          original.instructions[position] ::
            original.instructions.drop (position + 1) := by
    rw [← List.drop_eq_getElem_cons inside, List.take_append_drop]
  obtain ⟨front, stands, length⟩ := described.block_stands split
  exact ⟨front, _, stands, length⟩

/-- A row is entered at the position that its instruction was moved to. -/
theorem indexOf?_entrance
    (described : layout.Describes debugBuild original guarded)
    (wellFormed : original.WellFormed)
    {id : InstrId} {position : Nat}
    (found : original.indexOf? id = some position) :
    guarded.indexOf? (layout.entrance id) =
      some (layout.shift debugBuild original.instructions position) := by
  obtain ⟨instruction, here, rfl⟩ :=
    (MethodBody.indexOf?_eq_some_iff wellFormed.distinct).mp found
  obtain ⟨front, back, stands, length⟩ :=
    described.stands_at_shift here
  have entered := GuardRow.indexOf?_entrance described.distinct stands
  rw [length] at entered
  exact entered

/-- Everything at a position, its guards too, lies in a stretch as the position did. -/
theorem within_shift
    (described : layout.Describes debugBuild original guarded)
    (wellFormed : original.WellFormed)
    {start : InstrId} (startIn : start ∈ identities original.instructions)
    {stop : Option InstrId}
    (stopIn : ∀ id ∈ stop, id ∈ identities original.instructions)
    {position there : Nat}
    (behind :
      layout.shift debugBuild original.instructions position ≤ there)
    (before :
      there <
        layout.shift debugBuild original.instructions (position + 1)) :
    guarded.within (layout.entrance start) (stop.map layout.entrance)
        there =
      original.within start stop position := by
  have moved : ∀ bound,
      layout.shift debugBuild original.instructions bound ≤ there ↔
        bound ≤ position :=
    fun bound => le_shift_iff behind before
  obtain ⟨first, found⟩ := MethodBody.exists_indexOf?_of_mem startIn
  have startsThere := described.indexOf?_entrance wellFormed found
  cases stop with
  | none =>
      simp [MethodBody.within, found, startsThere, moved]
  | some id =>
      obtain ⟨last, lastFound⟩ :=
        MethodBody.exists_indexOf?_of_mem (stopIn id rfl)
      have stopsThere :=
        described.indexOf?_entrance wellFormed lastFound
      have beyond :
          there < layout.shift debugBuild original.instructions last ↔
            position < last := by
        rw [← not_iff_not, Nat.not_lt, Nat.not_lt, moved]
      simp [MethodBody.within, found, startsThere, lastFound, stopsThere,
        moved, beyond]

/-- The guards in front of a body lie in no stretch of it. -/
theorem not_within_front
    (described : layout.Describes debugBuild original guarded)
    (wellFormed : original.WellFormed)
    {start : InstrId} (startIn : start ∈ identities original.instructions)
    (stop : Option InstrId) {there : Nat}
    (before : there < layout.shift debugBuild original.instructions 0) :
    guarded.within (layout.entrance start) stop there = false := by
  obtain ⟨first, found⟩ := MethodBody.exists_indexOf?_of_mem startIn
  have beyond :
      layout.shift debugBuild original.instructions 0 ≤
        layout.shift debugBuild original.instructions first :=
    shift_mono (Nat.zero_le _)
  have outside :
      ¬ layout.shift debugBuild original.instructions first ≤ there := by
    omega
  simp [MethodBody.within,
    described.indexOf?_entrance wellFormed found, outside]

/-- Everything at a position, its guards too, is protected as the position was. -/
theorem protects_shift
    (described : layout.Describes debugBuild original guarded)
    (wellFormed : original.WellFormed)
    {handler : ExceptionHandler} (member : handler ∈ original.handlers)
    {position there : Nat}
    (behind :
      layout.shift debugBuild original.instructions position ≤ there)
    (before :
      there <
        layout.shift debugBuild original.instructions (position + 1)) :
    guarded.protects (handler.mapBoundaries layout.entrance) there =
      original.protects handler position := by
  rw [MethodBody.protects_eq_within, MethodBody.protects_eq_within]
  have stopIn : ∀ id ∈ some handler.tryEnd,
      id ∈ identities original.instructions := by
    rintro id ⟨⟩
    exact wellFormed.boundary_mem member
      (List.mem_cons_of_mem _ (List.mem_cons_self ..))
  exact described.within_shift wellFormed
    (wellFormed.boundary_mem member (List.mem_cons_self ..)) stopIn
    behind before

/-- The guards in front of a body are not protected. -/
theorem not_protects_front
    (described : layout.Describes debugBuild original guarded)
    (wellFormed : original.WellFormed)
    {handler : ExceptionHandler} (member : handler ∈ guarded.handlers)
    {there : Nat}
    (before : there < layout.shift debugBuild original.instructions 0) :
    guarded.protects handler there = false := by
  rw [described.handlers] at member
  obtain ⟨old, oldMember, rfl⟩ := List.mem_map.mp member
  rw [MethodBody.protects_eq_within]
  exact described.not_within_front wellFormed
    (wellFormed.boundary_mem oldMember (List.mem_cons_self ..)) _ before

/-- Everything at a position, its guards too, lies in a region as the position did. -/
theorem inRegion_shift
    (described : layout.Describes debugBuild original guarded)
    (wellFormed : original.WellFormed)
    {position there : Nat}
    (behind :
      layout.shift debugBuild original.instructions position ≤ there)
    (before :
      there <
        layout.shift debugBuild original.instructions (position + 1)) :
    guarded.inRegion there = original.inRegion position := by
  rw [MethodBody.inRegion, MethodBody.inRegion, described.handlers,
    List.any_map, Bool.eq_iff_iff, List.any_eq_true, List.any_eq_true]
  refine exists_congr fun handler => and_congr_right fun member => ?_
  have boundary : ∀ id ∈ handler.boundaries,
      id ∈ identities original.instructions :=
    fun id => wellFormed.boundary_mem member
  have tried :=
    described.protects_shift wellFormed member behind before
  rw [MethodBody.protects_eq_within, MethodBody.protects_eq_within]
    at tried
  have stopIn : ∀ id ∈ handler.handlerEnd,
      id ∈ identities original.instructions := by
    intro id stop
    refine boundary id ?_
    rw [ExceptionHandler.boundaries]
    exact List.mem_append_right _ (Option.mem_toList.mpr stop)
  have handled :=
    described.within_shift wellFormed
      (boundary handler.handlerStart
        (by simp [ExceptionHandler.boundaries]))
      stopIn behind before
  exact Bool.eq_iff_iff.mp (congrArg₂ or tried handled)

/-- The guards in front of a body lie in no region. -/
theorem not_inRegion_front
    (described : layout.Describes debugBuild original guarded)
    (wellFormed : original.WellFormed)
    {there : Nat}
    (before : there < layout.shift debugBuild original.instructions 0) :
    guarded.inRegion there = false := by
  rw [MethodBody.inRegion, described.handlers, List.any_map,
    List.any_eq_false]
  intro handler member
  have boundary : ∀ id ∈ handler.boundaries,
      id ∈ identities original.instructions :=
    fun id => wellFormed.boundary_mem member
  simp only [Function.comp_apply, ExceptionHandler.mapBoundaries,
    described.not_within_front wellFormed
      (boundary handler.tryStart (List.mem_cons_self ..)) _ before,
    described.not_within_front wellFormed
      (boundary handler.handlerStart
        (by simp [ExceptionHandler.boundaries])) _ before]
  simp

end Describes

end GuardLayout

/-! ## Exceptions in a guarded body -/

section Raise

variable
    {Reference World Effect : Type}
    (machine : Machine Reference World Effect)
    {layout : GuardLayout} {debugBuild : Bool}
    {original guarded : MethodBody}

/-- An exception goes where it went in the original body, from a guard too. -/
theorem Machine.raiseAt_shift
    (described : layout.Describes debugBuild original guarded)
    (wellFormed : original.WellFormed)
    {position there : Nat}
    (behind :
      layout.shift debugBuild original.instructions position ≤ there)
    (before :
      there <
        layout.shift debugBuild original.instructions (position + 1))
    (exception : Value Reference) (world : World)
    (effects : List Effect) :
    machine.raiseAt guarded there exception world effects =
      (machine.raiseAt original position exception world
        effects).relocate
          (layout.shift debugBuild original.instructions) := by
  unfold raiseAt
  cases machine.environment.caughtAs exception world with
  | none =>
      rfl
  | some caught =>
      have same :
          (guarded.handlers.find? fun handler =>
            guarded.protects handler there &&
              handler.kind.catches caught) =
            (original.handlers.find? fun handler =>
              original.protects handler position &&
                handler.kind.catches caught).map
              (·.mapBoundaries layout.entrance) := by
        rw [described.handlers, List.find?_map]
        congr 1
        apply List.find?_congr
        intro handler member
        rw [Function.comp_apply,
          described.protects_shift wellFormed member behind before]
        rfl
      simp only [same]
      cases found :
          original.handlers.find? fun handler =>
            original.protects handler position &&
              handler.kind.catches caught with
      | none =>
          rfl
      | some handler =>
          have member := List.mem_of_find?_eq_some found
          obtain ⟨start, startFound⟩ :=
            MethodBody.exists_indexOf?_of_mem
              (wellFormed.boundary_mem member
                (show handler.handlerStart ∈ handler.boundaries by
                  simp [ExceptionHandler.boundaries]))
          simp [ExceptionHandler.mapBoundaries, startFound,
            described.indexOf?_entrance wellFormed startFound,
            State.relocate]

/-- An exception that a guard in front of a body throws leaves the body. -/
theorem Machine.raiseAt_front
    (described : layout.Describes debugBuild original guarded)
    (wellFormed : original.WellFormed)
    {there : Nat}
    (before : there < layout.shift debugBuild original.instructions 0)
    (exception : Value Reference) (world : World)
    (effects : List Effect) :
    machine.raiseAt guarded there exception world effects =
      machine.escape exception world effects := by
  have none :
      ∀ caught : TypeId → Bool,
        (guarded.handlers.find? fun handler =>
          guarded.protects handler there &&
            handler.kind.catches caught) = none := by
    intro caught
    apply List.find?_eq_none.mpr
    intro handler member
    rw [described.not_protects_front wellFormed member before]
    simp
  unfold raiseAt escape
  cases machine.environment.caughtAs exception world with
  | none =>
      rfl
  | some caught =>
      simp only [none]

end Raise

end NullWeave
