import NullWeave.Proofs.Code.Narrowing

/-!
# Sequence points in the order of instructions

Bringing debug information up to date sorts sequence points by the positions of
their instructions and keeps the order of those at one position.  It drops no
point whose instruction is there, and a scope that covers a body and lists its
slots goes on to do so.
-/

namespace NullWeave

/-! ## Points -/

/-- The position of the instruction with an identity; without one, the number of instructions. -/
def placeOf (instructions : List Instruction) (id : InstrId) : Nat :=
  (identities instructions).idxOf id

/-- Sequence points come in the order of their instructions. -/
def InOrder
    (instructions : List Instruction) (points : List SequencePoint) :
    Prop :=
  points.Pairwise fun left right =>
    placeOf instructions left.instruction ≤
      placeOf instructions right.instruction

/-- Distinct identities are found where they stand. -/
theorem lastIndexOf?_eq_placeOf
    {instructions : List Instruction}
    (distinct : (identities instructions).Nodup) {id : InstrId}
    (present : id ∈ identities instructions) :
    lastIndexOf? instructions id = some (placeOf instructions id) := by
  have inside := List.idxOf_lt_length_iff.mpr present
  refine (lastIndexOf?_eq_some_iff distinct).mpr ?_
  have found :
      (identities instructions)[placeOf instructions id]? = some id := by
    rw [placeOf, List.getElem?_eq_getElem inside, List.getElem_idxOf inside]
  rw [identities, List.getElem?_map, Option.map_eq_some_iff] at found
  exact found

section Ordering

variable
    {instructions : List Instruction} {points : List SequencePoint}

/-- Points whose instructions are there are sorted as a whole. -/
theorem orderPoints_eq
    (distinct : (identities instructions).Nodup)
    (present : ∀ point ∈ points,
      point.instruction ∈ identities instructions) :
    DebugInfo.orderPoints instructions points =
      points.mergeSort fun left right =>
        placeOf instructions left.instruction ≤
          placeOf instructions right.instruction := by
  have placed :
      (points.filterMap fun point =>
          (lastIndexOf? instructions point.instruction).map
            fun position => (position, point)) =
        points.map fun point =>
          (placeOf instructions point.instruction, point) := by
    rw [← List.filterMap_eq_map]
    refine List.filterMap_congr fun point member => ?_
    rw [lastIndexOf?_eq_placeOf distinct (present point member)]
    rfl
  have sorted :
      (points.mergeSort fun left right =>
          placeOf instructions left.instruction ≤
            placeOf instructions right.instruction).map
          (fun point =>
            (placeOf instructions point.instruction, point)) =
        (points.map fun point =>
          (placeOf instructions point.instruction, point)).mergeSort
            fun left right => left.1 ≤ right.1 :=
    List.map_mergeSort fun _ _ _ _ => rfl
  rw [DebugInfo.orderPoints, placed, ← sorted, List.map_map]
  exact List.map_id _

theorem orderPoints_perm
    (distinct : (identities instructions).Nodup)
    (present : ∀ point ∈ points,
      point.instruction ∈ identities instructions) :
    (DebugInfo.orderPoints instructions points).Perm points := by
  rw [orderPoints_eq distinct present]
  exact List.mergeSort_perm _ _

theorem inOrder_orderPoints
    (distinct : (identities instructions).Nodup)
    (present : ∀ point ∈ points,
      point.instruction ∈ identities instructions) :
    InOrder instructions (DebugInfo.orderPoints instructions points) := by
  rw [orderPoints_eq distinct present, InOrder]
  refine (List.pairwise_mergeSort ?_ ?_ points).imp ?_
  · intro left middle right
    simpa using fun first second => Nat.le_trans first second
  · intro left right
    simpa using Nat.le_total _ _
  · intro left right ordered
    simpa using ordered

/-- Points that come in order already stay in that order among the others. -/
theorem sublist_orderPoints
    (distinct : (identities instructions).Nodup)
    (present : ∀ point ∈ points,
      point.instruction ∈ identities instructions)
    {some : List SequencePoint} (ordered : InOrder instructions some)
    (among : some.Sublist points) :
    some.Sublist (DebugInfo.orderPoints instructions points) := by
  rw [orderPoints_eq distinct present]
  refine List.sublist_mergeSort ?_ ?_ ?_ among
  · intro left middle right
    simpa using fun first second => Nat.le_trans first second
  · intro left right
    simpa using Nat.le_total _ _
  · exact ordered.imp fun before => by simpa using before

end Ordering

/-! ## Scopes -/

/-- A slot that is listed is not listed again. -/
theorem withMissingSlots_of_subset
    {slots others : List UInt16} (listed : ∀ slot ∈ others, slot ∈ slots) :
    withMissingSlots slots others = slots := by
  induction others with
  | nil =>
      rfl
  | cons slot rest inductionHypothesis =>
      rw [withMissingSlots, if_pos (listed slot (List.mem_cons_self ..))]
      exact inductionHypothesis fun other member =>
        listed other (List.mem_cons_of_mem _ member)

/-- Every slot below a count that is small enough is listed once. -/
theorem map_toNat_slotsBelow
    {count : Nat} (small : count < UInt16.size) :
    (slotsBelow count).map (·.toNat) = List.range count := by
  have exact : (UInt16.ofNat count).toNat = count :=
    UInt16.toNat_ofNat_of_lt small
  rw [slotsBelow, exact, List.map_map]
  refine (List.map_congr_left fun slot member => ?_).trans
    (List.map_id _)
  have below := List.mem_range.mp member
  exact UInt16.toNat_ofNat_of_lt (below.trans small)

/-- A scope that covers a body and lists its slots keeps listing them. -/
theorem cover_wholeScope
    {instructions : List Instruction} {first last : Instruction}
    (head : instructions.head? = some first)
    (finish : instructions.getLast? = some last)
    (localCount : Nat) (start finish' : InstrId) :
    Scope.cover instructions localCount
        ⟨start, finish', slotsBelow localCount⟩ =
      ⟨first.id, last.id, slotsBelow localCount⟩ := by
  rw [Scope.cover, head, finish,
    withMissingSlots_of_subset fun _ member => member]
  rfl

end NullWeave
