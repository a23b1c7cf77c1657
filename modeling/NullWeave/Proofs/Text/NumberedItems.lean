import NullWeave.Proofs.Sequence
import NullWeave.Text.Loading.Body

/-!
# Items numbered as they are read

The identities of a body are given out before its instructions are read.  The
instructions take them one by one, so they may as well be counted while the
instructions are read, and a label stands for the number that the next
instruction will have.  That is what the two passes over the items come to: the
first gives out one identity for each instruction that the second one reads.
-/

namespace NullWeave

namespace BodyItem

/-! ## One pass over items -/

/-- Is the item an instruction? -/
def isInstruction : BodyItem → Bool
  | .instruction _ _ _ => true
  | _ => false

/-- The first label, with its line, that has a name which came before. -/
def repeatedLabel? (seen : List String) : List BodyItem → Option (Nat × String)
  | [] => none
  | .label line name :: rest =>
      if name ∈ seen then some (line, name) else repeatedLabel? (name :: seen) rest
  | _ :: rest => repeatedLabel? seen rest

/--
The labels among items whose instructions are numbered from an identity.

A label stands for the next instruction, if one follows.
-/
def labelsFrom (id : InstrId) : List BodyItem → List (String × Option InstrId)
  | [] => []
  | .label _ name :: rest =>
      (name, if rest.any isInstruction then some id else none) :: labelsFrom id rest
  | .point _ _ _ :: rest => labelsFrom id rest
  | .instruction _ _ _ :: rest => labelsFrom id.next rest

end BodyItem

/-- Read items, whose instructions are numbered from an identity. -/
def BodyScope.readItems (scope : BodyScope) (waiting : List WaitingPoint) (id : InstrId) :
    List BodyItem → Except TextError (List Instruction × List SequencePoint)
  | [] =>
      match waiting with
      | [] => .ok ([], [])
      | point :: _ => .error ⟨point.line, .danglingSequencePoint⟩
  | .label _ _ :: rest => scope.readItems waiting id rest
  | .point line document span :: rest =>
      scope.readItems (waiting ++ [⟨line, document, span⟩]) id rest
  | .instruction line mnemonic operands :: rest => do
      let operation ← inLine line (scope.readInstruction mnemonic operands)
      let (instructions, points) ← scope.readItems [] id.next rest
      let placed := waiting.map fun point =>
        BodyItem.placedPoint id point.document point.span
      pure (⟨id, operation⟩ :: instructions, placed ++ points)

/-! ## What is given out -/

/-- The identities from one on, as many as there are to be. -/
def idsFrom (id : InstrId) (count : Nat) : List InstrId :=
  (List.range' id.number count).map InstrId.mk

theorem idsFrom_succ (id : InstrId) (count : Nat) :
    idsFrom id (count + 1) = id :: idsFrom id.next count := by
  rw [idsFrom, List.range'_succ, List.map_cons]
  rfl

namespace BodyItem

/-- How many of some items are instructions. -/
def countInstructions (items : List BodyItem) : Nat := items.countP isInstruction

theorem countInstructions_instruction (line : Nat) (mnemonic : String)
    (operands : List Lexeme) (rest : List BodyItem) :
    countInstructions (.instruction line mnemonic operands :: rest) =
      countInstructions rest + 1 :=
  List.countP_cons_of_pos rfl

end BodyItem

namespace Reservation

open BodyItem

/-- What was given out, with what some more items were given. -/
structure Extends (held last : Reservation) (items : List BodyItem) : Prop where
  nextId : last.nextId = ⟨held.nextId.number + countInstructions items⟩
  ids : last.ids = held.ids ++ idsFrom held.nextId (countInstructions items)
  labels : last.labels =
    held.placed.map (fun (name, id) => (name, some id)) ++
      held.waiting.map (·, if items.any isInstruction then some held.nextId else none) ++
        labelsFrom held.nextId items

theorem extends_refl (held : Reservation) : held.Extends held [] where
  nextId := rfl
  ids := (List.append_nil _).symm
  labels := (List.append_nil _).symm

/-- The names in a list are those of the labels so far. -/
def KnowsExactly (held : Reservation) (seen : List String) : Prop :=
  ∀ name, held.knows name = true ↔ name ∈ seen

theorem knows_eq_true_iff (held : Reservation) (name : String) :
    held.knows name = true ↔ name ∈ held.placed.map (·.1) ∨ name ∈ held.waiting := by
  simp [knows]

theorem knowsExactly_nil : ({} : Reservation).KnowsExactly [] := by
  intro name
  rw [knows_eq_true_iff]
  simp

/-- A label that waits is one more label. -/
theorem KnowsExactly.label {held : Reservation} {seen : List String}
    (same : held.KnowsExactly seen) (name : String) :
    KnowsExactly { held with waiting := held.waiting ++ [name] } (name :: seen) := by
  intro other
  rw [knows_eq_true_iff, List.mem_cons, ← same other, knows_eq_true_iff, List.mem_append,
    List.mem_singleton, ← or_assoc]
  exact or_comm

/-- The labels that waited are still labels when an instruction has come. -/
theorem KnowsExactly.instruction {held : Reservation} {seen : List String}
    (same : held.KnowsExactly seen) : held.giveOut.KnowsExactly seen := by
  intro other
  rw [← same other, knows_eq_true_iff, knows_eq_true_iff, giveOut]
  simp

/-- A label that waits stands for the first instruction among the items behind it. -/
theorem Extends.label {held last : Reservation} {name : String} {rest : List BodyItem}
    (holds : Extends { held with waiting := held.waiting ++ [name] } last rest) (line : Nat) :
    held.Extends last (.label line name :: rest) where
  nextId := holds.nextId
  ids := holds.ids
  labels := by
    rw [holds.labels, List.map_append, ← List.append_assoc, List.append_assoc]
    rfl

/-- An instruction takes an identity, for which the labels that waited stand. -/
theorem Extends.instruction {held last : Reservation} {rest : List BodyItem}
    (holds : held.giveOut.Extends last rest) (line : Nat) (mnemonic : String)
    (operands : List Lexeme) :
    held.Extends last (.instruction line mnemonic operands :: rest) where
  nextId := by
    rw [holds.nextId, giveOut, countInstructions_instruction, InstrId.next, Nat.add_right_comm]
    rfl
  ids := by
    rw [holds.ids, giveOut, countInstructions_instruction, idsFrom_succ, List.append_assoc]
    rfl
  labels := by
    rw [holds.labels, giveOut, List.map_append, List.map_map, List.map_nil, List.append_nil]
    rfl

/-- Items without a label that comes twice are given what they need. -/
theorem foldlM_add_of_fresh {items : List BodyItem} {held : Reservation} {seen : List String}
    (same : held.KnowsExactly seen) (fresh : repeatedLabel? seen items = none) :
    ∃ last, items.foldlM add held = .ok last ∧ held.Extends last items := by
  induction items generalizing held seen with
  | nil =>
      exact ⟨held, rfl, extends_refl held⟩
  | cons item rest inductionHypothesis =>
      cases item with
      | label line name =>
          rw [repeatedLabel?] at fresh
          split at fresh
          · contradiction
          · rename_i new
            obtain ⟨last, given, holds⟩ := inductionHypothesis (same.label name) fresh
            refine ⟨last, ?_, holds.label line⟩
            rw [List.foldlM_cons, add, if_neg fun known => new ((same name).mp known)]
            exact given
      | point line document span =>
          obtain ⟨last, given, holds⟩ := inductionHypothesis same fresh
          exact ⟨last, given, ⟨holds.nextId, holds.ids, holds.labels⟩⟩
      | instruction line mnemonic operands =>
          obtain ⟨last, given, holds⟩ := inductionHypothesis same.instruction fresh
          exact ⟨last, given, holds.instruction line mnemonic operands⟩

/-- Where a label comes twice, nothing more is given out. -/
theorem foldlM_add_of_repeated {items : List BodyItem} {held : Reservation}
    {seen : List String} {line : Nat} {name : String} (same : held.KnowsExactly seen)
    (repeated : repeatedLabel? seen items = some (line, name)) :
    items.foldlM add held = .error ⟨line, .labelRedefined name⟩ := by
  induction items generalizing held seen with
  | nil =>
      contradiction
  | cons item rest inductionHypothesis =>
      cases item with
      | label itsLine itsName =>
          rw [repeatedLabel?] at repeated
          rw [List.foldlM_cons, add]
          split at repeated
          · rename_i old
            cases repeated
            rw [if_pos ((same name).mpr old)]
            rfl
          · rename_i new
            rw [if_neg fun known => new ((same itsName).mp known)]
            exact inductionHypothesis (same.label itsName) repeated
      | point itsLine document span =>
          exact inductionHypothesis same repeated
      | instruction itsLine mnemonic operands =>
          exact inductionHypothesis same.instruction repeated

/-- What is given out to all items of a body. -/
structure Numbers (reserved : Reservation) (items : List BodyItem) : Prop where
  nextId : reserved.nextId = ⟨countInstructions items⟩
  ids : reserved.ids = idsFrom .first (countInstructions items)
  labels : reserved.labels = labelsFrom .first items

theorem Extends.numbers {last : Reservation} {items : List BodyItem}
    (holds : Extends {} last items) : last.Numbers items where
  nextId := holds.nextId.trans (congrArg InstrId.mk (Nat.zero_add _))
  ids := holds.ids
  labels := holds.labels

theorem ofItems_of_repeated {items : List BodyItem} {line : Nat} {name : String}
    (repeated : repeatedLabel? [] items = some (line, name)) :
    ofItems items = .error ⟨line, .labelRedefined name⟩ :=
  foldlM_add_of_repeated knowsExactly_nil repeated

theorem ofItems_of_fresh {items : List BodyItem} (fresh : repeatedLabel? [] items = none) :
    ∃ reserved, ofItems items = .ok reserved ∧ reserved.Numbers items := by
  obtain ⟨reserved, given, holds⟩ := foldlM_add_of_fresh knowsExactly_nil fresh
  exact ⟨reserved, given, holds.numbers⟩

/-- Identities are given out exactly when no label comes twice. -/
theorem ofItems_eq_ok {items : List BodyItem} {reserved : Reservation}
    (given : ofItems items = .ok reserved) :
    repeatedLabel? [] items = none ∧ reserved.Numbers items := by
  cases repeated : repeatedLabel? [] items with
  | some label =>
      rw [ofItems_of_repeated repeated] at given
      contradiction
  | none =>
      obtain ⟨other, given', holds⟩ := ofItems_of_fresh repeated
      cases given.symm.trans given'
      exact ⟨rfl, holds⟩

/-- Identities are refused only where a label comes twice. -/
theorem ofItems_eq_error {items : List BodyItem} {error : TextError}
    (refused : ofItems items = .error error) :
    ∃ line name, repeatedLabel? [] items = some (line, name) ∧
      error = ⟨line, .labelRedefined name⟩ := by
  cases repeated : repeatedLabel? [] items with
  | some label =>
      rw [ofItems_of_repeated repeated] at refused
      cases refused
      exact ⟨label.1, label.2, rfl, rfl⟩
  | none =>
      obtain ⟨reserved, given, -⟩ := ofItems_of_fresh repeated
      rw [given] at refused
      contradiction

end Reservation

/-! ## What the instructions take -/

namespace BodyScope

open BodyItem

/-- Instructions that take the identities given out to them are numbered as they are read. -/
theorem buildItems_idsFrom (scope : BodyScope) (waiting : List WaitingPoint) (id : InstrId)
    (items : List BodyItem) :
    scope.buildItems waiting (idsFrom id (countInstructions items)) items =
      scope.readItems waiting id items := by
  induction items generalizing waiting id with
  | nil =>
      cases waiting <;> rfl
  | cons item rest inductionHypothesis =>
      cases item with
      | label line name =>
          exact inductionHypothesis waiting id
      | point line document span =>
          exact inductionHypothesis (waiting ++ [⟨line, document, span⟩]) id
      | instruction line mnemonic operands =>
          rw [countInstructions_instruction, idsFrom_succ, buildItems, readItems,
            inductionHypothesis]

/-- As many instructions are read as there are instructions among the items. -/
theorem length_of_readItems {scope : BodyScope} {waiting : List WaitingPoint} {id : InstrId}
    {items : List BodyItem} {instructions : List Instruction} {points : List SequencePoint}
    (went : scope.readItems waiting id items = .ok (instructions, points)) :
    instructions.length = countInstructions items := by
  induction items generalizing waiting id instructions points with
  | nil =>
      cases waiting with
      | nil =>
          cases went
          rfl
      | cons point rest =>
          contradiction
  | cons item rest inductionHypothesis =>
      cases item with
      | label line name =>
          exact inductionHypothesis went
      | point line document span =>
          exact inductionHypothesis went
      | instruction line mnemonic operands =>
          rw [readItems] at went
          obtain ⟨operation, -, later⟩ := bind_eq_ok_iff.mp went
          obtain ⟨⟨others, otherPoints⟩, readRest, done⟩ := bind_eq_ok_iff.mp later
          cases done
          rw [List.length_cons, inductionHypothesis readRest, countInstructions_instruction]

end BodyScope

end NullWeave
