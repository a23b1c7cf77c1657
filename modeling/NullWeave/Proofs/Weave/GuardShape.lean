import Mathlib.Data.List.Infix
import NullWeave.Weave.Guard.Recognition

/-!
# What is recognised as a guard

A body has a guard of a parameter where it loads the name of the parameter,
constructs the exception for a null argument and throws it, with or without a
message.  Such a guard is recognised wherever it stands.  Besides, a guard is
recognised where any other operation stands in the place of the message, and
nowhere else.
-/

namespace NullWeave

/-! ## Shapes of guards -/

/-- Are operations a guard of a parameter? -/
inductive IsGuardShape (graph : Graph) (parameter : String) : List Operation → Prop where
  | short {constructor : MethodId}
      (named : graph.methodName constructor =
        graph.methodName SystemLibrary.argumentNullInit) :
      IsGuardShape graph parameter [.ldStr parameter, .newObj constructor, .throw]
  | long (message : String) {constructor : MethodId}
      (named : graph.methodName constructor =
        graph.methodName SystemLibrary.argumentNullInitMessage) :
      IsGuardShape graph parameter
        [.ldStr parameter, .ldStr message, .newObj constructor, .throw]

/-- Are operations a guard of a parameter but for the message, which is no string? -/
inductive LacksMessage (graph : Graph) (parameter : String) : List Operation → Prop where
  | intro {other : Operation} {constructor : MethodId}
      (noString : ∀ message, other ≠ .ldStr message)
      (named : graph.methodName constructor =
        graph.methodName SystemLibrary.argumentNullInitMessage) :
      LacksMessage graph parameter [.ldStr parameter, other, .newObj constructor, .throw]

/-! ## Single operations -/

theorem loadsString_iff {text : String} {operation : Operation} :
    loadsString text operation = true ↔ operation = .ldStr text := by
  cases operation <;> simp [loadsString]

theorem constructsWith_iff {graph : Graph} {constructor : MethodId} {operation : Operation} :
    constructsWith graph constructor operation = true ↔
      ∃ found, operation = .newObj found ∧
        graph.methodName found = graph.methodName constructor := by
  cases operation <;> simp [constructsWith]

theorem throwsException_iff {operation : Operation} :
    throwsException operation = true ↔ operation = .throw := by
  cases operation <;> simp [throwsException]

/-! ## At the front of operations -/

section Front

variable {graph : Graph} {parameter : String}

theorem beginsWithShortGuard_iff {operations : List Operation} :
    beginsWithShortGuard graph parameter operations = true ↔
      ∃ constructor,
        graph.methodName constructor = graph.methodName SystemLibrary.argumentNullInit ∧
          [.ldStr parameter, .newObj constructor, .throw] <+: operations := by
  unfold beginsWithShortGuard
  split
  · rename_i name construct leave rest
    simp only [Bool.and_eq_true, loadsString_iff, constructsWith_iff, throwsException_iff,
      List.cons_prefix_cons, List.nil_prefix, and_true]
    constructor
    · rintro ⟨⟨rfl, constructor, rfl, named⟩, rfl⟩
      exact ⟨constructor, named, rfl, rfl, rfl⟩
    · rintro ⟨constructor, named, rfl, rfl, rfl⟩
      exact ⟨⟨rfl, constructor, rfl, named⟩, rfl⟩
  · rename_i short
    refine iff_of_false Bool.false_ne_true ?_
    rintro ⟨constructor, -, rest, rfl⟩
    exact short _ _ _ _ rfl

theorem beginsWithLongGuard_iff {operations : List Operation} :
    beginsWithLongGuard graph parameter operations = true ↔
      ∃ other constructor,
        graph.methodName constructor =
            graph.methodName SystemLibrary.argumentNullInitMessage ∧
          [.ldStr parameter, other, .newObj constructor, .throw] <+: operations := by
  unfold beginsWithLongGuard
  split
  · rename_i name message construct leave rest
    simp only [Bool.and_eq_true, loadsString_iff, constructsWith_iff, throwsException_iff,
      List.cons_prefix_cons, List.nil_prefix, and_true]
    constructor
    · rintro ⟨⟨rfl, constructor, rfl, named⟩, rfl⟩
      exact ⟨message, constructor, named, rfl, rfl, rfl, rfl⟩
    · rintro ⟨other, constructor, named, rfl, rfl, rfl, rfl⟩
      exact ⟨⟨rfl, constructor, rfl, named⟩, rfl⟩
  · rename_i short
    refine iff_of_false Bool.false_ne_true ?_
    rintro ⟨other, constructor, -, rest, rfl⟩
    exact short _ _ _ _ _ rfl

/-- The front of operations is recognised if it is a guard, but for the message at most. -/
theorem beginsWithGuard_iff {operations : List Operation} :
    (beginsWithShortGuard graph parameter operations ||
        beginsWithLongGuard graph parameter operations) = true ↔
      ∃ shape, (IsGuardShape graph parameter shape ∨ LacksMessage graph parameter shape) ∧
        shape <+: operations := by
  rw [Bool.or_eq_true, beginsWithShortGuard_iff, beginsWithLongGuard_iff]
  constructor
  · rintro (⟨constructor, named, front⟩ | ⟨other, constructor, named, front⟩)
    · exact ⟨_, .inl (.short named), front⟩
    · by_cases isString : ∃ message, other = .ldStr message
      · obtain ⟨message, rfl⟩ := isString
        exact ⟨_, .inl (.long message named), front⟩
      · exact ⟨_, .inr (.intro (not_exists.mp isString) named), front⟩
  · rintro ⟨_, (named | ⟨message, named⟩) | ⟨noString, named⟩, front⟩
    · exact .inl ⟨_, named, front⟩
    · exact .inr ⟨_, _, named, front⟩
    · exact .inr ⟨_, _, named, front⟩

end Front

/-! ## Anywhere in a body -/

/-- A guard is recognised exactly where one stands, but for the message at most. -/
theorem alreadyGuards_iff_shape {graph : Graph} {parameter : String}
    {operations : List Operation} :
    alreadyGuards graph parameter operations = true ↔
      ∃ shape, (IsGuardShape graph parameter shape ∨ LacksMessage graph parameter shape) ∧
        shape <:+: operations := by
  induction operations with
  | nil =>
      refine iff_of_false Bool.false_ne_true ?_
      rintro ⟨shape, isShape, inside⟩
      rw [List.infix_nil] at inside
      subst inside
      rcases isShape with isShape | isShape <;> cases isShape
  | cons operation rest inductionHypothesis =>
      rw [alreadyGuards, Bool.or_eq_true, beginsWithGuard_iff, inductionHypothesis,
        ← exists_or]
      refine exists_congr fun shape => ?_
      rw [← and_or_left, List.infix_cons_iff]

namespace MethodBody

/--
A body is taken for one that guards a parameter exactly if it has a guard of the
parameter somewhere, or one that has another operation in the place of the message.
-/
theorem alreadyGuards_iff_holdsGuard
    (graph : Graph) (body : MethodBody) (parameter : String) :
    body.alreadyGuards graph parameter = true ↔
      (∃ guard, IsGuardShape graph parameter guard ∧
          guard <:+: body.instructions.map (·.operation)) ∨
        ∃ guard, LacksMessage graph parameter guard ∧
          guard <:+: body.instructions.map (·.operation) := by
  rw [alreadyGuards, alreadyGuards_iff_shape, ← exists_or]
  exact exists_congr fun guard => or_and_right

/-- A body that throws for its parameter without a message. -/
def withoutMessage : MethodBody where
  instructions := numberFrom .first
    [.ldStr "text", .ldNull, .newObj SystemLibrary.argumentNullInitMessage, .throw]
  nextId := ⟨4⟩

/-- Null in the place of the message makes no guard, but it is recognised as one. -/
theorem withoutMessage_recognised :
    withoutMessage.alreadyGuards .system "text" = true ∧
      ¬ ∃ guard, IsGuardShape .system "text" guard ∧
        guard <:+: withoutMessage.instructions.map (·.operation) := by
  refine ⟨?_, ?_⟩
  · have lacks : LacksMessage .system "text"
        [.ldStr "text", .ldNull, .newObj SystemLibrary.argumentNullInitMessage, .throw] :=
      .intro (by simp) rfl
    rw [alreadyGuards, alreadyGuards_iff_shape]
    exact ⟨_, .inr lacks, List.infix_rfl⟩
  · rintro ⟨guard, isGuard, inside⟩
    cases isGuard <;>
      simp [withoutMessage, numberFrom, List.infix_cons_iff] at inside

end MethodBody

end NullWeave
