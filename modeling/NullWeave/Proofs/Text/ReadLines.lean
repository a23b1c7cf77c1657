import NullWeave.Proofs.Sequence
import NullWeave.Text.Reading.Module

/-!
# Lines that were read

A reader of a method or a type takes lines while it has steps left.  Where it
comes to a result, it had enough of them, so it is said of its lines alone what
each of them added.
-/

namespace NullWeave

/-- The document that was named last after a line of a body. -/
def LineReader.BodyLine.documentAfter (said : LineReader.BodyLine)
    (document : Option String) : Option String :=
  match said with
  | .document name => some name
  | _ => document

namespace ModuleReader

variable {number : Nat} {lexemes rest : List Lexeme} {lines : List NumberedLine}
variable {document : Option String}

/-- Reading lexemes of a line leaves the lines behind it alone. -/
theorem runs_onLine {α : Type} {reader : LineReader α} {text left : ModuleText} {value : α}
    (ran : (onLine number lexemes reader).run text = .ok (value, left)) :
    left = text ∧ ∃ remaining, reader.run lexemes = .ok (value, remaining) := by
  unfold onLine at ran
  split at ran
  · cases ran
  · rename_i found remaining taken
    cases ran
    exact ⟨rfl, remaining, taken⟩

/-! ## Methods -/

section Methods

/-- Are the lines of a body read up to its end, with as many steps as that takes? -/
def ReadsMethod (method : MethodText) (body : BodyText) (text : ModuleText)
    (result : MethodText × ModuleText) : Prop :=
  ∃ fuel, (methodWithin fuel method body).run text = .ok result

variable {method : MethodText} {body : BodyText} {result : MethodText × ModuleText}

/-- A line that does not end a body is added to it. -/
theorem ReadsMethod.next (notEnd : lexemes.head? ≠ some (.name ".end"))
    (reads : ReadsMethod method body ⟨⟨number, lexemes⟩ :: lines, document⟩ result) :
    ∃ said remaining, (LineReader.bodyLine number document).run lexemes = .ok (said, remaining) ∧
      ReadsMethod method (body.add said) ⟨lines, said.documentAfter document⟩ result := by
  obtain ⟨fuel, ran⟩ := reads
  cases fuel with
  | zero =>
      cases ran
  | succ fuel =>
      rw [methodWithin] at ran
      obtain ⟨_, _, next, ran⟩ := runs_bind_iff.mp ran
      cases next
      split at ran
      · contradiction
      · rename_i found
        cases found
        exact absurd rfl notEnd
      · rename_i found
        cases found
        obtain ⟨_, _, here, ran⟩ := runs_bind_iff.mp ran
        cases here
        obtain ⟨said, _, read, ran⟩ := runs_bind_iff.mp ran
        obtain ⟨rfl, remaining, taken⟩ := runs_onLine read
        refine ⟨said, remaining, taken, fuel, ?_⟩
        cases said <;> exact ran

/-- The end of a body gives it to the method, unless the method is abstract. -/
theorem ReadsMethod.finish
    (reads : ReadsMethod method body ⟨⟨number, [.name ".end"]⟩ :: lines, document⟩ result) :
    result = (if method.access.isAbstract then method else { method with body := some body },
      ⟨lines, document⟩) := by
  obtain ⟨again, left⟩ := result
  obtain ⟨fuel, ran⟩ := reads
  cases fuel with
  | zero =>
      cases ran
  | succ fuel =>
      rw [methodWithin] at ran
      obtain ⟨_, _, next, ran⟩ := runs_bind_iff.mp ran
      cases next
      obtain ⟨_, _, done, ran⟩ := runs_bind_iff.mp ran
      obtain ⟨rfl, -⟩ := runs_onLine done
      cases abstract : method.access.isAbstract with
      | false =>
          rw [abstract] at ran
          cases ran
          rfl
      | true =>
          rw [abstract] at ran
          split at ran
          · contradiction
          split at ran
          · cases ran
            rfl
          · cases ran

end Methods

/-! ## Types -/

section Types

/-- Are the lines of a type read up to its end, with as many steps as that takes? -/
def ReadsType (pending : List Attribute) (type : TypeText) (text : ModuleText)
    (result : TypeText × ModuleText) : Prop :=
  ∃ fuel, (typeWithin fuel pending type).run text = .ok result

variable {pending : List Attribute} {type : TypeText} {result : TypeText × ModuleText}

theorem ReadsType.attributes
    (reads : ReadsType pending type ⟨⟨number, .mark '[' :: rest⟩ :: lines, document⟩ result) :
    ∃ more, ReadsType (pending ++ more) type ⟨lines, document⟩ result := by
  obtain ⟨fuel, ran⟩ := reads
  cases fuel with
  | zero =>
      cases ran
  | succ fuel =>
      rw [typeWithin] at ran
      obtain ⟨_, _, next, ran⟩ := runs_bind_iff.mp ran
      cases next
      obtain ⟨more, _, marked, ran⟩ := runs_bind_iff.mp ran
      obtain ⟨rfl, -⟩ := runs_onLine marked
      exact ⟨more, fuel, ran⟩

theorem ReadsType.field
    (reads : ReadsType pending type ⟨⟨number, .name ".field" :: rest⟩ :: lines, document⟩
      result) :
    ∃ field, ReadsType pending (type.addField field) ⟨lines, document⟩ result := by
  obtain ⟨fuel, ran⟩ := reads
  cases fuel with
  | zero =>
      cases ran
  | succ fuel =>
      rw [typeWithin] at ran
      obtain ⟨_, _, next, ran⟩ := runs_bind_iff.mp ran
      cases next
      change (if pending.isEmpty = true then _ else _ : ModuleReader TypeText).run _ = _ at ran
      split at ran
      · obtain ⟨field, _, declared, ran⟩ := runs_bind_iff.mp ran
        obtain ⟨rfl, -⟩ := runs_onLine declared
        exact ⟨field, fuel, ran⟩
      · cases ran

/-- The first line of a method is followed by its body. -/
theorem ReadsType.method
    (reads : ReadsType pending type ⟨⟨number, .name ".method" :: rest⟩ :: lines, document⟩
      result) :
    ∃ header remaining method left,
      (LineReader.methodHeader number pending).run rest = .ok (header, remaining) ∧
        ReadsMethod header {} ⟨lines, document⟩ (method, left) ∧
          ReadsType [] (type.addMethod method) left result := by
  obtain ⟨fuel, ran⟩ := reads
  cases fuel with
  | zero =>
      cases ran
  | succ fuel =>
      rw [typeWithin] at ran
      obtain ⟨_, _, next, ran⟩ := runs_bind_iff.mp ran
      cases next
      obtain ⟨header, _, declared, ran⟩ := runs_bind_iff.mp ran
      obtain ⟨rfl, remaining, taken⟩ := runs_onLine declared
      obtain ⟨method, left, body, ran⟩ := runs_bind_iff.mp ran
      exact ⟨header, remaining, method, left, taken, ⟨fuel, body⟩, fuel, ran⟩

/-- The first line of a nested type is followed by its members. -/
theorem ReadsType.nested {kind : TypeKind}
    (reads : ReadsType pending type ⟨⟨number, .name kind.directive :: rest⟩ :: lines, document⟩
      result) :
    ∃ header inner left,
      ReadsType [] (.ofHeader header) ⟨lines, document⟩ (inner, left) ∧
        ReadsType [] (type.addNested inner) left result := by
  obtain ⟨fuel, ran⟩ := reads
  cases fuel with
  | zero =>
      cases ran
  | succ fuel =>
      rw [typeWithin] at ran
      obtain ⟨_, _, next, ran⟩ := runs_bind_iff.mp ran
      cases next
      cases kind <;>
        obtain ⟨header, _, declared, ran⟩ := runs_bind_iff.mp ran <;>
        obtain ⟨rfl, -⟩ := runs_onLine declared <;>
        obtain ⟨inner, left, members, ran⟩ := runs_bind_iff.mp ran <;>
        exact ⟨header, inner, left, ⟨fuel, members⟩, fuel, ran⟩

theorem ReadsType.finish
    (reads : ReadsType pending type ⟨⟨number, [.name ".end"]⟩ :: lines, document⟩ result) :
    result = (type, ⟨lines, document⟩) := by
  obtain ⟨again, left⟩ := result
  obtain ⟨fuel, ran⟩ := reads
  cases fuel with
  | zero =>
      cases ran
  | succ fuel =>
      rw [typeWithin] at ran
      obtain ⟨_, _, next, ran⟩ := runs_bind_iff.mp ran
      cases next
      obtain ⟨_, _, done, ran⟩ := runs_bind_iff.mp ran
      obtain ⟨rfl, -⟩ := runs_onLine done
      split at ran
      · cases ran
        rfl
      · cases ran

end Types

/-! ## Modules -/

section Modules

/--
Are type declarations read up to the last line?

A reader that has no steps left stops as at the end, so here it has to have one
for each line.
-/
def ReadsTypes (pending : List Attribute) (text : ModuleText) (types : List TypeText) : Prop :=
  ∃ lastLine fuel left, text.lines.length ≤ fuel ∧
    (typesWithin lastLine fuel pending).run text = .ok (types, left)

variable {pending : List Attribute} {types : List TypeText}

theorem ReadsTypes.attributes
    (reads : ReadsTypes pending ⟨⟨number, .mark '[' :: rest⟩ :: lines, document⟩ types) :
    ∃ more, ReadsTypes (pending ++ more) ⟨lines, document⟩ types := by
  obtain ⟨lastLine, fuel, left, enough, ran⟩ := reads
  cases fuel with
  | zero =>
      cases enough
  | succ fuel =>
      rw [typesWithin] at ran
      obtain ⟨_, _, next, ran⟩ := runs_bind_iff.mp ran
      cases next
      obtain ⟨more, _, marked, ran⟩ := runs_bind_iff.mp ran
      obtain ⟨rfl, -⟩ := runs_onLine marked
      exact ⟨more, lastLine, fuel, left, Nat.le_of_succ_le_succ enough, ran⟩

/-- The first line of a type is followed by its members, and these by the other types. -/
theorem ReadsTypes.type {kind : TypeKind}
    (reads : ReadsTypes pending ⟨⟨number, .name kind.directive :: rest⟩ :: lines, document⟩ types) :
    ∃ header first left others, types = first :: others ∧
      ReadsType [] (.ofHeader header) ⟨lines, document⟩ (first, left) ∧
        (left.lines.length ≤ lines.length → ReadsTypes [] left others) := by
  obtain ⟨lastLine, fuel, left, enough, ran⟩ := reads
  cases fuel with
  | zero =>
      cases enough
  | succ fuel =>
      rw [typesWithin] at ran
      obtain ⟨_, _, next, ran⟩ := runs_bind_iff.mp ran
      cases next
      have later (between : ModuleText) {others : List TypeText} {last : ModuleText}
          (ran : (typesWithin lastLine fuel []).run between = .ok (others, last))
          (shorter : between.lines.length ≤ lines.length) : ReadsTypes [] between others :=
        ⟨lastLine, fuel, last, Nat.le_trans shorter (Nat.le_of_succ_le_succ enough), ran⟩
      cases kind <;>
        obtain ⟨header, _, declared, ran⟩ := runs_bind_iff.mp ran <;>
        obtain ⟨rfl, -⟩ := runs_onLine declared <;>
        obtain ⟨first, between, members, ran⟩ := runs_bind_iff.mp ran <;>
        obtain ⟨others, last, further, ran⟩ := runs_bind_iff.mp ran <;>
        cases ran <;>
        exact ⟨header, first, between, others, rfl, ⟨fuel, members⟩, later between further⟩

/-- At the end there are no more types. -/
theorem ReadsTypes.finish (reads : ReadsTypes pending ⟨[], document⟩ types) : types = [] := by
  obtain ⟨lastLine, fuel, left, -, ran⟩ := reads
  cases fuel with
  | zero =>
      rw [typesWithin] at ran
      split at ran
      · cases ran
        rfl
      · cases ran
  | succ fuel =>
      rw [typesWithin] at ran
      obtain ⟨_, _, next, ran⟩ := runs_bind_iff.mp ran
      cases next
      dsimp only at ran
      split at ran
      · cases ran
        rfl
      · cases ran

end Modules

end ModuleReader

end NullWeave
