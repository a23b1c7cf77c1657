import NullWeave.Proofs.Text.ToldLines
import NullWeave.Text.Loading.Module

/-!
# Errors point into the text

Each pass of loading a module goes through declarations that were read before it,
and tells its faults of the lines that these declarations keep.  So an error
names a line of the text with something on it, whichever pass stops there, be it
while lines are cut into words, while declarations are read, or later.
-/

namespace NullWeave

namespace Loading

variable {told : Nat → Prop} {α : Type} {fits : α → Prop}

/-- Does a pass make something that fits, or tell its fault of a line of which it may? -/
abbrev Tells (told : Nat → Prop) (fits : α → Prop) (loading : Loading α) : Prop :=
  RunEnds fits (fun error => told error.line) loading

/-! ## Single declarations -/

theorem tells_graph : Tells told (fun _ => True) graph :=
  fun _ => trivial

theorem tells_setGraph (graph : Graph) : Tells told (fun _ => True) (setGraph graph) :=
  fun _ => trivial

theorem tells_fail {line : Nat} (here : told line) (fault : TextFault) :
    Tells told fits (fail line fault : Loading α) :=
  runEnds_throw here

theorem tells_orFail {line : Nat} (here : told line) (result : Except TextFault α) :
    Tells told (fun _ => True) (orFail line result) := by
  cases result with
  | ok value =>
      exact runEnds_pure trivial
  | error fault =>
      exact tells_fail here fault

theorem tells_addHeader {header : TypeHeader} (here : told header.line)
    (enclosing : List TypeId) : Tells told (fun _ => True) (addHeader enclosing header) := by
  refine tells_graph.bind fun graph _ => ?_
  dsimp only
  split
  · exact tells_fail here _
  · exact (tells_setGraph _).bind fun _ _ => runEnds_pure trivial

theorem tells_addBase {header : TypeHeader} (here : told header.line) (type : TypeId) :
    Tells told (fun _ => True) (addBase header type) := by
  refine tells_graph.bind fun graph _ => ?_
  dsimp only
  split
  · exact tells_setGraph _
  · rw [← bind_pure_comp, bind_assoc]
    exact (tells_orFail here _).bind fun _ _ => tells_setGraph _

theorem tells_addInterface {line : Nat} (here : told line) (type : TypeId) (text : TypeExpr) :
    Tells told (fun _ => True) (addInterface line type text) := by
  refine tells_graph.bind fun graph _ => ?_
  refine (tells_orFail here _).bind fun interface _ => ?_
  split
  · exact tells_setGraph _
  · exact tells_fail here _

theorem tells_addField {text : FieldText} (here : told text.line) (type : TypeId) :
    Tells told (fun _ => True) (addField type text) := by
  refine tells_graph.bind fun graph _ => ?_
  split
  · exact tells_fail here _
  · exact (tells_orFail here _).bind fun _ _ => tells_setGraph _

/-- A method that was declared is handed on with its text, for its body is still to be read. -/
theorem tells_addMethod {text : MethodText} (keeps : text.KeepsLines told) (type : TypeId) :
    Tells told (fun entry => entry.1.KeepsLines told) (addMethod type text) := by
  refine tells_graph.bind fun graph _ => ?_
  refine (tells_orFail keeps.line _).bind fun decl _ => ?_
  dsimp only
  split
  · exact tells_fail keeps.line _
  · exact (tells_setGraph _).bind fun _ _ => runEnds_pure keeps

/-- A body is at fault at the line of its method or at one of its own. -/
theorem tells_loadBody {text : MethodText} (keeps : text.KeepsLines told) (method : MethodId) :
    Tells told (fun _ => True) (loadBody text method) := by
  unfold loadBody
  split
  · exact runEnds_pure trivial
  · rename_i body written
    refine tells_graph.bind fun graph _ => ?_
    have ends := endsIn_readBody graph (graph.method method) text.line body
    split
    · rename_i error failed
      apply runEnds_throw
      rcases List.mem_cons.mp (ends.of_error failed).line with atMethod | inside
      · rw [atMethod]
        exact keeps.line
      · exact keeps.body body written error.line inside
    · exact fun _ => trivial

/-! ## Passes -/

mutual

/-- Each type that was declared is handed on with its text, for the passes behind this one. -/
theorem tells_addType {text : TypeText} (keeps : text.KeepsLines told)
    (enclosing : List TypeId) :
    Tells told (fun entries => ∀ entry ∈ entries, entry.1.KeepsLines told)
      (addType enclosing text) := by
  cases text with
  | mk header fields methods nested =>
      cases keeps with
      | mk here keepFields keepMethods keepNested =>
          refine (tells_addHeader here enclosing).bind fun type _ => ?_
          refine (tells_addTypes keepNested (type :: enclosing)).bind fun inner innerKeep => ?_
          exact runEnds_pure
            (List.forall_mem_cons.mpr ⟨.mk here keepFields keepMethods keepNested, innerKeep⟩)

theorem tells_addTypes {texts : List TypeText} (keep : ∀ text ∈ texts, text.KeepsLines told)
    (enclosing : List TypeId) :
    Tells told (fun entries => ∀ entry ∈ entries, entry.1.KeepsLines told)
      (addTypes enclosing texts) := by
  cases texts with
  | nil =>
      exact runEnds_pure (List.forall_mem_nil _)
  | cons text rest =>
      obtain ⟨keeps, restKeep⟩ := List.forall_mem_cons.mp keep
      refine (tells_addType keeps enclosing).bind fun first firstKeep => ?_
      refine (tells_addTypes restKeep enclosing).bind fun others othersKeep => ?_
      exact runEnds_pure (List.forall_mem_append.mpr ⟨firstKeep, othersKeep⟩)

end

theorem tells_addSupertypes {text : TypeText} (keeps : text.KeepsLines told) (type : TypeId) :
    Tells told (fun _ => True) (addSupertypes text type) := by
  refine (tells_addBase keeps.header type).bind fun _ _ => ?_
  exact runEnds_forM fun interface _ => tells_addInterface keeps.header type interface

theorem tells_addMembers {text : TypeText} (keeps : text.KeepsLines told) (type : TypeId) :
    Tells told (fun entries => ∀ entry ∈ entries, entry.1.KeepsLines told)
      (addMembers text type) := by
  cases keeps with
  | mk _ fields methods _ =>
      refine (runEnds_forM fun field member => tells_addField (fields field member) type).bind
        fun _ _ => ?_
      exact runEnds_mapM fun method member => tells_addMethod (methods method member) type

/-- No pass tells its fault of a line that the declarations do not keep. -/
theorem tells_loadTypes {texts : List TypeText} (keep : ∀ text ∈ texts, text.KeepsLines told) :
    Tells told (fun _ => True) (loadTypes texts) := by
  refine (tells_addTypes keep []).bind fun declared declaredKeep => ?_
  refine (runEnds_forM fun entry member =>
    tells_addSupertypes (declaredKeep entry member) entry.2).bind fun _ _ => ?_
  refine (runEnds_mapM fun entry member =>
    tells_addMembers (declaredKeep entry member) entry.2).bind fun methods methodsKeep => ?_
  refine (runEnds_forM fun entry member => ?_).bind fun _ _ => runEnds_pure trivial
  obtain ⟨ofType, among, here⟩ := List.mem_flatten.mp member
  exact tells_loadBody (methodsKeep ofType among entry here) entry.2

end Loading

/-- An error names a line of the text that is neither blank nor only a comment. -/
theorem Program.load_error_line {program : Program} {text : String} {error : TextError}
    (failed : (program.load text).1 = .error error) : SaysSomethingAt text error.line := by
  have read := endsIn_readModule text
  unfold Program.load at failed
  split at failed
  · rename_i cause unread
    cases failed
    exact read.of_error unread
  · rename_i texts declared
    exact (Loading.tells_loadTypes (read.of_ok declared) program).of_error failed

/-- A class with a field of a type that there is not, between a comment and a blank line. -/
def Program.unknownFieldText : String :=
  ".class Sample\n  // a comment\n  .field Missing value\n\n.end\n"

theorem Program.load_error_line_unknownField :
    (Program.initial.load unknownFieldText).1 = .error ⟨3, .unknownType "Missing"⟩ ∧
      SaysSomethingAt unknownFieldText 3 := by
  have failed :
      (Program.initial.load unknownFieldText).1 = .error ⟨3, .unknownType "Missing"⟩ := by
    decide +kernel
  exact ⟨failed, load_error_line failed⟩

end NullWeave
