import NullWeave.Proofs.Graph.Acyclic
import NullWeave.Proofs.Graph.Consistency
import NullWeave.Proofs.Text.LoadingResults

/-!
# Cycles of supertypes in loaded programs

Loading looks up what a type extends and checks that what it names as an
interface is one, and that is all: a text in which types extend each other in a
circle is accepted.  Searches upwards never end in what it leaves.  A text cannot
break what was there before, though: earlier types keep their supertypes, so a
new circle runs through the types of the text alone.
-/

namespace NullWeave

namespace Graph

/-- Is a type above another one, both of them among some types? -/
def IsAboveAmong (graph : Graph) (types : List TypeId) (super type : TypeId) : Prop :=
  graph.IsAbove super type ∧ super ∈ types ∧ type ∈ types

end Graph

namespace Program

variable {program : Program} {source : String} {module : Module}

/-- The types of a text are those that were not there before. -/
theorem Named.mem_types_iff (named : program.Named)
    (loaded : (program.load source).1 = .ok module) (type : TypeId) :
    type ∈ module.types ↔
      (program.load source).2.graph.HasType type ∧ ¬ program.graph.HasType type := by
  unfold load at loaded ⊢
  cases read : readModule source with
  | error error =>
      rw [read] at loaded
      cases loaded
  | ok texts =>
      rw [read] at loaded
      dsimp only at loaded ⊢
      have ran : (Loading.loadTypes texts).run program =
          (.ok module, ((Loading.loadTypes texts).run program).2) := Prod.ext loaded rfl
      obtain ⟨loads, -, rfl, left⟩ := (Loading.loadTypes_eq_ok_iff named).mp ran
      rw [left, loads.graph_reached]
      exact loads.mem_module_types_iff

/-- A way upwards from an earlier type leads through earlier types, as it did before. -/
theorem StaysIn.transGen_isAbove {reached : Program} (stays : program.StaysIn reached)
    (named : program.graph.TypesNamed) {super type : TypeId}
    (known : program.graph.HasType type)
    (reaches : Relation.TransGen reached.graph.IsAbove super type) :
    Relation.TransGen program.graph.IsAbove super type ∧ program.graph.HasType super := by
  have before {super type : TypeId} (known : program.graph.HasType type)
      (above : reached.graph.IsAbove super type) :
      program.graph.IsAbove super type ∧ program.graph.HasType super := by
    rw [Graph.IsAbove, Graph.supertypes, (stays.type type known).2] at above
    exact ⟨above, named.hasType_of_isAbove above⟩
  induction reaches using Relation.TransGen.head_induction_on with
  | single above =>
      obtain ⟨above, known⟩ := before known above
      exact ⟨.single above, known⟩
  | head above _ inductionHypothesis =>
      obtain ⟨above, known⟩ := before inductionHypothesis.2 above
      exact ⟨.head above inductionHypothesis.1, known⟩

/-- A circle through a type of a text runs through types of the text alone. -/
theorem Named.transGen_isAboveAmong (named : program.Named)
    (loaded : (program.load source).1 = .ok module) {type other : TypeId}
    (new : type ∈ module.types)
    (reaches : Relation.TransGen (program.load source).2.graph.IsAbove type other) :
    Relation.TransGen
      ((program.load source).2.graph.IsAboveAmong module.types) type other := by
  have notBefore := ((named.mem_types_iff loaded type).mp new).2
  have among {other : TypeId}
      (reaches : Relation.TransGen (program.load source).2.graph.IsAbove type other) :
      other ∈ module.types := by
    refine (named.mem_types_iff loaded other).mpr ⟨?_, fun known => ?_⟩
    · obtain ⟨_, _, above⟩ := Relation.TransGen.tail'_iff.mp reaches
      exact above.hasType_right
    · exact notBefore
        ((staysIn_load program source).transGen_isAbove named.types known reaches).2
  induction reaches with
  | single above =>
      exact .single ⟨above, new, among (.single above)⟩
  | tail reaches above inductionHypothesis =>
      exact .tail inductionHypothesis ⟨above, among reaches, among (.tail reaches above)⟩

/--
What an accepted text leaves has no circle of supertypes exactly if the types of the text
close none among themselves.  Exactly then all searches upwards come to an end, and then every
chain of extended types leads to a type that extends nothing.
-/
theorem FromTexts.acyclic_load_iff (fromTexts : program.FromTexts)
    (acyclic : program.graph.Acyclic) (loaded : (program.load source).1 = .ok module) :
    ((program.load source).2.graph.Acyclic ↔
      ∀ type, ¬ Relation.TransGen
        ((program.load source).2.graph.IsAboveAmong module.types) type type) ∧
    ((program.load source).2.graph.Acyclic ↔
      ∀ type, (program.load source).2.graph.SearchEnds [type]) ∧
    ((program.load source).2.graph.Acyclic →
      ∀ type, (program.load source).2.graph.HasType type →
        ∃ top ∈ (program.load source).2.graph.baseChain type,
          ((program.load source).2.graph.type top).base = none) := by
  have named := fromTexts.named
  have reachedNamed := (fromTexts.load source).named.types
  refine ⟨⟨fun none type circle => ?_, fun none type circle => ?_⟩,
    reachedNamed.acyclic_iff_searchEnds,
    fun none type known => none.exists_top_mem_baseChain reachedNamed known⟩
  · exact none type (Relation.TransGen.mono (fun _ _ above => above.1) _ _ circle)
  · by_cases known : program.graph.HasType type
    · have before := (staysIn_load program source).transGen_isAbove named.types known circle
      exact acyclic type before.1
    · obtain ⟨_, _, above⟩ := Relation.TransGen.tail'_iff.mp circle
      have new := (named.mem_types_iff loaded type).mpr ⟨above.hasType_right, known⟩
      exact none type (named.transGen_isAboveAmong loaded new circle)

end Program

/-! ## A text with a circle and one without -/

/-- The types of the system library extend types that come before them. -/
theorem Graph.acyclic_system : Graph.system.Acyclic :=
  Graph.acyclic_of_index_lt (by decide +kernel)

namespace Program

theorem acyclic_load_iff_box :
    Program.initial.graph.Acyclic ∧
      (Program.initial.load ".class public Box : object\n.end\n").1 = .ok { types := [⟨17⟩] } ∧
        ((Program.initial.load ".class public Box : object\n.end\n").2.graph.Acyclic ↔
          ∀ type, (Program.initial.load
            ".class public Box : object\n.end\n").2.graph.SearchEnds [type]) := by
  have loaded : (Program.initial.load ".class public Box : object\n.end\n").1 =
      .ok { types := [⟨17⟩] } := by
    decide +kernel
  exact ⟨Graph.acyclic_system, loaded,
    (FromTexts.initial.acyclic_load_iff Graph.acyclic_system loaded).2.1⟩

/-- Two classes each of which extends the other one. -/
def circularText : String := ".class public A : B\n.end\n.class public B : A\n.end\n"

/-- The two classes are accepted, each reaches itself, and a search from them never ends. -/
theorem not_acyclic_circular :
    (Program.initial.load circularText).1 = .ok { types := [⟨17⟩, ⟨18⟩] } ∧
      Relation.TransGen (Program.initial.load circularText).2.graph.IsAbove ⟨17⟩ ⟨17⟩ ∧
        ¬ (Program.initial.load circularText).2.graph.SearchEnds [⟨17⟩] := by
  have checked : (Program.initial.load circularText).1 = .ok { types := [⟨17⟩, ⟨18⟩] } ∧
      (Program.initial.load circularText).2.graph.supertypes ⟨17⟩ = [⟨18⟩] ∧
        (Program.initial.load circularText).2.graph.supertypes ⟨18⟩ = [⟨17⟩] := by
    decide +kernel
  obtain ⟨accepted, first, second⟩ := checked
  have circle : Relation.TransGen (Program.initial.load circularText).2.graph.IsAbove
      ⟨17⟩ ⟨17⟩ := by
    refine Relation.TransGen.tail (Relation.TransGen.single (show _ ∈ _ from ?_))
      (show (⟨18⟩ : TypeId) ∈ _ from ?_)
    · rw [second]
      exact List.mem_singleton_self _
    · rw [first]
      exact List.mem_singleton_self _
  exact ⟨accepted, circle, fun ends =>
    Graph.not_transGen_of_acc (ends.acc _ (List.mem_singleton_self _)) circle⟩

end Program

end NullWeave
