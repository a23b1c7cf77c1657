import Mathlib.Data.Fintype.EquivFin
import Mathlib.Data.List.Perm.Subperm
import Mathlib.Order.WellFounded
import NullWeave.Proofs.Text.TypeNames

/-!
# Supertypes without cycles

Types are searched upwards: a search looks at a type, goes on with what it
extends and names as interfaces, and is over when nothing is left to look at.
Nothing but the supertypes themselves bounds such a search.  It comes to an end
from every type exactly if no type reaches itself, and then the types that a
type extends, one after another, lead to one that extends nothing.
-/

namespace NullWeave

namespace Graph

variable {graph : Graph}

/-- Is a type a direct supertype of another one? -/
def IsAbove (graph : Graph) (super type : TypeId) : Prop := super ∈ graph.supertypes type

/-- Does no type reach itself by steps to a direct supertype? -/
def Acyclic (graph : Graph) : Prop := ∀ type, ¬ Relation.TransGen graph.IsAbove type type

/--
Does a search come to an end that still has to look at some types?

The supertypes of the type that is looked at may be taken up in any order.
-/
inductive SearchEnds (graph : Graph) : List TypeId → Prop where
  | done : SearchEnds graph []
  | look {type : TypeId} {pending : List TypeId} :
      (∀ found, found.Perm (graph.supertypes type) → SearchEnds graph (found ++ pending)) →
      SearchEnds graph (type :: pending)

/-! ## Steps upwards -/

theorem supertypes_of_not_hasType {type : TypeId} (unknown : ¬ graph.HasType type) :
    graph.supertypes type = [] := by
  have outside : graph.types.size ≤ type.index := Nat.not_lt.mp unknown
  have empty : graph.type type = default := by simp [Graph.type, outside]
  rw [supertypes, empty]
  rfl

theorem IsAbove.hasType_right {super type : TypeId} (above : graph.IsAbove super type) :
    graph.HasType type := by
  by_contra unknown
  rw [IsAbove, supertypes_of_not_hasType unknown] at above
  cases above

theorem TypesNamed.hasType_of_isAbove (named : graph.TypesNamed) {super type : TypeId}
    (above : graph.IsAbove super type) : graph.HasType super := by
  have known := above.hasType_right
  rcases List.mem_append.mp above with interface | base
  · exact named.interfaces type known super interface
  · exact named.base type known super (Option.mem_toList.mp base)

/-- Where no type reaches itself, every way upwards comes to an end. -/
theorem Acyclic.wellFounded (acyclic : graph.Acyclic) (named : graph.TypesNamed) :
    WellFounded graph.IsAbove := by
  let reaches (upper lower : Fin graph.types.size) : Prop :=
    Relation.TransGen graph.IsAbove ⟨upper⟩ ⟨lower⟩
  have transitive : IsTrans (Fin graph.types.size) reaches :=
    ⟨fun _ _ _ first second => Relation.TransGen.trans first second⟩
  have irreflexive : Std.Irrefl reaches := ⟨fun index => acyclic ⟨index⟩⟩
  have finite : WellFounded reaches := Finite.wellFounded_of_trans_of_irrefl reaches
  have known (index : Fin graph.types.size) : Acc graph.IsAbove ⟨index⟩ := by
    induction index using finite.induction with
    | _ index inductionHypothesis =>
        refine .intro _ fun super above => ?_
        exact inductionHypothesis ⟨super.index, named.hasType_of_isAbove above⟩ (.single above)
  refine ⟨fun type => ?_⟩
  by_cases inside : graph.HasType type
  · exact known ⟨type.index, inside⟩
  · exact .intro _ fun super above => absurd above.hasType_right inside

/-- A type from which every way upwards comes to an end does not reach itself. -/
theorem not_transGen_of_acc {type : TypeId} (accessible : Acc graph.IsAbove type) :
    ¬ Relation.TransGen graph.IsAbove type type := by
  intro circle
  induction accessible.transGen with
  | intro type _ inductionHypothesis =>
      exact inductionHypothesis type circle (accessible.inv_of_transGen circle) circle

theorem acyclic_of_wellFounded (wellFounded : WellFounded graph.IsAbove) : graph.Acyclic :=
  fun type => not_transGen_of_acc (wellFounded.apply type)

/-- No type reaches itself if the supertypes of every type come before it. -/
theorem acyclic_of_index_lt
    (before : ∀ index < graph.types.size, ∀ super ∈ graph.supertypes ⟨index⟩,
      super.index < index) : graph.Acyclic := by
  have descends {super type : TypeId} (above : graph.IsAbove super type) :
      super.index < type.index :=
    before type.index above.hasType_right super above
  refine acyclic_of_wellFounded (Subrelation.wf descends ?_)
  exact InvImage.wf TypeId.index Nat.lt_wfRel.wf

/-! ## Searches -/

/-- A search goes on after it has looked at everything above a type. -/
theorem SearchEnds.cons_of_acc {type : TypeId} (accessible : Acc graph.IsAbove type)
    {pending : List TypeId} (ends : graph.SearchEnds pending) :
    graph.SearchEnds (type :: pending) := by
  induction accessible generalizing pending with
  | intro type _ inductionHypothesis =>
      refine .look fun found order => ?_
      have above : ∀ super ∈ found, graph.IsAbove super type :=
        fun super member => order.mem_iff.mp member
      clear order
      induction found with
      | nil =>
          exact ends
      | cons super rest restHypothesis =>
          obtain ⟨here, later⟩ := List.forall_mem_cons.mp above
          exact inductionHypothesis super here (restHypothesis later)

theorem SearchEnds.acc {pending : List TypeId} (ends : graph.SearchEnds pending) :
    ∀ type ∈ pending, Acc graph.IsAbove type := by
  induction ends with
  | done =>
      exact List.forall_mem_nil _
  | look _ inductionHypothesis =>
      have all := inductionHypothesis _ (.refl _)
      obtain ⟨above, pending⟩ := List.forall_mem_append.mp all
      exact List.forall_mem_cons.mpr ⟨.intro _ above, pending⟩

/-- Searches come to an end from every type exactly if no type reaches itself. -/
theorem TypesNamed.acyclic_iff_searchEnds (named : graph.TypesNamed) :
    graph.Acyclic ↔ ∀ type, graph.SearchEnds [type] := by
  constructor
  · intro acyclic type
    exact .cons_of_acc ((acyclic.wellFounded named).apply type) .done
  · intro ends
    exact acyclic_of_wellFounded
      ⟨fun type => (ends type).acc type (List.mem_singleton_self type)⟩

/-! ## Chains of extended types -/

theorem mem_baseChainWithin {steps : Nat} {type other : TypeId}
    (member : other ∈ graph.baseChainWithin steps type) :
    Relation.ReflTransGen graph.IsAbove other type := by
  induction steps generalizing type with
  | zero =>
      cases member
  | succ steps inductionHypothesis =>
      rcases List.mem_cons.mp member with rfl | further
      · exact .refl
      · cases extended : (graph.type type).base with
        | none =>
            rw [extended] at further
            cases further
        | some base =>
            rw [extended] at further
            have above : graph.IsAbove base type :=
              List.mem_append_right _ (Option.mem_toList.mpr extended)
            exact (inductionHypothesis further).tail above

/-- In a chain of extended types, the later ones are reached from the earlier ones. -/
theorem pairwise_baseChainWithin (graph : Graph) (steps : Nat) (type : TypeId) :
    (graph.baseChainWithin steps type).Pairwise fun lower upper =>
      Relation.TransGen graph.IsAbove upper lower := by
  induction steps generalizing type with
  | zero =>
      exact .nil
  | succ steps inductionHypothesis =>
      rw [baseChainWithin]
      cases extended : (graph.type type).base with
      | none =>
          exact List.pairwise_singleton _ _
      | some base =>
          have above : graph.IsAbove base type :=
            List.mem_append_right _ (Option.mem_toList.mpr extended)
          exact .cons (fun upper member => .tail' (mem_baseChainWithin member) above)
            (inductionHypothesis base)

/-- A chain goes on for as many steps as it may while every type extends another one. -/
theorem length_baseChainWithin {steps : Nat} {type : TypeId}
    (onwards : ∀ lower ∈ graph.baseChainWithin steps type, (graph.type lower).base ≠ none) :
    (graph.baseChainWithin (steps + 1) type).length = steps + 1 := by
  induction steps generalizing type with
  | zero =>
      rw [baseChainWithin]
      cases (graph.type type).base <;> rfl
  | succ steps inductionHypothesis =>
      rw [baseChainWithin] at onwards ⊢
      obtain ⟨here, later⟩ := List.forall_mem_cons.mp onwards
      obtain ⟨base, extended⟩ := Option.ne_none_iff_exists'.mp here
      rw [extended] at later ⊢
      rw [List.length_cons, inductionHypothesis later]

/-- Where no type reaches itself, a chain of extended types leads to one that extends nothing. -/
theorem Acyclic.exists_top_mem_baseChain (acyclic : graph.Acyclic) (named : graph.TypesNamed)
    {type : TypeId} (known : graph.HasType type) :
    ∃ top ∈ graph.baseChain type, (graph.type top).base = none := by
  by_contra onwards
  push Not at onwards
  have length := length_baseChainWithin onwards
  have distinct : (graph.baseChainWithin (graph.types.size + 1) type).Nodup :=
    (graph.pairwise_baseChainWithin _ type).imp fun {lower upper} above same => by
      rw [same] at above
      exact acyclic upper above
  have inside : graph.baseChainWithin (graph.types.size + 1) type ⊆ graph.typeIds := by
    intro other member
    rw [mem_typeIds]
    rcases Relation.ReflTransGen.cases_head (mem_baseChainWithin member) with rfl | ⟨_, above, _⟩
    · exact known
    · exact named.hasType_of_isAbove above
  have bound := (List.subperm_of_subset distinct inside).length_le
  rw [length, typeIds, List.length_map, List.length_range] at bound
  exact Nat.not_succ_le_self _ bound

end Graph

end NullWeave
