import Mathlib.Data.Finset.Card
import NullWeave.Proofs.Text.SupertypeCycles

/-!
# Ancestors and searches

The ancestors of a type are exactly the types that one or more steps to a
direct supertype reach from it.  A round of collecting them either adds a type
or changes nothing any more, so that there is nothing left to add after as many
rounds as the graph has types.

A search looks for a type with some property among the ancestors.  Where no
type reaches itself, every search comes to an end with the answer that the
ancestors give, whichever types it takes up first and however often ways of
different lengths lead it to the same type.
-/

namespace NullWeave

namespace Graph

variable {graph : Graph} {type other super : TypeId}
variable {found pending : List TypeId}

/-! ## Types that are reached -/

/-- Do any number of steps to a direct supertype lead from one of some types to another type? -/
def Reached (graph : Graph) (found : List TypeId) (other : TypeId) : Prop :=
  ∃ type ∈ found, Relation.ReflTransGen graph.IsAbove other type

@[simp]
theorem reached_cons : graph.Reached (type :: pending) other ↔
    Relation.ReflTransGen graph.IsAbove other type ∨ graph.Reached pending other := by
  simp [Reached]

@[simp]
theorem reached_append : graph.Reached (found ++ pending) other ↔
    graph.Reached found other ∨ graph.Reached pending other := by
  simp [Reached, or_and_right, exists_or]

/-- What the direct supertypes of a type reach, the type reaches by one step or more. -/
theorem reached_iff_transGen (all : ∀ super, super ∈ found ↔ graph.IsAbove super type) :
    graph.Reached found other ↔ Relation.TransGen graph.IsAbove other type := by
  rw [Relation.TransGen.tail'_iff]
  refine exists_congr fun super => ?_
  rw [all, and_comm]

theorem reflTransGen_iff_eq_or_reached (all : ∀ super, super ∈ found ↔ graph.IsAbove super type) :
    Relation.ReflTransGen graph.IsAbove other type ↔ other = type ∨ graph.Reached found other := by
  rw [reached_iff_transGen all, Relation.reflTransGen_iff_eq_or_transGen, eq_comm]

/-! ## Rounds -/

/-- Are the direct supertypes of some types among these types? -/
def ClosedAbove (graph : Graph) (found : List TypeId) : Prop :=
  ∀ type ∈ found, ∀ super, graph.IsAbove super type → super ∈ found

theorem mem_withSupertypes :
    other ∈ graph.withSupertypes found ↔
      other ∈ found ∨ ∃ type ∈ found, graph.IsAbove other type := by
  simp [withSupertypes, IsAbove]

/-- A round finds nothing that was out of reach before. -/
theorem reached_withSupertypes :
    graph.Reached (graph.withSupertypes found) other ↔ graph.Reached found other := by
  constructor
  · rintro ⟨super, member, reaches⟩
    rcases mem_withSupertypes.mp member with before | ⟨type, before, above⟩
    · exact ⟨super, before, reaches⟩
    · exact ⟨type, before, reaches.tail above⟩
  · rintro ⟨type, member, reaches⟩
    exact ⟨type, mem_withSupertypes.mpr (.inl member), reaches⟩

theorem reached_ancestorsAfter (rounds : Nat) :
    graph.Reached (graph.ancestorsAfter rounds found) other ↔ graph.Reached found other := by
  induction rounds generalizing found with
  | zero =>
      rfl
  | succ rounds inductionHypothesis =>
      rw [ancestorsAfter, inductionHypothesis, reached_withSupertypes]

/-- Types that hold their supertypes hold everything they reach. -/
theorem ClosedAbove.mem_iff_reached (closed : graph.ClosedAbove found) :
    other ∈ found ↔ graph.Reached found other := by
  refine ⟨fun member => ⟨other, member, .refl⟩, ?_⟩
  rintro ⟨type, member, reaches⟩
  induction reaches using Relation.ReflTransGen.head_induction_on with
  | refl =>
      exact member
  | head above _ inductionHypothesis =>
      exact closed _ inductionHypothesis _ above

theorem ClosedAbove.withSupertypes (closed : graph.ClosedAbove found) :
    graph.ClosedAbove (graph.withSupertypes found) := by
  have same (other : TypeId) : other ∈ graph.withSupertypes found ↔ other ∈ found := by
    rw [mem_withSupertypes, or_iff_left_iff_imp]
    rintro ⟨type, member, above⟩
    exact closed type member other above
  intro type member super above
  exact (same super).mpr (closed type ((same type).mp member) super above)

theorem ClosedAbove.ancestorsAfter (closed : graph.ClosedAbove found) (rounds : Nat) :
    graph.ClosedAbove (graph.ancestorsAfter rounds found) := by
  induction rounds generalizing found with
  | zero =>
      exact closed
  | succ rounds inductionHypothesis =>
      exact inductionHypothesis closed.withSupertypes

/-- A round that leaves a supertype to be found finds more types than there were. -/
theorem card_lt_card_withSupertypes (opened : ¬ graph.ClosedAbove found) :
    found.toFinset.card < (graph.withSupertypes found).toFinset.card := by
  simp only [ClosedAbove, not_forall] at opened
  obtain ⟨type, member, super, above, missing⟩ := opened
  refine Finset.card_lt_card ⟨fun other before => ?_, fun within => missing ?_⟩
  · exact List.mem_toFinset.mpr (mem_withSupertypes.mpr (.inl (List.mem_toFinset.mp before)))
  · have added := mem_withSupertypes.mpr (.inr ⟨type, member, above⟩)
    exact List.mem_toFinset.mp (within (List.mem_toFinset.mpr added))

/-- With a round for every type that is not found yet, all that is in reach is found. -/
theorem TypesNamed.closedAbove_ancestorsAfter (named : graph.TypesNamed) {rounds : Nat}
    (known : ∀ type ∈ found, graph.HasType type)
    (enough : graph.types.size ≤ rounds + found.toFinset.card) :
    graph.ClosedAbove (graph.ancestorsAfter rounds found) := by
  induction rounds generalizing found with
  | zero =>
      have inside : found.toFinset ⊆ graph.typeIds.toFinset := fun type member =>
        List.mem_toFinset.mpr (mem_typeIds.mpr (known type (List.mem_toFinset.mp member)))
      have all : graph.typeIds.toFinset.card ≤ found.toFinset.card := by
        refine graph.typeIds.toFinset_card_le.trans ?_
        simpa [typeIds] using enough
      have full := Finset.eq_of_subset_of_card_le inside all
      intro type member super above
      have supertype := mem_typeIds.mpr (named.hasType_of_isAbove above)
      exact List.mem_toFinset.mp (full ▸ List.mem_toFinset.mpr supertype)
  | succ rounds inductionHypothesis =>
      by_cases closed : graph.ClosedAbove found
      · exact closed.ancestorsAfter _
      · have more := card_lt_card_withSupertypes closed
        refine inductionHypothesis (fun type member => ?_) (by omega)
        rcases mem_withSupertypes.mp member with before | ⟨lower, _, above⟩
        · exact known type before
        · exact named.hasType_of_isAbove above

/-- The ancestors of a type are what one step or more to a direct supertype reaches from it. -/
theorem TypesNamed.mem_ancestors_iff (named : graph.TypesNamed) :
    other ∈ graph.ancestors type ↔ Relation.TransGen graph.IsAbove other type := by
  have closed : graph.ClosedAbove (graph.ancestors type) :=
    named.closedAbove_ancestorsAfter (fun _ above => named.hasType_of_isAbove above)
      (Nat.le_add_right _ _)
  rw [closed.mem_iff_reached, ancestors, reached_ancestorsAfter, reached_iff_transGen]
  exact fun _ => Iff.rfl

theorem TypesNamed.isSubtypeOf_eq_true_iff (named : graph.TypesNamed) :
    graph.isSubtypeOf type other = true ↔
      ∃ ancestor, Relation.ReflTransGen graph.IsAbove ancestor type ∧
        graph.sameType ancestor other = true := by
  simp only [isSubtypeOf, List.any_eq_true, List.mem_cons, named.mem_ancestors_iff,
    Relation.reflTransGen_iff_eq_or_transGen, @eq_comm TypeId type]

/-- A type is a subtype of the types it reaches, itself among them. -/
theorem TypesNamed.isSubtypeOf_iff (named : graph.TypesNamed) (known : graph.HasType type)
    (knownToo : graph.HasType other) :
    graph.isSubtypeOf type other = true ↔ Relation.ReflTransGen graph.IsAbove other type := by
  rw [named.isSubtypeOf_eq_true_iff]
  constructor
  · rintro ⟨ancestor, reaches, same⟩
    have knownAncestor : graph.HasType ancestor := by
      rcases Relation.ReflTransGen.cases_head reaches with rfl | ⟨_, above, _⟩
      · exact known
      · exact named.hasType_of_isAbove above
    rwa [← (named.sameType_iff knownAncestor knownToo).mp same]
  · exact fun reaches => ⟨other, reaches, beq_self_eq_true _⟩

/--
Is a type visible from outside, and does it declare a public method with the name of another
method and with parameters of the same full names?
-/
def Offers (graph : Graph) (super : TypeId) (decl : MethodDecl) : Prop :=
  graph.isVisible super = true ∧
    ∃ method ∈ graph.methodsOf super,
      (graph.method method).access.isPublic = true ∧ (graph.method method).name = decl.name ∧
        graph.parameterNames (graph.method method) = graph.parameterNames decl

theorem offersPublicly_iff {decl : MethodDecl} :
    graph.offersPublicly super decl = true ↔ graph.Offers super decl := by
  simp only [offersPublicly, sameMethodSignature, Offers, Bool.and_eq_true, List.any_eq_true,
    beq_iff_eq]

theorem TypesNamed.implementsPublicMember_iff (named : graph.TypesNamed) {decl : MethodDecl} :
    graph.implementsPublicMember decl = true ↔
      decl.access.isVirtual = true ∧
        ∃ super, Relation.TransGen graph.IsAbove super decl.owner ∧ graph.Offers super decl := by
  simp only [implementsPublicMember, Bool.and_eq_true, List.any_eq_true, named.mem_ancestors_iff,
    offersPublicly_iff]

/-! ## Searches with an answer -/

/--
Does a search for a type with some property come to an end with an answer, when it still has to
look at some types?

It ends at the first type it looks at that has the property, and when nothing is left.  The
supertypes of a type that does not have it may be taken up in any order, and whichever that is,
the search comes to the same end.
-/
inductive Answers (graph : Graph) (property : TypeId → Bool) : List TypeId → Bool → Prop where
  | nothingLeft : Answers graph property [] false
  | found {type : TypeId} {pending : List TypeId} :
      property type = true → Answers graph property (type :: pending) true
  | goOn {type : TypeId} {pending : List TypeId} {answer : Bool} :
      property type = false →
      (∀ found, found.Perm (graph.supertypes type) →
        Answers graph property (found ++ pending) answer) →
      Answers graph property (type :: pending) answer

variable {property : TypeId → Bool} {answer : Bool}

/-- A search may go on with the supertypes of a type that does not have the property. -/
theorem exists_reached_iff_of_lacks (lacks : property type = false)
    (order : found.Perm (graph.supertypes type)) :
    (∃ other, graph.Reached (type :: pending) other ∧ property other = true) ↔
      ∃ other, graph.Reached (found ++ pending) other ∧ property other = true := by
  refine exists_congr fun other => ?_
  rw [reached_append, reached_cons, reflTransGen_iff_eq_or_reached fun super => order.mem_iff]
  constructor
  · rintro ⟨(rfl | above) | later, holds⟩
    · rw [lacks] at holds
      cases holds
    · exact ⟨.inl above, holds⟩
    · exact ⟨.inr later, holds⟩
  · exact fun ⟨reached, holds⟩ => ⟨reached.imp_left .inr, holds⟩

/-- A search that comes to an end has found out whether a type in reach has the property. -/
theorem Answers.answer_iff (answers : graph.Answers property pending answer) :
    answer = true ↔ ∃ other, graph.Reached pending other ∧ property other = true := by
  induction answers with
  | nothingLeft =>
      simp [Reached]
  | found here =>
      exact iff_of_true rfl ⟨_, reached_cons.mpr (.inl .refl), here⟩
  | goOn lacks _ inductionHypothesis =>
      rw [exists_reached_iff_of_lacks lacks (.refl _), inductionHypothesis _ (.refl _)]

/-- A search that ends even if it finds nothing ends with the right answer. -/
theorem SearchEnds.answers (ends : graph.SearchEnds pending)
    (right : answer = true ↔ ∃ other, graph.Reached pending other ∧ property other = true) :
    graph.Answers property pending answer := by
  induction ends with
  | done =>
      have none : answer = false := by simpa [Reached] using right
      rw [none]
      exact .nothingLeft
  | @look type pending _ inductionHypothesis =>
      cases here : property type with
      | true =>
          rw [right.mpr ⟨type, reached_cons.mpr (.inl .refl), here⟩]
          exact .found here
      | false =>
          refine .goOn here fun found order => inductionHypothesis found order ?_
          rw [right, exists_reached_iff_of_lacks here order]

theorem Acyclic.searchEnds (acyclic : graph.Acyclic) (named : graph.TypesNamed)
    (pending : List TypeId) : graph.SearchEnds pending := by
  induction pending with
  | nil =>
      exact .done
  | cons type pending inductionHypothesis =>
      exact .cons_of_acc ((acyclic.wellFounded named).apply type) inductionHypothesis

/-- Where no type reaches itself, searches end with the answer that reachability gives. -/
theorem Acyclic.answers_iff (acyclic : graph.Acyclic) (named : graph.TypesNamed) {right : Bool}
    (decides : right = true ↔ ∃ other, graph.Reached pending other ∧ property other = true) :
    graph.Answers property pending answer ↔ answer = right := by
  constructor
  · exact fun answers => Bool.eq_iff_iff.mpr (answers.answer_iff.trans decides.symm)
  · rintro rfl
    exact (acyclic.searchEnds named pending).answers decides

/-! ## The searches of a graph -/

/--
Do the two searches upwards compute what is reached, and come to an end with it?

One looks for a type from another one on.  One looks for a type that offers a virtual method, from
the supertypes of its owner on.
-/
structure SearchesReach (graph : Graph) : Prop where
  isSubtypeOf_iff : ∀ type other, graph.HasType type → graph.HasType other →
    (graph.isSubtypeOf type other = true ↔ Relation.ReflTransGen graph.IsAbove other type)
  isSubtypeOf_self : ∀ type, graph.isSubtypeOf type type = true
  isSubtypeOf_trans : ∀ lower type upper, graph.HasType lower → graph.HasType type →
    graph.HasType upper → graph.isSubtypeOf lower type = true →
      graph.isSubtypeOf type upper = true → graph.isSubtypeOf lower upper = true
  implementsPublicMember_iff : ∀ decl : MethodDecl,
    graph.implementsPublicMember decl = true ↔
      decl.access.isVirtual = true ∧
        ∃ super, Relation.TransGen graph.IsAbove super decl.owner ∧ graph.Offers super decl
  answers_isSubtypeOf : ∀ type other answer,
    graph.Answers (fun ancestor => graph.sameType ancestor other) [type] answer ↔
      answer = graph.isSubtypeOf type other
  answers_implementsPublicMember : ∀ (decl : MethodDecl) (pending : List TypeId),
    decl.access.isVirtual = true → pending.Perm (graph.supertypes decl.owner) → ∀ answer,
      (graph.Answers (fun super => graph.offersPublicly super decl) pending answer ↔
        answer = graph.implementsPublicMember decl)

theorem isSubtypeOf_self (graph : Graph) (type : TypeId) : graph.isSubtypeOf type type = true := by
  simp [isSubtypeOf, sameType]

end Graph

/-- In a loaded graph without circles of supertypes, the searches upwards decide reachability. -/
theorem Program.FromTexts.searchesReach {program : Program} (fromTexts : program.FromTexts)
    (acyclic : program.graph.Acyclic) : program.graph.SearchesReach := by
  have named := fromTexts.typesNamed
  constructor
  case isSubtypeOf_iff =>
    exact fun type other => named.isSubtypeOf_iff
  case isSubtypeOf_self =>
    exact program.graph.isSubtypeOf_self
  case isSubtypeOf_trans =>
    intro lower type upper knownLower known knownUpper first second
    rw [named.isSubtypeOf_iff knownLower known] at first
    rw [named.isSubtypeOf_iff known knownUpper] at second
    exact (named.isSubtypeOf_iff knownLower knownUpper).mpr (second.trans first)
  case implementsPublicMember_iff =>
    exact fun decl => named.implementsPublicMember_iff
  case answers_isSubtypeOf =>
    refine fun type other answer => acyclic.answers_iff named ?_
    simp only [named.isSubtypeOf_eq_true_iff, Graph.Reached, List.mem_singleton, exists_eq_left]
  case answers_implementsPublicMember =>
    refine fun decl pending isVirtual order answer => acyclic.answers_iff named ?_
    simp only [named.implementsPublicMember_iff, isVirtual, true_and, Graph.offersPublicly_iff,
      Graph.reached_iff_transGen fun super => order.mem_iff]

/-! ## Two ways to one interface -/

/--
A class that names an interface which the class that it extends names too.  The interface offers
the method that the class declares.
-/
def Program.twoWaysText : String :=
  ".interface public I\n.method public virtual abstract void M()\n.end\n.end\n" ++
    ".class public B implements I\n.end\n" ++
    ".class C : B implements I\n.method public virtual abstract void M()\n.end\n.end\n"

/-- The searches from the class end at the interface, and the one back does not. -/
theorem Program.searchesReach_twoWays :
    let loaded := (Program.initial.load twoWaysText).2.graph
    (Program.initial.load twoWaysText).1 = .ok { types := [⟨17⟩, ⟨18⟩, ⟨19⟩] } ∧
      loaded.isSubtypeOf ⟨19⟩ ⟨17⟩ = true ∧ loaded.isSubtypeOf ⟨17⟩ ⟨19⟩ = false ∧
        loaded.implementsPublicMember (loaded.method ⟨14⟩) = true ∧
          loaded.Acyclic ∧ loaded.SearchesReach := by
  intro loaded
  have checked : (Program.initial.load twoWaysText).1 =
        .ok { types := [⟨17⟩, ⟨18⟩, ⟨19⟩] } ∧
      loaded.isSubtypeOf ⟨19⟩ ⟨17⟩ = true ∧ loaded.isSubtypeOf ⟨17⟩ ⟨19⟩ = false ∧
        loaded.implementsPublicMember (loaded.method ⟨14⟩) = true ∧
          ∀ index < loaded.types.size, ∀ super ∈ loaded.supertypes ⟨index⟩,
            super.index < index := by
    decide +kernel
  obtain ⟨accepted, upwards, back, implements, before⟩ := checked
  have acyclic := Graph.acyclic_of_index_lt before
  exact ⟨accepted, upwards, back, implements, acyclic,
    (FromTexts.initial.load twoWaysText).searchesReach acyclic⟩

end NullWeave
