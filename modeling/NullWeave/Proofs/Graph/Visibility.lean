import NullWeave.Proofs.Text.LoadingSteps
import NullWeave.Proofs.Weave.Run

/-!
# Types that can be seen from outside

Going outwards from a type, a public type is met behind nested public ones only:
then the type can be seen from outside.  What stands around the public type does
not matter, and a text may declare a nested type public.  So a type that can be
seen may lie in one that cannot.  Where only types that nothing encloses are
public, all types around a visible one are visible too, and without the flag for
other methods nothing is woven inside a type that cannot be seen, but what
implements a public member.
-/

namespace NullWeave

namespace Graph

variable {graph grown : Graph}

/-! ## The types around a type -/

/-- Do the types around a type go on with those around the innermost one? -/
def Nests (graph : Graph) : Prop :=
  ∀ type, graph.HasType type → graph.Encloses (graph.type type).enclosing

theorem nests_system : system.Nests := by
  have outermost : ∀ index < system.types.size, (system.type ⟨index⟩).enclosing = [] := by
    decide
  intro type known outer around
  rw [outermost type.index known] at around
  cases around

/-- A graph that grows by no type nests its types as before. -/
theorem Nests.of_growsTo (nests : graph.Nests) (grows : graph.GrowsTo grown)
    (size : grown.types.size = graph.types.size) : grown.Nests := by
  intro type known
  have old : graph.HasType type := by rwa [HasType, size] at known
  rw [grows.enclosing type old]
  exact (nests type old).grows grows

theorem Nests.addType (nests : graph.Nests) {enclosing : List TypeId} {header : TypeHeader}
    (encloses : graph.Encloses enclosing) :
    (graph.addType (Loading.typeDecl enclosing header)).1.Nests := by
  have grows := GrowsTo.addType graph (Loading.typeDecl enclosing header)
  intro type known
  have bound : type.index < graph.types.size + 1 := by
    simpa [HasType, Graph.addType] using known
  rcases Nat.lt_succ_iff_lt_or_eq.mp bound with old | new
  · rw [grows.enclosing type old]
    exact (nests type old).grows grows
  · obtain rfl : type = (graph.addType (Loading.typeDecl enclosing header)).2 :=
      congrArg TypeId.mk new
    rw [graph.type_addType_self, Loading.enclosing_typeDecl]
    exact encloses.grows grows

end Graph

theorem Program.FromTexts.nests {program : Program} (fromTexts : program.FromTexts) :
    program.graph.Nests := by
  refine fromTexts.kept (fun program => program.graph.Nests) ?_ Graph.nests_system
  intro start program reached step nests
  have grows := step.growsTo
  cases step with
  | addType _ encloses _ _ =>
      exact nests.addType encloses
  | setDefaultBase _ _ | setBase _ _ =>
      exact nests.of_growsTo grows (by simp [Graph.setBase])
  | addInterface _ _ =>
      exact nests.of_growsTo grows (by simp [Graph.addInterface])
  | addField _ _ _ _ _ | addMethod _ _ _ _ _ | setBody _ _ _ _ =>
      exact nests.of_growsTo grows rfl

namespace Graph

variable {graph : Graph} {type : TypeId}

/-- Behind a type of those around another one stand those around that type. -/
theorem Nests.enclosing_eq (nests : graph.Nests) (known : graph.HasType type)
    {inside outside : List TypeId} {part : TypeId}
    (split : type :: (graph.type type).enclosing = inside ++ part :: outside) :
    graph.HasType part ∧ (graph.type part).enclosing = outside := by
  induction inside generalizing type with
  | nil =>
      cases split
      exact ⟨known, rfl⟩
  | cons first rest inductionHypothesis =>
      rw [List.cons_append, List.cons.injEq] at split
      obtain ⟨-, around⟩ := split
      have inner : ∃ outer, (graph.type type).enclosing =
          outer :: (graph.type outer).enclosing ∧ graph.HasType outer := by
        have encloses := nests type known
        cases parts : (graph.type type).enclosing with
        | nil =>
            rw [parts] at around
            simp at around
        | cons outer others =>
            rw [parts] at encloses
            obtain ⟨knownOuter, tail⟩ := encloses outer rfl
            exact ⟨outer, congrArg (outer :: ·) tail, knownOuter⟩
      obtain ⟨outer, parts, knownOuter⟩ := inner
      exact inductionHypothesis knownOuter (parts ▸ around)

/-! ## What can be seen -/

/-- Is a type public, and does it stand around another one with nested public ones between? -/
structure Exposes (graph : Graph) (inside : List TypeId) (part : TypeId) : Prop where
  isPublic : (graph.type part).access.isPublic = true
  nestedPublic : ∀ inner ∈ inside, (graph.type inner).access.nestedPublic = true

theorem isVisibleWithin_iff {type : TypeId} {enclosing : List TypeId} :
    graph.isVisibleWithin type enclosing = true ↔
      ∃ inside part outside,
        type :: enclosing = inside ++ part :: outside ∧ graph.Exposes inside part := by
  induction enclosing generalizing type with
  | nil =>
      rw [isVisibleWithin]
      constructor
      · intro isPublic
        exact ⟨[], type, [], rfl, isPublic, List.forall_mem_nil _⟩
      · rintro ⟨inside, part, outside, split, exposes⟩
        obtain ⟨rfl, same⟩ := List.append_eq_cons_iff.mp split.symm |>.resolve_right
          (by rintro ⟨_, -, none⟩; simp at none)
        cases same
        exact exposes.isPublic
  | cons outer rest inductionHypothesis =>
      rw [isVisibleWithin, Bool.or_eq_true, Bool.and_eq_true, inductionHypothesis]
      constructor
      · rintro (isPublic | ⟨nestedPublic, inside, part, outside, split, exposes⟩)
        · exact ⟨[], type, outer :: rest, rfl, isPublic, List.forall_mem_nil _⟩
        · exact ⟨type :: inside, part, outside, congrArg (type :: ·) split, exposes.isPublic,
            List.forall_mem_cons.mpr ⟨nestedPublic, exposes.nestedPublic⟩⟩
      · rintro ⟨inside, part, outside, split, exposes⟩
        cases inside with
        | nil =>
            cases split
            exact .inl exposes.isPublic
        | cons first others =>
            rw [List.cons_append, List.cons.injEq] at split
            obtain ⟨rfl, split⟩ := split
            obtain ⟨nestedPublic, further⟩ := List.forall_mem_cons.mp exposes.nestedPublic
            exact .inr ⟨nestedPublic, others, part, outside, split, exposes.isPublic, further⟩

/-- A type can be seen exactly if a public one stands around it behind nested public ones. -/
theorem isVisible_iff :
    graph.isVisible type = true ↔
      ∃ inside part outside,
        type :: (graph.type type).enclosing = inside ++ part :: outside ∧
          graph.Exposes inside part :=
  isVisibleWithin_iff

/-- Up to a public type that stands around it behind nested public ones, all can be seen. -/
theorem Nests.isVisible_of_exposes (nests : graph.Nests) (known : graph.HasType type)
    {inside outside : List TypeId} {part : TypeId}
    (split : type :: (graph.type type).enclosing = inside ++ part :: outside)
    (exposes : graph.Exposes inside part) :
    ∀ inner ∈ inside ++ [part], graph.isVisible inner = true := by
  intro inner member
  rcases List.mem_append.mp member with within | last
  · obtain ⟨before, behind, rfl⟩ := List.append_of_mem within
    rw [List.append_assoc, List.cons_append] at split
    have around := (nests.enclosing_eq known split).2
    refine isVisible_iff.mpr ⟨inner :: behind, part, outside, by rw [around]; rfl,
      exposes.isPublic, fun other among => ?_⟩
    exact exposes.nestedPublic other (List.mem_append_right _ among)
  · cases List.mem_singleton.mp last
    exact isVisible_iff.mpr ⟨[], part, (graph.type part).enclosing, rfl, exposes.isPublic,
      List.forall_mem_nil _⟩

/-- A type that can be seen lies in one that cannot only if a nested type is public. -/
theorem Nests.isVisible_and_hidden_iff (nests : graph.Nests) (known : graph.HasType type) :
    (graph.isVisible type = true ∧
        ∃ outer ∈ (graph.type type).enclosing, graph.isVisible outer = false) ↔
      ∃ inside part outside,
        type :: (graph.type type).enclosing = inside ++ part :: outside ∧
          graph.Exposes inside part ∧
            ∃ outer ∈ outside, graph.isVisible outer = false := by
  constructor
  · rintro ⟨visible, outer, around, hidden⟩
    obtain ⟨inside, part, outside, split, exposes⟩ := isVisible_iff.mp visible
    refine ⟨inside, part, outside, split, exposes, outer, ?_, hidden⟩
    have among : outer ∈ (inside ++ [part]) ++ outside := by
      rw [List.append_assoc, List.singleton_append, ← split]
      exact List.mem_cons_of_mem _ around
    refine (List.mem_append.mp among).resolve_left fun within => ?_
    rw [nests.isVisible_of_exposes known split exposes outer within] at hidden
    cases hidden
  · rintro ⟨inside, part, outside, split, exposes, outer, behind, hidden⟩
    refine ⟨isVisible_iff.mpr ⟨inside, part, outside, split, exposes⟩, outer, ?_, hidden⟩
    cases inside with
    | nil =>
        cases split
        exact behind
    | cons first rest =>
        rw [List.cons_append, List.cons.injEq] at split
        rw [split.2]
        exact List.mem_append_right _ (List.mem_cons_of_mem _ behind)

/-- Among a type and those around it, is none public that another one encloses? -/
def PublicOutermost (graph : Graph) (type : TypeId) : Prop :=
  ∀ part ∈ type :: (graph.type type).enclosing,
    (graph.type part).access.isPublic = true → (graph.type part).enclosing = []

theorem Nests.isVisible_of_mem_enclosing (nests : graph.Nests) (known : graph.HasType type)
    (outermost : graph.PublicOutermost type) (visible : graph.isVisible type = true) :
    ∀ outer ∈ (graph.type type).enclosing, graph.isVisible outer = true := by
  intro outer around
  by_contra hidden
  rw [Bool.not_eq_true] at hidden
  obtain ⟨inside, part, outside, split, exposes, beyond, behind, -⟩ :=
    (nests.isVisible_and_hidden_iff known).mp ⟨visible, outer, around, hidden⟩
  have among : part ∈ type :: (graph.type type).enclosing := by
    rw [split]
    simp
  rw [← (nests.enclosing_eq known split).2, outermost part among exposes.isPublic] at behind
  cases behind

end Graph

/-! ## Methods that are looked at -/

/-- Without the flag for other methods, only what implements a public member is woven elsewhere. -/
theorem NullPolicy.isVisible_eq {graph : Graph} {policy : NullPolicy} {decl : MethodDecl}
    (publicOnly : policy.flags.nonPublic = false)
    (implements : graph.implementsPublicMember decl = false) :
    policy.isVisible graph decl = (decl.access.isPublic && graph.isVisible decl.owner) := by
  rw [NullPolicy.isVisible, publicOnly, implements, Bool.false_or, Bool.or_false]

/--
In a loaded graph, a type that can be seen lies in one that cannot exactly if a public type stands
around it, behind nested public ones only, that lies in one that cannot be seen.  So where no
nested type is public, the types around a visible one are visible, and a method that neither is to
be woven regardless nor implements a public member is left alone inside a type that cannot be seen.
-/
theorem Program.FromTexts.isVisible_around {program : Program} (fromTexts : program.FromTexts)
    {type : TypeId} (known : program.graph.HasType type) :
    ((program.graph.isVisible type = true ∧
        ∃ outer ∈ (program.graph.type type).enclosing,
          program.graph.isVisible outer = false) ↔
      ∃ inside part outside,
        type :: (program.graph.type type).enclosing = inside ++ part :: outside ∧
          program.graph.Exposes inside part ∧
            ∃ outer ∈ outside, program.graph.isVisible outer = false) ∧
    (program.graph.PublicOutermost type →
      (program.graph.isVisible type = true →
        ∀ outer ∈ (program.graph.type type).enclosing,
          program.graph.isVisible outer = true) ∧
      ∀ (settings : Settings) (context : MethodContext),
        context.graph = program.graph →
        context.decl.owner = type →
        NullPolicy.resolve context.graph settings context.method = .ok context.policy →
        context.policy.flags.nonPublic = false →
        context.graph.implementsPublicMember context.decl = false →
        (∃ part ∈ type :: (program.graph.type type).enclosing,
          program.graph.isVisible part = false) →
        ∀ state, ∃ final,
          (Weaver.weaveMethod context.graph settings context.method).run state =
              (.ok (), final) ∧
            final.bodies = state.bodies ∧ final.report = state.report) := by
  have nests := fromTexts.nests
  refine ⟨nests.isVisible_and_hidden_iff known, fun outermost =>
    ⟨nests.isVisible_of_mem_enclosing known outermost, ?_⟩⟩
  rintro settings context same rfl resolved publicOnly implements ⟨part, among, hidden⟩ state
  have unseen : program.graph.isVisible context.decl.owner = false := by
    rcases List.mem_cons.mp among with rfl | around
    · exact hidden
    · by_contra visible
      rw [Bool.not_eq_false] at visible
      rw [nests.isVisible_of_mem_enclosing known outermost visible part around] at hidden
      cases hidden
  refine Weaver.run_weaveMethod_of_unwoven resolved (.inl ?_)
  rw [NullPolicy.isVisible_eq publicOnly implements, same, unseen, Bool.and_false]

/-! ## Nested types declared public -/

namespace Program

/-- A class that is not public, around one of some access whose method returns its argument. -/
def nestedText (access : String) : String :=
  ".class Outer\n.class " ++ access ++ " Inner\n" ++
    ".method public static string Echo(string text)\nldarg text\nret\n.end\n.end\n.end\n"

/-- Inside a class that cannot be seen, a nested class cannot be seen and its method is left. -/
theorem isVisible_around_hidden :
    let loaded := (Program.initial.load (nestedText "nested-public")).2
    (Program.initial.load (nestedText "nested-public")).1 =
        .ok { types := [⟨17⟩, ⟨18⟩] } ∧
      loaded.graph.PublicOutermost ⟨18⟩ ∧ loaded.graph.isVisible ⟨18⟩ = false ∧
        ∀ state, ∃ final,
          (Weaver.weaveMethod loaded.graph {} ⟨13⟩).run state = (.ok (), final) ∧
            final.bodies = state.bodies ∧ final.report = state.report := by
  intro loaded
  have checked : (Program.initial.load (nestedText "nested-public")).1 =
        .ok { types := [⟨17⟩, ⟨18⟩] } ∧
      18 < loaded.graph.types.size ∧ (loaded.graph.type ⟨18⟩).enclosing = [⟨17⟩] ∧
        (loaded.graph.type ⟨17⟩).access.isPublic = false ∧
          (loaded.graph.type ⟨18⟩).access.isPublic = false ∧
            loaded.graph.isVisible ⟨17⟩ = false ∧ loaded.graph.isVisible ⟨18⟩ = false ∧
              (loaded.graph.method ⟨13⟩).owner = ⟨18⟩ ∧
                loaded.graph.implementsPublicMember (loaded.graph.method ⟨13⟩) = false ∧
                  NullPolicy.resolve loaded.graph {} ⟨13⟩ = .ok ⟨.allPublic, false⟩ := by
    decide +kernel
  obtain ⟨accepted, known, around, outerAccess, innerAccess, outerHidden, innerHidden, owner,
    implements, resolved⟩ := checked
  have fromTexts : loaded.FromTexts := FromTexts.initial.load _
  clear_value loaded
  have outermost : loaded.graph.PublicOutermost ⟨18⟩ := by
    rw [Graph.PublicOutermost, around]
    simp [outerAccess, innerAccess]
  obtain ⟨-, leaves⟩ := (fromTexts.isVisible_around known).2 outermost
  exact ⟨accepted, outermost, innerHidden,
    leaves {} ⟨loaded.graph, ⟨13⟩, ⟨.allPublic, false⟩⟩ rfl owner resolved rfl implements
      ⟨⟨17⟩, by simp [around], outerHidden⟩⟩

/-- A nested class declared public can be seen inside one that cannot, and its method is woven. -/
theorem isVisible_inside_hidden :
    let loaded := (Program.initial.load (nestedText "public")).2
    let woven := loaded.weave {} { types := [⟨17⟩, ⟨18⟩] }
    (Program.initial.load (nestedText "public")).1 = .ok { types := [⟨17⟩, ⟨18⟩] } ∧
      (loaded.graph.type ⟨18⟩).enclosing = [⟨17⟩] ∧
        loaded.graph.isVisible ⟨18⟩ = true ∧ loaded.graph.isVisible ⟨17⟩ = false ∧
          loaded.graph.implementsPublicMember (loaded.graph.method ⟨13⟩) = false ∧
            woven.failure = none ∧
              woven.report = { methodsProcessed := 1, guardsInjected := 2 } := by
  intro loaded woven
  decide +kernel

end Program

end NullWeave
