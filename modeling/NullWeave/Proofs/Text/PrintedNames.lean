import NullWeave.Proofs.Text.LoadedProgram
import NullWeave.Proofs.Text.NameCapture
import NullWeave.Text.Printing.Body

/-!
# What printed names mean

Declarations and bodies name types, fields and methods.  Read where it was
written, a printed name means what it was written for if no name in it is
captured there; for types and signatures this is necessary too.  Capture does
happen: a text can reach a type of the namespace by its last segment while its
full name, written in the same place, reaches another type.
-/

namespace NullWeave

/-! ## What operations write -/

namespace BodyNames

/-- The mnemonic of an operation that mentions something, with what it mentions. -/
theorem operationWritten_of_mention (names : BodyNames) {operation : Operation}
    {mention : Mention} (mentions : operation.mention? = some mention) :
    ∃ mnemonic, names.operationWritten operation =
      mnemonic ++ names.graph.mentionWritten mention := by
  cases operation <;> cases mentions <;> exact ⟨_, rfl⟩

/-- An operation that mentions nothing is written alike whatever is declared. -/
theorem operationWritten_of_mention?_eq_none (names : BodyNames) {operation : Operation}
    (silent : operation.mention? = none) (graph : Graph) :
    { names with graph }.operationWritten operation = names.operationWritten operation := by
  cases operation <;> first | rfl | cases silent

end BodyNames

/-! ## Names that can be checked -/

namespace Graph

instance (graph : Graph) (type : TypeId) : Decidable (graph.PlainlyNamed type) :=
  decidable_of_iff
    (isName (graph.typeName type) = true ∧ graph.typeName type ≠ "void" ∧
      (graph.typeName type).toList.head? ≠ some '!')
    ⟨fun ⟨named, notVoid, notParameter⟩ => ⟨named, notVoid, notParameter⟩,
      fun ⟨named, notVoid, notParameter⟩ => ⟨named, notVoid, notParameter⟩⟩

instance (graph : Graph) (scope type : TypeId) : Decidable (graph.Uncaptured scope type) :=
  decidable_of_iff
    (systemWord? (graph.typeName type) = none ∧
      ∀ name ∈ (scope :: (graph.type scope).enclosing).flatMap
        (graph.namesBeside (graph.typeName type)), graph.typeNamed? name = none)
    ⟨fun ⟨noWord, noType⟩ => ⟨noWord, noType⟩, fun ⟨noWord, noType⟩ => ⟨noWord, noType⟩⟩

end Graph

/-! ## Loaded programs -/

/-- Is what is mentioned a type or a signature, and no member of a type? -/
def Mention.isPlain : Mention → Bool
  | .type _ | .signature _ => true
  | .field _ | .method _ => false

namespace Program

variable {program : Program}

/-- What comes from texts comes by steps of loading. -/
theorem FromTexts.loaded (fromTexts : program.FromTexts) : program.Loaded := by
  induction fromTexts with
  | initial =>
      exact .initial
  | load text _ inductionHypothesis =>
      exact inductionHypothesis.load text

/--
What a type mentions is read back there if no name that is written for it is
captured, and types and signatures only then.
-/
theorem readsBack_of_uncaptured (fromTexts : program.FromTexts)
    {type : TypeId} (held : program.graph.HasType type)
    {mention : Mention} (mentioned : mention ∈ program.mentions type)
    (plain : ∀ written ∈ program.graph.typesMentioned mention,
      program.graph.PlainlyNamed written)
    {scope : BodyScope} (sameGraph : scope.graph = program.graph)
    (inType : scope.method.owner = type) :
    ((∀ written ∈ program.graph.typesMentioned mention,
        program.graph.Uncaptured type written) →
      scope.ReadsBack mention) ∧
    (mention.isPlain = true → scope.ReadsBack mention →
      ∀ written ∈ program.graph.typesMentioned mention,
        program.graph.Uncaptured type written) := by
  subst inType
  have named := fromTexts.named
  have library := fromTexts.loaded.namesSystemTypes
  have knows := named.knows held mentioned
  rw [← sameGraph] at plain knows ⊢
  have types : scope.graph.TypesNamed := sameGraph ▸ named.types
  have members : scope.graph.MembersKnown := sameGraph ▸ named.members
  have system : scope.graph.NamesSystemTypes := sameGraph ▸ library
  cases mention with
  | type written =>
      have meaning := BodyScope.readsBack_type_iff types system knows
        (plain written (List.mem_singleton_self _))
      refine ⟨fun free => meaning.mpr (free written (List.mem_singleton_self _)),
        fun _ readBack => ?_⟩
      exact List.forall_mem_singleton.mpr (meaning.mp readBack)
  | signature signature =>
      have meaning := BodyScope.readsBack_signature_iff types system knows plain
      exact ⟨meaning.mpr, fun _ => meaning.mp⟩
  | field field =>
      refine ⟨fun free => ?_, nofun⟩
      exact BodyScope.readsBack_field types system members knows
        (plain _ (List.mem_singleton_self _)) (free _ (List.mem_singleton_self _))
  | method method =>
      exact ⟨BodyScope.readsBack_method types system members knows plain, nofun⟩

/-! ### Names that are captured and names that are not -/

/-- A class with two overloads, one of which calls the other. -/
def overloaded : Program :=
  (Program.initial.load (".class public N.S\n.method public static void M(string[] texts)\n" ++
    "ldnull\ncall S::M(object)\nret\n.end\n" ++
    ".method public static void M(object value)\nret\n.end\n.end\n")).2

theorem overloaded_fromTexts : overloaded.FromTexts := .load _ .initial

theorem readsBack_of_uncaptured_overloaded :
    overloaded.graph.methodWritten ⟨14⟩ = "N.S::M(object)" ∧
      ∀ scope : BodyScope, scope.graph = overloaded.graph → scope.method.owner = ⟨17⟩ →
        scope.ReadsBack (.method ⟨14⟩) := by
  have checked : overloaded.graph.methodWritten ⟨14⟩ = "N.S::M(object)" ∧
      17 < overloaded.graph.types.size ∧
      (overloaded.mentions ⟨17⟩).any (fun mention =>
        match mention with
        | .method method => method == ⟨14⟩
        | _ => false) = true ∧
      ∀ written ∈ overloaded.graph.typesMentioned (.method ⟨14⟩),
        overloaded.graph.PlainlyNamed written ∧ overloaded.graph.Uncaptured ⟨17⟩ written := by
    decide +kernel
  obtain ⟨shown, held, called, readable⟩ := checked
  obtain ⟨mention, mentioned, isCall⟩ := List.any_eq_true.mp called
  obtain rfl : mention = .method ⟨14⟩ := by
    cases mention with
    | method method =>
        rw [beq_iff_eq.mp isCall]
    | type _ | signature _ | field _ =>
        cases isCall
  refine ⟨shown, fun scope sameGraph inType => ?_⟩
  exact (readsBack_of_uncaptured overloaded_fromTexts held mentioned
    (fun written member => (readable written member).1) sameGraph inType).1
      fun written member => (readable written member).2

/-- A class in a namespace that extends another one there, and a class with a longer name. -/
def capturedText : String :=
  ".class public N.X\n.end\n.class public N.N.X\n.end\n.class public N.S : X\n.end\n"

/-- The program with the three classes. -/
def captured : Program := (Program.initial.load capturedText).2

/-- What a class extends is written with a name that means another class there. -/
theorem not_readsBack_captured :
    (Program.initial.load capturedText).1 = .ok { types := [⟨17⟩, ⟨18⟩, ⟨19⟩] } ∧
      .type ⟨17⟩ ∈ captured.mentions ⟨19⟩ ∧
      captured.graph.mentionWritten (.type ⟨17⟩) = "N.X" ∧
      captured.graph.typeInScope ⟨19⟩ "N.X" = .ok ⟨18⟩ ∧
      captured.graph.typeName ⟨18⟩ = "N.N.X" ∧
      ¬ ∃ scope : BodyScope, scope.graph = captured.graph ∧ scope.method.owner = ⟨19⟩ ∧
        scope.ReadsBack (.type ⟨17⟩) := by
  have checked :
      (Program.initial.load capturedText).1 = .ok { types := [⟨17⟩, ⟨18⟩, ⟨19⟩] } ∧
        captured.graph.mentionWritten (.type ⟨17⟩) = "N.X" ∧
        captured.graph.typeInScope ⟨19⟩ "N.X" = .ok ⟨18⟩ ∧
        captured.graph.typeName ⟨18⟩ = "N.N.X" ∧
        17 < captured.graph.types.size ∧
        captured.graph.PlainlyNamed ⟨17⟩ ∧ ¬ captured.graph.Uncaptured ⟨19⟩ ⟨17⟩ ∧
        (captured.mentions ⟨19⟩).any (fun mention =>
          match mention with
          | .type type => type == ⟨17⟩
          | _ => false) = true := by
    decide +kernel
  obtain ⟨loaded, shown, means, other, held, plain, taken, extended⟩ := checked
  obtain ⟨mention, mentioned, isBase⟩ := List.any_eq_true.mp extended
  obtain rfl : mention = .type ⟨17⟩ := by
    cases mention with
    | type type =>
        rw [beq_iff_eq.mp isBase]
    | method _ | signature _ | field _ =>
        cases isBase
  refine ⟨loaded, mentioned, shown, means, other, ?_⟩
  rintro ⟨scope, sameGraph, inType, readBack⟩
  have fromTexts : captured.FromTexts := .load _ .initial
  have types : scope.graph.TypesNamed := sameGraph ▸ fromTexts.named.types
  have system : scope.graph.NamesSystemTypes := sameGraph ▸ fromTexts.loaded.namesSystemTypes
  have known : captured.graph.HasType ⟨17⟩ := held
  have free := (BodyScope.readsBack_type_iff types system (sameGraph ▸ known)
    (sameGraph ▸ plain)).mp readBack
  rw [sameGraph, inType] at free
  exact taken free

end Program

end NullWeave
