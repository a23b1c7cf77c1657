import NullWeave.Proofs.Code.TokenHistory
import NullWeave.Proofs.Graph.FullNames

/-!
# Tokens that tell members apart

A pool knows members and types only by their full names.  Where full names tell
them apart, tokens do: two members of a loaded graph never have one token, and
neither have two types.
-/

namespace NullWeave

/-- The request for a member. -/
def TokenRequest.member (graph : Graph) : MemberId → TokenRequest
  | .field field => .field graph field
  | .method method => .method graph method

theorem TokenRequest.member_eq (graph : Graph) (member : MemberId) :
    TokenRequest.member graph member = ⟨TokenPool.memberRef, graph.memberName member⟩ := by
  cases member <;> rfl

/-- Whatever a pool is used for, does a token stand for one member or type of a graph only? -/
structure Graph.FaithfulTokens (graph : Graph) : Prop where
  members : ∀ uses left right token, graph.HasMember left → graph.HasMember right →
    (TokenRequest.member graph left, .ok token) ∈ TokenUse.history {} uses →
    (TokenRequest.member graph right, .ok token) ∈ TokenUse.history {} uses → left = right
  types : ∀ uses left right token, graph.HasType left → graph.HasType right →
    (TokenRequest.signature graph (.named left), .ok token) ∈ TokenUse.history {} uses →
    (TokenRequest.signature graph (.named right), .ok token) ∈ TokenUse.history {} uses →
    left = right

/-- Full names that tell members and types apart make tokens that do. -/
theorem Program.Named.faithfulTokens {program : Program} (named : program.Named)
    (spelled : program.graph.IsSpelled) (shows : program.graph.ShowsParameters) :
    program.graph.FaithfulTokens where
  members uses left right token known knownToo here there := by
    have same := ((TokenUse.orderly_history uses).unambiguous _ _ _ _ here there).mp rfl
    rw [TokenRequest.member_eq, TokenRequest.member_eq] at same
    exact named.memberName_inj spelled shows known knownToo (TokenRequest.mk.inj same).2
  types uses left right token known knownToo here there := by
    have same := ((TokenUse.orderly_history uses).unambiguous _ _ _ _ here there).mp rfl
    exact named.types.apart left right known knownToo (TokenRequest.mk.inj same).2

namespace TokenPool

/--
Tokens are stable, dense and unambiguous whatever an empty pool is used for, and in
graphs that come from texts with named generic parameters they stand for one member
or type only.
-/
theorem tokens_orderly_and_faithful :
    (∀ uses, OrderlyHistory (TokenUse.history {} uses) (uses.foldl TokenUse.after {})) ∧
      (∀ graph body returnsValue pool, MethodBody.AsksInOrder graph body returnsValue pool) ∧
      ∀ texts, (∀ text ∈ texts, namesParameters text = true) →
        (Program.afterTexts texts).graph.FaithfulTokens := by
  refine ⟨TokenUse.orderly_history, MethodBody.asksInOrder, fun texts names => ?_⟩
  have fromTexts := Program.fromTexts_afterTexts texts
  exact fromTexts.named.faithfulTokens fromTexts.isSpelled
    (Program.showsParameters_afterTexts names)

/-- A class with two methods of one name, which take a generic parameter and a string. -/
def boxText : String :=
  ".class public N.Box\n.method public static void Put(!T item)\nret\n.end\n" ++
    ".method public static void Put(string item)\nret\n.end\n.end\n"

theorem tokens_orderly_and_faithful_box :
    (∀ text ∈ [boxText], namesParameters text = true) ∧
      (Program.initial.load boxText).1 = .ok { types := [⟨17⟩] } ∧
      (Program.afterTexts [boxText]).graph.FaithfulTokens := by
  have checked : (∀ text ∈ [boxText], namesParameters text = true) ∧
      (Program.initial.load boxText).1 = .ok { types := [⟨17⟩] } := by
    decide +kernel
  obtain ⟨names, loaded⟩ := checked
  exact ⟨names, loaded, tokens_orderly_and_faithful.2.2 [boxText] names⟩

end TokenPool

end NullWeave
