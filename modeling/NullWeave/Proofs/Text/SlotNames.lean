import NullWeave.Proofs.Text.Lexing
import NullWeave.Text.Printing.Body

/-!
# Names of slots in writing

A parameter or a local variable keeps its name in writing if that is a plain
one other than `this`, and gets one made up from its number otherwise.  What is
written is plain in any case, so it is lexed as one name, and writing it again
changes nothing.

A name that was made up may be that of another slot, however.
-/

namespace NullWeave

/-! ## Plain names -/

/-- The characters that a plain name goes on with. -/
def isPlainChar (c : Char) : Bool := isWordChar c || c == '_'

theorem isPlainName_iff {name : String} :
    isPlainName name = true ↔
      ∃ c rest, name.toList = c :: rest ∧
        (isLetter c || c == '_') = true ∧
          ∀ d ∈ c :: rest, isPlainChar d = true := by
  unfold isPlainName
  split
  · rename_i empty
    simp [empty]
  · rename_i c rest split
    simp only [split, List.cons.injEq, Bool.and_eq_true, List.all_eq_true]
    constructor
    · rintro ⟨begins, plain⟩
      exact ⟨c, rest, ⟨rfl, rfl⟩, begins, plain⟩
    · rintro ⟨_, _, ⟨rfl, rfl⟩, begins, plain⟩
      exact ⟨begins, plain⟩

theorem isPlainName_append {lead tail : String}
    (plainLead : isPlainName lead = true)
    (plainTail : tail.toList.all isPlainChar = true) :
    isPlainName (lead ++ tail) = true := by
  obtain ⟨c, rest, split, begins, plain⟩ := isPlainName_iff.mp plainLead
  refine isPlainName_iff.mpr ⟨c, rest ++ tail.toList, ?_, begins, ?_⟩
  · rw [String.toList_append, split, List.cons_append]
  · intro d member
    rcases List.mem_append.mp (List.cons_append ▸ member) with inLead | inTail
    · exact plain d inLead
    · exact List.all_eq_true.mp plainTail d inTail

theorem spanName_of_plain {chars : List Char}
    (plain : ∀ c ∈ chars, isPlainChar c = true) :
    spanName chars = (chars, []) := by
  induction chars with
  | nil =>
      rfl
  | cons c rest inductionHypothesis =>
      have here := plain c (List.mem_cons_self ..)
      have later := inductionHypothesis
        fun d member => plain d (List.mem_cons_of_mem _ member)
      have goesOn : continuesName c = true := by
        rw [isPlainChar, Bool.or_eq_true, beq_iff_eq] at here
        rcases here with word | rfl
        · simp [continuesName, word]
        · decide
      have notSlash : c ≠ '/' := by
        rintro rfl
        exact absurd here (by decide)
      simp [spanName, goesOn, beginsComment_of_ne notSlash, later]

theorem isName_of_isPlainName {name : String}
    (plain : isPlainName name = true) : isName name = true := by
  obtain ⟨c, rest, split, begins, plainChars⟩ := isPlainName_iff.mp plain
  have whole := spanName_of_plain
    fun d member => plainChars d (List.mem_cons_of_mem _ member)
  have beginsToo : beginsName c = true := by
    rw [Bool.or_eq_true, beq_iff_eq] at begins
    rcases begins with letter | rfl
    · simp [beginsName, letter]
    · decide
  simp [isName, split, beginsToo, whole]

theorem isPlainChar_of_isDigit {c : Char} (digit : c.isDigit = true) :
    isPlainChar c = true := by
  simp [isPlainChar, isWordChar, isNumeral, toNat_lt_of_isDigit digit, digit]

theorem isPlainName_numbered {lead : String}
    (plain : isPlainName lead = true) (number : Nat) :
    isPlainName (lead ++ toString number) = true := by
  refine isPlainName_append plain (List.all_eq_true.mpr fun c member => ?_)
  rw [Nat.toString_eq_repr, Nat.toList_repr] at member
  exact isPlainChar_of_isDigit (isDigit_of_mem_toDigits member)

theorem numbered_injective {lead : String} {left right : Nat}
    (same : lead ++ toString left = lead ++ toString right) : left = right := by
  have digits : Nat.toDigits 10 left = Nat.toDigits 10 right := by
    have lists := congrArg String.toList same
    rw [String.toList_append, String.toList_append] at lists
    have tails := List.append_cancel_left lists
    rwa [Nat.toString_eq_repr, Nat.toString_eq_repr, Nat.toList_repr, Nat.toList_repr]
      at tails
  have values := congrArg (Nat.ofDigitChars 10 · 0) digits
  simpa using values

theorem numbered_ne_this {lead : String} (underscore : '_' ∈ lead.toList)
    (number : Nat) : lead ++ toString number ≠ "this" := by
  intro same
  have inside : '_' ∈ (lead ++ toString number).toList := by
    rw [String.toList_append]
    exact List.mem_append_left _ underscore
  rw [same] at inside
  exact absurd inside (by decide)

/-! ## Names that are written for slots -/

section ReadableNames

variable {letter : String}

theorem isPlainName_readableName
    (plain : isPlainName letter = true) (index : Nat) (name : String) :
    isPlainName (readableName letter index name) = true := by
  rw [readableName]
  split
  · rename_i kept
    rw [Bool.and_eq_true] at kept
    exact kept.1
  · exact isPlainName_numbered
      (isPlainName_append plain (by decide)) index

theorem readableName_ne_this (index : Nat) (name : String) :
    readableName letter index name ≠ "this" := by
  rw [readableName]
  split
  · rename_i kept
    rw [Bool.and_eq_true, bne_iff_ne] at kept
    exact kept.2
  · exact numbered_ne_this (by simp) index

theorem readableName_eq_self {name : String}
    (plain : isPlainName name = true) (notThis : name ≠ "this") (index : Nat) :
    readableName letter index name = name := by
  simp [readableName, plain, notThis]

/-- A name that was written for a slot is written for it again. -/
theorem readableName_readableName
    (plain : isPlainName letter = true) (index : Nat) (name : String) :
    readableName letter index (readableName letter index name) =
      readableName letter index name :=
  readableName_eq_self (isPlainName_readableName plain index name)
    (readableName_ne_this index name) index

end ReadableNames

end NullWeave
