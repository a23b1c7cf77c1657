import Mathlib.Data.List.Forall2
import NullWeave.Text.Reading.Basic

/-!
# Readers in sequence

A reader takes lexemes from the front of a line and hands the rest to the reader
after it, so a line is read piece by piece.  A list in parentheses is read as
the items it was written for: each step takes an item and the mark behind it.
-/

namespace NullWeave

namespace LineReader

/-- A reader that has taken its lexemes hands the rest to the reader after it. -/
theorem run_bind_of_ok {α β : Type} {first : LineReader α} {next : α → LineReader β}
    {lexemes left : List Lexeme} {value : α}
    (ran : first.run lexemes = .ok (value, left)) :
    (first >>= next).run lexemes = (next value).run left := by
  rw [StateT.run_bind, ran]
  rfl

theorem run_next?_cons (lexeme : Lexeme) (left : List Lexeme) :
    next?.run (lexeme :: left) = .ok (some lexeme, left) := rfl

theorem run_requireName (name : String) (left : List Lexeme) :
    requireName.run (.name name :: left) = .ok (name, left) := rfl

theorem run_optionalMark (wanted found : Char) (left : List Lexeme) :
    (optionalMark wanted).run (.mark found :: left) =
      .ok (if found = wanted then (true, left) else (false, .mark found :: left)) := by
  change (if found = wanted then _ else _ : LineReader Bool).run (.mark found :: left) = _
  split <;> rfl

theorem run_requireMark_self (mark : Char) (left : List Lexeme) :
    (requireMark mark).run (.mark mark :: left) = .ok ((), left) := by
  change (if Lexeme.mark mark = .mark mark then _ else _ : LineReader Unit).run left = _
  rw [if_pos rfl]
  rfl

/-- Is a piece of a line read as a value wherever a comma or a closing mark follows? -/
def ReadsPiece {α : Type} (item : LineReader α) (close : Char)
    (piece : List Lexeme) (value : α) : Prop :=
  ∀ mark ∈ [',', close], ∀ left,
    item.run (piece ++ .mark mark :: left) = .ok (value, .mark mark :: left)

/-- Items with commas between them are read one by one, up to the mark that closes them. -/
theorem run_itemsWithin
    {α : Type} {item : LineReader α} {close : Char} (notComma : ',' ≠ close)
    {pieces : List (List Lexeme)} {values : List α} (some : pieces ≠ [])
    (reads : List.Forall₂ (ReadsPiece item close) pieces values)
    {fuel : Nat} (enough : pieces.length ≤ fuel) (left : List Lexeme) :
    (itemsWithin item close fuel).run
        ([.mark ','].intercalate pieces ++ .mark close :: left) =
      .ok (values, left) := by
  induction reads generalizing fuel with
  | nil =>
      exact absurd rfl some
  | @cons piece value pieces values here later inductionHypothesis =>
      cases fuel with
      | zero =>
          cases enough
      | succ fuel =>
          cases later with
          | nil =>
              have closed := run_optionalMark close close left
              rw [if_pos rfl] at closed
              rw [List.intercalate_singleton, itemsWithin,
                run_bind_of_ok (here close (by simp) left), run_bind_of_ok closed]
              rfl
          | @cons next _ others _ first further =>
              have goesOn := run_optionalMark close ','
                ([.mark ','].intercalate (next :: others) ++ .mark close :: left)
              rw [if_neg notComma] at goesOn
              rw [List.intercalate_cons_cons, List.append_assoc, List.append_assoc,
                List.singleton_append, itemsWithin,
                run_bind_of_ok (here ',' (by simp) _), run_bind_of_ok goesOn]
              change (requireMark ',' >>= _).run (.mark ',' :: _) = _
              rw [run_bind_of_ok (run_requireMark_self ',' _),
                run_bind_of_ok (inductionHypothesis (List.cons_ne_nil _ _)
                  (Nat.le_of_succ_le_succ enough))]
              rfl

/-- There is a comma behind each piece but the last. -/
theorem length_le_intercalate (pieces : List (List Lexeme)) :
    pieces.length ≤ ([.mark ','].intercalate pieces).length + 1 := by
  induction pieces with
  | nil =>
      exact Nat.zero_le _
  | cons piece rest inductionHypothesis =>
      cases rest with
      | nil =>
          exact Nat.le_add_left _ _
      | cons next others =>
          rw [List.intercalate_cons_cons, List.length_append, List.length_append,
            List.length_singleton, List.length_cons]
          omega

/-- Items in parentheses are read one by one, even if there are none. -/
theorem run_parenthesized
    {α : Type} {item : LineReader α}
    {pieces : List (List Lexeme)} {values : List α}
    (reads : List.Forall₂ (ReadsPiece item ')') pieces values)
    (begins : ∀ piece ∈ pieces, ∃ lexeme rest, piece = lexeme :: rest ∧ lexeme ≠ .mark ')')
    (left : List Lexeme) :
    (parenthesized item).run
        (.mark '(' :: ([.mark ','].intercalate pieces ++ .mark ')' :: left)) =
      .ok (values, left) := by
  rw [parenthesized, run_bind_of_ok (run_requireMark_self '(' _)]
  cases reads with
  | nil =>
      have closed := run_optionalMark ')' ')' left
      rw [if_pos rfl] at closed
      change (optionalMark ')' >>= _).run (.mark ')' :: left) = _
      rw [run_bind_of_ok closed]
      rfl
  | @cons piece value pieces values here later =>
      obtain ⟨lexeme, rest, split, notClose⟩ := begins piece (List.mem_cons_self ..)
      have opened : ∀ line, (optionalMark ')').run (lexeme :: line) =
          .ok (false, lexeme :: line) := by
        intro line
        cases lexeme with
        | mark found =>
            have other : found ≠ ')' := fun same => notClose (congrArg Lexeme.mark same)
            rw [run_optionalMark, if_neg other]
        | name _ | str _ | int _ | doubleColon =>
            rfl
      have enough : (piece :: pieces).length ≤
          ([.mark ','].intercalate (piece :: pieces) ++ .mark ')' :: left).length + 1 := by
        have commas := length_le_intercalate (piece :: pieces)
        simp only [List.length_append, List.length_cons] at commas ⊢
        omega
      have items := run_itemsWithin (show ',' ≠ ')' by decide) (List.cons_ne_nil _ _)
        (.cons here later) enough left
      have starts : ∃ line, [.mark ','].intercalate (piece :: pieces) ++ .mark ')' :: left =
          lexeme :: line := by
        cases pieces with
        | nil =>
            exact ⟨_, by rw [List.intercalate_singleton, split, List.cons_append]⟩
        | cons next others =>
            exact ⟨_, by rw [List.intercalate_cons_cons, split, List.cons_append,
              List.cons_append, List.cons_append]⟩
      obtain ⟨line, same⟩ := starts
      rw [same] at items ⊢
      rw [run_bind_of_ok (opened line)]
      exact items

/-- Names in parentheses are read one by one, even if there are none. -/
theorem run_parenthesized_requireName (names : List String) (left : List Lexeme) :
    (parenthesized requireName).run
        (.mark '(' :: ((names.map Lexeme.name).intersperse (.mark ',') ++
          .mark ')' :: left)) =
      .ok (names, left) := by
  have pieces : [.mark ','].intercalate (names.map fun name => [Lexeme.name name]) =
      (names.map Lexeme.name).intersperse (.mark ',') := by
    induction names with
    | nil =>
        rfl
    | cons name rest inductionHypothesis =>
        cases rest with
        | nil =>
            rfl
        | cons next others =>
            rw [List.map_cons] at inductionHypothesis
            rw [List.map_cons, List.map_cons, List.intercalate_cons_cons, inductionHypothesis]
            rfl
  rw [← pieces]
  refine run_parenthesized ?_ (fun piece member => ?_) left
  · rw [List.forall₂_map_left_iff, List.forall₂_same]
    exact fun name _ _ _ _ => rfl
  · obtain ⟨name, -, rfl⟩ := List.mem_map.mp member
    exact ⟨_, _, rfl, nofun⟩

end LineReader

end NullWeave
