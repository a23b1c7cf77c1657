/-!
# Quoted strings

A string literal stands between quotes.  Six characters are written with a
backslash: line feed, tab, carriage return, the null character, the backslash
and the quote.  Every other character stands for itself, so a written literal
never holds a line feed.
-/

namespace NullWeave

namespace Quoted

/-- Why a string literal could not be read. -/
inductive Fault where
  /-- No character is written this way. -/
  | unknownEscape (c : Char)
  /-- The text ends before the closing quote. -/
  | unterminated
deriving DecidableEq, Inhabited

/-- The letter that writes a character after a backslash. -/
def escapeLetter? : Char → Option Char
  | '\n' => some 'n'
  | '\t' => some 't'
  | '\r' => some 'r'
  | '\x00' => some '0'
  | '\\' => some '\\'
  | '"' => some '"'
  | _ => none

/-- The character that a letter after a backslash stands for. -/
def escaped? : Char → Option Char
  | 'n' => some '\n'
  | 't' => some '\t'
  | 'r' => some '\r'
  | '0' => some '\x00'
  | '\\' => some '\\'
  | '"' => some '"'
  | _ => none

/-- How one character is written inside quotes. -/
def writeChar (c : Char) : List Char :=
  match escapeLetter? c with
  | some letter => ['\\', letter]
  | none => [c]

/-- The characters of a string as they are written, with the closing quote. -/
def writeTail (text : List Char) : List Char := text.flatMap writeChar ++ ['"']

/-- A string literal. -/
def write (text : String) : String := String.ofList ('"' :: writeTail text.toList)

/-- Read a string literal after its opening quote: its text, and what follows it. -/
def readTail : List Char → Except Fault (List Char × List Char)
  | [] => .error .unterminated
  | '"' :: rest => .ok ([], rest)
  | '\\' :: [] => .error .unterminated
  | '\\' :: letter :: rest =>
      match escaped? letter with
      | none => .error (.unknownEscape letter)
      | some c =>
          match readTail rest with
          | .error fault => .error fault
          | .ok (text, after) => .ok (c :: text, after)
  | c :: rest =>
      match readTail rest with
      | .error fault => .error fault
      | .ok (text, after) => .ok (c :: text, after)

/-- A letter that writes a character reads back as it. -/
theorem escaped?_escapeLetter {c letter : Char} (written : escapeLetter? c = some letter) :
    escaped? letter = some c := by
  unfold escapeLetter? at written
  split at written <;> simp_all <;> subst written <;> rfl

/-- A character that is neither a quote nor a backslash reads as itself. -/
theorem readTail_cons {c : Char} (rest : List Char) (notQuote : c ≠ '"')
    (notSlash : c ≠ '\\') :
    readTail (c :: rest) =
      match readTail rest with
      | .error fault => .error fault
      | .ok (text, after) => .ok (c :: text, after) := by
  rw [readTail.eq_def]
  split <;> simp_all

/-- Reading what was written gives the text back and leaves the rest alone. -/
@[simp]
theorem readTail_writeTail (text rest : List Char) :
    readTail (writeTail text ++ rest) = .ok (text, rest) := by
  induction text with
  | nil => simp [writeTail, readTail]
  | cons c text ih =>
      have step : writeTail (c :: text) = writeChar c ++ writeTail text := by
        simp [writeTail]
      rw [step, List.append_assoc]
      cases h : escapeLetter? c with
      | some letter =>
          simp [writeChar, h, readTail, escaped?_escapeLetter h, ih]
      | none =>
          have notQuote : c ≠ '"' := by rintro rfl; simp [escapeLetter?] at h
          have notSlash : c ≠ '\\' := by rintro rfl; simp [escapeLetter?] at h
          simp [writeChar, h, readTail_cons _ notQuote notSlash, ih]

/-- What follows a string literal is shorter than what began after its opening quote. -/
theorem length_rest_lt {chars text rest : List Char}
    (read : readTail chars = .ok (text, rest)) : rest.length < chars.length := by
  fun_induction readTail chars generalizing text rest <;> grind

end Quoted

end NullWeave
