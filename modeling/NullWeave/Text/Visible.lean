import NullWeave.Text.Character.Extender
import NullWeave.Text.Character.Unprintable

/-!
# Strings made visible

Messages that show a string as a value put it between quotes.  The six escapes
of string literals are used, and any other character that could not be seen, or
that would be drawn onto the one before it, is shown by its code point in
hexadecimal.
-/

namespace NullWeave

/-- How one character is shown. -/
def visibleChar (c : Char) : List Char :=
  match c with
  | '\x00' => ['\\', '0']
  | '\t' => ['\\', 't']
  | '\r' => ['\\', 'r']
  | '\n' => ['\\', 'n']
  | '\\' => ['\\', '\\']
  | '"' => ['\\', '"']
  | _ =>
      if isOverlaid c || isUnprintable c then
        ['\\', 'u', '\x7b'] ++ Nat.toDigits 16 c.toNat ++ ['\x7d']
      else
        [c]

/-- A string between quotes with every character visible. -/
def visible (text : String) : String :=
  String.ofList ('"' :: text.toList.flatMap visibleChar ++ ['"'])

end NullWeave
