/-
# Quoted texts

A text between double quotes, as messages show it: the quote and the backslash are escaped, the
control characters with a short name go by that name, and every other character that leaves no mark
of its own is shown by its number.
-/
import ResponsiveStyle.Text.Invisible
import ResponsiveStyle.Text.Numeral

namespace ResponsiveStyle.Text

/-- A character as it stands between the quotes. -/
def quotedChar (c : Char) : List Char :=
  match c with
  | '\x00' => ['\\', '0']
  | '\t' => ['\\', 't']
  | '\r' => ['\\', 'r']
  | '\n' => ['\\', 'n']
  | '"' => ['\\', '"']
  | '\\' => ['\\', '\\']
  | c => if isInvisible c then ['\\', 'u', '\x7b'] ++ hexNumeral c.toNat ++ ['\x7d'] else [c]

/-- The text between double quotes. -/
def quoted (s : String) : String :=
  String.ofList ('"' :: s.toList.flatMap quotedChar ++ ['"'])

end ResponsiveStyle.Text
