/-
# Printing JSON

The compact text of a value: no blanks, members in order, and in texts only the quote, the backslash
and the control characters escaped. Floating numbers have the fewest digits that read back; whole
ones end in `.0`, and very large and very small ones are written with a power of ten.
-/
import ResponsiveStyle.Json.Basic
import ResponsiveStyle.Decimal.Layout

namespace ResponsiveStyle.Json

open Text (signedDigits hexDigits)
open Decimal (Binary shortest)

/-! ## Texts -/

/-- A character as it stands in a JSON text. -/
def escapedChar (c : Char) : List Char :=
  match c with
  | '"' => ['\\', '"']
  | '\\' => ['\\', '\\']
  | '\x08' => ['\\', 'b']
  | '\x0c' => ['\\', 'f']
  | '\n' => ['\\', 'n']
  | '\r' => ['\\', 'r']
  | '\t' => ['\\', 't']
  | c => if c.toNat < 0x20 then ['\\', 'u'] ++ hexDigits 4 c.toNat else [c]

/-- A text between quotes. -/
def quotedText (s : String) : List Char := '"' :: s.toList.flatMap escapedChar ++ ['"']

/-! ## Numbers -/

/-- A finite number other than zero: all places for `10 ^ -5 ≤ x < 10 ^ 16`, a power of ten outside
of that range. -/
def magnitude (s : Decimal.Scaled) : List Char :=
  if -5 < s.places && s.places ≤ 16 then
    if 0 ≤ s.exponent then s.positional ++ ['.', '0'] else s.positional
  else s.exponential true

/-- The text of a floating number; one that is not finite is null. Ties go to the even digit. -/
def floatText (x : Float) : List Char :=
  match Binary.ofFloat x with
  | .finite negative 0 _ => Decimal.signed negative ['0', '.', '0']
  | .finite negative m q => Decimal.signed negative (magnitude (shortest .even m q))
  | _ => ['n', 'u', 'l', 'l']

/-! ## Values -/

mutual
/-- The compact text of a value. -/
def chars : Json → List Char
  | .null => ['n', 'u', 'l', 'l']
  | .bool true => ['t', 'r', 'u', 'e']
  | .bool false => ['f', 'a', 'l', 's', 'e']
  | .integer n => signedDigits n
  | .float x => floatText x
  | .text s => quotedText s
  | .list items => '[' :: itemChars items ++ [']']
  | .record members => '\x7b' :: memberChars members ++ ['\x7d']

/-- The texts of items with commas between them. -/
def itemChars : List Json → List Char
  | [] => []
  | [j] => chars j
  | j :: js => chars j ++ ',' :: itemChars js

/-- The texts of members with commas between them. -/
def memberChars : List (String × Json) → List Char
  | [] => []
  | [(key, j)] => quotedText key ++ ':' :: chars j
  | (key, j) :: ms => quotedText key ++ ':' :: chars j ++ ',' :: memberChars ms
end

/-- The compact text of a value. -/
def print (j : Json) : String := String.ofList (chars j)

end ResponsiveStyle.Json
