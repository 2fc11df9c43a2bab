/-
# Grid lines

A grid line is given by its number or its name, or left to the grid. Numbers have 32 bits; there is
no line zero, so zero is replaced before it is written.
-/
import ResponsiveStyle.Text.Blank
import ResponsiveStyle.Text.Numeral

namespace ResponsiveStyle.Grid

open Text (trim sameIgnoringCase int32? intText)

/-- A reference to a grid line. -/
inductive Line
  | auto
  | number (n : Int)
  | named (name : String)
  deriving DecidableEq, Repr

namespace Line

/-- The line of a trimmed token. -/
def ofChars (token : List Char) : Line :=
  if token.isEmpty || sameIgnoringCase "auto".toList token then .auto
  else match int32? token with
    | some n => .number n
    | none => .named (String.ofList token)

/-- The line of a token. -/
def parse (token : String) : Line := ofChars (trim token.toList)

/-- Whether the line is left to the grid. -/
def isAuto : Line → Bool
  | .auto => true
  | _ => false

/-- The line with a number in place of zero; if that is zero too, the line is left to the grid. -/
def orFallback (fallback : Int) : Line → Line
  | .number n => if n == 0 then (if fallback == 0 then .auto else .number fallback) else .number n
  | l => l

/-- The text of a line. -/
def text : Line → String
  | .auto => "auto"
  | .number n => intText n
  | .named name => name

end Line

/-- The number behind the word `span` of a trimmed token. -/
def spanOfChars? (token : List Char) : Option Int :=
  if sameIgnoringCase "span".toList (token.take 4) then int32? (trim (token.drop 4)) else none

end ResponsiveStyle.Grid
