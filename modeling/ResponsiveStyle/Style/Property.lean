/-
# Property names

A property goes by one key, however it is spelled: `marginTop` and `margin-top` are the same
property. Custom properties, which begin with two hyphens, keep their spelling.
-/
import ResponsiveStyle.Text.Blank

namespace ResponsiveStyle.Style

open Text (trim trimmed)

/-- One character of a name in the spelling with hyphens. -/
def hyphenated (c : Char) : List Char :=
  if c.isUpper then ['-', c.toLower] else if c == '_' then ['-'] else [c]

/-- The key of a name without blanks at its ends. -/
def keyChars : List Char → List Char
  | '-' :: '-' :: cs => '-' :: '-' :: cs
  | cs => cs.flatMap hyphenated

/-- The key by which a property is looked up. -/
def propertyKey (name : String) : String := String.ofList (keyChars (trim name.toList))

/-- A name of blanks only names no property. -/
def isBlankName (name : String) : Bool := (trim name.toList).isEmpty

end ResponsiveStyle.Style
