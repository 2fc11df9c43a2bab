/-
# Scope ids

A scope id ties a record of styles to the selector of its node. It consists of at most 64 ASCII
letters, digits, hyphens, underscores, colons and points.
-/
import ResponsiveStyle.Text.Numeral

namespace ResponsiveStyle.Style.ScopeId

/-- The characters of scope ids. -/
def isIdChar (c : Char) : Bool := c.isAlphanum || c == '-' || c == '_' || c == ':' || c == '.'

/-- The greatest length of a scope id. -/
def maxLength : Nat := 64

/-- The scope id that is left of a text, unless nothing is. -/
def sanitize? (raw : String) : Option String :=
  let cs := (raw.toList.filter isIdChar).take maxLength
  if cs.isEmpty then none else some (String.ofList cs)

/-- The scope id made of a number of 48 bits: twelve hexadecimal digits behind a fixed start. -/
def fresh (entropy : Nat) : String := String.ofList ("cst-".toList ++ Text.hexDigits 12 entropy)

end ResponsiveStyle.Style.ScopeId
