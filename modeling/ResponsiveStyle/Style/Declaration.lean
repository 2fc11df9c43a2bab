/-
# Declarations

A declaration gives a property a value, and may be flagged important. It is made of what an author
writes (`ofInput?`) or of what a document holds (`ofJson?`); both take absent values for no
declaration at all. In a document the importance is folded into the text of the value.
-/
import ResponsiveStyle.Decimal.Reading
import ResponsiveStyle.Json.Basic
import ResponsiveStyle.Style.Property
import ResponsiveStyle.Style.Value

namespace ResponsiveStyle.Style

open Text (trimmed)

/-- A property with its value, under the name it was given. -/
structure Declaration where
  property : String
  value : Value
  important : Bool
  deriving BEq, DecidableEq, Repr

namespace Declaration

/-- The key of the property. -/
def key (d : Declaration) : String := propertyKey d.property

/-! ## Written values -/

/-- The value of a trimmed text: a finite number where a bare number is meant, else the text. -/
def textValue (bare : Bool) (cs : List Char) : Value :=
  if bare then
    match Decimal.float? cs with
    | some x => if x.isFinite then .number x else .text (String.ofList cs)
    | none => .text (String.ofList cs)
  else .text (String.ofList cs)

/-- The declaration of a text: the mark of importance becomes the flag, and only a text without the
mark becomes a number, where the property is unitless. -/
def ofText? (unitless : Bool) (property : String) (s : String) : Option Declaration :=
  let (body, important) := splitImportance s.toList
  if isAbsentChars body then none
  else some ⟨property, textValue (unitless && !important) body, important⟩

/-- The declaration of a number, which stays a number where the property is unitless. -/
def ofNumber? (unitless : Bool) (property : String) (x : Float) : Option Declaration :=
  if !x.isFinite then none
  else some ⟨property, if unitless then .number x else .text (Value.number x).display, false⟩

/-- The declaration that an author's value makes, unless the property is blank or the value
absent. -/
def ofInput? (unitless : Bool) (property : String) (v : Value) : Option Declaration :=
  if isBlankName property then none
  else match v with
    | .text s => ofText? unitless (trimmed property) s
    | .number x => ofNumber? unitless (trimmed property) x

/-- The declaration flagged important; its value becomes a text. -/
def flagged (d : Declaration) : Declaration :=
  { d with value := .text d.value.display, important := true }

/-! ## Documents -/

/-- The declaration that a document's value makes: a text with its mark of importance or a finite
number, and nothing else. -/
def ofJson? (property : String) (j : Json) : Option Declaration :=
  if isBlankName property then none
  else match j with
    | .text s => ofText? false property s
    | j =>
      match j.number? with
      | some x => if x.isFinite then some ⟨property, .number x, false⟩ else none
      | none => none

/-- The text of a value with the mark of importance behind it. -/
def withMark (text : String) : String := text ++ " !important"

/-- The value of a declaration in a document. A number that is not finite has none. -/
def toJson (d : Declaration) : Json :=
  if d.important then .text (withMark d.value.display)
  else match d.value with
    | .text s => .text s
    | .number x => if x.isFinite then .float x else .null

end Declaration

end ResponsiveStyle.Style
