/-
# Style values

A value is a text with its unit or a bare number. Editors leave the texts `null` and `undefined`
behind, which count as no value, and write the importance of a declaration behind its value.

* `Value.display` is the text of a value in a style sheet.
* `isAbsent` recognises the texts that are no value.
* `splitImportance` parts a text from the mark of importance at its end.
-/
import ResponsiveStyle.Decimal.Layout
import ResponsiveStyle.Text.Blank

namespace ResponsiveStyle.Style

open Text (trim isBlank after? lower)
open Decimal (Binary shortest)

/-- A text with its unit, or a bare number. -/
inductive Value
  | number (x : Float)
  | text (s : String)
  deriving BEq, DecidableEq, Repr

/-! ## Text of a value -/

/-- The text of a number: all places of the fewest digits that read back, a tie upwards. Zero has no
sign. -/
def numberChars (x : Float) : List Char :=
  match Binary.ofFloat x with
  | .nan => "NaN".toList
  | .infinite negative => Decimal.signed negative "inf".toList
  | .finite _ 0 _ => ['0']
  | .finite negative m q => Decimal.signed negative (shortest .up m q).positional

/-- The text of a value. -/
def Value.display : Value → String
  | .number x => String.ofList (numberChars x)
  | .text s => s

/-! ## Absent texts -/

/-- Whether a text counts as no value. -/
def isAbsentChars (cs : List Char) : Bool :=
  let body := trim cs
  body.isEmpty || body == "null".toList || body == "undefined".toList

/-- Whether a text counts as no value. -/
def isAbsent (s : String) : Bool := isAbsentChars s.toList

/-! ## Importance -/

/-- The word of the mark of importance from its end to its start. -/
def importantBackwards : List Char := "important".toList.reverse

/-- What follows `start` in `cs` when case is ignored, if `cs` begins with it. -/
def afterIgnoringCase? (start cs : List Char) : Option (List Char) :=
  (after? start (lower (cs.take start.length))).map fun _ => cs.drop start.length

/-- What precedes the mark of importance in a text that is read from its end. -/
def beforeMark? (backwards : List Char) : Option (List Char) :=
  (afterIgnoringCase? importantBackwards (backwards.dropWhile isBlank)).bind fun rest =>
    match rest.dropWhile isBlank with
    | '!' :: before => some before
    | _ => none

/-- The trimmed text without the mark of importance at its end, and whether the mark was there. -/
def splitImportance (cs : List Char) : List Char × Bool :=
  match beforeMark? cs.reverse with
  | some before => (trim before.reverse, true)
  | none => (trim cs, false)

end ResponsiveStyle.Style
