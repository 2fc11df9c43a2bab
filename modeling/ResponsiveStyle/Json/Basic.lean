/-!
# JSON values

Values whose records keep the order in which their members were first written. A key occurs once in
a record that `ofMembers` builds: a repeated key keeps its first place and takes the last value.
-/

namespace ResponsiveStyle

/-- A JSON value. Integers of 64 bits and floating numbers are told apart. -/
inductive Json
  | null
  | bool (value : Bool)
  | integer (value : Int)
  | float (value : Float)
  | text (value : String)
  | list (items : List Json)
  | record (members : List (String × Json))
  deriving Repr, Inhabited

namespace Json

/-! ## Records -/

/-- The members with the value of `key` replaced at its place, or with the member at the end. -/
def putMember (key : String) (value : Json) :
    List (String × Json) → List (String × Json)
  | [] => [(key, value)]
  | m :: ms => if m.1 == key then (key, value) :: ms else m :: putMember key value ms

/-- The members put one after the other: first places, last values. -/
def collapse (members : List (String × Json)) : List (String × Json) :=
  members.foldl (fun ms m => putMember m.1 m.2 ms) []

/-- The record of the members, a repeated key with its first place and its last value. -/
def ofMembers (members : List (String × Json)) : Json := .record (collapse members)

/-- The value of `key` in the members. -/
def findMember? (key : String) (members : List (String × Json)) : Option Json :=
  (members.find? fun m => m.1 == key).map Prod.snd

/-- The value of `key`, if the value is a record with that key. -/
def get? (key : String) : Json → Option Json
  | .record members => findMember? key members
  | _ => none

/-! ## Views -/

/-- The text, if the value is one. -/
def text? : Json → Option String
  | .text s => some s
  | _ => none

/-- An integer as the nearest number of 64 bits. -/
def floatOfInt : Int → Float
  | .ofNat n => n.toUInt64.toFloat
  | .negSucc n => -(n + 1).toUInt64.toFloat

/-- The number, if the value is one. -/
def number? : Json → Option Float
  | .integer n => some (floatOfInt n)
  | .float x => some x
  | _ => none

end Json

end ResponsiveStyle
