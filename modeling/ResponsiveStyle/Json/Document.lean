/-
# JSON documents as written

A document keeps what a value has lost: repeated members, numerals that have no number because it is
too large, and texts that have no characters. So a reader that passes over a part of the document
need not find a value in it. The tokens are read with an explicit stack of the lists and records
that are still open.
-/
import ResponsiveStyle.Json.Basic
import ResponsiveStyle.Json.Number

namespace ResponsiveStyle.Json

/-- A JSON document as written. -/
inductive Document
  | null
  | bool (value : Bool)
  | integer (value : Int)
  | float (value : Float)
  | overlarge
  | text (content : Option String)
  | list (items : List Document)
  | record (members : List (Option String × Document))
  deriving Repr, Inhabited

namespace Document

/-- The document of a numeral. -/
def ofNumeral (n : Numeral) : Document :=
  match n.integer?, n.float? with
  | some i, _ => .integer i
  | none, some x => .float x
  | none, none => .overlarge

/-! ## Reading tokens -/

/-- A list or record that is still open, with the place of the value that comes next. Items and
members are kept in reverse. -/
inductive Frame
  | item (items : List Document)
  | member (members : List (Option String × Document)) (key : Option String)

/-- What the next token has to be, with the open lists and records from the inside out. -/
inductive State
  | value (frames : List Frame)
  | firstItem (frames : List Frame)
  | firstKey (frames : List Frame)
  | key (members : List (Option String × Document)) (frames : List Frame)
  | colon (members : List (Option String × Document)) (key : Option String) (frames : List Frame)
  | afterItem (items : List Document) (frames : List Frame)
  | afterMember (members : List (Option String × Document)) (frames : List Frame)
  | complete (document : Document)

/-- The state after a whole value at the place that the frames name. -/
def State.close (d : Document) : List Frame → State
  | [] => .complete d
  | .item items :: frames => .afterItem (d :: items) frames
  | .member members k :: frames => .afterMember ((k, d) :: members) frames

/-- The state after the first token of a value. -/
def State.open? (frames : List Frame) : Token → Option State
  | .openList => some (.firstItem frames)
  | .openRecord => some (.firstKey frames)
  | .null => some (.close .null frames)
  | .bool b => some (.close (.bool b) frames)
  | .number n => some (.close (ofNumeral n) frames)
  | .text s => some (.close (.text s) frames)
  | _ => none

/-- The state after one more token. -/
def State.step? : State → Token → Option State
  | .value frames, t => State.open? frames t
  | .firstItem frames, .closeList => some (.close (.list []) frames)
  | .firstItem frames, t => State.open? (.item [] :: frames) t
  | .firstKey frames, .closeRecord => some (.close (.record []) frames)
  | .firstKey frames, .text k => some (.colon [] k frames)
  | .key members frames, .text k => some (.colon members k frames)
  | .colon members k frames, .colon => some (.value (.member members k :: frames))
  | .afterItem items frames, .comma => some (.value (.item items :: frames))
  | .afterItem items frames, .closeList => some (.close (.list items.reverse) frames)
  | .afterMember members frames, .comma => some (.key members frames)
  | .afterMember members frames, .closeRecord => some (.close (.record members.reverse) frames)
  | _, _ => none

/-- The document that a text holds, with nothing but blanks around it. -/
def ofText? (s : String) : Option Document :=
  match (tokens? s).bind fun ts => ts.foldlM State.step? (.value []) with
  | some (.complete d) => some d
  | _ => none

end Document

/-! ## Values -/

namespace Document

/-- The deepest nesting of lists and records that is read. -/
def nestingLimit : Nat := 127

mutual
/-- The value of a document whose lists and records nest at most `depth` deep. -/
def value? (depth : Nat) : Document → Option Json
  | .null => some .null
  | .bool b => some (.bool b)
  | .integer n => some (.integer n)
  | .float x => some (.float x)
  | .overlarge => none
  | .text s => s.map .text
  | .list items => if depth == 0 then none else (itemValues? (depth - 1) items).map .list
  | .record members =>
    if depth == 0 then none else (memberValues? (depth - 1) members).map Json.ofMembers

/-- The values of items. -/
def itemValues? (depth : Nat) : List Document → Option (List Json)
  | [] => some []
  | d :: ds => do
    let j ← value? depth d
    let js ← itemValues? depth ds
    return j :: js

/-- The values of members, as often as they are written. -/
def memberValues? (depth : Nat) : List (Option String × Document) → Option (List (String × Json))
  | [] => some []
  | (k, d) :: ms => do
    let key ← k
    let j ← value? depth d
    let js ← memberValues? depth ms
    return (key, j) :: js
end

end Document

/-- The value that a text holds. -/
def ofText? (s : String) : Option Json :=
  (Document.ofText? s).bind (Document.value? Document.nestingLimit)

end ResponsiveStyle.Json
