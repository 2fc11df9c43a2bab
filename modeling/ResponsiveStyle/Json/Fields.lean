/-
# Typed parts of documents

How a structure, a list, a table or a scalar is read from a document. A structure is a record or the
list of its fields in order. Members with other names are passed over unread, a field may occur once
only, and a field that is missing is up to the caller. The depth is the nesting still allowed.
-/
import ResponsiveStyle.Json.Document

namespace ResponsiveStyle.Json.Document

/-! ## Scalars -/

/-- The characters of a text. -/
def asText? : Document → Option String
  | .text s => s
  | _ => none

/-- An integer from zero to `max`. -/
def asNat? (max : Nat) : Document → Option Nat
  | .integer (.ofNat n) => if n ≤ max then some n else none
  | _ => none

/-! ## Lists and tables -/

/-- The items of a list, each read by `read`. -/
def asList? {α : Type} (depth : Nat) (read : Nat → Document → Option α) : Document → Option (List α)
  | .list items => if depth == 0 then none else items.mapM (read (depth - 1))
  | _ => none

/-- The members of a record in order, each value read by `read`. -/
def asTable? {α : Type} (depth : Nat) (read : Nat → Document → Option α) :
    Document → Option (List (String × α))
  | .record members =>
    if depth == 0 then none
    else members.mapM fun (k, d) => do return (← k, ← read (depth - 1) d)
  | _ => none

/-! ## Structures -/

/-- The one member that goes by one of `names`: `none` if there are several, `some none` if there is
none. -/
def onlyMember? (names : List String) (members : List (String × Document)) :
    Option (Option Document) :=
  match members.filter fun m => names.contains m.1 with
  | [] => some none
  | [m] => some (some m.2)
  | _ => none

/-- The fields of a structure in order; each field goes by one or more names. -/
def fields? (depth : Nat) (names : List (List String)) : Document → Option (List (Option Document))
  | .record members =>
    if depth == 0 then none
    else do
      let members ← members.mapM fun (k, d) => k.map fun k => (k, d)
      names.mapM fun ns => onlyMember? ns members
  | .list items =>
    if depth == 0 || names.length < items.length then none
    else some (items.map some ++ List.replicate (names.length - items.length) none)
  | _ => none

/-- The value of a field, or `default` if the field is missing. -/
def orDefault? {α : Type} (default : α) (read : Document → Option α) : Option Document → Option α
  | none => some default
  | some d => read d

end ResponsiveStyle.Json.Document
