/-
# Paths

A path is a text of names with slashes between them. Empty names and single points lead nowhere, and
two points lead back to the directory above.
-/
import ResponsiveStyle.Text.Blank

namespace ResponsiveStyle.Output.Path

/-- The names of a path as they are written. -/
def segments (path : String) : List String :=
  (Text.splitAt '/' path.toList).map String.ofList

/-- Whether a name of a path leads nowhere. -/
def isStay (name : String) : Bool := name == "" || name == "."

/-- The name of the file or directory at the end of a path, unless it ends by leading back. -/
def fileName? (path : String) : Option String :=
  ((segments path).filter fun s => !isStay s).getLast?.filter (· != "..")

/-- The characters before and behind the last `sep`, if there is one. -/
def cutAtLast? (sep : Char) (cs : List Char) : Option (List Char × List Char) :=
  let behind := cs.reverse.takeWhile (· != sep)
  match cs.reverse.dropWhile (· != sep) with
  | [] => none
  | _ :: before => some (before.reverse, behind.reverse)

/-- The name without the part from its last point on; a point in front is part of the name. -/
def stem (name : String) : String :=
  match cutAtLast? '.' name.toList with
  | some (before, _) => if before.isEmpty then name else String.ofList before
  | none => name

/-- The name of the file at the end of a path without the part from its last point on. -/
def fileStem? (path : String) : Option String := (fileName? path).map stem

end ResponsiveStyle.Output.Path
