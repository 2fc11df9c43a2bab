/-
# Buckets of declarations

The declarations of one tier in the order in which their properties came up. Looking up, putting and
removing go by the key of the property.
-/
import ResponsiveStyle.Style.Declaration

namespace ResponsiveStyle.Style

/-- The declarations of one tier. -/
structure Bucket where
  declarations : List Declaration
  deriving BEq, DecidableEq, Repr

namespace Bucket

/-- The bucket without declarations. -/
def empty : Bucket := ⟨[]⟩

/-- Whether there is no declaration. -/
def isEmpty (b : Bucket) : Bool := b.declarations.isEmpty

/-- The number of declarations. -/
def size (b : Bucket) : Nat := b.declarations.length

/-- The first declaration of a property. -/
def get? (b : Bucket) (property : String) : Option Declaration :=
  b.declarations.find? fun d => d.key == propertyKey property

/-- The declarations with `d` at the place of the first one with its key, or at the end. -/
def putIn (d : Declaration) : List Declaration → List Declaration
  | [] => [d]
  | e :: es => if e.key == d.key then d :: es else e :: putIn d es

/-- The bucket with a declaration put in; its property keeps its place. -/
def put (b : Bucket) (d : Declaration) : Bucket := ⟨putIn d b.declarations⟩

/-- The bucket without the declarations of a property. -/
def remove (b : Bucket) (property : String) : Bucket :=
  ⟨b.declarations.filter fun d => d.key != propertyKey property⟩

/-- The bucket with a declaration behind all others, whatever its key. -/
def append (b : Bucket) (d : Declaration) : Bucket := ⟨b.declarations ++ [d]⟩

/-- The bucket of the declarations put one after the other. -/
def ofList (ds : List Declaration) : Bucket := ds.foldl put empty

/-- The record of the values by the names of their properties. -/
def toJson (b : Bucket) : Json :=
  .record [("styles", Json.ofMembers (b.declarations.map fun d => (d.property, d.toJson)))]

end Bucket

end ResponsiveStyle.Style
