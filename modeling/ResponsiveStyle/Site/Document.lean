/-
# Sites in documents

A site is a structure with its nodes, and nodes and blocks are structures in turn. A status is a
name, or a record that has nothing but this name with null behind it.
-/
import ResponsiveStyle.Json.Fields
import ResponsiveStyle.Site.Node

namespace ResponsiveStyle.Site

open Json (Document)
open Json.Document (asText? asNat? asList? fields? orDefault?)

/-! ## Status -/

/-- The status of a document. -/
def Status.ofDocument? (depth : Nat) : Document → Option Status
  | .text s => s.bind Status.ofName?
  | .record [(key, .null)] => if depth == 0 then none else key.bind Status.ofName?
  | _ => none

/-! ## Blocks -/

namespace Block

/-- The names of the fields. -/
def fieldNames : List (List String) := [["name"], ["attrs"], ["innerBlocks", "inner"]]

mutual
/-- The block of a document. -/
def ofDocument? : (depth : Nat) → Document → Option Block
  | 0, _ => none
  | depth + 1, d => do
    match ← fields? (depth + 1) fieldNames d with
    | [name, attributes, inner] =>
      return {
        name := ← name.bind asText?
        attributes := ← orDefault? .null (Document.value? depth) attributes
        inner := ← orDefault? [] (innerOfDocument? depth) inner }
    | _ => none

/-- The blocks within a block. -/
def innerOfDocument? : (depth : Nat) → Document → Option (List Block)
  | depth + 1, .list items => items.mapM (ofDocument? depth)
  | _, _ => none
end

/-- The blocks that a text holds. -/
def listOfText? (s : String) : Option (List Block) :=
  (Document.ofText? s).bind (asList? Document.nestingLimit ofDocument?)

end Block

/-! ## Nodes -/

namespace Node

/-- The names of the fields. -/
def fieldNames : List (List String) := [["id"], ["status"], ["blocks"]]

/-- The node of a document. -/
def ofDocument? (depth : Nat) (d : Document) : Option Node := do
  match ← fields? depth fieldNames d with
  | [id, status, blocks] =>
    let inner := depth - 1
    return {
      id := ← id.bind (asNat? Text.maxSize)
      status := ← orDefault? .published (Status.ofDocument? inner) status
      blocks := ← orDefault? [] (asList? inner Block.ofDocument?) blocks }
  | _ => none

/-- The nodes of the document of a site. -/
def listOfDocument? (depth : Nat) (d : Document) : Option (List Node) := do
  match ← fields? depth [["nodes"]] d with
  | [nodes] => orDefault? [] (asList? (depth - 1) ofDocument?) nodes
  | _ => none

/-- The nodes of the site that a text holds. -/
def listOfText? (s : String) : Option (List Node) :=
  (Document.ofText? s).bind (listOfDocument? Document.nestingLimit)

end Node

end ResponsiveStyle.Site
