/-
# Nodes of a site

A site has nodes, and a node has a tree of blocks whose attributes carry styles. A block is rendered
before the blocks within it.
-/
import ResponsiveStyle.Output.Scope
import ResponsiveStyle.Sheet.Pass
import ResponsiveStyle.Sheet.Render

namespace ResponsiveStyle.Site

open Sheet (Pass)

/-! ## Status -/

/-- Whether and how a node is published. -/
inductive Status
  | published
  | scheduled
  | draft
  | pending
  | restricted
  | inherited
  | trashed
  | autoDraft
  deriving DecidableEq, Repr

namespace Status

/-- Every status. -/
def all : List Status :=
  [.published, .scheduled, .draft, .pending, .restricted, .inherited, .trashed, .autoDraft]

/-- The name of a status in documents. -/
def name : Status → String
  | .published => "publish"
  | .scheduled => "future"
  | .draft => "draft"
  | .pending => "pending"
  | .restricted => "private"
  | .inherited => "inherit"
  | .trashed => "trash"
  | .autoDraft => "auto-draft"

/-- The status of a name. -/
def ofName? (s : String) : Option Status := all.find? fun status => status.name == s

/-- Whether nodes of a status get a style sheet. -/
def isEligible : Status → Bool
  | .trashed | .autoDraft => false
  | _ => true

end Status

/-! ## Blocks -/

/-- A block of a type with its attributes and the blocks within it. -/
structure Block where
  name : String
  attributes : Json
  inner : List Block

namespace Block

/-- The style sheet of a block alone. -/
def css (c : Config) (b : Block) : String := Sheet.renderAttributes c b.name b.attributes

mutual
/-- How many fragments a block and all blocks within it add to a pass, and the pass with them. -/
def gather (c : Config) : Block → Pass → Nat × Pass
  | ⟨name, attributes, inner⟩, p =>
    let text := css c ⟨name, attributes, inner⟩
    let (others, q) := gatherAll c inner (p.push text)
    ((if p.admits text then 1 else 0) + others, q)

/-- How many fragments blocks and all blocks within them add to a pass, and the pass with them. -/
def gatherAll (c : Config) : List Block → Pass → Nat × Pass
  | [], p => (0, p)
  | b :: bs, p =>
    let (added, p) := gather c b p
    let (others, p) := gatherAll c bs p
    (added + others, p)
end

/-- The pass with the styles of blocks and all blocks within them added. -/
def collect (c : Config) (blocks : List Block) (p : Pass) : Pass := (gatherAll c blocks p).2

/-- The number of fragments that blocks add to a pass. -/
def collectedCount (c : Config) (blocks : List Block) (p : Pass) : Nat := (gatherAll c blocks p).1

mutual
/-- The record of a block. -/
def toJson : Block → Json
  | ⟨name, attributes, inner⟩ =>
    .record [("name", .text name), ("attrs", attributes), ("innerBlocks", .list (toJsons inner))]

/-- The records of blocks. -/
def toJsons : List Block → List Json
  | [] => []
  | b :: bs => b.toJson :: toJsons bs
end

end Block

/-! ## Nodes -/

/-- A node with its blocks; the id has 64 bits. -/
structure Node where
  id : Nat
  status : Status
  blocks : List Block

namespace Node

/-- What the style sheet of a node is for. -/
def scope (n : Node) : Output.Scope := .node (Text.natText n.id)

/-- The record of a node. -/
def toJson (n : Node) : Json :=
  .record [("id", .integer n.id), ("status", .text n.status.name),
    ("blocks", .list (Block.toJsons n.blocks))]

/-- The first node with an id. -/
def find? (nodes : List Node) (id : Nat) : Option Node := nodes.find? fun n => n.id == id

end Node

end ResponsiveStyle.Site
