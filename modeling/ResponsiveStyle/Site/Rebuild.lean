/-
# Rebuilding the style sheets of a site

Every node is rendered in a pass of its own, which becomes the style sheet of the node. A node that
fails to render is left out, and what it has rendered until then goes into no style sheet.
-/
import ResponsiveStyle.Output.Compile
import ResponsiveStyle.Site.Node

namespace ResponsiveStyle.Site

open Output (Compilation DirectoryPlan Hash)
open Sheet (Pass)

/-- Nodes and the way to render one of them into a pass, which may fail half-way. -/
structure Source where
  nodes : List Node
  render : Node → Pass → Pass × Option Error

namespace Source

/-- The source of nodes that are rendered from their blocks. -/
def ofNodes (c : Config) (nodes : List Node) : Source :=
  ⟨nodes, fun n p => (Block.collect c n.blocks p, none)⟩

/-- The nodes that get a style sheet. -/
def eligible (source : Source) : List Node := source.nodes.filter fun n => n.status.isEligible

/-- Render a node in a pass without anything of what was collected before, and compile the pass. -/
def rebuildNode (hash : Hash) (c : Config) (source : Source) (n : Node) (p : Pass) :
    DirectoryPlan (Option Compilation × Pass) :=
  match source.render n p.reset with
  | (p, some _) => return (none, p.reset)
  | (p, none) => Output.flush hash c p n.scope

/-- Rebuild nodes one by one with one pass that is handed on, and count them. -/
def rebuildEach (hash : Hash) (c : Config) (source : Source) :
    List Node → Pass → DirectoryPlan Nat
  | [], _ => return 0
  | n :: ns, p => do
    let (_, p) ← source.rebuildNode hash c n p
    return (← source.rebuildEach hash c ns p) + 1

/-- Rebuild the style sheets of all eligible nodes, and count the nodes. -/
def rebuildAll (hash : Hash) (c : Config) (source : Source) : DirectoryPlan Nat :=
  source.rebuildEach hash c source.eligible .empty

end Source

end ResponsiveStyle.Site
