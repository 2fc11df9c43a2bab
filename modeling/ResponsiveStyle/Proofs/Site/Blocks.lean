/-
# The style sheet of a node

To collect the styles of blocks is to push the style sheets of all of them to a pass, of every block
in front of those of the blocks within it (`collect_eq_pushAll`). So the style sheet of a node holds
its fragments, each of them once, with an empty line between neighbours (`sheet_eq`), and it is
blank only if there is none (`isBlankText_sheet`).
-/
import ResponsiveStyle.Proofs.Sheet.Pass
import ResponsiveStyle.Site.Node

namespace ResponsiveStyle.Site

open Sheet (Pass contents)
open Text (isBlankText joined)

namespace Block

mutual
/-- A block and all blocks within it, each one in front of the blocks within it. -/
def family : Block → List Block
  | ⟨name, attributes, inner⟩ => ⟨name, attributes, inner⟩ :: families inner

/-- Blocks and all blocks within them, each one in front of the blocks within it. -/
def families : List Block → List Block
  | [] => []
  | b :: bs => family b ++ families bs
end

mutual
/-- A block adds its own style sheet and then those of the blocks within it. -/
theorem gather_eq_pushAll (c : Config) :
    ∀ (b : Block) (p : Pass), (gather c b p).2 = p.pushAll (b.family.map (css c))
  | ⟨name, attributes, inner⟩, p => by
    rw [gather, family, List.map_cons]
    exact gatherAll_eq_pushAll c inner (p.push (css c ⟨name, attributes, inner⟩))

/-- Blocks add what each of them adds, one after the other. -/
theorem gatherAll_eq_pushAll (c : Config) :
    ∀ (bs : List Block) (p : Pass), (gatherAll c bs p).2 = p.pushAll ((families bs).map (css c))
  | [], _ => rfl
  | b :: bs, p => by
    rw [gatherAll, families, List.map_append, Pass.pushAll_append, ← gather_eq_pushAll c b p]
    exact gatherAll_eq_pushAll c bs (gather c b p).2
end

theorem collect_eq_pushAll (c : Config) (blocks : List Block) (p : Pass) :
    collect c blocks p = p.pushAll ((families blocks).map (css c)) :=
  gatherAll_eq_pushAll c blocks p

end Block

namespace Node

variable (c : Config) (n : Node)

/-- The style sheet that the blocks of a node render to. -/
def sheet : String := (Block.collect c n.blocks .empty).css

/-- What the blocks of a node render to, each one in front of the blocks within it: the texts that
are not blank, without the blanks at their ends, and each of them once. -/
def fragments : List String :=
  (contents ((Block.families n.blocks).map (Block.css c))).eraseDups

/-- The pass of a node holds its fragments. -/
theorem fragments_collect : (Block.collect c n.blocks .empty).fragments = n.fragments c := by
  rw [Block.collect_eq_pushAll, Pass.fragments_pushAll Pass.coherent_empty]
  unfold fragments Pass.empty List.removeAll
  simp

/-- The style sheet of a node holds its fragments. -/
theorem sheet_eq :
    n.sheet c
      = if (n.fragments c).isEmpty then "" else joined "\n\n" (n.fragments c) ++ "\n" := by
  unfold sheet Pass.css
  rw [fragments_collect]

/-- The style sheet of a node is blank only if there is no fragment. -/
theorem isBlankText_sheet : isBlankText (n.sheet c) = (n.fragments c).isEmpty := by
  have hfilled : (Block.collect c n.blocks .empty).Filled := by
    rw [Block.collect_eq_pushAll]
    exact Pass.filled_empty.pushAll _
  unfold sheet
  rw [Pass.isBlankText_css hfilled, fragments_collect]

end Node

end ResponsiveStyle.Site
