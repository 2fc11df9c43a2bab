/-
# Collecting the styles of blocks

The place of a block is the path that leads to it, by the numbers of the blocks on the way among
their neighbours. The preorder of blocks is the order of their places, where a block comes before
the ones within it and these come before its next neighbour (`exists_placed`). So the styles of
blocks are collected in this order, behind what the pass has already; what is there already or comes
up again is left out; and once collected, the same blocks add nothing more (`collect_placed`).
-/
import ResponsiveStyle.Proofs.Sheet.Calls
import ResponsiveStyle.Proofs.Site.Blocks

namespace ResponsiveStyle.Site.Block

open Sheet (Pass contents)

/-! ## Places -/

/-- The block that a path leads to from a block. -/
def descendant? (b : Block) : List Nat → Option Block
  | [] => some b
  | i :: path => b.inner[i]?.bind fun next => next.descendant? path

/-- The block that a path leads to from blocks. -/
def blockAt? (blocks : List Block) : List Nat → Option Block
  | [] => none
  | i :: path => blocks[i]?.bind fun next => next.descendant? path

/-- Whether a place comes before another one: where the paths part it goes to an earlier block, or
it ends there. -/
def Before (path path' : List Nat) : Prop := List.Lex (· < ·) path path'

mutual
/-- A block and all blocks within it with the paths from it. -/
def placed : Block → List (List Nat × Block)
  | ⟨name, attributes, inner⟩ => ([], ⟨name, attributes, inner⟩) :: placedFrom 0 inner

/-- Blocks that are numbered from `i` on, and all blocks within them, with their paths. -/
def placedFrom (i : Nat) : List Block → List (List Nat × Block)
  | [] => []
  | b :: bs => b.placed.map (fun p => (i :: p.1, p.2)) ++ placedFrom (i + 1) bs
end

mutual
/-- The blocks with their paths are the blocks in preorder. -/
theorem map_snd_placed : ∀ b : Block, b.placed.map Prod.snd = b.family
  | ⟨_, _, inner⟩ => by rw [placed, family, List.map_cons, map_snd_placedFrom 0 inner]

theorem map_snd_placedFrom :
    ∀ (i : Nat) (bs : List Block), (placedFrom i bs).map Prod.snd = families bs
  | _, [] => by rw [placedFrom, families, List.map_nil]
  | i, b :: bs => by
    have hsnd : b.placed.map (Prod.snd ∘ fun p => (i :: p.1, p.2)) = b.family := map_snd_placed b
    rw [placedFrom, families, List.map_append, List.map_map, hsnd, map_snd_placedFrom (i + 1) bs]
end

/-- A path from the first number of blocks goes to the first of them, or on to the others. -/
theorem mem_placedFrom_cons {i : Nat} {b : Block} {bs : List Block} {path : List Nat} {d : Block} :
    (path, d) ∈ placedFrom i (b :: bs)
      ↔ (∃ rest, path = i :: rest ∧ (rest, d) ∈ b.placed) ∨ (path, d) ∈ placedFrom (i + 1) bs := by
  rw [placedFrom, List.mem_append, List.mem_map]
  simp only [Prod.exists, Prod.mk.injEq]
  constructor
  · rintro (⟨rest, d', hmem, rfl, rfl⟩ | h)
    · exact .inl ⟨rest, rfl, hmem⟩
    · exact .inr h
  · rintro (⟨rest, rfl, hmem⟩ | h)
    · exact .inl ⟨rest, d, hmem, rfl, rfl⟩
    · exact .inr h

mutual
/-- The paths from a block are those that lead to a block. -/
theorem mem_placed : ∀ (b : Block) (path : List Nat) (d : Block),
    (path, d) ∈ b.placed ↔ b.descendant? path = some d
  | ⟨name, attributes, inner⟩, path, d => by
    rw [placed, List.mem_cons, mem_placedFrom 0 inner path d]
    cases path with
    | nil => simp [descendant?, eq_comm]
    | cons j rest => simp [descendant?]

theorem mem_placedFrom : ∀ (i : Nat) (bs : List Block) (path : List Nat) (d : Block),
    (path, d) ∈ placedFrom i bs
      ↔ ∃ j rest, path = (i + j) :: rest ∧ (bs[j]?.bind fun b => b.descendant? rest) = some d
  | i, [], path, d => by simp [placedFrom]
  | i, b :: bs, path, d => by
    rw [mem_placedFrom_cons, mem_placedFrom (i + 1) bs path d]
    simp only [mem_placed b]
    constructor
    · rintro (⟨rest, rfl, hd⟩ | ⟨j, rest, rfl, hd⟩)
      · exact ⟨0, rest, rfl, hd⟩
      · exact ⟨j + 1, rest, by rw [Nat.add_right_comm, Nat.add_assoc], hd⟩
    · rintro ⟨j, rest, rfl, hd⟩
      cases j with
      | zero => exact .inl ⟨rest, rfl, hd⟩
      | succ j => exact .inr ⟨j, rest, by rw [Nat.add_right_comm, Nat.add_assoc], hd⟩
end

mutual
/-- The blocks from a block are listed in the order of their places. -/
theorem pairwise_placed : ∀ b : Block, b.placed.Pairwise fun p q => Before p.1 q.1
  | ⟨name, attributes, inner⟩ => by
    rw [placed, List.pairwise_cons]
    refine ⟨?_, pairwise_placedFrom 0 inner⟩
    rintro ⟨path, d⟩ hmem
    obtain ⟨j, rest, rfl, -⟩ := (mem_placedFrom 0 inner path d).mp hmem
    exact .nil

theorem pairwise_placedFrom : ∀ (i : Nat) (bs : List Block),
    (placedFrom i bs).Pairwise fun p q => Before p.1 q.1
  | _, [] => by
    rw [placedFrom]
    exact .nil
  | i, b :: bs => by
    rw [placedFrom, List.pairwise_append]
    refine ⟨?_, pairwise_placedFrom (i + 1) bs, ?_⟩
    · rw [List.pairwise_map]
      exact (pairwise_placed b).imp fun h => .cons h
    · -- the paths to later blocks begin with greater numbers
      rintro ⟨path, d⟩ hfirst ⟨path', d'⟩ hlater
      obtain ⟨⟨rest, d''⟩, -, heq⟩ := List.mem_map.mp hfirst
      obtain ⟨j, rest', rfl, -⟩ := (mem_placedFrom (i + 1) bs path' d').mp hlater
      obtain ⟨rfl, rfl⟩ := Prod.mk.inj heq
      exact .rel (by omega)
end

/-- The preorder of blocks is the order of their places. -/
theorem exists_placed (blocks : List Block) :
    ∃ located : List (List Nat × Block), located.map Prod.snd = families blocks ∧
      (located.Pairwise fun p q => Before p.1 q.1) ∧
      ∀ path d, (path, d) ∈ located ↔ blockAt? blocks path = some d := by
  refine ⟨placedFrom 0 blocks, map_snd_placedFrom 0 blocks, pairwise_placedFrom 0 blocks, ?_⟩
  intro path d
  rw [mem_placedFrom]
  cases path with
  | nil => simp [blockAt?]
  | cons i rest => simp [blockAt?]

/-! ## Counting -/

mutual
/-- A block counts what it adds. -/
theorem size_gather (c : Config) :
    ∀ (b : Block) (p : Pass), (gather c b p).1 + p.size = (gather c b p).2.size
  | ⟨name, attributes, inner⟩, p => by
    have hinner := size_gatherAll c inner (p.push (css c ⟨name, attributes, inner⟩))
    rw [Pass.size_push] at hinner
    rw [gather]
    simp only
    omega

/-- Blocks count what they add. -/
theorem size_gatherAll (c : Config) :
    ∀ (bs : List Block) (p : Pass), (gatherAll c bs p).1 + p.size = (gatherAll c bs p).2.size
  | [], _ => Nat.zero_add _
  | b :: bs, p => by
    have hfirst := size_gather c b p
    have hothers := size_gatherAll c bs (gather c b p).2
    rw [gatherAll]
    simp only
    omega
end

/-! ## Collecting -/

/-- The styles of blocks are collected in the order of the places of the blocks, whatever calls have
led to the pass: the fragments that it has, and then the style sheets of the blocks that are not
blank, without the blanks at their ends, as far as they are not there already, and the first ones of
each content only. The number of fragments grows by the one that is returned, and the same blocks
add nothing more. -/
theorem collect_placed (c : Config) (blocks : List Block) (calls : List Pass.Call) :
    let p := Pass.empty.run calls
    let q := collect c blocks p
    (∃ located : List (List Nat × Block),
        (located.Pairwise fun p q => Before p.1 q.1) ∧
        (∀ path d, (path, d) ∈ located ↔ blockAt? blocks path = some d) ∧
        q.fragments = p.fragments ++
          ((contents (located.map fun l =>
              Sheet.renderAttributes c l.2.name l.2.attributes)).removeAll
            p.fragments).eraseDups) ∧
      q.size = p.size + collectedCount c blocks p ∧
      collect c blocks q = q ∧ collectedCount c blocks q = 0 := by
  intro p q
  have hp : p.Coherent := by
    show (Pass.empty.run calls).Coherent
    rw [Pass.run_empty]
    exact Pass.coherent_empty.pushAll _
  have hq : q = p.pushAll ((families blocks).map (css c)) := collect_eq_pushAll c blocks p
  have hfragments := Pass.fragments_pushAll hp ((families blocks).map (css c))
  rw [← hq] at hfragments
  have hagain : collect c blocks q = q := by
    rw [collect_eq_pushAll]
    refine Pass.pushAll_of_subset (hq ▸ hp.pushAll _) ?_
    rw [hq]
    exact Pass.contents_subset_pushAll hp _
  have hcount : ∀ p, collectedCount c blocks p + p.size = (collect c blocks p).size :=
    size_gatherAll c blocks
  refine ⟨?_, ?_, hagain, ?_⟩
  · obtain ⟨located, hfamilies, hordered, hmem⟩ := exists_placed blocks
    refine ⟨located, hordered, hmem, ?_⟩
    rw [hfragments, ← hfamilies, List.map_map]
    rfl
  · rw [← hcount p, Nat.add_comm]
  · have hnothing := hcount q
    rw [hagain] at hnothing
    omega

end ResponsiveStyle.Site.Block
