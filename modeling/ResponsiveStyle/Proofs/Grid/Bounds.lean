/-
# The rectangle of a name

The bounds of a name are the lines around its cells, if these fill a rectangle. They are found in
one pass over the cells in reading order: the first cell, the last row, the last column, the least
column and the number of cells. That is enough. The first cell has the least row (`isHull_hull`),
and no cell comes twice, so that the cells fill the box around them exactly if there are as many as
the box has (`Box.IsHull.filledBy_iff`).
-/
import Mathlib.Data.Finset.Prod
import Mathlib.Order.Interval.Finset.Nat
import ResponsiveStyle.Proofs.Grid.Areas

namespace ResponsiveStyle.Grid.Areas

/-! ## Cells of a matrix -/

/-- The cell in a row and a column, if the matrix has one there. -/
def cell? (m : Areas) (r c : Nat) : Option String := (m[r]?).bind fun row => row[c]?

/-- A cell is in one of the rows. -/
theorem lt_length_of_cell? {m : Areas} {r c : Nat} {name : String} (h : m.cell? r c = some name) :
    r < m.length ∧ ∃ row ∈ m, c < row.length := by
  obtain ⟨row, hrow, hcell⟩ := Option.bind_eq_some_iff.mp h
  obtain ⟨hr, -⟩ := List.getElem?_eq_some_iff.mp hrow
  obtain ⟨hc, -⟩ := List.getElem?_eq_some_iff.mp hcell
  exact ⟨hr, row, List.mem_of_getElem? hrow, hc⟩

/-- The columns of a name are where a row has it. -/
theorem mem_columnsOf (name : String) (row : List String) (c : Nat) :
    c ∈ columnsOf name row ↔ row[c]? = some name := by
  unfold columnsOf
  rw [List.mem_map]
  constructor
  · rintro ⟨⟨cell, k⟩, hmem, rfl⟩
    obtain ⟨hget, hname⟩ := List.mem_filter.mp hmem
    rw [List.mem_zipIdx_iff_getElem?] at hget
    rwa [← eq_of_beq hname]
  · intro hget
    refine ⟨(name, c), List.mem_filter.mpr ⟨?_, beq_self_eq_true name⟩, rfl⟩
    rwa [List.mem_zipIdx_iff_getElem?]

/-- The positions of a name are where the matrix has it. -/
theorem mem_positions_iff (m : Areas) (name : String) (r c : Nat) :
    (r, c) ∈ positions m name ↔ m.cell? r c = some name := by
  unfold positions cell?
  rw [List.mem_flatMap, Option.bind_eq_some_iff]
  constructor
  · rintro ⟨⟨row, k⟩, hrow, hmem⟩
    obtain ⟨column, hcolumn, heq⟩ := List.mem_map.mp hmem
    obtain ⟨rfl, rfl⟩ := Prod.mk.inj heq
    exact ⟨row, List.mem_zipIdx_iff_getElem?.mp hrow, (mem_columnsOf name row column).mp hcolumn⟩
  · rintro ⟨row, hrow, hcolumn⟩
    exact ⟨(row, r), List.mem_zipIdx_iff_getElem?.mpr hrow,
      List.mem_map_of_mem ((mem_columnsOf name row c).mpr hcolumn)⟩

/-! ## Reading order -/

/-- A cell comes before another one in reading order. -/
def ReadBefore (p q : Nat × Nat) : Prop := p.1 < q.1 ∨ p.1 = q.1 ∧ p.2 < q.2

/-- The places of a list come in their order. -/
theorem pairwise_snd_zipIdx {α : Type} (l : List α) :
    l.zipIdx.Pairwise fun p q => p.2 < q.2 := by
  have hmap : (l.zipIdx.map Prod.snd).Pairwise (· < ·) := by
    rw [List.zipIdx_map_snd]
    exact List.pairwise_lt_range'
  exact List.pairwise_map.mp hmap

/-- The positions of a name come in reading order. -/
theorem pairwise_positions (m : Areas) (name : String) :
    (positions m name).Pairwise ReadBefore := by
  unfold positions
  rw [List.pairwise_flatMap]
  constructor
  · rintro ⟨row, r⟩ -
    have hcolumns : (columnsOf name row).Pairwise (· < ·) :=
      List.pairwise_map.mpr ((pairwise_snd_zipIdx row).filter _)
    refine List.pairwise_map.mpr (hcolumns.imp fun hlt => ?_)
    exact .inr ⟨rfl, hlt⟩
  · refine (pairwise_snd_zipIdx m).imp fun hlt p hp q hq => ?_
    obtain ⟨_, -, rfl⟩ := List.mem_map.mp hp
    obtain ⟨_, -, rfl⟩ := List.mem_map.mp hq
    exact .inl hlt

/-- No position comes twice. -/
theorem nodup_positions (m : Areas) (name : String) : (positions m name).Nodup := by
  refine (pairwise_positions m name).imp ?_
  rintro p q hbefore rfl
  unfold ReadBefore at hbefore
  omega

/-! ## Boxes -/

/-- A box of cells from a first to a last row and from a first to a last column. -/
structure Box where
  top : Nat
  bottom : Nat
  left : Nat
  right : Nat
  rows : top ≤ bottom
  columns : left ≤ right

namespace Box

/-- The cells of a box. -/
def Has (box : Box) (p : Nat × Nat) : Prop :=
  (box.top ≤ p.1 ∧ p.1 ≤ box.bottom) ∧ box.left ≤ p.2 ∧ p.2 ≤ box.right

/-- The number of cells of a box. -/
def area (box : Box) : Nat := (box.bottom - box.top + 1) * (box.right - box.left + 1)

/-- The lines around a box, counted from one. -/
def bounds (box : Box) : Bounds := ⟨box.top + 1, box.bottom + 2, box.left + 1, box.right + 2⟩

/-- A box of which the cells are all that it has. -/
def FilledBy (box : Box) (cells : List (Nat × Nat)) : Prop := ∀ p, p ∈ cells ↔ box.Has p

/-- The least box around some cells: it reaches as far up, down, left and right as they do. -/
structure IsHull (box : Box) (cells : List (Nat × Nat)) : Prop where
  le_top_iff : ∀ n, n ≤ box.top ↔ ∀ p ∈ cells, n ≤ p.1
  bottom_le_iff : ∀ n, box.bottom ≤ n ↔ ∀ p ∈ cells, p.1 ≤ n
  le_left_iff : ∀ n, n ≤ box.left ↔ ∀ p ∈ cells, n ≤ p.2
  right_le_iff : ∀ n, box.right ≤ n ↔ ∀ p ∈ cells, p.2 ≤ n

/-- A filled box has its upper left corner. -/
theorem FilledBy.corner_mem {box : Box} {cells : List (Nat × Nat)} (h : box.FilledBy cells) :
    (box.top, box.left) ∈ cells :=
  (h _).mpr ⟨⟨Nat.le_refl _, box.rows⟩, Nat.le_refl _, box.columns⟩

/-- In reading order the first cell of a filled box is its upper left corner. -/
theorem FilledBy.first_eq {box : Box} {first : Nat × Nat} {rest : List (Nat × Nat)}
    (h : box.FilledBy (first :: rest)) (horder : (first :: rest).Pairwise ReadBefore) :
    first = (box.top, box.left) := by
  have hfirst := (h first).mp List.mem_cons_self
  rcases List.mem_cons.mp h.corner_mem with heq | hrest
  · exact heq.symm
  · have hbefore : ReadBefore first (box.top, box.left) := List.rel_of_pairwise_cons horder hrest
    simp only [Has, ReadBefore] at hfirst hbefore
    omega

/-- The cells are in the box around them. -/
theorem IsHull.has {box : Box} {cells : List (Nat × Nat)} (h : box.IsHull cells) {p : Nat × Nat}
    (hp : p ∈ cells) : box.Has p :=
  ⟨⟨(h.le_top_iff _).mp (Nat.le_refl _) p hp, (h.bottom_le_iff _).mp (Nat.le_refl _) p hp⟩,
    (h.le_left_iff _).mp (Nat.le_refl _) p hp, (h.right_le_iff _).mp (Nat.le_refl _) p hp⟩

/-- Cells fill the box around them exactly if there are as many as the box has. -/
theorem IsHull.filledBy_iff {box : Box} {cells : List (Nat × Nat)} (h : box.IsHull cells)
    (hnodup : cells.Nodup) : box.FilledBy cells ↔ cells.length = box.area := by
  have hmem : ∀ p,
      p ∈ Finset.Icc box.top box.bottom ×ˢ Finset.Icc box.left box.right ↔ box.Has p := by
    intro p
    rw [Finset.mem_product, Finset.mem_Icc, Finset.mem_Icc]
    rfl
  have hcard :
      (Finset.Icc box.top box.bottom ×ˢ Finset.Icc box.left box.right).card = box.area := by
    rw [Finset.card_product, Nat.card_Icc, Nat.card_Icc, Nat.sub_add_comm box.rows,
      Nat.sub_add_comm box.columns]
    rfl
  -- as finite sets, the cells are a part of the box
  have hsubset : cells.toFinset ⊆ Finset.Icc box.top box.bottom ×ˢ Finset.Icc box.left box.right :=
    fun p hp => (hmem p).mpr (h.has (List.mem_toFinset.mp hp))
  have hfilled : box.FilledBy cells ↔
      cells.toFinset = Finset.Icc box.top box.bottom ×ˢ Finset.Icc box.left box.right := by
    rw [Finset.ext_iff]
    simp only [List.mem_toFinset, hmem]
    rfl
  rw [hfilled, ← hcard, ← List.toFinset_card_of_nodup hnodup]
  exact ⟨congrArg Finset.card, fun heq => Finset.eq_of_subset_of_card_le hsubset heq.ge⟩

/-- Only the box around some cells can be filled by them. -/
theorem IsHull.eq_of_filledBy {box other : Box} {cells : List (Nat × Nat)} (h : box.IsHull cells)
    (hother : other.FilledBy cells) : box = other := by
  -- two opposite corners reach as far as the other box does
  have hfirst := h.has hother.corner_mem
  have hlast := h.has ((hother (other.bottom, other.right)).mpr
    ⟨⟨other.rows, Nat.le_refl _⟩, other.columns, Nat.le_refl _⟩)
  have htop := (h.le_top_iff _).mpr fun p hp => ((hother p).mp hp).1.1
  have hbottom := (h.bottom_le_iff _).mpr fun p hp => ((hother p).mp hp).1.2
  have hleft := (h.le_left_iff _).mpr fun p hp => ((hother p).mp hp).2.1
  have hright := (h.right_le_iff _).mpr fun p hp => ((hother p).mp hp).2.2
  simp only [Has] at hfirst hlast
  rw [Box.mk.injEq]
  omega

end Box

/-! ## The box around cells -/

/-- A minimum along a list is within a bound exactly if all values are. -/
theorem le_foldl_min_iff {α : Type} (f : α → Nat) (l : List α) (k n : Nat) :
    n ≤ l.foldl (fun k x => min k (f x)) k ↔ n ≤ k ∧ ∀ x ∈ l, n ≤ f x := by
  induction l generalizing k with
  | nil => simp
  | cons x l ih => rw [List.foldl_cons, ih, Nat.le_min, List.forall_mem_cons, and_assoc]

/-- The box that the pass over the cells finds. -/
def hull (first : Nat × Nat) (rest : List (Nat × Nat)) : Box where
  top := first.1
  bottom := rest.foldl (fun r p => max r p.1) first.1
  left := rest.foldl (fun c p => min c p.2) first.2
  right := rest.foldl (fun c p => max c p.2) first.2
  rows := ((foldl_max_le_iff _ rest _ _).mp (Nat.le_refl _)).1
  columns := ((le_foldl_min_iff _ rest _ _).mp (Nat.le_refl _)).1.trans
    ((foldl_max_le_iff _ rest _ _).mp (Nat.le_refl _)).1

/-- In reading order the first cell has the least row, so that the box is the least one around
them. -/
theorem isHull_hull {first : Nat × Nat} {rest : List (Nat × Nat)}
    (h : (first :: rest).Pairwise ReadBefore) : (hull first rest).IsHull (first :: rest) where
  le_top_iff n := by
    rw [List.forall_mem_cons]
    refine ⟨fun hle => ⟨hle, fun p hp => ?_⟩, And.left⟩
    have hbefore : ReadBefore first p := List.rel_of_pairwise_cons h hp
    exact hle.trans (hbefore.elim Nat.le_of_lt fun heq => Nat.le_of_eq heq.1)
  bottom_le_iff n := by
    rw [List.forall_mem_cons]
    exact foldl_max_le_iff _ rest first.1 n
  le_left_iff n := by
    rw [List.forall_mem_cons]
    exact le_foldl_min_iff _ rest first.2 n
  right_le_iff n := by
    rw [List.forall_mem_cons]
    exact foldl_max_le_iff _ rest first.2 n

/-- The bounds are the lines around the box of the cells if it begins in the column of the first one
and has as many cells. -/
theorem bounds?_of_positions_eq {m : Areas} {name : String} {first : Nat × Nat}
    {rest : List (Nat × Nat)} (h : positions m name = first :: rest) :
    bounds? m name = if (hull first rest).left = first.2 ∧ rest.length + 1 = (hull first rest).area
      then some (hull first rest).bounds else none := by
  unfold bounds?
  rw [h]
  show (if (hull first rest).left != first.2 ||
      rest.length + 1 != ((hull first rest).bottom - (hull first rest).top + 1)
        * ((hull first rest).right - first.2 + 1)
    then none
    else some (Bounds.mk ((hull first rest).top + 1) ((hull first rest).bottom + 2) (first.2 + 1)
      ((hull first rest).right + 2))) = _
  by_cases hleft : (hull first rest).left = first.2
  · rw [← hleft]
    simp [Box.area, Box.bounds]
  · simp [hleft]

/-! ## Bounds -/

/-- The cells between the lines of bounds; lines are counted from one, rows and columns from
zero. -/
def Bounds.Covers (b : Bounds) (r c : Nat) : Prop :=
  (b.rowStart ≤ r + 1 ∧ r + 1 < b.rowEnd) ∧ b.columnStart ≤ c + 1 ∧ c + 1 < b.columnEnd

/-- Bounds around the cells of a name: it has cells, and they are all that lie between the lines. -/
structure Bounds.Enclose (b : Bounds) (m : Areas) (name : String) : Prop where
  present : ∃ r c, m.cell? r c = some name
  cells (r c : Nat) : m.cell? r c = some name ↔ b.Covers r c

/-- A name has bounds exactly if its cells fill a box, and they are the lines around that box. -/
theorem bounds?_eq_some_iff_filledBy (m : Areas) (name : String) (b : Bounds) :
    bounds? m name = some b ↔ ∃ box : Box, box.FilledBy (positions m name) ∧ box.bounds = b := by
  have horder := pairwise_positions m name
  have hnodup := nodup_positions m name
  cases hcells : positions m name with
  | nil =>
    unfold bounds?
    rw [hcells]
    simp only [reduceCtorEq, false_iff]
    rintro ⟨box, hfilled, -⟩
    exact absurd hfilled.corner_mem List.not_mem_nil
  | cons first rest =>
    rw [hcells] at horder hnodup
    have hhull := isHull_hull horder
    have hcount := hhull.filledBy_iff hnodup
    rw [List.length_cons] at hcount
    rw [bounds?_of_positions_eq hcells, Option.ite_none_right_eq_some, Option.some_inj, ← hcount]
    constructor
    · rintro ⟨⟨-, hfilled⟩, hbounds⟩
      exact ⟨hull first rest, hfilled, hbounds⟩
    · rintro ⟨box, hfilled, hbounds⟩
      obtain rfl := hhull.eq_of_filledBy hfilled
      exact ⟨⟨congrArg Prod.snd (hfilled.first_eq horder).symm, hfilled⟩, hbounds⟩

/-- Bounds that a name has enclose it, and their lines are counted from one. -/
theorem enclose_of_bounds? {m : Areas} {name : String} {b : Bounds} (h : bounds? m name = some b) :
    b.Enclose m name ∧ 1 ≤ b.rowStart ∧ 1 ≤ b.columnStart := by
  obtain ⟨box, hfilled, rfl⟩ := (bounds?_eq_some_iff_filledBy m name b).mp h
  refine ⟨⟨⟨box.top, box.left, ?_⟩, fun r c => ?_⟩, Nat.le_add_left 1 _, Nat.le_add_left 1 _⟩
  · rw [← mem_positions_iff]
    exact hfilled.corner_mem
  · rw [← mem_positions_iff, hfilled]
    simp only [Box.Has, Box.bounds, Bounds.Covers]
    omega

/-- Bounds that enclose a name are those that it has, but for a line zero in the place of line
one. -/
theorem Bounds.Enclose.bounds?_eq {m : Areas} {name : String} {b : Bounds} (h : b.Enclose m name) :
    bounds? m name
      = some ⟨max 1 b.rowStart, b.rowEnd, max 1 b.columnStart, b.columnEnd⟩ := by
  obtain ⟨r, c, hcell⟩ := h.present
  have hcovers := (h.cells r c).mp hcell
  simp only [Bounds.Covers] at hcovers
  refine (bounds?_eq_some_iff_filledBy m name _).mpr ⟨⟨b.rowStart - 1, b.rowEnd - 2,
    b.columnStart - 1, b.columnEnd - 2, by omega, by omega⟩, fun p => ?_, ?_⟩
  · rw [mem_positions_iff, h.cells]
    simp only [Box.Has, Bounds.Covers]
    omega
  · simp only [Box.bounds, Bounds.mk.injEq]
    omega

/-- Bounds that enclose a name end behind their start. -/
theorem Bounds.Enclose.start_lt_end {m : Areas} {name : String} {b : Bounds}
    (h : b.Enclose m name) :
    b.rowStart < b.rowEnd ∧ b.columnStart < b.columnEnd := by
  obtain ⟨r, c, hcell⟩ := h.present
  have hcovers := (h.cells r c).mp hcell
  simp only [Bounds.Covers] at hcovers
  omega

/-- A matrix has certain bounds for a name exactly if they enclose it; their lines are counted from
one, as a line zero would leave the same cells between the lines. It has none exactly if no bounds
enclose the name. Bounds end behind their start, so that there is a row and a column between them at
least. -/
theorem bounds?_tells_rectangle (m : Areas) (name : String) :
    (∀ b, bounds? m name = some b ↔
      b.Enclose m name ∧ 1 ≤ b.rowStart ∧ 1 ≤ b.columnStart) ∧
    (bounds? m name = none ↔ ∀ b : Bounds, ¬ b.Enclose m name) ∧
    ∀ b, bounds? m name = some b →
      (b.rowStart ≤ b.rowEnd ∧ 1 ≤ b.rowSpan) ∧ b.columnStart ≤ b.columnEnd ∧ 1 ≤ b.columnSpan := by
  refine ⟨fun b => ⟨enclose_of_bounds?, fun ⟨henclose, hrow, hcolumn⟩ => ?_⟩,
    ⟨fun h b henclose => ?_, fun h => ?_⟩, fun b h => ?_⟩
  · rw [henclose.bounds?_eq, Nat.max_eq_right hrow, Nat.max_eq_right hcolumn]
  · rw [henclose.bounds?_eq] at h
    exact absurd h (by simp)
  · exact Option.eq_none_iff_forall_ne_some.mpr fun b hb => h b (enclose_of_bounds? hb).1
  · have hlt := (enclose_of_bounds? h).1.start_lt_end
    simp only [Bounds.rowSpan, Bounds.columnSpan]
    omega

/-- A square between rows of other lengths, and cells in the shape of an L. -/
theorem bounds?_tells_rectangle_ragged :
    Bounds.Enclose ⟨2, 4, 2, 4⟩ [["a"], ["a", "b", "b"], ["a", "b", "b", "c"], ["c", "c"]] "b" ∧
    ∀ b : Bounds, ¬ b.Enclose [["a"], ["a", "b", "b"], ["a", "b", "b", "c"], ["c", "c"]] "c" := by
  obtain ⟨hsome, -, -⟩ := bounds?_tells_rectangle
    [["a"], ["a", "b", "b"], ["a", "b", "b", "c"], ["c", "c"]] "b"
  obtain ⟨-, hnone, -⟩ := bounds?_tells_rectangle
    [["a"], ["a", "b", "b"], ["a", "b", "b", "c"], ["c", "c"]] "c"
  exact ⟨((hsome ⟨2, 4, 2, 4⟩).mp (by decide)).1, hnone.mp (by decide)⟩

end ResponsiveStyle.Grid.Areas
