/-
# Items over the areas of a matrix

The bounds of a name are written as two shorthands, one for the columns and one for the rows. Where
the matrix is not too large for lines of 32 bits, the plain controls read them as the lines and the
numbers of rows and columns of the bounds, and an item that is placed by them lies on the cells of
the name and on no others (`Areas.placements_cover`).
-/
import ResponsiveStyle.Proofs.Grid.Bounds
import ResponsiveStyle.Proofs.Grid.SimplePlacement

namespace ResponsiveStyle.Grid

open Text (fits32)

/-- A row or a column that an item lies on; lines are counted from one, rows and columns from
zero. -/
def SimplePlacement.Covers (p : SimplePlacement) (i : Nat) : Prop :=
  p.start ≤ (i : Int) + 1 ∧ (i : Int) + 1 < p.start + p.span

/-- A count of 32 bits is kept as it is. -/
theorem clamped32_eq {n : Nat} (h : n ≤ 2 ^ 31 - 1) :
    clamped32 n = n ∧ fits32 (n : Int) = true := by
  unfold clamped32
  simp only [fits32, Bool.and_eq_true, decide_eq_true_eq]
  omega

/-- The shorthand of a first line and a number of rows or columns is read as both by the plain
controls, and the advanced ones write it again as it is. -/
theorem parse_compose_clamped32 {text : String} {first count : Nat}
    (htext : text = SimplePlacement.compose (.number (clamped32 first)) (clamped32 count) true)
    (hfirst : 1 ≤ first ∧ first ≤ 2 ^ 31 - 1) (hcount : 1 ≤ count ∧ count ≤ 2 ^ 31 - 1) :
    SimplePlacement.parse text = ⟨first, count⟩ ∧
      ∀ fallback, (Placement.parse text).compose (Placement.parse text).mode fallback = text := by
  obtain ⟨hstart, hstart'⟩ := clamped32_eq hfirst.2
  obtain ⟨hspan, hspan'⟩ := clamped32_eq hcount.2
  rw [hstart, hspan] at htext
  subst htext
  have hwell : SimplePlacement.WellFormed ⟨first, count⟩ :=
    ⟨by simp only; omega, hstart', by simp only; omega, hspan'⟩
  exact ⟨hwell.parse_compose true,
    SimplePlacement.compose_parse_compose (Line.proper_orFallback_number hstart') hspan' true⟩

namespace Areas

/-- Bounds end no later than behind the last row and the last column. -/
theorem Bounds.Enclose.end_le {b : Bounds} {m : Areas} {name : String} (h : b.Enclose m name)
    {n : Nat} (hrows : m.length ≤ n) (hcolumns : ∀ row ∈ m, row.length ≤ n) :
    b.rowEnd ≤ n + 1 ∧ b.columnEnd ≤ n + 1 := by
  obtain ⟨r, c, hcell⟩ := h.present
  have hcovers := (h.cells r c).mp hcell
  -- the cell before the last lines is one of the matrix
  have hlast : m.cell? (b.rowEnd - 2) (b.columnEnd - 2) = some name := by
    refine (h.cells _ _).mpr ?_
    simp only [Bounds.Covers] at hcovers ⊢
    omega
  obtain ⟨hr, row, hrow, hc⟩ := lt_length_of_cell? hlast
  have hwidth := hcolumns row hrow
  omega

/-- The shorthands of the bounds of a name are read as the first line and the number of columns, and
as the first line and the number of rows; the advanced controls write them again as they are. An
item that is placed by them lies on the cells of the name and on no others. -/
theorem placements_cover {m : Areas} {name : String} {b : Bounds} (hrows : m.length ≤ 2 ^ 31 - 2)
    (hcolumns : ∀ row ∈ m, row.length ≤ 2 ^ 31 - 2) (h : m.bounds? name = some b) :
    SimplePlacement.parse b.placements.1 = ⟨b.columnStart, b.columnSpan⟩ ∧
    SimplePlacement.parse b.placements.2 = ⟨b.rowStart, b.rowSpan⟩ ∧
    (∀ text fallback, text = b.placements.1 ∨ text = b.placements.2 →
      (Placement.parse text).compose (Placement.parse text).mode fallback = text) ∧
    ∀ r c, m.cell? r c = some name ↔
      (SimplePlacement.parse b.placements.1).Covers c ∧
        (SimplePlacement.parse b.placements.2).Covers r := by
  obtain ⟨henclose, hrow, hcolumn⟩ := enclose_of_bounds? h
  obtain ⟨hrowEnd, hcolumnEnd⟩ := henclose.end_le hrows hcolumns
  obtain ⟨hrowLt, hcolumnLt⟩ := henclose.start_lt_end
  have hcolumnSpan : b.columnStart + b.columnSpan = b.columnEnd := Nat.add_sub_of_le hcolumnLt.le
  have hrowSpan : b.rowStart + b.rowSpan = b.rowEnd := Nat.add_sub_of_le hrowLt.le
  obtain ⟨hreadColumns, hwriteColumns⟩ :
      SimplePlacement.parse b.placements.1 = ⟨b.columnStart, b.columnSpan⟩ ∧ _ :=
    parse_compose_clamped32 rfl ⟨hcolumn, by omega⟩ (by omega)
  obtain ⟨hreadRows, hwriteRows⟩ :
      SimplePlacement.parse b.placements.2 = ⟨b.rowStart, b.rowSpan⟩ ∧ _ :=
    parse_compose_clamped32 rfl ⟨hrow, by omega⟩ (by omega)
  refine ⟨hreadColumns, hreadRows, ?_, fun r c => ?_⟩
  · rintro text fallback (rfl | rfl)
    · exact hwriteColumns fallback
    · exact hwriteRows fallback
  · rw [henclose.cells r c, hreadColumns, hreadRows]
    simp only [Bounds.Covers, SimplePlacement.Covers]
    omega

/-- An area of one row, whose span is left out. -/
theorem placements_cover_head :
    bounds? [["head", "head", "head"], ["side", "main"]] "head" = some ⟨1, 2, 1, 4⟩ ∧
    (⟨1, 2, 1, 4⟩ : Bounds).placements = ("1 / span 3", "1") ∧
    ∀ r c, cell? [["head", "head", "head"], ["side", "main"]] r c = some "head" ↔
      (SimplePlacement.parse "1 / span 3").Covers c ∧ (SimplePlacement.parse "1").Covers r := by
  have hbounds :
      bounds? [["head", "head", "head"], ["side", "main"]] "head" = some ⟨1, 2, 1, 4⟩ := by
    decide
  have htexts : (⟨1, 2, 1, 4⟩ : Bounds).placements = ("1 / span 3", "1") := by
    decide +kernel
  obtain ⟨-, -, -, hcover⟩ := placements_cover (by decide) (by decide) hbounds
  rw [htexts] at hcover
  exact ⟨hbounds, htexts, hcover⟩

end Areas

end ResponsiveStyle.Grid
