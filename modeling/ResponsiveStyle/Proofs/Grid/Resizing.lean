/-
# Resizing matrices

A resized matrix has as many rows and columns as it is asked for, and in each place the cell that
the matrix has there, or the fill (`cell?_resized`). A resized matrix is known from these cells, so
that resizing once more forgets what was between exactly if no cell other than the fill was cut off
(`resized_resized_eq_iff`). That is so if the matrix grows first, and if it is cut twice.
-/
import ResponsiveStyle.Proofs.Grid.Bounds

namespace ResponsiveStyle.Grid.Areas

/-! ## Rows and columns -/

/-- What a list of values of the first numbers has in a place. -/
theorem getElem?_map_range {α : Type} (f : Nat → α) (n i : Nat) :
    ((List.range n).map f)[i]? = if i < n then some (f i) else none := by
  rw [List.getElem?_map]
  split
  · rename_i hi
    rw [List.getElem?_range hi, Option.map_some]
  · rename_i hi
    rw [List.getElem?_eq_none (by rw [List.length_range]; omega), Option.map_none]

variable (m : Areas) (columns rows : Nat) (fill : String)

theorem length_resized : (m.resized columns rows fill).length = rows := by
  unfold resized
  rw [List.length_map, List.length_range]

/-- All rows are as long as they are asked to be. -/
theorem length_of_mem_resized {row : List String} (h : row ∈ m.resized columns rows fill) :
    row.length = columns := by
  obtain ⟨r, -, rfl⟩ := List.mem_map.mp h
  rw [List.length_map, List.length_range]

/-- The cell of a resized matrix is the one that the matrix has in this place, or the fill. -/
theorem cell?_resized (r c : Nat) :
    (m.resized columns rows fill).cell? r c
      = if r < rows ∧ c < columns then some ((m.cell? r c).getD fill) else none := by
  unfold cell? resized
  rw [getElem?_map_range]
  by_cases hr : r < rows
  · rw [if_pos hr, Option.bind_some, getElem?_map_range]
    simp only [hr, true_and]
  · rw [if_neg hr, Option.bind_none, if_neg fun h => hr h.1]

/-- There are no cells outside of a matrix. -/
theorem cell?_eq_none {m : Areas} {r c : Nat} (h : m.length ≤ r ∨ m.width ≤ c) :
    m.cell? r c = none := by
  by_contra hsome
  obtain ⟨cell, hcell⟩ := Option.ne_none_iff_exists'.mp hsome
  obtain ⟨hr, row, hrow, hc⟩ := lt_length_of_cell? hcell
  have hwidth := (width_le_iff m m.width).mp (Nat.le_refl _) row hrow
  omega

/-! ## Resized matrices with the same cells -/

/-- Two matrices are resized alike if they have the same cells in the size that is asked for. -/
theorem resized_eq_resized_iff (m m' : Areas) (columns rows : Nat) (fill fill' : String) :
    m.resized columns rows fill = m'.resized columns rows fill' ↔
      ∀ r < rows, ∀ c < columns, (m.cell? r c).getD fill = (m'.cell? r c).getD fill' := by
  unfold resized
  rw [List.map_inj_left]
  simp only [List.map_inj_left, List.mem_range]
  rfl

/-- A matrix with rows of one length is resized to itself in its own size. -/
theorem resized_eq_self {m : Areas} {n : Nat} (h : ∀ row ∈ m, row.length = n) (fill : String) :
    m.resized n m.length fill = m := by
  apply List.ext_getElem?
  intro r
  unfold resized
  rw [getElem?_map_range]
  by_cases hr : r < m.length
  · have hrow : m[r].length = n := h _ (List.getElem_mem hr)
    rw [if_pos hr, List.getElem?_eq_getElem hr, Option.some_inj]
    apply List.ext_getElem?
    intro c
    rw [getElem?_map_range]
    by_cases hc : c < n
    · rw [if_pos hc, Option.bind_some, List.getElem?_eq_getElem (hrow ▸ hc), Option.getD_some]
    · rw [if_neg hc, List.getElem?_eq_none (by omega)]
  · rw [if_neg hr, List.getElem?_eq_none (by omega)]

/-- Resizing twice is resizing once if what was cut off in between is the fill, and only then. -/
theorem resized_resized_eq_iff (m : Areas) (columns rows columns' rows' : Nat)
    (fill fill' : String) :
    (m.resized columns rows fill).resized columns' rows' fill' = m.resized columns' rows' fill ↔
      ∀ r < rows', ∀ c < columns', (r < rows ∧ c < columns) ∨ (m.cell? r c).getD fill = fill' := by
  rw [resized_eq_resized_iff]
  refine forall₂_congr fun r _ => forall₂_congr fun c _ => ?_
  rw [cell?_resized]
  by_cases hin : r < rows ∧ c < columns
  · rw [if_pos hin]
    simp [hin]
  · rw [if_neg hin]
    simp [hin, eq_comm]

/-- A cut forgets all that was outside of it, whatever it would be filled with. -/
theorem resized_resized_of_le {columns rows columns' rows' : Nat} (hcolumns : columns' ≤ columns)
    (hrows : rows' ≤ rows) (m : Areas) (fill fill' : String) :
    (m.resized columns rows fill).resized columns' rows' fill' = m.resized columns' rows' fill :=
  (resized_resized_eq_iff m columns rows columns' rows' fill fill').mpr
    fun r hr c hc => .inl ⟨by omega, by omega⟩

/-- A matrix that has grown is resized like before. -/
theorem resized_resized_of_ge {m : Areas} {columns rows : Nat} (hcolumns : m.width ≤ columns)
    (hrows : m.length ≤ rows) (columns' rows' : Nat) (fill : String) :
    (m.resized columns rows fill).resized columns' rows' fill = m.resized columns' rows' fill := by
  rw [resized_resized_eq_iff]
  intro r _ c _
  by_cases hin : r < rows ∧ c < columns
  · exact .inl hin
  · have houtside : m.length ≤ r ∨ m.width ≤ c := by omega
    right
    rw [cell?_eq_none houtside, Option.getD_none]

/-- A resized matrix has the rows and columns that it is asked for, and in each place the cell of
the matrix or the fill. Resizing twice is resizing once if the second size is within the first one,
or the matrix is. So a matrix with rows of one length grows and shrinks back to itself, whatever is
filled in. -/
theorem resized_exact (m : Areas) (columns rows : Nat) (fill : String) :
    ((m.resized columns rows fill).length = rows ∧
      (∀ row ∈ m.resized columns rows fill, row.length = columns) ∧
      ∀ r < rows, ∀ c < columns,
        (m.resized columns rows fill).cell? r c = some ((m.cell? r c).getD fill)) ∧
    (∀ columns' rows' : Nat,
      (columns' ≤ columns ∧ rows' ≤ rows) ∨ (m.width ≤ columns ∧ m.length ≤ rows) →
        (m.resized columns rows fill).resized columns' rows' fill = m.resized columns' rows' fill) ∧
    ∀ n : Nat, (∀ row ∈ m, row.length = n) → n ≤ columns → m.length ≤ rows → ∀ fill' : String,
      (m.resized columns rows fill).resized n m.length fill' = m := by
  refine ⟨⟨length_resized m columns rows fill, fun row => length_of_mem_resized m columns rows fill,
    fun r hr c hc => ?_⟩, fun columns' rows' hsize => ?_, fun n hrow hn hlength fill' => ?_⟩
  · rw [cell?_resized, if_pos ⟨hr, hc⟩]
  · rcases hsize with ⟨hcolumns, hrows⟩ | ⟨hcolumns, hrows⟩
    · exact resized_resized_of_le hcolumns hrows m fill fill
    · exact resized_resized_of_ge hcolumns hrows columns' rows' fill
  · rw [resized_resized_of_le hn hlength, resized_eq_self hrow]

/-- A ragged matrix grows and is cut in one direction while it grows in the other, and a rectangle
comes back. -/
theorem resized_exact_ragged :
    (resized [["a", "b"], ["c"]] 3 2 ".").resized 1 4 "." = [["a"], ["c"], ["."], ["."]] ∧
      (resized [["a", "b"], ["c", "d"]] 3 5 ".").resized 2 2 "x" = [["a", "b"], ["c", "d"]] := by
  obtain ⟨-, hcomposes, -⟩ := resized_exact [["a", "b"], ["c"]] 3 2 "."
  obtain ⟨-, -, hback⟩ := resized_exact [["a", "b"], ["c", "d"]] 3 5 "."
  refine ⟨?_, hback 2 (by decide) (by decide) (by decide) "x"⟩
  rw [hcomposes 1 4 (.inr (by decide))]
  decide

end ResponsiveStyle.Grid.Areas
