/-
# Area templates are read again as they were

A matrix that has been read is well-formed (`wellFormed_parse`): its rows are of one length and not
empty, every cell is a word, and a run of points is one point. Its text has the rows between double
quotes, and the next double quote ends a row when the text is read again. So the matrix comes back
if no cell has a double quote in it (`parse_text`).

It comes back only then (`parse_text_eq_self_iff`), and single quotes tell: a row with a double
quote in it is read from between two single quotes, which are no part of any cell, but the text of a
matrix has all its single quotes in the cells.

A matrix of any cells is read from its text as it is written there (`parse_text_of_trimmed`): the
cells trimmed, the empty ones and the runs of points as points, and the short rows filled up.
-/
import ResponsiveStyle.Grid.Areas
import ResponsiveStyle.Proofs.Text.Cut
import ResponsiveStyle.Proofs.Text.Words

namespace ResponsiveStyle.Grid.Areas

open Text (IsWord isBlank joined trimmed words)

/-! ## Rectangles -/

/-- A maximum along a list is within a bound exactly if all values are. -/
theorem foldl_max_le_iff {α : Type} (f : α → Nat) (l : List α) (k n : Nat) :
    l.foldl (fun k x => max k (f x)) k ≤ n ↔ k ≤ n ∧ ∀ x ∈ l, f x ≤ n := by
  induction l generalizing k with
  | nil => simp
  | cons x l ih => rw [List.foldl_cons, ih, Nat.max_le, List.forall_mem_cons, and_assoc]

/-- No row is longer than the width, and the width is no greater than it has to be. -/
theorem width_le_iff (m : Areas) (n : Nat) : m.width ≤ n ↔ ∀ row ∈ m, row.length ≤ n := by
  unfold width
  rw [List.foldl_map, foldl_max_le_iff]
  simp

/-- The rows of a padded matrix are all as long as the longest. -/
theorem length_of_mem_padded {m : Areas} {row : List String} (h : row ∈ padded m) :
    row.length = m.width := by
  obtain ⟨short, hshort, rfl⟩ := List.mem_map.mp h
  have hle : short.length ≤ m.width := (width_le_iff m m.width).mp (Nat.le_refl _) short hshort
  rw [List.length_append, List.length_replicate]
  omega

/-- A matrix with rows of one length is not padded. -/
theorem padded_eq_self {m : Areas} {n : Nat} (h : ∀ row ∈ m, row.length = n) : padded m = m := by
  have hwidth : m.width ≤ n := (width_le_iff m n).mpr fun row hrow => Nat.le_of_eq (h row hrow)
  have hrow : ∀ row ∈ m, row ++ List.replicate (m.width - row.length) emptyCell = row := by
    intro row hmem
    have hzero : m.width - row.length = 0 := by
      have hlength := h row hmem
      omega
    rw [hzero, List.replicate_zero, List.append_nil]
  unfold padded
  rw [List.map_congr_left hrow, List.map_id']

/-! ## Cells -/

/-- A cell as it is read: a word, and one point if it is a run of points. -/
structure IsCell (cell : String) : Prop where
  word : IsWord cell.toList
  normal : normalCell cell = cell

/-- The cell without a name is a cell. -/
theorem isCell_emptyCell : IsCell emptyCell := by
  refine ⟨⟨by decide, fun c hc => ?_⟩, by decide⟩
  rw [List.mem_singleton.mp hc]
  decide

/-- A word makes a cell. -/
theorem isCell_normalCell {w : List Char} (h : IsWord w) :
    IsCell (normalCell (String.ofList w)) := by
  unfold normalCell
  split
  · exact isCell_emptyCell
  · rename_i hname
    refine ⟨by rwa [String.toList_ofList], ?_⟩
    unfold normalCell
    rw [if_neg hname]

/-- A cell is trimmed. -/
theorem IsCell.trimmed_eq {cell : String} (h : IsCell cell) : trimmed cell = cell := by
  unfold trimmed
  rw [Text.trim_of_not_isBlank h.word.solid, String.ofList_toList]

/-- A cell with another text than a point has a name. -/
theorem IsCell.isEmptyCell_eq_false {cell : String} (h : IsCell cell) (hne : cell ≠ emptyCell) :
    isEmptyCell cell = false := by
  by_contra hempty
  have hnormal := h.normal
  unfold normalCell at hnormal
  rw [if_pos (by simpa using hempty)] at hnormal
  exact hne hnormal.symm

/-! ## What is read -/

/-- A matrix as it is read: its rows are of one length, not empty, and made of cells. -/
structure WellFormed (m : Areas) : Prop where
  rectangular : ∃ n, ∀ row ∈ m, row.length = n
  nonempty : ∀ row ∈ m, row ≠ []
  cells : ∀ row ∈ m, ∀ cell ∈ row, IsCell cell

/-- Reading any text gives a well-formed matrix. -/
theorem wellFormed_parse (template : String) : (parse template).WellFormed := by
  refine ⟨⟨_, fun row hrow => length_of_mem_padded hrow⟩, ?_, ?_⟩
  · intro row hrow
    obtain ⟨short, hshort, rfl⟩ := List.mem_map.mp hrow
    have hne : short ≠ [] := by simpa using (List.mem_filter.mp hshort).2
    simp [hne]
  · intro row hrow cell hcell
    obtain ⟨short, hshort, rfl⟩ := List.mem_map.mp hrow
    rcases List.mem_append.mp hcell with hcell | hcell
    · obtain ⟨chars, -, rfl⟩ := List.mem_map.mp (List.mem_filter.mp hshort).1
      obtain ⟨w, hw, rfl⟩ := List.mem_map.mp hcell
      exact isCell_normalCell (Text.of_mem_words hw)
    · rw [List.eq_of_mem_replicate hcell]
      exact isCell_emptyCell

/-! ## Quotes -/

/-- A row that goes up to the next quote is what precedes it. -/
theorem beforeQuote?_eq_some_iff (quote : Char) (cs row : List Char) :
    beforeQuote? quote cs = some row ↔ ∃ rest, cs = row ++ quote :: rest ∧ quote ∉ row := by
  induction cs generalizing row with
  | nil => simp [beforeQuote?]
  | cons c cs ih =>
    unfold beforeQuote?
    by_cases hc : c = quote
    · subst hc
      rw [if_pos (beq_self_eq_true c), Option.some_inj]
      constructor
      · rintro rfl
        exact ⟨cs, rfl, List.not_mem_nil⟩
      · rintro ⟨rest, hcs, hrow⟩
        cases row with
        | nil => rfl
        | cons d row =>
          obtain ⟨rfl, -⟩ := List.cons.inj hcs
          exact absurd List.mem_cons_self hrow
    · rw [if_neg (by simpa using hc), Option.map_eq_some_iff]
      constructor
      · rintro ⟨front, hfront, rfl⟩
        obtain ⟨rest, rfl, hquote⟩ := (ih front).mp hfront
        exact ⟨rest, rfl, by simp [Ne.symm hc, hquote]⟩
      · rintro ⟨rest, hcs, hrow⟩
        cases row with
        | nil => exact absurd (List.cons.inj hcs).1 hc
        | cons d row =>
          obtain ⟨rfl, rfl⟩ := List.cons.inj hcs
          exact ⟨row, (ih row).mpr ⟨rest, rfl, fun h => hrow (List.mem_cons_of_mem c h)⟩, rfl⟩

/-- The two kinds of quotes. -/
def IsQuote (c : Char) : Prop := c = '"' ∨ c = '\''

/-- A text without characters has no rows. -/
theorem quotedRows_nil : quotedRows [] = [] := by
  rw [quotedRows]

/-- A row between quotes of one kind is read, and then the rows behind it. -/
theorem quotedRows_append {quote : Char} (hquote : IsQuote quote) {row : List Char}
    (hrow : quote ∉ row) (rest : List Char) :
    quotedRows (quote :: (row ++ quote :: rest)) = row :: quotedRows rest := by
  have hbefore : beforeQuote? quote (row ++ quote :: rest) = some row :=
    (beforeQuote?_eq_some_iff _ _ _).mpr ⟨rest, rfl, hrow⟩
  have hdrop : (row ++ quote :: rest).drop (row.length + 1) = rest := by
    simp
  rw [quotedRows, if_pos (by simpa [IsQuote] using hquote), hbefore]
  simp only [hdrop]

/-- `Scanned cs rows`: the text `cs` has the rows `rows` between its quotes, and other characters
before, between and behind them. -/
inductive Scanned : List Char → List (List Char) → Prop
  | nil : Scanned [] []
  | row {quote : Char} {row rest : List Char} {rows : List (List Char)} (isQuote : IsQuote quote)
      (closed : quote ∉ row) (others : Scanned rest rows) :
      Scanned (quote :: (row ++ quote :: rest)) (row :: rows)
  | skip {c : Char} {cs : List Char} {rows : List (List Char)} (others : Scanned cs rows) :
      Scanned (c :: cs) rows

/-- The rows of a text stand between its quotes. -/
theorem scanned_quotedRows (cs : List Char) : Scanned cs (quotedRows cs) := by
  fun_induction quotedRows cs with
  | case1 => exact .nil
  | case2 c cs hquote row hrow ih =>
    obtain ⟨rest, rfl, hclosed⟩ := (beforeQuote?_eq_some_iff _ _ _).mp hrow
    have hdrop : (row ++ c :: rest).drop (row.length + 1) = rest := by
      simp
    rw [hdrop] at ih ⊢
    exact .row (by simpa [IsQuote] using hquote) hclosed ih
  | case3 c cs hquote hrow ih => exact .skip ih
  | case4 c cs hquote ih => exact .skip ih

/-- The rows are parts of the text, one behind the other. -/
theorem Scanned.sublist {cs : List Char} {rows : List (List Char)} (h : Scanned cs rows) :
    rows.flatten.Sublist cs := by
  induction h with
  | nil => exact List.Sublist.slnil
  | row _ _ _ ih =>
    rw [List.flatten_cons]
    exact .cons _ ((List.Sublist.refl _).append (.cons _ ih))
  | skip _ ih => exact .cons _ ih

/-- A row with a quote in it stands between two quotes of the other kind. -/
theorem Scanned.count_add_two_le {cs : List Char} {rows : List (List Char)} (h : Scanned cs rows)
    {row : List Char} (hrow : row ∈ rows) (hdouble : '"' ∈ row) :
    rows.flatten.count '\'' + 2 ≤ cs.count '\'' := by
  induction h with
  | nil => exact absurd hrow List.not_mem_nil
  | @row quote front rest rows isQuote closed others ih =>
    have hle : rows.flatten.count '\'' ≤ rest.count '\'' := others.sublist.count_le _
    simp only [List.flatten_cons, List.count_cons, List.count_append]
    rcases List.mem_cons.mp hrow with rfl | hrow
    · have hsingle : quote = '\'' := by
        rcases isQuote with rfl | rfl
        · exact absurd hdouble closed
        · rfl
      subst hsingle
      simp only [beq_self_eq_true, if_true]
      omega
    · have hrest := ih hrow
      omega
  | skip _ ih =>
    have hrest := ih hrow
    rw [List.count_cons]
    omega

/-! ## What is written -/

/-- Outside of the rows other characters than quotes are passed over. -/
theorem quotedRows_cons {c : Char} (hc : ¬ IsQuote c) (cs : List Char) :
    quotedRows (c :: cs) = quotedRows cs := by
  rw [quotedRows, if_neg (by simpa [IsQuote] using hc)]

/-- Rows without double quotes are read again from between double quotes. -/
theorem quotedRows_intercalate {rows : List (List Char)} (h : ∀ row ∈ rows, '"' ∉ row) :
    quotedRows (List.intercalate [' '] (rows.map fun row => '"' :: (row ++ ['"']))) = rows := by
  induction rows with
  | nil => exact quotedRows_nil
  | cons row rows ih =>
    have hrow : '"' ∉ row := h row List.mem_cons_self
    have hrest := ih fun r hr => h r (List.mem_cons_of_mem row hr)
    cases rows with
    | nil =>
      rw [List.map_singleton, List.intercalate_singleton, quotedRows_append (.inl rfl) hrow,
        quotedRows_nil]
    | cons next rows =>
      rw [List.map_cons, List.map_cons, List.intercalate_cons_cons, List.append_assoc,
        List.cons_append, List.append_assoc, List.singleton_append,
        quotedRows_append (.inl rfl) hrow, List.singleton_append,
        quotedRows_cons (by simp [IsQuote])]
      exact congrArg (row :: ·) hrest

/-- The characters of a row with single blanks between its cells. -/
def rowChars (row : List String) : List Char := List.intercalate [' '] (row.map String.toList)

/-- The cells of a row are read again. -/
theorem rowCells_rowChars {row : List String} (h : ∀ cell ∈ row, IsCell cell) :
    rowCells (rowChars row) = row := by
  have hwords : words (rowChars row) = row.map String.toList := by
    apply Text.words_intercalate
    intro w hw
    obtain ⟨cell, hcell, rfl⟩ := List.mem_map.mp hw
    exact (h cell hcell).word
  have hcells : ∀ cell ∈ row, normalCell (String.ofList cell.toList) = cell := by
    intro cell hcell
    rw [String.ofList_toList, (h cell hcell).normal]
  unfold rowCells
  rw [hwords, List.map_map]
  exact (List.map_congr_left hcells).trans (List.map_id' row)

/-- The text of a matrix of cells, one of which has a name: its rows between double quotes. -/
theorem toList_text {m : Areas} (hcells : ∀ row ∈ m, ∀ cell ∈ row, IsCell cell)
    (hnamed : ∃ row ∈ m, ∃ cell ∈ row, cell ≠ emptyCell) :
    (text m).toList
      = List.intercalate [' '] ((m.map rowChars).map fun row => '"' :: (row ++ ['"'])) := by
  obtain ⟨row, hrow, cell, hcell, hne⟩ := hnamed
  have hall : ¬ (m.flatten.all fun cell => isEmptyCell (trimmed cell)) = true := by
    intro hall
    have hempty := List.all_eq_true.mp hall cell (List.mem_flatten.mpr ⟨row, hrow, hcell⟩)
    rw [(hcells row hrow cell hcell).trimmed_eq,
      (hcells row hrow cell hcell).isEmptyCell_eq_false hne] at hempty
    exact absurd hempty (by simp)
  have hrows : ∀ row ∈ m, (rowText row).toList = '"' :: (rowChars row ++ ['"']) := by
    intro row hrow
    have hsame : ∀ cell ∈ row, normalCell (trimmed cell) = cell := by
      intro cell hcell
      rw [(hcells row hrow cell hcell).trimmed_eq, (hcells row hrow cell hcell).normal]
    unfold rowText
    rw [List.map_congr_left hsame, List.map_id', String.toList_append, String.toList_append,
      Text.toList_joined]
    rfl
  unfold text
  rw [if_neg hall, Text.toList_joined, List.map_map, List.map_map]
  exact congrArg (List.intercalate [' ']) (List.map_congr_left hrows)

/-- A matrix of cells without double quotes, one of which has a name, is read again from its text,
with short rows filled up. -/
theorem parse_text {m : Areas} (hrows : ∀ row ∈ m, row ≠ [])
    (hcells : ∀ row ∈ m, ∀ cell ∈ row, IsCell cell)
    (hnamed : ∃ row ∈ m, ∃ cell ∈ row, cell ≠ emptyCell)
    (hquotes : ∀ row ∈ m, ∀ cell ∈ row, '"' ∉ cell.toList) : parse (text m) = padded m := by
  have hplain : ∀ chars ∈ m.map rowChars, '"' ∉ chars := by
    intro chars hchars
    obtain ⟨row, hrow, rfl⟩ := List.mem_map.mp hchars
    unfold rowChars
    rw [← List.count_pos_iff, Text.count_intercalate (by decide), List.count_pos_iff]
    intro hmem
    obtain ⟨w, hw, hquote⟩ := List.mem_flatten.mp hmem
    obtain ⟨cell, hcell, rfl⟩ := List.mem_map.mp hw
    exact hquotes row hrow cell hcell hquote
  have hread : (m.map rowChars).map rowCells = m := by
    rw [List.map_map]
    exact (List.map_congr_left fun row hrow => rowCells_rowChars (hcells row hrow)).trans
      (List.map_id' m)
  have hkept : (m.filter fun row => !row.isEmpty) = m := by
    rw [List.filter_eq_self]
    intro row hrow
    simpa using hrows row hrow
  unfold parse
  rw [toList_text hcells hnamed, quotedRows_intercalate hplain, hread, hkept]

/-! ## Counting characters -/

/-- The characters of all cells in reading order. -/
def chars (m : Areas) : List Char := m.flatMap fun row => row.flatMap String.toList

/-- A character is in a matrix if it is in one of the cells. -/
theorem mem_chars_iff {c : Char} {m : Areas} :
    c ∈ chars m ↔ ∃ row ∈ m, ∃ cell ∈ row, c ∈ cell.toList := by
  unfold chars
  simp only [List.mem_flatMap]

/-- Reading a row loses no characters but blanks, and changes the number of points only. -/
theorem count_rowCells {c : Char} (hblank : isBlank c = false) (hpoint : c ≠ '.')
    (row : List Char) : ((rowCells row).flatMap String.toList).count c = row.count c := by
  have hcell : ∀ w : List Char, (normalCell (String.ofList w)).toList.count c = w.count c := by
    intro w
    unfold normalCell
    split
    · rename_i hempty
      unfold isEmptyCell at hempty
      rw [String.toList_ofList] at hempty
      have hnone : c ∉ w := fun hmem => hpoint (by simpa using List.all_eq_true.mp hempty c hmem)
      rw [List.count_eq_zero_of_not_mem hnone, List.count_eq_zero_of_not_mem]
      exact fun hmem => hpoint (List.mem_singleton.mp hmem)
    · rw [String.toList_ofList]
  calc ((rowCells row).flatMap String.toList).count c
      = ((words row).map fun w => (normalCell (String.ofList w)).toList.count c).sum := by
        unfold rowCells
        rw [List.flatMap_map, List.count_flatMap]
        rfl
    _ = (words row).flatten.count c := by
        rw [List.count_flatten, List.map_congr_left fun w _ => hcell w]
    _ = row.count c := by
        rw [Text.flatten_words, List.count_filter (by simp [hblank])]

/-- Filling rows up adds points only. -/
theorem count_chars_padded {c : Char} (hpoint : c ≠ '.') (m : Areas) :
    (chars (padded m)).count c = (chars m).count c := by
  have hrow : ∀ (row : List String) (n : Nat),
      ((row ++ List.replicate n emptyCell).flatMap String.toList).count c
        = (row.flatMap String.toList).count c := by
    intro row n
    have hnone : c ∉ (List.replicate n emptyCell).flatMap String.toList := by
      intro hmem
      obtain ⟨cell, hcell, hmem⟩ := List.mem_flatMap.mp hmem
      rw [List.eq_of_mem_replicate hcell] at hmem
      exact hpoint (List.mem_singleton.mp hmem)
    rw [List.flatMap_append, List.count_append, List.count_eq_zero_of_not_mem hnone, Nat.add_zero]
  -- both sides count row by row
  unfold chars padded
  rw [List.count_flatMap, List.count_flatMap, List.map_map]
  exact congrArg List.sum (List.map_congr_left fun row _ => hrow row _)

/-- Rows without cells have no characters. -/
theorem chars_filter (m : Areas) : chars (m.filter fun row => !row.isEmpty) = chars m := by
  induction m with
  | nil => rfl
  | cons row m ih =>
    cases row with
    | nil => exact ih
    | cons cell row => exact congrArg ((cell :: row).flatMap String.toList ++ ·) ih

/-- The characters of a matrix that is read are those between the quotes, but for blanks and
points. -/
theorem count_chars_parse {c : Char} (hblank : isBlank c = false) (hpoint : c ≠ '.')
    (template : String) :
    (chars (parse template)).count c = (quotedRows template.toList).flatten.count c := by
  unfold parse
  rw [count_chars_padded hpoint, chars_filter, chars, List.count_flatMap, List.map_map,
    List.count_flatten]
  exact congrArg List.sum (List.map_congr_left fun row _ => count_rowCells hblank hpoint row)

/-- Writing a matrix adds blanks and double quotes only. -/
theorem count_toList_text {c : Char} (hspace : c ≠ ' ') (hquote : c ≠ '"') {m : Areas}
    (hcells : ∀ row ∈ m, ∀ cell ∈ row, IsCell cell)
    (hnamed : ∃ row ∈ m, ∃ cell ∈ row, cell ≠ emptyCell) :
    (text m).toList.count c = (chars m).count c := by
  have hsep : c ∉ [' '] := by simpa using hspace
  have hrow : ∀ row : List String, ('"' :: (rowChars row ++ ['"'])).count c
      = (row.flatMap String.toList).count c := by
    intro row
    rw [List.count_cons_of_ne (Ne.symm hquote), List.count_append,
      List.count_eq_zero_of_not_mem (by simpa using hquote : c ∉ ['"']), Nat.add_zero]
    unfold rowChars
    rw [Text.count_intercalate hsep]
    rfl
  rw [toList_text hcells hnamed, Text.count_intercalate hsep, List.count_flatten, chars,
    List.count_flatMap, List.map_map, List.map_map]
  exact congrArg List.sum (List.map_congr_left fun row _ => hrow row)

/-! ## Reading again -/

/-- A well-formed matrix with a name is read again from its text exactly if no cell has a double
quote in it. -/
theorem parse_text_eq_self_iff {m : Areas} (h : m.WellFormed)
    (hnamed : ∃ row ∈ m, ∃ cell ∈ row, cell ≠ emptyCell) :
    parse (text m) = m ↔ ∀ row ∈ m, ∀ cell ∈ row, '"' ∉ cell.toList := by
  constructor
  · intro heq row hrow cell hcell hquote
    have hsame : ∀ c : Char, isBlank c = false → c ≠ '.' →
        (quotedRows (text m).toList).flatten.count c = (chars m).count c := by
      intro c hblank hpoint
      rw [← count_chars_parse hblank hpoint, heq]
    -- the double quote of the cell is in a row that is read, so two single quotes stand around it
    have hmem : '"' ∈ (quotedRows (text m).toList).flatten := by
      rw [← List.count_pos_iff, hsame '"' (by decide) (by decide), List.count_pos_iff]
      exact mem_chars_iff.mpr ⟨row, hrow, cell, hcell, hquote⟩
    obtain ⟨front, hfront, hdouble⟩ := List.mem_flatten.mp hmem
    have hlost := (scanned_quotedRows (text m).toList).count_add_two_le hfront hdouble
    -- but all single quotes of the text are in the cells
    rw [hsame '\'' (by decide) (by decide),
      count_toList_text (by decide) (by decide) h.cells hnamed] at hlost
    omega
  · intro hquotes
    obtain ⟨n, hn⟩ := h.rectangular
    rw [parse_text h.nonempty h.cells hnamed hquotes, padded_eq_self hn]

/-- The areas of a template with a name are read again from the text that is written for them,
whichever quotes the template has, exactly if no cell has a double quote in it. -/
theorem parse_text_parse_iff (template : String)
    (h : ∃ row ∈ parse template, ∃ cell ∈ row, cell ≠ emptyCell) :
    parse (text (parse template)) = parse template ↔
      ∀ row ∈ parse template, ∀ cell ∈ row, '"' ∉ cell.toList :=
  parse_text_eq_self_iff (wellFormed_parse template) h

/-- Rows in both kinds of quotes, a cell with a single quote, a run of points and a short row. -/
theorem parse_text_parse_both_quotes :
    (∃ row ∈ parse "\"it's ...\" 'b'", ∃ cell ∈ row, cell ≠ emptyCell) ∧
      parse (text (parse "\"it's ...\" 'b'")) = parse "\"it's ...\" 'b'" := by
  have hread : parse "\"it's ...\" 'b'" = [["it's", "."], ["b", "."]] := by decide +kernel
  have hnamed : ∃ row ∈ parse "\"it's ...\" 'b'", ∃ cell ∈ row, cell ≠ emptyCell := by
    rw [hread]
    decide
  refine ⟨hnamed, (parse_text_parse_iff _ hnamed).mpr ?_⟩
  rw [hread]
  decide

/-- A double quote between single quotes ends the row too early when it is read again. -/
theorem parse_text_parse_double_quote :
    (∃ row ∈ parse "'a\"b'", ∃ cell ∈ row, cell ≠ emptyCell) ∧
      text (parse "'a\"b'") = "\"a\"b\"" ∧ parse (text (parse "'a\"b'")) ≠ parse "'a\"b'" := by
  have hread : parse "'a\"b'" = [["a\"b"]] := by decide +kernel
  have htext : text [["a\"b"]] = "\"a\"b\"" := by decide
  have hagain : parse "\"a\"b\"" = [["a"]] := by decide +kernel
  rw [hread, htext, hagain]
  decide

/-! ## Matrices of any cells -/

/-- Some row is as long as the width, if there is a row. -/
theorem exists_length_eq_width {m : Areas} (hne : m ≠ []) : ∃ row ∈ m, row.length = m.width := by
  by_contra hnone
  have hle : ∀ row ∈ m, row.length ≤ m.width := (width_le_iff m m.width).mp (Nat.le_refl _)
  have hlt : ∀ row ∈ m, row.length < m.width := fun row hrow =>
    Nat.lt_of_le_of_ne (hle row hrow) fun heq => hnone ⟨row, hrow, heq⟩
  have hless : m.width ≤ m.width - 1 := (width_le_iff m _).mpr fun row hrow => by
    have hlength := hlt row hrow
    omega
  obtain ⟨row, rows, rfl⟩ := List.exists_cons_of_ne_nil hne
  have hpos := hlt row List.mem_cons_self
  omega

/-- A cell keeps whether it has a name when a run of points becomes one point. -/
theorem isEmptyCell_normalCell (cell : String) :
    isEmptyCell (normalCell cell) = isEmptyCell cell := by
  unfold normalCell
  split
  · rename_i hempty
    rw [hempty]
    decide
  · rfl

/-- A cell that has no blanks when it is trimmed becomes a cell as it is read. -/
theorem isCell_normalCell_trimmed {cell : String}
    (h : ∀ c ∈ (trimmed cell).toList, isBlank c = false) : IsCell (normalCell (trimmed cell)) := by
  by_cases hnil : (trimmed cell).toList = []
  · have hnormal : normalCell (trimmed cell) = emptyCell := by
      unfold normalCell isEmptyCell
      rw [hnil, List.all_nil, if_pos rfl]
    rw [hnormal]
    exact isCell_emptyCell
  · have hcell := isCell_normalCell ⟨hnil, h⟩
    rwa [String.ofList_toList] at hcell

/-- A double quote in a cell as it is read was in the trimmed cell. -/
theorem mem_of_mem_normalCell {cell : String} {c : Char} (hpoint : c ≠ '.')
    (h : c ∈ (normalCell cell).toList) : c ∈ cell.toList := by
  unfold normalCell at h
  split at h
  · exact absurd (List.mem_singleton.mp h) hpoint
  · exact h

/-- The cells of a matrix as they are written. -/
def written (m : Areas) : Areas := m.map fun row => row.map fun cell => normalCell (trimmed cell)

/-- A cell as it is written is trimmed, and written as it is. -/
theorem trimmed_normalCell_trimmed (cell : String) :
    trimmed (normalCell (trimmed cell)) = normalCell (trimmed cell) ∧
      normalCell (normalCell (trimmed cell)) = normalCell (trimmed cell) := by
  by_cases hempty : isEmptyCell (trimmed cell) = true
  · have hnormal : normalCell (trimmed cell) = emptyCell := if_pos hempty
    rw [hnormal]
    decide
  · have hnormal : normalCell (trimmed cell) = trimmed cell := if_neg hempty
    rw [hnormal, hnormal]
    unfold trimmed
    rw [String.toList_ofList, Text.trim_trim]
    exact ⟨rfl, rfl⟩

/-- A matrix has the text of its cells as they are written. -/
theorem text_written (m : Areas) : text (written m) = text m := by
  have hrow : ∀ row : List String,
      rowText (row.map fun cell => normalCell (trimmed cell)) = rowText row := by
    intro row
    have hcells : (row.map fun cell => normalCell (trimmed cell)).map
          (fun cell => normalCell (trimmed cell))
            = row.map fun cell => normalCell (trimmed cell) := by
      rw [List.map_map]
      refine List.map_congr_left fun cell _ => ?_
      obtain ⟨htrim, hnormal⟩ := trimmed_normalCell_trimmed cell
      rw [Function.comp_apply, htrim, hnormal]
    unfold rowText
    rw [hcells]
  have hempty : ((written m).flatten.all fun cell => isEmptyCell (trimmed cell))
      = m.flatten.all fun cell => isEmptyCell (trimmed cell) := by
    have hcell : (fun cell => isEmptyCell (trimmed cell)) ∘ (fun cell => normalCell (trimmed cell))
        = fun cell => isEmptyCell (trimmed cell) := by
      funext cell
      rw [Function.comp_apply, (trimmed_normalCell_trimmed cell).1, isEmptyCell_normalCell]
    unfold written
    rw [← List.map_flatten, List.all_map, hcell]
  have hrows : (written m).map rowText = m.map rowText := by
    unfold written
    rw [List.map_map]
    exact List.map_congr_left fun row _ => hrow row
  unfold text
  rw [hempty, hrows]

/-- Cells have no influence on the width. -/
theorem width_written (m : Areas) : (written m).width = m.width := by
  unfold width written
  rw [List.map_map]
  exact congrArg (List.foldl max 0) (List.map_congr_left fun row _ => List.length_map _)

/-- A matrix of cells as they are written, with its short rows filled up. -/
theorem padded_written (m : Areas) :
    padded (written m) = m.map fun row =>
      (row.map fun cell => normalCell (trimmed cell))
        ++ List.replicate (m.width - row.length) emptyCell := by
  unfold padded
  rw [width_written]
  unfold written
  rw [List.map_map]
  refine List.map_congr_left fun row _ => ?_
  rw [Function.comp_apply, List.length_map]

/-- For every matrix without empty rows whose trimmed cells have neither blanks nor double quotes,
one of them with another character than points: read again from its text, it has all cells trimmed,
one point in place of every empty cell and every run of points, and short rows filled up with points
to the length of the longest. -/
theorem parse_text_of_trimmed (m : Areas) (hrows : ∀ row ∈ m, row ≠ [])
    (hcells : ∀ row ∈ m, ∀ cell ∈ row, ∀ c ∈ (trimmed cell).toList, isBlank c = false ∧ c ≠ '"')
    (hnamed : ∃ row ∈ m, ∃ cell ∈ row, ∃ c ∈ (trimmed cell).toList, c ≠ '.') :
    ∃ width, (∀ row ∈ m, row.length ≤ width) ∧ (∃ row ∈ m, row.length = width) ∧
      parse (text m) = m.map fun row =>
        (row.map fun cell => if (trimmed cell).toList.all (· == '.') then "." else trimmed cell)
          ++ List.replicate (width - row.length) "." := by
  have hwritten : ∀ row ∈ written m, ∀ cell ∈ row, IsCell cell ∧ '"' ∉ cell.toList := by
    intro _ hrow' _ hcell'
    obtain ⟨row, hrow, rfl⟩ := List.mem_map.mp hrow'
    obtain ⟨cell, hcell, rfl⟩ := List.mem_map.mp hcell'
    refine ⟨isCell_normalCell_trimmed fun c hc => (hcells row hrow cell hcell c hc).1, ?_⟩
    intro hquote
    exact (hcells row hrow cell hcell _ (mem_of_mem_normalCell (by decide) hquote)).2 rfl
  have hnonempty : ∀ row ∈ written m, row ≠ [] := by
    intro _ hrow'
    obtain ⟨row, hrow, rfl⟩ := List.mem_map.mp hrow'
    simpa using hrows row hrow
  have hname : ∃ row ∈ written m, ∃ cell ∈ row, cell ≠ emptyCell := by
    obtain ⟨row, hrow, cell, hcell, c, hc, hpoint⟩ := hnamed
    refine ⟨_, List.mem_map_of_mem hrow, _, List.mem_map_of_mem hcell, fun heq => hpoint ?_⟩
    have hempty : isEmptyCell (trimmed cell) = true := by
      rw [← isEmptyCell_normalCell, heq]
      decide
    simpa using List.all_eq_true.mp hempty c hc
  have hne : m ≠ [] := by
    rintro rfl
    obtain ⟨row, hrow, -⟩ := hnamed
    exact absurd hrow List.not_mem_nil
  refine ⟨m.width, (width_le_iff m m.width).mp (Nat.le_refl _), exists_length_eq_width hne, ?_⟩
  calc parse (text m)
      = parse (text (written m)) := by rw [text_written]
    _ = padded (written m) :=
        parse_text hnonempty (fun row hrow cell hcell => (hwritten row hrow cell hcell).1) hname
          fun row hrow cell hcell => (hwritten row hrow cell hcell).2
    _ = _ := padded_written m

/-- A short row, a run of points, an empty cell, blanks around a cell and a single quote in one. -/
theorem parse_text_of_trimmed_short_row :
    parse (text [["it's", " ... "], ["", "\ta/b ", "."], [".."]])
      = [["it's", ".", "."], [".", "a/b", "."], [".", ".", "."]] := by
  have hcells : ∀ row ∈ [["it's", " ... "], ["", "\ta/b ", "."], [".."]], ∀ cell ∈ row,
      (trimmed cell).toList.all (fun c => !isBlank c && c != '"') = true := by decide
  obtain ⟨width, hle, ⟨row, hrow, hwidth⟩, hread⟩ := parse_text_of_trimmed
    [["it's", " ... "], ["", "\ta/b ", "."], [".."]] (by decide)
    (fun row hrow cell hcell c hc => by
      simpa using List.all_eq_true.mp (hcells row hrow cell hcell) c hc)
    ⟨_, List.mem_cons_self, _, List.mem_cons_self, 'i', by decide, by decide⟩
  have hthree : width = 3 := by
    have hlong := hle ["", "\ta/b ", "."] (by decide)
    have hshort : ∀ row ∈ [["it's", " ... "], ["", "\ta/b ", "."], [".."]], row.length ≤ 3 := by
      decide
    have hrowle := hshort row hrow
    simp only [List.length_cons, List.length_nil] at hlong
    omega
  rw [hread, hthree]
  decide

end ResponsiveStyle.Grid.Areas
