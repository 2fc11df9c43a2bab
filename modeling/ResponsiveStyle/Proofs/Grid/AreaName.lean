/-
# Area names that are read back

What is accepted as the name of an area should be read as that name by whoever reads it. A placement
takes a name for a number if it is a numeral with a plus in front, and for a span if the word `span`
has a numeral right behind it; it reads every other name back (`IsName.parse_eq_iff`). The areas of
a template take a name for a cell without one if it is a run of points, and read all others back
(`Areas.parse_text_eq_self_iff_of_names`, `Areas.mem_names_iff`).
-/
import ResponsiveStyle.Proofs.Grid.Areas
import ResponsiveStyle.Proofs.Grid.Placement

namespace ResponsiveStyle.Grid

open Text (trim isBlank int32? ofDigits sameIgnoringCase)

/-! ## Names -/

/-- A text that is accepted as the name of an area. -/
structure IsName (cs : List Char) : Prop where
  nonempty : cs ≠ []
  first : ∀ c ∈ (cs.dropWhile (· == '-')).head?, c.isDigit = false
  solid : ∀ c ∈ cs, isBlank c = false
  slash : '/' ∉ cs
  quote : '"' ∉ cs
  auto : sameIgnoringCase "auto".toList cs = false

/-- What is accepted as the name of an area is not empty, begins with no digit behind hyphens, and
has no blank, slash or double quote in it; and it is not the word for lines that are left to the
grid. -/
theorem isName_of_isAreaName {name : String} (h : isAreaName name = true) : IsName name.toList := by
  unfold isAreaName at h
  simp only [Bool.and_eq_true, Bool.not_eq_true', List.isEmpty_eq_false_iff, List.any_eq_false,
    Bool.or_eq_true, beq_iff_eq, not_or, Bool.not_eq_true] at h
  obtain ⟨⟨⟨hne, hfirst⟩, hplain⟩, hreserved⟩ := h
  refine ⟨hne, fun c hc => ?_, fun c hc => (hplain c hc).1.1.1, fun hmem => ?_, fun hmem => ?_, ?_⟩
  · rw [Option.mem_def.mp hc] at hfirst
    exact hfirst
  · exact (hplain _ hmem).1.1.2 rfl
  · exact (hplain _ hmem).1.2 rfl
  · exact hreserved "auto" (by decide)

/-- A name is trimmed. -/
theorem IsName.trim_eq {cs : List Char} (h : IsName cs) : trim cs = cs :=
  Text.trim_of_not_isBlank h.solid

/-! ## Names that are taken for something else -/

/-- A plus, and digits that stand for a number of 32 bits. -/
def IsPlusNumeral (cs : List Char) : Prop :=
  ∃ digits, cs = '+' :: digits ∧ digits ≠ [] ∧ (∀ c ∈ digits, c.isDigit = true) ∧
    ofDigits digits ≤ 2147483647

/-- The word `span` in some case, and right behind it a numeral of 32 bits. -/
def IsSpanNumeral (cs : List Char) : Prop :=
  ∃ word numeral, cs = word ++ numeral ∧ sameIgnoringCase "span".toList word = true ∧
    (int32? numeral).isSome = true

/-- The only numerals among names have a plus in front. -/
theorem IsName.isSome_int32?_iff {cs : List Char} (h : IsName cs) :
    (int32? cs).isSome = true ↔ IsPlusNumeral cs := by
  constructor
  · intro hsome
    obtain ⟨n, hn⟩ := Option.isSome_iff_exists.mp hsome
    obtain ⟨m, hm, hcheck⟩ := Option.bind_eq_some_iff.mp hn
    obtain ⟨rfl, hfits⟩ := (Text.checked32_eq_some_iff _ _).mp hcheck
    obtain ⟨digits, hne, hdigits, hcs⟩ := Text.of_signed?_eq_some hm
    obtain ⟨d, ds, rfl⟩ := List.exists_cons_of_ne_nil hne
    have hd : d.isDigit = true := hdigits d List.mem_cons_self
    have hhyphen : (d == '-') = false := by
      rw [beq_eq_false_iff_ne]
      rintro rfl
      exact absurd hd (by decide)
    rcases hcs with rfl | rfl | ⟨rfl, rfl⟩
    · have hfirst := h.first d (by simp [hhyphen])
      exact absurd hd (by simp [hfirst])
    · have hfirst := h.first d (by simp [hhyphen])
      exact absurd hd (by simp [hfirst])
    · refine ⟨d :: ds, rfl, hne, hdigits, ?_⟩
      simp only [Text.fits32, Bool.and_eq_true, decide_eq_true_eq] at hfits
      omega
  · rintro ⟨digits, rfl, hne, hdigits, hle⟩
    have hnat : Text.nat? digits = some (ofDigits digits) :=
      (Text.nat?_eq_some_iff _ _).mpr ⟨hne, hdigits, rfl⟩
    have hsigned : Text.signed? ('+' :: digits) = some (ofDigits digits : Int) := by
      show (Text.nat? digits).map Int.ofNat = _
      rw [hnat]
      rfl
    have hfits : Text.fits32 (ofDigits digits) = true := by
      simp only [Text.fits32, Bool.and_eq_true, decide_eq_true_eq]
      omega
    unfold int32?
    rw [hsigned, Option.bind_some, (Text.checked32_eq_some_iff _ _).mpr ⟨rfl, hfits⟩]
    rfl

/-- The only spans among names have the numeral right behind the word. -/
theorem IsName.isSome_spanOfChars?_iff {cs : List Char} (h : IsName cs) :
    (spanOfChars? cs).isSome = true ↔ IsSpanNumeral cs := by
  have htrim : trim (cs.drop 4) = cs.drop 4 :=
    Text.trim_of_not_isBlank fun c hc => h.solid c (List.mem_of_mem_drop hc)
  unfold spanOfChars?
  rw [htrim]
  constructor
  · intro hsome
    split at hsome
    · rename_i hword
      exact ⟨cs.take 4, cs.drop 4, (List.take_append_drop 4 cs).symm, hword, hsome⟩
    · exact absurd hsome (by simp)
  · rintro ⟨word, numeral, rfl, hword, hsome⟩
    have hlength : word.length = 4 := by
      have hlower := congrArg List.length (eq_of_beq hword)
      simpa [Text.lower] using hlower.symm
    rw [List.take_left' hlength, List.drop_left' hlength, if_pos hword]
    exact hsome

/-- A name is read back as the start line of a placement exactly if it is neither taken for a number
nor for a span. -/
theorem IsName.parse_eq_iff {name : String} (h : IsName name.toList) :
    Placement.parse name = ⟨.named name, none, none⟩ ↔
      ¬ IsPlusNumeral name.toList ∧ ¬ IsSpanNumeral name.toList := by
  have hparse : Placement.parse name = Placement.ofFirst name.toList := by
    unfold Placement.parse
    rw [shorthandParts_of_not_mem h.slash, h.trim_eq]
  rw [hparse, ← h.isSome_int32?_iff, ← h.isSome_spanOfChars?_iff]
  unfold Placement.ofFirst Line.ofChars
  rw [h.auto]
  simp only [Bool.or_false, List.isEmpty_iff, h.nonempty, if_false]
  cases hspan : spanOfChars? name.toList with
  | some k => simp
  | none =>
    cases hnumber : int32? name.toList with
    | none => simp [Line.orFallback, String.ofList_toList]
    | some n =>
      simp only [Line.orFallback, beq_self_eq_true, if_true]
      split <;> simp

/-! ## Names in a matrix -/

namespace Areas

/-- A cell has a name if it has another character than points. -/
theorem isEmptyCell_eq_false_iff (cell : String) :
    isEmptyCell cell = false ↔ ∃ c ∈ cell.toList, c ≠ '.' := by
  unfold isEmptyCell
  rw [List.all_eq_false]
  simp

/-- A cell is found if it has a name, and found once. -/
theorem mem_found_iff (cell name : String) (found : List String) :
    (name ∈ if isEmptyCell cell || found.contains cell then found else found ++ [cell])
      ↔ name ∈ found ∨ name = cell ∧ isEmptyCell name = false := by
  split
  · rename_i hkept
    rw [Bool.or_eq_true, List.contains_iff_mem] at hkept
    constructor
    · exact .inl
    · rintro (hfound | ⟨rfl, hname⟩)
      · exact hfound
      · exact hkept.resolve_left (by simp [hname])
  · rename_i hnew
    rw [Bool.or_eq_true, not_or, Bool.not_eq_true] at hnew
    rw [List.mem_append, List.mem_singleton]
    refine or_congr_right ⟨?_, And.left⟩
    rintro rfl
    exact ⟨rfl, hnew.1⟩

/-- The names of a matrix are the cells with another character than points. -/
theorem mem_names_iff (m : Areas) (name : String) :
    name ∈ names m ↔ (∃ row ∈ m, name ∈ row) ∧ ∃ c ∈ name.toList, c ≠ '.' := by
  have hfold : ∀ (cells found : List String),
      name ∈ cells.foldl (fun found cell =>
          if isEmptyCell cell || found.contains cell then found else found ++ [cell]) found
        ↔ name ∈ found ∨ name ∈ cells ∧ isEmptyCell name = false := by
    intro cells
    induction cells with
    | nil => simp
    | cons cell cells ih =>
      intro found
      rw [List.foldl_cons, ih, mem_found_iff, List.mem_cons, or_assoc, or_and_right]
  unfold names
  rw [hfold, ← isEmptyCell_eq_false_iff]
  simp

/-- A matrix of points and names, at least one of them, all rows as long. -/
structure OfNames (m : Areas) : Prop where
  rectangular : ∃ width, ∀ row ∈ m, row.length = width
  cells : ∀ row ∈ m, ∀ cell ∈ row, cell = "." ∨ isAreaName cell = true
  named : ∃ row ∈ m, ∃ cell ∈ row, cell ≠ "."

/-- No name is a run of points. -/
def NoPoints (m : Areas) : Prop :=
  ∀ row ∈ m, ∀ cell ∈ row, cell = "." ∨ ∃ c ∈ cell.toList, c ≠ '.'

/-- A matrix of names is as it is read if none of them is a run of points. -/
theorem OfNames.wellFormed {m : Areas} (h : m.OfNames) (hpoints : m.NoPoints) : m.WellFormed := by
  obtain ⟨width, hwidth⟩ := h.rectangular
  obtain ⟨named, hnamed, cell, hcell, -⟩ := h.named
  have hpos : 0 < width := by
    rw [← hwidth named hnamed]
    exact List.length_pos_of_mem hcell
  refine ⟨⟨width, hwidth⟩, fun row hrow hnil => ?_, fun row hrow cell hcell => ?_⟩
  · have hlength := hwidth row hrow
    rw [hnil, List.length_nil] at hlength
    omega
  · rcases hpoints row hrow cell hcell with rfl | hname
    · exact isCell_emptyCell
    · rw [← isEmptyCell_eq_false_iff] at hname
      have hne : cell ≠ "." := by
        rintro rfl
        exact absurd hname (by decide)
      have hvalid := isName_of_isAreaName ((h.cells row hrow cell hcell).resolve_left hne)
      refine ⟨⟨hvalid.nonempty, hvalid.solid⟩, ?_⟩
      unfold normalCell
      rw [hname]
      rfl

/-- A matrix of names is read again from its text exactly if no name is a run of points. -/
theorem parse_text_eq_self_iff_of_names {m : Areas} (h : m.OfNames) :
    parse (text m) = m ↔ m.NoPoints := by
  constructor
  · intro heq row hrow cell hcell
    have hwritten : (parse (text m)).WellFormed := wellFormed_parse (text m)
    rw [heq] at hwritten
    by_cases hpoint : cell = "."
    · exact .inl hpoint
    · rw [← isEmptyCell_eq_false_iff]
      exact .inr ((hwritten.cells row hrow cell hcell).isEmptyCell_eq_false hpoint)
  · intro hpoints
    refine (parse_text_eq_self_iff (h.wellFormed hpoints) h.named).mpr fun row hrow cell hcell => ?_
    rcases h.cells row hrow cell hcell with rfl | hname
    · decide
    · exact (isName_of_isAreaName hname).quote

/-- The names of a matrix of names are those that are used exactly if none of them is a run of
points. -/
theorem mem_names_iff_used_iff {m : Areas} :
    (∀ name, name ∈ names m ↔ name ≠ "." ∧ ∃ row ∈ m, name ∈ row) ↔ m.NoPoints := by
  constructor
  · intro hall row hrow cell hcell
    by_cases hpoint : cell = "."
    · exact .inl hpoint
    · exact .inr ((mem_names_iff m cell).mp ((hall cell).mpr ⟨hpoint, row, hrow, hcell⟩)).2
  · intro hpoints name
    rw [mem_names_iff, and_comm]
    refine and_congr_left fun ⟨row, hrow, hname⟩ => ⟨?_, fun hne => ?_⟩
    · rintro ⟨c, hc, hpoint⟩ rfl
      exact hpoint (List.mem_singleton.mp hc)
    · exact (hpoints row hrow name hname).resolve_left hne

end Areas

/-! ## Both readers -/

/-- Everything that is accepted as the name of an area is read back as the start line of a
placement, exactly if it is no numeral of 32 bits behind a plus and not the word `span` with such a
numeral right behind it. Every matrix of names and points, all rows as long and one name at least,
is read back from its text exactly if no name is a run of points, and just then its names are those
that are used. -/
theorem isAreaName_read_back_iff {name : String} (hname : isAreaName name = true) {m : Areas}
    (hm : m.OfNames) :
    (Placement.parse name = ⟨.named name, none, none⟩ ↔
      ¬ IsPlusNumeral name.toList ∧ ¬ IsSpanNumeral name.toList) ∧
    (Areas.parse (Areas.text m) = m ↔ m.NoPoints) ∧
    ((∀ used, used ∈ Areas.names m ↔ used ≠ "." ∧ ∃ row ∈ m, used ∈ row) ↔ m.NoPoints) :=
  ⟨(isName_of_isAreaName hname).parse_eq_iff, Areas.parse_text_eq_self_iff_of_names hm,
    Areas.mem_names_iff_used_iff⟩

/-- A name that begins with the word `span`, and a matrix with a name that has points in it. -/
theorem isAreaName_read_back_iff_span_x :
    isAreaName "span-x" = true ∧ ¬ IsPlusNumeral "span-x".toList ∧ ¬ IsSpanNumeral "span-x".toList ∧
    Areas.OfNames [["head", "head"], ["a..b", "."]] ∧
    Areas.parse (Areas.text [["head", "head"], ["a..b", "."]]) = [["head", "head"], ["a..b", "."]] ∧
    "a..b" ∈ Areas.names [["head", "head"], ["a..b", "."]] := by
  have hname : isAreaName "span-x" = true := by decide
  have hmatrix : Areas.OfNames [["head", "head"], ["a..b", "."]] :=
    ⟨⟨2, by decide⟩, by decide, by decide⟩
  have hpoints : Areas.NoPoints [["head", "head"], ["a..b", "."]] := by
    intro row hrow cell hcell
    rw [← Areas.isEmptyCell_eq_false_iff]
    revert row cell
    decide
  obtain ⟨hplacement, hread, hused⟩ := isAreaName_read_back_iff hname hmatrix
  obtain ⟨hplus, hspan⟩ := hplacement.mp (by decide)
  exact ⟨hname, hplus, hspan, hmatrix, hread.mpr hpoints,
    (hused.mpr hpoints "a..b").mpr (by decide)⟩

/-- The word `span` with a numeral behind it, a numeral with a plus in front and a run of points are
accepted as names. They are read back as a span, as a line number and as a cell without a name. -/
theorem isAreaName_misread :
    (isAreaName "span3" = true ∧ Placement.parse "span3" = ⟨.auto, some 3, none⟩) ∧
    (isAreaName "+5" = true ∧ Placement.parse "+5" = ⟨.number 5, none, none⟩) ∧
    isAreaName ".." = true ∧ Areas.parse (Areas.text [["..", "a"]]) = [[".", "a"]] ∧
      Areas.names [["..", "a"]] = ["a"] := by
  refine ⟨⟨by decide, by decide⟩, ⟨by decide, by decide⟩, by decide, ?_, by decide⟩
  decide +kernel

end ResponsiveStyle.Grid
