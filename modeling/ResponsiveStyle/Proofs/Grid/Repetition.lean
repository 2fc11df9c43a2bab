/-
# Repetitions as calls

A repetition is a call of `repeat`, and its inside is a number, a comma and a unit (`Counted`). The
brackets of the inside balance if those of the unit do (`Counted.balanced_iff`), and its arguments
are the number and the arguments of the unit (`Counted.splitArguments?_eq`). A repetition whose
inside balances is a single token (`isToken_repeat`).
-/
import ResponsiveStyle.Proofs.Grid.Joining
import ResponsiveStyle.Proofs.Text.Character
import ResponsiveStyle.Proofs.Text.Cut
import ResponsiveStyle.Text.Numeral

namespace ResponsiveStyle.Grid

open Text (trim trimStart isBlank isAsciiBlank isBlank_of_isAsciiBlank isBlank_of_isDigit
  trim_isBlank_append trim_append_of_isBlank trim_of_not_isBlank before?_eq_some_iff digits
  sameIgnoringCase)

/-! ## The inside of a repetition -/

/-- The inside of a repetition: digits, a comma and a unit. Blanks of ASCII may stand around the
digits and in front of the unit. -/
def Counted (inside digits unit : List Char) : Prop :=
  ∃ before between behind, inside = before ++ (digits ++ (between ++ ',' :: (behind ++ unit))) ∧
    (∀ c ∈ before ++ between ++ behind, isAsciiBlank c = true) ∧
    digits ≠ [] ∧ ∀ c ∈ digits, c.isDigit = true

/-- The inside as a repetition is written, whatever numeral says how often. -/
theorem counted_of_isDigit {digits : List Char} (hne : digits ≠ [])
    (hdigits : ∀ c ∈ digits, c.isDigit = true) (unit : List Char) :
    Counted (digits ++ (", ".toList ++ unit)) digits unit :=
  ⟨[], [], [' '], rfl, List.all_eq_true.mp (by decide), hne, hdigits⟩

/-- The inside as a repetition is written. -/
theorem counted_digits (count : Nat) (unit : List Char) :
    Counted (digits count ++ (", ".toList ++ unit)) (digits count) unit :=
  counted_of_isDigit (Text.digits_ne_nil count) (fun _ hc => Text.isDigit_of_mem_digits hc) unit

/-- No digit is a bracket. -/
theorem isBracket_of_isDigit {c : Char} (h : c.isDigit = true) : isBracket c = false := by
  rw [Bool.eq_false_iff]
  intro hbracket
  simp only [isBracket, Bool.or_eq_true, beq_iff_eq] at hbracket
  rcases hbracket with ((rfl | rfl) | rfl) | rfl <;> exact absurd h (by decide)

/-- No character in front of the unit is a bracket. -/
theorem Counted.exists_front {inside digits unit : List Char} (h : Counted inside digits unit) :
    ∃ front, inside = front ++ unit ∧ ∀ c ∈ front, isBracket c = false := by
  obtain ⟨before, between, behind, hinside, hblank, -, hdigits⟩ := h
  have hbracket : ∀ c ∈ before ++ between ++ behind, isBracket c = false := fun c hc =>
    isBracket_of_isBlank (isBlank_of_isAsciiBlank (hblank c hc))
  refine ⟨before ++ (digits ++ (between ++ ',' :: behind)), by simp [hinside], ?_⟩
  intro c hc
  simp only [List.mem_append, List.mem_cons] at hc hbracket
  rcases hc with hc | hc | hc | rfl | hc
  · exact hbracket c (.inl (.inl hc))
  · exact isBracket_of_isDigit (hdigits c hc)
  · exact hbracket c (.inl (.inr hc))
  · decide
  · exact hbracket c (.inr hc)

/-- The brackets of the inside balance if those of the unit do. -/
theorem Counted.balanced_iff {inside digits unit : List Char} (h : Counted inside digits unit) :
    Balanced inside ↔ Balanced unit := by
  obtain ⟨front, rfl, hfront⟩ := h.exists_front
  exact balanced_append_iff hfront unit

/-- Only the unit can close a parenthesis. -/
theorem Counted.mem_iff {inside digits unit : List Char} (h : Counted inside digits unit) :
    ')' ∈ inside ↔ ')' ∈ unit := by
  obtain ⟨front, rfl, hfront⟩ := h.exists_front
  have hclose : ')' ∉ front := fun hmem => absurd (hfront ')' hmem) (by decide)
  simp [hclose]

/-- The arguments of the inside are the digits and the arguments of the unit. -/
theorem Counted.splitArguments?_eq {inside digits unit : List Char} (h : Counted inside digits unit)
    {arguments : List (List Char)} (hunit : splitArguments? unit = some arguments) :
    splitArguments? inside = some (digits :: arguments) := by
  obtain ⟨before, between, behind, rfl, hblank, hne, hdigits⟩ := h
  have hblanks : ∀ c ∈ before ++ between ++ behind, isBlank c = true := fun c hc =>
    isBlank_of_isAsciiBlank (hblank c hc)
  simp only [List.mem_append, or_imp, forall_and] at hblanks
  obtain ⟨⟨hbefore, hbetween⟩, hbehind⟩ := hblanks
  have hkept : trim digits = digits :=
    trim_of_not_isBlank fun c hc => isBlank_of_isDigit (hdigits c hc)
  have htrim : trim (before ++ (digits ++ between)) = digits := by
    rw [trim_isBlank_append hbefore, trim_append_of_isBlank hbetween, hkept]
  have hplain : ∀ c ∈ digits, (c == ',') = false ∧ isBracket c = false := by
    intro c hc
    refine ⟨?_, isBracket_of_isDigit (hdigits c hc)⟩
    rw [beq_eq_false_iff_ne]
    rintro rfl
    exact absurd (hdigits ',' hc) (by decide)
  have htimes : splitArguments? (before ++ (digits ++ between)) = some [digits] := by
    rw [← splitArguments?_trim, htrim]
    exact (splitTop?_of_plain hplain (by rwa [hkept])).trans (by rw [hkept])
  have hrest : splitArguments? (behind ++ unit) = some arguments := by
    rw [← hunit]
    exact splitTop?_isBlank_append hbehind unit
  have hboth : splitArguments? (before ++ (digits ++ between) ++ ',' :: (behind ++ unit))
      = some ([digits] ++ arguments) :=
    splitTop?_append_cons htimes hrest (beq_self_eq_true ',')
  simpa using hboth

/-! ## Calls of `repeat` -/

/-- The arguments of a call are what stands between its parentheses. -/
theorem arguments?_call (name inside : List Char) :
    arguments? name (name ++ '(' :: (inside ++ [')'])) = some inside := by
  have hname : sameIgnoringCase name name = true := beq_self_eq_true _
  have hstart : trimStart ('(' :: (inside ++ [')'])) = '(' :: (inside ++ [')']) := rfl
  unfold arguments?
  rw [List.take_left, List.drop_left, if_pos hname, hstart]
  exact (before?_eq_some_iff _ _ _).mpr rfl

/-- A call is its name in some case, blanks, and the arguments between parentheses. -/
theorem exists_of_arguments? {name token arguments : List Char}
    (h : arguments? name token = some arguments) :
    ∃ word blanks, token = word ++ (blanks ++ '(' :: (arguments ++ [')'])) ∧
      sameIgnoringCase name word = true ∧ ∀ c ∈ blanks, isBlank c = true := by
  unfold arguments? at h
  split at h
  · rename_i hname
    split at h
    · rename_i rest hstart
      obtain rfl := (before?_eq_some_iff _ _ _).mp h
      refine ⟨token.take name.length, (token.drop name.length).takeWhile isBlank, ?_, hname, ?_⟩
      · rw [← hstart, Text.takeWhile_append_trimStart, List.take_append_drop]
      · intro c hc
        exact List.mem_takeWhile_imp hc
    · exact absurd h (by simp)
  · exact absurd h (by simp)

/-- No character of the name of repetitions is a blank, a comma or a bracket. -/
theorem plain_repeat {c : Char} (h : c ∈ "repeat".toList) :
    isBlank c = false ∧ (c == ',') = false ∧ isBracket c = false := by
  have hall : ∀ c ∈ "repeat".toList, (!isBlank c && (!(c == ',') && !isBracket c)) = true :=
    List.all_eq_true.mp (by decide)
  simpa using hall c h

/-- In whatever case the name of repetitions is written, it has no bracket in it. -/
theorem isBracket_of_sameIgnoringCase_repeat {word : List Char}
    (h : sameIgnoringCase "repeat".toList word = true) {c : Char} (hc : c ∈ word) :
    isBracket c = false := by
  rw [Bool.eq_false_iff]
  intro hbracket
  have hcase : c.toLower = c ∧ c ∉ Text.lower "repeat".toList := by
    simp only [isBracket, Bool.or_eq_true, beq_iff_eq] at hbracket
    rcases hbracket with ((rfl | rfl) | rfl) | rfl <;> decide
  rw [Text.sameIgnoringCase_eq_false_of_mem hcase.1 hcase.2 hc] at h
  exact absurd h (by simp)

/-- A repetition is a token if its inside balances. -/
theorem isToken_repeat {inside : List Char} (h : Balanced inside) :
    IsToken ("repeat".toList ++ '(' :: (inside ++ [')'])) := by
  refine ⟨by simp, solid_call (fun _ => isBracket_of_isBlank) (fun c hc => ?_) h⟩
  obtain ⟨hblank, -, hbracket⟩ := plain_repeat hc
  exact ⟨hblank, hbracket⟩

/-- A repetition is a single argument if its inside balances. -/
theorem hasOutside_repeat {inside : List Char} (h : Balanced inside) :
    hasOutside ',' 0 ("repeat".toList ++ '(' :: (inside ++ [')'])) = false := by
  have hsolid : Solid (· == ',') .top ("repeat".toList ++ '(' :: (inside ++ [')'])) := by
    refine solid_call isBracket_of_eq_comma (fun c hc => ?_) h
    exact (plain_repeat hc).2
  exact hsolid.hasOutside_separator (by decide)

end ResponsiveStyle.Grid
