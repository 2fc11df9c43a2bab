/-
# Plain placements are read again as they were

Every text is read as a start number other than zero and a span of at least one, both of 32 bits
(`wellFormed_parse`): the span up to an end line is one if it would be too large. What the plain
controls write is read again by them, whether a span of one is left out or not (`parse_compose`),
and the advanced controls write it again as it is (`compose_parse_compose`). As no span stands
before the slash in it, both follow from how the advanced controls read it.
-/
import ResponsiveStyle.Proofs.Grid.Shown

namespace ResponsiveStyle.Grid.SimplePlacement

open Text (checked32 fits32 intText)

/-! ## What shorthands hold -/

/-- A placement that the plain controls can hold. -/
structure WellFormed (p : SimplePlacement) : Prop where
  start_ne_zero : p.start ≠ 0
  fits_start : fits32 p.start = true
  one_le_span : 1 ≤ p.span
  fits_span : fits32 p.span = true

/-- A span of 32 bits is one if it is raised to one at least. -/
theorem fits32_max_one {k : Int} (h : fits32 k = true) : fits32 (max k 1) = true := by
  simp only [fits32, Bool.and_eq_true, decide_eq_true_eq] at h ⊢
  omega

/-- The start number of a line that is read is not zero and has 32 bits. -/
theorem of_startOf (token : List Char) :
    startOf (Line.ofChars token) ≠ 0 ∧ fits32 (startOf (Line.ofChars token)) = true := by
  cases hline : Line.ofChars token with
  | auto => exact ⟨Int.one_ne_zero, rfl⟩
  | named name => exact ⟨Int.one_ne_zero, rfl⟩
  | number n =>
    have hfits := Line.fits32_of_ofChars hline
    unfold startOf
    by_cases hzero : n = 0
    · simp [hzero, fits32]
    · simp [hzero, hfits]

/-- The span of a part behind the slash is at least one and has 32 bits, from whichever start. -/
theorem of_spanOf (start : Int) (token : List Char) :
    1 ≤ spanOf start token ∧ fits32 (spanOf start token) = true := by
  unfold spanOf
  split
  · rename_i k hspan
    exact ⟨Int.le_max_right k 1, fits32_max_one (fits32_of_spanOfChars? hspan)⟩
  · split
    · exact ⟨Int.le_refl 1, rfl⟩
    · refine ⟨Int.le_max_right _ 1, fits32_max_one ?_⟩
      unfold checked32
      split
      · assumption
      · rfl
  · exact ⟨Int.le_refl 1, rfl⟩

/-- Every text is read as a placement that the plain controls can hold. -/
theorem wellFormed_parse (value : String) : (parse value).WellFormed := by
  unfold parse
  cases shorthandParts value with
  | mk first second =>
    cases hspan : spanOfChars? first with
    | some k =>
      simp only [hspan]
      exact ⟨Int.one_ne_zero, rfl, Int.le_max_right k 1,
        fits32_max_one (fits32_of_spanOfChars? hspan)⟩
    | none =>
      simp only [hspan]
      obtain ⟨hzero, hfits⟩ := of_startOf first
      cases second with
      | none => exact ⟨hzero, hfits, Int.le_refl 1, rfl⟩
      | some token =>
        obtain ⟨hone, hfits'⟩ := of_spanOf (startOf (Line.ofChars first)) token
        exact ⟨hzero, hfits, hone, hfits'⟩

/-! ## Written placements -/

/-- What is written is the start line alone, which stands for a span of one, or the line with the
span. -/
theorem compose_cases (start : Line) (span : Int) (collapse : Bool) :
    max span 1 = 1 ∧ compose start span collapse = (start.orFallback 0).text ∨
    compose start span collapse
      = (start.orFallback 0).text ++ " / " ++ ("span " ++ intText (max span 1)) := by
  unfold compose
  simp only
  split
  · rename_i hcollapse
    simp only [Bool.and_eq_true, beq_iff_eq] at hcollapse
    exact .inl ⟨hcollapse.1.1, rfl⟩
  · refine .inr ?_
    rw [show " / span " = " / " ++ "span " from rfl]
    simp only [String.append_assoc]

/-- A proper start line alone is taken as it is shown. -/
theorem parse_text_eq_shown {start : Line} (h : start.Proper) :
    parse start.text = (Placement.parse start.text).shown := by
  refine parse_eq_shown ?_
  rw [shorthandParts_of_not_mem h.slash_not_mem_text, h.trim_text]
  exact h.spanOfChars?_text

/-- Behind a proper start line the plain reader takes what is shown, whatever stands behind the
slash. -/
theorem parse_slash_eq_shown {start : Line} (h : start.Proper) {tail : String}
    (htail : '/' ∉ tail.toList) :
    parse (start.text ++ " / " ++ tail)
      = (Placement.parse (start.text ++ " / " ++ tail)).shown := by
  refine parse_eq_shown ?_
  rw [shorthandParts_slash h.slash_not_mem_text htail, h.trim_text]
  exact h.spanOfChars?_text

section

variable {start : Line} (h : (start.orFallback 0).Proper) {span : Int} (hspan : fits32 span = true)
include h hspan

/-- What is written for a start line and a span is read again, whether a span of one is left out or
not. -/
theorem parse_compose (collapse : Bool) :
    parse (compose start span collapse) = ⟨startOf start, max span 1⟩ := by
  rw [← Line.shown_orFallback]
  rcases compose_cases start span collapse with ⟨hone, htext⟩ | htext
  · rw [htext, parse_text_eq_shown h, Placement.parse_text h, hone]
    rfl
  · have hmax : max (max span 1) 1 = max span 1 := by omega
    rw [htext, parse_slash_eq_shown h (slash_not_mem_span _),
      Placement.parse_span h (fits32_max_one hspan) (by omega)]
    exact congrArg (SimplePlacement.mk _) hmax

/-- What is written for a start line and a span is written again by the advanced controls in the
form that they read it in. -/
theorem compose_parse_compose (collapse : Bool) (fallback : Int) :
    (Placement.parse (compose start span collapse)).compose
        (Placement.parse (compose start span collapse)).mode fallback
      = compose start span collapse := by
  rcases compose_cases start span collapse with ⟨-, htext⟩ | htext
  · rw [htext, Placement.parse_text h]
    exact (Placement.WellFormed.bare h).compose_eq fallback
  · have hfits := fits32_max_one hspan
    have hzero : max span 1 ≠ 0 := by omega
    rw [htext, Placement.parse_span h hfits hzero]
    exact (Placement.WellFormed.span h hfits hzero).compose_eq fallback

end

/-- What is read is read again from what the plain controls write for it. -/
theorem WellFormed.parse_compose {p : SimplePlacement} (h : p.WellFormed) (collapse : Bool) :
    parse (compose (.number p.start) p.span collapse) = p := by
  rw [SimplePlacement.parse_compose (Line.proper_orFallback_number h.fits_start) h.fits_span,
    Int.max_eq_left h.one_le_span]
  unfold startOf
  simp [h.start_ne_zero]

/-- Between two lines by their numbers lies the span from the one to the other, if it has 32 bits
and is at least one. -/
theorem parse_lines {n e : Int} (hn : fits32 n = true) (he : fits32 e = true) (hstart : n ≠ 0)
    (hend : e ≠ 0) :
    parse (intText n ++ " / " ++ intText e) = ⟨n, max ((checked32 (e - n)).getD 1) 1⟩ := by
  have hstart' : (Line.number n).Proper := .number hn hstart
  have hend' : (Line.number e).Proper := .number he hend
  show parse ((Line.number n).text ++ " / " ++ (Line.number e).text) = _
  rw [parse_slash_eq_shown hstart' hend'.slash_not_mem_text,
    Placement.parse_finish hstart' hend' (by simp)]
  rfl

/-- Every text is read as a start number other than zero and a span of at least one, both of 32
bits; between two numbered lines the span is their difference, or one if that is less or has more
than 32 bits. What the plain controls write for a start number and a span is read as both, with one
in the place of a start that is zero and of a span below one, whether a span of one is left out or
not. So what is read from any text is read again. -/
theorem parse_stable :
    (∀ value : String, (parse value).WellFormed) ∧
    (∀ n e : Int, fits32 n = true → fits32 e = true → n ≠ 0 → e ≠ 0 →
      parse (intText n ++ " / " ++ intText e)
        = ⟨n, if fits32 (e - n) = true then max (e - n) 1 else 1⟩) ∧
    (∀ (start span : Int) (collapse : Bool), fits32 start = true → fits32 span = true →
      parse (compose (.number start) span collapse)
        = ⟨if start = 0 then 1 else start, max span 1⟩) ∧
    ∀ (value : String) (collapse : Bool),
      parse (compose (.number (parse value).start) (parse value).span collapse) = parse value := by
  refine ⟨wellFormed_parse, fun n e hn he hstart hend => ?_,
    fun start span collapse hstart hspan => ?_,
    fun value collapse => (wellFormed_parse value).parse_compose collapse⟩
  · rw [parse_lines hn he hstart hend]
    unfold checked32
    split <;> rfl
  · rw [parse_compose (Line.proper_orFallback_number hstart) hspan]
    simp [startOf]

/-- The lines that are farthest apart, and a start that is zero with the least span. -/
theorem parse_stable_extreme :
    parse (intText (-2147483648) ++ " / " ++ intText 2147483647) = ⟨-2147483648, 1⟩ ∧
    parse (compose (.number 0) (-2147483648) true) = ⟨1, 1⟩ ∧
    parse (compose (.number (-2147483648)) 2147483647 false) = ⟨-2147483648, 2147483647⟩ := by
  obtain ⟨-, hlines, hwritten, -⟩ := parse_stable
  exact ⟨hlines (-2147483648) 2147483647 (by decide) (by decide) (by decide) (by decide),
    hwritten 0 (-2147483648) true (by decide) (by decide),
    hwritten (-2147483648) 2147483647 false (by decide) (by decide)⟩

end ResponsiveStyle.Grid.SimplePlacement
