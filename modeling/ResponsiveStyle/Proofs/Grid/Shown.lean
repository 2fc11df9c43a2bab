/-
# What the plain controls show of a placement

The plain controls of an editor show a start number and a span. Of a placement that is a projection
(`Placement.shown`): the number of the start line, and the span or what lies before the end line.
Both readers of a shorthand agree on it, unless a span stands before the slash (`parse_eq_shown`).
Behind such a span the plain reader stops; so they agree exactly if the part behind the slash says
nothing or asks for the same span (`parse_eq_shown_iff`).
-/
import ResponsiveStyle.Proofs.Grid.Placement

namespace ResponsiveStyle.Grid

open Text (checked32 fits32)

/-! ## The projection -/

/-- The number of a line, or one if it has none. -/
def Line.shown : Line → Int
  | .number n => n
  | _ => 1

/-- What the plain controls show of a placement: its start number and its span, at least one. An end
line by its number stands for the span up to it if that has 32 bits; without a span or such a line
it is one. -/
def Placement.shown (p : Placement) : SimplePlacement :=
  ⟨p.start.shown,
    match p.span, p.finish with
    | some k, _ => max k 1
    | none, some (.number e) => max ((checked32 (e - p.start.shown)).getD 1) 1
    | none, _ => 1⟩

/-- A line is shown as the plain reader takes it. -/
theorem Line.shown_orFallback (l : Line) : (l.orFallback 0).shown = SimplePlacement.startOf l := by
  cases l with
  | auto => rfl
  | named name => rfl
  | number n =>
    simp only [Line.orFallback, SimplePlacement.startOf, beq_self_eq_true, if_true]
    split <;> rfl

namespace Placement

/-- A span that is zero is shown like one that is not there. -/
theorem shown_nonzero? (start : Line) (k : Int) :
    shown ⟨start, nonzero? k, none⟩ = ⟨start.shown, max k 1⟩ := by
  unfold nonzero?
  split
  · rename_i hzero
    rw [eq_of_beq hzero]
    rfl
  · rfl

/-- The part behind the slash is shown as the plain reader takes it, if nothing else gives a
span. -/
theorem shown_withSecond (start : Line) (token : List Char) :
    shown (withSecond ⟨start, none, none⟩ token)
      = ⟨start.shown, SimplePlacement.spanOf start.shown token⟩ := by
  unfold withSecond SimplePlacement.spanOf
  cases hspan : spanOfChars? token with
  | some k => exact shown_nonzero? start k
  | none =>
    cases Line.ofChars token with
    | auto => rfl
    | named name => rfl
    | number e =>
      simp only [Line.orFallback, beq_self_eq_true, if_true]
      split <;> rfl

end Placement

/-- Without a span before the slash the plain reader takes what is shown of the placement. -/
theorem SimplePlacement.parse_eq_shown {value : String}
    (h : spanOfChars? (shorthandParts value).1 = none) :
    SimplePlacement.parse value = (Placement.parse value).shown := by
  unfold SimplePlacement.parse Placement.parse
  cases hparts : shorthandParts value with
  | mk first second =>
    rw [hparts] at h
    simp only [h, Placement.ofFirst, ← Line.shown_orFallback]
    cases second with
    | none => rfl
    | some token => exact (Placement.shown_withSecond _ token).symm

/-! ## A span before the slash -/

/-- The span that a part behind the slash asks for at line one, if it asks for any: a line that is
zero or left to the grid does not. -/
def spanFromOne? (token : List Char) : Option Int :=
  match spanOfChars? token, Line.ofChars token with
  | some k, _ => some (max k 1)
  | none, .auto => none
  | none, .number e => if e = 0 then none else some (max (e - 1) 1)
  | none, .named _ => some 1

/-- From line one to a line of 32 bits a difference that has more than 32 bits is below one
anyway. -/
theorem max_checked32_sub_one {e : Int} (h : fits32 e = true) :
    max ((checked32 (e - 1)).getD 1) 1 = max (e - 1) 1 := by
  unfold checked32
  split
  · rfl
  · rename_i hfits
    simp only [fits32, Bool.and_eq_true, decide_eq_true_eq] at h hfits
    rw [Option.getD_none]
    omega

/-- What a part behind the slash asks for is shown in the place of a span before it. -/
theorem Placement.shown_withSecond_span (k : Int) (token : List Char) :
    shown (withSecond ⟨.auto, nonzero? k, none⟩ token)
      = ⟨1, (spanFromOne? token).getD (max k 1)⟩ := by
  unfold withSecond spanFromOne?
  cases hspan : spanOfChars? token with
  | some j => exact shown_nonzero? .auto j
  | none =>
    cases hline : Line.ofChars token with
    | auto => exact shown_nonzero? .auto k
    | named name => rfl
    | number e =>
      simp only [Line.orFallback, beq_self_eq_true, if_true, beq_iff_eq]
      by_cases hzero : e = 0
      · rw [if_pos hzero, if_pos hzero]
        exact shown_nonzero? .auto k
      · rw [if_neg hzero, if_neg hzero]
        have hspan := max_checked32_sub_one (Line.fits32_of_ofChars hline)
        exact congrArg (SimplePlacement.mk 1) hspan

/-- A span before the slash is shown unless the part behind it asks for one. -/
theorem Placement.shown_parse_of_span {value : String} {k : Int}
    (h : spanOfChars? (shorthandParts value).1 = some k) :
    (Placement.parse value).shown
      = ⟨1, ((shorthandParts value).2.bind spanFromOne?).getD (max k 1)⟩ := by
  unfold Placement.parse Placement.ofFirst
  simp only [h]
  cases (shorthandParts value).2 with
  | none => exact shown_nonzero? .auto k
  | some token => exact shown_withSecond_span k token

/-- The plain reader stops behind a span before the slash. -/
theorem SimplePlacement.parse_of_span {value : String} {k : Int}
    (h : spanOfChars? (shorthandParts value).1 = some k) :
    SimplePlacement.parse value = ⟨1, max k 1⟩ := by
  unfold SimplePlacement.parse
  simp only [h]

/-- The plain reader always takes the start number that is shown of the placement. It takes all that
is shown exactly if no span stands before the slash, or the part behind the slash asks for no other
one. -/
theorem SimplePlacement.parse_eq_shown_iff (value : String) :
    (SimplePlacement.parse value).start = (Placement.parse value).shown.start ∧
    (SimplePlacement.parse value = (Placement.parse value).shown ↔
      ∀ k ∈ spanOfChars? (shorthandParts value).1, ∀ token ∈ (shorthandParts value).2,
        ∀ n ∈ spanFromOne? token, n = max k 1) := by
  cases hfirst : spanOfChars? (shorthandParts value).1 with
  | none => simp [parse_eq_shown hfirst]
  | some k =>
    rw [parse_of_span hfirst, Placement.shown_parse_of_span hfirst]
    refine ⟨rfl, ?_⟩
    cases (shorthandParts value).2 with
    | none => simp
    | some token => cases hasked : spanFromOne? token <;> simp [hasked, eq_comm]

/-- A span before the slash, and the line behind it at which it ends. -/
theorem SimplePlacement.parse_eq_shown_iff_same_end :
    (∀ k ∈ spanOfChars? (shorthandParts "span 2 / 3").1, ∀ token ∈ (shorthandParts "span 2 / 3").2,
      ∀ n ∈ spanFromOne? token, n = max k 1) ∧
    SimplePlacement.parse "span 2 / 3" = (Placement.parse "span 2 / 3").shown := by
  have hasked : ∀ k ∈ spanOfChars? (shorthandParts "span 2 / 3").1,
      ∀ token ∈ (shorthandParts "span 2 / 3").2, ∀ n ∈ spanFromOne? token, n = max k 1 := by
    decide
  exact ⟨hasked, (SimplePlacement.parse_eq_shown_iff "span 2 / 3").2.mpr hasked⟩

/-- Behind a span the plain reader takes neither an end line nor another span, which is all that the
placement has. -/
theorem SimplePlacement.parse_ne_shown :
    (SimplePlacement.parse "span 3 / 5" = ⟨1, 3⟩ ∧
      Placement.parse "span 3 / 5" = ⟨.auto, none, some (.number 5)⟩ ∧
      (Placement.parse "span 3 / 5").shown = ⟨1, 4⟩) ∧
    SimplePlacement.parse "span 3 / span 5" = ⟨1, 3⟩ ∧
      Placement.parse "span 3 / span 5" = ⟨.auto, some 5, none⟩ ∧
      (Placement.parse "span 3 / span 5").shown = ⟨1, 5⟩ := by
  decide

end ResponsiveStyle.Grid
