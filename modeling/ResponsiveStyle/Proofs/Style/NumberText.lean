/-
# Texts of numbers

A written number consists of digits, a point, a minus and the letters of two words. So it has no
blanks, is never taken for an absent value and never ends with the mark of importance: it can stand
for the number as the text of a value.
-/
import ResponsiveStyle.Proofs.Style.Importance

namespace ResponsiveStyle.Style

open Text (trim isBlank digits digits_ne_nil isDigit_of_mem_digits trim_of_not_isBlank)
open Decimal (Scaled signed)

/-! ## The characters -/

/-- The characters of written numbers: those of decimals and those of `inf` and `NaN`. -/
def isNumberChar (c : Char) : Bool := c.isDigit || c ∈ ['-', '.', 'N', 'a', 'i', 'n', 'f']

/-- Digits are characters of numbers. -/
theorem isNumberChar_of_isDigit {c : Char} (h : c.isDigit = true) : isNumberChar c = true := by
  unfold isNumberChar
  rw [h, Bool.true_or]

/-- No character of a number is blank. -/
theorem not_isBlank_of_isNumberChar {c : Char} (h : isNumberChar c = true) :
    isBlank c = false := by
  unfold isNumberChar at h
  rw [Bool.or_eq_true] at h
  rcases h with hdigit | hmem
  · exact Text.isBlank_of_isDigit hdigit
  · have hall : ∀ c ∈ ['-', '.', 'N', 'a', 'i', 'n', 'f'], (!isBlank c) = true :=
      List.all_eq_true.mp (by decide)
    simpa using hall c (by simpa using hmem)

/-! ## Written numbers -/

/-- A number with all its places consists of characters of numbers. -/
theorem isNumberChar_of_mem_positional {s : Scaled} {c : Char} (h : c ∈ s.positional) :
    isNumberChar c = true := by
  have hdigits : ∀ c ∈ digits s.coefficient, isNumberChar c = true := fun c hc =>
    isNumberChar_of_isDigit (isDigit_of_mem_digits hc)
  unfold Scaled.positional at h
  simp only at h
  split at h
  · rcases List.mem_append.mp h with h | h
    · exact hdigits c h
    · rw [List.eq_of_mem_replicate h]; decide
  · split at h
    · rcases List.mem_append.mp h with h | h
      · exact hdigits c (List.mem_of_mem_take h)
      · rcases List.mem_cons.mp h with h | h
        · rw [h]; decide
        · exact hdigits c (List.mem_of_mem_drop h)
    · simp only [List.cons_append, List.mem_cons, List.mem_append] at h
      rcases h with h | h | h | h
      · rw [h]; decide
      · rw [h]; decide
      · rw [List.eq_of_mem_replicate h]; decide
      · exact hdigits c h

/-- A sign keeps a text made of characters of numbers. -/
theorem isNumberChar_of_mem_signed {negative : Bool} {cs : List Char} {c : Char}
    (hcs : ∀ c ∈ cs, isNumberChar c = true) (h : c ∈ signed negative cs) :
    isNumberChar c = true := by
  unfold signed at h
  split at h
  · rcases List.mem_cons.mp h with h | h
    · rw [h]; decide
    · exact hcs c h
  · exact hcs c h

/-- A written number consists of characters of numbers. -/
theorem isNumberChar_of_mem_numberChars {x : Float} {c : Char} (h : c ∈ numberChars x) :
    isNumberChar c = true := by
  unfold numberChars at h
  -- the cases are those of the text: not a number, infinite, zero, and all other numbers
  split at h
  · exact List.all_eq_true.mp (show "NaN".toList.all isNumberChar = true by decide) c h
  · exact isNumberChar_of_mem_signed (List.all_eq_true.mp (by decide)) h
  · exact List.all_eq_true.mp (show ['0'].all isNumberChar = true by decide) c h
  · exact isNumberChar_of_mem_signed (fun c => isNumberChar_of_mem_positional) h

/-- A written number is not empty. -/
theorem numberChars_ne_nil (x : Float) : numberChars x ≠ [] := by
  have hsigned : ∀ (negative : Bool) (cs : List Char), cs ≠ [] → signed negative cs ≠ [] := by
    intro negative cs h
    unfold signed
    split
    · simp
    · exact h
  unfold numberChars
  split
  · decide
  · exact hsigned _ _ (by decide)
  · decide
  · apply hsigned
    unfold Scaled.positional
    simp only
    split
    · simp [digits_ne_nil]
    · split <;> simp

/-! ## Written numbers as values -/

/-- A written number is trimmed. -/
theorem trim_numberChars (x : Float) : trim (numberChars x) = numberChars x :=
  trim_of_not_isBlank fun _ hc => not_isBlank_of_isNumberChar (isNumberChar_of_mem_numberChars hc)

/-- A written number is never an absent text: the words for absence have a letter that no number
has. -/
theorem isAbsentChars_numberChars (x : Float) : isAbsentChars (numberChars x) = false := by
  have hu : 'u' ∉ numberChars x := by
    intro h
    exact absurd (isNumberChar_of_mem_numberChars h) (by decide)
  unfold isAbsentChars
  rw [trim_numberChars]
  simp only [Bool.or_eq_false_iff, beq_eq_false_iff_ne, List.isEmpty_eq_false_iff]
  refine ⟨⟨numberChars_ne_nil x, ?_⟩, ?_⟩
  · intro h
    exact hu (h ▸ by decide)
  · intro h
    exact hu (h ▸ by decide)

/-- A written number has no mark of importance. -/
theorem splitImportance_numberChars (x : Float) :
    splitImportance (numberChars x) = (numberChars x, false) := by
  have hbang : '!' ∉ numberChars x := by
    intro h
    exact absurd (isNumberChar_of_mem_numberChars h) (by decide)
  rw [splitImportance_of_unmarked (snd_splitImportance_of_not_mem hbang), trim_numberChars]

end ResponsiveStyle.Style
