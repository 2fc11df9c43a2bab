/-
# Kinds of characters

Blanks, digits and letters of ASCII are apart, as their places in the table show. Only capital
letters change with their case, and what they change to is a small letter and no blank.
-/
import ResponsiveStyle.Text.Blank

namespace ResponsiveStyle.Text

/-! ## Places in the table -/

/-- The place of a capital letter. -/
theorem isUpper_iff (c : Char) : c.isUpper = true ↔ 65 ≤ c.toNat ∧ c.toNat ≤ 90 :=
  decide_eq_true_iff

/-- The place of a small letter. -/
theorem isLower_iff (c : Char) : c.isLower = true ↔ 97 ≤ c.toNat ∧ c.toNat ≤ 122 :=
  Bool.and_eq_true_iff.trans (and_congr decide_eq_true_iff decide_eq_true_iff)

/-- A letter is a capital or a small one. -/
theorem isAlpha_iff (c : Char) : c.isAlpha = true ↔ c.isUpper = true ∨ c.isLower = true :=
  Bool.or_eq_true_iff

theorem isAlpha_of_isLower {c : Char} (h : c.isLower = true) : c.isAlpha = true :=
  (isAlpha_iff c).mpr (.inr h)

/-- The place of a digit. -/
theorem isDigit_iff (c : Char) : c.isDigit = true ↔ 48 ≤ c.toNat ∧ c.toNat ≤ 57 := by
  simp only [Char.isDigit, Bool.and_eq_true, decide_eq_true_eq, ge_iff_le]
  rfl

/-- The places of the blanks leave out those of all other characters of ASCII. -/
theorem toNat_of_isBlank {c : Char} (h : isBlank c = true) : c.toNat ≤ 32 ∨ 133 ≤ c.toNat := by
  simp only [isBlank, blankRanges, List.any_cons, List.any_nil, Bool.or_false, Bool.or_eq_true,
    Bool.and_eq_true, decide_eq_true_eq] at h
  omega

/-- The place of a small letter is that of the capital one and 32. -/
theorem toNat_toLower_of_isUpper {c : Char} (h : c.isUpper = true) :
    c.toLower.toNat = c.toNat + 32 := by
  have hrange : c.val ≥ 'A'.val ∧ c.val ≤ 'Z'.val := of_decide_eq_true h
  have hval : c.val.toNat ≤ 90 := hrange.2
  unfold Char.toLower
  rw [dif_pos hrange]
  show (c.val + 32).toNat = c.val.toNat + 32
  rw [UInt32.toNat_add, Nat.mod_eq_of_lt]
  · rfl
  · show c.val.toNat + 32 < 2 ^ 32
    omega

/-- The place of a capital letter is that of the small one without 32. -/
theorem toNat_toUpper_of_isLower {c : Char} (h : c.isLower = true) :
    c.toUpper.toNat = c.toNat - 32 := by
  obtain ⟨hlow, hhigh⟩ := (isLower_iff c).mp h
  have hrange : c.val ≥ 'a'.val ∧ c.val ≤ 'z'.val := ⟨hlow, hhigh⟩
  have hval : 97 ≤ c.val.toNat ∧ c.val.toNat ≤ 122 := hrange
  unfold Char.toUpper
  rw [dif_pos hrange]
  show (c.val + ('A'.val - 'a'.val)).toNat = c.val.toNat - 32
  -- what is added is 32 below zero, so the sum goes past the largest number
  rw [UInt32.toNat_add, show ('A'.val - 'a'.val).toNat = 2 ^ 32 - 32 from rfl]
  omega

/-! ## Blanks -/

/-- No digit is a blank. -/
theorem isBlank_of_isDigit {c : Char} (h : c.isDigit = true) : isBlank c = false := by
  obtain ⟨hlow, hhigh⟩ := (isDigit_iff c).mp h
  rw [Bool.eq_false_iff]
  intro hblank
  have hplace := toNat_of_isBlank hblank
  omega

/-- No letter is a blank. -/
theorem isBlank_of_isAlpha {c : Char} (h : c.isAlpha = true) : isBlank c = false := by
  rw [isAlpha_iff, isUpper_iff, isLower_iff] at h
  rw [Bool.eq_false_iff]
  intro hblank
  have hplace := toNat_of_isBlank hblank
  omega

/-- No small letter is a blank. -/
theorem isBlank_toLower_of_isUpper {c : Char} (h : c.isUpper = true) :
    isBlank c.toLower = false := by
  obtain ⟨hlow, hhigh⟩ := (isUpper_iff c).mp h
  rw [Bool.eq_false_iff]
  intro hblank
  have hplace := toNat_of_isBlank hblank
  rw [toNat_toLower_of_isUpper h] at hplace
  omega

/-! ## Case -/

/-- Only capital letters change. -/
theorem toLower_of_not_isUpper {c : Char} (h : c.isUpper = false) : c.toLower = c := by
  have hnot : ¬ (c.val ≥ 'A'.val ∧ c.val ≤ 'Z'.val) := of_decide_eq_false h
  unfold Char.toLower
  rw [dif_neg hnot]

/-- A small letter becomes a capital one. -/
theorem isUpper_toUpper_of_isLower {c : Char} (h : c.isLower = true) :
    c.toUpper.isUpper = true := by
  obtain ⟨hlow, hhigh⟩ := (isLower_iff c).mp h
  rw [isUpper_iff, toNat_toUpper_of_isLower h]
  omega

theorem isAlpha_toUpper_of_isLower {c : Char} (h : c.isLower = true) : c.toUpper.isAlpha = true :=
  (isAlpha_iff _).mpr (.inl (isUpper_toUpper_of_isLower h))

/-- The capital letter of a small one becomes the small one again. -/
theorem toLower_toUpper_of_isLower {c : Char} (h : c.isLower = true) : c.toUpper.toLower = c := by
  obtain ⟨hlow, hhigh⟩ := (isLower_iff c).mp h
  apply Char.toNat_inj.mp
  rw [toNat_toLower_of_isUpper (isUpper_toUpper_of_isLower h), toNat_toUpper_of_isLower h]
  omega

/-- Blanks have no case. -/
theorem toLower_of_isBlank {c : Char} (h : isBlank c = true) : c.toLower = c := by
  apply toLower_of_not_isUpper
  rw [Bool.eq_false_iff, ne_eq, isUpper_iff]
  have hplace := toNat_of_isBlank h
  omega

/-- Case does not tell blanks from other characters. -/
theorem isBlank_toLower (c : Char) : isBlank c.toLower = isBlank c := by
  cases hupper : c.isUpper with
  | false => rw [toLower_of_not_isUpper hupper]
  | true =>
    rw [isBlank_toLower_of_isUpper hupper, isBlank_of_isAlpha ((isAlpha_iff c).mpr (.inl hupper))]

/-- What is no letter in small letters is no capital letter. -/
theorem eq_of_toLower_eq {c d : Char} (hd : d.isLower = false) (h : c.toLower = d) : c = d := by
  cases hupper : c.isUpper with
  | false => rw [← h, toLower_of_not_isUpper hupper]
  | true =>
    obtain ⟨hlow, hhigh⟩ := (isUpper_iff c).mp hupper
    have hplace := toNat_toLower_of_isUpper hupper
    have hlower : c.toLower.isLower = true := (isLower_iff _).mpr ⟨by omega, by omega⟩
    rw [h, hd] at hlower
    exact absurd hlower (by simp)

/-- Digits have no case. -/
theorem toLower_of_isDigit {c : Char} (h : c.isDigit = true) : c.toLower = c := by
  apply toLower_of_not_isUpper
  rw [Bool.eq_false_iff, ne_eq, isUpper_iff]
  obtain ⟨hlow, hhigh⟩ := (isDigit_iff c).mp h
  omega

/-- A text with a character that has no case is no word without this character, in any case. -/
theorem sameIgnoringCase_eq_false_of_mem {c : Char} (hc : c.toLower = c) {word cs : List Char}
    (hword : c ∉ lower word) (hmem : c ∈ cs) : sameIgnoringCase word cs = false := by
  unfold sameIgnoringCase
  rw [beq_eq_false_iff_ne]
  intro heq
  rw [heq] at hword
  exact hword (List.mem_map.mpr ⟨c, hmem, hc⟩)

end ResponsiveStyle.Text
