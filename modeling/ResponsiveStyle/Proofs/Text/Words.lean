/-
# Words

The words of a text are not empty and have no blanks (`of_mem_words`), and together they are the
text without its blanks (`flatten_words`). Texts of this kind with single blanks between them are
their own words (`words_intercalate`).
-/
import Mathlib.Data.List.Flatten
import ResponsiveStyle.Proofs.Text.Trim

namespace ResponsiveStyle.Text

/-! ## Reading on -/

/-- At the end of a text the word at hand is the last one, if it has begun. -/
theorem wordsFrom_nil (current : List Char) :
    wordsFrom current [] = if current.isEmpty then [] else [current] := by
  unfold wordsFrom
  rfl

/-- A blank ends the word at hand like the end of a text. -/
theorem wordsFrom_cons_of_isBlank {c : Char} (hc : isBlank c = true) (current cs : List Char) :
    wordsFrom current (c :: cs) = wordsFrom current [] ++ wordsFrom [] cs := by
  rw [wordsFrom_nil, wordsFrom, if_pos hc]
  split
  · rfl
  · rfl

/-- Characters that are not blank go on with the word at hand. -/
theorem wordsFrom_append {w : List Char} (h : ∀ c ∈ w, isBlank c = false) (current cs : List Char) :
    wordsFrom current (w ++ cs) = wordsFrom (current ++ w) cs := by
  induction w generalizing current with
  | nil => rw [List.nil_append, List.append_nil]
  | cons c w ih =>
    have hc : isBlank c = false := h c List.mem_cons_self
    rw [List.cons_append, wordsFrom, if_neg (by simp [hc]),
      ih fun d hd => h d (List.mem_cons_of_mem c hd), List.append_assoc, List.singleton_append]

/-! ## What words are -/

/-- A word is not empty and has no blanks. -/
structure IsWord (w : List Char) : Prop where
  nonempty : w ≠ []
  solid : ∀ c ∈ w, isBlank c = false

/-- The words that are read behind the beginning of one. -/
theorem of_mem_wordsFrom {current cs : List Char} (h : ∀ c ∈ current, isBlank c = false)
    {w : List Char} (hw : w ∈ wordsFrom current cs) : IsWord w := by
  have hlast : ∀ {current : List Char}, (∀ c ∈ current, isBlank c = false) →
      ∀ {w : List Char}, w ∈ wordsFrom current [] → IsWord w := by
    intro current h w hw
    rw [wordsFrom_nil] at hw
    split at hw
    · exact absurd hw List.not_mem_nil
    · rename_i hne
      rw [List.mem_singleton.mp hw]
      exact ⟨by simpa using hne, h⟩
  induction cs generalizing current with
  | nil => exact hlast h hw
  | cons c cs ih =>
    cases hc : isBlank c with
    | true =>
      rw [wordsFrom_cons_of_isBlank hc] at hw
      rcases List.mem_append.mp hw with hw | hw
      · exact hlast h hw
      · exact ih (by simp) hw
    | false =>
      have hone : ∀ d ∈ [c], isBlank d = false := by simp [hc]
      rw [← List.singleton_append, wordsFrom_append hone] at hw
      refine ih ?_ hw
      intro d hd
      rcases List.mem_append.mp hd with hd | hd
      · exact h d hd
      · exact hone d hd

/-- The words of a text are words. -/
theorem of_mem_words {cs w : List Char} (h : w ∈ words cs) : IsWord w :=
  of_mem_wordsFrom (by simp) h

/-- What is read behind the beginning of a word is that and the rest of the text without blanks. -/
theorem flatten_wordsFrom (current cs : List Char) :
    (wordsFrom current cs).flatten = current ++ cs.filter fun c => !isBlank c := by
  have hlast : ∀ current : List Char, (wordsFrom current []).flatten = current := by
    intro current
    rw [wordsFrom_nil]
    split
    · rename_i hnil
      exact (List.isEmpty_iff.mp hnil).symm
    · exact List.append_nil current
  induction cs generalizing current with
  | nil => rw [hlast, List.filter_nil, List.append_nil]
  | cons c cs ih =>
    cases hc : isBlank c with
    | true =>
      rw [wordsFrom_cons_of_isBlank hc, List.flatten_append, hlast, ih]
      simp [hc]
    | false =>
      rw [← List.singleton_append, wordsFrom_append (by simp [hc]), ih]
      simp [hc]

/-- The words of a text are together the text without its blanks. -/
theorem flatten_words (cs : List Char) : (words cs).flatten = cs.filter fun c => !isBlank c :=
  flatten_wordsFrom [] cs

/-! ## Words that were joined -/

/-- A word alone is read as it is. -/
theorem IsWord.words_eq {w : List Char} (h : IsWord w) : words w = [w] := by
  have hread := wordsFrom_append h.solid [] []
  rw [List.append_nil, List.nil_append, wordsFrom_nil,
    if_neg (by simpa using h.nonempty)] at hread
  exact hread

/-- A word in front of a blank is read, and then the words behind it. -/
theorem IsWord.words_append_cons {w : List Char} (h : IsWord w) {b : Char}
    (hb : isBlank b = true) (cs : List Char) : words (w ++ b :: cs) = w :: words cs := by
  have halone : wordsFrom w [] = [w] := by
    rw [wordsFrom_nil, if_neg (by simpa using h.nonempty)]
  unfold words
  rw [wordsFrom_append h.solid, wordsFrom_cons_of_isBlank hb, List.nil_append, halone]
  rfl

/-- Words with single blanks between them are read as they were. -/
theorem words_intercalate {ws : List (List Char)} (h : ∀ w ∈ ws, IsWord w) :
    words (List.intercalate [' '] ws) = ws := by
  induction ws with
  | nil => rfl
  | cons w ws ih =>
    have hw : IsWord w := h w List.mem_cons_self
    cases ws with
    | nil =>
      rw [List.intercalate_singleton]
      exact hw.words_eq
    | cons next ws =>
      rw [List.intercalate_cons_cons, List.append_assoc, List.singleton_append,
        hw.words_append_cons (by decide), ih fun v hv => h v (List.mem_cons_of_mem w hv)]

end ResponsiveStyle.Text
