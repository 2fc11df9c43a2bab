/-
# Trimming

Trimming twice is trimming once (`trim_trim`), a text without any blank is trimmed
(`trim_of_not_isBlank`), and blanks behind a text are not seen (`trim_append_of_isBlank`).
-/
import Mathlib.Data.List.DropRight
import ResponsiveStyle.Text.Blank

namespace ResponsiveStyle.Text

/-! ## The two ends -/

/-- The blanks at the front of a text and what is left of it make up the text. -/
theorem takeWhile_append_trimStart (cs : List Char) :
    cs.takeWhile isBlank ++ trimStart cs = cs :=
  List.takeWhile_append_dropWhile

/-- A text that does not begin with a blank keeps its first character when its end is trimmed. -/
theorem trimEnd_cons_of_not_isBlank {c : Char} {cs : List Char} (h : isBlank c = false) :
    trimEnd (c :: cs) = c :: trimEnd cs := by
  unfold trimEnd
  rw [List.reverse_cons, List.dropWhile_append]
  by_cases hall : (cs.reverse.dropWhile isBlank).isEmpty
  · rw [if_pos hall]
    rw [List.isEmpty_iff] at hall
    simp [hall, h]
  · rw [if_neg hall, List.reverse_append]
    rfl

/-- A text is what is left of it when its end is trimmed, with blanks behind it. -/
theorem exists_trimEnd_append (cs : List Char) :
    ∃ back, (∀ c ∈ back, isBlank c = true) ∧ cs = trimEnd cs ++ back := by
  refine ⟨(cs.reverse.takeWhile isBlank).reverse, fun c hc => ?_, ?_⟩
  · exact List.mem_takeWhile_imp (List.mem_reverse.mp hc)
  · unfold trimEnd
    rw [← List.reverse_append, List.takeWhile_append_dropWhile, List.reverse_reverse]

/-- A text is what is left of it when it is trimmed, with blanks on both sides. -/
theorem exists_append_trim_append (cs : List Char) :
    ∃ front back, (∀ c ∈ front, isBlank c = true) ∧ (∀ c ∈ back, isBlank c = true) ∧
      cs = front ++ (trim cs ++ back) := by
  obtain ⟨back, hback, hend⟩ := exists_trimEnd_append (trimStart cs)
  refine ⟨cs.takeWhile isBlank, back, fun c hc => List.mem_takeWhile_imp hc, hback, ?_⟩
  show cs = cs.takeWhile isBlank ++ (trimEnd (trimStart cs) ++ back)
  rw [← hend, takeWhile_append_trimStart]

/-- Trimming makes no text longer. -/
theorem length_trim_le (cs : List Char) : (trim cs).length ≤ cs.length := by
  obtain ⟨front, back, -, -, hcs⟩ := exists_append_trim_append cs
  have hlength := congrArg List.length hcs
  rw [List.length_append, List.length_append] at hlength
  omega

/-- Nothing is left of a text of blanks only. -/
theorem trim_eq_nil_iff (cs : List Char) : trim cs = [] ↔ cs.all isBlank = true := by
  rw [List.all_eq_true]
  constructor
  · intro hnil
    obtain ⟨front, back, hfront, hback, hcs⟩ := exists_append_trim_append cs
    rw [hnil, List.nil_append] at hcs
    intro c hc
    rw [hcs] at hc
    rcases List.mem_append.mp hc with hc | hc
    · exact hfront c hc
    · exact hback c hc
  · intro hall
    unfold trim trimStart
    rw [List.dropWhile_eq_nil_iff.mpr hall]
    rfl

/-- No blank is left at the front. -/
theorem isBlank_of_trimStart_eq_cons {c : Char} {cs rest : List Char}
    (h : trimStart cs = c :: rest) : isBlank c = false := by
  have hhead := List.head?_dropWhile_not isBlank cs
  rw [show cs.dropWhile isBlank = c :: rest from h] at hhead
  simpa using hhead

/-- A trimmed text has no blanks at the front. -/
theorem trimStart_trim (cs : List Char) : trimStart (trim cs) = trim cs := by
  unfold trim
  cases h : trimStart cs with
  | nil => rfl
  | cons c rest =>
    have hc : isBlank c = false := isBlank_of_trimStart_eq_cons h
    rw [trimEnd_cons_of_not_isBlank hc]
    simp [trimStart, hc]

/-- A trimmed text has no blanks at the back. -/
theorem trimEnd_trim (cs : List Char) : trimEnd (trim cs) = trim cs :=
  List.rdropWhile_idempotent isBlank (trimStart cs)

/-- A text that begins with no blank still begins with none when it goes on. -/
theorem trimStart_append {cs : List Char} (h : trimStart cs = cs) (hne : cs ≠ [])
    (more : List Char) : trimStart (cs ++ more) = cs ++ more := by
  obtain ⟨c, rest, rfl⟩ := List.exists_cons_of_ne_nil hne
  have hc : isBlank c = false := isBlank_of_trimStart_eq_cons h
  simp [trimStart, hc]

/-- Trimming a trimmed text changes nothing. -/
theorem trim_trim (cs : List Char) : trim (trim cs) = trim cs := by
  show trimEnd (trimStart (trim cs)) = trim cs
  rw [trimStart_trim, trimEnd_trim]

/-- The end of a text is trimmed if it is no blank. -/
theorem trimEnd_eq_self_iff (cs : List Char) :
    trimEnd cs = cs ↔ ∀ c ∈ cs.getLast?, isBlank c = false := by
  refine List.rdropWhile_eq_self_iff.trans ⟨fun h c hc => ?_, fun h hne => ?_⟩
  · obtain ⟨front, rfl⟩ := List.getLast?_eq_some_iff.mp hc
    simpa using h (by simp)
  · simp [h _ (List.getLast?_eq_getLast_of_ne_nil hne)]

/-- The trimmed text read backwards: the blanks at its end come first and are dropped. -/
theorem reverse_trim (cs : List Char) :
    (trim cs).reverse = (trimStart cs).reverse.dropWhile isBlank := by
  unfold trim trimEnd
  rw [List.reverse_reverse]

/-- A text without blanks is trimmed. -/
theorem trim_of_not_isBlank {cs : List Char} (h : ∀ c ∈ cs, isBlank c = false) :
    trim cs = cs := by
  have hstart : trimStart cs = cs := by
    cases cs with
    | nil => rfl
    | cons c rest => simp [trimStart, h c List.mem_cons_self]
  have hend : trimEnd cs = cs := by
    apply List.rdropWhile_eq_self_iff.mpr
    intro hne
    simp [h _ (List.getLast_mem hne)]
  unfold trim
  rw [hstart, hend]

/-- A text is trimmed if it neither begins nor ends with a blank. -/
theorem trim_eq_self_iff (cs : List Char) :
    trim cs = cs ↔
      (∀ c ∈ cs.head?, isBlank c = false) ∧ ∀ c ∈ cs.getLast?, isBlank c = false := by
  constructor
  · intro h
    have hstart : trimStart cs = cs := by rw [← h, trimStart_trim]
    have hend : trimEnd cs = cs := by rw [← h, trimEnd_trim]
    refine ⟨fun c hc => ?_, (trimEnd_eq_self_iff cs).mp hend⟩
    obtain ⟨rest, rfl⟩ := List.head?_eq_some_iff.mp hc
    exact isBlank_of_trimStart_eq_cons hstart
  · rintro ⟨hhead, hlast⟩
    have hstart : trimStart cs = cs := by
      cases cs with
      | nil => rfl
      | cons c rest => simp [trimStart, hhead c rfl]
    unfold trim
    rw [hstart, (trimEnd_eq_self_iff cs).mpr hlast]

/-- Trimming adds no character. -/
theorem mem_of_mem_trim {cs : List Char} {c : Char} (h : c ∈ trim cs) : c ∈ cs := by
  unfold trim trimEnd at h
  have hstart : c ∈ trimStart cs :=
    List.mem_reverse.mp (List.dropWhile_subset isBlank (List.mem_reverse.mp h))
  exact List.dropWhile_subset isBlank hstart

/-- Trimming loses no character but blanks. -/
theorem count_trim {c : Char} (h : isBlank c = false) (cs : List Char) :
    (trim cs).count c = cs.count c := by
  -- a character that is not blank is not among the blanks that are dropped at an end
  have hdrop : ∀ ds : List Char, (ds.dropWhile isBlank).count c = ds.count c := by
    intro ds
    have htake : (ds.takeWhile isBlank).count c = 0 := by
      rw [List.count_eq_zero]
      intro hc
      have hblank : isBlank c = true := List.mem_takeWhile_imp hc
      exact absurd hblank (by simp [h])
    calc (ds.dropWhile isBlank).count c
        = (ds.takeWhile isBlank).count c + (ds.dropWhile isBlank).count c := by
          rw [htake, Nat.zero_add]
      _ = ds.count c := by rw [← List.count_append, List.takeWhile_append_dropWhile]
  unfold trim trimEnd trimStart
  rw [List.count_reverse, hdrop, List.count_reverse, hdrop]

/-- Blanks behind a text are trimmed away at its end. -/
theorem trimEnd_append_of_isBlank {cs bs : List Char} (h : ∀ b ∈ bs, isBlank b = true) :
    trimEnd (cs ++ bs) = trimEnd cs := by
  unfold trimEnd
  rw [List.reverse_append, List.dropWhile_append_of_pos fun b hb => h b (List.mem_reverse.mp hb)]

/-- Blanks behind a text are trimmed away. -/
theorem trim_append_of_isBlank {cs bs : List Char} (h : ∀ b ∈ bs, isBlank b = true) :
    trim (cs ++ bs) = trim cs := by
  unfold trim trimStart
  rw [List.dropWhile_append]
  split
  · rename_i hnil
    rw [List.isEmpty_iff] at hnil
    rw [hnil, List.dropWhile_eq_nil_iff.mpr h]
  · exact trimEnd_append_of_isBlank h

/-- Blanks in front of a text are trimmed away. -/
theorem trim_isBlank_append {bs : List Char} (h : ∀ b ∈ bs, isBlank b = true) (cs : List Char) :
    trim (bs ++ cs) = trim cs := by
  unfold trim trimStart
  rw [List.dropWhile_append_of_pos h]

/-! ## Texts of blanks -/

/-- What is trimmed away at the end does not tell a text of blanks from others. -/
theorem all_isBlank_trimEnd (cs : List Char) : (trimEnd cs).all isBlank = cs.all isBlank := by
  have hcut : (cs.reverse.takeWhile isBlank ++ cs.reverse.dropWhile isBlank).all isBlank
      = cs.reverse.all isBlank := by
    rw [List.takeWhile_append_dropWhile]
  rw [List.all_append, List.all_takeWhile, Bool.true_and, List.all_reverse] at hcut
  unfold trimEnd
  rw [List.all_reverse, hcut]

theorem isBlankText_trimmedEnd (s : String) : isBlankText (trimmedEnd s) = isBlankText s := by
  unfold isBlankText trimmedEnd
  rw [String.toList_ofList, all_isBlank_trimEnd]

end ResponsiveStyle.Text
