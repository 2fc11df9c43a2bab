/-
# Lines are read again as they were

A token of a shorthand has no blanks at its ends and no slash. The lines that are read from such
tokens are the proper ones (`Line.proper_ofChars`): they are read again from their texts
(`Line.Proper.ofChars_text`), which no one takes for a span, and no zero is left to be replaced.
-/
import ResponsiveStyle.Grid.Line
import ResponsiveStyle.Proofs.Text.Numeral

namespace ResponsiveStyle.Grid

open Text (trim sameIgnoringCase int32? fits32 intText signedDigits)

namespace Line

/-- A line that a shorthand can hold: one that is left to the grid, a number other than zero, or a
name. A name is a token that is none of these and no span. -/
inductive Proper : Line → Prop
  | auto : Proper .auto
  | number {n : Int} (fits : fits32 n = true) (nonzero : n ≠ 0) : Proper (.number n)
  | named {token : List Char} (trimmed : trim token = token) (slash : '/' ∉ token)
      (present : token ≠ []) (word : sameIgnoringCase "auto".toList token = false)
      (number : int32? token = none) (span : spanOfChars? token = none) :
      Proper (.named (String.ofList token))

/-! ## Reading a token -/

/-- A number of 32 bits makes a proper line when zero is left to the grid. -/
theorem proper_orFallback_number {n : Int} (h : fits32 n = true) :
    ((number n).orFallback 0).Proper := by
  by_cases hzero : n = 0
  · subst hzero
    exact .auto
  · unfold orFallback
    simp only [beq_iff_eq, hzero, if_false]
    exact .number h hzero

/-- A token that is no span makes a proper line when zero is left to the grid. -/
theorem proper_ofChars {token : List Char} (htrim : trim token = token) (hslash : '/' ∉ token)
    (hspan : spanOfChars? token = none) : ((ofChars token).orFallback 0).Proper := by
  unfold ofChars
  split
  · exact .auto
  · rename_i hauto
    simp only [Bool.or_eq_true, not_or, Bool.not_eq_true, List.isEmpty_eq_false_iff] at hauto
    split
    · rename_i n hnumber
      exact proper_orFallback_number (Text.fits32_of_int32? hnumber)
    · rename_i hnumber
      exact .named htrim hslash hauto.1 hauto.2 hnumber hspan

/-- A line that is read by its number has a number of 32 bits. -/
theorem fits32_of_ofChars {token : List Char} {n : Int} (h : ofChars token = .number n) :
    fits32 n = true := by
  unfold ofChars at h
  split at h
  · exact absurd h (by simp)
  · split at h
    · rename_i k hnumber
      obtain rfl := Line.number.inj h
      exact Text.fits32_of_int32? hnumber
    · exact absurd h (by simp)

/-! ## Written lines -/

/-- A proper line is no zero to be replaced. -/
theorem Proper.orFallback {l : Line} (h : l.Proper) (fallback : Int) :
    l.orFallback fallback = l := by
  cases h with
  | auto => rfl
  | number fits nonzero => simp [Line.orFallback, nonzero]
  | named => rfl

/-- The text of a line by its number. -/
theorem toList_text_number (n : Int) : (number n).text.toList = signedDigits n :=
  String.toList_ofList

/-- The text of a line by its name. -/
theorem toList_text_named (token : List Char) : (named (String.ofList token)).text.toList = token :=
  String.toList_ofList

/-- A written line is trimmed. -/
theorem Proper.trim_text {l : Line} (h : l.Proper) : trim l.text.toList = l.text.toList := by
  cases h with
  | auto => decide
  | @number n => rw [toList_text_number, Text.trim_signedDigits]
  | named trimmed => rwa [toList_text_named]

/-- A written line has no slash. -/
theorem Proper.slash_not_mem_text {l : Line} (h : l.Proper) : '/' ∉ l.text.toList := by
  cases h with
  | auto => decide
  | @number n =>
    rw [toList_text_number]
    exact Text.slash_not_mem_signedDigits n
  | named _ slash => rwa [toList_text_named]

/-- A written line is no span. -/
theorem Proper.spanOfChars?_text {l : Line} (h : l.Proper) :
    spanOfChars? l.text.toList = none := by
  cases h with
  | auto => decide
  | @number n =>
    obtain ⟨c, cs, hcs, hc⟩ := Text.exists_cons_signedDigits n
    have hword : sameIgnoringCase "span".toList (c :: cs.take 3) = false :=
      Text.sameIgnoringCase_cons_eq_false (by decide) hc _ _
    unfold spanOfChars?
    rw [toList_text_number, hcs, List.take_succ_cons, hword]
    rfl
  | named _ _ _ _ _ span => rwa [toList_text_named]

/-- A proper line is read again from its text. -/
theorem Proper.ofChars_text {l : Line} (h : l.Proper) : ofChars l.text.toList = l := by
  cases h with
  | auto => rfl
  | @number n fits =>
    obtain ⟨c, cs, hcs, hc⟩ := Text.exists_cons_signedDigits n
    have hword : sameIgnoringCase "auto".toList (signedDigits n) = false := by
      rw [hcs]
      exact Text.sameIgnoringCase_cons_eq_false (by decide) hc _ _
    unfold ofChars
    rw [toList_text_number, hword, Text.int32?_signedDigits fits]
    simp [hcs]
  | named _ _ present word number =>
    unfold ofChars
    rw [toList_text_named, word, number]
    simp [present]

end Line

/-! ## Spans -/

/-- A span that is read has 32 bits. -/
theorem fits32_of_spanOfChars? {token : List Char} {k : Int} (h : spanOfChars? token = some k) :
    fits32 k = true := by
  unfold spanOfChars? at h
  split at h
  · exact Text.fits32_of_int32? h
  · exact absurd h (by simp)

/-- The text of a span. -/
theorem toList_span (k : Int) :
    ("span " ++ intText k).toList = "span ".toList ++ signedDigits k := by
  rw [String.toList_append]
  exact congrArg ("span ".toList ++ ·) String.toList_ofList

/-- A written span has no slash. -/
theorem slash_not_mem_span (k : Int) : '/' ∉ ("span " ++ intText k).toList := by
  rw [toList_span, List.mem_append, not_or]
  exact ⟨by decide, Text.slash_not_mem_signedDigits k⟩

/-- A written span is trimmed. -/
theorem trim_span (k : Int) :
    trim ("span " ++ intText k).toList = ("span " ++ intText k).toList := by
  obtain ⟨c, cs, hcs, -⟩ := Text.exists_cons_signedDigits k
  rw [toList_span, Text.trim_eq_self_iff]
  constructor
  · intro c hc
    obtain rfl := Option.some.inj hc
    decide
  · intro c hc
    rw [List.getLast?_append_of_ne_nil _ (by simp [hcs])] at hc
    exact Text.isBlank_of_mem_signedDigits (List.mem_of_getLast? hc)

/-- A span of 32 bits is read again from its text. -/
theorem spanOfChars?_span {k : Int} (h : fits32 k = true) :
    spanOfChars? ("span " ++ intText k).toList = some k := by
  have htrim : trim ([' '] ++ signedDigits k) = signedDigits k := by
    rw [Text.trim_isBlank_append (List.all_eq_true.mp (by decide)), Text.trim_signedDigits]
  unfold spanOfChars?
  rw [toList_span]
  show (if sameIgnoringCase "span".toList "span".toList
    then int32? (trim ([' '] ++ signedDigits k)) else none) = some k
  rw [if_pos (by decide), htrim, Text.int32?_signedDigits h]

end ResponsiveStyle.Grid
