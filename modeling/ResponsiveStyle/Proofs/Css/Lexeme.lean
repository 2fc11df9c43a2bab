/-
# Lexemes in front of a delimiter

What stands in front of a semicolon may hide it: in a quoted text, in a comment, in an address,
behind a backslash, or within a block. A text without the characters that do so (`isActive`) hides
nothing: no way of counting how far a token reaches goes beyond the semicolon (`StaysInFront`), so
the lexemes of the text end where the text does, and none of them opens or closes a block
(`lexemes_append_semicolon`). A name in front of a colon is one lexeme (`lexemes_identifier`), and
so are blanks in front of anything else (`lexemes_of_isSpace`).
-/
import Mathlib.Data.List.TakeWhile
import ResponsiveStyle.Css.Lexeme
import ResponsiveStyle.Proofs.Text.Character
import ResponsiveStyle.Proofs.Text.Cut

namespace ResponsiveStyle.Css

/-! ## Plain texts -/

/-- The characters that quote, escape, begin a comment, open or close a block or end a
declaration. -/
def activeChars : List Char := "()[]\x7b\x7d\"'\\/;".toList

def isActive (c : Char) : Bool := activeChars.contains c

/-- A text without active characters. -/
def Plain (cs : List Char) : Prop := ∀ c ∈ cs, isActive c = false

instance (cs : List Char) : Decidable (Plain cs) :=
  List.decidableBAll (fun c => isActive c = false) cs

/-- The tokens that neither open or close a block nor end a declaration. -/
def Token.isInert : Token → Bool
  | .opens _ => false
  | .closes _ => false
  | .semicolon => false
  | _ => true

/-- An active character is not in a plain text. -/
theorem Plain.not_mem {cs : List Char} (h : Plain cs) {c : Char} (hc : isActive c = true) :
    c ∉ cs :=
  fun hmem => absurd (h c hmem) (by simp [hc])

theorem Plain.append {cs ds : List Char} (h : Plain cs) (h' : Plain ds) : Plain (cs ++ ds) :=
  List.forall_mem_append.mpr ⟨h, h'⟩

/-! ## How far tokens reach -/

/-- A count of characters that does not go beyond a semicolon behind a text without backslashes. -/
def StaysInFront (reach : List Char → Nat) : Prop :=
  ∀ cs rest, '\\' ∉ cs → reach (cs ++ ';' :: rest) ≤ cs.length

/-- Characters of a kind that semicolons are not of. -/
theorem length_takeWhile_append_le {p : Char → Bool} (hp : p ';' = false) (cs rest : List Char) :
    ((cs ++ ';' :: rest).takeWhile p).length ≤ cs.length := by
  induction cs with
  | nil => simp [hp]
  | cons c cs ih =>
    rw [List.cons_append, List.takeWhile_cons]
    split
    · simpa using ih
    · simp

/-- One count, and another one from where it ends. -/
theorem StaysInFront.followedBy {reach further : List Char → Nat} (h : StaysInFront reach)
    (h' : StaysInFront further) :
    StaysInFront fun cs => reach cs + further (cs.drop (reach cs)) := by
  intro cs rest hcs
  have hfirst := h cs rest hcs
  have hsecond := h' (cs.drop (reach (cs ++ ';' :: rest))) rest fun hmem =>
    hcs (List.mem_of_mem_drop hmem)
  rw [List.length_drop] at hsecond
  simp only [List.drop_append_of_le_length hfirst]
  omega

theorem staysInFront_digitsLength : StaysInFront digitsLength :=
  fun cs rest _ => length_takeWhile_append_le (by decide) cs rest

theorem staysInFront_fractionLength : StaysInFront fractionLength := by
  intro cs rest _
  cases cs with
  | nil => simp [fractionLength]
  | cons c cs =>
    have hdigits := length_takeWhile_append_le (p := Char.isDigit) (by decide) cs rest
    rw [List.cons_append, List.length_cons]
    unfold fractionLength
    split
    · rename_i heq
      obtain ⟨rfl, rfl⟩ := List.cons.inj heq
      by_cases hnone : digitsLength (cs ++ ';' :: rest) = 0
      · simp [hnone]
      · simp only [beq_iff_eq, hnone, if_false]
        unfold digitsLength
        omega
    · omega

theorem staysInFront_signLength : StaysInFront signLength := by
  intro cs rest _
  cases cs with
  | nil => simp [signLength]
  | cons c cs =>
    rw [List.cons_append, List.length_cons, signLength]
    split <;> omega

theorem staysInFront_powerLength : StaysInFront powerLength := by
  intro cs rest hcs
  cases cs with
  | nil => simp [powerLength]
  | cons c cs =>
    have hnumber := staysInFront_signLength.followedBy staysInFront_digitsLength cs rest fun hmem =>
      hcs (List.mem_cons_of_mem c hmem)
    rw [List.cons_append, List.length_cons]
    simp only [powerLength] at hnumber ⊢
    split <;> omega

theorem staysInFront_nameLength : StaysInFront nameLength := by
  intro cs rest hcs
  induction cs with
  | nil =>
    rw [List.nil_append, nameLength, if_neg (by decide), if_neg (by decide)]
    exact le_rfl
  | cons c cs ih =>
    obtain ⟨hc, hrest⟩ := not_or.mp (mt List.mem_cons.mpr hcs)
    rw [List.cons_append, nameLength, if_neg (by simpa using Ne.symm hc), List.length_cons]
    have hlength := ih hrest
    split <;> omega

theorem staysInFront_unitLength : StaysInFront unitLength := by
  intro cs rest hcs
  have hname := staysInFront_nameLength cs rest hcs
  unfold unitLength
  cases cs with
  | nil => simp [startsName, isNameStart]
  | cons c cs =>
    split
    · simp
    · split
      · exact hname
      · simp

/-- A number is a sign, digits, a fraction, a power of ten and a unit. -/
theorem staysInFront_numberLength : StaysInFront numberLength :=
  (((staysInFront_signLength.followedBy staysInFront_digitsLength).followedBy
    staysInFront_fractionLength).followedBy staysInFront_powerLength).followedBy
    staysInFront_unitLength

/-- A text without semicolons that is found in front of one. -/
theorem length_le_of_begins {word cs rest : List Char} (hword : ';' ∉ word)
    (h : begins word (cs ++ ';' :: rest) = true) : word.length ≤ cs.length := by
  obtain ⟨tail, htail⟩ := Option.isSome_iff_exists.mp h
  have heq := (Text.after?_eq_some_iff _ _ _).mp htail
  rcases List.append_eq_append_iff.mp heq with ⟨more, rfl, hmore⟩ | ⟨more, rfl, -⟩
  · -- the semicolon would be the first character of the word behind the text
    cases more with
    | nil => simp
    | cons c more =>
      obtain rfl := (List.cons.inj hmore).1
      exact absurd (by simp) hword
  · simp

/-! ## Lexemes -/

/-- A name without a parenthesis behind it is only that. -/
theorem scanName_eq_ident {cs : List Char} (h : (cs.drop (nameLength cs)).head? ≠ some '(') :
    scanName cs = (.ident, nameLength cs - 1) := by
  unfold scanName
  simp only
  split
  · rename_i heq
    exact absurd (by rw [heq]; rfl) h
  · rfl

/-- A name in a plain text is only that: no parenthesis behind it makes it a function. -/
theorem scanName_of_plain {cs : List Char} (h : Plain cs) (rest : List Char) :
    scanName (cs ++ ';' :: rest) = (.ident, nameLength (cs ++ ';' :: rest) - 1) := by
  apply scanName_eq_ident
  rw [List.drop_append_of_le_length (staysInFront_nameLength cs rest (h.not_mem (by decide)))]
  cases hdrop : cs.drop (nameLength (cs ++ ';' :: rest)) with
  | nil => simp
  | cons c more =>
    rw [List.cons_append, List.head?_cons]
    rintro ⟨⟩
    exact h.not_mem (c := '(') (by decide) (List.mem_of_mem_drop (hdrop ▸ List.mem_cons_self))

/-- A lexeme of a plain text does not go beyond a semicolon behind the text, and leaves all blocks
as they are. -/
theorem scan_of_plain {c : Char} {cs : List Char} (h : Plain (c :: cs)) (rest : List Char) :
    (scan c (cs ++ ';' :: rest)).1.isInert = true ∧
      (scan c (cs ++ ';' :: rest)).2 ≤ cs.length := by
  have hslash : '\\' ∉ c :: cs := h.not_mem (by decide)
  have hrest : '\\' ∉ cs := fun hmem => hslash (List.mem_cons_of_mem c hmem)
  have hc : isActive c = false := h c List.mem_cons_self
  have hname := staysInFront_nameLength cs rest hrest
  unfold scan
  split
  · exact ⟨rfl, length_takeWhile_append_le (by decide) cs rest⟩
  split
  · rename_i hquote
    rw [Bool.or_eq_true, beq_iff_eq, beq_iff_eq] at hquote
    rcases hquote with rfl | rfl
    · exact absurd hc (by decide)
    · exact absurd hc (by decide)
  split
  · have hnumber := staysInFront_numberLength (c :: cs) rest hslash
    rw [List.length_cons, List.cons_append] at hnumber
    exact ⟨rfl, by simp only; omega⟩
  split
  · rename_i hend
    exact ⟨rfl, length_le_of_begins (by decide) (Bool.and_eq_true_iff.mp hend).2⟩
  split
  · have hlong := staysInFront_nameLength (c :: cs) rest hslash
    rw [List.length_cons, List.cons_append] at hlong
    rw [← List.cons_append, scanName_of_plain h]
    exact ⟨rfl, by simp only [List.cons_append]; omega⟩
  -- what is left are single characters, active ones and others, the two that a name may follow, and
  -- the one that three more may follow
  split
  all_goals first
    | exact absurd hc (by decide)
    | exact ⟨rfl, Nat.zero_le _⟩
    | skip
  · split
    · exact ⟨rfl, hname⟩
    · exact ⟨rfl, Nat.zero_le _⟩
  · split
    · exact ⟨rfl, hname⟩
    · exact ⟨rfl, Nat.zero_le _⟩
  · split
    · rename_i hmark
      exact ⟨rfl, length_le_of_begins (by decide) hmark⟩
    · exact ⟨rfl, Nat.zero_le _⟩

/-- In front of a semicolon a plain text is cut into lexemes of its own, and none opens or closes a
block. -/
theorem lexemes_append_semicolon {cs : List Char} (h : Plain cs) (rest : List Char) :
    ∃ front, lexemes (cs ++ ';' :: rest) = front ++ ⟨.semicolon, [';']⟩ :: lexemes rest ∧
      (∀ l ∈ front, l.token.isInert = true) ∧ front.flatMap Lexeme.text = cs := by
  induction hlength : cs.length using Nat.strongRecOn generalizing cs with
  | _ n ih =>
    cases cs with
    | nil =>
      refine ⟨[], ?_, by simp, rfl⟩
      have hscan : scan ';' rest = (.semicolon, 0) := by
        simp [scan, startsNumber, startsName, signLength, digitsLength, fractionLength, isSpace,
          isNewline, isNameStart]
      rw [List.nil_append, lexemes_cons, hscan]
      rfl
    | cons c cs =>
      obtain ⟨hinert, hreach⟩ := scan_of_plain h rest
      generalize hscan : scan c (cs ++ ';' :: rest) = token at hinert hreach
      obtain ⟨front, hfront, hall, htext⟩ := ih (cs.drop token.2).length
        (by rw [List.length_drop]; rw [List.length_cons] at hlength; omega)
        (fun d hd => h d (List.mem_cons_of_mem c (List.mem_of_mem_drop hd))) rfl
      refine ⟨⟨token.1, c :: cs.take token.2⟩ :: front, ?_, ?_, ?_⟩
      · rw [List.cons_append, lexemes_cons, hscan, List.take_append_of_le_length hreach,
          List.drop_append_of_le_length hreach, hfront, List.cons_append]
      · rintro l (_ | ⟨_, hl⟩)
        · exact hinert
        · exact hall l hl
      · rw [List.flatMap_cons, htext, List.cons_append, List.take_append_drop]

/-! ## Names and blanks -/

/-- A name as it stands: it begins with a letter, and nothing in it is escaped or replaced. -/
structure IsIdentifier (cs : List Char) : Prop where
  letter : ∃ c, cs.head? = some c ∧ c.isAlpha = true
  isNameChar : ∀ c ∈ cs, isNameChar c = true
  null_not_mem : '\x00' ∉ cs

theorem ne_backslash_of_isNameChar {c : Char} (h : isNameChar c = true) : ¬(c == '\\') = true := by
  rintro hc
  obtain rfl := eq_of_beq hc
  exact absurd h (by decide)

/-- A name in front of a colon goes to the colon. -/
theorem nameLength_append_colon {cs : List Char} (h : ∀ c ∈ cs, isNameChar c = true)
    (rest : List Char) : nameLength (cs ++ ':' :: rest) = cs.length := by
  induction cs with
  | nil => rw [List.nil_append, nameLength, if_neg (by decide), if_neg (by decide), List.length_nil]
  | cons c cs ih =>
    have hc := h c List.mem_cons_self
    rw [List.cons_append, nameLength, if_neg (ne_backslash_of_isNameChar hc), if_pos hc,
      ih fun d hd => h d (List.mem_cons_of_mem c hd), List.length_cons, Nat.add_comm]

/-- Name characters other than the null character stand for themselves. -/
theorem unescaped_of_isNameChar {cs : List Char} (h : ∀ c ∈ cs, isNameChar c = true)
    (hnull : '\x00' ∉ cs) : unescaped cs = cs := by
  induction cs with
  | nil => rw [unescaped]
  | cons c cs ih =>
    obtain ⟨hc, hcs⟩ := not_or.mp (mt List.mem_cons.mpr hnull)
    rw [unescaped, if_neg (ne_backslash_of_isNameChar (h c List.mem_cons_self)),
      if_neg (by simpa using Ne.symm hc), ih (fun d hd => h d (List.mem_cons_of_mem c hd)) hcs]

theorem beq_eq_false_of_isAlpha {c d : Char} (hc : c.isAlpha = true) (hd : d.isAlpha = false) :
    (c == d) = false := by
  rw [beq_eq_false_iff_ne]
  rintro rfl
  exact absurd hc (by simp [hd])

/-- No number begins with a letter. -/
theorem startsNumber_of_isAlpha {c : Char} (hc : c.isAlpha = true) (cs : List Char) :
    startsNumber (c :: cs) = false := by
  have hdigit : c.isDigit = false := by
    rw [Text.isAlpha_iff, Text.isUpper_iff, Text.isLower_iff] at hc
    rw [Bool.eq_false_iff, ne_eq, Text.isDigit_iff]
    omega
  have hdot : c ≠ '.' := beq_eq_false_iff_ne.mp (beq_eq_false_of_isAlpha hc rfl)
  have hsign : signLength (c :: cs) = 0 := by
    simp [signLength, beq_eq_false_of_isAlpha hc (show '+'.isAlpha = false from rfl),
      beq_eq_false_of_isAlpha hc (show '-'.isAlpha = false from rfl)]
  simp [startsNumber, hsign, digitsLength, hdigit, fractionLength, hdot]

/-- A letter begins a name. -/
theorem startsName_of_isAlpha {c : Char} (hc : c.isAlpha = true) (cs : List Char) :
    startsName (c :: cs) = true := by
  have hhyphen : c ≠ '-' := beq_eq_false_iff_ne.mp (beq_eq_false_of_isAlpha hc rfl)
  have hslash : c ≠ '\\' := beq_eq_false_iff_ne.mp (beq_eq_false_of_isAlpha hc rfl)
  rw [startsName]
  · simp [isNameStart, hc]
  all_goals simp [hhyphen, hslash]

theorem scan_of_isAlpha {c : Char} (hc : c.isAlpha = true) (cs : List Char) :
    scan c cs = scanName (c :: cs) := by
  have hother {d : Char} (hd : d.isAlpha = false) := beq_eq_false_of_isAlpha hc hd
  have hspace : isSpace c = false := by
    simp only [isSpace, isNewline, Bool.or_eq_false_iff]
    exact ⟨⟨hother rfl, hother rfl⟩, ⟨hother rfl, hother rfl⟩, hother rfl⟩
  have hquote : (c == '"' || c == '\'') = false := by rw [hother rfl, hother rfl]; rfl
  have hhyphen : (c == '-') = false := hother rfl
  simp [scan, hspace, hquote, startsNumber_of_isAlpha hc, hhyphen, startsName_of_isAlpha hc]

theorem scan_colon (cs : List Char) : scan ':' cs = (.colon, 0) := by
  simp [scan, startsNumber, startsName, signLength, digitsLength, fractionLength, isSpace,
    isNewline, isNameStart]

/-- A name in front of a colon is one lexeme. -/
theorem lexemes_identifier {cs : List Char} (h : IsIdentifier cs) (rest : List Char) :
    lexemes (cs ++ ':' :: rest) = ⟨.ident, cs⟩ :: ⟨.colon, [':']⟩ :: lexemes rest := by
  have hreach := nameLength_append_colon h.isNameChar rest
  have hident : scanName (cs ++ ':' :: rest) = (.ident, cs.length - 1) := by
    rw [scanName_eq_ident, hreach]
    rw [hreach, List.drop_left]
    simp
  obtain ⟨c, hhead, hc⟩ := h.letter
  cases cs with
  | nil => exact absurd hhead (by simp)
  | cons d cs =>
    obtain rfl := Option.some.inj hhead
    rw [List.cons_append] at hident ⊢
    rw [lexemes_cons, scan_of_isAlpha hc, hident, List.length_cons, Nat.add_sub_cancel,
      List.take_left, List.drop_left, lexemes_cons, scan_colon]
    rfl

/-- Blanks are one lexeme as far as they go. -/
theorem lexemes_of_isSpace {c : Char} (hc : isSpace c = true) (cs : List Char) :
    lexemes (c :: cs) = ⟨.blank, c :: cs.takeWhile isSpace⟩ :: lexemes (cs.dropWhile isSpace) := by
  have hscan : scan c cs = (.blank, (cs.takeWhile isSpace).length) := by
    unfold scan
    rw [if_pos hc]
  have hparts : cs.takeWhile isSpace ++ cs.dropWhile isSpace = cs := List.takeWhile_append_dropWhile
  rw [lexemes_cons, hscan]
  generalize cs.takeWhile isSpace = blanks at hparts ⊢
  generalize cs.dropWhile isSpace = rest at hparts ⊢
  subst hparts
  rw [List.take_left, List.drop_left]

end ResponsiveStyle.Css
