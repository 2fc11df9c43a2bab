/-
# Templates of axes are read again as they were

An axis is read again from the template that is written for it (`Axis.decode_template_decode`). A
plain repetition is written in the pattern by which it is recognised (`Axis.simple?_eq_some_iff`),
and any other text is kept. For a list of tracks the blanks between the tokens change, which neither
brings up a comma or a quote nor makes a plain repetition of the text: the pattern has no blank
outside of its brackets, so a list that is written in it is a single token.
-/
import ResponsiveStyle.Grid.Axis
import ResponsiveStyle.Proofs.Grid.Repetition

namespace ResponsiveStyle.Grid

open Text (trim isBlank isAsciiBlank isBlank_of_isAsciiBlank isBlank_of_isDigit trim_trim
  trim_eq_self_iff trim_isBlank_append after?_eq_some_iff after?_append ofDigits digits natText)

/-! ## The pattern of plain repetitions -/

/-- No digit is a blank. -/
theorem isAsciiBlank_of_isDigit {c : Char} (h : c.isDigit = true) : isAsciiBlank c = false := by
  rw [Bool.eq_false_iff]
  intro hblank
  have hboth := isBlank_of_isAsciiBlank hblank
  rw [isBlank_of_isDigit h] at hboth
  exact absurd hboth (by simp)

/-- No blank is a digit. -/
theorem isDigit_of_isAsciiBlank {c : Char} (h : isAsciiBlank c = true) : c.isDigit = false := by
  by_contra hdigit
  rw [isAsciiBlank_of_isDigit (by simpa using hdigit)] at h
  exact absurd h (by simp)

/-- The blanks in front of another character are skipped. -/
theorem skipBlanks_append_cons {blanks : List Char} (h : ∀ b ∈ blanks, isAsciiBlank b = true)
    {c : Char} (hc : isAsciiBlank c = false) (cs : List Char) :
    skipBlanks (blanks ++ c :: cs) = c :: cs := by
  unfold skipBlanks
  rw [List.dropWhile_append_of_pos h, List.dropWhile_cons_of_neg (by simp [hc])]

/-- The pattern of plain repetitions, `repeat(`, digits, a comma and a unit: blanks of ASCII may
stand around the digits and in front of the unit, and the unit goes up to the only closing
parenthesis, which is the end of the text. -/
def Repeats (cs digits unit : List Char) : Prop :=
  ∃ before between behind,
    cs = "repeat(".toList ++
      (before ++ (digits ++ (between ++ ',' :: (behind ++ (unit ++ [')']))))) ∧
    (∀ c ∈ before ++ between ++ behind, isAsciiBlank c = true) ∧
    digits ≠ [] ∧ (∀ c ∈ digits, c.isDigit = true) ∧ unit ≠ [] ∧ ')' ∉ unit

/-- What has the pattern of plain repetitions is a call of `repeat` around a counted unit. -/
theorem Repeats.exists_counted {cs digits unit : List Char} (h : Repeats cs digits unit) :
    ∃ inside, cs = "repeat".toList ++ '(' :: (inside ++ [')']) ∧ Counted inside digits unit := by
  obtain ⟨before, between, behind, hcs, hblank, hne, hdigits, -, -⟩ := h
  refine ⟨_, ?_, before, between, behind, rfl, hblank, hne, hdigits⟩
  rw [hcs]
  simp

/-- The unit in the pattern closes no parenthesis. -/
theorem Repeats.not_mem {cs digits unit : List Char} (h : Repeats cs digits unit) : ')' ∉ unit := by
  obtain ⟨-, -, -, -, -, -, -, -, hclose⟩ := h
  exact hclose

/-- A text that is recognised has the pattern, if its unit is not empty. -/
theorem repeats_of_repetition? {cs digits unit : List Char}
    (h : repetition? cs = some (digits, unit)) (hunit : unit ≠ []) : Repeats cs digits unit := by
  unfold repetition? at h
  obtain ⟨rest, hrest, h⟩ := Option.bind_eq_some_iff.mp h
  have hcs := (after?_eq_some_iff _ _ _).mp hrest
  simp only at h
  split at h
  · exact absurd h (by simp)
  · rename_i hne
    split at h
    · rename_i behind hcomma
      split at h
      · rename_i hclose
        obtain ⟨rfl, rfl⟩ := Prod.mk.inj (Option.some.inj h)
        have hbefore := List.takeWhile_append_dropWhile (p := isAsciiBlank) (l := rest)
        have hnumber := List.takeWhile_append_dropWhile (p := Char.isDigit)
          (l := skipBlanks rest)
        have hbetween := List.takeWhile_append_dropWhile (p := isAsciiBlank)
          (l := (skipBlanks rest).dropWhile Char.isDigit)
        have hbehind := List.takeWhile_append_dropWhile (p := (· != ')')) (l := behind)
        rw [show List.dropWhile isAsciiBlank _ = ',' :: behind from hcomma] at hbetween
        rw [eq_of_beq hclose] at hbehind
        refine ⟨rest.takeWhile isAsciiBlank,
          ((skipBlanks rest).dropWhile Char.isDigit).takeWhile isAsciiBlank, [], ?_, ?_, ?_, ?_,
          hunit, ?_⟩
        · rw [List.nil_append, hbehind, hbetween, hnumber, hcs]
          exact congrArg _ hbefore.symm
        · intro c hc
          rw [List.append_nil] at hc
          rcases List.mem_append.mp hc with hc | hc
          · exact List.mem_takeWhile_imp hc
          · exact List.mem_takeWhile_imp hc
        · simpa using hne
        · intro c hc
          exact List.mem_takeWhile_imp hc
        · intro hc
          exact absurd (List.mem_takeWhile_imp hc) (by simp)
      · exact absurd h (by simp)
    · exact absurd h (by simp)

/-- The text that is made of these pieces is parted into its digits and its unit. -/
theorem repetition?_append {before digits between unit : List Char}
    (hbefore : ∀ c ∈ before, isAsciiBlank c = true)
    (hbetween : ∀ c ∈ between, isAsciiBlank c = true) (hne : digits ≠ [])
    (hdigits : ∀ c ∈ digits, c.isDigit = true) (hunit : ')' ∉ unit) :
    repetition? ("repeat(".toList ++ (before ++ (digits ++ (between ++ ',' :: (unit ++ [')'])))))
      = some (digits, unit) := by
  -- the digits end where a blank or the comma stands
  have hstop : ∃ d ds, between ++ ',' :: (unit ++ [')']) = d :: ds ∧ d.isDigit = false := by
    cases between with
    | nil => exact ⟨',', _, rfl, by decide⟩
    | cons b bs =>
      exact ⟨b, _, rfl, isDigit_of_isAsciiBlank (hbetween b List.mem_cons_self)⟩
  obtain ⟨d, ds, htail, hd⟩ := hstop
  obtain ⟨first, others, rfl⟩ := List.exists_cons_of_ne_nil hne
  have hinside : skipBlanks (before ++ (first :: others ++ d :: ds)) = first :: others ++ d :: ds :=
    skipBlanks_append_cons hbefore (isAsciiBlank_of_isDigit (hdigits first List.mem_cons_self)) _
  have htake : (first :: others ++ d :: ds).takeWhile Char.isDigit = first :: others := by
    rw [List.takeWhile_append_of_pos hdigits, List.takeWhile_cons_of_neg (by simp [hd]),
      List.append_nil]
  have hdrop : (first :: others ++ d :: ds).dropWhile Char.isDigit = d :: ds := by
    rw [List.dropWhile_append_of_pos hdigits, List.dropWhile_cons_of_neg (by simp [hd])]
  have hcomma : skipBlanks (d :: ds) = ',' :: (unit ++ [')']) := by
    rw [← htail]
    exact skipBlanks_append_cons hbetween (by decide) _
  have hopen : ∀ c ∈ unit, (c != ')') = true := by
    intro c hc
    rw [bne_iff_ne]
    rintro rfl
    exact hunit hc
  have hclose : (unit ++ [')']).dropWhile (· != ')') = [')'] := by
    rw [List.dropWhile_append_of_pos hopen]
    rfl
  have hcut : (unit ++ [')']).takeWhile (· != ')') = unit := by
    rw [List.takeWhile_append_of_pos hopen]
    simp
  unfold repetition?
  rw [htail, after?_append]
  show (if ((skipBlanks (before ++ (first :: others ++ d :: ds))).takeWhile
    Char.isDigit).isEmpty then none else _) = _
  simp only [hinside, htake, hdrop, hcomma, hclose, hcut]
  rfl

/-- A text with the pattern is parted into its digits and its unit, with the blanks in front of the
unit. -/
theorem Repeats.repetition?_eq {cs digits unit : List Char} (h : Repeats cs digits unit) :
    ∃ behind, (∀ c ∈ behind, isAsciiBlank c = true) ∧
      repetition? cs = some (digits, behind ++ unit) := by
  obtain ⟨before, between, behind, hcs, hblank, hne, hdigits, -, hunit⟩ := h
  have hbefore : ∀ c ∈ before, isAsciiBlank c = true := fun c hc =>
    hblank c (List.mem_append_left behind (List.mem_append_left between hc))
  have hbetween : ∀ c ∈ between, isAsciiBlank c = true := fun c hc =>
    hblank c (List.mem_append_left behind (List.mem_append_right before hc))
  have hbehind : ∀ c ∈ behind, isAsciiBlank c = true := fun c hc =>
    hblank c (List.mem_append_right _ hc)
  have hclose : ')' ∉ behind ++ unit := by
    intro hmem
    rcases List.mem_append.mp hmem with hmem | hmem
    · exact absurd (hbehind _ hmem) (by decide)
    · exact hunit hmem
  refine ⟨behind, hbehind, ?_⟩
  rw [hcs, ← List.append_assoc behind]
  exact repetition?_append hbefore hbetween hne hdigits hclose

/-- A text is recognised as a plain repetition if it has the pattern, the count is at least one and
not too large, and the unit is not blank. -/
theorem Axis.simple?_eq_some_iff (cs : List Char) (axis : Axis) :
    Axis.simple? cs = some axis ↔
      ∃ digits unit, Repeats cs digits unit ∧ 0 < ofDigits digits ∧
        ofDigits digits ≤ maxRepeat ∧ trim unit ≠ [] ∧
        axis = .simple (ofDigits digits) (String.ofList (trim unit)) := by
  constructor
  · intro h
    obtain ⟨⟨digits, unit⟩, hrepetition, h⟩ := Option.bind_eq_some_iff.mp h
    simp only at h
    split at h
    · exact absurd h (by simp)
    · rename_i hkept
      simp only [Bool.or_eq_true, beq_iff_eq, decide_eq_true_eq, not_or, List.isEmpty_iff] at hkept
      obtain ⟨⟨hzero, hlarge⟩, hempty⟩ := hkept
      have hunit : unit ≠ [] := by
        rintro rfl
        exact hempty rfl
      exact ⟨digits, unit, repeats_of_repetition? hrepetition hunit, by omega, by omega, hempty,
        (Option.some.inj h).symm⟩
  · rintro ⟨digits, unit, hrepeats, hzero, hlarge, hempty, rfl⟩
    obtain ⟨behind, hbehind, hrepetition⟩ := hrepeats.repetition?_eq
    have htrim : trim (behind ++ unit) = trim unit :=
      trim_isBlank_append (fun c hc => isBlank_of_isAsciiBlank (hbehind c hc)) unit
    unfold Axis.simple?
    rw [hrepetition]
    show (if _ then none else some (Axis.simple _ (String.ofList (trim (behind ++ unit))))) = _
    rw [htrim, if_neg]
    simp [hempty]
    omega

/-! ## Plain repetitions -/

/-- A repetition of something, at least once, is written. -/
theorem repeatText?_eq_some {count : Nat} (hcount : 0 < count) {unit : String}
    (hunit : trim unit.toList ≠ []) :
    repeatText? count unit
      = some ("repeat(" ++ natText count ++ ", " ++ Text.trimmed unit ++ ")") := by
  have hzero : (count == 0) = false := by
    rw [beq_eq_false_iff_ne]
    omega
  have hempty : (Text.trimmed unit).isEmpty = false := by
    rw [Bool.eq_false_iff, ne_eq, String.isEmpty_iff, ← String.toList_inj]
    unfold Text.trimmed
    rwa [String.toList_ofList]
  unfold repeatText?
  simp only [hzero, hempty, Bool.or_false, Bool.false_eq_true, if_false]

/-- The blanks around the unit are not written. -/
theorem Axis.template_trimmed (count : Nat) (unit : String) :
    (Axis.simple count (Text.trimmed unit)).template = (Axis.simple count unit).template := by
  have htwice : Text.trimmed (Text.trimmed unit) = Text.trimmed unit := by
    unfold Text.trimmed
    rw [String.toList_ofList, trim_trim]
  have hrepeat : repeatText? count (Text.trimmed unit) = repeatText? count unit := by
    unfold repeatText?
    rw [htwice]
  exact congrArg (fun text : Option String => text.getD "") hrepeat

/-- What is written is the template of a plain repetition. -/
theorem repeatText?_eq_template {count : Nat} (hcount : 0 < count) {unit : String}
    (hunit : trim unit.toList ≠ []) :
    repeatText? count unit = some (Axis.simple count unit).template := by
  have htemplate : (Axis.simple count unit).template = (repeatText? count unit).getD "" := rfl
  rw [htemplate, repeatText?_eq_some hcount hunit, Option.getD_some]

/-- The template of a plain repetition. -/
theorem Axis.toList_template_simple {count : Nat} (hcount : 0 < count) {unit : String}
    (hunit : trim unit.toList ≠ []) :
    (Axis.simple count unit).template.toList
      = "repeat(".toList ++ (digits count ++ (", ".toList ++ (trim unit.toList ++ [')']))) := by
  unfold Axis.template
  simp only [repeatText?_eq_some hcount hunit, Option.getD_some]
  unfold natText Text.trimmed
  simp only [String.toList_append, String.toList_ofList, List.append_assoc]
  rfl

/-- A plain repetition is read again from its template. -/
theorem Axis.decode_template_simple {count : Nat} {unit : List Char} (hcount : 0 < count)
    (hlarge : count ≤ maxRepeat) (hne : trim unit ≠ []) (hclose : ')' ∉ unit) :
    Axis.decode (Axis.simple count (String.ofList (trim unit))).template
      = .simple count (String.ofList (trim unit)) := by
  have hunit : trim (String.ofList (trim unit)).toList = trim unit := by
    rw [String.toList_ofList, trim_trim]
  have hne' : trim (String.ofList (trim unit)).toList ≠ [] := by rwa [hunit]
  have htext := Axis.toList_template_simple hcount hne'
  rw [hunit] at htext
  have htrim : trim (Axis.simple count (String.ofList (trim unit))).template.toList
      = (Axis.simple count (String.ofList (trim unit))).template.toList := by
    rw [htext, trim_eq_self_iff]
    constructor
    · intro c hc
      obtain rfl := Option.some.inj hc
      decide
    · intro c hc
      simp only [← List.append_assoc, List.getLast?_concat] at hc
      obtain rfl := Option.some.inj hc
      decide
  have hsimple : Axis.simple? (Axis.simple count (String.ofList (trim unit))).template.toList
      = some (.simple count (String.ofList (trim unit))) := by
    rw [Axis.simple?_eq_some_iff]
    refine ⟨digits count, trim unit, ⟨[], [], [' '], ?_, ?_, Text.digits_ne_nil count, ?_, hne, ?_⟩,
      ?_, ?_, ?_, ?_⟩
    · rw [htext]
      rfl
    · exact List.all_eq_true.mp (by decide)
    · intro c hc
      exact Text.isDigit_of_mem_digits hc
    · exact fun hmem => hclose (Text.mem_of_mem_trim hmem)
    · rwa [Text.ofDigits_digits]
    · rwa [Text.ofDigits_digits]
    · rwa [trim_trim]
    · rw [Text.ofDigits_digits, trim_trim]
  unfold Axis.decode
  simp only [htrim, hsimple, Option.some_or, Option.getD_some]

/-! ## Lists of tracks -/

/-- The template of a list of tracks. -/
theorem Axis.toList_template_tracks (tokens : List (List Char)) :
    (Axis.tracks (tokens.map String.ofList)).template.toList = List.intercalate [' '] tokens := by
  have hlists : (tokens.map String.ofList).map String.toList = tokens := by
    rw [List.map_map]
    simp [Function.comp_def, String.toList_ofList]
  unfold Axis.template Text.joined
  rw [String.toList_ofList, hlists]
  rfl

/-- A list of tracks is made of the tokens of the text. -/
theorem Axis.of_tracks? {cs : List Char} {axis : Axis} (h : Axis.tracks? cs = some axis) :
    ∃ tokens, splitTracks? cs = some tokens ∧ axis = .tracks (tokens.map String.ofList) := by
  unfold Axis.tracks? at h
  split at h
  · exact absurd h (by simp)
  · obtain ⟨tokens, htokens, rfl⟩ := Option.map_eq_some_iff.mp h
    exact ⟨tokens, htokens, rfl⟩

/-- A text in the pattern of plain repetitions is a single token, if it is a list of tracks. -/
theorem Repeats.eq_singleton {cs digits unit : List Char} (h : Repeats cs digits unit)
    {tokens : List (List Char)} (htokens : splitTracks? cs = some tokens) : tokens = [cs] := by
  obtain ⟨inside, rfl, hcounted⟩ := h.exists_counted
  -- behind the opening parenthesis the only closing one is the end of the text
  have hclose : ')' ∉ inside := fun hmem => h.not_mem (hcounted.mem_iff.mp hmem)
  have hbalanced : Balanced inside := by
    rw [← balanced_call_iff (fun c hc => (plain_repeat hc).2.2) hclose, ← isSome_splitTracks?_iff,
      htokens]
    rfl
  rw [(isToken_repeat hbalanced).splitTracks?_eq] at htokens
  exact (Option.some.inj htokens).symm

/-- A list of tracks is read again from its template. -/
theorem Axis.decode_template_tracks {cs : List Char} {axis : Axis} (htrim : trim cs = cs)
    (hsimple : Axis.simple? cs = none) (htracks : Axis.tracks? cs = some axis) :
    Axis.decode axis.template = axis := by
  unfold Axis.tracks? at htracks
  split at htracks
  · exact absurd htracks (by simp)
  · rename_i hplain
    obtain ⟨tokens, htokens, rfl⟩ := Option.map_eq_some_iff.mp htracks
    have htext := Axis.toList_template_tracks tokens
    have hall : ∀ t ∈ tokens, IsToken t := fun t ht => isToken_of_splitTracks? htokens ht
    have hagain : splitTracks? (List.intercalate [' '] tokens) = some tokens :=
      splitTracks?_intercalate hall
    have hmem : ∀ c, isBlank c = false →
        (List.intercalate [' '] tokens).contains c = cs.contains c := by
      intro c hc
      rw [Bool.eq_iff_iff, List.contains_iff_mem, List.contains_iff_mem, mem_splitTracks? hagain hc,
        mem_splitTracks? htokens hc]
    have houtside : hasOutside ',' 0 (List.intercalate [' '] tokens) = hasOutside ',' 0 cs := by
      rw [hasOutside_splitTracks? hagain (by decide), hasOutside_splitTracks? htokens (by decide)]
    have hsimple' : Axis.simple? (List.intercalate [' '] tokens) = none := by
      by_contra hsome
      obtain ⟨axis, haxis⟩ := Option.ne_none_iff_exists'.mp hsome
      obtain ⟨digits, unit, hrepeats, -⟩ := (Axis.simple?_eq_some_iff _ _).mp haxis
      -- a list in the pattern is a single token, so it is the text itself
      have hsingle := hrepeats.eq_singleton hagain
      rw [hsingle] at htokens
      have hcs := eq_of_splitTracks?_singleton htrim htokens
      rw [← hcs, hsimple] at hsome
      exact hsome rfl
    have htracks' : Axis.tracks? (List.intercalate [' '] tokens)
        = some (.tracks (tokens.map String.ofList)) := by
      unfold Axis.tracks?
      rw [hmem '"' (by decide), hmem '\'' (by decide), houtside, if_neg hplain, hagain]
      rfl
    unfold Axis.decode
    simp only [htext, trim_intercalate hall, hsimple', htracks', Option.none_or, Option.getD_some]

/-! ## All templates -/

/-- The axis of a template is a plain repetition, else a list of tracks, else the text itself. -/
theorem Axis.decode_cases (text : String) :
    (∃ axis, Axis.simple? (trim text.toList) = some axis ∧ Axis.decode text = axis) ∨
      Axis.simple? (trim text.toList) = none ∧
        ((∃ axis, Axis.tracks? (trim text.toList) = some axis ∧ Axis.decode text = axis) ∨
          Axis.decode text = .raw text) := by
  have hdecode : Axis.decode text = ((Axis.simple? (trim text.toList)).or
      (Axis.tracks? (trim text.toList))).getD (.raw text) := rfl
  rw [hdecode]
  cases Axis.simple? (trim text.toList) with
  | some axis => exact .inl ⟨axis, rfl, rfl⟩
  | none =>
    cases Axis.tracks? (trim text.toList) with
    | some axis => exact .inr ⟨rfl, .inl ⟨axis, rfl, rfl⟩⟩
    | none => exact .inr ⟨rfl, .inr rfl⟩

/-- A list of tracks is no plain repetition. -/
theorem Axis.exists_tokens_of_tracks? {cs : List Char} {axis : Axis}
    (h : Axis.tracks? cs = some axis) : ∃ tokens, axis = .tracks tokens := by
  obtain ⟨tokens, -, haxis⟩ := Axis.of_tracks? h
  exact ⟨tokens.map String.ofList, haxis⟩

/-- For every text, reading its axis, writing the template and reading that again gives the same
axis; the template of an axis that is kept as it is is the text itself; and an axis is a plain
repetition if the trimmed text has the pattern, with a count of at least one that is not too large
and a unit that is not blank. -/
theorem Axis.decode_template_decode (text : String) :
    Axis.decode (Axis.decode text).template = Axis.decode text ∧
      ((Axis.decode text).isRaw = true → (Axis.decode text).template = text) ∧
      ∀ count unit, Axis.decode text = .simple count unit ↔
        ∃ digits chars, Repeats (trim text.toList) digits chars ∧ 0 < ofDigits digits ∧
          ofDigits digits ≤ maxRepeat ∧ trim chars ≠ [] ∧
          count = ofDigits digits ∧ unit = String.ofList (trim chars) := by
  have hpattern : ∀ count unit, Axis.simple? (trim text.toList) = some (.simple count unit) ↔
      ∃ digits chars, Repeats (trim text.toList) digits chars ∧ 0 < ofDigits digits ∧
        ofDigits digits ≤ maxRepeat ∧ trim chars ≠ [] ∧
        count = ofDigits digits ∧ unit = String.ofList (trim chars) := by
    intro count unit
    rw [Axis.simple?_eq_some_iff]
    simp only [Axis.simple.injEq]
  rcases Axis.decode_cases text with ⟨axis, hsimple, hdecode⟩ | ⟨hsimple, h⟩
  · obtain ⟨digits, chars, hrepeats, hcount, hlarge, hne, rfl⟩ :=
      (Axis.simple?_eq_some_iff _ _).mp hsimple
    obtain ⟨before, between, behind, -, -, -, -, -, hclose⟩ := hrepeats
    rw [hdecode]
    refine ⟨Axis.decode_template_simple hcount hlarge hne hclose, ?_, ?_⟩
    · intro hraw
      exact absurd hraw (by simp [Axis.isRaw])
    · intro count unit
      rw [← hpattern, hsimple, Option.some_inj]
  · have hnone : ∀ count unit, ¬ Axis.simple? (trim text.toList) = some (.simple count unit) := by
      intro count unit
      rw [hsimple]
      simp
    rcases h with ⟨axis, htracks, hdecode⟩ | hdecode
    · obtain ⟨tokens, rfl⟩ := Axis.exists_tokens_of_tracks? htracks
      rw [hdecode]
      refine ⟨Axis.decode_template_tracks (trim_trim _) hsimple htracks, ?_, ?_⟩
      · intro hraw
        exact absurd hraw (by simp [Axis.isRaw])
      · intro count unit
        rw [← hpattern]
        simp [hnone]
    · rw [hdecode]
      refine ⟨hdecode, fun _ => rfl, ?_⟩
      intro count unit
      rw [← hpattern]
      simp [hnone]

/-- A text with an open parenthesis is kept with its blanks. -/
theorem Axis.decode_template_decode_unbalanced :
    (Axis.decode " minmax(1px, 2px ").isRaw = true ∧
      (Axis.decode " minmax(1px, 2px ").template = " minmax(1px, 2px " :=
  ⟨by decide, (Axis.decode_template_decode " minmax(1px, 2px ").2.1 (by decide)⟩

end ResponsiveStyle.Grid
