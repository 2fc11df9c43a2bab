/-
# Well-formed declarations

However a declaration is made, from what an author writes or from what a document holds, its
property has a name, its text is trimmed and present, its number is finite and not flagged, and an
unflagged text has no mark of importance at its end. The last condition is what lets a document fold
the flag into the text: a well-formed declaration is read back as it was (`ofJson?_toJson`). What an
author's value means (`Value.Means`) is what is declared, and no more (`ofInput?_eq_some_iff`).
-/
import ResponsiveStyle.Proofs.Style.NumberText
import ResponsiveStyle.Proofs.Style.Property
import ResponsiveStyle.Style.Edit
import ResponsiveStyle.Style.Shape

namespace ResponsiveStyle.Style

open Text (trim trimmed trim_trim)

/-! ## The conditions -/

/-- A text as a value: trimmed and present, and with no mark of importance unless it is flagged. -/
structure WellFormedText (important : Bool) (s : String) : Prop where
  trimmed : trimmed s = s
  present : isAbsent s = false
  unmarked : important = false → (splitImportance s.toList).2 = false

/-- A value that a declaration may keep; a number is finite and never flagged. -/
def Value.WellFormed (important : Bool) : Value → Prop
  | .text s => WellFormedText important s
  | .number x => x.isFinite = true ∧ important = false

/-- A declaration of a named property with a value that it may keep. -/
structure Declaration.WellFormed (d : Declaration) : Prop where
  named : isBlankName d.property = false
  value : d.value.WellFormed d.important

/-! ## Values -/

/-- The conditions on a text in terms of its characters. -/
theorem wellFormedText_ofList {important : Bool} {cs : List Char} (htrim : trim cs = cs)
    (hpresent : isAbsentChars cs = false)
    (hmark : important = false → (splitImportance cs).2 = false) :
    WellFormedText important (String.ofList cs) where
  trimmed := by
    unfold Text.trimmed
    rw [String.toList_ofList, htrim]
  present := by
    unfold isAbsent
    rw [String.toList_ofList, hpresent]
  unmarked := by
    rw [String.toList_ofList]
    exact hmark

/-- A text that may be kept has no blanks at its ends. -/
theorem WellFormedText.trim_toList {important : Bool} {s : String}
    (h : WellFormedText important s) : trim s.toList = s.toList := by
  rw [← toList_trimmed, h.trimmed]

/-- The text of a number may be kept. -/
theorem wellFormedText_display_number (important : Bool) (x : Float) :
    WellFormedText important (Value.number x).display :=
  wellFormedText_ofList (trim_numberChars x) (isAbsentChars_numberChars x)
    fun _ => by rw [splitImportance_numberChars]

/-- The displayed text of a value may be kept instead of the value. -/
theorem Value.WellFormed.display {important : Bool} {v : Value} (h : v.WellFormed important) :
    WellFormedText important v.display := by
  cases v with
  | number x => exact wellFormedText_display_number important x
  | text s => exact h

/-- Under the flag a text may be kept even with a mark at its end. -/
theorem WellFormedText.flagged {important : Bool} {s : String} (h : WellFormedText important s) :
    WellFormedText true s :=
  ⟨h.trimmed, h.present, fun hflag => absurd hflag (by simp)⟩

/-- A text without its mark makes a value that may be kept, be it a number or a text. -/
theorem wellFormed_textValue {bare important : Bool} {cs : List Char}
    (hbare : bare = true → important = false) (htrim : trim cs = cs)
    (hpresent : isAbsentChars cs = false)
    (hmark : important = false → (splitImportance cs).2 = false) :
    (Declaration.textValue bare cs).WellFormed important := by
  have htext : Value.WellFormed important (.text (String.ofList cs)) :=
    wellFormedText_ofList htrim hpresent hmark
  unfold Declaration.textValue
  split
  · rename_i hb
    split
    · split
      · rename_i hfinite
        exact ⟨hfinite, hbare hb⟩
      · exact htext
    · exact htext
  · exact htext

namespace Declaration

/-! ## Made from a text or a number -/

/-- The declaration of a text has the property it was made for, and is well-formed if that has a
name. -/
theorem of_ofText? {unitless : Bool} {property s : String} {d : Declaration}
    (hnamed : isBlankName property = false) (h : ofText? unitless property s = some d) :
    d.property = property ∧ d.WellFormed := by
  unfold ofText? at h
  simp only at h
  split at h
  · exact absurd h (by simp)
  · rename_i hpresent
    obtain rfl := Option.some.inj h
    -- only one mark comes off, so a text with two of them keeps one and is flagged
    refine ⟨rfl, hnamed, wellFormed_textValue ?_ (trim_fst_splitImportance s.toList)
      (by simpa using hpresent) ?_⟩
    · intro hbare
      simpa using (Bool.and_eq_true_iff.mp hbare).2
    · intro hmark
      rw [fst_splitImportance hmark, splitImportance_trim hmark]

/-- The declaration of a number has the property it was made for, and is well-formed if that has a
name. -/
theorem of_ofNumber? {unitless : Bool} {property : String} {x : Float} {d : Declaration}
    (hnamed : isBlankName property = false) (h : ofNumber? unitless property x = some d) :
    d.property = property ∧ d.WellFormed := by
  unfold ofNumber? at h
  split at h
  · exact absurd h (by simp)
  · rename_i hfinite
    obtain rfl := Option.some.inj h
    refine ⟨rfl, hnamed, ?_⟩
    cases unitless with
    | true => exact ⟨by simpa using hfinite, rfl⟩
    | false => exact wellFormedText_display_number false x

/-- What an author writes makes a well-formed declaration of the trimmed property. -/
theorem of_ofInput? {unitless : Bool} {property : String} {v : Value} {d : Declaration}
    (h : ofInput? unitless property v = some d) :
    d.property = trimmed property ∧ d.WellFormed := by
  unfold ofInput? at h
  split at h
  · exact absurd h (by simp)
  · rename_i hblank
    have hnamed : isBlankName (trimmed property) = false := by
      rw [isBlankName_trimmed]
      simpa using hblank
    cases v with
    | text s => exact of_ofText? hnamed h
    | number x => exact of_ofNumber? hnamed h

/-- The flag keeps a declaration well-formed, since a flagged number becomes a text. -/
theorem WellFormed.flagged {d : Declaration} (h : d.WellFormed) : d.flagged.WellFormed :=
  ⟨h.named, h.value.display.flagged⟩

/-! ## Absent values -/

end Declaration

/-- The values that are no value: a number that is not finite, and a text that is absent, alone or
in front of a mark of importance. -/
inductive Value.Absent : Value → Prop
  | number {x : Float} (infinite : x.isFinite = false) : Absent (.number x)
  | text {s : String} (absent : isAbsent s = true) : Absent (.text s)
  | marked {s : String} {body mark : List Char} (split : s.toList = body ++ mark)
      (mark : IsMark mark) (absent : isAbsentChars body = true) : Absent (.text s)

/-- The blanks around a text do not matter to whether it is absent. -/
theorem isAbsentChars_trim (cs : List Char) : isAbsentChars (trim cs) = isAbsentChars cs := by
  unfold isAbsentChars
  rw [trim_trim]

/-- An absent text has no mark: there is no exclamation mark in the words for absence. -/
theorem snd_splitImportance_of_absent {cs : List Char} (h : isAbsentChars cs = true) :
    (splitImportance cs).2 = false := by
  apply snd_splitImportance_of_not_mem
  intro hmem
  have hbang : '!' ∈ trim cs := by
    rwa [← List.count_pos_iff, Text.count_trim (by decide), List.count_pos_iff]
  simp only [isAbsentChars, Bool.or_eq_true, List.isEmpty_iff, beq_iff_eq] at h
  rcases h with (h | h) | h
  · rw [h] at hbang
    exact absurd hbang (by simp)
  · rw [h] at hbang
    exact absurd hbang (by decide)
  · rw [h] at hbang
    exact absurd hbang (by decide)

/-- What is left of a text without its mark is absent if the text is an absent value. -/
theorem isAbsentChars_fst_splitImportance_iff (s : String) :
    isAbsentChars (splitImportance s.toList).1 = true ↔ (Value.text s).Absent := by
  constructor
  · intro h
    cases hflag : (splitImportance s.toList).2 with
    | false =>
      rw [fst_splitImportance hflag, isAbsentChars_trim] at h
      exact .text h
    | true =>
      obtain ⟨body, mark, hs, hmark⟩ := (snd_splitImportance_iff _).mp hflag
      rw [hs, splitImportance_append_of_isMark hmark, isAbsentChars_trim] at h
      exact .marked hs hmark h
  · intro h
    cases h with
    | text habsent =>
      rw [fst_splitImportance (snd_splitImportance_of_absent habsent), isAbsentChars_trim]
      exact habsent
    | marked hs hmark habsent =>
      rw [hs, splitImportance_append_of_isMark hmark, isAbsentChars_trim]
      exact habsent

namespace Declaration

/-- A text makes no declaration if it is an absent value, and only then. -/
theorem ofText?_eq_none_iff (unitless : Bool) (property s : String) :
    ofText? unitless property s = none ↔ (Value.text s).Absent := by
  rw [← isAbsentChars_fst_splitImportance_iff]
  unfold ofText?
  by_cases habsent : isAbsentChars (splitImportance s.toList).1 = true <;> simp [habsent]

/-- An author's value makes no declaration if the property has no name or the value is absent, and
only then. -/
theorem ofInput?_eq_none_iff (unitless : Bool) (property : String) (v : Value) :
    ofInput? unitless property v = none ↔ isBlankName property = true ∨ v.Absent := by
  unfold ofInput?
  by_cases hblank : isBlankName property = true
  · simp [hblank]
  · rw [if_neg hblank]
    have hvalue : isBlankName property = true ∨ v.Absent ↔ v.Absent := or_iff_right hblank
    rw [hvalue]
    cases v with
    | text s => exact ofText?_eq_none_iff unitless (trimmed property) s
    | number x =>
      show ofNumber? unitless (trimmed property) x = none ↔ _
      unfold ofNumber?
      cases hfinite : x.isFinite with
      | true =>
        refine iff_of_false (by simp) ?_
        rintro ⟨hinfinite⟩
        exact absurd hinfinite (by simp [hfinite])
      | false => exact iff_of_true (by simp) (.number hfinite)

end Declaration

/-! ## What values mean -/

/-- What an author's value means for a property, and whether it is important: a finite number
itself, or its text if the property is not unitless; a present text without the blanks around it, or
the finite number that it writes if the property is unitless; and a text with a mark of importance
what stands in front of the mark. -/
inductive Value.Means (unitless : Bool) : Value → Value → Bool → Prop
  | bare {x : Float} (finite : x.isFinite = true) (meant : unitless = true) :
      Means unitless (.number x) (.number x) false
  | shown {x : Float} (finite : x.isFinite = true) (other : unitless = false) :
      Means unitless (.number x) (.text (Value.number x).display) false
  | numeral {s : String} {x : Float}
      (unmarked : ¬ ∃ body mark, s.toList = body ++ mark ∧ IsMark mark)
      (present : isAbsent s = false) (meant : unitless = true)
      (number : Decimal.float? (trim s.toList) = some x) (finite : x.isFinite = true) :
      Means unitless (.text s) (.number x) false
  | text {s : String} (unmarked : ¬ ∃ body mark, s.toList = body ++ mark ∧ IsMark mark)
      (present : isAbsent s = false)
      (other : unitless = true → ∀ x ∈ Decimal.float? (trim s.toList), x.isFinite = false) :
      Means unitless (.text s) (.text (trimmed s)) false
  | marked {s : String} {body mark : List Char} (split : s.toList = body ++ mark)
      (mark : IsMark mark) (present : isAbsentChars body = false) :
      Means unitless (.text s) (.text (String.ofList (trim body))) true

namespace Declaration

/-- A text makes the finite number that it writes where a number is meant, and else itself. -/
theorem eq_textValue_iff (bare : Bool) (cs : List Char) (v : Value) :
    v = textValue bare cs ↔
      (∃ x, v = .number x ∧ bare = true ∧ Decimal.float? cs = some x ∧ x.isFinite = true) ∨
      (v = .text (String.ofList cs) ∧
        (bare = true → ∀ x ∈ Decimal.float? cs, x.isFinite = false)) := by
  unfold textValue
  cases bare with
  | false => simp only [Bool.false_eq_true, if_false, false_and, and_false, exists_false, false_or,
      false_implies, and_true]
  | true =>
    cases hread : Decimal.float? cs with
    | none => simp
    | some x => cases hfinite : x.isFinite <;> simp [hfinite]

/-- Without a mark the trimmed text is declared, unless it is absent. -/
theorem ofText?_of_not_isMark (unitless : Bool) (property : String) {s : String}
    (h : ¬ ∃ body mark, s.toList = body ++ mark ∧ IsMark mark) :
    ofText? unitless property s
      = if isAbsent s = true then none
        else some ⟨property, textValue unitless (trim s.toList), false⟩ := by
  have hflag : (splitImportance s.toList).2 = false := by
    rwa [← snd_splitImportance_iff, Bool.not_eq_true] at h
  unfold ofText?
  rw [splitImportance_of_unmarked hflag]
  simp only [isAbsentChars_trim, Bool.not_false, Bool.and_true]
  rfl

/-- In front of a mark the trimmed text is declared with the flag, unless it is absent. -/
theorem ofText?_of_isMark (unitless : Bool) (property : String) {s : String}
    {body mark : List Char} (hs : s.toList = body ++ mark) (hmark : IsMark mark) :
    ofText? unitless property s
      = if isAbsentChars body = true then none
        else some ⟨property, .text (String.ofList (trim body)), true⟩ := by
  unfold ofText?
  rw [hs, splitImportance_append_of_isMark hmark]
  simp only [isAbsentChars_trim, Bool.not_true, Bool.and_false]
  rfl

/-- A text declares what it means. -/
theorem ofText?_eq_some_iff (unitless : Bool) (property s : String) (d : Declaration) :
    ofText? unitless property s = some d ↔
      d.property = property ∧ (Value.text s).Means unitless d.value d.important := by
  obtain ⟨p, value, important⟩ := d
  by_cases hmarked : ∃ body mark, s.toList = body ++ mark ∧ IsMark mark
  · obtain ⟨body, mark, hs, hmark⟩ := hmarked
    rw [ofText?_of_isMark unitless property hs hmark, Option.ite_none_left_eq_some,
      Bool.not_eq_true, Option.some_inj]
    constructor
    · rintro ⟨hpresent, hd⟩
      obtain ⟨rfl, rfl, rfl⟩ := Declaration.mk.inj hd
      exact ⟨rfl, .marked hs hmark hpresent⟩
    · rintro ⟨rfl, hmeans⟩
      have hsplit := splitImportance_append_of_isMark hmark body
      cases hmeans with
      | numeral hunmarked => exact absurd ⟨body, mark, hs, hmark⟩ hunmarked
      | text hunmarked => exact absurd ⟨body, mark, hs, hmark⟩ hunmarked
      | marked hs' hmark' hpresent =>
        -- a text is parted from its mark in one way only
        rw [← hs, hs', splitImportance_append_of_isMark hmark'] at hsplit
        have htrim := (Prod.mk.inj hsplit).1
        rw [← isAbsentChars_trim, htrim, isAbsentChars_trim] at hpresent
        exact ⟨hpresent, by rw [htrim]⟩
  · rw [ofText?_of_not_isMark unitless property hmarked, Option.ite_none_left_eq_some,
      Bool.not_eq_true, Option.some_inj]
    constructor
    · rintro ⟨hpresent, hd⟩
      obtain ⟨rfl, hvalue, rfl⟩ := Declaration.mk.inj hd
      refine ⟨rfl, ?_⟩
      rcases (eq_textValue_iff _ _ _).mp hvalue.symm with
        ⟨x, rfl, hmeant, hx, hfinite⟩ | ⟨rfl, hother⟩
      · exact .numeral hmarked hpresent hmeant hx hfinite
      · exact .text hmarked hpresent hother
    · rintro ⟨rfl, hmeans⟩
      cases hmeans with
      | numeral _ hpresent hmeant hx hfinite =>
        have hvalue := (eq_textValue_iff _ _ _).mpr (.inl ⟨_, rfl, hmeant, hx, hfinite⟩)
        exact ⟨hpresent, by rw [hvalue]⟩
      | text _ hpresent hother =>
        have hvalue := (eq_textValue_iff _ _ _).mpr (.inr ⟨rfl, hother⟩)
        exact ⟨hpresent, by rw [← hvalue, trimmed]⟩
      | marked hs hmark => exact absurd ⟨_, _, hs, hmark⟩ hmarked

/-- A number declares what it means. -/
theorem ofNumber?_eq_some_iff (unitless : Bool) (property : String) (x : Float) (d : Declaration) :
    ofNumber? unitless property x = some d ↔
      d.property = property ∧ (Value.number x).Means unitless d.value d.important := by
  obtain ⟨p, value, important⟩ := d
  unfold ofNumber?
  constructor
  · intro h
    rw [Option.ite_none_left_eq_some, Option.some_inj] at h
    obtain ⟨hfinite, hd⟩ := h
    obtain ⟨rfl, rfl, rfl⟩ := Declaration.mk.inj hd
    refine ⟨rfl, ?_⟩
    cases unitless with
    | true => exact .bare (by simpa using hfinite) rfl
    | false => exact .shown (by simpa using hfinite) rfl
  · rintro ⟨rfl, hmeans⟩
    cases hmeans with
    | bare hfinite hmeant => simp [hfinite, hmeant]
    | shown hfinite hother => simp [hfinite, hother]

/-- An author's value declares under a name what it means, and under the name without the blanks
around it. -/
theorem ofInput?_eq_some_iff (unitless : Bool) (property : String) (v : Value) (d : Declaration) :
    ofInput? unitless property v = some d ↔ isBlankName property = false ∧
      d.property = trimmed property ∧ v.Means unitless d.value d.important := by
  unfold ofInput?
  rw [Option.ite_none_left_eq_some, Bool.not_eq_true]
  cases v with
  | text s => rw [← ofText?_eq_some_iff]
  | number x => rw [← ofNumber?_eq_some_iff]

/-- A flag makes a declaration important and its value a text; without it nothing changes. -/
theorem map_flagged_eq_some_iff (declared : Option Declaration) (important : Bool)
    (d : Declaration) :
    (declared.map fun e => if important then e.flagged else e) = some d ↔
      ∃ e, declared = some e ∧ d.property = e.property ∧
        d.important = (important || e.important) ∧
        d.value = if important then .text e.value.display else e.value := by
  rw [Option.map_eq_some_iff]
  refine exists_congr fun e => and_congr_right fun _ => ?_
  constructor
  · rintro rfl
    cases important <;> exact ⟨rfl, rfl, rfl⟩
  · obtain ⟨property, value, marked⟩ := d
    rintro ⟨hproperty, himportant, hvalue⟩
    simp only at hproperty himportant hvalue
    rw [hproperty, himportant, hvalue]
    cases important <;> rfl

/-! ## Made from a document -/

/-- A document's value makes a well-formed declaration of the property as it is spelled. -/
theorem of_ofJson? {property : String} {j : Json} {d : Declaration}
    (h : ofJson? property j = some d) : d.property = property ∧ d.WellFormed := by
  unfold ofJson? at h
  split at h
  · exact absurd h (by simp)
  · rename_i hblank
    have hnamed : isBlankName property = false := by simpa using hblank
    split at h
    · exact of_ofText? hnamed h
    · split at h
      · split at h
        · rename_i hfinite
          obtain rfl := Option.some.inj h
          exact ⟨rfl, hnamed, hfinite, rfl⟩
        · exact absurd h (by simp)
      · exact absurd h (by simp)

/-- A document's text under a name makes the declaration of the text. -/
theorem ofJson?_text {property : String} (hnamed : isBlankName property = false) (s : String) :
    ofJson? property (.text s) = ofText? false property s := by
  unfold ofJson?
  rw [if_neg (by simp [hnamed])]

/-- An item of a list makes a well-formed declaration. -/
theorem wellFormed_ofItem? {item : Json} {d : Declaration} (h : ofItem? item = some d) :
    d.WellFormed := by
  unfold ofItem? at h
  simp only [Option.bind_eq_bind, Option.bind_eq_some_iff] at h
  obtain ⟨j, -, property, -, e, he, h⟩ := h
  have hwf : e.WellFormed := (of_ofJson? he).2
  split at h
  · obtain rfl := Option.some.inj h
    exact hwf.flagged
  · obtain rfl := Option.some.inj h
    exact hwf

/-! ## Documents give declarations back -/

/-- Without a mark a document's text is the value as it stands. -/
theorem ofText?_of_unmarked {property s : String} (h : WellFormedText false s) :
    ofText? false property s = some ⟨property, .text s, false⟩ := by
  have hsplit : splitImportance s.toList = (s.toList, false) := by
    have hsplit := splitImportance_trim (h.unmarked rfl)
    rwa [h.trim_toList] at hsplit
  have hpresent : isAbsentChars s.toList = false := h.present
  unfold ofText?
  rw [hsplit]
  simp [hpresent, textValue]

/-- A text with a mark behind it gives the text and the flag, and never a number. -/
theorem ofText?_withMark {unitless : Bool} {property s : String} (h : WellFormedText true s) :
    ofText? unitless property (withMark s) = some ⟨property, .text s, true⟩ := by
  have hsplit : splitImportance (withMark s).toList = (s.toList, true) := by
    unfold withMark
    rw [String.toList_append, splitImportance_append_mark, h.trim_toList]
  have hpresent : isAbsentChars s.toList = false := h.present
  unfold ofText?
  rw [hsplit]
  simp [hpresent, textValue]

/-- The text that a flagged declaration becomes in a document. -/
theorem toJson_of_important {d : Declaration} (h : d.important = true) :
    d.toJson = .text (withMark d.value.display) := by
  unfold toJson
  rw [if_pos h]

/-- A document gives a well-formed declaration back as it was. -/
theorem ofJson?_toJson {d : Declaration} (h : d.WellFormed) :
    ofJson? d.property d.toJson = some d := by
  obtain ⟨property, value, important⟩ := d
  obtain ⟨hnamed, hvalue⟩ := h
  cases value with
  | number x =>
    -- a number is never flagged, so it goes into the document as it is
    obtain ⟨hfinite, hflag⟩ := hvalue
    simp only at hflag
    subst hflag
    unfold ofJson?
    rw [if_neg (by simpa using hnamed)]
    simp [toJson, hfinite, Json.number?]
  | text s =>
    cases important with
    | true =>
      -- the text may end with a mark of its own: the outer one alone comes off again
      rw [toJson_of_important rfl]
      exact (ofJson?_text hnamed _).trans (ofText?_withMark hvalue)
    | false => exact (ofJson?_text hnamed s).trans (ofText?_of_unmarked hvalue)

end Declaration

/-! ## Made by an edit -/

/-- What an edit leaves behind is well-formed and has the key of the edited property. -/
theorem Edit.of_outcome? {c : Config} {e : Edit} {d : Declaration} (h : e.outcome? c = some d) :
    d.key = propertyKey e.property ∧ d.WellFormed := by
  have hkey : ∀ {p : String} {d : Declaration}, d.property = trimmed p →
      d.key = propertyKey p := by
    intro p d hd
    unfold Declaration.key
    rw [hd, propertyKey_trimmed]
  cases e with
  | set p v =>
    obtain ⟨hproperty, hwf⟩ := Declaration.of_ofInput? h
    exact ⟨hkey hproperty, hwf⟩
  | declare d₀ =>
    obtain ⟨e, he, rfl⟩ := Option.map_eq_some_iff.mp h
    obtain ⟨hproperty, hwf⟩ := Declaration.of_ofInput? he
    split
    · exact ⟨hkey hproperty, hwf.flagged⟩
    · exact ⟨hkey hproperty, hwf⟩
  | unset p => exact absurd h (by simp [outcome?])

end ResponsiveStyle.Style
