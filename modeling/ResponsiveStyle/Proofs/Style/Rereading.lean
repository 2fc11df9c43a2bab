/-
# Texts that are read twice

An editor that sets a property reads the text once. A block of inline declarations is read into
declarations first, and these are then written like any value, so that the text of a value is read
twice. The second reading finds the text without its mark of importance. If the first one found no
mark, both agree; if it did, the second one may take a further mark off, or may take what is left
for a number and spell it in its own way. The texts that it changes are the unsettled ones
(`Unsettled`), and at these, and only there, the two ways of writing part
(`Record.call_set_eq_call_ofItem_iff`).
-/
import ResponsiveStyle.Proofs.Style.Bucket
import ResponsiveStyle.Proofs.Style.Interleaving
import ResponsiveStyle.Style.Inline

namespace ResponsiveStyle.Style

open Text (trim trimmed trim_trim)

/-! ## Unsettled texts -/

/-- A text that reading it again as a flagged value changes: it still has a mark of importance at
its end, or it is a finite number of a unitless property and is not spelled as that number is. -/
inductive Unsettled (unitless : Bool) : List Char → Prop
  | marked {body mark : List Char} (h : IsMark mark) : Unsettled unitless (body ++ mark)
  | number {cs : List Char} {x : Float} (bare : unitless = true)
      (read : Decimal.float? cs = some x) (finite : x.isFinite = true)
      (respelled : numberChars x ≠ cs) : Unsettled unitless cs

/-- The two kinds of unsettled texts, in terms of what reading them finds. -/
theorem unsettled_iff (unitless : Bool) (cs : List Char) :
    Unsettled unitless cs ↔ (splitImportance cs).2 = true ∨
      unitless = true ∧ ∃ x ∈ Decimal.float? cs, x.isFinite = true ∧ numberChars x ≠ cs := by
  constructor
  · rintro (⟨hmark⟩ | ⟨hbare, hread, hfinite, hrespelled⟩)
    · exact .inl ((snd_splitImportance_iff _).mpr ⟨_, _, rfl, hmark⟩)
    · exact .inr ⟨hbare, _, hread, hfinite, hrespelled⟩
  · rintro (hflag | ⟨hbare, x, hread, hfinite, hrespelled⟩)
    · obtain ⟨body, mark, rfl, hmark⟩ := (snd_splitImportance_iff cs).mp hflag
      exact .marked hmark
    · exact .number hbare hread hfinite hrespelled

instance (unitless : Bool) (cs : List Char) : Decidable (Unsettled unitless cs) :=
  decidable_of_iff _ (unsettled_iff unitless cs).symm

/-- An absent text is settled. -/
theorem not_unsettled_of_absent {unitless : Bool} {cs : List Char} (htrim : trim cs = cs)
    (h : isAbsentChars cs = true) : ¬Unsettled unitless cs := by
  rw [unsettled_iff, not_or]
  refine ⟨by simp [snd_splitImportance_of_absent h], ?_⟩
  rintro ⟨-, x, hread, -, -⟩
  -- none of the words for absence is a number
  have hnone : Decimal.float? cs = none := by
    simp only [isAbsentChars, htrim, Bool.or_eq_true, List.isEmpty_iff, beq_iff_eq] at h
    rcases h with (rfl | rfl) | rfl <;> decide
  rw [hnone] at hread
  exact absurd hread (by simp)

/-- A text with a mark behind it is another text when it is read. -/
theorem trim_ne_append_of_isMark {mark : List Char} (h : IsMark mark) (body : List Char) :
    trim body ≠ body ++ mark := by
  intro heq
  have hcount := congrArg (List.count '!') heq
  rw [Text.count_trim (by decide), List.count_append] at hcount
  have hpos := List.count_pos_iff.mpr h.bang_mem
  omega

/-! ## The second reading -/

namespace Declaration

/-- A present text makes a declaration of what is left of it without its mark. -/
theorem ofText?_of_present {unitless : Bool} {property s : String}
    (h : isAbsentChars (splitImportance s.toList).1 = false) :
    ofText? unitless property s = some ⟨property,
      textValue (unitless && !(splitImportance s.toList).2) (splitImportance s.toList).1,
      (splitImportance s.toList).2⟩ := by
  unfold ofText?
  simp [h]

/-- A text without a mark makes the same declaration when it is trimmed. -/
theorem ofText?_trimmed (unitless : Bool) (property : String) {s : String}
    (h : (splitImportance s.toList).2 = false) :
    ofText? unitless property (trimmed s) = ofText? unitless property s := by
  unfold ofText?
  rw [toList_trimmed, splitImportance_trim h, splitImportance_of_unmarked h]

/-- A value displays the text it was read from, unless that is another spelling of a number. -/
theorem display_textValue_eq_iff (bare : Bool) (cs : List Char) :
    (textValue bare cs).display = String.ofList cs
      ↔ ¬(bare = true ∧ ∃ x ∈ Decimal.float? cs, x.isFinite = true ∧ numberChars x ≠ cs) := by
  unfold textValue
  cases bare with
  | false => simp [Value.display]
  | true =>
    cases hread : Decimal.float? cs with
    | none => simp [Value.display]
    | some x =>
      cases hfinite : x.isFinite with
      | false => simp [hfinite, Value.display]
      | true => simp [hfinite, Value.display, String.ofList_inj]

/-- Reading a trimmed text again under the flag gives it back, unless it is unsettled. -/
theorem map_flagged_ofText?_eq_iff (unitless : Bool) (property : String) {cs : List Char}
    (htrim : trim cs = cs) (hpresent : isAbsentChars cs = false) :
    (ofText? unitless property (String.ofList cs)).map flagged
        = some ⟨property, .text (String.ofList cs), true⟩ ↔ ¬Unsettled unitless cs := by
  cases hflag : (splitImportance cs).2 with
  | true =>
    -- one more mark comes off, and what is left is a shorter text or none
    obtain ⟨body, mark, rfl, hmark⟩ := (snd_splitImportance_iff cs).mp hflag
    refine iff_of_false ?_ (not_not_intro (.marked hmark))
    have hsplit : splitImportance (body ++ mark) = (trim body, true) :=
      splitImportance_append_of_isMark hmark body
    cases habsent : isAbsentChars (trim body) with
    | true => simp [ofText?, hsplit, habsent]
    | false =>
      have hread : ofText? unitless property (String.ofList (body ++ mark))
          = some ⟨property, .text (String.ofList (trim body)), true⟩ := by
        rw [ofText?_of_present] <;> simp [hsplit, habsent, textValue]
      rw [hread]
      intro heq
      have hvalue := Value.text.inj (congrArg Declaration.value (Option.some.inj heq))
      exact trim_ne_append_of_isMark hmark body (String.ofList_injective hvalue)
  | false =>
    have hsplit : splitImportance cs = (cs, false) := by
      rw [← htrim, splitImportance_trim hflag]
    have hread : ofText? unitless property (String.ofList cs)
        = some ⟨property, textValue unitless cs, false⟩ := by
      rw [ofText?_of_present] <;> simp [hsplit, hpresent]
    calc (ofText? unitless property (String.ofList cs)).map flagged
          = some ⟨property, .text (String.ofList cs), true⟩
        ↔ (textValue unitless cs).display = String.ofList cs := by simp [hread, flagged]
      _ ↔ ¬Unsettled unitless cs := by
        rw [display_textValue_eq_iff, unsettled_iff, hflag, or_iff_right Bool.false_ne_true]

end Declaration

/-! ## Inline items -/

/-- What is done with an item of a block: its declaration is written, and without one the property
is removed. -/
def Edit.ofItem (i : Inline.Item) : Edit :=
  match i.declaration? with
  | some d => .declare d
  | none => .unset i.name

/-- The operation that writes an item of a block. -/
def Operation.ofItem (i : Inline.Item) : Operation :=
  match i.declaration? with
  | some d => .declare [d]
  | none => .unset i.name

theorem Operation.edits_ofItem (i : Inline.Item) : (ofItem i).edits = [Edit.ofItem i] := by
  unfold ofItem Edit.ofItem
  cases i.declaration? <;> rfl

/-- The property of an item is spelled in the edit as it is in the block. -/
theorem Edit.property_ofItem (i : Inline.Item) : (ofItem i).property = i.name := by
  unfold ofItem
  cases h : i.declaration? with
  | none => rfl
  | some d => exact (Declaration.of_ofJson? h).1

/-- An item has no declaration if its name is blank or its value absent, and only then. -/
theorem Inline.Item.declaration?_eq_none_iff (i : Inline.Item) :
    i.declaration? = none ↔ isBlankName i.name = true ∨ (Value.text i.value).Absent := by
  unfold declaration?
  cases hnamed : isBlankName i.name with
  | true => simp [Declaration.ofJson?, hnamed]
  | false => simp [Declaration.ofJson?_text hnamed, Declaration.ofText?_eq_none_iff]

namespace Edit

/-- A text of a named property leaves behind what the text makes. -/
theorem outcome?_set_text (c : Config) {p : String} (hnamed : isBlankName p = false) (v : String) :
    (set p (.text v)).outcome? c
      = Declaration.ofText? (c.isUnitless p) (trimmed p) v := by
  show Declaration.ofInput? (c.isUnitless p) p (.text v) = _
  unfold Declaration.ofInput?
  rw [if_neg (by simp [hnamed])]

/-- An item of a present text leaves behind what the text without its mark makes, under the flag
that the mark stands for. -/
theorem outcome?_ofItem_of_present (c : Config) {p v : String} (hnamed : isBlankName p = false)
    (hpresent : isAbsentChars (splitImportance v.toList).1 = false) :
    (ofItem ⟨p, v⟩).outcome? c
      = (Declaration.ofText? (c.isUnitless p) (trimmed p)
          (String.ofList (splitImportance v.toList).1)).map fun e =>
            if (splitImportance v.toList).2 then e.flagged else e := by
  have hdeclaration : Inline.Item.declaration? ⟨p, v⟩
      = some ⟨p, .text (String.ofList (splitImportance v.toList).1),
          (splitImportance v.toList).2⟩ := by
    unfold Inline.Item.declaration?
    rw [Declaration.ofJson?_text hnamed, Declaration.ofText?_of_present hpresent]
    rfl
  unfold ofItem
  rw [hdeclaration, ← outcome?_set_text c hnamed]
  rfl

/-- An editor leaves the same behind as an item with the same text, unless the text is flagged and
unsettled in front of its mark. -/
theorem outcome?_set_eq_outcome?_ofItem_iff (c : Config) (p v : String) :
    (set p (.text v)).outcome? c = (ofItem ⟨p, v⟩).outcome? c
      ↔ ¬(isBlankName p = false ∧ ∃ body mark, v.toList = body ++ mark ∧ IsMark mark ∧
          Unsettled (c.isUnitless p) (trim body)) := by
  rw [exists_isMark_iff]
  by_cases hgone : isBlankName p = true ∨ (Value.text v).Absent
  · have hset : (set p (.text v)).outcome? c = none :=
      (Declaration.ofInput?_eq_none_iff (c.isUnitless p) p (.text v)).mpr hgone
    have hitem : (ofItem ⟨p, v⟩).outcome? c = none := by
      unfold ofItem
      rw [(Inline.Item.declaration?_eq_none_iff ⟨p, v⟩).mpr hgone]
      rfl
    refine iff_of_true (hset.trans hitem.symm) ?_
    rintro ⟨hnamed, -, hunsettled⟩
    -- the name is not blank, so the text is absent, and an absent text is settled
    have habsent := (isAbsentChars_fst_splitImportance_iff v).mpr
      (hgone.resolve_left (by simp [hnamed]))
    exact not_unsettled_of_absent (trim_fst_splitImportance _) habsent hunsettled
  · obtain ⟨hnamed, hpresent⟩ := not_or.mp hgone
    rw [Bool.not_eq_true] at hnamed
    rw [← isAbsentChars_fst_splitImportance_iff, Bool.not_eq_true] at hpresent
    rw [outcome?_set_text c hnamed, outcome?_ofItem_of_present c hnamed hpresent]
    cases hflag : (splitImportance v.toList).2 with
    | false =>
      rw [fst_splitImportance hflag, ← Text.trimmed,
        Declaration.ofText?_trimmed (c.isUnitless p) (trimmed p) hflag]
      simp
    | true =>
      have hset : Declaration.ofText? (c.isUnitless p) (trimmed p) v
          = some ⟨trimmed p, .text (String.ofList (splitImportance v.toList).1), true⟩ := by
        rw [Declaration.ofText?_of_present hpresent]
        simp [hflag, Declaration.textValue]
      rw [hset, and_iff_right hnamed, and_iff_right rfl, eq_comm]
      exact Declaration.map_flagged_ofText?_eq_iff (c.isUnitless p) (trimmed p)
        (trim_fst_splitImportance _) hpresent

end Edit

namespace Record

/-- Calls of one edit each of the same property change a record with an id alike if the edits leave
the same behind, and only then. -/
theorem call_eq_call_iff {c : Config} {r : Record} (hid : r.id.isSome = true) {op op' : Operation}
    {e e' : Edit} (hop : op.edits = [e]) (hop' : op'.edits = [e'])
    (hproperty : e.property = e'.property) (tier : Tier) (n n' : Nat) :
    r.call c ⟨tier, op, n⟩ = r.call c ⟨tier, op', n'⟩ ↔ e.outcome? c = e'.outcome? c := by
  constructor
  · intro h
    have hanswer : ∀ {op : Operation} {e : Edit} (n : Nat), op.edits = [e] →
        ((r.call c ⟨tier, op, n⟩).bucket tier).get? e.property = e.outcome? c := by
      intro op e n hop
      rw [bucket_call]
      simp [editsAt, hop, Bucket.get?_edit]
    rw [← hanswer n hop, ← hanswer n' hop', h, hproperty]
  · intro h
    exact call_congr hid e e' hop hop' hproperty h tier n n'

/-- Setting a property to a text does to a record with an id what an inline item with the same text
does, unless the text is flagged and unsettled in front of its mark: there is one more mark, or a
number of a unitless property in another spelling than its own. -/
theorem call_set_eq_call_ofItem_iff (c : Config) {r : Record} (hid : r.id.isSome = true)
    (tier : Tier) (p v : String) (n n' : Nat) :
    r.call c ⟨tier, .set p (.text v), n⟩ = r.call c ⟨tier, .ofItem ⟨p, v⟩, n'⟩
      ↔ ¬(isBlankName p = false ∧ ∃ body mark, v.toList = body ++ mark ∧ IsMark mark ∧
          Unsettled (c.isUnitless p) (trim body)) := by
  rw [← Edit.outcome?_set_eq_outcome?_ofItem_iff]
  have hset : (Operation.set p (.text v)).edits = [.set p (.text v)] := rfl
  exact call_eq_call_iff hid hset (Operation.edits_ofItem ⟨p, v⟩)
    (Edit.property_ofItem ⟨p, v⟩).symm tier n n'

/-- A flagged number in its own spelling is kept as a text both ways. -/
theorem call_set_eq_call_ofItem_own_spelling :
    let r : Record := ⟨some "card", .empty, .empty, .empty⟩
    r.id.isSome = true ∧
      r.call .standard ⟨.tablet, .set "opacity" (.text "0.5 !IMPORTANT"), 0⟩
        = r.call .standard ⟨.tablet, .ofItem ⟨"opacity", "0.5 !IMPORTANT"⟩, 1⟩ := by
  intro r
  refine ⟨by decide, (call_set_eq_call_ofItem_iff .standard (r := r) (by decide) _ _ _ _ _).mpr ?_⟩
  rw [exists_isMark_iff]
  decide +kernel

/-- A flagged number in another spelling, a repeated mark, and a mark in front of a mark: the text
that is left stays as it is when a property is set, and is changed or lost as the text of an
item. -/
theorem call_set_ne_call_ofItem :
    let r : Record := ⟨some "card", .empty, .empty, .empty⟩
    let set (p v : String) := r.call .standard ⟨.desktop, .set p (.text v), 0⟩
    let inline (p v : String) := r.call .standard ⟨.desktop, .ofItem ⟨p, v⟩, 0⟩
    set "opacity" "0.50 !important" ≠ inline "opacity" "0.50 !important" ∧
      set "color" "red !important !important" ≠ inline "color" "red !important !important" ∧
      set "color" "!important !important" ≠ inline "color" "!important !important" := by
  decide +kernel

end Record

end ResponsiveStyle.Style
