/-
# Placements are read again as they were

The placements that shorthands can hold are the well-formed ones: a proper start line alone, or with
a span other than zero, or with a proper end line. Reading gives nothing else (`wellFormed_parse`),
and a well-formed placement is read again from the shorthand that is written for it in its own form
(`parse_compose`), whatever is to be written in place of zeros, since it has none.
-/
import ResponsiveStyle.Grid.Placement
import ResponsiveStyle.Proofs.Grid.Line
import ResponsiveStyle.Proofs.Text.Cut

namespace ResponsiveStyle.Grid

open Text (trim trim_trim splitAt fits32 intText)

/-! ## The parts of a shorthand -/

/-- Without a slash there is one part. -/
theorem shorthandParts_of_not_mem {value : String} (h : '/' ∉ value.toList) :
    shorthandParts value = (trim value.toList, none) := by
  unfold shorthandParts
  rw [Text.splitAt_of_not_mem h]

/-- The parts around the only slash. -/
theorem shorthandParts_slash {first second : String} (hfirst : '/' ∉ first.toList)
    (hsecond : '/' ∉ second.toList) :
    shorthandParts (first ++ " / " ++ second) = (trim first.toList, some (trim second.toList)) := by
  have htext : (first ++ " / " ++ second).toList
      = (first.toList ++ [' ']) ++ '/' :: ([' '] ++ second.toList) := by
    rw [String.toList_append, String.toList_append, List.append_assoc, List.append_assoc]
    rfl
  have hbefore : '/' ∉ first.toList ++ [' '] := by simp [hfirst]
  have hbehind : '/' ∉ [' '] ++ second.toList := by simp [hsecond]
  unfold shorthandParts
  rw [htext, Text.splitAt_append_cons hbefore, Text.splitAt_of_not_mem hbehind]
  show (trim (first.toList ++ [' ']), some (trim ([' '] ++ second.toList))) = _
  rw [Text.trim_append_of_isBlank (List.all_eq_true.mp (by decide)),
    Text.trim_isBlank_append (List.all_eq_true.mp (by decide))]

/-- The parts of a shorthand are trimmed and have no slash. -/
theorem of_shorthandParts {value : String} {first token : List Char} {second : Option (List Char)}
    (h : shorthandParts value = (first, second)) (htoken : token = first ∨ token ∈ second) :
    trim token = token ∧ '/' ∉ token := by
  -- every part is a trimmed piece of the text
  have hpiece : ∀ piece ∈ splitAt '/' value.toList,
      trim (trim piece) = trim piece ∧ '/' ∉ trim piece := by
    intro piece hmem
    exact ⟨trim_trim piece, fun hc => Text.not_mem_of_mem_splitAt hmem (Text.mem_of_mem_trim hc)⟩
  unfold shorthandParts at h
  split at h
  · rename_i hnil
    exact absurd hnil (Text.splitAt_ne_nil '/' value.toList)
  · rename_i piece hsplit
    obtain ⟨rfl, rfl⟩ := Prod.mk.inj h
    rcases htoken with rfl | htoken
    · exact hpiece piece (by simp [hsplit])
    · exact absurd htoken (by simp)
  · rename_i piece next others hsplit
    obtain ⟨rfl, rfl⟩ := Prod.mk.inj h
    rcases htoken with rfl | htoken
    · exact hpiece piece (by simp [hsplit])
    · obtain rfl := Option.some.inj htoken
      exact hpiece next (by simp [hsplit])

namespace Placement

/-! ## What shorthands hold -/

/-- A placement that a shorthand can hold. -/
inductive WellFormed : Placement → Prop
  | bare {start : Line} (proper : start.Proper) : WellFormed ⟨start, none, none⟩
  | span {start : Line} {k : Int} (proper : start.Proper) (fits : fits32 k = true)
      (nonzero : k ≠ 0) : WellFormed ⟨start, some k, none⟩
  | finish {start finish : Line} (proper : start.Proper) (ending : finish.Proper)
      (given : finish ≠ .auto) : WellFormed ⟨start, none, some finish⟩

/-- The start line of a well-formed placement is a proper one. -/
theorem WellFormed.start {p : Placement} (h : p.WellFormed) : p.start.Proper := by
  cases h with
  | bare proper => exact proper
  | span proper => exact proper
  | finish proper => exact proper

/-- A span that is read makes a well-formed placement of any proper start line. -/
theorem wellFormed_nonzero? {start : Line} (hstart : start.Proper) {token : List Char} {k : Int}
    (h : spanOfChars? token = some k) : WellFormed ⟨start, nonzero? k, none⟩ := by
  unfold nonzero?
  split
  · exact .bare hstart
  · rename_i hzero
    exact .span hstart (fits32_of_spanOfChars? h) (by simpa using hzero)

/-- The part before the slash makes a well-formed placement without an end line. -/
theorem wellFormed_ofFirst {token : List Char} (htrim : trim token = token) (hslash : '/' ∉ token) :
    (ofFirst token).WellFormed ∧ (ofFirst token).finish = none := by
  unfold ofFirst
  split
  · rename_i span hspan
    exact ⟨wellFormed_nonzero? .auto hspan, rfl⟩
  · rename_i hspan
    exact ⟨.bare (Line.proper_ofChars htrim hslash hspan), rfl⟩

/-- The part behind the slash keeps a placement without an end line well-formed. -/
theorem WellFormed.withSecond {p : Placement} (h : p.WellFormed) (hopen : p.finish = none)
    {token : List Char} (htrim : trim token = token) (hslash : '/' ∉ token) :
    (p.withSecond token).WellFormed := by
  have hstart := h.start
  obtain ⟨start, span, finish⟩ := p
  obtain rfl : finish = none := hopen
  unfold Placement.withSecond
  split
  · rename_i span' hspan
    exact wellFormed_nonzero? hstart hspan
  · rename_i hspan
    simp only
    split
    · exact h
    · rename_i hauto
      refine .finish hstart (Line.proper_ofChars htrim hslash hspan) ?_
      intro heq
      exact hauto (by rw [heq]; rfl)

/-- Reading any text gives a well-formed placement. -/
theorem wellFormed_parse (value : String) : (parse value).WellFormed := by
  unfold parse
  cases hparts : shorthandParts value with
  | mk first second =>
    obtain ⟨htrim, hslash⟩ := of_shorthandParts hparts (.inl rfl)
    obtain ⟨hfirst, hopen⟩ := wellFormed_ofFirst htrim hslash
    cases second with
    | none => exact hfirst
    | some token =>
      obtain ⟨htrim', hslash'⟩ := of_shorthandParts hparts (.inr rfl)
      exact hfirst.withSecond hopen htrim' hslash'

/-! ## Written placements -/

/-- The part before the slash is read again from the text of a proper line. -/
theorem ofFirst_text {start : Line} (h : start.Proper) :
    ofFirst (trim start.text.toList) = ⟨start, none, none⟩ := by
  unfold ofFirst
  rw [h.trim_text, h.spanOfChars?_text, h.ofChars_text, h.orFallback]

/-- A start line alone is read again. -/
theorem parse_text {start : Line} (h : start.Proper) : parse start.text = ⟨start, none, none⟩ := by
  unfold parse
  rw [shorthandParts_of_not_mem h.slash_not_mem_text]
  exact ofFirst_text h

/-- A start line is read again in front of any part without a slash. -/
theorem parse_slash {start : Line} (h : start.Proper) {tail : String} (htail : '/' ∉ tail.toList) :
    parse (start.text ++ " / " ++ tail)
      = withSecond ⟨start, none, none⟩ (trim tail.toList) := by
  unfold parse
  rw [shorthandParts_slash h.slash_not_mem_text htail]
  show (ofFirst (trim start.text.toList)).withSecond (trim tail.toList) = _
  rw [ofFirst_text h]

/-- A start line with a span is read again. -/
theorem parse_span {start : Line} (h : start.Proper) {k : Int} (hfits : fits32 k = true)
    (hzero : k ≠ 0) :
    parse (start.text ++ " / " ++ ("span " ++ intText k)) = ⟨start, some k, none⟩ := by
  rw [parse_slash h (slash_not_mem_span k), trim_span]
  unfold withSecond
  rw [spanOfChars?_span hfits]
  simp [nonzero?, hzero]

/-- A line that is given is not left to the grid. -/
theorem isAuto_eq_false {l : Line} (h : l ≠ .auto) : l.isAuto = false := by
  cases l with
  | auto => exact absurd rfl h
  | number n => rfl
  | named name => rfl

/-- A start line with an end line is read again. -/
theorem parse_finish {start finish : Line} (h : start.Proper) (hfinish : finish.Proper)
    (hgiven : finish ≠ .auto) :
    parse (start.text ++ " / " ++ finish.text) = ⟨start, none, some finish⟩ := by
  rw [parse_slash h hfinish.slash_not_mem_text, hfinish.trim_text]
  unfold withSecond
  rw [hfinish.spanOfChars?_text]
  simp [hfinish.ofChars_text, hfinish.orFallback, isAuto_eq_false hgiven]

/-- The shorthand of a well-formed placement in its own form: nothing stands in for zeros. -/
theorem WellFormed.compose_eq {p : Placement} (h : p.WellFormed) (fallback : Int) :
    p.compose p.mode fallback
      = match p.span, p.finish with
        | some k, _ => p.start.text ++ " / " ++ ("span " ++ intText k)
        | none, some e => p.start.text ++ " / " ++ e.text
        | none, none => p.start.text := by
  cases h with
  | bare proper => simp [compose, mode, tail?, spanBetween?, proper.orFallback]
  | span proper _ nonzero =>
    simp [compose, mode, tail?, proper.orFallback, nonzero?, nonzero]
  | finish proper ending given =>
    simp [compose, mode, tail?, proper.orFallback, ending.orFallback, isAuto_eq_false given,
      Option.filter_some]

/-- A well-formed placement is read again from its shorthand in its own form. -/
theorem parse_compose {p : Placement} (h : p.WellFormed) (fallback : Int) :
    parse (p.compose p.mode fallback) = p := by
  rw [h.compose_eq]
  cases h with
  | bare proper => exact parse_text proper
  | span proper fits nonzero => exact parse_span proper fits nonzero
  | finish proper ending given => exact parse_finish proper ending given

/-- Whatever is read is read again from the shorthand in its own form; and the placements that are
read again are the well-formed ones. -/
theorem parse_compose_parse (value : String) (fallback : Int) :
    parse ((parse value).compose (parse value).mode fallback) = parse value ∧
      ∀ p : Placement, parse (p.compose p.mode fallback) = p ↔ p.WellFormed := by
  refine ⟨parse_compose (wellFormed_parse value) fallback, fun p => ⟨fun h => ?_, fun h => ?_⟩⟩
  · rw [← h]
    exact wellFormed_parse _
  · exact parse_compose h fallback

/-- A span in front of a slash is dropped for the end line behind it, and a name that looks like a
span is kept. -/
example : Placement.parse "span 3 / span x / 2" = ⟨.auto, none, some (.named "span x")⟩ ∧
    (Placement.parse "span 3 / span x / 2").compose .finish 1 = "auto / span x" := by
  decide

end Placement

end ResponsiveStyle.Grid
