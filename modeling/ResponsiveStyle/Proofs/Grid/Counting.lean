/-
# Counting the tracks of an axis

A template that is read as a plain repetition says what its unit says, so many times
(`Axis.ofTemplate_of_decode`), and so does the template that is written for it
(`Axis.ofTemplate_template_simple`). From this follow three facts about axes.

* An axis that is not kept as it is says the same about its tracks when it is written again
  (`Axis.ofTemplate_template_decode`).
* A repetition that is written is read again and counted (`Axis.decode_repeatText`).
* A plain repetition is counted like its unit exactly if the unit is a single argument, which the
  pattern of plain repetitions does not see to (`Axis.decode_simple_agrees_iff`).
-/
import ResponsiveStyle.Proofs.Grid.Axis
import ResponsiveStyle.Proofs.Grid.Summary

namespace ResponsiveStyle.Grid

open Text (trim trim_trim ofDigits digits maxSize saturatingMul)

/-! ## Templates that are read as plain repetitions -/

/-- A template that is read as a plain repetition has the pattern. -/
theorem Axis.exists_repeats_of_decode {text : String} {count : Nat} {unit : String}
    (h : Axis.decode text = .simple count unit) :
    ∃ digits chars, Repeats (trim text.toList) digits chars ∧ ofDigits digits ≤ maxRepeat ∧
      trim chars ≠ [] ∧ count = ofDigits digits ∧ unit = String.ofList (trim chars) := by
  rcases Axis.decode_cases text with
    ⟨axis, hsimple, hdecode⟩ | ⟨-, ⟨axis, htracks, hdecode⟩ | hdecode⟩
  · rw [hdecode] at h
    rw [h] at hsimple
    obtain ⟨digits, chars, hrepeats, -, hlarge, hne, haxis⟩ :=
      (Axis.simple?_eq_some_iff _ _).mp hsimple
    obtain ⟨hcount, hunit⟩ := Axis.simple.inj haxis
    exact ⟨digits, chars, hrepeats, hlarge, hne, hcount, hunit⟩
  · obtain ⟨tokens, rfl⟩ := Axis.exists_tokens_of_tracks? htracks
    rw [hdecode] at h
    exact absurd h (by simp)
  · rw [hdecode] at h
    exact absurd h (by simp)

/-- A template that is read as a plain repetition is one as a whole, around its unit. -/
theorem Axis.exists_counted_of_decode {text : String} {count : Nat} {unit : String}
    (h : Axis.decode text = .simple count unit) :
    ∃ inside digits chars,
      splitTracks? text.toList = splitTracks? ("repeat".toList ++ '(' :: (inside ++ [')'])) ∧
        Counted inside digits chars ∧ ')' ∉ chars ∧ ofDigits digits ≤ maxSize ∧ trim chars ≠ [] ∧
        count = ofDigits digits ∧ unit.toList = trim chars := by
  obtain ⟨digits, chars, hrepeats, hlarge, hne, rfl, rfl⟩ := Axis.exists_repeats_of_decode h
  obtain ⟨inside, hcs, hcounted⟩ := hrepeats.exists_counted
  exact ⟨inside, digits, chars, by rw [← hcs, splitTracks?_trim], hcounted, hrepeats.not_mem,
    hlarge.trans (by decide), hne, rfl, String.toList_ofList⟩

/-- A template that is read as a plain repetition says what its unit says, so many times. -/
theorem Axis.ofTemplate_of_decode {text : String} {count : Nat} {unit : String}
    (h : Axis.decode text = .simple count unit) :
    Summary.ofTemplate text = Summary.repeated count unit.toList := by
  obtain ⟨inside, digits, chars, hsplit, hcounted, hclose, hlarge, -, rfl, hunit⟩ :=
    Axis.exists_counted_of_decode h
  rw [hunit, Summary.repeated_trim]
  exact Summary.ofTemplate_of_counted hsplit hcounted hlarge (.inl hclose)

/-- The brackets of a template that is read as a plain repetition balance if those of its unit
do. -/
theorem Axis.isSome_splitTracks?_of_decode {text : String} {count : Nat} {unit : String}
    (h : Axis.decode text = .simple count unit) :
    (splitTracks? text.toList).isSome = true ↔ (splitTracks? unit.toList).isSome = true := by
  obtain ⟨inside, digits, chars, hsplit, hcounted, hclose, -, -, -, hunit⟩ :=
    Axis.exists_counted_of_decode h
  have hinside : ')' ∉ inside := fun hmem => hclose (hcounted.mem_iff.mp hmem)
  rw [hsplit, hunit, splitTracks?_trim, isSome_splitTracks?_iff, isSome_splitTracks?_iff,
    balanced_call_iff (fun c hc => (plain_repeat hc).2.2) hinside, hcounted.balanced_iff]

/-! ## Templates that are written -/

/-- The template of a plain repetition is a repetition as a whole. -/
theorem Axis.toList_template_eq_call {count : Nat} (hcount : 0 < count) {unit : String}
    (hunit : trim unit.toList ≠ []) :
    (Axis.simple count unit).template.toList = "repeat".toList ++
      '(' :: ((digits count ++ (", ".toList ++ trim unit.toList)) ++ [')']) := by
  rw [Axis.toList_template_simple hcount hunit]
  simp

/-- The template of a plain repetition says what its unit says, so many times. -/
theorem Axis.ofTemplate_template_simple {count : Nat} (hcount : 0 < count)
    (hlarge : count ≤ maxRepeat) {unit : String} (hunit : trim unit.toList ≠ [])
    (hclose : ')' ∉ unit.toList ∨ Balanced (trim unit.toList)) :
    Summary.ofTemplate (Axis.simple count unit).template
      = Summary.repeated count unit.toList := by
  have hsize : ofDigits (digits count) ≤ maxSize := by
    rw [Text.ofDigits_digits]
    exact hlarge.trans (by decide)
  have hsummary := Summary.ofTemplate_of_counted
    (congrArg splitTracks? (Axis.toList_template_eq_call hcount hunit))
    (counted_digits count (trim unit.toList)) hsize
    (hclose.imp_left fun hmem htrim => hmem (Text.mem_of_mem_trim htrim))
  rw [hsummary, Text.ofDigits_digits, Summary.repeated_trim]

/-- For every template that is not kept as it is, the template that is written for its axis has the
same summary, so the axis has as many tracks as the template. -/
theorem Axis.ofTemplate_template_decode (text : String) (h : (Axis.decode text).isRaw = false) :
    Summary.ofTemplate (Axis.decode text).template = Summary.ofTemplate text ∧
      (Axis.decode text).trackCount = countTracks text := by
  have hsummary : Summary.ofTemplate (Axis.decode text).template = Summary.ofTemplate text := by
    rcases Axis.decode_cases text with
      ⟨axis, hsimple, hdecode⟩ | ⟨-, ⟨axis, htracks, hdecode⟩ | hdecode⟩
    · obtain ⟨digits, chars, hrepeats, hcount, hlarge, hne, rfl⟩ :=
        (Axis.simple?_eq_some_iff _ _).mp hsimple
      rw [Axis.ofTemplate_of_decode hdecode, hdecode]
      refine Axis.ofTemplate_template_simple hcount hlarge ?_ (.inl ?_)
      · rwa [String.toList_ofList, trim_trim]
      · rw [String.toList_ofList]
        exact fun hmem => hrepeats.not_mem (Text.mem_of_mem_trim hmem)
    · obtain ⟨tokens, htokens, rfl⟩ := Axis.of_tracks? htracks
      have hagain : splitTracks? (Axis.tracks (tokens.map String.ofList)).template.toList
          = some tokens := by
        rw [Axis.toList_template_tracks]
        exact splitTracks?_intercalate fun t ht => isToken_of_splitTracks? htokens ht
      rw [splitTracks?_trim] at htokens
      rw [hdecode, Summary.ofTemplate_eq hagain, Summary.ofTemplate_eq htokens]
    · rw [hdecode] at h
      exact absurd h (by simp [Axis.isRaw])
  have hcount : countTracks (Axis.decode text).template = countTracks text :=
    congrArg Summary.count hsummary
  refine ⟨hsummary, ?_⟩
  rw [← hcount]
  cases hdecode : Axis.decode text with
  | simple count unit => rfl
  | tracks tokens => rfl
  | raw raw =>
    rw [hdecode] at h
    exact absurd h (by simp [Axis.isRaw])

/-- A list of tracks with line names and a repetition, blanks on both sides and inside. -/
theorem Axis.ofTemplate_template_decode_line_names :
    (Axis.decode " [a]  repeat( 02 ,1fr [b] 2fr)\t3fr ").isRaw = false ∧
      (Axis.decode " [a]  repeat( 02 ,1fr [b] 2fr)\t3fr ").trackCount = 5 := by
  have hraw : (Axis.decode " [a]  repeat( 02 ,1fr [b] 2fr)\t3fr ").isRaw = false := by decide
  refine ⟨hraw, ?_⟩
  rw [(Axis.ofTemplate_template_decode _ hraw).2]
  decide

/-- The characters of a written repetition. -/
theorem Axis.of_mem_template_simple {count : Nat} (hcount : 0 < count) {unit : String}
    (hunit : trim unit.toList ≠ []) {c : Char}
    (h : c ∈ (Axis.simple count unit).template.toList) :
    c ∈ "repeat(, )".toList ∨ c.isDigit = true ∨ c ∈ unit.toList := by
  have hword : "repeat(, )".toList = "repeat(".toList ++ (", ".toList ++ [')']) := rfl
  rw [Axis.toList_template_simple hcount hunit] at h
  simp only [hword, List.mem_append] at h ⊢
  rcases h with hc | hc | hc | hc | hc
  · exact .inl (.inl hc)
  · exact .inr (.inl (Text.isDigit_of_mem_digits hc))
  · exact .inl (.inr (.inl hc))
  · exact .inr (.inr (Text.mem_of_mem_trim hc))
  · exact .inl (.inr (.inr hc))

/-- A written repetition of something that closes a parenthesis is a list of tracks, itself the only
one, if the brackets balance and there is no quote. -/
theorem Axis.decode_template_of_mem {count : Nat} (hcount : 0 < count) {unit : String}
    (hunit : trim unit.toList ≠ []) (hbalanced : Balanced (trim unit.toList))
    (hquotes : '"' ∉ unit.toList ∧ '\'' ∉ unit.toList) (hclose : ')' ∈ trim unit.toList) :
    Axis.decode (Axis.simple count unit).template
      = .tracks [(Axis.simple count unit).template] := by
  have hcounted := counted_digits count (trim unit.toList)
  have htext := Axis.toList_template_eq_call hcount hunit
  have hinside := hcounted.balanced_iff.mpr hbalanced
  have htoken : IsToken (Axis.simple count unit).template.toList := htext ▸ isToken_repeat hinside
  have hquote : ∀ q : Char, q ∉ "repeat(, )".toList → q.isDigit = false → q ∉ unit.toList →
      (Axis.simple count unit).template.toList.contains q = false := by
    intro q hword hdigit hmem
    rw [Bool.eq_false_iff, ne_eq, List.contains_iff_mem]
    intro hq
    rcases Axis.of_mem_template_simple hcount hunit hq with hq | hq | hq
    · exact hword hq
    · exact absurd hq (by simp [hdigit])
    · exact hmem hq
  have hsimple : Axis.simple? (Axis.simple count unit).template.toList = none := by
    by_contra hsome
    obtain ⟨axis, haxis⟩ := Option.ne_none_iff_exists'.mp hsome
    obtain ⟨number, chars, hrepeats, -⟩ := (Axis.simple?_eq_some_iff _ _).mp haxis
    -- in the pattern, the parenthesis at the end is the only one that closes
    obtain ⟨inside, hcall, hother⟩ := hrepeats.exists_counted
    rw [htext] at hcall
    have hsame := List.append_cancel_right (List.cons.inj (List.append_cancel_left hcall)).2
    exact hrepeats.not_mem (hother.mem_iff.mp (hsame ▸ hcounted.mem_iff.mpr hclose))
  have htracks : Axis.tracks? (Axis.simple count unit).template.toList
      = some (.tracks [(Axis.simple count unit).template]) := by
    have houtside : hasOutside ',' 0 (Axis.simple count unit).template.toList = false :=
      htext ▸ hasOutside_repeat hinside
    unfold Axis.tracks?
    rw [hquote '"' (by decide) (by decide) hquotes.1, hquote '\'' (by decide) (by decide) hquotes.2,
      houtside, if_neg (by simp), htoken.splitTracks?_eq]
    simp [String.ofList_toList]
  unfold Axis.decode
  simp only [htoken.solid.trim_eq, hsimple, htracks, Option.none_or, Option.getD_some]

/-- A written repetition of something that closes no parenthesis is a plain one. -/
theorem Axis.decode_template_of_not_mem {count : Nat} (hcount : 0 < count)
    (hlarge : count ≤ maxRepeat) {unit : String} (hunit : trim unit.toList ≠ [])
    (hclose : ')' ∉ unit.toList) :
    Axis.decode (Axis.simple count unit).template = .simple count (Text.trimmed unit) := by
  rw [← Axis.template_trimmed]
  exact Axis.decode_template_simple hcount hlarge hunit hclose

/-- For every count of 32 bits other than zero and every unit that is not blank, without quotes,
with brackets that balance and without a comma outside of them, the repetition is written; its axis
has this template again; the axis is the plain repetition of the trimmed unit if the unit closes no
parenthesis, and else a list of tracks, the repetition itself the only one; and the tracks of the
unit, which are its tokens other than line names, are counted so many times, up to the largest
number of 64 bits. A unit of at most 2^32 characters does not have so many tracks that this bound is
passed. -/
theorem Axis.decode_repeatText (count : Nat) (unit : String) (hcount : 0 < count)
    (hlarge : count ≤ maxRepeat) (hblank : Text.isBlankText unit = false)
    (hquotes : '"' ∉ unit.toList ∧ '\'' ∉ unit.toList) {tokens : List (List Char)}
    (htokens : splitTracks? unit.toList = some tokens)
    (hcomma : hasOutside ',' 0 unit.toList = false) :
    ∃ text, repeatText? count unit = some text ∧ (Axis.decode text).template = text ∧
      Axis.decode text =
        (if ')' ∈ unit.toList then .tracks [text] else .simple count (Text.trimmed unit)) ∧
      countTracks text = saturatingMul count (tokens.filter fun t => !isLineNames t).length ∧
      (unit.toList.length ≤ 4294967296 →
        countTracks text = count * (tokens.filter fun t => !isLineNames t).length) := by
  have hunit : trim unit.toList ≠ [] := by
    rw [ne_eq, Text.trim_eq_nil_iff]
    exact Bool.eq_false_iff.mp hblank
  have hbalanced : Balanced (trim unit.toList) := by
    rw [← isSome_splitTracks?_iff, splitTracks?_trim, htokens]
    rfl
  have hdecode : Axis.decode (Axis.simple count unit).template =
      (if ')' ∈ unit.toList then .tracks [(Axis.simple count unit).template]
        else .simple count (Text.trimmed unit)) := by
    split
    · rename_i hclose
      have htrim : ')' ∈ trim unit.toList := by
        rw [← List.count_pos_iff, Text.count_trim (by decide), List.count_pos_iff]
        exact hclose
      exact Axis.decode_template_of_mem hcount hunit hbalanced hquotes htrim
    · rename_i hclose
      exact Axis.decode_template_of_not_mem hcount hlarge hunit hclose
  have htemplate : (Axis.decode (Axis.simple count unit).template).template
      = (Axis.simple count unit).template := by
    rw [hdecode]
    split
    · rw [← String.toList_inj]
      have htext := Axis.toList_template_tracks [(Axis.simple count unit).template.toList]
      simpa [String.ofList_toList] using htext
    · exact Axis.template_trimmed count unit
  have htracks : countTracks (Axis.simple count unit).template
      = saturatingMul count (tokens.filter fun t => !isLineNames t).length := by
    unfold countTracks
    rw [Axis.ofTemplate_template_simple hcount hlarge hunit (.inr hbalanced)]
    exact Summary.count_repeated_of_tokens htokens hcomma hunit
  refine ⟨_, repeatText?_eq_template hcount hunit, htemplate, hdecode, htracks, ?_⟩
  intro hlength
  rw [htracks]
  have hfew : (tokens.filter fun t => !isLineNames t).length ≤ 4294967297 := by
    calc (tokens.filter fun t => !isLineNames t).length
        ≤ tokens.length := List.length_filter_le _ _
      _ ≤ unit.toList.length + 1 := length_splitTracks?_le htokens
      _ ≤ 4294967297 := Nat.add_le_add_right hlength 1
  exact Nat.min_eq_left ((Nat.mul_le_mul hlarge hfew).trans (by decide))

/-- A unit of line names and two tracks, one of which closes a parenthesis. -/
theorem Axis.decode_repeatText_minmax :
    ∃ text, repeatText? 3 " [a] minmax(1px, 2fr) 1fr" = some text ∧
      Axis.decode text = .tracks [text] ∧ countTracks text = 6 := by
  obtain ⟨text, htext, -, hdecode, -, hcount⟩ := Axis.decode_repeatText 3
    " [a] minmax(1px, 2fr) 1fr" (by decide) (by decide) (by decide) (by decide) (by rfl) (by decide)
  exact ⟨text, htext, hdecode, hcount (by decide)⟩

/-! ## Where plain repetitions are misread -/

/-- For every template that is read as a plain repetition: the brackets of its unit balance, no
comma stands outside of them, and the tracks of the template are those of the unit so many times,
exactly if the unit is a single argument of a function. The brackets of the template balance if
those of the unit do, and the template has no track for certain if the unit is not the only argument
behind the count. A template whose brackets do not balance is kept as it is, or read as the plain
repetition of a unit whose brackets do not balance. -/
theorem Axis.decode_simple_agrees_iff (text : String) :
    (∀ count unit, Axis.decode text = .simple count unit →
      ((∃ tokens, splitTracks? unit.toList = some tokens ∧ hasOutside ',' 0 unit.toList = false ∧
          countTracks text = saturatingMul count (tokens.filter fun t => !isLineNames t).length) ↔
        splitArguments? unit.toList = some [unit.toList]) ∧
      ((splitTracks? text.toList).isSome = true ↔ (splitTracks? unit.toList).isSome = true) ∧
      (∀ list, splitArguments? unit.toList = some [list] →
        countTracks text = saturatingMul count (Summary.tracksOf list).length) ∧
      ((∀ list, splitArguments? unit.toList ≠ some [list]) → countTracks text = 0)) ∧
    (splitTracks? text.toList = none → Axis.decode text = .raw text ∨
      ∃ count unit, Axis.decode text = .simple count unit ∧ splitTracks? unit.toList = none) := by
  refine ⟨?_, ?_⟩
  · intro count unit hdecode
    have hsummary := Axis.ofTemplate_of_decode hdecode
    obtain ⟨-, -, chars, -, -, -, -, hne, -, hunit⟩ := Axis.exists_counted_of_decode hdecode
    have htrim : trim unit.toList = unit.toList := by rw [hunit, trim_trim]
    have hsingle := splitArguments?_eq_singleton_iff htrim (by rwa [hunit])
    refine ⟨?_, Axis.isSome_splitTracks?_of_decode hdecode, ?_, ?_⟩
    · constructor
      · rintro ⟨tokens, htokens, hcomma, -⟩
        exact hsingle.mpr ⟨by rw [htokens]; rfl, hcomma⟩
      · intro hargument
        obtain ⟨hsome, hcomma⟩ := hsingle.mp hargument
        obtain ⟨tokens, htokens⟩ := Option.isSome_iff_exists.mp hsome
        refine ⟨tokens, htokens, hcomma, ?_⟩
        unfold countTracks
        rw [hsummary]
        exact Summary.count_repeated_of_tokens htokens hcomma (by rw [htrim, hunit]; exact hne)
    · intro list hlist
      unfold countTracks
      rw [hsummary, Summary.count_repeated hlist]
    · intro hnone
      unfold countTracks
      rw [hsummary, Summary.repeated_of_ne hnone]
      rfl
  · intro hnone
    rcases Axis.decode_cases text with
      ⟨axis, hsimple, hdecode⟩ | ⟨-, ⟨axis, htracks, -⟩ | hdecode⟩
    · obtain ⟨digits, chars, -, -, -, -, rfl⟩ := (Axis.simple?_eq_some_iff _ _).mp hsimple
      have hiff := Axis.isSome_splitTracks?_of_decode hdecode
      rw [hnone] at hiff
      refine .inr ⟨_, _, hdecode, Option.not_isSome_iff_eq_none.mp fun hsome => ?_⟩
      exact absurd (hiff.mpr hsome) (by simp)
    · -- a list of tracks has tokens, so its brackets balance
      obtain ⟨tokens, htokens, -⟩ := Axis.of_tracks? htracks
      rw [splitTracks?_trim, hnone] at htokens
      exact absurd htokens (by simp)
    · exact .inl hdecode

/-- Two tracks with line names between them, blanks and a zero in front of the count. -/
theorem Axis.decode_simple_agrees_iff_line_names :
    Axis.decode " repeat( 03 , 1fr [mid] 2fr )" = .simple 3 "1fr [mid] 2fr" ∧
      countTracks " repeat( 03 , 1fr [mid] 2fr )" = 6 := by
  have hdecode : Axis.decode " repeat( 03 , 1fr [mid] 2fr )" = .simple 3 "1fr [mid] 2fr" := by
    decide
  obtain ⟨hagrees, -⟩ := (Axis.decode_simple_agrees_iff _).1 3 "1fr [mid] 2fr" hdecode
  obtain ⟨tokens, htokens, -, hcount⟩ := hagrees.mpr (by decide)
  have hlist : splitTracks? "1fr [mid] 2fr".toList
      = some ["1fr".toList, "[mid]".toList, "2fr".toList] := by decide
  rw [hlist] at htokens
  obtain rfl := Option.some.inj htokens
  exact ⟨hdecode, hcount⟩

/-- A template with an open parenthesis is read as a plain repetition, and so is one with two sizes
behind the count, which has no track for certain. -/
theorem Axis.decode_simple_misread :
    (splitTracks? "repeat(2, minmax(1px)".toList = none ∧
      Axis.decode "repeat(2, minmax(1px)" = .simple 2 "minmax(1px" ∧
      splitTracks? "minmax(1px".toList = none) ∧
    (Axis.decode "repeat(2, 1fr, 2fr)" = .simple 2 "1fr, 2fr" ∧
      hasOutside ',' 0 "1fr, 2fr".toList = true ∧
      splitTracks? "1fr, 2fr".toList = some ["1fr,".toList, "2fr".toList] ∧
      countTracks "repeat(2, 1fr, 2fr)" = 0) := by
  decide

end ResponsiveStyle.Grid
