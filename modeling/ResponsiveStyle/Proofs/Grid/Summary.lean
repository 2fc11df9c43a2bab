/-
# Summaries of templates that are put together

What a list of tokens says about its tracks is what each of them says, one behind the other
(`foldl_withToken`): counts are added up to the largest number of 64 bits, the first size is kept,
and the last way to fill the axis (`followedBy`). No count on the way is too large, so where it
stops growing does not matter (`followedBy_assoc`). A repetition says what its unit says, so many
times (`repeated`), also as the only token of a template (`ofTemplate_of_counted`). The tokens of
two templates with blanks between them are those of both, which gives the summary of the whole from
the two summaries (`ofTemplate_append`).
-/
import ResponsiveStyle.Grid.Axis
import ResponsiveStyle.Proofs.Grid.Repetition
import ResponsiveStyle.Proofs.Text.Numeral

namespace ResponsiveStyle.Grid.Summary

open Text (trim trim_trim isBlankText ofDigits lower maxSize saturatingAdd saturatingMul
  sameIgnoringCase toLower_of_isDigit)

/-! ## One summary behind the other -/

/-- What is said about the tracks of two parts, the first one and one behind it. -/
def followedBy (s t : Summary) : Summary where
  count := saturatingAdd s.count t.count
  unit := s.unit.or t.unit
  autoRepeat := t.autoRepeat.or s.autoRepeat
  subgrid := s.subgrid || t.subgrid

/-- The count of two parts is not too large. -/
theorem count_followedBy_le (s t : Summary) : (s.followedBy t).count ≤ maxSize :=
  Nat.min_le_right _ maxSize

/-- A part that says nothing changes nothing behind a part whose count is not too large. -/
theorem followedBy_nothing {s : Summary} (h : s.count ≤ maxSize) : s.followedBy nothing = s := by
  obtain ⟨count, unit, autoRepeat, subgrid⟩ := s
  have hcount : saturatingAdd count 0 = count := Nat.min_eq_left h
  unfold followedBy nothing
  simp [hcount]

/-- Three parts say the same whichever two are taken together first. -/
theorem followedBy_assoc (s t u : Summary) :
    (s.followedBy t).followedBy u = s.followedBy (t.followedBy u) := by
  have hcount : saturatingAdd (saturatingAdd s.count t.count) u.count
      = saturatingAdd s.count (saturatingAdd t.count u.count) := by
    unfold saturatingAdd
    omega
  unfold followedBy
  simp only [hcount, Option.or_assoc, Bool.or_assoc]

/-! ## Tokens -/

/-- Tracks are added as a part behind. -/
theorem withTracks_eq (s : Summary) (count : Nat) (unit : Option (List Char)) :
    s.withTracks count unit = s.followedBy (nothing.withTracks count unit) := by
  have hcount : saturatingAdd s.count count
      = saturatingAdd s.count (saturatingAdd 0 count) := by
    unfold saturatingAdd
    omega
  unfold withTracks followedBy nothing
  simp [hcount]

/-- A repetition is added as a part behind. -/
theorem withRepeat_eq (s : Summary) (times : List Char) (tracks : List (List Char)) :
    s.withRepeat times tracks = s.followedBy (nothing.withRepeat times tracks) := by
  unfold withRepeat
  simp only
  split
  · rw [withTracks_eq]
    rfl
  · split
    · rw [withTracks_eq]
      rfl
    · split
      · exact withTracks_eq _ _ _
      · exact withTracks_eq _ _ _

/-- A token is added as a part behind a part whose count is not too large. -/
theorem withToken_eq {s : Summary} (h : s.count ≤ maxSize) (token : List Char) :
    s.withToken token = s.followedBy (nothing.withToken token) := by
  unfold withToken
  split
  · exact (followedBy_nothing h).symm
  · split
    · exact withTracks_eq _ _ _
    · split
      · exact withRepeat_eq _ _ _
      · exact (followedBy_nothing h).symm

/-- The count of a single token is not too large. -/
theorem count_withToken_le (token : List Char) : (nothing.withToken token).count ≤ maxSize := by
  rw [withToken_eq (Nat.zero_le maxSize)]
  exact count_followedBy_le _ _

/-- Tokens are added as a part behind a part whose count is not too large. -/
theorem foldl_withToken {s : Summary} (h : s.count ≤ maxSize) (tokens : List (List Char)) :
    tokens.foldl withToken s = s.followedBy (tokens.foldl withToken nothing) := by
  induction tokens generalizing s with
  | nil => exact (followedBy_nothing h).symm
  | cons token tokens ih =>
    have hfirst := count_withToken_le token
    calc (token :: tokens).foldl withToken s
        = tokens.foldl withToken (s.followedBy (nothing.withToken token)) := by
          rw [List.foldl_cons, withToken_eq h]
      _ = (s.followedBy (nothing.withToken token)).followedBy (tokens.foldl withToken nothing) :=
          ih (count_followedBy_le _ _)
      _ = s.followedBy ((nothing.withToken token).followedBy (tokens.foldl withToken nothing)) :=
          followedBy_assoc _ _ _
      _ = s.followedBy ((token :: tokens).foldl withToken nothing) := by
          rw [List.foldl_cons, ih hfirst]

/-- Groups of line names say nothing. -/
theorem foldl_withToken_of_isLineNames {tokens : List (List Char)}
    (h : ∀ t ∈ tokens, isLineNames t = true) (s : Summary) : tokens.foldl withToken s = s := by
  induction tokens with
  | nil => rfl
  | cons token tokens ih =>
    have htoken : s.withToken token = s := by
      unfold withToken
      rw [h token List.mem_cons_self, Bool.true_or, if_pos rfl]
    rw [List.foldl_cons, htoken]
    exact ih fun t ht => h t (List.mem_cons_of_mem token ht)

/-- No token makes a subgrid. -/
theorem subgrid_withToken (s : Summary) (token : List Char) :
    (s.withToken token).subgrid = s.subgrid := by
  unfold withToken
  split
  · rfl
  · split
    · rfl
    · split
      · unfold withRepeat
        simp only
        split
        · rfl
        · split
          · rfl
          · split <;> rfl
      · rfl

theorem subgrid_foldl_withToken (s : Summary) (tokens : List (List Char)) :
    (tokens.foldl withToken s).subgrid = s.subgrid := by
  induction tokens generalizing s with
  | nil => rfl
  | cons token tokens ih => rw [List.foldl_cons, ih, subgrid_withToken]

/-! ## Templates -/

/-- The summary of a template that can be split is the one of its tokens. -/
theorem ofTemplate_eq {text : String} {tokens : List (List Char)}
    (h : splitTracks? text.toList = some tokens) : ofTemplate text = ofTokens tokens := by
  unfold ofTemplate
  rw [h]

/-- Tokens that do not begin with a subgrid are added one by one. -/
theorem ofTokens_eq {tokens : List (List Char)}
    (h : ∀ t ∈ tokens.head?, sameIgnoringCase "subgrid".toList t = false) :
    ofTokens tokens = tokens.foldl withToken nothing := by
  unfold ofTokens
  cases tokens with
  | nil => rfl
  | cons token tokens =>
    rw [List.head?_cons]
    simp only [h token rfl]
    rfl

/-! ## Repetitions -/

/-- What is said by a repetition of the unit: if it is a single argument, its tracks so many
times. -/
def repeated (count : Nat) (unit : List Char) : Summary :=
  match splitArguments? unit with
  | some [list] =>
    nothing.withTracks (saturatingMul count (tracksOf list).length) (tracksOf list).head?
  | _ => nothing

/-- A repetition says the same of a trimmed unit. -/
theorem repeated_trim (count : Nat) (unit : List Char) :
    repeated count (trim unit) = repeated count unit := by
  unfold repeated
  rw [splitArguments?_trim]

/-- The count of a repetition whose unit is a single argument. -/
theorem count_repeated {count : Nat} {unit list : List Char}
    (h : splitArguments? unit = some [list]) :
    (repeated count unit).count = saturatingMul count (tracksOf list).length := by
  have hcount : saturatingAdd 0 (saturatingMul count (tracksOf list).length)
      = saturatingMul count (tracksOf list).length := by
    unfold saturatingAdd saturatingMul
    omega
  unfold repeated
  rw [h]
  exact hcount

/-- A repetition has the tracks of its unit so many times if the brackets of the unit balance and no
comma stands outside of them. -/
theorem count_repeated_of_tokens {count : Nat} {unit : List Char} {tokens : List (List Char)}
    (htokens : splitTracks? unit = some tokens) (hcomma : hasOutside ',' 0 unit = false)
    (hne : trim unit ≠ []) :
    (repeated count unit).count
      = saturatingMul count (tokens.filter fun t => !isLineNames t).length := by
  have htrim : splitTracks? (trim unit) = some tokens := by rw [splitTracks?_trim, htokens]
  have houtside : hasOutside ',' 0 (trim unit) = false := by
    rw [hasOutside_splitTracks? htrim (by decide), ← hasOutside_splitTracks? htokens (by decide),
      hcomma]
  have hsingle : splitArguments? (trim unit) = some [trim unit] :=
    (splitArguments?_eq_singleton_iff (trim_trim unit) hne).mpr ⟨by rw [htrim]; rfl, houtside⟩
  rw [← repeated_trim, count_repeated hsingle]
  unfold tracksOf
  rw [htrim]
  rfl

/-- A repetition whose unit is no single argument says nothing. -/
theorem repeated_of_ne {count : Nat} {unit : List Char}
    (h : ∀ list, splitArguments? unit ≠ some [list]) : repeated count unit = nothing := by
  unfold repeated
  split
  · rename_i list hlist
    exact absurd hlist (h list)
  · rfl

/-- Digits say how many times the tracks are repeated, unless the number is too large. -/
theorem withRepeat_eq_of_isDigit (s : Summary) {digits : List Char} (hne : digits ≠ [])
    (hdigits : ∀ c ∈ digits, c.isDigit = true) (tracks : List (List Char)) :
    s.withRepeat digits tracks
      = s.withTracks (if ofDigits digits ≤ maxSize
          then saturatingMul (ofDigits digits) tracks.length else 0) tracks.head? := by
  have hlower : lower digits = digits := by
    calc lower digits
        = digits.map id := List.map_congr_left fun c hc => toLower_of_isDigit (hdigits c hc)
      _ = digits := List.map_id digits
  -- the words for filling the axis begin with a letter
  have hword : ∀ word : List Char, 'a' ∈ word → (digits == word) = false := by
    intro word hmem
    rw [beq_eq_false_iff_ne]
    rintro rfl
    exact absurd (hdigits 'a' hmem) (by decide)
  unfold withRepeat
  simp only [hlower, hword "auto-fill".toList (by decide), hword "auto-fit".toList (by decide),
    Bool.false_eq_true, if_false, Text.size?_eq_of_isDigit hne hdigits]
  by_cases hlarge : ofDigits digits ≤ maxSize
  · rw [if_pos hlarge, if_pos hlarge]
  · rw [if_neg hlarge, if_neg hlarge]

/-- Digits say how many times the tracks are repeated. -/
theorem withRepeat_of_isDigit (s : Summary) {digits : List Char} (hne : digits ≠ [])
    (hdigits : ∀ c ∈ digits, c.isDigit = true) (hlarge : ofDigits digits ≤ maxSize)
    (tracks : List (List Char)) :
    s.withRepeat digits tracks
      = s.withTracks (saturatingMul (ofDigits digits) tracks.length) tracks.head? := by
  rw [withRepeat_eq_of_isDigit s hne hdigits, if_pos hlarge]

/-- The only token of a template that is a repetition is counted by its arguments. -/
theorem ofTokens_repeat (inside : List Char) :
    ofTokens ["repeat".toList ++ '(' :: (inside ++ [')'])] =
      match splitArguments? inside with
      | some [times, list] => nothing.withRepeat times (tracksOf list)
      | _ => nothing := by
  have hsubgrid : sameIgnoringCase "subgrid".toList
      ("repeat".toList ++ '(' :: (inside ++ [')'])) = false := rfl
  have hnames : isLineNames ("repeat".toList ++ '(' :: (inside ++ [')'])) = false := rfl
  have htrack : isNoTrack ("repeat".toList ++ '(' :: (inside ++ [')'])) = false := rfl
  rw [ofTokens_eq fun t ht => by rw [← Option.some.inj ht, hsubgrid], List.foldl_cons,
    List.foldl_nil]
  unfold withToken
  rw [hnames, htrack, arguments?_call]
  rfl

/-- A template that is a repetition as a whole says what its unit says, so many times, if the unit
closes no parenthesis or its brackets balance. -/
theorem ofTemplate_of_counted {text : String} {inside digits unit : List Char}
    (hsplit : splitTracks? text.toList
      = splitTracks? ("repeat".toList ++ '(' :: (inside ++ [')'])))
    (h : Counted inside digits unit) (hlarge : ofDigits digits ≤ maxSize)
    (hunit : ')' ∉ unit ∨ Balanced unit) :
    ofTemplate text = repeated (ofDigits digits) unit := by
  by_cases hbalanced : Balanced unit
  · have htoken := isToken_repeat (h.balanced_iff.mpr hbalanced)
    obtain ⟨arguments, harguments⟩ :=
      Option.isSome_iff_exists.mp ((isSome_splitArguments?_iff unit).mpr hbalanced)
    rw [ofTemplate_eq (hsplit.trans htoken.splitTracks?_eq), ofTokens_repeat,
      h.splitArguments?_eq harguments]
    obtain ⟨-, -, -, -, -, hne, hdigits⟩ := h
    unfold repeated
    rw [harguments]
    rcases arguments with _ | ⟨list, _ | ⟨next, others⟩⟩
    · rfl
    · exact withRepeat_of_isDigit nothing hne hdigits hlarge (tracksOf list)
    · rfl
  · have hclose : ')' ∉ inside := fun hmem => hunit.resolve_right hbalanced (h.mem_iff.mp hmem)
    have hname : ∀ c ∈ "repeat".toList, isBracket c = false := fun c hc => (plain_repeat hc).2.2
    have htracks : splitTracks? text.toList = none := by
      rw [hsplit, ← Option.not_isSome_iff_eq_none, isSome_splitTracks?_iff,
        balanced_call_iff hname hclose, h.balanced_iff]
      exact hbalanced
    have hnone : splitArguments? unit = none := by
      rw [← Option.not_isSome_iff_eq_none, isSome_splitArguments?_iff]
      exact hbalanced
    rw [repeated_of_ne (by simp [hnone])]
    unfold ofTemplate
    rw [htracks]

/-! ## Two templates -/

/-- For every two templates whose brackets balance and that do not begin with a subgrid, and any
blanks between them, the summary of the whole has the sum of the counts up to the largest number of
64 bits, the size of the first one or else of the second, the way to fill the axis of the second one
or else of the first, and is of no subgrid. Groups of line names, in front of a template or behind
it, leave its summary as it is. -/
theorem ofTemplate_append (a gap b : String) {as bs : List (List Char)}
    (ha : splitTracks? a.toList = some as) (hb : splitTracks? b.toList = some bs)
    (hfirst : ∀ t ∈ as.head?, sameIgnoringCase "subgrid".toList t = false)
    (hsecond : ∀ t ∈ bs.head?, sameIgnoringCase "subgrid".toList t = false)
    (hne : gap ≠ "") (hgap : isBlankText gap = true) :
    ofTemplate (a ++ gap ++ b) =
        { count := min ((ofTemplate a).count + (ofTemplate b).count) maxSize
          unit := (ofTemplate a).unit.or (ofTemplate b).unit
          autoRepeat := (ofTemplate b).autoRepeat.or (ofTemplate a).autoRepeat
          subgrid := false } ∧
      ((∀ t ∈ as, isLineNames t = true) → ofTemplate (a ++ gap ++ b) = ofTemplate b) ∧
      ((∀ t ∈ bs, isLineNames t = true) → ofTemplate (a ++ gap ++ b) = ofTemplate a) := by
  have htokens : splitTracks? (a ++ gap ++ b).toList = some (as ++ bs) := by
    have hchars : gap.toList ≠ [] := fun hnil => hne (String.toList_inj.mp hnil)
    rw [String.toList_append, String.toList_append, List.append_assoc]
    exact splitTracks?_append ha hb hchars (List.all_eq_true.mp hgap)
  have hboth : ∀ t ∈ (as ++ bs).head?, sameIgnoringCase "subgrid".toList t = false := by
    cases as with
    | nil => exact hsecond
    | cons token tokens => exact hfirst
  have hwhole : ofTemplate (a ++ gap ++ b) = bs.foldl withToken (as.foldl withToken nothing) := by
    rw [ofTemplate_eq htokens, ofTokens_eq hboth, List.foldl_append]
  have hA : ofTemplate a = as.foldl withToken nothing := by
    rw [ofTemplate_eq ha, ofTokens_eq hfirst]
  have hB : ofTemplate b = bs.foldl withToken nothing := by
    rw [ofTemplate_eq hb, ofTokens_eq hsecond]
  refine ⟨?_, ?_, ?_⟩
  · have hcount : (as.foldl withToken nothing).count ≤ maxSize := by
      rw [foldl_withToken (Nat.zero_le maxSize)]
      exact count_followedBy_le _ _
    have hsubgrid : ∀ tokens : List (List Char), (tokens.foldl withToken nothing).subgrid = false :=
      fun tokens => subgrid_foldl_withToken nothing tokens
    rw [hwhole, foldl_withToken hcount, hA, hB]
    unfold followedBy
    rw [hsubgrid as, hsubgrid bs]
    rfl
  · intro hnames
    rw [hwhole, foldl_withToken_of_isLineNames hnames, hB]
  · intro hnames
    rw [hwhole, foldl_withToken_of_isLineNames hnames, hA]

/-- Line names in front of a repetition, and a list that fills the axis behind it. -/
theorem ofTemplate_append_repeat_fill :
    ofTemplate "[top] repeat(2, 1fr [mid] 2fr) 100px repeat(auto-fill, 50px)"
        = ⟨5, some "1fr", some .fill, false⟩ ∧
      ofTemplate "[top] repeat(2, 1fr [mid] 2fr)" = ofTemplate "repeat(2, 1fr [mid] 2fr)" := by
  have hwhole := (ofTemplate_append "[top] repeat(2, 1fr [mid] 2fr)" " "
    "100px repeat(auto-fill, 50px)" (by rfl) (by rfl) (by decide) (by decide) (by decide)
    (by decide)).1
  have hnames := (ofTemplate_append "[top]" " " "repeat(2, 1fr [mid] 2fr)" (by rfl) (by rfl)
    (by decide) (by decide) (by decide) (by decide)).2.1 (by decide)
  exact ⟨hwhole, hnames⟩

end ResponsiveStyle.Grid.Summary
