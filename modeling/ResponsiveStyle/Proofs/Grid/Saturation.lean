/-
# Repetitions of any size

A numeral may be longer than a number of 64 bits. Up to the largest such number a repetition has its
tracks so many times, and counts stop growing there (`countTracks_repetitionOf`). A numeral beyond
it is not read at all, and the repetition has no track for certain: so the count falls from the
largest number to zero, and this is the only place where it falls
(`countTracks_repetitionOf_saturates_iff`).
-/
import ResponsiveStyle.Proofs.Grid.Summary

namespace ResponsiveStyle.Grid

open Text (trim joined ofDigits maxSize saturatingAdd saturatingMul)

/-! ## Repetitions as they are written -/

/-- A plain track: a token that is a single argument and no group of line names. -/
structure IsTrack (cs : List Char) : Prop where
  token : IsToken cs
  single : hasOutside ',' 0 cs = false
  unnamed : isLineNames cs = false

/-- A numeral: digits, and at least one. Zeros may stand in front. -/
structure IsNumeral (cs : List Char) : Prop where
  nonempty : cs ≠ []
  digits : ∀ c ∈ cs, c.isDigit = true

/-- A repetition of tracks, as often as a numeral says. -/
def repetitionOf (times : String) (tracks : List String) : String :=
  "repeat(" ++ times ++ ", " ++ joined " " tracks ++ ")"

/-- The repetition is a call. -/
theorem toList_repetitionOf (times : String) (tracks : List String) :
    (repetitionOf times tracks).toList = "repeat".toList ++ '(' :: ((times.toList ++ (", ".toList ++
      List.intercalate [' '] (tracks.map String.toList))) ++ [')']) := by
  unfold repetitionOf
  simp only [String.toList_append, Text.toList_joined]
  simp

/-! ## Lists of plain tracks -/

/-- Plain tracks with single blanks between them are a single argument. -/
theorem splitArguments?_intercalate {tracks : List (List Char)} (hne : tracks ≠ [])
    (h : ∀ t ∈ tracks, IsTrack t) :
    splitArguments? (List.intercalate [' '] tracks) = some [List.intercalate [' '] tracks] := by
  have htokens : ∀ t ∈ tracks, IsToken t := fun t ht => (h t ht).token
  have hsplit := splitTracks?_intercalate htokens
  have hcomma : hasOutside ',' 0 (List.intercalate [' '] tracks) = false := by
    rw [hasOutside_splitTracks? hsplit (by decide), List.any_eq_false]
    intro t ht
    rw [(h t ht).single]
    exact Bool.false_ne_true
  have hlist : List.intercalate [' '] tracks ≠ [] := by
    intro hnil
    rw [hnil] at hsplit
    exact hne (Option.some.inj hsplit).symm
  exact (splitArguments?_eq_singleton_iff (trim_intercalate htokens) hlist).mpr
    ⟨by rw [hsplit]; rfl, hcomma⟩

/-- Plain tracks with single blanks between them are all counted. -/
theorem tracksOf_intercalate {tracks : List (List Char)} (h : ∀ t ∈ tracks, IsTrack t) :
    Summary.tracksOf (List.intercalate [' '] tracks) = tracks := by
  unfold Summary.tracksOf
  rw [splitTracks?_intercalate fun t ht => (h t ht).token, Option.getD_some, List.filter_eq_self]
  intro t ht
  rw [(h t ht).unnamed]
  rfl

/-! ## Counts -/

/-- A repetition has its tracks so many times, up to the largest number of 64 bits; if the numeral
says more than that, it has no track for certain. -/
theorem countTracks_repetitionOf {tracks : List String} (hne : tracks ≠ [])
    (htracks : ∀ t ∈ tracks, IsTrack t.toList) {times : String} (htimes : IsNumeral times.toList) :
    countTracks (repetitionOf times tracks) =
      if ofDigits times.toList ≤ maxSize
        then min (ofDigits times.toList * tracks.length) maxSize else 0 := by
  have hchars : ∀ t ∈ tracks.map String.toList, IsTrack t := by
    intro t ht
    obtain ⟨track, htrack, rfl⟩ := List.mem_map.mp ht
    exact htracks track htrack
  have hargument := splitArguments?_intercalate (by simpa using hne) hchars
  have hcounted := counted_of_isDigit htimes.nonempty htimes.digits
    (List.intercalate [' '] (tracks.map String.toList))
  have hbalanced : Balanced (List.intercalate [' '] (tracks.map String.toList)) :=
    (isSome_splitArguments?_iff _).mp (by rw [hargument]; rfl)
  have htoken := isToken_repeat (hcounted.balanced_iff.mpr hbalanced)
  have hsplit := (congrArg splitTracks? (toList_repetitionOf times tracks)).trans
    htoken.splitTracks?_eq
  unfold countTracks
  rw [Summary.ofTemplate_eq hsplit, Summary.ofTokens_repeat, hcounted.splitArguments?_eq hargument]
  simp only [tracksOf_intercalate hchars,
    Summary.withRepeat_eq_of_isDigit _ htimes.nonempty htimes.digits, List.length_map]
  show saturatingAdd 0 _ = _
  unfold saturatingAdd saturatingMul
  split
  · omega
  · omega

/-- For every list of plain tracks and every two numerals of at least one, the first of at most the
second. The repetition by the second has its tracks so many times, up to the largest number of 64
bits, exactly if the numeral does not say more than that number; if it does, no track is certain.
And it has no fewer tracks than the repetition by the first exactly if the second numeral does not
say more than that number, or the first does too. -/
theorem countTracks_repetitionOf_saturates_iff {tracks : List String} (hne : tracks ≠ [])
    (htracks : ∀ t ∈ tracks, IsTrack t.toList) {fewer times : String}
    (hfewer : IsNumeral fewer.toList) (htimes : IsNumeral times.toList)
    (hpos : 1 ≤ ofDigits fewer.toList) (hle : ofDigits fewer.toList ≤ ofDigits times.toList) :
    (countTracks (repetitionOf times tracks) = min (ofDigits times.toList * tracks.length) maxSize ↔
        ofDigits times.toList ≤ maxSize) ∧
      (countTracks (repetitionOf fewer tracks) ≤ countTracks (repetitionOf times tracks) ↔
        ofDigits times.toList ≤ maxSize ∨ maxSize < ofDigits fewer.toList) ∧
      (maxSize < ofDigits times.toList → countTracks (repetitionOf times tracks) = 0) := by
  have hlength : 0 < tracks.length := List.length_pos_of_ne_nil hne
  have hlimit : 0 < maxSize := by decide
  have hfirst : 0 < ofDigits fewer.toList * tracks.length := Nat.mul_pos hpos hlength
  have hgrows : ofDigits fewer.toList * tracks.length ≤ ofDigits times.toList * tracks.length :=
    Nat.mul_le_mul_right _ hle
  rw [countTracks_repetitionOf hne htracks hfewer, countTracks_repetitionOf hne htracks htimes]
  refine ⟨?_, ?_, ?_⟩
  · split
    · omega
    · omega
  · split
    · split
      · omega
      · omega
    · split
      · omega
      · omega
  · intro hlarge
    rw [if_neg (by omega)]

/-- Two tracks, one of which is a function, by a numeral with a zero in front and by the largest
number. -/
theorem countTracks_repetitionOf_saturates_iff_largest :
    countTracks (repetitionOf "18446744073709551615" ["minmax(1px, 2fr)", "1fr"]) = maxSize ∧
      countTracks (repetitionOf "02" ["minmax(1px, 2fr)", "1fr"])
        ≤ countTracks (repetitionOf "18446744073709551615" ["minmax(1px, 2fr)", "1fr"]) := by
  have htracks : ∀ t ∈ ["minmax(1px, 2fr)", "1fr"], IsTrack t.toList := by
    have hsplit : ∀ t ∈ ["minmax(1px, 2fr)", "1fr"], splitTracks? t.toList = some [t.toList] := by
      decide
    intro t ht
    refine ⟨isToken_of_splitTracks? (hsplit t ht) (List.mem_singleton_self _), ?_, ?_⟩
    · revert t
      decide
    · revert t
      decide
  obtain ⟨hcount, hmore, -⟩ := @countTracks_repetitionOf_saturates_iff ["minmax(1px, 2fr)", "1fr"]
    (by decide) htracks "02" "18446744073709551615" ⟨by decide, List.all_eq_true.mp (by decide)⟩
    ⟨by decide, List.all_eq_true.mp (by decide)⟩ (by decide) (by decide)
  exact ⟨(hcount.mpr (by decide)).trans (by decide), hmore.mpr (.inl (by decide))⟩

/-- One more than the largest number of 64 bits is not read, and the count falls to zero. -/
theorem countTracks_repeat_too_often :
    countTracks "repeat(18446744073709551615, 1fr)" = 18446744073709551615 ∧
      countTracks "repeat(18446744073709551616, 1fr)" = 0 ∧
      min (18446744073709551616 * 1) maxSize = 18446744073709551615 := by
  decide

end ResponsiveStyle.Grid
