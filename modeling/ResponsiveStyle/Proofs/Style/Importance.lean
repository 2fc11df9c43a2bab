/-
# The mark of importance

A text is flagged if it has a mark behind it, an exclamation mark and the word in any case
(`snd_splitImportance_iff`), and the mark comes off again with the blanks around it
(`splitImportance_append_of_isMark`). A text without the mark has none after trimming either
(`splitImportance_trim`). So what a document stores is what it gives back.
-/
import ResponsiveStyle.Proofs.Text.Character
import ResponsiveStyle.Proofs.Text.Cut
import ResponsiveStyle.Proofs.Text.Trim
import ResponsiveStyle.Style.Value

namespace ResponsiveStyle.Style

open Text (trim trimStart isBlank lower after?_eq_some_iff trim_trim reverse_trim
  trim_append_of_isBlank takeWhile_append_trimStart)

/-! ## Marks -/

/-- A mark of importance: an exclamation mark and its word in any case, with any blanks between the
two and behind them. -/
def IsMark (mark : List Char) : Prop :=
  ∃ gap word tail, mark = '!' :: (gap ++ (word ++ tail)) ∧ (∀ c ∈ gap, isBlank c = true) ∧
    lower word = "important".toList ∧ ∀ c ∈ tail, isBlank c = true

/-- A mark has an exclamation mark. -/
theorem IsMark.bang_mem {mark : List Char} (h : IsMark mark) : '!' ∈ mark := by
  obtain ⟨gap, word, tail, rfl, -, -, -⟩ := h
  exact List.mem_cons_self

/-- The word of the mark, read from its end, in any case. -/
theorem lower_reverse_of_lower_eq {word : List Char} (h : lower word = "important".toList) :
    lower word.reverse = importantBackwards := by
  unfold lower
  rw [List.map_reverse, show word.map Char.toLower = _ from h]
  rfl

/-- The word of the mark, read from its end, begins with no blank. -/
theorem exists_cons_of_lower_eq {word : List Char} (h : lower word = "important".toList) :
    ∃ c rest, word.reverse = c :: rest ∧ isBlank c = false := by
  have hrev : lower word.reverse = importantBackwards := lower_reverse_of_lower_eq h
  cases hword : word.reverse with
  | nil =>
    rw [hword] at hrev
    exact absurd hrev (by decide)
  | cons c rest =>
    refine ⟨c, rest, rfl, ?_⟩
    rw [hword] at hrev
    have hc : c.toLower = 't' := (List.cons.inj hrev).1
    by_contra hblank
    rw [Bool.not_eq_false] at hblank
    rw [Text.toLower_of_isBlank hblank] at hc
    subst hc
    exact absurd hblank (by decide)

/-- A text begins with a start in any case if it is a word that equals the start but for the case,
and what follows it. -/
theorem afterIgnoringCase?_eq_some_iff (start cs rest : List Char) :
    afterIgnoringCase? start cs = some rest ↔ ∃ word, cs = word ++ rest ∧ lower word = start := by
  unfold afterIgnoringCase?
  rw [Option.map_eq_some_iff]
  constructor
  · rintro ⟨tail, htail, rfl⟩
    have hword := (after?_eq_some_iff _ _ _).mp htail
    have hlength := congrArg List.length hword
    simp only [lower, List.length_map, List.length_take, List.length_append] at hlength
    have hnil : tail = [] := List.length_eq_zero_iff.mp (by omega)
    refine ⟨cs.take start.length, (List.take_append_drop _ _).symm, ?_⟩
    rw [hword, hnil, List.append_nil]
  · rintro ⟨word, rfl, rfl⟩
    have hlength : (lower word).length = word.length := List.length_map _
    refine ⟨[], ?_, ?_⟩
    · rw [hlength, List.take_left, after?_eq_some_iff, List.append_nil]
    · rw [hlength, List.drop_left]

/-- What is parted from a text that is read from its end is a mark. -/
theorem exists_mark_of_beforeMark? {cs before : List Char} (h : beforeMark? cs = some before) :
    ∃ mark, IsMark mark ∧ cs = mark.reverse ++ before := by
  obtain ⟨rest, hrest, hbang⟩ := Option.bind_eq_some_iff.mp h
  obtain ⟨word, hword, hlower⟩ := (afterIgnoringCase?_eq_some_iff _ _ _).mp hrest
  have hgap := List.takeWhile_append_dropWhile (p := isBlank) (l := rest)
  have htail := List.takeWhile_append_dropWhile (p := isBlank) (l := cs)
  split at hbang
  · rename_i b hb
    obtain rfl := Option.some.inj hbang
    refine ⟨'!' :: ((rest.takeWhile isBlank).reverse ++
      (word.reverse ++ (cs.takeWhile isBlank).reverse)), ?_, ?_⟩
    · refine ⟨_, _, _, rfl, ?_, ?_, ?_⟩
      · intro c hc
        exact List.mem_takeWhile_imp (List.mem_reverse.mp hc)
      · unfold lower
        rw [List.map_reverse, show word.map Char.toLower = _ from hlower]
        rfl
      · intro c hc
        exact List.mem_takeWhile_imp (List.mem_reverse.mp hc)
    · calc cs
          = cs.takeWhile isBlank ++ (word ++ (rest.takeWhile isBlank ++ rest.dropWhile isBlank)) :=
            by rw [hgap, ← hword, htail]
        _ = _ := by
          rw [hb]
          simp
  · exact absurd hbang (by simp)

/-- A mark is parted from a text that is read from its end. -/
theorem beforeMark?_reverse_append {mark : List Char} (h : IsMark mark) (before : List Char) :
    beforeMark? (mark.reverse ++ before) = some before := by
  obtain ⟨gap, word, tail, rfl, hgap, hword, htail⟩ := h
  obtain ⟨c, others, hreverse, hc⟩ := exists_cons_of_lower_eq hword
  have hsplit : ('!' :: (gap ++ (word ++ tail))).reverse ++ before
      = tail.reverse ++ (word.reverse ++ (gap.reverse ++ '!' :: before)) := by
    simp
  have hdrop : (tail.reverse ++ (word.reverse ++ (gap.reverse ++ '!' :: before))).dropWhile isBlank
      = word.reverse ++ (gap.reverse ++ '!' :: before) := by
    rw [List.dropWhile_append_of_pos fun c hc => htail c (List.mem_reverse.mp hc), hreverse,
      List.cons_append, List.dropWhile_cons_of_neg (by simp [hc])]
  have hbang : (gap.reverse ++ '!' :: before).dropWhile isBlank = '!' :: before := by
    rw [List.dropWhile_append_of_pos fun c hc => hgap c (List.mem_reverse.mp hc),
      List.dropWhile_cons_of_neg (by decide)]
  unfold beforeMark?
  rw [Option.bind_eq_some_iff]
  refine ⟨gap.reverse ++ '!' :: before, ?_, ?_⟩
  · rw [hsplit, hdrop, afterIgnoringCase?_eq_some_iff]
    exact ⟨word.reverse, rfl, lower_reverse_of_lower_eq hword⟩
  · simp only [hbang]

/-! ## The mark read from its end -/

/-- Blanks behind the mark do not matter. -/
theorem beforeMark?_dropWhile (cs : List Char) :
    beforeMark? (cs.dropWhile isBlank) = beforeMark? cs := by
  unfold beforeMark?
  rw [List.dropWhile_idempotent]

/-- A mark stays one whatever stands in front of it. -/
theorem beforeMark?_append {backwards before : List Char} (more : List Char)
    (h : beforeMark? backwards = some before) :
    beforeMark? (backwards ++ more) = some (before ++ more) := by
  obtain ⟨mark, hmark, rfl⟩ := exists_mark_of_beforeMark? h
  rw [List.append_assoc]
  exact beforeMark?_reverse_append hmark (before ++ more)

/-! ## The two parts of a text -/

/-- The part without the mark is trimmed. -/
theorem trim_fst_splitImportance (cs : List Char) :
    trim (splitImportance cs).1 = (splitImportance cs).1 := by
  unfold splitImportance
  split <;> exact trim_trim _

/-- Without the mark the whole text is left, trimmed, and trimming makes no mark. -/
theorem splitImportance_trim {cs : List Char} (h : (splitImportance cs).2 = false) :
    splitImportance (trim cs) = (trim cs, false) := by
  have hnone : beforeMark? cs.reverse = none := by
    unfold splitImportance at h
    split at h
    · exact absurd h (by simp)
    · assumption
  have htrim : beforeMark? (trim cs).reverse = none := by
    rw [reverse_trim, beforeMark?_dropWhile]
    cases hb : beforeMark? (trimStart cs).reverse with
    | none => rfl
    | some before =>
      -- the blanks in front of the text stand behind it when it is read backwards
      have hmark := beforeMark?_append (cs.takeWhile isBlank).reverse hb
      rw [← List.reverse_append, takeWhile_append_trimStart, hnone] at hmark
      exact absurd hmark (by simp)
  unfold splitImportance
  rw [htrim, trim_trim]

/-- Without the mark the text that is left is the trimmed text. -/
theorem fst_splitImportance {cs : List Char} (h : (splitImportance cs).2 = false) :
    (splitImportance cs).1 = trim cs := by
  unfold splitImportance at h ⊢
  split
  · rename_i hsome
    rw [hsome] at h
    exact absurd h (by simp)
  · rfl

/-- The two parts of a text without the mark. -/
theorem splitImportance_of_unmarked {cs : List Char} (h : (splitImportance cs).2 = false) :
    splitImportance cs = (trim cs, false) :=
  Prod.ext (fst_splitImportance h) h

/-- A text with a mark behind it is parted from the mark. -/
theorem splitImportance_append_of_isMark {mark : List Char} (h : IsMark mark) (body : List Char) :
    splitImportance (body ++ mark) = (trim body, true) := by
  have hbefore : beforeMark? (body ++ mark).reverse = some body.reverse := by
    rw [List.reverse_append]
    exact beforeMark?_reverse_append h body.reverse
  unfold splitImportance
  simp only [hbefore, List.reverse_reverse]

/-- Only a text with a mark behind it is flagged. -/
theorem snd_splitImportance_iff (cs : List Char) :
    (splitImportance cs).2 = true ↔ ∃ body mark, cs = body ++ mark ∧ IsMark mark := by
  constructor
  · intro h
    cases hbefore : beforeMark? cs.reverse with
    | none =>
      unfold splitImportance at h
      rw [hbefore] at h
      exact absurd h (by simp)
    | some before =>
      obtain ⟨mark, hmark, hcs⟩ := exists_mark_of_beforeMark? hbefore
      refine ⟨before.reverse, mark, ?_, hmark⟩
      rw [← List.reverse_reverse cs, hcs]
      simp
  · rintro ⟨body, mark, rfl, hmark⟩
    rw [splitImportance_append_of_isMark hmark]

/-- Without an exclamation mark a text is not flagged. -/
theorem snd_splitImportance_of_not_mem {cs : List Char} (h : '!' ∉ cs) :
    (splitImportance cs).2 = false := by
  rw [Bool.eq_false_iff, ne_eq, snd_splitImportance_iff]
  rintro ⟨body, mark, rfl, hmark⟩
  exact h (List.mem_append_right body hmark.bang_mem)

/-- A blank in front of a text does not matter. -/
theorem splitImportance_cons_of_isBlank {b : Char} (hb : isBlank b = true) (cs : List Char) :
    splitImportance (b :: cs) = splitImportance cs := by
  have htrim : ∀ ds, trim (b :: ds) = trim ds :=
    Text.trim_isBlank_append (List.forall_mem_singleton.mpr hb)
  cases hflag : (splitImportance cs).2 with
  | true =>
    obtain ⟨body, mark, rfl, hmark⟩ := (snd_splitImportance_iff cs).mp hflag
    rw [← List.cons_append, splitImportance_append_of_isMark hmark,
      splitImportance_append_of_isMark hmark, htrim]
  | false =>
    have hflag' : (splitImportance (b :: cs)).2 = false := by
      by_contra hmarked
      rw [Bool.not_eq_false, snd_splitImportance_iff] at hmarked
      obtain ⟨body, mark, hcs, hmark⟩ := hmarked
      cases body with
      | nil =>
        -- the mark would begin with the blank
        obtain ⟨gap, word, tail, rfl, -, -, -⟩ := hmark
        obtain rfl := (List.cons.inj hcs).1
        exact absurd hb (by decide)
      | cons a body =>
        have hmarked := (snd_splitImportance_iff cs).mpr ⟨body, mark, (List.cons.inj hcs).2, hmark⟩
        exact absurd hflag (by simp [hmarked])
    rw [splitImportance_of_unmarked hflag, splitImportance_of_unmarked hflag', htrim]

/-- What is said of the text in front of a mark is said of the part without it. -/
theorem exists_isMark_iff (cs : List Char) (P : List Char → Prop) :
    (∃ body mark, cs = body ++ mark ∧ IsMark mark ∧ P (trim body))
      ↔ (splitImportance cs).2 = true ∧ P (splitImportance cs).1 := by
  constructor
  · rintro ⟨body, mark, rfl, hmark, hbody⟩
    rw [splitImportance_append_of_isMark hmark]
    exact ⟨rfl, hbody⟩
  · rintro ⟨hflag, hfront⟩
    obtain ⟨body, mark, rfl, hmark⟩ := (snd_splitImportance_iff cs).mp hflag
    rw [splitImportance_append_of_isMark hmark] at hfront
    exact ⟨body, mark, rfl, hmark, hfront⟩

/-- A mark put behind a text comes off again. -/
theorem splitImportance_append_mark (body : List Char) :
    splitImportance (body ++ " !important".toList) = (trim body, true) := by
  have hmark : IsMark "!important".toList :=
    ⟨[], "important".toList, [], rfl, by simp, by decide, by simp⟩
  rw [show " !important".toList = [' '] ++ "!important".toList from rfl, ← List.append_assoc,
    splitImportance_append_of_isMark hmark]
  rw [trim_append_of_isBlank (List.all_eq_true.mp (by decide))]

end ResponsiveStyle.Style
