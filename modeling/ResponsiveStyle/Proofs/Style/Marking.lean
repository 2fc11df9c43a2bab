/-
# The place of the mark of importance

The mark at the end of a text is looked for in a copy of the text in small letters, and its place is
counted there in bytes (`markPlace?`). Then the text itself is cut at this place (`splitByOffset?`).
No character takes more or fewer bytes in the copy, and what is a mark there is one in the text, so
that the place is never inside of a character and the cut is the one in front of the mark
(`splitByOffset?_eq`).

What is parted from a text is what a document folds into it: a text behind which the mark is written
gives the text and the flag, and a text without a mark gives itself (`splitImportance_exact`).
-/
import ResponsiveStyle.Proofs.Style.Declaration
import ResponsiveStyle.Proofs.Text.Bytes

namespace ResponsiveStyle.Style

open Text (trim trimEnd trimmed trimmedEnd isBlank lower lowered before? frontTo?
  before?_eq_some_iff frontTo?_eq_some_iff)

/-! ## Marks in small letters -/

/-- A text with a mark of importance at its end. -/
def IsMarked (cs : List Char) : Prop := ∃ body mark, cs = body ++ mark ∧ IsMark mark

/-- Blanks are blanks in small letters. -/
theorem all_isBlank_lower_iff (cs : List Char) :
    (∀ c ∈ lower cs, isBlank c = true) ↔ ∀ c ∈ cs, isBlank c = true := by
  unfold lower
  rw [List.forall_mem_map]
  simp only [Text.isBlank_toLower]

/-- What is a mark in small letters is a mark. -/
theorem isMark_of_lower_eq {cs gap : List Char} (h : lower cs = '!' :: (gap ++ "important".toList))
    (hgap : ∀ c ∈ gap, isBlank c = true) : IsMark cs := by
  obtain ⟨c, rest, rfl, hc, hrest⟩ := List.map_eq_cons_iff.mp h
  obtain ⟨g, word, rfl, rfl, hword⟩ := List.map_eq_append_iff.mp hrest
  obtain rfl : c = '!' := Text.eq_of_toLower_eq (by decide) hc
  exact ⟨g, word, [], by simp, (all_isBlank_lower_iff g).mp hgap, hword, by simp⟩

/-- Blanks behind a mark belong to it. -/
theorem IsMark.append {mark back : List Char} (h : IsMark mark)
    (hback : ∀ c ∈ back, isBlank c = true) :
    IsMark (mark ++ back) := by
  obtain ⟨gap, word, tail, rfl, hgap, hword, htail⟩ := h
  refine ⟨gap, word, tail ++ back, by simp, hgap, hword, ?_⟩
  exact List.forall_mem_append.mpr ⟨htail, hback⟩

/-! ## The place of the mark -/

/-- How many bytes are in front of the mark of importance in a text in small letters that ends with
its word. -/
def markPlace? (copy : String) : Option Nat :=
  ((before? "important".toList copy.toList).map trimEnd).bind fun front =>
    if front.getLast? = some '!' then some ((String.ofList front).utf8ByteSize - 1) else none

/-- The mark is an exclamation mark and its word, with blanks between the two. -/
theorem markPlace?_eq_some_iff (copy : String) (bytes : Nat) :
    markPlace? copy = some bytes ↔
      ∃ front gap, copy.toList = front ++ '!' :: (gap ++ "important".toList) ∧
        (∀ c ∈ gap, isBlank c = true) ∧ (String.ofList front).utf8ByteSize = bytes := by
  -- the exclamation mark is the last byte of what is left in front of the blanks
  have hbytes : ∀ front : List Char, (String.ofList (front ++ ['!'])).utf8ByteSize - 1
      = (String.ofList front).utf8ByteSize := by
    intro front
    have hbang : (String.ofList ['!']).utf8ByteSize = 1 := by decide
    rw [String.ofList_append, String.utf8ByteSize_append, hbang, Nat.add_sub_cancel]
  unfold markPlace?
  rw [Option.bind_eq_some_iff]
  constructor
  · rintro ⟨kept, hkept, hplace⟩
    obtain ⟨whole, hwhole, rfl⟩ := Option.map_eq_some_iff.mp hkept
    obtain ⟨hlast, hplace⟩ := Option.ite_none_right_eq_some.mp hplace
    obtain ⟨front, hfront⟩ := List.getLast?_eq_some_iff.mp hlast
    obtain ⟨gap, hgap, hcut⟩ := Text.exists_trimEnd_append whole
    refine ⟨front, gap, ?_, hgap, ?_⟩
    · rw [(before?_eq_some_iff _ _ _).mp hwhole, hcut, hfront]
      simp
    · rw [← hbytes, ← hfront]
      exact Option.some.inj hplace
  · rintro ⟨front, gap, hcopy, hgap, rfl⟩
    have htrim : trimEnd (front ++ '!' :: gap) = front ++ ['!'] := by
      rw [← List.singleton_append, ← List.append_assoc, Text.trimEnd_append_of_isBlank hgap,
        Text.trimEnd_eq_self_iff]
      simp [show isBlank '!' = false by decide]
    refine ⟨front ++ ['!'], ?_, ?_⟩
    · rw [hcopy, Option.map_eq_some_iff]
      exact ⟨front ++ '!' :: gap, (before?_eq_some_iff _ _ _).mpr (by simp), htrim⟩
    · rw [if_pos (by simp), hbytes]

/-- A place found in the copy is one in the text, and the text has a mark behind it. -/
theorem exists_isMark_of_markPlace? {body : String} {bytes : Nat}
    (h : markPlace? (lowered body) = some bytes) :
    ∃ front mark, frontTo? body bytes = some front ∧ body = front ++ mark ∧ IsMark mark.toList := by
  obtain ⟨copy, gap, hcopy, hgap, hbytes⟩ := (markPlace?_eq_some_iff _ _).mp h
  have hcut : frontTo? (lowered body) bytes = some (String.ofList copy) := by
    rw [frontTo?_eq_some_iff]
    refine ⟨String.ofList ('!' :: (gap ++ "important".toList)), ?_, hbytes⟩
    rw [← String.ofList_append, ← hcopy, String.ofList_toList]
  rw [Text.frontTo?_lowered, Option.map_eq_some_iff] at hcut
  obtain ⟨front, hfront, hlower⟩ := hcut
  obtain ⟨mark, hbody, -⟩ := (frontTo?_eq_some_iff _ _ _).mp hfront
  rw [hbody, Text.lowered_append, String.toList_append, hlower, String.toList_ofList,
    List.append_cancel_left_eq, Text.toList_lowered] at hcopy
  exact ⟨front, mark, hfront, hbody, isMark_of_lower_eq hcopy hgap⟩

/-- In the copy of a text with a mark a place is found. -/
theorem isSome_markPlace?_of_isMarked {s : String} (h : IsMarked s.toList) :
    (markPlace? (lowered (trimmedEnd s))).isSome = true := by
  obtain ⟨body, mark, hs, gap, word, tail, rfl, hgap, hword, htail⟩ := h
  obtain ⟨c, others, hreverse, hc⟩ := exists_cons_of_lower_eq hword
  have hlast : word = others.reverse ++ [c] := by
    rw [← List.reverse_cons, ← hreverse, List.reverse_reverse]
  have htrim : trimEnd s.toList = body ++ '!' :: (gap ++ word) := by
    have hcut : s.toList = (body ++ '!' :: (gap ++ word)) ++ tail := by
      rw [hs]
      simp
    rw [hcut, Text.trimEnd_append_of_isBlank htail, Text.trimEnd_eq_self_iff, hlast]
    intro d hd
    rw [← List.append_assoc, ← List.cons_append, ← List.append_assoc, List.getLast?_concat] at hd
    rwa [← Option.some.inj hd]
  rw [Option.isSome_iff_exists]
  refine ⟨_, (markPlace?_eq_some_iff _ _).mpr ⟨lower body, lower gap, ?_,
    (all_isBlank_lower_iff gap).mpr hgap, rfl⟩⟩
  unfold trimmedEnd
  rw [Text.toList_lowered, String.toList_ofList, htrim, ← hword]
  simp [lower]

/-! ## The split at the place -/

/-- The trimmed text without the mark of importance at its end, and whether the mark was there: the
place of the mark is the one in a copy in small letters. There is no result if the text cannot be
cut at this place. -/
def splitByOffset? (s : String) : Option (String × Bool) :=
  let body := trimmedEnd s
  match markPlace? (lowered body) with
  | some bytes => (frontTo? body bytes).map fun front => (trimmed front, true)
  | none => some (trimmed body, false)

/-- The text can always be cut at the place of the mark, and the two parts are those of the text. -/
theorem splitByOffset?_eq (s : String) :
    (splitByOffset? s).map (fun parts => (parts.1.toList, parts.2))
      = some (splitImportance s.toList) := by
  obtain ⟨back, hback, hs⟩ := Text.exists_trimEnd_append s.toList
  unfold splitByOffset?
  cases hplace : markPlace? (lowered (trimmedEnd s)) with
  | some bytes =>
    obtain ⟨front, mark, hfront, hbody, hmark⟩ := exists_isMark_of_markPlace? hplace
    have hcut : s.toList = front.toList ++ (mark.toList ++ back) := by
      rw [← List.append_assoc, ← String.toList_append, ← hbody]
      unfold trimmedEnd
      rw [String.toList_ofList, ← hs]
    simp only [hplace, hfront]
    rw [hcut, splitImportance_append_of_isMark (hmark.append hback), Option.map_some,
      Option.map_some, toList_trimmed]
  | none =>
    have hflag : (splitImportance s.toList).2 = false := by
      rw [Bool.eq_false_iff, ne_eq, snd_splitImportance_iff]
      intro hmarked
      have hsome := isSome_markPlace?_of_isMarked hmarked
      rw [hplace] at hsome
      exact absurd hsome (by simp)
    have htrim : trim (trimEnd s.toList ++ back) = trim (trimEnd s.toList) :=
      Text.trim_append_of_isBlank hback
    rw [← hs] at htrim
    simp only [hplace, Option.map_some]
    rw [splitImportance_of_unmarked hflag, toList_trimmed, htrim]
    unfold trimmedEnd
    rw [String.toList_ofList]

/-! ## Parting and folding -/

/-- A document's text under a name that has none is no declaration. -/
theorem Declaration.ofJson?_of_isBlankName {property : String} (h : isBlankName property = true)
    (j : Json) :
    ofJson? property j = none := by
  unfold ofJson?
  rw [if_pos h]

/-- A text with a mark behind it is what is in front of the mark, trimmed, and the flag; any other
text is the text itself, trimmed, without the flag. The place of the mark can be found in a copy in
small letters. A trimmed text that is not absent comes back with the flag from the value that a
document has for it, and without the flag if it has no mark of its own. -/
theorem splitImportance_exact (s : String) :
    ((∀ body mark, s.toList = body ++ mark → IsMark mark →
        splitImportance s.toList = (trim body, true)) ∧
      (¬ IsMarked s.toList → splitImportance s.toList = (trim s.toList, false))) ∧
    (splitByOffset? s).map (fun parts => (parts.1.toList, parts.2))
      = some (splitImportance s.toList) ∧
    (trimmed s = s → isAbsent s = false → ∀ property name : String,
      Declaration.ofJson? name (Declaration.toJson ⟨property, .text s, true⟩)
          = (if isBlankName name then none else some ⟨name, .text s, true⟩) ∧
        (¬ IsMarked s.toList →
          Declaration.ofJson? name (Declaration.toJson ⟨property, .text s, false⟩)
          = if isBlankName name then none else some ⟨name, .text s, false⟩)) := by
  have hunmarked : ¬ IsMarked s.toList → (splitImportance s.toList).2 = false := by
    intro hmark
    rw [Bool.eq_false_iff, ne_eq, snd_splitImportance_iff]
    exact hmark
  refine ⟨⟨?_, fun hmark => splitImportance_of_unmarked (hunmarked hmark)⟩, splitByOffset?_eq s, ?_⟩
  · intro body mark hs hmark
    rw [hs, splitImportance_append_of_isMark hmark]
  · intro htrim hpresent property name
    cases hname : isBlankName name with
    | true => exact ⟨Declaration.ofJson?_of_isBlankName hname _,
        fun _ => Declaration.ofJson?_of_isBlankName hname _⟩
    | false =>
      refine ⟨?_, fun hmark => ?_⟩
      · have htext : WellFormedText true s := ⟨htrim, hpresent, fun h => absurd h (by simp)⟩
        rw [Declaration.toJson_of_important rfl, Declaration.ofJson?_text hname]
        exact Declaration.ofText?_withMark htext
      · have htext : WellFormedText false s := ⟨htrim, hpresent, fun _ => hunmarked hmark⟩
        exact (Declaration.ofJson?_text hname s).trans (Declaration.ofText?_of_unmarked htext)

/-- A mark behind characters of several bytes with a wide blank at the end, a flagged text with a
mark of its own, and a word that only begins like the mark. -/
theorem splitImportance_exact_wide :
    splitImportance "größe ! IMPORTANT\u3000".toList = ("größe".toList, true) ∧
      (splitByOffset? "größe ! IMPORTANT\u3000").map (fun parts => (parts.1.toList, parts.2))
        = some ("größe".toList, true) ∧
      Declaration.ofJson? "Color" (Declaration.toJson ⟨"color", .text "red !important", true⟩)
        = some ⟨"Color", .text "red !important", true⟩ ∧
      Declaration.ofJson? "color" (Declaration.toJson ⟨"color", .text "größe !importante", false⟩)
        = some ⟨"color", .text "größe !importante", false⟩ := by
  have hmark : IsMark "! IMPORTANT\u3000".toList :=
    ⟨[' '], "IMPORTANT".toList, ['\u3000'], by decide, List.all_eq_true.mp (by decide), by decide,
      List.all_eq_true.mp (by decide)⟩
  have hnone : ¬ IsMarked "größe !importante".toList := by
    unfold IsMarked
    rw [← snd_splitImportance_iff]
    decide
  obtain ⟨⟨hsplit, -⟩, hoffset, -⟩ := splitImportance_exact "größe ! IMPORTANT\u3000"
  obtain ⟨-, -, hflagged⟩ := splitImportance_exact "red !important"
  obtain ⟨-, -, hplain⟩ := splitImportance_exact "größe !importante"
  have hparts : splitImportance "größe ! IMPORTANT\u3000".toList = ("größe".toList, true) :=
    (hsplit "größe ".toList "! IMPORTANT\u3000".toList (by decide) hmark).trans (by decide)
  exact ⟨hparts, hoffset.trans (congrArg some hparts),
    (hflagged (by decide) (by decide) "color" "Color").1,
    (hplain (by decide) (by decide) "color" "color").2 hnone⟩

end ResponsiveStyle.Style
