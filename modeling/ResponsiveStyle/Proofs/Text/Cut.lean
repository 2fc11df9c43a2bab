/-
# Cutting texts

What is cut off a text and what is left make up the text again (`after?_eq_some_iff`,
`before?_eq_some_iff`); a text is split behind its first piece, and then split on
(`splitAt_append_cons`), so that no piece has the separator in it (`not_mem_of_mem_splitAt`).
-/
import ResponsiveStyle.Text.Blank

namespace ResponsiveStyle.Text

/-! ## Starts and ends -/

/-- A text begins with `start` if it is `start` and what follows it. -/
theorem after?_eq_some_iff (start cs rest : List Char) :
    after? start cs = some rest ↔ cs = start ++ rest := by
  induction start generalizing cs with
  | nil => simp [after?]
  | cons s start ih =>
    cases cs with
    | nil => simp [after?]
    | cons c cs =>
      unfold after?
      by_cases hs : s = c
      · subst hs
        simp [ih]
      · simp [hs, Ne.symm hs]

/-- What follows the start of a text. -/
theorem after?_append (start rest : List Char) : after? start (start ++ rest) = some rest :=
  (after?_eq_some_iff start (start ++ rest) rest).mpr rfl

/-- A text that begins with another character does not begin with `start`. -/
theorem after?_cons_of_ne {s c : Char} (h : s ≠ c) (start cs : List Char) :
    after? (s :: start) (c :: cs) = none := by
  unfold after?
  rw [if_neg (by simpa using h)]

/-- A text ends with `ending` if it is what precedes it and `ending`. -/
theorem before?_eq_some_iff (ending cs rest : List Char) :
    before? ending cs = some rest ↔ cs = rest ++ ending := by
  unfold before?
  rw [Option.map_eq_some_iff]
  constructor
  · rintro ⟨backwards, hafter, rfl⟩
    have hcs := (after?_eq_some_iff _ _ _).mp hafter
    rw [← List.reverse_reverse cs, hcs, List.reverse_append, List.reverse_reverse]
  · rintro rfl
    refine ⟨rest.reverse, ?_, List.reverse_reverse rest⟩
    rw [List.reverse_append]
    exact after?_append _ _

/-! ## Lines -/

/-- There is always a piece. -/
theorem splitAt_ne_nil (sep : Char) (cs : List Char) : splitAt sep cs ≠ [] := by
  cases cs with
  | nil => simp [splitAt]
  | cons c cs =>
    unfold splitAt
    split
    · simp
    · split <;> simp

/-- A text is split at a separator into the pieces before and behind it. -/
theorem splitAt_append (sep : Char) (cs rest : List Char) :
    splitAt sep (cs ++ sep :: rest) = splitAt sep cs ++ splitAt sep rest := by
  induction cs with
  | nil =>
    obtain ⟨piece, pieces, hsplit⟩ := List.exists_cons_of_ne_nil (splitAt_ne_nil sep rest)
    simp [splitAt, hsplit]
  | cons c cs ih =>
    obtain ⟨piece, pieces, hsplit⟩ := List.exists_cons_of_ne_nil (splitAt_ne_nil sep cs)
    rw [List.cons_append, splitAt, ih, splitAt, hsplit, List.cons_append]
    simp only
    split
    · rfl
    · rfl

/-- A text without the separator is its only piece. -/
theorem splitAt_of_not_mem {sep : Char} {l : List Char} (h : sep ∉ l) : splitAt sep l = [l] := by
  induction l with
  | nil => rfl
  | cons c l ih =>
    have hc : c ≠ sep := fun hcs => h (hcs ▸ List.mem_cons_self)
    have hl : sep ∉ l := fun hmem => h (List.mem_cons_of_mem c hmem)
    rw [splitAt, ih hl]
    simp [hc]

/-- A text is split behind its first piece, and then split on. -/
theorem splitAt_append_cons {sep : Char} {l : List Char} (h : sep ∉ l) (rest : List Char) :
    splitAt sep (l ++ sep :: rest) = l :: splitAt sep rest := by
  rw [splitAt_append, splitAt_of_not_mem h, List.singleton_append]

/-- Two texts that are cut at their first separators are the same if they have the same pieces. -/
theorem append_cons_inj {sep : Char} {l l' rest rest' : List Char} (h : sep ∉ l) (h' : sep ∉ l')
    (heq : l ++ sep :: rest = l' ++ sep :: rest') : l = l' ∧ rest = rest' := by
  have hsplit := congrArg (splitAt sep) heq
  rw [splitAt_append_cons h, splitAt_append_cons h'] at hsplit
  obtain rfl := (List.cons.inj hsplit).1
  exact ⟨rfl, (List.cons.inj (List.append_cancel_left heq)).2⟩

/-- No piece has the separator in it. -/
theorem not_mem_of_mem_splitAt {sep : Char} {cs piece : List Char} (h : piece ∈ splitAt sep cs) :
    sep ∉ piece := by
  induction cs generalizing piece with
  | nil =>
    rw [splitAt, List.mem_singleton] at h
    rw [h]
    exact List.not_mem_nil
  | cons c cs ih =>
    obtain ⟨first, others, hsplit⟩ := List.exists_cons_of_ne_nil (splitAt_ne_nil sep cs)
    rw [hsplit] at ih
    simp only [splitAt, hsplit] at h
    split at h
    · rcases List.mem_cons.mp h with rfl | h
      · exact List.not_mem_nil
      · exact ih h
    · rename_i hne
      rcases List.mem_cons.mp h with rfl | h
      · intro hmem
        rcases List.mem_cons.mp hmem with rfl | hmem
        · exact hne (beq_self_eq_true _)
        · exact ih List.mem_cons_self hmem
      · exact ih (List.mem_cons_of_mem first h)

/-! ## Joining -/

/-- The characters of joined texts. -/
theorem toList_joined (sep : String) (parts : List String) :
    (joined sep parts).toList = List.intercalate sep.toList (parts.map String.toList) :=
  String.toList_ofList

/-- One text is joined with nothing. -/
@[simp] theorem joined_singleton (sep s : String) : joined sep [s] = s := by
  apply String.toList_inj.mp
  rw [toList_joined, List.map_singleton, List.intercalate_singleton]

/-- The joined texts of a list that goes on. -/
theorem joined_cons_cons (sep s t : String) (parts : List String) :
    joined sep (s :: t :: parts) = s ++ sep ++ joined sep (t :: parts) := by
  apply String.toList_inj.mp
  rw [String.toList_append, String.toList_append, toList_joined, toList_joined, List.map_cons,
    List.map_cons, List.intercalate_cons_cons]

/-- Joined texts are the first one and the others, each behind a separator. -/
theorem toList_joined_cons (sep s : String) (parts : List String) :
    (joined sep (s :: parts)).toList
      = s.toList ++ parts.flatMap fun t => (sep ++ t).toList := by
  induction parts generalizing s with
  | nil => simp
  | cons t parts ih =>
    rw [joined_cons_cons, String.toList_append, String.toList_append, ih, List.flatMap_cons,
      String.toList_append, List.append_assoc, List.append_assoc]

/-- Joining adds the characters of the separator only. -/
theorem count_intercalate {c : Char} {sep : List Char} (h : c ∉ sep) (parts : List (List Char)) :
    (List.intercalate sep parts).count c = parts.flatten.count c := by
  induction parts with
  | nil => rfl
  | cons part parts ih =>
    cases parts with
    | nil => rw [List.intercalate_singleton, List.flatten_singleton]
    | cons next parts =>
      rw [List.intercalate_cons_cons, List.count_append, List.count_append, ih,
        List.count_eq_zero_of_not_mem h, Nat.add_zero, ← List.count_append, ← List.flatten_cons]

end ResponsiveStyle.Text
