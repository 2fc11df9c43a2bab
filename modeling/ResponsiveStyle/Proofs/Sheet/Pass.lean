/-
# What a pass collects

A pass has seen what it has collected, and nothing else (`Coherent`). Of texts that are pushed to it
one by one it keeps those that are not blank, without the blanks at their ends, and each of them
once (`fragments_pushAll`). Its style sheet is blank only if there is no fragment
(`isBlankText_css`).
-/
import ResponsiveStyle.Proofs.Text.Cut
import ResponsiveStyle.Proofs.Text.Trim
import ResponsiveStyle.Sheet.Pass

namespace ResponsiveStyle.Sheet

open Text (isBlankText trimmedEnd joined)

/-- The texts that are not blank, without the blanks at their ends. -/
def contents (texts : List String) : List String :=
  (texts.filter fun text => !isBlankText text).map trimmedEnd

theorem contents_cons (text : String) (texts : List String) :
    contents (text :: texts)
      = if isBlankText text then contents texts else trimmedEnd text :: contents texts := by
  unfold contents
  rw [List.filter_cons]
  cases isBlankText text <;> rfl

namespace Pass

/-- A pass has seen its fragments and nothing else. -/
def Coherent (p : Pass) : Prop := ∀ text, text ∈ p.seen ↔ text ∈ p.fragments

/-- A pass has no blank fragment. -/
def Filled (p : Pass) : Prop := ∀ text ∈ p.fragments, isBlankText text = false

theorem coherent_empty : empty.Coherent := fun _ => Iff.rfl

theorem filled_empty : empty.Filled := fun _ h => absurd h List.not_mem_nil

/-! ## One text -/

/-- A blank text is not collected. -/
theorem push_of_isBlankText (p : Pass) {text : String} (h : isBlankText text = true) :
    p.push text = p := by
  unfold push admits
  simp [h]

/-- A text that was seen is not collected again. -/
theorem push_of_mem {p : Pass} {text : String} (h : trimmedEnd text ∈ p.seen) :
    p.push text = p := by
  unfold push admits
  simp [h]

/-- Any other text is collected and remembered. -/
theorem push_of_not_mem {p : Pass} {text : String} (hblank : isBlankText text = false)
    (h : trimmedEnd text ∉ p.seen) :
    p.push text = ⟨p.fragments ++ [trimmedEnd text], trimmedEnd text :: p.seen⟩ := by
  unfold push admits
  simp [hblank, h]

/-- There is one fragment more exactly if the text was admitted. -/
theorem size_push (p : Pass) (text : String) :
    (p.push text).size = p.size + if p.admits text then 1 else 0 := by
  unfold push size
  cases p.admits text <;> simp

theorem Coherent.push {p : Pass} (hp : p.Coherent) (text : String) : (p.push text).Coherent := by
  by_cases hseen : trimmedEnd text ∈ p.seen
  · rwa [push_of_mem hseen]
  cases hblank : isBlankText text with
  | true => rwa [push_of_isBlankText p hblank]
  | false =>
    rw [push_of_not_mem hblank hseen]
    intro other
    rw [List.mem_cons, List.mem_append, List.mem_singleton, hp other, or_comm]

theorem Filled.push {p : Pass} (hp : p.Filled) (text : String) : (p.push text).Filled := by
  by_cases hseen : trimmedEnd text ∈ p.seen
  · rwa [push_of_mem hseen]
  cases hblank : isBlankText text with
  | true => rwa [push_of_isBlankText p hblank]
  | false =>
    rw [push_of_not_mem hblank hseen]
    intro other hother
    rcases List.mem_append.mp hother with hother | hother
    · exact hp other hother
    · rw [List.mem_singleton.mp hother, Text.isBlankText_trimmedEnd]
      exact hblank

/-! ## Texts one by one -/

/-- A pass with texts added in order. -/
def pushAll (p : Pass) (texts : List String) : Pass := texts.foldl push p

theorem pushAll_append (p : Pass) (texts texts' : List String) :
    p.pushAll (texts ++ texts') = (p.pushAll texts).pushAll texts' :=
  List.foldl_append

theorem Filled.pushAll {p : Pass} (hp : p.Filled) (texts : List String) :
    (p.pushAll texts).Filled := by
  induction texts generalizing p with
  | nil => exact hp
  | cons text texts ih => exact ih (hp.push text)

theorem Coherent.pushAll {p : Pass} (hp : p.Coherent) (texts : List String) :
    (p.pushAll texts).Coherent := by
  induction texts generalizing p with
  | nil => exact hp
  | cons text texts ih => exact ih (hp.push text)

/-- Of texts that are pushed the first ones of a content are kept, unless it is there already. -/
theorem fragments_pushAll {p : Pass} (hp : p.Coherent) (texts : List String) :
    (p.pushAll texts).fragments
      = p.fragments ++ ((contents texts).removeAll p.fragments).eraseDups := by
  induction texts generalizing p with
  | nil => simp [pushAll, contents]
  | cons text texts ih =>
    have hpush := ih (hp.push text)
    show ((p.push text).pushAll texts).fragments = _
    rw [contents_cons]
    cases hblank : isBlankText text with
    | true =>
      rw [push_of_isBlankText p hblank] at hpush ⊢
      exact hpush
    | false =>
      rw [if_neg Bool.false_ne_true, List.cons_removeAll]
      by_cases hseen : trimmedEnd text ∈ p.seen
      · rw [push_of_mem hseen] at hpush ⊢
        rw [if_neg (by simpa using (hp _).mp hseen)]
        exact hpush
      · have hnew : trimmedEnd text ∉ p.fragments := fun h => hseen ((hp _).mpr h)
        -- later texts of this content are left out by the pass as they are by `eraseDups`
        rw [if_pos (by simpa using hnew), List.eraseDups_cons, hpush,
          push_of_not_mem hblank hseen, List.append_assoc, List.singleton_append]
        unfold List.removeAll
        rw [List.filter_filter]
        congr 3
        refine List.filter_congr fun other _ => ?_
        rw [Bool.eq_iff_iff]
        simp [and_comm]

example : (empty.pushAll ["a {}\n", " ", "b {}", "a {}"]).fragments = ["a {}", "b {}"] := by decide

/-- The contents of texts that are pushed are collected. -/
theorem contents_subset_pushAll {p : Pass} (hp : p.Coherent) (texts : List String) :
    contents texts ⊆ (p.pushAll texts).fragments := by
  intro text htext
  rw [fragments_pushAll hp, List.mem_append, List.mem_eraseDups]
  by_cases hold : text ∈ p.fragments
  · exact .inl hold
  · exact .inr (by simp [List.removeAll, htext, hold])

/-- Texts whose contents are there already are not collected again. -/
theorem pushAll_of_subset {p : Pass} (hp : p.Coherent) {texts : List String}
    (h : contents texts ⊆ p.fragments) : p.pushAll texts = p := by
  induction texts with
  | nil => rfl
  | cons text texts ih =>
    rw [contents_cons] at h
    have hpush : p.push text = p := by
      cases hblank : isBlankText text with
      | true => exact push_of_isBlankText p hblank
      | false =>
        rw [hblank, if_neg Bool.false_ne_true, List.cons_subset] at h
        exact push_of_mem ((hp _).mpr h.1)
    have hothers : contents texts ⊆ p.fragments := by
      split at h
      · exact h
      · exact (List.cons_subset.mp h).2
    show (p.push text).pushAll texts = p
    rw [hpush]
    exact ih hothers

/-! ## The style sheet -/

/-- A style sheet is blank only if there is no fragment. -/
theorem isBlankText_css {p : Pass} (hp : p.Filled) :
    isBlankText p.css = p.fragments.isEmpty := by
  unfold css
  cases hfragments : p.fragments with
  | nil => rfl
  | cons text texts =>
    have htext : isBlankText text = false := hp text (by rw [hfragments]; exact List.mem_cons_self)
    unfold isBlankText at htext ⊢
    simp only [List.isEmpty_cons, Bool.false_eq_true, if_false, String.toList_append,
      Text.toList_joined_cons, List.all_append, htext, Bool.false_and]

end Pass

end ResponsiveStyle.Sheet
