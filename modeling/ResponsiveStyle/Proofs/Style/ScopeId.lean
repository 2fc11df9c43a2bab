/-
# Valid scope ids

Whatever is left of a text is a valid scope id, a fresh one is valid, and a valid one is left as it
is (`sanitize?_of_valid`).
-/
import ResponsiveStyle.Proofs.Text.Hexadecimal
import ResponsiveStyle.Style.ScopeId

namespace ResponsiveStyle.Style.ScopeId

open Text (hexDigits)

/-- From one to 64 characters of scope ids. -/
structure Valid (id : String) : Prop where
  nonempty : 1 ≤ id.length
  bounded : id.length ≤ maxLength
  characters : ∀ c ∈ id.toList, isIdChar c = true

/-! ## Ids of texts -/

/-- What is left of a text is a valid scope id. -/
theorem valid_of_sanitize? {raw id : String} (h : sanitize? raw = some id) : Valid id := by
  unfold sanitize? at h
  simp only at h
  split at h
  · exact absurd h (by simp)
  · rename_i hne
    obtain rfl := Option.some.inj h
    refine ⟨?_, ?_, ?_⟩
    · rw [String.length_ofList]
      exact List.length_pos_iff.mpr (by simpa using hne)
    · rw [String.length_ofList]
      exact List.length_take_le _ _
    · intro c hc
      rw [String.toList_ofList] at hc
      exact (List.mem_filter.mp (List.mem_of_mem_take hc)).2

/-- A valid scope id is left as it is. -/
theorem sanitize?_of_valid {id : String} (h : Valid id) : sanitize? id = some id := by
  have hfilter : id.toList.filter isIdChar = id.toList := List.filter_eq_self.mpr h.characters
  have htake : id.toList.take maxLength = id.toList :=
    List.take_of_length_le (by rw [String.length_toList]; exact h.bounded)
  have hne : id.toList.isEmpty = false := by
    rw [List.isEmpty_eq_false_iff, ← List.length_pos_iff, String.length_toList]
    exact h.nonempty
  unfold sanitize?
  simp only [hfilter, htake, hne, Bool.false_eq_true, if_false, String.ofList_toList]

/-! ## Fresh ids -/

/-- A hexadecimal digit of a written number is a character of scope ids. -/
theorem isIdChar_of_mem_hexDigits {width n : Nat} {c : Char} (h : c ∈ hexDigits width n) :
    isIdChar c = true :=
  Text.of_mem_hexDigits (P := fun c => isIdChar c = true) (by decide) h

/-- A fresh scope id is valid. -/
theorem valid_fresh (entropy : Nat) : Valid (fresh entropy) := by
  have hsize : (fresh entropy).length = 16 := by
    unfold fresh
    rw [String.length_ofList, List.length_append, Text.length_hexDigits]
    rfl
  refine ⟨by omega, by rw [hsize]; decide, ?_⟩
  have hstart : ∀ c ∈ "cst-".toList, isIdChar c = true := List.all_eq_true.mp (by decide)
  intro c hc
  unfold fresh at hc
  rw [String.toList_ofList] at hc
  rcases List.mem_append.mp hc with hc | hc
  · exact hstart c hc
  · exact isIdChar_of_mem_hexDigits hc

end ResponsiveStyle.Style.ScopeId
