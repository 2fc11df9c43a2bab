/-
# Hexadecimal digits

A number written with a width has as many digits (`length_hexDigits`), and each of them is one of
the sixteen lower-case ones, so what holds of these holds of all digits (`of_mem_hexDigits`).
-/
import ResponsiveStyle.Text.Numeral

namespace ResponsiveStyle.Text

/-- The last hexadecimal digits are as many as asked for. -/
theorem length_hexDigits (width n : Nat) : (hexDigits width n).length = width := by
  induction width generalizing n with
  | zero => rfl
  | succ width ih =>
    unfold hexDigits
    rw [List.length_append, ih, List.length_singleton]

/-- A digit depends on the remainder alone, of which there are sixteen. -/
theorem of_hexDigit {P : Char → Prop} (h : ∀ k : Fin 16, P (hexDigit k.val)) (n : Nat) :
    P (hexDigit n) := by
  have hlt : n % 16 < 16 := Nat.mod_lt _ (by decide)
  have hmod : hexDigit n = hexDigit (n % 16) := by
    unfold hexDigit
    rw [Nat.mod_mod]
  rw [hmod]
  exact h ⟨n % 16, hlt⟩

/-- What holds of the sixteen digits holds of every digit of a written number. -/
theorem of_mem_hexDigits {P : Char → Prop} (h : ∀ k : Fin 16, P (hexDigit k.val)) {width n : Nat}
    {c : Char} (hc : c ∈ hexDigits width n) : P c := by
  induction width generalizing n with
  | zero => exact absurd hc List.not_mem_nil
  | succ width ih =>
    unfold hexDigits at hc
    rcases List.mem_append.mp hc with hc | hc
    · exact ih hc
    · rw [List.mem_singleton.mp hc]
      exact of_hexDigit h n

end ResponsiveStyle.Text
