/-
# Numerals of 32 bits

A numeral that is read fits 32 bits (`fits32_of_int32?`), and a number that fits is read again from
its digits (`int32?_signedDigits`). A written number has a digit or a minus in front and no blank in
it.
-/
import ResponsiveStyle.Proofs.Text.Character
import ResponsiveStyle.Proofs.Text.Trim
import ResponsiveStyle.Text.Numeral

namespace ResponsiveStyle.Text

/-! ## Bounds -/

/-- A number is kept if it fits. -/
theorem checked32_eq_some_iff (n m : Int) :
    checked32 n = some m ↔ n = m ∧ fits32 m = true := by
  unfold checked32
  constructor
  · intro h
    split at h
    · rename_i hfits
      obtain rfl := Option.some.inj h
      exact ⟨rfl, hfits⟩
    · exact absurd h (by simp)
  · rintro ⟨rfl, hfits⟩
    rw [if_pos hfits]

/-- A numeral that is read fits. -/
theorem fits32_of_int32? {cs : List Char} {n : Int} (h : int32? cs = some n) :
    fits32 n = true := by
  obtain ⟨m, -, hm⟩ := Option.bind_eq_some_iff.mp h
  exact ((checked32_eq_some_iff m n).mp hm).2

/-! ## Written numbers -/

/-- The characters of a written number. -/
theorem of_mem_signedDigits {n : Int} {c : Char} (h : c ∈ signedDigits n) :
    c = '-' ∨ c.isDigit = true := by
  cases n with
  | ofNat n => exact .inr (isDigit_of_mem_digits h)
  | negSucc n =>
    rcases List.mem_cons.mp h with h | h
    · exact .inl h
    · exact .inr (isDigit_of_mem_digits h)

/-- A written number begins with one of its characters. -/
theorem exists_cons_signedDigits (n : Int) :
    ∃ c cs, signedDigits n = c :: cs ∧ (c = '-' ∨ c.isDigit = true) := by
  have hne : signedDigits n ≠ [] := by
    cases n with
    | ofNat n => exact digits_ne_nil n
    | negSucc n => exact List.cons_ne_nil '-' _
  obtain ⟨c, cs, hcs⟩ := List.exists_cons_of_ne_nil hne
  exact ⟨c, cs, hcs, of_mem_signedDigits (hcs ▸ List.mem_cons_self)⟩

/-- A written number has no blank. -/
theorem isBlank_of_mem_signedDigits {n : Int} {c : Char} (h : c ∈ signedDigits n) :
    isBlank c = false := by
  rcases of_mem_signedDigits h with rfl | hdigit
  · decide
  · exact isBlank_of_isDigit hdigit

/-- A written number has no slash. -/
theorem slash_not_mem_signedDigits (n : Int) : '/' ∉ signedDigits n := by
  intro hmem
  rcases of_mem_signedDigits hmem with hminus | hdigit
  · exact absurd hminus (by decide)
  · exact absurd hdigit (by decide)

/-- A written number is trimmed. -/
theorem trim_signedDigits (n : Int) : trim (signedDigits n) = signedDigits n :=
  trim_of_not_isBlank fun _ hc => isBlank_of_mem_signedDigits hc

/-- A text that begins like a written number is no word that begins with a letter. -/
theorem sameIgnoringCase_cons_eq_false {letter c : Char}
    (hletter : letter.toLower ≠ '-' ∧ letter.toLower.isDigit = false)
    (hc : c = '-' ∨ c.isDigit = true) (rest cs : List Char) :
    sameIgnoringCase (letter :: rest) (c :: cs) = false := by
  have hlower : c.toLower = c := by
    rcases hc with rfl | hdigit
    · rfl
    · exact toLower_of_isDigit hdigit
  unfold sameIgnoringCase
  rw [beq_eq_false_iff_ne]
  intro heq
  have hhead : letter.toLower = c.toLower := (List.cons.inj heq).1
  rw [hhead, hlower] at hletter
  rcases hc with hminus | hdigit
  · exact hletter.1 hminus
  · exact absurd hdigit (by simp [hletter.2])

/-- The digits of a natural number stand for it without a sign. -/
theorem signed?_digits (n : Nat) : signed? (digits n) = some (n : Int) := by
  obtain ⟨c, cs, hcs⟩ := List.exists_cons_of_ne_nil (digits_ne_nil n)
  have hdigit : c.isDigit = true := isDigit_of_mem_digits (hcs ▸ List.mem_cons_self)
  have hminus : c ≠ '-' := by
    rintro rfl
    exact absurd hdigit (by decide)
  have hplus : c ≠ '+' := by
    rintro rfl
    exact absurd hdigit (by decide)
  have hunsigned : unsigned? (digits n) = some n := by
    rw [← nat?_digits n, hcs]
    unfold unsigned?
    split
    · rename_i heq
      exact absurd (List.cons.inj heq).1 hplus
    · rfl
  unfold signed?
  split
  · rename_i heq
    exact absurd (List.cons.inj (hcs.symm.trans heq)).1 hminus
  · rw [hunsigned]
    rfl

/-- A text that is read as digits is not empty and has nothing else in it. -/
theorem nat?_eq_some_iff (cs : List Char) (n : Nat) :
    nat? cs = some n ↔ cs ≠ [] ∧ (∀ c ∈ cs, c.isDigit = true) ∧ ofDigits cs = n := by
  unfold nat?
  by_cases hcs : cs = [] ∨ ¬ cs.all Char.isDigit = true
  · rw [if_pos (by simpa [List.isEmpty_iff] using hcs)]
    simp only [reduceCtorEq, false_iff]
    rintro ⟨hne, hdigits, -⟩
    exact hcs.elim hne fun hall => hall (List.all_eq_true.mpr hdigits)
  · rw [if_neg (by simpa [List.isEmpty_iff] using hcs), Option.some_inj]
    rw [not_or, not_not, List.all_eq_true] at hcs
    exact ⟨fun heq => ⟨hcs.1, hcs.2, heq⟩, fun ⟨_, _, heq⟩ => heq⟩

/-- A signed numeral is digits, with a minus, a plus or nothing in front of them. -/
theorem of_signed?_eq_some {cs : List Char} {n : Int} (h : signed? cs = some n) :
    ∃ digits, digits ≠ [] ∧ (∀ c ∈ digits, c.isDigit = true) ∧
      (cs = '-' :: digits ∨ cs = digits ∨ cs = '+' :: digits ∧ n = ofDigits digits) := by
  unfold signed? at h
  split at h
  · rename_i digits
    obtain ⟨_, hk, -⟩ := Option.map_eq_some_iff.mp h
    obtain ⟨k, hk, -⟩ := Option.bind_eq_some_iff.mp hk
    obtain ⟨hne, hdigits, -⟩ := (nat?_eq_some_iff _ _).mp hk
    exact ⟨digits, hne, hdigits, .inl rfl⟩
  · obtain ⟨k, hk, rfl⟩ := Option.map_eq_some_iff.mp h
    unfold unsigned? at hk
    split at hk
    · rename_i digits _
      obtain ⟨hne, hdigits, rfl⟩ := (nat?_eq_some_iff _ _).mp hk
      exact ⟨digits, hne, hdigits, .inr (.inr ⟨rfl, rfl⟩)⟩
    · obtain ⟨hne, hdigits, rfl⟩ := (nat?_eq_some_iff _ _).mp hk
      exact ⟨cs, hne, hdigits, .inr (.inl rfl)⟩

/-- Digits stand for a number of 64 bits exactly if it is not too large. -/
theorem size?_eq_of_isDigit {cs : List Char} (hne : cs ≠ []) (h : ∀ c ∈ cs, c.isDigit = true) :
    size? cs = if ofDigits cs ≤ maxSize then some (ofDigits cs) else none := by
  have hnat : nat? cs = some (ofDigits cs) := (nat?_eq_some_iff _ _).mpr ⟨hne, h, rfl⟩
  have hunsigned : unsigned? cs = nat? cs := by
    unfold unsigned?
    split
    · exact absurd (h '+' List.mem_cons_self) (by decide)
    · rfl
  unfold size?
  rw [hunsigned, hnat, Option.bind_some]

/-- A number is read again from its digits. -/
theorem signed?_signedDigits (n : Int) : signed? (signedDigits n) = some n := by
  cases n with
  | ofNat n => exact signed?_digits n
  | negSucc n =>
    have hminus : ∀ cs : List Char, signed? ('-' :: cs) = (nat? cs).map fun m => -(m : Int) :=
      fun cs => rfl
    rw [signedDigits, hminus, nat?_digits]
    rfl

/-- A number of 32 bits is read again from its digits. -/
theorem int32?_signedDigits {n : Int} (h : fits32 n = true) : int32? (signedDigits n) = some n := by
  unfold int32?
  rw [signed?_signedDigits, Option.bind_some, checked32_eq_some_iff]
  exact ⟨rfl, h⟩

end ResponsiveStyle.Text
