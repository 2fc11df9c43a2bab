/-!
# Numerals

Decimal numerals of natural numbers and integers, and their hexadecimal digits.

* `digits` writes a natural number in base ten, `ofDigits` reads it back (`ofDigits_digits`).
* `nat?` reads a nonempty run of digits, `unsigned?` allows a plus in front, `signed?` either sign.
* `int32?` reads a signed numeral that fits 32 bits, `size?` an unsigned one that fits 64 bits. The
  bounds are checked when the value is known, so leading zeros never matter.
-/

namespace ResponsiveStyle.Text

/-! ## Digits -/

/-- The decimal digit of `n % 10`. -/
def digitChar (n : Nat) : Char := Char.ofNat (48 + n % 10)

/-- The value of a character as a decimal digit. -/
def digitValue (c : Char) : Nat := c.toNat - 48

/-- The decimal digits of `n`, the most significant first. -/
def digits (n : Nat) : List Char :=
  if n < 10 then [digitChar n] else digits (n / 10) ++ [digitChar n]

/-- The number that a list of decimal digits denotes. -/
def ofDigits (cs : List Char) : Nat := cs.foldl (fun n c => 10 * n + digitValue c) 0

theorem digitValue_digitChar (n : Nat) : digitValue (digitChar n) = n % 10 := by
  have h : n % 10 < 10 := Nat.mod_lt _ (by decide)
  have key : ∀ k : Fin 10, digitValue (Char.ofNat (48 + k.val)) = k.val := by decide
  exact key ⟨n % 10, h⟩

theorem isDigit_digitChar (n : Nat) : (digitChar n).isDigit = true := by
  have h : n % 10 < 10 := Nat.mod_lt _ (by decide)
  have key : ∀ k : Fin 10, (Char.ofNat (48 + k.val)).isDigit = true := by decide
  exact key ⟨n % 10, h⟩

/-- Reading one digit more shifts the value by one place. -/
theorem ofDigits_concat (cs : List Char) (c : Char) :
    ofDigits (cs ++ [c]) = 10 * ofDigits cs + digitValue c := by
  simp [ofDigits]

/-- Reading a written number gives the number. -/
theorem ofDigits_digits (n : Nat) : ofDigits (digits n) = n := by
  induction n using Nat.strongRecOn with
  | _ n ih =>
    rw [digits]
    split
    · simp [ofDigits, digitValue_digitChar]; omega
    · rw [ofDigits_concat, ih (n / 10) (by omega), digitValue_digitChar]; omega

/-- A written number consists of digits. -/
theorem isDigit_of_mem_digits {n : Nat} {c : Char} (h : c ∈ digits n) : c.isDigit = true := by
  induction n using Nat.strongRecOn with
  | _ n ih =>
    rw [digits] at h
    split at h
    · rw [List.mem_singleton] at h; subst h; exact isDigit_digitChar n
    · rcases List.mem_append.1 h with h | h
      · exact ih (n / 10) (by omega) h
      · rw [List.mem_singleton] at h; subst h; exact isDigit_digitChar n

/-- A written number has a digit. -/
theorem digits_ne_nil (n : Nat) : digits n ≠ [] := by
  rw [digits]; split <;> simp

/-- The integer in base ten, a minus in front if it is negative. -/
def signedDigits : Int → List Char
  | .ofNat n => digits n
  | .negSucc n => '-' :: digits (n + 1)

/-- The numeral of a natural number. -/
def natText (n : Nat) : String := String.ofList (digits n)

/-- Different numbers have different numerals. -/
theorem natText_inj {m n : Nat} : natText m = natText n ↔ m = n := by
  refine ⟨fun h => ?_, congrArg natText⟩
  have hdigits : digits m = digits n := String.ofList_injective h
  rw [← ofDigits_digits m, hdigits, ofDigits_digits]

/-- The numeral of an integer. -/
def intText (n : Int) : String := String.ofList (signedDigits n)

/-! ## Reading -/

/-- The value of a nonempty list of digits. -/
def nat? (cs : List Char) : Option Nat :=
  if cs.isEmpty || !cs.all Char.isDigit then none else some (ofDigits cs)

/-- A numeral with an optional plus in front. -/
def unsigned? : List Char → Option Nat
  | '+' :: cs => nat? cs
  | cs => nat? cs

/-- A numeral with an optional sign in front. -/
def signed? : List Char → Option Int
  | '-' :: cs => (nat? cs).map fun n => -(n : Int)
  | cs => (unsigned? cs).map Int.ofNat

theorem nat?_digits (n : Nat) : nat? (digits n) = some n := by
  have h : (digits n).all Char.isDigit = true :=
    List.all_eq_true.2 fun _ hc => isDigit_of_mem_digits hc
  simp [nat?, digits_ne_nil, h, ofDigits_digits]

/-! ## Bounds -/

/-- The largest number of 64 bits. -/
def maxSize : Nat := 18446744073709551615

/-- The integers of 32 bits. -/
def fits32 (n : Int) : Bool := -2147483648 ≤ n && n ≤ 2147483647

/-- The value `n` if it fits 32 bits. -/
def checked32 (n : Int) : Option Int := if fits32 n then some n else none

/-- A signed numeral whose value fits 32 bits. -/
def int32? (cs : List Char) : Option Int := (signed? cs).bind checked32

/-- An unsigned numeral whose value fits 64 bits. -/
def size? (cs : List Char) : Option Nat :=
  (unsigned? cs).bind fun n => if n ≤ maxSize then some n else none

/-- The sum, or the largest number of 64 bits if the sum is larger. -/
def saturatingAdd (a b : Nat) : Nat := min (a + b) maxSize

/-- The product, or the largest number of 64 bits if the product is larger. -/
def saturatingMul (a b : Nat) : Nat := min (a * b) maxSize

/-! ## Hexadecimal digits -/

/-- The lower-case hexadecimal digit of `n % 16`. -/
def hexDigit (n : Nat) : Char :=
  let d := n % 16
  if d < 10 then Char.ofNat (48 + d) else Char.ofNat (87 + d)

/-- The value of a character as a hexadecimal digit of either case. -/
def hexValue? (c : Char) : Option Nat :=
  if c.isDigit then some (c.toNat - 48)
  else if 'a' ≤ c && c ≤ 'f' then some (c.toNat - 87)
  else if 'A' ≤ c && c ≤ 'F' then some (c.toNat - 55)
  else none

/-- A hexadecimal digit of either case. -/
def isHexDigit (c : Char) : Bool := (hexValue? c).isSome

/-- The last `width` hexadecimal digits of `n`. -/
def hexDigits : (width n : Nat) → List Char
  | 0, _ => []
  | width + 1, n => hexDigits width (n / 16) ++ [hexDigit n]

/-- The hexadecimal digits of `n` without leading zeros. -/
def hexNumeral (n : Nat) : List Char :=
  if n < 16 then [hexDigit n] else hexNumeral (n / 16) ++ [hexDigit n]

end ResponsiveStyle.Text
