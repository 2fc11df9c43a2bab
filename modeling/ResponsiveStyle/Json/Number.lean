/-
# Numbers of JSON numerals

A numeral without fraction and power is an integer if 64 bits hold it, and every other numeral is a
floating number. The floating number is made of the digits that 64 bits hold and scaled by a power
of ten, which rounds more than once, so it need not be the one that is nearest to the numeral.
-/
import ResponsiveStyle.Json.Token

namespace ResponsiveStyle.Json.Numeral

/-! ## Integers -/

/-- A numeral without fraction and power of ten. -/
def isInteger (n : Numeral) : Bool := n.fraction.isEmpty && n.power.isNone

/-- The integer of a numeral, if it is one of 64 bits. A minus in front of zero makes it a floating
number. -/
def integer? (n : Numeral) : Option Int :=
  let m := Text.ofDigits n.whole
  if !n.isInteger then none
  else if n.negative then
    if m == 0 || 9223372036854775808 < m then none else some (-(m : Int))
  else if m ≤ Text.maxSize then some m
  else none

/-! ## Floating numbers -/

/-- The leading digits of the whole part whose number fits 64 bits, as that number, and the count of
the digits behind them. -/
def leading (digits : List Char) : Nat × Nat :=
  digits.foldl (fun (n, dropped) c =>
    let next := 10 * n + Text.digitValue c
    if dropped == 0 && next ≤ Text.maxSize then (next, 0) else (n, dropped + 1)) (0, 0)

/-- The number continued with digits of the fraction as long as it fits 64 bits, and the count of
the digits used. -/
def continued : (n used : Nat) → List Char → Nat × Nat
  | n, used, [] => (n, used)
  | n, used, c :: cs =>
    let next := 10 * n + Text.digitValue c
    if next ≤ Text.maxSize then continued next (used + 1) cs else (n, used)

/-- A power of ten of 64 bits. -/
def tenTo (n : Nat) : Float := Float.ofScientific 1 false n

/-- The number `n * 10 ^ exponent`, rounded once for `n` and once for each scaling by a power of ten
up to `10 ^ 308`; there is none if it is infinite. -/
def scaled? (n : Nat) (exponent : Int) : Option Float :=
  let x := n.toUInt64.toFloat
  if n == 0 then some 0
  else if 0 ≤ exponent then
    if 308 < exponent then none
    else
      let y := x * tenTo exponent.toNat
      if y.isInf then none else some y
  else if -308 ≤ exponent then some (x / tenTo (-exponent).toNat)
  else if -616 ≤ exponent then some (x / tenTo 308 / tenTo (-exponent - 308).toNat)
  else some 0

/-- The floating number of a numeral, unless it is infinite. -/
def float? (n : Numeral) : Option Float :=
  let (whole, dropped) := leading n.whole
  let (significand, used) := continued whole 0 n.fraction
  (scaled? significand (n.power.getD 0 + dropped - used)).map fun x => if n.negative then -x else x

end ResponsiveStyle.Json.Numeral
