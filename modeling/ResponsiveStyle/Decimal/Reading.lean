/-
# Reading decimals

A decimal in text: an optional sign, digits with an optional point among them, at least one digit in
all, and an optional power of ten; or one of the words for infinity and for no number. The value is
the number of 64 bits nearest to the decimal.
-/
import ResponsiveStyle.Text.Blank
import ResponsiveStyle.Text.Numeral

namespace ResponsiveStyle.Decimal

open Text (digitValue ofDigits signed? lower)

/-- The number of 64 bits nearest to `mantissa * 10 ^ exponent`. Powers far outside the range of
such numbers are settled first: they are infinite or zero. -/
def nearestFloat (mantissa : Nat) (exponent : Int) : Float :=
  let places : Int := (Text.digits mantissa).length + exponent
  if mantissa == 0 || places < -400 then 0
  else if 400 < places then 1 / 0
  else if 0 ≤ exponent then Float.ofScientific mantissa false exponent.toNat
  else Float.ofScientific mantissa true (-exponent).toNat

/-- The digits before and behind the point and what follows them. -/
def splitDigits (cs : List Char) : List Char × List Char × List Char :=
  let whole := cs.takeWhile Char.isDigit
  match cs.dropWhile Char.isDigit with
  | '.' :: rest => (whole, rest.takeWhile Char.isDigit, rest.dropWhile Char.isDigit)
  | rest => (whole, [], rest)

/-- The power of ten at the end of a decimal: nothing, or the letter e and a signed numeral. -/
def power? : List Char → Option Int
  | [] => some 0
  | c :: cs => if c == 'e' || c == 'E' then signed? cs else none

/-- A decimal without its sign. -/
def unsignedFloat? (cs : List Char) : Option Float :=
  let word := lower cs
  if word == "inf".toList || word == "infinity".toList then some (1 / 0)
  else if word == "nan".toList then some (0 / 0)
  else
    let (whole, fraction, rest) := splitDigits cs
    if whole.isEmpty && fraction.isEmpty then none
    else (power? rest).map fun power =>
      nearestFloat (ofDigits (whole ++ fraction)) (power - fraction.length)

/-- The number of 64 bits that a decimal in text denotes. -/
def float? : List Char → Option Float
  | '-' :: cs => (unsignedFloat? cs).map fun x => -x
  | '+' :: cs => unsignedFloat? cs
  | cs => unsignedFloat? cs

end ResponsiveStyle.Decimal
