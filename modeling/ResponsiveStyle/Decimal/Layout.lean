/-
# Layouts of decimals

Two ways to write `coefficient * 10 ^ exponent` down: with all its places, or with one digit before
the point and a power of ten behind it.
-/
import ResponsiveStyle.Decimal.Shortest
import ResponsiveStyle.Text.Numeral

namespace ResponsiveStyle.Decimal

open Text (digits signedDigits)

/-- How many places of the number stand before the point; it is not positive below one tenth. -/
def Scaled.places (s : Scaled) : Int := (digits s.coefficient).length + s.exponent

/-- The number with all its places, and a point only where a digit follows it. -/
def Scaled.positional (s : Scaled) : List Char :=
  let ds := digits s.coefficient
  if 0 ≤ s.exponent then ds ++ List.replicate s.exponent.toNat '0'
  else if 0 < s.places then ds.take s.places.toNat ++ '.' :: ds.drop s.places.toNat
  else '0' :: '.' :: List.replicate (-s.places).toNat '0' ++ ds

/-- One digit before the point, the others behind it, and the power of ten with its sign if `plus`
holds or it is negative. -/
def Scaled.exponential (plus : Bool) (s : Scaled) : List Char :=
  let ds := digits s.coefficient
  let power := s.places - 1
  let mantissa := match ds with
    | [d] => [d]
    | d :: rest => d :: '.' :: rest
    | [] => []
  mantissa ++ 'e' :: (if plus && 0 ≤ power then ['+'] else []) ++ signedDigits power

/-- A minus in front of the texts of negative numbers. -/
def signed (negative : Bool) (cs : List Char) : List Char := if negative then '-' :: cs else cs

end ResponsiveStyle.Decimal
