/-!
# The shortest decimal of a binary number

A finite positive number of 64 bits is `m * 2 ^ q`. The reals that round to it form an interval that
reaches half way to its two neighbours, its ends included exactly if `m` is even. A grid of exponent
`e` holds the multiples of `10 ^ e`. Only the two grid points around the number have to be tried on
a grid, and the coarsest grid with one of them in the interval gives the fewest digits; of two such
points the nearer is taken, and a tie is settled as asked.
-/

namespace ResponsiveStyle.Decimal

/-! ## Numbers of 64 bits -/

/-- A number of 64 bits by its parts. -/
inductive Binary
  | nan
  | infinite (negative : Bool)
  | finite (negative : Bool) (mantissa : Nat) (exponent : Int)
  deriving DecidableEq, Repr

/-- The smallest exponent of a number of 64 bits. -/
def minExponent : Int := -1074

/-- The greatest mantissa of the smallest numbers is one less than this. -/
def leastNormal : Nat := Nat.pow 2 52

/-- The parts of a number. -/
def Binary.ofFloat (x : Float) : Binary :=
  let bits := x.toBits.toNat
  let negative := bits / Nat.pow 2 63 == 1
  let biased : Nat := bits / leastNormal % Nat.pow 2 11
  let fraction := bits % leastNormal
  if biased == 2047 then
    if fraction == 0 then .infinite negative else .nan
  else if biased == 0 then .finite negative fraction minExponent
  else .finite negative (leastNormal + fraction) (biased + minExponent - 1)

/-! ## Grids -/

/-- How a tie between two grid points is settled. -/
inductive Tie
  | up
  | even
  deriving DecidableEq, Repr

/-- The number `coefficient * 10 ^ exponent`. -/
structure Scaled where
  coefficient : Nat
  exponent : Int
  deriving DecidableEq, Repr

/-- A quarter of the unit of `m * 2 ^ q` measured on the grid of exponent `e`, as a fraction. -/
def quarterUnit (q e : Int) : Nat × Nat :=
  (Nat.pow 2 (q - 2).toNat * Nat.pow 10 (-e).toNat,
    Nat.pow 2 (2 - q).toNat * Nat.pow 10 e.toNat)

/-- The lower half of the interval around `m * 2 ^ q` in quarters of a unit: the neighbour below a
power of two is only half as far away, except where the exponent is the smallest. -/
def lowerReach (m : Nat) (q : Int) : Nat :=
  if m == leastNormal && minExponent < q then 1 else 2

/-- Whether the grid point `d` of exponent `e` rounds to `m * 2 ^ q`. -/
def reads (m : Nat) (q e : Int) (d : Nat) : Bool :=
  let (unit, grid) := quarterUnit q e
  let low := (4 * m - lowerReach m q) * unit
  let high := (4 * m + 2) * unit
  let point := d * grid
  if m % 2 == 0 then low ≤ point && point ≤ high else low < point && point < high

/-- The grid point of exponent `e` that rounds to `m * 2 ^ q` and is nearest to it, if there is
one. -/
def nearest? (tie : Tie) (m : Nat) (q e : Int) : Option Nat :=
  let (unit, grid) := quarterUnit q e
  let value := 4 * m * unit
  let below := value / grid
  let rest := value % grid
  match reads m q e below && below != 0, reads m q e (below + 1) with
  | false, false => none
  | true, false => some below
  | false, true => some (below + 1)
  | true, true =>
    if 2 * rest < grid then some below
    else if grid < 2 * rest then some (below + 1)
    else match tie with
      | .up => some (below + 1)
      | .even => some (if below % 2 == 0 then below else below + 1)

/-- The exponents of the grids from coarse to fine: the greatest number of 64 bits lies below
`10 ^ 309`, and the exponent of the last one is fine enough for the smallest. -/
def gridExponents : List Int := (List.range 660).map fun i : Nat => 309 - (i : Int)

/-- The decimal with the fewest digits that rounds to `m * 2 ^ q`, the nearest of those. -/
def shortest (tie : Tie) (m : Nat) (q : Int) : Scaled :=
  (gridExponents.findSome? fun e => (nearest? tie m q e).map fun d => ⟨d, e⟩).getD ⟨0, 0⟩

end ResponsiveStyle.Decimal
