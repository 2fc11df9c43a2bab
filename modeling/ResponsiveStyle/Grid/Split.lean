/-
# Splitting grid templates

Track lists nest: `minmax(100px, 1fr)` and `[a b]` stay whole while the list around them is split.
The nesting is kept by one counter for each kind of bracket. A text whose brackets do not balance
has no pieces.
-/
import ResponsiveStyle.Text.Blank

namespace ResponsiveStyle.Grid

open Text (trim trimStart isBlank sameIgnoringCase)

/-! ## Nesting -/

/-- How many parentheses and square brackets are open. -/
structure Nesting where
  parens : Nat
  brackets : Nat
  deriving DecidableEq, Repr

namespace Nesting

/-- Nothing is open. -/
def top : Nesting := ⟨0, 0⟩

/-- Whether nothing is open. -/
def isTop (n : Nesting) : Bool := n.parens == 0 && n.brackets == 0

/-- The nesting behind a character, unless it closes what is not open. -/
def after? (n : Nesting) (c : Char) : Option Nesting :=
  match c with
  | '(' => some { n with parens := n.parens + 1 }
  | ')' => if n.parens == 0 then none else some { n with parens := n.parens - 1 }
  | '[' => some { n with brackets := n.brackets + 1 }
  | ']' => if n.brackets == 0 then none else some { n with brackets := n.brackets - 1 }
  | _ => some n

end Nesting

/-! ## Pieces -/

/-- The first piece of a text and the others, cut at the separators outside of all brackets. -/
def pieces? (isSeparator : Char → Bool) :
    Nesting → List Char → Option (List Char × List (List Char))
  | n, [] => if n.isTop then some ([], []) else none
  | n, c :: cs =>
    if n.isTop && isSeparator c then
      (pieces? isSeparator n cs).map fun (piece, rest) => ([], piece :: rest)
    else
      (n.after? c).bind fun inner =>
        (pieces? isSeparator inner cs).map fun (piece, rest) => (c :: piece, rest)

/-- The trimmed pieces of a text without the empty ones, or nothing if brackets do not balance. -/
def splitTop? (isSeparator : Char → Bool) (cs : List Char) : Option (List (List Char)) :=
  (pieces? isSeparator .top cs).map fun (piece, rest) =>
    ((piece :: rest).map trim).filter fun p => !p.isEmpty

/-- The tracks and line names of a track list. -/
def splitTracks? (cs : List Char) : Option (List (List Char)) := splitTop? isBlank cs

/-- The arguments of a function. -/
def splitArguments? (cs : List Char) : Option (List (List Char)) := splitTop? (· == ',') cs

/-! ## Looking at tokens -/

/-- Whether a character stands outside of all brackets, both kinds counted as one and closing ones
that close nothing counted below zero. The count has no bounds here: one of 32 bits is the same for
every text with fewer than `2 ^ 31` brackets. -/
def hasOutside (needle : Char) : (depth : Int) → List Char → Bool
  | _, [] => false
  | depth, c :: cs =>
    let here :=
      if c == '(' || c == '[' then depth + 1
      else if c == ')' || c == ']' then depth - 1
      else depth
    (here == 0 && c == needle) || hasOutside needle here cs

/-- Whether a token is a group of line names such as `[a b]`. -/
def isLineNames (token : List Char) : Bool := token.head? == some '[' && token.getLast? == some ']'

/-- The arguments of a token that calls the function `name`, in any case. -/
def arguments? (name token : List Char) : Option (List Char) :=
  if sameIgnoringCase name (token.take name.length) then
    match trimStart (token.drop name.length) with
    | '(' :: rest => Text.before? [')'] rest
    | _ => none
  else none

end ResponsiveStyle.Grid
