/-
# Render passes

A pass collects the fragments that the nodes of a page render, each of them once, and hands them out
as one style sheet. What it has seen it remembers apart from the fragments, so forgetting takes
both.
-/
import ResponsiveStyle.Text.Blank

namespace ResponsiveStyle.Sheet

open Text (joined trimmedEnd isBlankText)

/-- The fragments collected so far, in order, and the texts that would be collected twice. -/
structure Pass where
  fragments : List String
  seen : List String
  deriving DecidableEq, Repr

namespace Pass

/-- The pass without fragments, which has seen nothing. -/
def empty : Pass := ⟨[], []⟩

/-- A pass without anything of what was collected or seen before. -/
def reset (_ : Pass) : Pass := ⟨[], []⟩

/-- Whether there is no fragment. -/
def isEmpty (p : Pass) : Bool := p.fragments.isEmpty

/-- The number of fragments. -/
def size (p : Pass) : Nat := p.fragments.length

/-- Whether a text would add a fragment: it is neither blank nor already seen. -/
def admits (p : Pass) (css : String) : Bool :=
  !isBlankText css && !p.seen.contains (trimmedEnd css)

/-- The pass with a text added, without the blanks at its end. -/
def push (p : Pass) (css : String) : Pass :=
  if p.admits css then ⟨p.fragments ++ [trimmedEnd css], trimmedEnd css :: p.seen⟩ else p

/-- The style sheet of the fragments, with an empty line between neighbours. -/
def css (p : Pass) : String :=
  if p.fragments.isEmpty then "" else joined "\n\n" p.fragments ++ "\n"

/-- The style sheet of the fragments, and a pass without any. -/
def drain (p : Pass) : String × Pass := (p.css, p.reset)

end Pass

end ResponsiveStyle.Sheet
