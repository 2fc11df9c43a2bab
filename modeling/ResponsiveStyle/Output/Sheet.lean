/-
# Compiled style sheets

A style sheet with the place and the address of its file, and the element by which a page loads it.
-/
import ResponsiveStyle.Output.Path

namespace ResponsiveStyle.Output

/-- A style sheet that is present as a file. -/
structure CompiledSheet where
  css : String
  path : String
  url : String
  hash : String
  deriving DecidableEq, Repr

namespace CompiledSheet

/-- The address with the digest, so that a changed content is loaded again. -/
def versionedUrl (s : CompiledSheet) : String := s.url ++ "?ver=" ++ s.hash

/-- The name of the file up to the digest. -/
def handle (s : CompiledSheet) : String :=
  match Path.fileStem? s.path with
  | some stem =>
    match Path.cutAtLast? '-' stem.toList with
    | some (scope, _) => String.ofList scope
    | none => stem
  | none => "costered"

/-- The element that loads the style sheet. -/
def linkTag (s : CompiledSheet) : String :=
  "<link rel=\"stylesheet\" id=\"costered-" ++ s.handle ++ "-css\" href=\"" ++ s.versionedUrl
    ++ "\" media=\"all\" />"

end CompiledSheet

end ResponsiveStyle.Output
