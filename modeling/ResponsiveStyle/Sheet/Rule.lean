/-
# Rules of a style sheet

A section of a style sheet holds rules, all of them under one media query or under none. Its text is
indented by four spaces a level.
-/
import ResponsiveStyle.Config.Basic
import ResponsiveStyle.Style.Declaration

namespace ResponsiveStyle.Sheet

open Style (Declaration)
open Text (joined)

/-- Declarations for the nodes that one of the selectors selects. -/
structure Rule where
  selectors : List String
  declarations : List Declaration
  deriving DecidableEq, Repr

/-- Rules under a media query or under none. -/
structure Section where
  query : Option MediaQuery
  rules : List Rule
  deriving DecidableEq, Repr

/-! ## Text -/

/-- The blanks in front of a line. -/
def indent (depth : Nat) : String := String.ofList (List.replicate (4 * depth) ' ')

/-- A line of its own, indented. -/
def line (depth : Nat) (s : String) : String := indent depth ++ s ++ "\n"

/-- A declaration without its line: the key, the value and the mark of importance. -/
def declarationText (d : Declaration) : String :=
  d.key ++ ": " ++ d.value.display ++ (if d.important then " !important" else "") ++ ";"

/-- The line of a declaration. -/
def declarationLine (depth : Nat) (d : Declaration) : String := line depth (declarationText d)

/-- The text of a rule: the selectors line by line with commas between them, then the block. -/
def Rule.text (depth : Nat) (r : Rule) : String :=
  joined ",\n" (r.selectors.map fun s => indent depth ++ s) ++ " \x7b\n" ++
    String.join (r.declarations.map (declarationLine (depth + 1))) ++ line depth "\x7d"

/-- The texts of rules with an empty line between them. -/
def rulesText (depth : Nat) (rules : List Rule) : String :=
  joined "\n" (rules.map (Rule.text depth))

/-- The text of a section. -/
def Section.text (s : Section) : String :=
  match s.query with
  | none => rulesText 0 s.rules
  | some q => line 0 (q.text ++ " \x7b") ++ rulesText 1 s.rules ++ line 0 "\x7d"

/-- The texts of sections with an empty line between them. -/
def sectionsText (sections : List Section) : String := joined "\n" (sections.map Section.text)

end ResponsiveStyle.Sheet
