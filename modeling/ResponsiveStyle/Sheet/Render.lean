/-
# Rendering a record

The styles of a node become one section for each tier that has declarations, from the widest to the
narrowest, so that a narrower tier stands behind the wider ones it overrides. For some node types
the visible box is not the wrapper but a node below it: then margins stay on the wrapper, and all
other declarations go to the selectors below it.
-/
import ResponsiveStyle.Sheet.Rule
import ResponsiveStyle.Style.Attributes

namespace ResponsiveStyle.Sheet

open Style (Bucket Declaration Record Tier)
open Text (trimmed)

/-! ## Selectors -/

/-- The selectors of a node: its wrapper, and those below it that take over its declarations. -/
structure Targets where
  wrapper : String
  strengthened : Option (List String)
  deriving DecidableEq, Repr

/-- The selector of the wrapper of a scope id. -/
def wrapperSelector (c : Config) (id : String) : String :=
  "[data-" ++ c.selectorAttribute ++ "=\"" ++ id ++ "\"]"

/-- The selectors of a node. -/
def targets (c : Config) (id nodeType : String) : Targets :=
  let wrapper := wrapperSelector c id
  ⟨wrapper, (c.strengthened? nodeType).map fun below =>
    below.map fun s => wrapper ++ " " ++ trimmed s⟩

/-! ## Rules of a bucket -/

/-- Whether a declaration is about the outer edge of the wrapper. -/
def isMargin (d : Declaration) : Bool := (Text.after? "margin".toList d.key.toList).isSome

/-- The rule of some declarations, unless there are none. -/
def ruleOf (selectors : List String) (ds : List Declaration) : List Rule :=
  if ds.isEmpty then [] else [⟨selectors, ds⟩]

/-- The rules of a bucket. -/
def rules (t : Targets) (b : Bucket) : List Rule :=
  match t.strengthened with
  | none => ruleOf [t.wrapper] b.declarations
  | some below =>
    ruleOf [t.wrapper] (b.declarations.filter isMargin) ++
      ruleOf below (b.declarations.filter fun d => !isMargin d)

/-! ## Sections of a record -/

/-- The media query of a tier; the widest has none. -/
def query? (b : Breakpoints) : Tier → Option MediaQuery
  | .desktop => none
  | .tablet => some b.tabletQuery
  | .mobile => some b.mobileQuery

/-- The section of one tier, unless it has no declaration. -/
def tierSection (c : Config) (t : Targets) (r : Record) (tier : Tier) : Option Section :=
  let b := r.bucket tier
  if b.isEmpty then none else some ⟨query? c.breakpoints tier, rules t b⟩

/-- The sections of a record; without an id nothing can be selected. -/
def sections (c : Config) (nodeType : String) (r : Record) : List Section :=
  match r.id with
  | none => []
  | some id => Tier.all.filterMap (tierSection c (targets c id nodeType) r)

/-- The style sheet of a record. -/
def render (c : Config) (nodeType : String) (r : Record) : String :=
  sectionsText (sections c nodeType r)

/-- The style sheet of the record that the attributes of a node store. -/
def renderAttributes (c : Config) (nodeType : String) (attributes : Json) : String :=
  render c nodeType (Record.ofAttributes c attributes)

end ResponsiveStyle.Sheet
