/-
# Configuration

What a host decides: the widths where the tiers meet, the selectors that take a node type's
declarations off its wrapper, the unitless properties, the names of the attribute fields, and where
compiled style sheets go.
-/
import ResponsiveStyle.Style.Property
import ResponsiveStyle.Table
import ResponsiveStyle.Text.Numeral

namespace ResponsiveStyle

open Text (natText)

/-! ## Media queries -/

/-- A range of viewport widths, both ends included; without a lower end it begins at zero. -/
structure MediaQuery where
  minWidth : Option Nat
  maxWidth : Nat
  deriving DecidableEq, Repr

namespace MediaQuery

/-- Whether a viewport of a width is meant. -/
def admits (q : MediaQuery) (width : Nat) : Bool := q.minWidth.getD 0 ≤ width && width ≤ q.maxWidth

/-- The text of a query in a style sheet. -/
def text (q : MediaQuery) : String :=
  let upper := "(max-width: " ++ natText q.maxWidth ++ "px)"
  match q.minWidth with
  | none => "@media " ++ upper
  | some w => "@media (min-width: " ++ natText w ++ "px) and " ++ upper

end MediaQuery

/-! ## Widths -/

/-- The widths of the tiers in pixels. Those of `mobile` and `tablet` are the greatest of their
tiers; the one of `desktop` is for information. -/
structure Breakpoints where
  mobile : UInt32
  tablet : UInt32
  desktop : UInt32
  deriving DecidableEq, Repr

namespace Breakpoints

/-- The widths of a host that decides nothing. -/
def standard : Breakpoints := ⟨782, 1024, 1440⟩

/-- The widths of the middle tier: from the next pixel after the narrow tier, unless there is
none. -/
def tabletQuery (b : Breakpoints) : MediaQuery :=
  ⟨some (min (b.mobile.toNat + 1) 4294967295), b.tablet.toNat⟩

/-- The widths of the narrow tier. -/
def mobileQuery (b : Breakpoints) : MediaQuery := ⟨none, b.mobile.toNat⟩

end Breakpoints

/-! ## The configuration -/

/-- What a host decides. -/
structure Config where
  breakpoints : Breakpoints
  strengthen : Table (List String)
  unitless : NameSet
  selectorAttribute : String
  scopeIdField : String
  stylesField : String
  uploadsDir : String
  uploadsUrl : String

namespace Config

/-- The configuration of a host that decides nothing. -/
def standard : Config where
  breakpoints := .standard
  strengthen := .ofList [("core/button", [".wp-block-button__link", ".wp-element-button"])]
  unitless := .ofNames
    ["opacity", "z-index", "order", "flex-grow", "flex-shrink", "font-weight", "column-count"]
  selectorAttribute := "costered-id"
  scopeIdField := "costeredId"
  stylesField := "costered"
  uploadsDir := "uploads"
  uploadsUrl := "/uploads"

/-- The configuration with other widths. -/
def withBreakpoints (c : Config) (b : Breakpoints) : Config := { c with breakpoints := b }

/-- The configuration with another place for uploads. -/
def withUploads (c : Config) (dir url : String) : Config :=
  { c with uploadsDir := dir, uploadsUrl := url }

/-- The configuration with the selectors of a node type replaced. -/
def withStrengthened (c : Config) (nodeType : String) (selectors : List String) : Config :=
  { c with strengthen := c.strengthen.put nodeType selectors }

/-- The configuration with one unitless property more. -/
def withUnitless (c : Config) (property : String) : Config :=
  { c with unitless := c.unitless.add property }

/-- Whether a property takes bare numbers, in any spelling. -/
def isUnitless (c : Config) (property : String) : Bool :=
  c.unitless.keys.any fun p => Style.propertyKey p == Style.propertyKey property

/-- The selectors below the wrapper of a node type, if it has any. -/
def strengthened? (c : Config) (nodeType : String) : Option (List String) :=
  (c.strengthen.get? nodeType).filter fun selectors => !selectors.isEmpty

/-! ## Places -/

/-- The name of the directory for compiled style sheets. -/
def outputName : String := "costered"

/-- A path with one name more, behind a slash unless the path is empty or ends with one. -/
def under (dir name : String) : String :=
  match dir.toList.getLast? with
  | none => name
  | some c => if c == '/' then dir ++ name else dir ++ "/" ++ name

/-- The directory for compiled style sheets. -/
def outputDir (c : Config) : String := under c.uploadsDir outputName

/-- The text without the slashes at its end. -/
def withoutSlashes (s : String) : String :=
  String.ofList (s.toList.reverse.dropWhile (· == '/')).reverse

/-- The address of the directory for compiled style sheets. -/
def outputUrl (c : Config) : String := withoutSlashes c.uploadsUrl ++ "/" ++ outputName

end Config

end ResponsiveStyle
