/-
# Tiers of the viewport

Styles are kept for three widths of the viewport. A tier without a value of its own takes the one of
the next wider tier.
-/
import ResponsiveStyle.Text.Blank

namespace ResponsiveStyle.Style

/-- A range of viewport widths. -/
inductive Tier
  | desktop
  | tablet
  | mobile
  deriving DecidableEq, Repr

namespace Tier

/-- The tiers from the widest to the narrowest. -/
def all : List Tier := [.desktop, .tablet, .mobile]

/-- The name of a tier. -/
def name : Tier → String
  | .desktop => "desktop"
  | .tablet => "tablet"
  | .mobile => "mobile"

/-- The tier of a name, in any case and with blanks around it. -/
def ofName? (s : String) : Option Tier :=
  let cs := Text.lower (Text.trim s.toList)
  all.find? fun t => t.name.toList == cs

/-- The tiers that are asked for a value, the tier itself first. -/
def cascade : Tier → List Tier
  | .mobile => [.mobile, .tablet, .desktop]
  | .tablet => [.tablet, .desktop]
  | .desktop => [.desktop]

end Tier

end ResponsiveStyle.Style
