/-
# Placements

Where an item lies on one axis of a grid: a start line with a span or with an end line. The plain
controls of an editor know a start number and a positive span; the advanced ones know all forms and
turn a span into an end line and back where both lines are numbers.
-/
import ResponsiveStyle.Grid.Areas
import ResponsiveStyle.Grid.Line

namespace ResponsiveStyle.Grid

open Text (trim splitAt checked32 intText)

/-- The trimmed parts of a shorthand before and behind its first slash. What stands behind a second
slash is not read. -/
def shorthandParts (value : String) : List Char × Option (List Char) :=
  match splitAt '/' value.toList with
  | [] => ([], none)
  | [first] => (trim first, none)
  | first :: second :: _ => (trim first, some (trim second))

/-! ## Plain placements -/

/-- A start line and a span. -/
structure SimplePlacement where
  start : Int
  span : Int
  deriving DecidableEq, Repr

namespace SimplePlacement

/-- The number of a line, or one if it has none or is zero. -/
def startOf : Line → Int
  | .number n => if n == 0 then 1 else n
  | _ => 1

/-- The span up to an end token, at least one. -/
def spanOf (start : Int) (token : List Char) : Int :=
  match spanOfChars? token, Line.ofChars token with
  | some span, _ => max span 1
  | none, .number e => if e == 0 then 1 else max ((checked32 (e - start)).getD 1) 1
  | none, _ => 1

/-- The plain placement that a shorthand shows. -/
def parse (value : String) : SimplePlacement :=
  let (first, second) := shorthandParts value
  match spanOfChars? first with
  | some span => ⟨1, max span 1⟩
  | none =>
    let start := startOf (Line.ofChars first)
    ⟨start, (second.map (spanOf start)).getD 1⟩

/-- The shorthand of a start line and a span. A span of one is left out if `collapse` holds and the
start is not left to the grid. -/
def compose (start : Line) (span : Int) (collapse : Bool) : String :=
  let start := start.orFallback 0
  let span := max span 1
  if span == 1 && collapse && !start.isAuto then start.text
  else start.text ++ " / span " ++ intText span

end SimplePlacement

/-! ## Advanced placements -/

/-- Which of the two forms is written. -/
inductive PlacementMode
  | span
  | finish
  deriving DecidableEq, Repr

/-- A start line with a span, an end line, both or neither. -/
structure Placement where
  start : Line
  span : Option Int
  finish : Option Line
  deriving DecidableEq, Repr

namespace Placement

/-- The form that a placement was given in. -/
def mode (p : Placement) : PlacementMode :=
  if p.finish.isSome && p.span.isNone then .finish else .span

/-- A span other than zero. -/
def nonzero? (n : Int) : Option Int := if n == 0 then none else some n

/-- What the part before the slash says. -/
def ofFirst (token : List Char) : Placement :=
  match spanOfChars? token with
  | some span => ⟨.auto, nonzero? span, none⟩
  | none => ⟨(Line.ofChars token).orFallback 0, none, none⟩

/-- The placement with what the part behind the slash says. -/
def withSecond (p : Placement) (token : List Char) : Placement :=
  match spanOfChars? token with
  | some span => { p with span := nonzero? span }
  | none =>
    let finish := (Line.ofChars token).orFallback 0
    if finish.isAuto then p else { p with span := none, finish := some finish }

/-- The placement of a shorthand. -/
def parse (value : String) : Placement :=
  let (first, second) := shorthandParts value
  match second with
  | none => ofFirst first
  | some token => (ofFirst first).withSecond token

/-- The span between two numbered lines, if it is not zero and has 32 bits. -/
def spanBetween? : Line → Option Line → Option Int
  | .number s, some (.number e) => (checked32 (e - s)).bind nonzero?
  | _, _ => none

/-- The line at a span from a numbered line, if it is not zero and has 32 bits. -/
def lineAt? : Line → Option Int → Option Line
  | .number s, some k => ((checked32 (s + k)).bind nonzero?).map .number
  | _, _ => none

/-- The part behind the slash, if one is written. -/
def tail? (start : Line) (span : Option Int) (finish : Option Line) : PlacementMode → Option String
  | .span => (span.or (spanBetween? start finish)).map fun k => "span " ++ intText k
  | .finish => ((finish.filter fun e => !e.isAuto).or (lineAt? start span)).map Line.text

/-- The shorthand of a placement in one of the two forms. Zeros are replaced by `fallback` first,
and dropped if that is zero. -/
def compose (p : Placement) (mode : PlacementMode) (fallback : Int) : String :=
  let start := p.start.orFallback fallback
  let span := p.span.bind fun k => nonzero? (if k == 0 then fallback else k)
  let finish := p.finish.map (Line.orFallback fallback)
  match tail? start span finish mode with
  | some tail => start.text ++ " / " ++ tail
  | none => start.text

end Placement

/-! ## Areas as placements -/

/-- A count as a number of 32 bits, the greatest one if it is larger. -/
def clamped32 (n : Nat) : Int := min (n : Int) 2147483647

/-- The shorthands of the column and the row that place an item over an area. -/
def Areas.Bounds.placements (b : Areas.Bounds) : String × String :=
  (SimplePlacement.compose (.number (clamped32 b.columnStart)) (clamped32 b.columnSpan) true,
    SimplePlacement.compose (.number (clamped32 b.rowStart)) (clamped32 b.rowSpan) true)

/-! ## Area names -/

/-- The words that name no area. -/
def reservedNames : List String := ["auto", "inherit", "initial", "unset", "revert", "revert-layer"]

/-- Whether a text names an area: it has no blank, slash or quote, does not begin with a digit
behind any hyphens, and is no reserved word. -/
def isAreaName (name : String) : Bool :=
  let cs := name.toList
  let digitFirst := ((cs.dropWhile (· == '-')).head?.map Char.isDigit).getD false
  !cs.isEmpty && !digitFirst
    && !cs.any (fun c => Text.isBlank c || c == '/' || c == '"' || c == '\'')
    && !reservedNames.any fun k => Text.sameIgnoringCase k.toList cs

end ResponsiveStyle.Grid
