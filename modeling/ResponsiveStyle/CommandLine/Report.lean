/-
# Reports

What the command line prints about templates of grids, line by line, and about itself.
-/
import ResponsiveStyle.CommandLine.Arguments
import ResponsiveStyle.Grid.Axis
import ResponsiveStyle.Grid.Placement

namespace ResponsiveStyle.CommandLine

open Grid (Areas AutoRepeat Axis Summary)
open Text (joined natText)

/-- The text of lines, each with its end. -/
def linesText (lines : List String) : String := String.join (lines.map fun line => line ++ "\n")

/-! ## Axes -/

/-- The line of an axis. -/
def axisLine : Axis → String
  | .simple count unit => "Simple: " ++ natText count ++ " x " ++ unit
  | .tracks tokens => "Tracks: " ++ joined " | " tokens
  | .raw text => "Raw: " ++ text

/-- The name of a repetition that fills the axis. -/
def autoRepeatName : AutoRepeat → String
  | .fill => "Fill"
  | .fit => "Fit"

/-- The lines of a summary. -/
def summaryLines (s : Summary) : List String :=
  ("Count: " ++ natText s.count) :: (s.unit.toList.map fun unit => "Unit: " ++ unit) ++
    (s.autoRepeat.toList.map fun a => "Auto-repeat: " ++ autoRepeatName a) ++
    if s.subgrid then ["Subgrid: yes"] else []

/-- The report on the template of an axis. -/
def tracksReport (template : String) : String :=
  linesText (axisLine (.decode template) :: summaryLines (.ofTemplate template))

/-! ## Areas -/

/-- The line of an area of a matrix. -/
def areaLine (m : Areas) (name : String) : String :=
  match m.bounds? name with
  | some b =>
    let (column, row) := b.placements
    name ++ ": grid-row " ++ row ++ "; grid-column " ++ column
  | none => name ++ ": not rectangular"

/-- The report on a template of areas: its rows, an empty line, and its areas. -/
def areasReport (template : String) : String :=
  let m := Areas.parse template
  if m.isEmpty then linesText ["No areas"]
  else linesText (m.map (joined " ") ++ [""] ++ m.names.map (areaLine m))

/-! ## The command line -/

/-- The name and the number of the version. -/
def versionText : String := linesText ["costered 0.1.0"]

/-- How the command line is used. -/
def usageText : String :=
  linesText
    ["Responsive style compiler", "", "Usage: costered [OPTIONS] <COMMAND>", "", "Commands:",
      "  render   Render one block's attribute record to CSS",
      "  rebuild  Recompile the stylesheet of every eligible node in a site file",
      "  tracks   Decode a grid-template-columns/rows value",
      "  areas    Parse a grid-template-areas value",
      "  help     Print this message or the help of the given subcommand(s)", "", "Options:",
      "  -c, --config <FILE>  Configuration file (JSON)",
      "  -v, --verbose...     Increase log verbosity (-v debug, -vv trace)",
      "  -h, --help           Print help",
      "  -V, --version        Print version", "", "EXAMPLES:",
      "    costered render attrs.json -t core/button     Print a block's CSS",
      "    costered rebuild site.json -c costered.json   Recompile every stylesheet",
      "    costered tracks 'repeat(3, 1fr) 2fr'          Inspect a grid template"]

end ResponsiveStyle.CommandLine
