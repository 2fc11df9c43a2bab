/-
# The command line

The steps of a command carried out on the files of the machine. A step that fails answers that it
has failed; what follows from that is up to the command.
-/
import ResponsiveStyle.CommandLine.Run

namespace ResponsiveStyle.CommandLine

open Output (DirectoryStep Plan)

/-- Whether an action succeeds. -/
def succeeds (action : IO Unit) : IO Bool := do
  match ← action.toBaseIO with
  | .ok () => return true
  | .error _ => return false

/-- What an action gives, if it succeeds. -/
def result? {α : Type} (action : IO α) : IO (Option α) := do
  match ← action.toBaseIO with
  | .ok a => return some a
  | .error _ => return none

/-- The first name for a file that is not among those in a directory. -/
def unusedName (taken : List String) : String :=
  let candidates := (List.range (taken.length + 1)).map fun i => ".tmp" ++ Text.natText i
  (candidates.find? fun name => !taken.contains name).getD ".tmp"

/-- The names in a directory. -/
def namesIn (dir : String) : IO (List String) := do
  return (← ((← IO.currentDir) / dir).readDir).toList.map fun entry => entry.fileName

/-- One step on the output directory. -/
def carryOut (c : Config) : (s : DirectoryStep) → IO s.Reply
  | .hasUploads =>
    if c.uploadsDir == "" then return false else do ((← IO.currentDir) / c.uploadsDir).isDir
  | .makeOutput => succeeds (IO.FS.createDirAll c.outputDir)
  | .read name => result? (IO.FS.readBinFile (Config.under c.outputDir name))
  | .makeTemporary => result? do
    let name := unusedName (← namesIn c.outputDir)
    IO.FS.writeBinFile (Config.under c.outputDir name) .empty
    return name
  | .fill name content => succeeds (IO.FS.writeBinFile (Config.under c.outputDir name) content)
  | .replace temporary name =>
    succeeds (IO.FS.rename (Config.under c.outputDir temporary) (Config.under c.outputDir name))
  | .discard name => do discard (succeeds (IO.FS.removeFile (Config.under c.outputDir name)))
  | .names => result? (namesIn c.outputDir)
  | .remove name => succeeds (IO.FS.removeFile (Config.under c.outputDir name))

/-- One step of a command. -/
def carryOutStep : (s : CommandStep) → IO s.Reply
  | .readFile path => result? (IO.FS.readFile path)
  | .readInput => do result? (← IO.getStdin).readToEnd
  | .output c s => carryOut c s

/-- A plan step by step. -/
def carryOutPlan {α : Type} : Plan CommandStep CommandStep.Reply α → IO α
  | .done a => return a
  | .step s next => do carryOutPlan (next (← carryOutStep s))

end ResponsiveStyle.CommandLine

open ResponsiveStyle.CommandLine in
/-- The command line: what a run prints goes to the standard output, its complaints to the other
one. -/
def main (args : List String) : IO UInt32 := do
  let outcome ← carryOutPlan (runArguments args)
  IO.print outcome.output
  IO.eprint outcome.complaint
  return outcome.code.toUInt32
