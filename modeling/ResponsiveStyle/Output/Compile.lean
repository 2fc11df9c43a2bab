/-
# Compiling style sheets

A style sheet is kept in the output directory under a name made of its scope and its content. The
file is written only if it does not hold the content already: first to a file of its own, which then
takes the place of the target at once. Only after that the older files of the scope are removed.
-/
import ResponsiveStyle.Config.Basic
import ResponsiveStyle.Output.Digest
import ResponsiveStyle.Output.Plan
import ResponsiveStyle.Output.Scope
import ResponsiveStyle.Output.Sheet
import ResponsiveStyle.Sheet.Pass

namespace ResponsiveStyle.Output

open Sheet (Pass)

/-! ## Steps -/

/-- The steps on the output directory. Files are named within it. -/
inductive DirectoryStep
  | hasUploads
  | makeOutput
  | read (name : String)
  | makeTemporary
  | fill (temporary : String) (content : ByteArray)
  | replace (temporary name : String)
  | discard (temporary : String)
  | names
  | remove (name : String)

/-- The answers to steps: whether the step succeeded, or what it found or made, if it did. -/
abbrev DirectoryStep.Reply : DirectoryStep → Type
  | .hasUploads => Bool
  | .makeOutput => Bool
  | .read _ => Option ByteArray
  | .makeTemporary => Option String
  | .fill _ _ => Bool
  | .replace _ _ => Bool
  | .discard _ => Unit
  | .names => Option (List String)
  | .remove _ => Bool

/-- A plan on the output directory. -/
abbrev DirectoryPlan (α : Type) := Plan DirectoryStep DirectoryStep.Reply α

namespace DirectoryPlan

/-- Whether the directory that holds the output directory is there. -/
def hasUploads : DirectoryPlan Bool := Plan.ask DirectoryStep.hasUploads

/-- Make the output directory unless it is there. -/
def makeOutput : DirectoryPlan Bool := Plan.ask DirectoryStep.makeOutput

/-- The content of a file. -/
def read (name : String) : DirectoryPlan (Option ByteArray) := Plan.ask (DirectoryStep.read name)

/-- Make a file that has a name of its own. -/
def makeTemporary : DirectoryPlan (Option String) := Plan.ask DirectoryStep.makeTemporary

/-- Give a file its content. -/
def fill (temporary : String) (content : ByteArray) : DirectoryPlan Bool :=
  Plan.ask (DirectoryStep.fill temporary content)

/-- Let a file take the place of another one at once. -/
def replace (temporary name : String) : DirectoryPlan Bool :=
  Plan.ask (DirectoryStep.replace temporary name)

/-- Remove a file that is not needed any more. -/
def discard (temporary : String) : DirectoryPlan Unit := Plan.ask (DirectoryStep.discard temporary)

/-- The names of all files. -/
def names : DirectoryPlan (Option (List String)) := Plan.ask DirectoryStep.names

/-- Remove a file. -/
def remove (name : String) : DirectoryPlan Bool := Plan.ask (DirectoryStep.remove name)

end DirectoryPlan

open DirectoryPlan

/-! ## Writing and removing -/

/-- Put a content in the place of a file: all of it, or nothing. -/
def writeAtOnce (name : String) (content : ByteArray) : DirectoryPlan (Except Error Unit) := do
  match ← makeTemporary with
  | none => return .error .io
  | some temporary =>
    if ← fill temporary content then
      if ← replace temporary name then return .ok ()
      else
        discard temporary
        return .error .persist
    else
      discard temporary
      return .error .io

/-- Remove files one by one, and count those that could be removed. -/
def removeAll : List String → DirectoryPlan Nat
  | [] => return 0
  | name :: names => do
    let removed ← remove name
    let others ← removeAll names
    return (if removed then 1 else 0) + others

/-- Remove the files of a scope other than `keep`. -/
def removeStale (lead keep : String) : DirectoryPlan Nat := do
  match ← names with
  | none => return 0
  | some found => removeAll (found.filter fun name => name != keep && isScopeFile lead name)

/-! ## Compiling -/

/-- The digest of contents by which files are named. -/
abbrev Hash := ByteArray → String

/-- The digest that names the files of a site. -/
def contentHash : Hash := fun content => Digest.sha1 content.toList

/-- A compiled style sheet, whether its file was written for it, and how many older files of its
scope were removed. -/
structure Compilation where
  sheet : CompiledSheet
  written : Bool
  removed : Nat
  deriving DecidableEq, Repr

/-- Write the file of a style sheet unless it holds the content already. -/
def refresh (hash : Hash) (name : String) (content : ByteArray) :
    DirectoryPlan (Except Error Bool) := do
  match ← read name with
  | some existing =>
    if hash existing == hash content then return .ok false
    else return (← writeAtOnce name content).map fun _ => true
  | none => return (← writeAtOnce name content).map fun _ => true

/-- Keep a style sheet that is not blank in a directory that is there. -/
def keep (hash : Hash) (c : Config) (lead css : String) :
    DirectoryPlan (Except Error Compilation) := do
  let content := css.toUTF8
  let digest := hash content
  let name := fileName lead digest
  match ← refresh hash name content with
  | .error e => return .error e
  | .ok written =>
    let removed ← removeStale lead name
    return .ok {
      sheet := ⟨css, Config.under c.outputDir name, c.outputUrl ++ "/" ++ name, digest⟩
      written
      removed }

/-- Compile a style sheet for a scope; a blank one makes no file. -/
def tryCompile (hash : Hash) (c : Config) (css : String) (scope : Scope) :
    DirectoryPlan (Except Error (Option Compilation)) := do
  if Text.isBlankText css then return .ok none
  else match scope.lead? with
    | .error e => return .error e
    | .ok lead =>
      if ← hasUploads then
        if ← makeOutput then return (← keep hash c lead css).map some
        else return .error .io
      else return .error (.missingDirectory c.uploadsDir)

/-- Compile a style sheet for a scope; one that cannot be compiled is left out. -/
def compile (hash : Hash) (c : Config) (css : String) (scope : Scope) :
    DirectoryPlan (Option Compilation) := do
  match ← tryCompile hash c css scope with
  | .ok result => return result
  | .error _ => return none

/-- Compile what a pass has collected, and empty the pass. -/
def flush (hash : Hash) (c : Config) (pass : Pass) (scope : Scope) :
    DirectoryPlan (Option Compilation × Pass) := do
  let (css, pass) := pass.drain
  return (← compile hash c css scope, pass)

end ResponsiveStyle.Output
