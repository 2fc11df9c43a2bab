/-
# Running a command

A command reads its configuration first, then what it works on, and ends with a text to print or an
error. It is a plan over reading files and the standard input and over the steps on the output
directory, so it can be carried out on files or on a tree of them.
-/
import ResponsiveStyle.CommandLine.Report
import ResponsiveStyle.Config.Document
import ResponsiveStyle.Output.FileTree
import ResponsiveStyle.Sheet.Render
import ResponsiveStyle.Site.Document
import ResponsiveStyle.Site.Rebuild

namespace ResponsiveStyle.CommandLine

open Output (DirectoryPlan DirectoryStep FileTree Plan)
open Site (Source)

/-! ## Steps -/

/-- The steps of a command. -/
inductive CommandStep
  | readFile (path : String)
  | readInput
  | output (c : Config) (s : DirectoryStep)

/-- The answers to steps: a text, if there is one, or the answer of the output directory. -/
def CommandStep.Reply : CommandStep → Type
  | .readFile _ => Option String
  | .readInput => Option String
  | .output _ s => s.Reply

/-- A plan of a command. -/
abbrev CommandPlan (α : Type) := Plan CommandStep CommandStep.Reply α

/-- The text of a file. -/
def readFile (path : String) : CommandPlan (Option String) := Plan.ask (CommandStep.readFile path)

/-- The text of the standard input. -/
def readInput : CommandPlan (Option String) := Plan.ask CommandStep.readInput

/-- A plan on the output directory of a configuration, as a part of a command. -/
def onOutput {α : Type} (c : Config) (plan : DirectoryPlan α) : CommandPlan α :=
  plan.relabel (CommandStep.output c) fun _ reply => reply

/-! ## Commands -/

/-- What a text holds, where `read` reads it: a missing text is an error of reading files, and a
text that `read` refuses one of documents. -/
def decoded {α : Type} (read : String → Option α) : Option String → Except Error α
  | none => .error .io
  | some text =>
    match read text with
    | none => .error .json
    | some a => .ok a

/-- The configuration of a file, or the standard one. -/
def loadConfig : Option String → CommandPlan (Except Error Config)
  | none => return .ok .standard
  | some path => return decoded Config.ofText? (← readFile path)

/-- The text that is named by an operand; a hyphen names the standard input. -/
def readOperand (operand : String) : CommandPlan (Option String) :=
  if operand == "-" then readInput else readFile operand

/-- The nodes of the site in a file. -/
def loadSite (path : String) : CommandPlan (Except Error (List Site.Node)) := do
  return decoded Site.Node.listOfText? (← readFile path)

/-- The line that tells how many nodes were rebuilt. -/
def rebuildReport (count : Nat) : String :=
  linesText ["Processed " ++ Text.natText count ++ " node(s)"]

/-- What a command prints. -/
def Command.perform (c : Config) : Command → CommandPlan (Except Error String)
  | .render attributes nodeType => do
    return (decoded Json.ofText? (← readOperand attributes)).map (Sheet.renderAttributes c nodeType)
  | .rebuild path => do
    match ← loadSite path with
    | .error e => return .error e
    | .ok nodes =>
      let count ← onOutput c ((Source.ofNodes c nodes).rebuildAll Output.contentHash c)
      return .ok (rebuildReport count)
  | .tracks template => return .ok (tracksReport template)
  | .areas template => return .ok (areasReport template)

/-- What an invocation prints. -/
def Invocation.perform (i : Invocation) : CommandPlan (Except Error String) := do
  match ← loadConfig i.config with
  | .error e => return .error e
  | .ok c => i.command.perform c

/-! ## Outcomes -/

/-- How a run ends: with a code for the caller, what it prints, and what it complains about. -/
structure Outcome where
  code : Nat
  output : String
  complaint : String
  deriving DecidableEq, Repr

/-- The outcome of a command. -/
def Outcome.ofResult : Except Error String → Outcome
  | .ok text => ⟨0, text, ""⟩
  | .error e => ⟨1, "", linesText ["error: " ++ e.message]⟩

/-- The run of the command line with arguments. -/
def runArguments (args : List String) : CommandPlan Outcome :=
  match Request.ofArguments? args with
  | none => return ⟨2, "", usageText⟩
  | some .help => return ⟨0, usageText, ""⟩
  | some .version => return ⟨0, versionText, ""⟩
  | some (.run i) => do return Outcome.ofResult (← i.perform)

/-! ## On a tree -/

/-- One step on a tree of files, where the standard input is `input`. -/
def CommandStep.onTree (input : String) : (s : CommandStep) → FileTree → s.Reply × FileTree
  | .readFile path, t => (t.text? path, t)
  | .readInput, t => (some input, t)
  | .output c s, t => FileTree.answer c s t

/-- The run of the command line on a tree of files, and the tree behind it. -/
def runOnTree (args : List String) (input : String) (t : FileTree) : Outcome × FileTree :=
  (runArguments args).run (CommandStep.onTree input) t

end ResponsiveStyle.CommandLine
