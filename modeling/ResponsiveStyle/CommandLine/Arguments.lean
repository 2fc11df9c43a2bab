/-
# Arguments of the command line

The arguments name one command with its operand, and settings in front of the command or behind it.
A setting has a short name of one letter and a long name; its value stands in the same argument or
in the next one, which must not look like a setting then. Letters without values can be joined. What
stands behind two hyphens is an operand however it looks.

* `items` reads the arguments one by one; what it cannot read is `Item.wrong`.
* `Request.ofArguments?` makes a request of them, and there is none if they are wrong.
-/
import ResponsiveStyle.Text.Blank

namespace ResponsiveStyle.CommandLine

/-! ## Names -/

/-- The commands. -/
inductive CommandName
  | render
  | rebuild
  | tracks
  | areas
  deriving DecidableEq, Repr

namespace CommandName

/-- Every command. -/
def all : List CommandName := [.render, .rebuild, .tracks, .areas]

/-- The name of a command. -/
def text : CommandName → String
  | .render => "render"
  | .rebuild => "rebuild"
  | .tracks => "tracks"
  | .areas => "areas"

/-- The command of a name. -/
def ofText? (s : String) : Option CommandName := all.find? fun c => c.text == s

end CommandName

/-- The settings that have a value. -/
inductive Setting
  | config
  | nodeType
  deriving DecidableEq, Repr

/-- The settings that have none. -/
inductive Switch
  | verbose
  | help
  | version
  deriving DecidableEq, Repr

/-- Where an argument stands: in front of the command or behind it. -/
abbrev Place := Option CommandName

/-- The setting of a short name. -/
def shortSetting? (p : Place) (c : Char) : Option Setting :=
  if c == 'c' then some .config
  else if c == 't' && p == some .render then some .nodeType
  else none

/-- The setting of a long name. -/
def longSetting? (p : Place) (name : List Char) : Option Setting :=
  if name == "config".toList then some .config
  else if name == "node-type".toList && p == some .render then some .nodeType
  else none

/-- The switch of a short name. -/
def shortSwitch? (p : Place) (c : Char) : Option Switch :=
  if c == 'v' then some .verbose
  else if c == 'h' then some .help
  else if c == 'V' && p == none then some .version
  else none

/-- The switch of a long name. -/
def longSwitch? (p : Place) (name : List Char) : Option Switch :=
  if name == "verbose".toList then some .verbose
  else if name == "help".toList then some .help
  else if name == "version".toList && p == none then some .version
  else none

/-! ## Items -/

/-- What an argument, or a part of one, says. -/
inductive Item
  | command (name : CommandName)
  | operand (text : String)
  | setting (key : Setting) (value : String)
  | switch (switch : Switch)
  | wrong
  deriving DecidableEq, Repr

/-- The items of an argument, and the setting that takes the next argument for its value. -/
structure Piece where
  items : List Item
  waiting : Option Setting

namespace Piece

/-- The piece of letters behind one hyphen. -/
def ofLetters (p : Place) : List Char → Piece
  | [] => ⟨[], none⟩
  | c :: cs =>
    match shortSwitch? p c, shortSetting? p c, cs with
    | some s, _, cs =>
      let rest := ofLetters p cs
      ⟨.switch s :: rest.items, rest.waiting⟩
    | none, some key, [] => ⟨[], some key⟩
    | none, some key, '=' :: value => ⟨[.setting key (String.ofList value)], none⟩
    | none, some key, value => ⟨[.setting key (String.ofList value)], none⟩
    | none, none, _ => ⟨[.wrong], none⟩

/-- The piece of a name behind two hyphens, with a value if there is an equals sign. -/
def ofName (p : Place) (cs : List Char) : Piece :=
  let name := cs.takeWhile (· != '=')
  match longSwitch? p name, longSetting? p name, cs.dropWhile (· != '=') with
  | some s, _, [] => ⟨[.switch s], none⟩
  | none, some key, [] => ⟨[], some key⟩
  | none, some key, _ :: value => ⟨[.setting key (String.ofList value)], none⟩
  | _, _, _ => ⟨[.wrong], none⟩

end Piece

/-- Whether an argument looks like a setting: a hyphen with something behind it. -/
def looksLikeSetting (arg : String) : Bool :=
  match arg.toList with
  | '-' :: _ :: _ => true
  | _ => false

/-- The one item that a request for help makes, which may name a command. -/
def helpItem : List String → Item
  | [] => .switch .help
  | [name] => if name == "help" || (CommandName.ofText? name).isSome then .switch .help else .wrong
  | _ => .wrong

/-- The items of operands. In front of the command there are none. -/
def operands (p : Place) (args : List String) : List Item :=
  args.map fun arg => if p == none then .wrong else .operand arg

/-- The items of arguments behind a place, where `waiting` takes the first one for its value. -/
def items (p : Place) (waiting : Option Setting) : List String → List Item
  | [] => if waiting.isSome then [.wrong] else []
  | arg :: args =>
    match waiting with
    | some key =>
      if looksLikeSetting arg then [.wrong] else .setting key arg :: items p none args
    | none =>
      match arg.toList with
      | ['-', '-'] => operands p args
      | '-' :: '-' :: name =>
        let piece := Piece.ofName p name
        piece.items ++ items p piece.waiting args
      | '-' :: c :: letters =>
        let piece := Piece.ofLetters p (c :: letters)
        piece.items ++ items p piece.waiting args
      | _ =>
        if p.isSome then .operand arg :: items p none args
        else if arg == "help" then [helpItem args]
        else match CommandName.ofText? arg with
          | some c => .command c :: items (some c) none args
          | none => [.wrong]

/-! ## Requests -/

/-- A command with what it works on. -/
inductive Command
  | render (attributes nodeType : String)
  | rebuild (site : String)
  | tracks (template : String)
  | areas (template : String)
  deriving DecidableEq, Repr

/-- A command under a configuration, which is read from a file if one is named. -/
structure Invocation where
  config : Option String
  command : Command
  deriving DecidableEq, Repr

/-- What the arguments ask for. -/
inductive Request
  | run (invocation : Invocation)
  | help
  | version
  deriving DecidableEq, Repr

/-- What has been read of the arguments. The file of the configuration may be named once in front of
the command and once behind it. -/
structure Reading where
  outerConfig : Option String
  command : Option CommandName
  config : Option String
  nodeType : Option String
  operand : Option String

namespace Reading

/-- Nothing has been read. -/
def nothing : Reading := ⟨none, none, none, none, none⟩

/-- The node type that is rendered if none is named. -/
def standardNodeType : String := "core/group"

/-- The reading with one item more, if the item is in order. A file has a name, and every place has
at most one value. -/
def add? (r : Reading) : Item → Option Reading
  | .command name => some { r with outerConfig := r.config, command := some name, config := none }
  | .operand s =>
    if r.operand.isSome || (r.command == some .rebuild && s.isEmpty) then none
    else some { r with operand := some s }
  | .setting .config s =>
    if r.config.isSome || s.isEmpty then none else some { r with config := some s }
  | .setting .nodeType s => if r.nodeType.isSome then none else some { r with nodeType := some s }
  | .switch _ => some r
  | .wrong => none

/-- The invocation that has been read, if it is complete. The file that is named behind the command
comes first. -/
def invocation? (r : Reading) : Option Invocation := do
  let operand ← r.operand
  let command := match ← r.command with
    | .render => Command.render operand (r.nodeType.getD standardNodeType)
    | .rebuild => .rebuild operand
    | .tracks => .tracks operand
    | .areas => .areas operand
  return ⟨r.config.or r.outerConfig, command⟩

/-- The request of items behind those read. Help and the version end the reading. -/
def request? (r : Reading) : List Item → Option Request
  | [] => r.invocation?.map .run
  | .switch .help :: _ => some .help
  | .switch .version :: _ => some .version
  | item :: rest =>
    match r.add? item with
    | some r => r.request? rest
    | none => none

end Reading

/-- The request of arguments, unless they are wrong. -/
def Request.ofArguments? (args : List String) : Option Request :=
  Reading.nothing.request? (items none none args)

end ResponsiveStyle.CommandLine
