/-
# Trees of files

Folders and files, each with the names that lead to it from the root. A path is followed name by
name, and every name it passes through has to be a folder. A plan on the output directory can be
carried out on a tree, where a step fails only if the tree gives a reason.
-/
import ResponsiveStyle.Output.Compile

namespace ResponsiveStyle.Output

/-- What a path leads to. -/
inductive Entry
  | folder
  | file (content : ByteArray)

/-- Whether an entry is a folder. -/
def Entry.isFolder : Entry → Bool
  | .folder => true
  | .file _ => false

/-- The folders and files below a root, each with the names that lead to it. -/
structure FileTree where
  entries : List (List String × Entry)

namespace FileTree

/-- The tree of the root only. -/
def empty : FileTree := ⟨[]⟩

/-! ## Entries -/

/-- What names lead to from the root. -/
def get? (t : FileTree) (names : List String) : Option Entry :=
  if names.isEmpty then some .folder
  else (t.entries.find? fun e => e.1 == names).map Prod.snd

/-- Whether names lead to a folder. -/
def isFolder (t : FileTree) (names : List String) : Bool := (t.get? names).any Entry.isFolder

/-- The tree with an entry in the place that names lead to. -/
def put (t : FileTree) (names : List String) (e : Entry) : FileTree :=
  ⟨t.entries.filter (fun old => old.1 != names) ++ [(names, e)]⟩

/-- The tree without the entry that names lead to and all below it. -/
def remove (t : FileTree) (names : List String) : FileTree :=
  ⟨t.entries.filter fun e => !names.isPrefixOf e.1⟩

/-- The names of the entries of a folder. -/
def children (t : FileTree) (folder : List String) : List String :=
  (t.entries.filter fun e => e.1.dropLast == folder).filterMap fun e => e.1.getLast?

/-- The tree with a folder and all folders above it, where there is no entry yet. -/
def makeFolders (t : FileTree) (names : List String) : FileTree :=
  (List.range names.length).foldl (fun t i =>
    let above := names.take (i + 1)
    if (t.get? above).isSome then t else t.put above .folder) t

/-- The entries by their paths, in the order of the paths. -/
def listing (t : FileTree) : List (String × Entry) :=
  (t.entries.map fun e => (Text.joined "/" e.1, e.2)).mergeSort fun a b => decide (a.1 ≤ b.1)

/-! ## Paths -/

/-- The greatest number of bytes of a name. -/
def maxNameSize : Nat := 255

/-- The names from the root to the place where a path ends that begins at `reached`. There need be
no entry at that place, but the path has to pass through folders. -/
def locateFrom (t : FileTree) : (reached path : List String) → Option (List String)
  | reached, [] => some reached
  | reached, name :: path =>
    if !t.isFolder reached || maxNameSize < name.utf8ByteSize then none
    else if Path.isStay name then t.locateFrom reached path
    else if name == ".." then
      if reached.isEmpty then none else t.locateFrom reached.dropLast path
    else t.locateFrom (reached ++ [name]) path

/-- The names from the root to the place where a path from the root ends. The empty path leads
nowhere, and a path with a slash in front leaves the tree. -/
def locate? (t : FileTree) (path : String) : Option (List String) :=
  if path == "" || path.toList.head? == some '/' then none
  else t.locateFrom [] (Path.segments path)

/-- Whether a path leads to a folder. -/
def isDirectory (t : FileTree) (path : String) : Bool :=
  match t.locate? path with
  | some names => t.isFolder names
  | none => false

/-- The content of the file that names lead to. -/
def content? (t : FileTree) (names : List String) : Option ByteArray :=
  match t.get? names with
  | some (.file content) => some content
  | _ => none

/-- The text of the file that a path leads to. -/
def text? (t : FileTree) (path : String) : Option String :=
  ((t.locate? path).bind t.content?).bind String.fromUTF8?

/-! ## Changes by path -/

/-- The names that a path without steps back is made of. -/
def plainNames (path : String) : List String := (Path.segments path).filter fun s => !Path.isStay s

/-- The tree with a file and the folders above it. -/
def withFile (t : FileTree) (path text : String) : FileTree :=
  (t.makeFolders (plainNames path).dropLast).put (plainNames path) (.file text.toUTF8)

/-- The tree with a folder and the folders above it. -/
def withFolder (t : FileTree) (path : String) : FileTree := t.makeFolders (plainNames path)

/-- The tree without the entry at a path. -/
def without (t : FileTree) (path : String) : FileTree := t.remove (plainNames path)

/-! ## Steps on a tree -/

/-- A name for a new file of a folder. -/
def freshName? (t : FileTree) (folder : List String) : Option String :=
  ((List.range (t.entries.length + 1)).map fun i => ".tmp" ++ Text.natText i).find? fun name =>
    !(t.children folder).contains name

/-- The tree with the file at `source` moved to `target`, unless a folder is in the way. -/
def move (t : FileTree) (source target : List String) : Bool × FileTree :=
  match t.content? source with
  | none => (false, t)
  | some content =>
    if t.isFolder target then (false, t) else (true, (t.remove source).put target (.file content))

/-- One step on the output directory, whose names are `output`. -/
def inOutput (output : List String) : (s : DirectoryStep) → FileTree → s.Reply × FileTree
  | .hasUploads, t => (t.isFolder output.dropLast, t)
  | .makeOutput, t =>
    match t.get? output with
    | none => (true, t.put output .folder)
    | some e => (e.isFolder, t)
  | .read name, t => ((t.locateFrom output [name]).bind t.content?, t)
  | .makeTemporary, t =>
    match t.freshName? output with
    | none => (none, t)
    | some name => (some name, t.put (output ++ [name]) (.file .empty))
  | .fill name content, t => (true, t.put (output ++ [name]) (.file content))
  | .replace temporary name, t =>
    match t.locateFrom output [name] with
    | none => (false, t)
    | some target => t.move (output ++ [temporary]) target
  | .discard name, t => ((), t.remove (output ++ [name]))
  | .names, t => (if t.isFolder output then some (t.children output) else none, t)
  | .remove name, t =>
    match t.content? (output ++ [name]) with
    | none => (false, t)
    | some _ => (true, t.remove (output ++ [name]))

/-- What a step answers where there is no directory for the output. -/
def nowhere : (s : DirectoryStep) → s.Reply
  | .hasUploads => false
  | .makeOutput => false
  | .read _ => none
  | .makeTemporary => none
  | .fill _ _ => false
  | .replace _ _ => false
  | .discard _ => ()
  | .names => none
  | .remove _ => false

/-- One step on the output directory of a configuration. -/
def answer (c : Config) (s : DirectoryStep) (t : FileTree) : s.Reply × FileTree :=
  if t.isDirectory c.uploadsDir then
    match t.locate? c.outputDir with
    | some output => inOutput output s t
    | none => (nowhere s, t)
  else (nowhere s, t)

end FileTree

end ResponsiveStyle.Output
