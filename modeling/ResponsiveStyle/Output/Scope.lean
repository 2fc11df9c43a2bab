/-
# Scopes and their files

A style sheet belongs to one node or to the whole site. Its file is named for the scope and for the
first digits of the digest of its content, so that the files of a scope can be told from all others.
-/
import ResponsiveStyle.Error
import ResponsiveStyle.Text.Blank
import ResponsiveStyle.Text.Numeral

namespace ResponsiveStyle.Output

open Text (after? before? isHexDigit)

/-- What a style sheet is for. -/
inductive Scope
  | node (id : String)
  | site
  deriving DecidableEq, Repr

namespace Scope

/-- The name of a scope in messages. -/
def text : Scope → String
  | .node id => "post " ++ id
  | .site => "global"

/-- The characters of node ids that may name a file. -/
def isFileChar (c : Char) : Bool := c.isAlphanum || c == '-' || c == '_'

/-- Whether a node id may name a file. -/
def isFileId (id : String) : Bool := !id.isEmpty && id.toList.all isFileChar

/-- What the names of the files of a scope begin with. -/
def lead? : Scope → Except Error String
  | .site => .ok "global-"
  | .node id => if isFileId id then .ok ("post-" ++ id ++ "-") else .error (.invalidScope id)

end Scope

/-! ## Names of files -/

/-- How many digits of a digest a name holds. -/
def digestLength : Nat := 12

/-- The name of the file of a content with a digest. -/
def fileName (lead digest : String) : String :=
  lead ++ String.ofList (digest.toList.take digestLength) ++ ".css"

/-- Whether a file belongs to the scope whose files begin with `lead`: behind it the name has twelve
hexadecimal digits and the ending of style sheets, and nothing else. -/
def isScopeFile (lead name : String) : Bool :=
  match (after? lead.toList name.toList).bind (before? ".css".toList) with
  | some digits => digits.length == digestLength && digits.all isHexDigit
  | none => false

end ResponsiveStyle.Output
