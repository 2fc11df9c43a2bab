/-
# Errors

What can go wrong around the pure part: files and documents that cannot be read, a directory that is
missing, a scope that cannot name a file, and a node that fails to render.
-/
import ResponsiveStyle.Text.Quoted

namespace ResponsiveStyle

/-- The causes of failure. -/
inductive Error
  | io
  | json
  | persist
  | missingDirectory (path : String)
  | invalidScope (id : String)
  | render (node reason : String)
  deriving DecidableEq, Repr

/-- The message of an error. -/
def Error.message : Error → String
  | .io => "I/O error"
  | .json => "JSON error"
  | .persist => "Failed to persist stylesheet"
  | .missingDirectory path => "Missing directory: " ++ path
  | .invalidScope id => "Invalid scope id: " ++ Text.quoted id
  | .render node reason => "Render failed for node " ++ node ++ ": " ++ reason

end ResponsiveStyle
