/-
# Attributes of a node

A node stores its scope id and its styles under two of its attributes; the configuration names them.
-/
import ResponsiveStyle.Config.Basic
import ResponsiveStyle.Style.Shape

namespace ResponsiveStyle.Style.Record

/-- The record that the attributes of a node store. -/
def ofAttributes (c : Config) (attributes : Json) : Record :=
  { Record.ofJson ((attributes.get? c.stylesField).getD .null) with
    id := ((attributes.get? c.scopeIdField).bind Json.text?).bind ScopeId.sanitize? }

/-- The attributes that store a record. -/
def toAttributes (c : Config) (r : Record) : Json :=
  let id := r.id.toList.map fun id => (c.scopeIdField, Json.text id)
  .ofMembers (id ++ [(c.stylesField, r.toJson)])

end ResponsiveStyle.Style.Record
