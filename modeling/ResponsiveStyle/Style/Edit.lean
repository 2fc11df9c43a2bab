/-
# Edits of a style record

An edit writes one property of one tier. An absent value removes the property. The operations of an
editor are runs of edits; the first of them on a record without an id gives it a fresh one.
-/
import ResponsiveStyle.Config.Basic
import ResponsiveStyle.Style.Record

namespace ResponsiveStyle.Style

/-! ## Edits -/

/-- A write of one property. -/
inductive Edit
  | set (property : String) (value : Value)
  | declare (declaration : Declaration)
  | unset (property : String)
  deriving DecidableEq, Repr

namespace Edit

/-- The property that is written. -/
def property : Edit → String
  | .set p _ => p
  | .declare d => d.property
  | .unset p => p

/-- The declaration that an edit leaves behind, if it leaves one. -/
def outcome? (c : Config) : Edit → Option Declaration
  | .set p v => Declaration.ofInput? (c.isUnitless p) p v
  | .declare d =>
    (Declaration.ofInput? (c.isUnitless d.property) d.property d.value).map fun e =>
      if d.important then e.flagged else e
  | .unset _ => none

end Edit

/-- The bucket after an edit. -/
def Bucket.edit (c : Config) (b : Bucket) (e : Edit) : Bucket :=
  match e.outcome? c with
  | some d => b.put d
  | none => b.remove e.property

/-! ## Operations -/

/-- What an editor does to one tier. -/
inductive Operation
  | set (property : String) (value : Value)
  | setMany (values : List (String × Value))
  | declare (declarations : List Declaration)
  | unset (property : String)
  | unsetMany (properties : List String)
  deriving DecidableEq, Repr

/-- The edits of an operation in order. -/
def Operation.edits : Operation → List Edit
  | .set p v => [.set p v]
  | .setMany values => values.map fun (p, v) => .set p v
  | .declare ds => ds.map .declare
  | .unset p => [.unset p]
  | .unsetMany ps => ps.map .unset

namespace Record

/-- The record with a fresh id if it has none. -/
def seeded (entropy : Nat) (r : Record) : Record :=
  { r with id := some (r.id.getD (ScopeId.fresh entropy)) }

/-- The record after edits of one tier. -/
def edited (c : Config) (tier : Tier) (edits : List Edit) (r : Record) : Record :=
  r.modify (fun b => edits.foldl (Bucket.edit c) b) tier

/-- The record after an operation on one tier; `entropy` is the number of a fresh id. -/
def perform (c : Config) (entropy : Nat) (tier : Tier) (op : Operation) (r : Record) : Record :=
  (r.seeded entropy).edited c tier op.edits

end Record

end ResponsiveStyle.Style
