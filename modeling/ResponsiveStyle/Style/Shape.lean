/-
# Shapes of stored styles

Styles are stored in several shapes: as a record of tiers or as one record of properties, which
belong to the widest tier then; and the styles of a tier as a record of values or as a list of
declarations. `Record.ofJson` takes them all, and leaves out what is no declaration.
-/
import ResponsiveStyle.Style.Record

namespace ResponsiveStyle.Style

/-- The bucket of a record of values by property. -/
def Bucket.ofMembers (members : List (String × Json)) : Bucket :=
  .ofList (members.filterMap fun m => Declaration.ofJson? m.1 m.2)

/-- The declaration of an item of a list: a property, a value and maybe the flag of importance. -/
def Declaration.ofItem? (item : Json) : Option Declaration := do
  let property ← (← item.get? "property").text?
  let d ← Declaration.ofJson? property ((item.get? "value").getD .null)
  match item.get? "important" with
  | some (.bool true) => return d.flagged
  | _ => return d

/-- The bucket of a list of declarations. -/
def Bucket.ofItems (items : List Json) : Bucket := .ofList (items.filterMap Declaration.ofItem?)

/-- The bucket of one tier. A record without the member `styles` is itself a record of values. -/
def Bucket.ofJson : Json → Bucket
  | .record members =>
    match Json.findMember? "styles" members with
    | some (.record styles) => .ofMembers styles
    | some (.list items) => .ofItems items
    | some _ => .empty
    | none => .ofMembers members
  | _ => .empty

/-- The record of stored styles of any shape, without an id. -/
def Record.ofJson : Json → Record
  | .record members =>
    let stored (t : Tier) := Json.findMember? t.name members
    if Tier.all.any fun t => (stored t).isSome then
      let bucket (t : Tier) := ((stored t).map Bucket.ofJson).getD .empty
      ⟨none, bucket .desktop, bucket .tablet, bucket .mobile⟩
    else ⟨none, .ofMembers members, .empty, .empty⟩
  | _ => .empty

end ResponsiveStyle.Style
