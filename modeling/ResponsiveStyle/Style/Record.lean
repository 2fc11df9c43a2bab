/-
# Style records

The record of one node: a bucket for each tier, and the scope id that ties it to the selector of the
node. Reading falls back to wider tiers or not, as asked.
-/
import ResponsiveStyle.Style.Bucket
import ResponsiveStyle.Style.ScopeId
import ResponsiveStyle.Style.Tier
import ResponsiveStyle.Table

namespace ResponsiveStyle.Style

/-- The styles of one node. -/
structure Record where
  id : Option String
  desktop : Bucket
  tablet : Bucket
  mobile : Bucket
  deriving BEq, DecidableEq, Repr

/-- Whether a tier without a value takes the one of the next wider tier. -/
inductive ReadMode
  | cascade
  | raw
  deriving DecidableEq, Repr

namespace Record

/-- The record without id and declarations. -/
def empty : Record := ⟨none, .empty, .empty, .empty⟩

/-- The bucket of a tier. -/
def bucket (r : Record) : Tier → Bucket
  | .desktop => r.desktop
  | .tablet => r.tablet
  | .mobile => r.mobile

/-- The record with the bucket of a tier changed by `f`. -/
def modify (r : Record) (f : Bucket → Bucket) : Tier → Record
  | .desktop => { r with desktop := f r.desktop }
  | .tablet => { r with tablet := f r.tablet }
  | .mobile => { r with mobile := f r.mobile }

/-- Whether there is no declaration. -/
def isEmpty (r : Record) : Bool := Tier.all.all fun t => (r.bucket t).isEmpty

/-- The record with the scope id that is left of a text. -/
def withId (r : Record) (raw : String) : Record := { r with id := ScopeId.sanitize? raw }

/-! ## Reading -/

/-- The tiers that a reader at a tier asks in order. -/
def chain (tier : Tier) : ReadMode → List Tier
  | .cascade => tier.cascade
  | .raw => [tier]

/-- The declaration of a property that holds at a tier. -/
def resolve? (r : Record) (tier : Tier) (property : String) (mode : ReadMode) :
    Option Declaration :=
  (chain tier mode).findSome? fun t => (r.bucket t).get? property

/-- The value of a property that holds at a tier. -/
def get? (r : Record) (tier : Tier) (property : String) (mode : ReadMode) : Option Value :=
  (r.resolve? tier property mode).map Declaration.value

/-- The values of several properties by the names asked for; one without a value is left out. -/
def getMany (r : Record) (tier : Tier) (properties : List String) (mode : ReadMode) : Table Value :=
  Table.ofList (properties.filterMap fun p => (r.get? tier p mode).map fun v => (p, v))

/-! ## Documents -/

/-- The record of the buckets by the names of their tiers. -/
def toJson (r : Record) : Json := .record (Tier.all.map fun t => (t.name, (r.bucket t).toJson))

end Record

end ResponsiveStyle.Style
