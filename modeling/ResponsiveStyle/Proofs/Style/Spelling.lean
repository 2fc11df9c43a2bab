/-
# Spellings of properties

A declaration keeps its property as it was spelled, but nothing compares names otherwise than by
their keys. `keyed` puts the key in the place of the name: edits do the same to declarations without
their spellings as to declarations with them (`Bucket.keyed_edit`). So two runs of calls that differ
in spellings only go side by side: records that are alike stay alike (`Alike.run`), and alike
records answer alike under all spellings (`Alike.resolve?`).
-/
import ResponsiveStyle.Proofs.Style.Declaration
import ResponsiveStyle.Proofs.Style.Run

namespace ResponsiveStyle.Style

open Text (trimmed)

/-! ## Declarations without their spellings -/

/-- The declaration with the key in the place of the name. -/
def Declaration.keyed (d : Declaration) : Declaration := { d with property := d.key }

/-- The edit with the key in the place of the name. -/
def Edit.keyed : Edit → Edit
  | .set p v => .set (propertyKey p) v
  | .declare d => .declare d.keyed
  | .unset p => .unset (propertyKey p)

/-- The operation with keys in the places of names. -/
def Operation.keyed : Operation → Operation
  | .set p v => .set (propertyKey p) v
  | .setMany values => .setMany (values.map fun (p, v) => (propertyKey p, v))
  | .declare ds => .declare (ds.map Declaration.keyed)
  | .unset p => .unset (propertyKey p)
  | .unsetMany ps => .unsetMany (ps.map propertyKey)

/-- The bucket with keys in the places of names. -/
def Bucket.keyed (b : Bucket) : Bucket := ⟨b.declarations.map Declaration.keyed⟩

/-- The key in the place of the name has the same key. -/
@[simp]
theorem Declaration.key_keyed (d : Declaration) : d.keyed.key = d.key :=
  propertyKey_propertyKey d.property

/-! ## Declarations made under a key -/

/-- A property is unitless under all spellings. -/
theorem isUnitless_propertyKey (c : Config) (p : String) :
    c.isUnitless (propertyKey p) = c.isUnitless p := by
  unfold Config.isUnitless
  rw [propertyKey_propertyKey]

namespace Declaration

/-- A text makes the same declaration under the key. -/
theorem ofText?_propertyKey (unitless : Bool) (p s : String) :
    ofText? unitless (propertyKey p) s = (ofText? unitless p s).map keyed := by
  unfold ofText?
  simp only
  split <;> rfl

/-- A number makes the same declaration under the key. -/
theorem ofNumber?_propertyKey (unitless : Bool) (p : String) (x : Float) :
    ofNumber? unitless (propertyKey p) x = (ofNumber? unitless p x).map keyed := by
  unfold ofNumber?
  split <;> rfl

/-- An author's value makes the same declaration under the key. -/
theorem ofInput?_propertyKey (unitless : Bool) (p : String) (v : Value) :
    ofInput? unitless (propertyKey p) v = (ofInput? unitless p v).map keyed := by
  have htrimmed : trimmed (propertyKey p) = propertyKey (trimmed p) := by
    rw [propertyKey_trimmed]
    unfold trimmed
    rw [trim_propertyKey, String.ofList_toList]
  unfold ofInput?
  rw [isBlankName_propertyKey, htrimmed]
  split
  · rfl
  · cases v with
    | text s => exact ofText?_propertyKey unitless (trimmed p) s
    | number x => exact ofNumber?_propertyKey unitless (trimmed p) x

end Declaration

/-- An edit under the key leaves the same behind. -/
theorem Edit.outcome?_keyed (c : Config) (e : Edit) :
    e.keyed.outcome? c = (e.outcome? c).map Declaration.keyed := by
  cases e with
  | set p v =>
    show Declaration.ofInput? (c.isUnitless (propertyKey p)) (propertyKey p) v = _
    rw [isUnitless_propertyKey, Declaration.ofInput?_propertyKey]
    rfl
  | declare d =>
    show (Declaration.ofInput? (c.isUnitless (propertyKey d.property)) (propertyKey d.property)
        d.value).map (fun e => if d.important then e.flagged else e) = _
    rw [isUnitless_propertyKey, Declaration.ofInput?_propertyKey]
    show _ = ((Declaration.ofInput? (c.isUnitless d.property) d.property d.value).map
      fun e => if d.important then e.flagged else e).map Declaration.keyed
    rw [Option.map_map, Option.map_map]
    -- the flag is set after the name is replaced, or before
    cases d.important <;> rfl
  | unset p => rfl

/-- An edit under the key is about the same property. -/
theorem Edit.property_keyed (e : Edit) : e.keyed.property = propertyKey e.property := by
  cases e <;> rfl

/-! ## Buckets -/

namespace Bucket

/-- A declaration goes to the same place without the spellings. -/
theorem map_keyed_putIn (d : Declaration) (ds : List Declaration) :
    (putIn d ds).map Declaration.keyed = putIn d.keyed (ds.map Declaration.keyed) := by
  induction ds with
  | nil => rfl
  | cons e es ih =>
    rw [List.map_cons]
    unfold putIn
    rw [Declaration.key_keyed, Declaration.key_keyed]
    split
    · rfl
    · rw [List.map_cons, ih]

/-- Removing a property removes the same declarations without the spellings. -/
theorem keyed_remove (b : Bucket) (p : String) :
    (b.remove p).keyed = b.keyed.remove (propertyKey p) := by
  simp only [remove, keyed, List.filter_map, propertyKey_propertyKey]
  simp only [Function.comp_def, Declaration.key_keyed]

/-- An edit does the same to a bucket without the spellings. -/
theorem keyed_edit (c : Config) (b : Bucket) (e : Edit) :
    (b.edit c e).keyed = b.keyed.edit c e.keyed := by
  unfold edit
  rw [Edit.outcome?_keyed, Edit.property_keyed]
  cases e.outcome? c with
  | none => exact keyed_remove b e.property
  | some d => exact congrArg Bucket.mk (map_keyed_putIn d b.declarations)

/-- Edits one after the other do the same to a bucket without the spellings. -/
theorem keyed_foldl_edit (c : Config) (b : Bucket) (edits : List Edit) :
    (edits.foldl (edit c) b).keyed = (edits.map Edit.keyed).foldl (edit c) b.keyed := by
  induction edits generalizing b with
  | nil => rfl
  | cons e edits ih => rw [List.foldl_cons, ih, keyed_edit, List.map_cons, List.foldl_cons]

/-- A bucket answers the same without the spellings, and under all spellings of a property. -/
theorem get?_keyed (b : Bucket) {p p' : String} (h : propertyKey p = propertyKey p') :
    (b.get? p).map Declaration.keyed = b.keyed.get? p' := by
  simp only [get?, keyed, List.find?_map, h]
  simp only [Function.comp_def, Declaration.key_keyed]

end Bucket

/-! ## Calls that differ in spellings -/

/-- The edits of an operation without the spellings. -/
theorem Operation.edits_keyed (op : Operation) : op.keyed.edits = op.edits.map Edit.keyed := by
  cases op <;> simp [keyed, edits, Edit.keyed]

/-- Calls of the same operation at the same tier, but for the spellings of properties. -/
structure Call.Respelled (k k' : Call) : Prop where
  tier : k.tier = k'.tier
  operation : k.operation.keyed = k'.operation.keyed

namespace Record

/-- Records with the same id and, tier by tier, the same declarations in the same order, but for the
spellings of properties: the same keys, values and flags. -/
structure Alike (r r' : Record) : Prop where
  id : r.id = r'.id
  bucket : ∀ tier, (r.bucket tier).keyed = (r'.bucket tier).keyed

/-- Calls that differ in spellings leave alike records alike; without an id they have to bring the
same one along. -/
theorem Alike.call (c : Config) {r r' : Record} (h : r.Alike r') {k k' : Call}
    (hk : k.Respelled k') (hid : r.id.isSome = true ∨ k.entropy = k'.entropy) :
    (r.call c k).Alike (r'.call c k') := by
  constructor
  · rw [id_call, id_call, ← h.id]
    rcases hid with hid | hid
    · obtain ⟨id, hsome⟩ := Option.isSome_iff_exists.mp hid
      rw [hsome, Option.getD_some, Option.getD_some]
    · rw [hid]
  · intro tier
    have hedits : (editsAt tier [k]).map Edit.keyed = (editsAt tier [k']).map Edit.keyed := by
      simp only [editsAt, List.flatMap_singleton, hk.tier]
      split
      · rw [← Operation.edits_keyed, ← Operation.edits_keyed, hk.operation]
      · rfl
    rw [bucket_call, bucket_call, Bucket.keyed_foldl_edit, Bucket.keyed_foldl_edit, h.bucket,
      hedits]

/-- Runs of calls that differ in spellings leave alike records alike. -/
theorem Alike.run (c : Config) {r r' : Record} (h : r.Alike r') {calls calls' : List Call}
    (hcalls : List.Forall₂ Call.Respelled calls calls')
    (hid : r.id.isSome = true ∨ calls.map Call.entropy = calls'.map Call.entropy) :
    (r.run c calls).Alike (r'.run c calls') := by
  induction hcalls generalizing r r' with
  | nil => exact h
  | @cons k k' calls calls' hk _ ih =>
    have hcall : (r.call c k).Alike (r'.call c k') := by
      refine h.call c hk (hid.imp_right ?_)
      intro hentropy
      exact (List.cons.inj hentropy).1
    -- from the first call on there is an id, and later calls bring none along
    have hsome : (r.call c k).id.isSome = true := by
      rw [id_call]
      rfl
    exact ih hcall (.inl hsome)

/-- Alike records answer alike under all spellings of a property. -/
theorem Alike.resolve? {r r' : Record} (h : r.Alike r') {p p' : String}
    (hp : propertyKey p = propertyKey p') (tier : Tier) (mode : ReadMode) :
    (r.resolve? tier p mode).map Declaration.keyed
      = (r'.resolve? tier p' mode).map Declaration.keyed := by
  have hanswer : ∀ t, ((r.bucket t).get? p).map Declaration.keyed
      = ((r'.bucket t).get? p').map Declaration.keyed := by
    intro t
    rw [Bucket.get?_keyed _ hp, Bucket.get?_keyed _ rfl, h.bucket]
  unfold Record.resolve?
  simp only [List.map_findSome?, Function.comp_def, hanswer]

/-- Alike records have the same values under all spellings of a property. -/
theorem Alike.get? {r r' : Record} (h : r.Alike r') {p p' : String}
    (hp : propertyKey p = propertyKey p') (tier : Tier) (mode : ReadMode) :
    r.get? tier p mode = r'.get? tier p' mode := by
  have hvalue : ∀ d : Option Declaration,
      d.map Declaration.value = (d.map Declaration.keyed).map Declaration.value := by
    intro d
    cases d <;> rfl
  unfold Record.get?
  rw [hvalue, hvalue (r'.resolve? tier p' mode), h.resolve? hp]

end Record

end ResponsiveStyle.Style
