/-
# Runs of editor calls

An editor is bound to one tier; a run is any sequence of calls of any editors on one record. A call
changes the bucket of its tier only, edit by edit, and gives the record an id if it has none. So the
bucket of a tier after a run is the bucket before it with the edits of that tier made one after the
other (`bucket_run`), and an id stays what it is (`id_run`).
-/
import ResponsiveStyle.Style.Attributes
import ResponsiveStyle.Style.Edit

namespace ResponsiveStyle.Style

/-! ## Calls -/

/-- A call of the editor of a tier; `entropy` is the number of the id for a record without one. -/
structure Call where
  tier : Tier
  operation : Operation
  entropy : Nat

/-- The edits that calls make at a tier, in order. -/
def editsAt (tier : Tier) (calls : List Call) : List Edit :=
  calls.flatMap fun k => if k.tier = tier then k.operation.edits else []

namespace Record

/-- The record after a call. -/
def call (c : Config) (r : Record) (k : Call) : Record := r.perform c k.entropy k.tier k.operation

/-- The record after calls one after the other. -/
def run (c : Config) (r : Record) (calls : List Call) : Record := calls.foldl (call c) r

/-- The record that an editor of a node begins with: the stored one, if the node stores any. -/
def opened (c : Config) : Option Json → Record
  | none => empty
  | some attributes => ofAttributes c attributes

/-! ## One call -/

/-- Changing the bucket of a tier changes no other one. -/
theorem bucket_modify (r : Record) (f : Bucket → Bucket) (tier t : Tier) :
    (r.modify f tier).bucket t = if tier = t then f (r.bucket t) else r.bucket t := by
  cases tier <;> cases t <;> rfl

/-- Changing the bucket of a tier keeps the id. -/
theorem id_modify (r : Record) (f : Bucket → Bucket) (tier : Tier) :
    (r.modify f tier).id = r.id := by
  cases tier <;> rfl

/-- A call makes its edits in the bucket of its tier. -/
theorem bucket_call (c : Config) (r : Record) (k : Call) (tier : Tier) :
    (r.call c k).bucket tier = (editsAt tier [k]).foldl (Bucket.edit c) (r.bucket tier) := by
  have hseed : (r.seeded k.entropy).bucket tier = r.bucket tier := by cases tier <;> rfl
  unfold call perform edited
  rw [bucket_modify, hseed]
  by_cases h : k.tier = tier
  · simp [editsAt, h]
  · simp [editsAt, h]

/-- A call keeps an id and makes a fresh one where there is none. -/
theorem id_call (c : Config) (r : Record) (k : Call) :
    (r.call c k).id = some (r.id.getD (ScopeId.fresh k.entropy)) := by
  unfold call perform edited
  rw [id_modify]
  rfl

/-! ## Whole runs -/

/-- Making two runs one after the other is making one run. -/
theorem run_append (c : Config) (r : Record) (calls more : List Call) :
    r.run c (calls ++ more) = (r.run c calls).run c more :=
  List.foldl_append

/-- What one call keeps and the record has to begin with, a whole run keeps. -/
theorem run_induction {P : Record → Prop} (c : Config) (calls : List Call)
    (hcall : ∀ r k, P r → P (r.call c k)) {r : Record} (h : P r) : P (r.run c calls) := by
  induction calls generalizing r with
  | nil => exact h
  | cons k calls ih => exact ih (hcall r k h)

/-- A run makes the edits of a tier in the bucket of that tier. -/
theorem bucket_run (c : Config) (r : Record) (calls : List Call) (tier : Tier) :
    (r.run c calls).bucket tier
      = (editsAt tier calls).foldl (Bucket.edit c) (r.bucket tier) := by
  induction calls generalizing r with
  | nil => rfl
  | cons k calls ih =>
    show ((r.call c k).run c calls).bucket tier = _
    -- the edits of the first call at the tier come before those of all others
    have hedits : editsAt tier (k :: calls) = editsAt tier [k] ++ editsAt tier calls := by
      simp [editsAt]
    rw [ih, bucket_call, hedits, List.foldl_append]

/-- An id that is there once is never changed by a run. -/
theorem id_run (c : Config) {r : Record} {id : String} (h : r.id = some id)
    (calls : List Call) : (r.run c calls).id = some id := by
  refine run_induction (P := fun r => r.id = some id) c calls ?_ h
  intro r k hr
  rw [id_call, hr]
  rfl

/-- A record is known by its id and its buckets. -/
theorem ext_bucket {r r' : Record} (hid : r.id = r'.id)
    (hbucket : ∀ tier, r.bucket tier = r'.bucket tier) : r = r' := by
  obtain ⟨id, desktop, tablet, mobile⟩ := r
  have hdesktop : desktop = r'.desktop := hbucket .desktop
  have htablet : tablet = r'.tablet := hbucket .tablet
  have hmobile : mobile = r'.mobile := hbucket .mobile
  have hid' : id = r'.id := hid
  rw [hid', hdesktop, htablet, hmobile]

/-- Runs that leave the same buckets behind are the same on a record with an id: the ids that their
calls bring along are not used. -/
theorem run_congr (c : Config) {r : Record} (hid : r.id.isSome = true) {calls calls' : List Call}
    (h : ∀ tier, (editsAt tier calls).foldl (Bucket.edit c) (r.bucket tier)
      = (editsAt tier calls').foldl (Bucket.edit c) (r.bucket tier)) :
    r.run c calls = r.run c calls' := by
  obtain ⟨id, hsome⟩ := Option.isSome_iff_exists.mp hid
  apply ext_bucket
  · rw [id_run c hsome calls, id_run c hsome calls']
  · intro tier
    rw [bucket_run, bucket_run]
    exact h tier

/-- After a call there is an id. -/
theorem isSome_id_run (c : Config) (r : Record) {calls : List Call} (h : calls ≠ []) :
    (r.run c calls).id.isSome = true := by
  cases calls with
  | nil => exact absurd rfl h
  | cons k calls =>
    show ((r.call c k).run c calls).id.isSome = true
    rw [id_run c (id_call c r k) calls]
    rfl

end Record

end ResponsiveStyle.Style
