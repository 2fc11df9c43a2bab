/-
# The invariant of style records

Whatever was stored and whatever editors do, the declarations of a bucket have keys of their own and
are well-formed, and an id is a valid one. Every way to make a record gives such a record
(`wellFormed_ofAttributes`), every call keeps it (`WellFormed.call`), and so does every run.
-/
import ResponsiveStyle.Proofs.Style.Bucket
import ResponsiveStyle.Proofs.Style.Run
import ResponsiveStyle.Proofs.Style.ScopeId

namespace ResponsiveStyle.Style

/-! ## Buckets -/

/-- Edits one after the other keep a bucket well-formed. -/
theorem Bucket.WellFormed.foldl_edit {b : Bucket} (hb : b.WellFormed) (c : Config)
    (edits : List Edit) : (edits.foldl (Bucket.edit c) b).WellFormed := by
  induction edits generalizing b with
  | nil => exact hb
  | cons e edits ih => exact ih (hb.edit c e)

/-- A record of values makes a well-formed bucket. -/
theorem Bucket.wellFormed_ofMembers (members : List (String × Json)) :
    (ofMembers members).WellFormed := by
  apply wellFormed_ofList
  intro d hd
  obtain ⟨m, -, hm⟩ := List.mem_filterMap.mp hd
  exact (Declaration.of_ofJson? hm).2

/-- A list of declarations makes a well-formed bucket. -/
theorem Bucket.wellFormed_ofItems (items : List Json) : (ofItems items).WellFormed := by
  apply wellFormed_ofList
  intro d hd
  obtain ⟨item, -, hitem⟩ := List.mem_filterMap.mp hd
  exact Declaration.wellFormed_ofItem? hitem

/-- Whatever is stored for a tier makes a well-formed bucket. -/
theorem Bucket.wellFormed_ofJson (j : Json) : (ofJson j).WellFormed := by
  unfold ofJson
  split
  · split
    · exact wellFormed_ofMembers _
    · exact wellFormed_ofItems _
    · exact wellFormed_empty
    · exact wellFormed_ofMembers _
  · exact wellFormed_empty

namespace Record

/-! ## Records -/

/-- Every bucket is well-formed, and an id is a valid one. -/
structure WellFormed (r : Record) : Prop where
  bucket : ∀ tier, (r.bucket tier).WellFormed
  id : ∀ id, r.id = some id → ScopeId.Valid id

/-- The record without id and declarations is well-formed. -/
theorem wellFormed_empty : empty.WellFormed := by
  refine ⟨fun tier => ?_, fun id h => absurd h (by simp [empty])⟩
  cases tier <;> exact Bucket.wellFormed_empty

/-- Stored styles of any shape make well-formed buckets. -/
theorem wellFormed_bucket_ofJson (j : Json) (tier : Tier) :
    ((ofJson j).bucket tier).WellFormed := by
  have hstored : ∀ o : Option Json, ((o.map Bucket.ofJson).getD .empty).WellFormed := by
    intro o
    cases o with
    | none => exact Bucket.wellFormed_empty
    | some j => exact Bucket.wellFormed_ofJson j
  unfold ofJson
  split
  · simp only
    split
    · cases tier <;> exact hstored _
    · cases tier
      · exact Bucket.wellFormed_ofMembers _
      · exact Bucket.wellFormed_empty
      · exact Bucket.wellFormed_empty
  · exact wellFormed_empty.bucket tier

/-- The record that attributes store is well-formed. -/
theorem wellFormed_ofAttributes (c : Config) (attributes : Json) :
    (ofAttributes c attributes).WellFormed := by
  constructor
  · intro tier
    have hbucket := wellFormed_bucket_ofJson ((attributes.get? c.stylesField).getD .null) tier
    cases tier <;> exact hbucket
  · intro id h
    obtain ⟨raw, -, hraw⟩ := Option.bind_eq_some_iff.mp h
    exact ScopeId.valid_of_sanitize? hraw

/-- An editor begins with a well-formed record. -/
theorem wellFormed_opened (c : Config) (stored : Option Json) : (opened c stored).WellFormed := by
  cases stored with
  | none => exact wellFormed_empty
  | some attributes => exact wellFormed_ofAttributes c attributes

/-! ## Calls and runs -/

/-- A call keeps a record well-formed. -/
theorem WellFormed.call {r : Record} (h : r.WellFormed) (c : Config) (k : Call) :
    (r.call c k).WellFormed := by
  constructor
  · intro tier
    rw [bucket_call]
    exact (h.bucket tier).foldl_edit c _
  · intro id hid
    rw [id_call] at hid
    cases hr : r.id with
    | none =>
      rw [hr] at hid
      exact Option.some.inj hid ▸ ScopeId.valid_fresh k.entropy
    | some old =>
      rw [hr] at hid
      exact Option.some.inj hid ▸ h.id old hr

/-- A run keeps a record well-formed. -/
theorem WellFormed.run {r : Record} (h : r.WellFormed) (c : Config) (calls : List Call) :
    (r.run c calls).WellFormed :=
  run_induction c calls (fun _ k hr => hr.call c k) h

/-- Every record that editors reach is well-formed, and no call changes an id that is there. -/
theorem wellFormed_run_opened (c : Config) (stored : Option Json) (calls : List Call) :
    ((opened c stored).run c calls).WellFormed ∧
      ∀ (id : String) (more : List Call), ((opened c stored).run c calls).id = some id →
        ((opened c stored).run c (calls ++ more)).id = some id := by
  refine ⟨(wellFormed_opened c stored).run c calls, ?_⟩
  intro id more hid
  rw [run_append]
  exact id_run c hid more

end Record

end ResponsiveStyle.Style
