/-
# Looking up and keeping keys apart

What a bucket answers after a declaration is put in or a property removed (`get?_put`,
`get?_remove`), also if keys are repeated in it; and why keys that are once apart stay apart,
whatever is put in or removed (`WellFormed.edit`). A bucket of declarations with keys apart is the
bucket of their list.
-/
import Mathlib.Data.List.Find
import Mathlib.Data.List.Nodup
import ResponsiveStyle.Proofs.Style.Declaration

namespace ResponsiveStyle.Style.Bucket

/-! ## Looking up -/

/-- The first declaration with a key, after one more has been put in. -/
theorem find?_putIn (d : Declaration) (ds : List Declaration) (k : String) :
    (putIn d ds).find? (fun e => e.key == k)
      = if d.key = k then some d else ds.find? (fun e => e.key == k) := by
  induction ds with
  | nil => by_cases hk : d.key = k <;> simp [putIn, hk]
  | cons e es ih =>
    unfold putIn
    by_cases he : e.key = d.key
    · -- `d` takes the place of `e`, so both answer for the same key
      rw [if_pos (by simpa using he)]
      by_cases hk : d.key = k <;> simp [he, hk]
    · rw [if_neg (by simpa using he)]
      by_cases hek : e.key = k
      · have hdk : d.key ≠ k := fun hdk => he (hek.trans hdk.symm)
        simp [hek, hdk]
      · have hne : (e.key == k) = false := by simpa using hek
        simp only [List.find?_cons, hne, ih]

/-- A declaration that is put in answers for its key, and for no other. -/
theorem get?_put (b : Bucket) (d : Declaration) (p : String) :
    (b.put d).get? p = if d.key = propertyKey p then some d else b.get? p :=
  find?_putIn d b.declarations (propertyKey p)

/-- A removed property has no declaration, and every other one keeps its own. -/
theorem get?_remove (b : Bucket) (q p : String) :
    (b.remove q).get? p = if propertyKey q = propertyKey p then none else b.get? p := by
  simp only [get?, remove, List.find?_filter]
  by_cases hqp : propertyKey q = propertyKey p
  · rw [if_pos hqp, List.find?_eq_none]
    intro d _
    simp [hqp]
  · rw [if_neg hqp]
    apply List.find?_congr
    intro d _
    by_cases hd : d.key = propertyKey p
    · simp [hd, Ne.symm hqp]
    · simp [hd]

/-- What a property answers after an edit. -/
theorem get?_edit (c : Config) (b : Bucket) (e : Edit) (p : String) :
    (b.edit c e).get? p
      = if propertyKey e.property = propertyKey p then e.outcome? c else b.get? p := by
  unfold edit
  cases h : e.outcome? c with
  | none => exact get?_remove b e.property p
  | some d =>
    show (b.put d).get? p = _
    rw [get?_put, (Edit.of_outcome? h).1]

/-! ## Keys -/

/-- The keys of a bucket in order. -/
def keys (b : Bucket) : List String := b.declarations.map Declaration.key

/-- Putting a declaration in keeps the keys, or adds its own behind them. -/
theorem keys_putIn (d : Declaration) (ds : List Declaration) :
    (putIn d ds).map Declaration.key
      = if d.key ∈ ds.map Declaration.key then ds.map Declaration.key
        else ds.map Declaration.key ++ [d.key] := by
  induction ds with
  | nil => simp [putIn]
  | cons e es ih =>
    unfold putIn
    by_cases he : e.key = d.key
    · rw [if_pos (by simpa using he)]
      simp [he]
    · rw [if_neg (by simpa using he), List.map_cons, ih]
      by_cases hmem : d.key ∈ es.map Declaration.key
      · rw [if_pos hmem, if_pos (by simp [hmem]), List.map_cons]
      · rw [if_neg hmem, if_neg (by simp [hmem, Ne.symm he]), List.map_cons, List.cons_append]

/-- Nothing is in the list but the declaration that was put in and what was there. -/
theorem mem_putIn {d e : Declaration} {ds : List Declaration} (h : e ∈ putIn d ds) :
    e = d ∨ e ∈ ds := by
  induction ds with
  | nil => exact .inl (by simpa [putIn] using h)
  | cons a as ih =>
    unfold putIn at h
    split at h
    · rcases List.mem_cons.mp h with h | h
      · exact .inl h
      · exact .inr (List.mem_cons_of_mem a h)
    · rcases List.mem_cons.mp h with h | h
      · exact .inr (h ▸ List.mem_cons_self)
      · exact (ih h).imp_right (List.mem_cons_of_mem a)

/-- Putting a declaration in keeps the keys apart. -/
theorem nodup_keys_put {b : Bucket} (h : b.keys.Nodup) (d : Declaration) :
    (b.put d).keys.Nodup := by
  show ((putIn d b.declarations).map Declaration.key).Nodup
  rw [keys_putIn]
  split
  · exact h
  · rename_i hmem
    exact List.nodup_append'.mpr ⟨h, List.nodup_singleton _, by simpa using hmem⟩

/-! ## Well-formed buckets -/

/-- The keys are apart and every declaration is well-formed. -/
structure WellFormed (b : Bucket) : Prop where
  distinct : b.keys.Nodup
  declarations : ∀ d ∈ b.declarations, d.WellFormed

/-- The bucket without declarations is well-formed. -/
theorem wellFormed_empty : empty.WellFormed := ⟨List.nodup_nil, by simp [empty]⟩

/-- Putting a well-formed declaration in keeps a bucket well-formed. -/
theorem WellFormed.put {b : Bucket} {d : Declaration} (hb : b.WellFormed) (hd : d.WellFormed) :
    (b.put d).WellFormed := by
  constructor
  · exact nodup_keys_put hb.distinct d
  · intro e he
    rcases mem_putIn he with rfl | he
    · exact hd
    · exact hb.declarations e he

/-- Removing a property keeps a bucket well-formed. -/
theorem WellFormed.remove {b : Bucket} (hb : b.WellFormed) (p : String) :
    (b.remove p).WellFormed := by
  constructor
  · exact hb.distinct.sublist (List.filter_sublist.map Declaration.key)
  · intro d hd
    exact hb.declarations d (List.mem_filter.mp hd).1

/-- An edit keeps a bucket well-formed. -/
theorem WellFormed.edit {b : Bucket} (hb : b.WellFormed) (c : Config) (e : Edit) :
    (b.edit c e).WellFormed := by
  unfold Bucket.edit
  split
  · rename_i h
    exact hb.put (Edit.of_outcome? h).2
  · exact hb.remove e.property

/-- Well-formed declarations make a well-formed bucket, also if keys are repeated among them. -/
theorem wellFormed_ofList {ds : List Declaration} (h : ∀ d ∈ ds, d.WellFormed) :
    (ofList ds).WellFormed := by
  have hfold : ∀ (b : Bucket), b.WellFormed → (ds.foldl Bucket.put b).WellFormed := by
    induction ds with
    | nil => exact fun b hb => hb
    | cons d ds ih =>
      intro b hb
      exact ih (fun e he => h e (List.mem_cons_of_mem d he)) _
        (hb.put (h d List.mem_cons_self))
  exact hfold empty wellFormed_empty

/-! ## Lists with keys apart -/

/-- A declaration with a new key goes to the end. -/
theorem putIn_of_not_mem {d : Declaration} {ds : List Declaration}
    (h : d.key ∉ ds.map Declaration.key) : putIn d ds = ds ++ [d] := by
  induction ds with
  | nil => rfl
  | cons e es ih =>
    simp only [List.map_cons, List.mem_cons, not_or] at h
    unfold putIn
    rw [if_neg (by simpa using Ne.symm h.1), ih h.2, List.cons_append]

/-- Declarations with keys apart are put one behind the other. -/
theorem ofList_declarations {b : Bucket} (h : b.keys.Nodup) : ofList b.declarations = b := by
  -- the induction is on what is still to be put in, for any bucket with other keys
  have hfold : ∀ (ds : List Declaration) (a : Bucket), (a.keys ++ ds.map Declaration.key).Nodup →
      ds.foldl put a = ⟨a.declarations ++ ds⟩ := by
    intro ds
    induction ds with
    | nil => intro a _; simp
    | cons d ds ih =>
      intro a ha
      rw [List.map_cons] at ha
      have hput : a.put d = ⟨a.declarations ++ [d]⟩ := by
        unfold put
        rw [putIn_of_not_mem]
        exact fun hmem => (List.disjoint_of_nodup_append ha) hmem List.mem_cons_self
      rw [List.foldl_cons, hput, ih]
      · simp
      · simpa [keys] using ha
  simpa [ofList, empty, keys] using hfold b.declarations empty (by simpa [keys, empty] using h)

end ResponsiveStyle.Style.Bucket
