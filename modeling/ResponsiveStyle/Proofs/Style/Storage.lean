/-
# Storing and reloading

A well-formed record is what its document gives back (`ofJson_toJson`, `ofAttributes_toAttributes`):
its declarations have names of their own, so none is lost when they become the members of a record,
and each of them is read back as it was. Since its numbers are finite, the reloaded record is also
equal to it when numbers are compared as such (`beq_self`).
-/
import ResponsiveStyle.Proofs.Json.Members
import ResponsiveStyle.Proofs.Style.Invariant

namespace ResponsiveStyle.Style

/-! ## Equality of numbers -/

/-- A finite number equals itself. -/
theorem beq_self_of_isFinite {x : Float} (h : x.isFinite = true) : (x == x) = true := by
  show Float.Model.UnpackedFloat.beq x.toModel.unpack x.toModel.unpack = true
  have hfinite : x.toModel.unpack.isFinite = true := h
  generalize x.toModel.unpack = u at hfinite
  cases u with
  | infinity s => exact absurd hfinite Bool.false_ne_true
  | notANumber => exact absurd hfinite Bool.false_ne_true
  | zero s => rfl
  | finite s m e _ =>
    have hm : compare m m = .eq := Std.ReflCmp.compare_self
    have he : compare e e = .eq := Std.ReflCmp.compare_self
    cases s with
    | positive =>
      show (some ((compare e e).then (compare m m)) == some Ordering.eq) = true
      rw [he, hm]
      rfl
    | negative =>
      show (some ((compare e e).then (compare m m)).swap == some Ordering.eq) = true
      rw [he, hm]
      rfl

/-- A well-formed declaration equals itself. -/
theorem Declaration.beq_self {d : Declaration} (h : d.WellFormed) : (d == d) = true := by
  have hvalue : (d.value == d.value) = true := by
    have hwf := h.value
    cases hd : d.value with
    | text s => exact beq_self_eq_true s
    | number x =>
      rw [hd] at hwf
      exact beq_self_of_isFinite hwf.1
  show (d.property == d.property && (d.value == d.value && d.important == d.important)) = true
  simp [hvalue]

/-- A bucket of well-formed declarations equals itself. -/
theorem Bucket.beq_self {b : Bucket} (h : ∀ d ∈ b.declarations, d.WellFormed) :
    (b == b) = true := by
  show (b.declarations == b.declarations) = true
  generalize b.declarations = ds at h
  induction ds with
  | nil => rfl
  | cons d ds ih =>
    rw [List.cons_beq_cons, Declaration.beq_self (h d List.mem_cons_self),
      ih fun e he => h e (List.mem_cons_of_mem d he)]
    rfl

/-- A record of well-formed buckets equals itself. -/
theorem Record.beq_self {r : Record} (h : ∀ tier, (r.bucket tier).WellFormed) :
    (r == r) = true := by
  have hbucket : ∀ tier, (r.bucket tier == r.bucket tier) = true := fun tier =>
    Bucket.beq_self (h tier).declarations
  have hdesktop : (r.desktop == r.desktop) = true := hbucket .desktop
  have htablet : (r.tablet == r.tablet) = true := hbucket .tablet
  have hmobile : (r.mobile == r.mobile) = true := hbucket .mobile
  show (r.id == r.id && (r.desktop == r.desktop && (r.tablet == r.tablet && r.mobile == r.mobile)))
    = true
  simp [hdesktop, htablet, hmobile]

/-! ## Documents give buckets and records back -/

/-- A document gives a well-formed bucket back. -/
theorem Bucket.ofJson_toJson {b : Bucket} (h : b.WellFormed) : ofJson b.toJson = b := by
  -- keys apart are keys of different names, so no member is written twice
  have hnames : ((b.declarations.map fun d => (d.property, d.toJson)).map Prod.fst).Nodup := by
    have hkeys : ((b.declarations.map Declaration.property).map propertyKey).Nodup := by
      rw [List.map_map]
      exact h.distinct
    rw [List.map_map]
    exact hkeys.of_map propertyKey
  have hmembers : ofJson b.toJson
      = ofMembers (Json.collapse (b.declarations.map fun d => (d.property, d.toJson))) := rfl
  rw [hmembers, Json.collapse_of_nodup hnames]
  unfold ofMembers
  have hread : (b.declarations.map fun d => (d.property, d.toJson)).filterMap
      (fun m => Declaration.ofJson? m.1 m.2) = b.declarations := by
    rw [List.filterMap_map]
    calc b.declarations.filterMap ((fun m => Declaration.ofJson? m.1 m.2) ∘
          fun d => (d.property, d.toJson))
        = b.declarations.filterMap some := by
          apply List.filterMap_congr
          intro d hd
          exact Declaration.ofJson?_toJson (h.declarations d hd)
      _ = b.declarations := List.filterMap_some
  rw [hread, ofList_declarations h.distinct]

namespace Record

/-- A document gives the buckets of a well-formed record back. -/
theorem ofJson_toJson {r : Record} (h : ∀ tier, (r.bucket tier).WellFormed) :
    ofJson r.toJson = { r with id := none } := by
  have hbuckets : ofJson r.toJson
      = ⟨none, Bucket.ofJson (r.bucket .desktop).toJson, Bucket.ofJson (r.bucket .tablet).toJson,
          Bucket.ofJson (r.bucket .mobile).toJson⟩ := rfl
  rw [hbuckets, Bucket.ofJson_toJson (h .desktop), Bucket.ofJson_toJson (h .tablet),
    Bucket.ofJson_toJson (h .mobile)]
  rfl

/-- The attributes of a record are its styles and, if it has one, its id. -/
theorem get?_toAttributes {c : Config} (h : c.scopeIdField ≠ c.stylesField) (r : Record) :
    (r.toAttributes c).get? c.stylesField = some r.toJson ∧
      (r.toAttributes c).get? c.scopeIdField = r.id.map Json.text := by
  have hmembers : r.toAttributes c = .record (Json.collapse
      ((r.id.toList.map fun id => (c.scopeIdField, Json.text id))
        ++ [(c.stylesField, r.toJson)])) :=
    rfl
  rw [hmembers]
  cases r.id with
  | none =>
    rw [Json.collapse_of_nodup (by simp)]
    simp [Json.get?, Json.findMember?, Ne.symm h]
  | some id =>
    rw [Json.collapse_of_nodup (by simp [h])]
    simp [Json.get?, Json.findMember?, h]

/-- Attributes give a well-formed record back. -/
theorem ofAttributes_toAttributes {c : Config} (hc : c.scopeIdField ≠ c.stylesField) {r : Record}
    (h : r.WellFormed) : ofAttributes c (r.toAttributes c) = r := by
  obtain ⟨hstyles, hid⟩ := get?_toAttributes hc r
  have hsanitized : ((r.id.map Json.text).bind Json.text?).bind ScopeId.sanitize? = r.id := by
    cases hr : r.id with
    | none => rfl
    | some id => exact ScopeId.sanitize?_of_valid (h.id id hr)
  unfold ofAttributes
  rw [hstyles, hid, hsanitized, Option.getD_some, ofJson_toJson h.bucket]

/-- Whatever editors made of a record, storing and reloading it changes nothing, and its document
holds everything but the id; neither does it when numbers are compared as such. -/
theorem reload_run_opened (c : Config) (hc : c.scopeIdField ≠ c.stylesField)
    (stored : Option Json) (calls : List Call) :
    let r := (opened c stored).run c calls
    (ofAttributes c (r.toAttributes c) = r ∧ ofJson r.toJson = { r with id := none }) ∧
      (ofAttributes c (r.toAttributes c) == r) = true ∧
      (ofJson r.toJson == { r with id := none }) = true := by
  intro r
  have hwf : r.WellFormed := (wellFormed_opened c stored).run c calls
  have hattributes : ofAttributes c (r.toAttributes c) = r := ofAttributes_toAttributes hc hwf
  have hjson : ofJson r.toJson = { r with id := none } := ofJson_toJson hwf.bucket
  refine ⟨⟨hattributes, hjson⟩, ?_, ?_⟩
  · rw [hattributes]
    exact beq_self hwf.bucket
  · rw [hjson]
    apply beq_self
    intro tier
    cases tier
    · exact hwf.bucket .desktop
    · exact hwf.bucket .tablet
    · exact hwf.bucket .mobile

/-- A flagged number becomes a text with the flag, and is the same after reloading. -/
theorem reload_run_flagged_number :
    Config.standard.scopeIdField ≠ Config.standard.stylesField ∧
      ofAttributes .standard
          (((opened .standard none).run .standard
            [⟨.mobile, .declare [⟨"opacity", .number 0.5, true⟩], 0⟩]).toAttributes .standard)
        = (opened .standard none).run .standard
            [⟨.mobile, .declare [⟨"opacity", .number 0.5, true⟩], 0⟩] :=
  ⟨by decide,
    (reload_run_opened .standard (by decide) none
      [⟨.mobile, .declare [⟨"opacity", .number 0.5, true⟩], 0⟩]).1.1⟩

end Record

end ResponsiveStyle.Style
