/-
# The last write wins

A call writes properties one after the other: one for each value, declaration or name that it is
given (`Call.writes`). A write declares what its value means (`Write.Declares`), and what a property
answers at a tier after a run is what the last write of its key at that tier declares, or what the
record answered before if there was no such write (`resolve?_run`). A read that falls back asks the
tiers in order, so writes at narrower tiers and of other keys are not seen.
-/
import ResponsiveStyle.Proofs.Style.Bucket
import ResponsiveStyle.Proofs.Style.Run

namespace ResponsiveStyle.Style

/-! ## Writes -/

/-- Whether a tier is for greater widths than another one. -/
def Tier.IsWiderThan : Tier → Tier → Prop
  | .desktop, .tablet | .desktop, .mobile | .tablet, .mobile => True
  | _, _ => False

/-- A write of one property at one tier: a value with whether it is flagged, or nothing in order to
remove the property. -/
structure Write where
  tier : Tier
  property : String
  content : Option (Value × Bool)
  deriving DecidableEq

namespace Write

/-- The declaration that a write leaves behind, if it leaves one. -/
def declaration? (c : Config) (w : Write) : Option Declaration :=
  w.content.bind fun (v, important) =>
    (Declaration.ofInput? (c.isUnitless w.property) w.property v).map fun d =>
      if important then d.flagged else d

/-- A write declares what its value means, under its name without the blanks around it; a flagged
value declares its text, and with the flag. -/
def Declares (c : Config) (w : Write) (d : Declaration) : Prop :=
  isBlankName w.property = false ∧ d.property = Text.trimmed w.property ∧
    ∃ v important meant marked, w.content = some (v, important) ∧
      v.Means (c.isUnitless w.property) meant marked ∧ d.important = (important || marked) ∧
      d.value = if important then .text meant.display else meant

/-- A write of a property at a tier, in any spelling. -/
def Concerns (w : Write) (tier : Tier) (property : String) : Prop :=
  w.tier = tier ∧ propertyKey w.property = propertyKey property

instance (w : Write) (tier : Tier) (property : String) : Decidable (w.Concerns tier property) :=
  instDecidableAnd

/-- A removal leaves nothing behind, and neither does a value that is absent or for a blank name. -/
theorem declaration?_eq_none_iff (c : Config) (w : Write) :
    w.declaration? c = none ↔
      ∀ content ∈ w.content, isBlankName w.property = true ∨ content.1.Absent := by
  obtain ⟨tier, property, content⟩ := w
  cases content with
  | none => simp [declaration?]
  | some content =>
    simp only [declaration?, Option.bind_some, Option.map_eq_none_iff, Option.mem_def,
      Option.some.injEq, forall_eq']
    exact Declaration.ofInput?_eq_none_iff _ property content.1

/-- A write leaves behind what it declares. -/
theorem declaration?_eq_some_iff (c : Config) (w : Write) (d : Declaration) :
    w.declaration? c = some d ↔ w.Declares c d := by
  unfold declaration? Declares
  rw [Option.bind_eq_some_iff]
  constructor
  · rintro ⟨⟨v, important⟩, hcontent, h⟩
    obtain ⟨e, he, hd, hmarks⟩ := (Declaration.map_flagged_eq_some_iff _ _ _).mp h
    obtain ⟨hnamed, hproperty, hmeans⟩ := (Declaration.ofInput?_eq_some_iff _ _ _ _).mp he
    exact ⟨hnamed, hd.trans hproperty, v, important, e.value, e.important, hcontent, hmeans, hmarks⟩
  · rintro ⟨hnamed, hproperty, v, important, meant, marked, hcontent, hmeans, hmarks⟩
    have he := (Declaration.ofInput?_eq_some_iff _ w.property v
      ⟨Text.trimmed w.property, meant, marked⟩).mpr ⟨hnamed, rfl, hmeans⟩
    exact ⟨(v, important), hcontent,
      (Declaration.map_flagged_eq_some_iff _ _ _).mpr ⟨_, he, hproperty, hmarks⟩⟩

/-- What a write leaves behind has the key that is written. -/
theorem key_of_declaration? {c : Config} {w : Write} {d : Declaration}
    (h : w.declaration? c = some d) : d.key = propertyKey w.property := by
  obtain ⟨-, hproperty, -⟩ := (declaration?_eq_some_iff c w d).mp h
  unfold Declaration.key
  rw [hproperty, propertyKey_trimmed]

end Write

/-- The writes of a call in order: one for each value, declaration or name that it is given. -/
def Call.writes (k : Call) : List Write :=
  match k.operation with
  | .set p v => [⟨k.tier, p, some (v, false)⟩]
  | .setMany values => values.map fun m => ⟨k.tier, m.1, some (m.2, false)⟩
  | .declare ds => ds.map fun d => ⟨k.tier, d.property, some (d.value, d.important)⟩
  | .unset p => [⟨k.tier, p, none⟩]
  | .unsetMany ps => ps.map fun p => ⟨k.tier, p, none⟩

/-- The writes of calls in order. -/
def writes (calls : List Call) : List Write := calls.flatMap Call.writes

/-- The writes of a call are at its tier. -/
theorem Call.tier_of_mem_writes {k : Call} {w : Write} (h : w ∈ k.writes) : w.tier = k.tier := by
  obtain ⟨t, op, n⟩ := k
  cases op with
  | set p v => rw [List.mem_singleton.mp h]
  | setMany values =>
    obtain ⟨m, -, rfl⟩ := List.mem_map.mp h
    rfl
  | declare ds =>
    obtain ⟨d, -, rfl⟩ := List.mem_map.mp h
    rfl
  | unset p => rw [List.mem_singleton.mp h]
  | unsetMany ps =>
    obtain ⟨p, -, rfl⟩ := List.mem_map.mp h
    rfl

/-! ## Buckets after writes -/

namespace Bucket

/-- The bucket of a tier after a write. -/
def write (c : Config) (tier : Tier) (b : Bucket) (w : Write) : Bucket :=
  if w.tier = tier then
    match w.declaration? c with
    | some d => b.put d
    | none => b.remove w.property
  else b

/-- Writes at other tiers leave a bucket as it is. -/
theorem foldl_write_of_forall_ne (c : Config) {tier : Tier} {ws : List Write}
    (h : ∀ w ∈ ws, w.tier ≠ tier) (b : Bucket) : ws.foldl (write c tier) b = b := by
  induction ws with
  | nil => rfl
  | cons w ws ih =>
    rw [List.forall_mem_cons] at h
    rw [List.foldl_cons, write, if_neg h.1, ih h.2]

/-- An edit of a property that leaves the same behind as a write is this write. -/
theorem edit_eq_write {c : Config} {e : Edit} {w : Write} (hproperty : e.property = w.property)
    (houtcome : e.outcome? c = w.declaration? c) (b : Bucket) :
    b.edit c e = b.write c w.tier w := by
  unfold edit write
  rw [if_pos rfl]
  cases h : w.declaration? c with
  | none => rw [houtcome, h, hproperty]
  | some d => rw [houtcome, h]

/-- What a property answers after a write. -/
theorem get?_write (c : Config) (tier : Tier) (b : Bucket) (w : Write) (p : String) :
    (b.write c tier w).get? p = if w.Concerns tier p then w.declaration? c else b.get? p := by
  unfold write
  by_cases htier : w.tier = tier
  · have hconcerns : w.Concerns tier p ↔ propertyKey w.property = propertyKey p :=
      and_iff_right htier
    rw [if_pos htier]
    simp only [hconcerns]
    cases h : w.declaration? c with
    | none => exact get?_remove b w.property p
    | some d =>
      show (b.put d).get? p = _
      rw [get?_put, Write.key_of_declaration? h]
  · rw [if_neg htier, if_neg fun h => htier h.1]

/-- Writes at other tiers and of other keys do not change what a property answers. -/
theorem get?_foldl_write_of_forall (c : Config) {tier : Tier} {p : String} {ws : List Write}
    (h : ∀ w ∈ ws, ¬ w.Concerns tier p) (b : Bucket) :
    (ws.foldl (write c tier) b).get? p = b.get? p := by
  induction ws generalizing b with
  | nil => rfl
  | cons w ws ih =>
    rw [List.forall_mem_cons] at h
    rw [List.foldl_cons, ih h.2, get?_write, if_neg h.1]

end Bucket

namespace Record

/-! ## Records after calls -/

/-- A call makes its writes. -/
theorem bucket_call_writes (c : Config) (r : Record) (k : Call) (tier : Tier) :
    (r.call c k).bucket tier = k.writes.foldl (Bucket.write c tier) (r.bucket tier) := by
  rw [bucket_call]
  by_cases htier : k.tier = tier
  · obtain ⟨t, op, n⟩ := k
    obtain rfl : t = tier := htier
    have hset : ∀ (b : Bucket) (p : String) (v : Value),
        b.edit c (.set p v) = b.write c t ⟨t, p, some (v, false)⟩ := fun b p v =>
      Bucket.edit_eq_write (w := ⟨t, p, some (v, false)⟩) rfl (Option.map_id').symm b
    have hdeclare : ∀ (b : Bucket) (d : Declaration),
        b.edit c (.declare d) = b.write c t ⟨t, d.property, some (d.value, d.important)⟩ :=
      fun b d => Bucket.edit_eq_write (w := ⟨t, d.property, some (d.value, d.important)⟩) rfl rfl b
    have hunset : ∀ (b : Bucket) (p : String), b.edit c (.unset p) = b.write c t ⟨t, p, none⟩ :=
      fun b p => Bucket.edit_eq_write (w := ⟨t, p, none⟩) rfl rfl b
    cases op with
    | set p v => simp [editsAt, Operation.edits, Call.writes, hset]
    | setMany values =>
      simp [editsAt, Operation.edits, Call.writes, List.foldl_map, hset]
    | declare ds => simp [editsAt, Operation.edits, Call.writes, List.foldl_map, hdeclare]
    | unset p => simp [editsAt, Operation.edits, Call.writes, hunset]
    | unsetMany ps => simp [editsAt, Operation.edits, Call.writes, List.foldl_map, hunset]
  · rw [Bucket.foldl_write_of_forall_ne]
    · simp [editsAt, htier]
    · intro w hw
      rwa [Call.tier_of_mem_writes hw]

/-- A run makes the writes of its calls. -/
theorem bucket_run_writes (c : Config) (r : Record) (calls : List Call) (tier : Tier) :
    (r.run c calls).bucket tier
      = (writes calls).foldl (Bucket.write c tier) (r.bucket tier) := by
  induction calls generalizing r with
  | nil => rfl
  | cons k calls ih =>
    show ((r.call c k).run c calls).bucket tier = _
    rw [ih, bucket_call_writes, writes, writes, List.flatMap_cons, List.foldl_append]

/-! ## Reading after a run -/

/-- A read of one tier asks the bucket of that tier. -/
theorem resolve?_raw (r : Record) (tier : Tier) (property : String) :
    r.resolve? tier property .raw = (r.bucket tier).get? property := by
  unfold resolve? chain
  rw [List.findSome?_singleton]

/-- A read asks no tier that is narrower than its own. -/
theorem not_isWiderThan_of_mem_chain {tier t : Tier} {mode : ReadMode} (h : t ∈ chain tier mode) :
    ¬tier.IsWiderThan t := by
  cases tier <;> cases mode <;> cases t <;> simp_all [chain, Tier.cascade, Tier.IsWiderThan]

/-- Records whose asked tiers answer alike are read alike. -/
theorem resolve?_congr {r r' : Record} {tier : Tier} {property : String} {mode : ReadMode}
    (h : ∀ t ∈ chain tier mode, (r.bucket t).get? property = (r'.bucket t).get? property) :
    r.resolve? tier property mode = r'.resolve? tier property mode := by
  unfold resolve?
  generalize chain tier mode = tiers at h
  induction tiers with
  | nil => rfl
  | cons t tiers ih =>
    rw [List.findSome?_cons, List.findSome?_cons, h t List.mem_cons_self,
      ih fun u hu => h u (List.mem_cons_of_mem t hu)]

/-- A read sees no call at a narrower tier, and none without a write of its key. -/
theorem resolve?_call_of_unseen (c : Config) (r : Record) (k : Call) {tier : Tier}
    {property : String} (mode : ReadMode)
    (h : tier.IsWiderThan k.tier ∨ ∀ w ∈ k.writes, propertyKey w.property ≠ propertyKey property) :
    (r.call c k).resolve? tier property mode = r.resolve? tier property mode := by
  apply resolve?_congr
  intro t ht
  rw [bucket_call_writes, Bucket.get?_foldl_write_of_forall]
  rintro w hw ⟨hwt, hkey⟩
  rcases h with h | h
  · -- the writes of the call are at its tier, and the read asks no such tier
    rw [Call.tier_of_mem_writes hw] at hwt
    exact not_isWiderThan_of_mem_chain ht (hwt ▸ h)
  · exact h w hw hkey

/-- After any run on any record a read of one tier finds what the last write of the key at that tier
leaves behind, or what was there before if there is no such write. A write leaves behind what it
declares, and nothing if it removes the property or its value counts for nothing. A read that falls
back finds the first of these answers along the tiers that it asks, and one more call is not seen by
reads of wider tiers or of other keys. -/
theorem resolve?_run (c : Config) (r : Record) (calls : List Call) (tier : Tier)
    (property : String) :
    (∀ front w back, writes calls = front ++ w :: back → w.Concerns tier property →
        (∀ u ∈ back, ¬u.Concerns tier property) →
          (r.run c calls).resolve? tier property .raw = w.declaration? c) ∧
      ((∀ w ∈ writes calls, ¬w.Concerns tier property) →
        (r.run c calls).resolve? tier property .raw = r.resolve? tier property .raw) ∧
      (∀ (w : Write) d, w.declaration? c = some d ↔ w.Declares c d) ∧
      (∀ w : Write, w.declaration? c = none ↔
        ∀ content ∈ w.content, isBlankName w.property = true ∨ content.1.Absent) ∧
      (r.run c calls).resolve? tier property .cascade
        = tier.cascade.findSome? (fun t => (r.run c calls).resolve? t property .raw) ∧
      ∀ (k : Call) (mode : ReadMode),
        (tier.IsWiderThan k.tier ∨
          ∀ w ∈ k.writes, propertyKey w.property ≠ propertyKey property) →
        (r.run c (calls ++ [k])).resolve? tier property mode
          = (r.run c calls).resolve? tier property mode := by
  refine ⟨?_, ?_, Write.declaration?_eq_some_iff c, Write.declaration?_eq_none_iff c, ?_, ?_⟩
  · intro front w back hwrites hconcerns hback
    rw [resolve?_raw, bucket_run_writes, hwrites, List.foldl_append, List.foldl_cons,
      Bucket.get?_foldl_write_of_forall c hback, Bucket.get?_write, if_pos hconcerns]
  · intro hnone
    rw [resolve?_raw, bucket_run_writes, Bucket.get?_foldl_write_of_forall c hnone, resolve?_raw]
  · simp only [resolve?_raw]
    rfl
  · intro k mode h
    rw [run_append]
    exact resolve?_call_of_unseen c (r.run c calls) k mode h

/-- Two spellings of a name at three tiers, on a record that has the name twice: the last of two
values at the widest tier, a flagged declaration at the middle one, and a value at the narrowest one
that an absent value takes back. -/
theorem resolve?_run_two_spellings :
    let r : Record := ⟨none, ⟨[⟨"marginTop", .text "1px", false⟩,
      ⟨"margin-top", .text "2px", true⟩, ⟨"gap", .text "9px", false⟩]⟩, .empty, .empty⟩
    let calls : List Call :=
      [⟨.desktop, .setMany [("marginTop", .text "3px"), ("margin-top", .text "4px")], 0⟩,
        ⟨.tablet, .declare [⟨"marginTop", .text "5px", true⟩], 1⟩,
        ⟨.mobile, .set "marginTop" (.text "6px"), 2⟩,
        ⟨.mobile, .set "margin-top" (.text " null "), 3⟩]
    let last := r.run .standard calls
    last.resolve? .desktop "marginTop" .raw = some ⟨"margin-top", .text "4px", false⟩ ∧
      last.resolve? .mobile "marginTop" .raw = none ∧
      last.resolve? .mobile "margin-top" .cascade = some ⟨"marginTop", .text "5px", true⟩ ∧
      last.resolve? .desktop "gap" .raw = some ⟨"gap", .text "9px", false⟩ ∧
      (r.run .standard (calls ++ [⟨.mobile, .unset "margin-top", 4⟩])).resolve? .tablet "margin-top"
        .cascade = last.resolve? .tablet "margin-top" .cascade := by
  intro r calls last
  let first : Write := ⟨.desktop, "marginTop", some (.text "3px", false)⟩
  let wide : Write := ⟨.desktop, "margin-top", some (.text "4px", false)⟩
  let middle : Write := ⟨.tablet, "marginTop", some (.text "5px", true)⟩
  let narrow : Write := ⟨.mobile, "marginTop", some (.text "6px", false)⟩
  let absent : Write := ⟨.mobile, "margin-top", some (.text " null ", false)⟩
  obtain ⟨hwide, -⟩ := resolve?_run .standard r calls .desktop "marginTop"
  obtain ⟨hmiddle, -, -, -, -, hunseen⟩ := resolve?_run .standard r calls .tablet "margin-top"
  obtain ⟨hnarrow, -⟩ := resolve?_run .standard r calls .mobile "marginTop"
  obtain ⟨hnarrow', -, -, -, hcascade, -⟩ := resolve?_run .standard r calls .mobile "margin-top"
  obtain ⟨-, hgap, -⟩ := resolve?_run .standard r calls .desktop "gap"
  have hwide := hwide [first] wide [middle, narrow, absent] rfl (by decide) (by decide)
  have hmiddle := hmiddle [first, wide] middle [narrow, absent] rfl (by decide) (by decide)
  have hnarrow := hnarrow [first, wide, middle, narrow] absent [] rfl (by decide) (by decide)
  have hnarrow' := hnarrow' [first, wide, middle, narrow] absent [] rfl (by decide) (by decide)
  refine ⟨hwide.trans (by decide), hnarrow.trans (by decide), ?_,
    (hgap (by decide)).trans (by decide),
    hunseen ⟨.mobile, .unset "margin-top", 4⟩ .cascade (.inl trivial)⟩
  rw [hcascade, Tier.cascade, List.findSome?_cons, hnarrow', List.findSome?_cons, hmiddle]
  decide

end Record

end ResponsiveStyle.Style
