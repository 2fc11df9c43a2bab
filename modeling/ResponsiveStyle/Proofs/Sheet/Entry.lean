/-
# Entries of a style sheet

A section gives each of its declarations under its media query. These entries, from the first to the
last, are what a browser chooses from: of those that admit the width, a flagged one goes before an
unflagged one, and then a later one before an earlier one (`applied?`). In the style sheet of a
well-formed record a property has one entry for each tier that has a value of it, so the choice is
between the widest tier and the tier of the width (`shown_applied?_sections`).
-/
import ResponsiveStyle.Proofs.Style.Bucket
import ResponsiveStyle.Sheet.Render

namespace ResponsiveStyle.Sheet

open Style (Bucket Declaration Record Tier propertyKey)

/-! ## Entries -/

/-- A value of a property under a media query or under none. -/
structure Entry where
  query : Option MediaQuery
  key : String
  value : String
  important : Bool
  deriving DecidableEq, Repr

namespace Entry

/-- The entry of a declaration. -/
def ofDeclaration (query : Option MediaQuery) (d : Declaration) : Entry :=
  ⟨query, d.key, d.value.display, d.important⟩

/-- Whether an entry gives a value to a property in a viewport of a width. -/
def concerns (width : Nat) (key : String) (e : Entry) : Bool :=
  e.query.all (·.admits width) && e.key == key

/-- The value and the flag. -/
def shown (e : Entry) : String × Bool := (e.value, e.important)

end Entry

/-- The entries of a rule. -/
def Rule.entries (query : Option MediaQuery) (r : Rule) : List Entry :=
  r.declarations.map (Entry.ofDeclaration query)

/-- The entries of a section. -/
def Section.entries (s : Section) : List Entry := s.rules.flatMap (Rule.entries s.query)

/-- The entries of a style sheet. -/
def entries (sections : List Section) : List Entry := sections.flatMap Section.entries

/-- The entry that goes before all others: the last flagged one, or else the last one. -/
def winner? (es : List Entry) : Option Entry := (es.reverse.find? Entry.important).or es.getLast?

/-- The entry that gives a property its value in a viewport of a width. -/
def applied? (es : List Entry) (width : Nat) (key : String) : Option Entry :=
  winner? (es.filter (Entry.concerns width key))

/-! ## The tier of a width -/

/-- The tier whose reader shows what holds in a viewport of a width. -/
def tierAt (b : Breakpoints) (width : Nat) : Tier :=
  if width ≤ b.mobile.toNat then .mobile else if width ≤ b.tablet.toNat then .tablet else .desktop

/-- A viewport is meant by the query of its own tier and by the missing one of the widest tier, and
by no other. -/
theorem admits_query? {b : Breakpoints} (hb : b.mobile < b.tablet) (tier : Tier) (width : Nat) :
    (query? b tier).all (·.admits width) = (tier == .desktop || tier == tierAt b width) := by
  have hlt : b.mobile.toNat < b.tablet.toNat := hb
  have hmax : b.tablet.toNat < 4294967296 := b.tablet.toNat_lt
  -- no narrow tier ends at the greatest width, so the middle one begins just after it
  have hmin : min (b.mobile.toNat + 1) 4294967295 = b.mobile.toNat + 1 := by omega
  unfold tierAt
  cases tier with
  | desktop => rfl
  | tablet =>
    simp only [query?, Breakpoints.tabletQuery, hmin, Option.all_some, MediaQuery.admits,
      Option.getD_some]
    by_cases hmobile : width ≤ b.mobile.toNat
    · have hbelow : ¬ b.mobile.toNat + 1 ≤ width := by omega
      simp [hmobile, hbelow]
    · have hfrom : b.mobile.toNat + 1 ≤ width := by omega
      by_cases htablet : width ≤ b.tablet.toNat <;> simp [hmobile, hfrom, htablet]
  | mobile =>
    simp only [query?, Breakpoints.mobileQuery, Option.all_some, MediaQuery.admits,
      Option.getD_none]
    by_cases hmobile : width ≤ b.mobile.toNat
    · simp [hmobile]
    · by_cases htablet : width ≤ b.tablet.toNat <;> simp [hmobile, htablet]

/-! ## Entries of one property -/

/-- Of declarations with keys apart, at most one has a given key: the first one. -/
theorem filter_key_eq_toList {ds : List Declaration} (h : (ds.map Declaration.key).Nodup)
    (k : String) :
    ds.filter (fun d => d.key == k) = (ds.find? fun d => d.key == k).toList := by
  induction ds with
  | nil => rfl
  | cons d ds ih =>
    obtain ⟨hd, hds⟩ := List.nodup_cons.mp h
    by_cases hk : d.key = k
    · have hrest : ds.filter (fun e => e.key == k) = [] := by
        rw [List.filter_eq_nil_iff]
        intro e he hek
        apply hd
        rw [hk, ← (beq_iff_eq.mp hek)]
        exact List.mem_map_of_mem he
      simp [hk, hrest]
    · have hne : (d.key == k) = false := by simpa using hk
      rw [List.filter_cons_of_neg (by simp [hne]), ih hds]
      simp only [List.find?_cons, hne]

/-- The only rule of some declarations, which are not none. -/
theorem mem_ruleOf {selectors : List String} {ds : List Declaration} {rule : Rule}
    (h : rule ∈ ruleOf selectors ds) : rule = ⟨selectors, ds⟩ ∧ ds ≠ [] := by
  unfold ruleOf at h
  split at h
  · exact absurd h List.not_mem_nil
  · rename_i hds
    exact ⟨List.mem_singleton.mp h, fun hnil => hds (hnil ▸ rfl)⟩

/-- The rules of some declarations and of others. -/
theorem mem_ruleOf_append {selectors below : List String} {ds es : List Declaration} {rule : Rule}
    (h : rule ∈ ruleOf selectors ds ++ ruleOf below es) :
    rule = ⟨selectors, ds⟩ ∧ ds ≠ [] ∨ rule = ⟨below, es⟩ ∧ es ≠ [] :=
  (List.mem_append.mp h).imp mem_ruleOf mem_ruleOf

/-- The rule of some declarations holds these, be they none or not. -/
theorem declarations_ruleOf (selectors : List String) (ds : List Declaration) :
    (ruleOf selectors ds).flatMap Rule.declarations = ds := by
  cases ds <;> simp [ruleOf]

/-- The entries of a rule that may be left out. -/
theorem entries_ruleOf (query : Option MediaQuery) (selectors : List String)
    (ds : List Declaration) :
    (ruleOf selectors ds).flatMap (Rule.entries query) = ds.map (Entry.ofDeclaration query) := by
  unfold Rule.entries
  rw [← List.map_flatMap, declarations_ruleOf]

/-- Whether a declaration is about a margin depends on its key alone, so parting the declarations
keeps those of a key in order. -/
theorem filter_isMargin_append (ds : List Declaration) (k : String) :
    (ds.filter isMargin).filter (fun d => d.key == k)
        ++ (ds.filter fun d => !isMargin d).filter (fun d => d.key == k)
      = ds.filter fun d => d.key == k := by
  have hmargin : ∀ d : Declaration, d.key = k →
      isMargin d = (Text.after? "margin".toList k.toList).isSome := by
    intro d hd
    unfold isMargin
    rw [hd]
  generalize (Text.after? "margin".toList k.toList).isSome = margin at hmargin
  have hmargins : ∀ d : Declaration, (d.key == k && isMargin d) = (margin && d.key == k) := by
    intro d
    by_cases hd : d.key = k
    · rw [hmargin d hd, Bool.and_comm]
    · rw [beq_false_of_ne hd, Bool.false_and, Bool.and_false]
  have hothers : ∀ d : Declaration, (d.key == k && !isMargin d) = (!margin && d.key == k) := by
    intro d
    by_cases hd : d.key = k
    · rw [hmargin d hd, Bool.and_comm]
    · rw [beq_false_of_ne hd, Bool.false_and, Bool.and_false]
  rw [List.filter_filter, List.filter_filter]
  simp only [hmargins, hothers]
  -- one of the two parts has all declarations of the key, and the other one has none
  cases margin <;> simp

/-- All declarations of a key go to the same rule, in the order in which they were. -/
theorem entries_rules (query : Option MediaQuery) (t : Targets) (b : Bucket) (k : String) :
    ((rules t b).flatMap (Rule.entries query)).filter (fun e => e.key == k)
      = (b.declarations.filter fun d => d.key == k).map (Entry.ofDeclaration query) := by
  have hmap : ∀ ds : List Declaration,
      (ds.map (Entry.ofDeclaration query)).filter (fun e => e.key == k)
        = (ds.filter fun d => d.key == k).map (Entry.ofDeclaration query) := by
    intro ds
    rw [List.filter_map]
    rfl
  unfold rules
  split
  · rw [entries_ruleOf, hmap]
  · rw [List.flatMap_append, entries_ruleOf, entries_ruleOf, List.filter_append, hmap, hmap,
      ← List.map_append, filter_isMargin_append]

/-- The entries of rules under a query concern a width together or not at all. -/
theorem filter_concerns_entries (query : Option MediaQuery) (rs : List Rule) (width : Nat)
    (k : String) :
    (rs.flatMap (Rule.entries query)).filter (Entry.concerns width k)
      = if query.all (·.admits width) then
          (rs.flatMap (Rule.entries query)).filter (fun e => e.key == k)
        else [] := by
  have hquery : ∀ e ∈ rs.flatMap (Rule.entries query),
      e.concerns width k = (query.all (·.admits width) && e.key == k) := by
    intro e he
    obtain ⟨r, -, her⟩ := List.mem_flatMap.mp he
    obtain ⟨d, -, rfl⟩ := List.mem_map.mp her
    rfl
  rw [List.filter_congr hquery]
  cases query.all (·.admits width) <;> simp

/-- The entries of a property that a tier adds in a viewport of a width. -/
theorem entries_tierSection (c : Config) (t : Targets) {r : Record} {tier : Tier}
    (hr : (r.bucket tier).keys.Nodup) (width : Nat) (p : String) :
    ((tierSection c t r tier).toList.flatMap Section.entries).filter
        (Entry.concerns width (propertyKey p))
      = if (query? c.breakpoints tier).all (·.admits width) then
          ((r.bucket tier).get? p).toList.map (Entry.ofDeclaration (query? c.breakpoints tier))
        else [] := by
  have hget : ((rules t (r.bucket tier)).flatMap (Rule.entries (query? c.breakpoints tier))).filter
      (fun e => e.key == propertyKey p)
        = ((r.bucket tier).get? p).toList.map
            (Entry.ofDeclaration (query? c.breakpoints tier)) := by
    rw [entries_rules, filter_key_eq_toList hr]
    rfl
  unfold tierSection
  simp only
  split
  · rename_i hempty
    have hnone : (r.bucket tier).get? p = none := by
      unfold Bucket.get?
      rw [List.isEmpty_iff.mp hempty, List.find?_nil]
    simp [hnone]
  · show ([_].flatMap Section.entries).filter _ = _
    rw [List.flatMap_singleton]
    unfold Section.entries
    rw [filter_concerns_entries, hget]

/-- In the style sheet of a record with an id a property has an entry of the widest tier and one of
the tier of the width, as far as these have a value of it. -/
theorem filter_entries_sections {c : Config} (hc : c.breakpoints.mobile < c.breakpoints.tablet)
    {r : Record} (hid : r.id.isSome = true) (hr : ∀ tier, (r.bucket tier).keys.Nodup)
    (nodeType : String) (width : Nat) (p : String) :
    (entries (sections c nodeType r)).filter (Entry.concerns width (propertyKey p))
      = Tier.all.flatMap fun tier =>
          if tier == .desktop || tier == tierAt c.breakpoints width then
            ((r.bucket tier).get? p).toList.map (Entry.ofDeclaration (query? c.breakpoints tier))
          else [] := by
  obtain ⟨id, hsome⟩ := Option.isSome_iff_exists.mp hid
  unfold sections entries
  simp only [hsome]
  generalize targets c id nodeType = t
  -- each tier adds its entries behind those of the wider ones
  induction Tier.all with
  | nil => rfl
  | cons tier tiers ih =>
    have hcons : (tier :: tiers).filterMap (tierSection c t r)
        = (tierSection c t r tier).toList ++ tiers.filterMap (tierSection c t r) := by
      cases h : tierSection c t r tier with
      | none => rw [List.filterMap_cons_none h]; rfl
      | some s => rw [List.filterMap_cons_some h]; rfl
    rw [hcons, List.flatMap_append, List.filter_append, ih, entries_tierSection c t (hr tier),
      admits_query? hc, List.flatMap_cons]

/-! ## The applied entry -/

/-- Of two entries the later one wins, unless the earlier one alone is flagged. -/
theorem winner?_toList_append (a b : Option Entry) :
    winner? (a.toList ++ b.toList)
      = (b.filter Entry.important).or ((a.filter Entry.important).or (b.or a)) := by
  cases a with
  | none =>
    cases b with
    | none => rfl
    | some e => cases h : e.important <;> simp [winner?, Option.filter, h]
  | some d =>
    cases b with
    | none => cases h : d.important <;> simp [winner?, Option.filter, h]
    | some e =>
      cases hd : d.important <;> cases he : e.important <;> simp [winner?, Option.filter, hd, he]

end ResponsiveStyle.Sheet
