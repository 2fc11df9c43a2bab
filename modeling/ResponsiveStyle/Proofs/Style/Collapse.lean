/-
# Repeated properties

The styles of a tier may name a property more than once, in any spellings. In the bucket it has the
place where it came up first, and the spelling, the value and the flag with which it came up last
(`Bucket.keys_ofList`, `Bucket.mem_ofList_iff`). Items without a name or without a value make no
declaration (`Item.declaration?_eq_none_iff`), so they are not seen wherever they stand
(`Record.ofJson_collapses`).
-/
import ResponsiveStyle.Proofs.Style.Bucket
import ResponsiveStyle.Proofs.Style.Run
import ResponsiveStyle.Proofs.Style.Shape

namespace ResponsiveStyle.Style

open Text (trim trimmed)

/-! ## Lists of declarations -/

namespace Bucket

/-- One declaration more is put into the bucket of the others. -/
theorem ofList_concat (ds : List Declaration) (d : Declaration) :
    ofList (ds ++ [d]) = (ofList ds).put d := by
  unfold ofList
  rw [List.foldl_append]
  rfl

/-- The keys of a list of declarations are kept apart. -/
theorem nodup_keys_ofList (ds : List Declaration) : (ofList ds).keys.Nodup := by
  induction ds using List.reverseRecOn with
  | nil => exact List.nodup_nil
  | append_singleton ds d ih =>
    rw [ofList_concat]
    exact nodup_keys_put ih d

/-- One key more is a new one, or has come up before. -/
theorem eraseDups_concat (keys : List String) (key : String) :
    (keys ++ [key]).eraseDups = if key ∈ keys then keys.eraseDups else keys.eraseDups ++ [key] := by
  rw [List.eraseDups_append]
  by_cases hmem : key ∈ keys <;> simp [List.removeAll, List.eraseDups_cons, hmem]

/-- The keys come in the order in which they came up first. -/
theorem keys_ofList (ds : List Declaration) :
    (ofList ds).keys = (ds.map Declaration.key).eraseDups := by
  -- the induction is on the end of the list, where the next declaration is put in
  induction ds using List.reverseRecOn with
  | nil => rfl
  | append_singleton ds d ih =>
    have hkeys : (ofList (ds ++ [d])).keys
        = if d.key ∈ (ofList ds).keys then (ofList ds).keys else (ofList ds).keys ++ [d.key] := by
      rw [ofList_concat]
      exact keys_putIn d (ofList ds).declarations
    rw [hkeys, ih, List.map_append, List.map_singleton, eraseDups_concat]
    simp only [List.mem_eraseDups]

/-- In a list with keys apart a declaration takes the place of the one with its key. -/
theorem mem_putIn_iff {ds : List Declaration} (h : (ds.map Declaration.key).Nodup)
    (d e : Declaration) :
    e ∈ putIn d ds ↔ e = d ∨ e ∈ ds ∧ e.key ≠ d.key := by
  induction ds with
  | nil => simp [putIn]
  | cons a as ih =>
    obtain ⟨hnew, hrest⟩ := List.nodup_cons.mp h
    unfold putIn
    by_cases ha : a.key = d.key
    · have hothers : ∀ b ∈ as, b.key ≠ d.key := by
        intro b hb heq
        exact hnew (List.mem_map.mpr ⟨b, hb, heq.trans ha.symm⟩)
      rw [if_pos (by simpa using ha), List.mem_cons, List.mem_cons]
      refine or_congr_right ⟨fun he => ⟨.inr he, hothers e he⟩, ?_⟩
      rintro ⟨rfl | he, hne⟩
      · exact absurd ha hne
      · exact he
    · rw [if_neg (by simpa using ha), List.mem_cons, ih hrest, List.mem_cons]
      constructor
      · rintro (rfl | rfl | ⟨he, hne⟩)
        · exact .inr ⟨.inl rfl, ha⟩
        · exact .inl rfl
        · exact .inr ⟨.inr he, hne⟩
      · rintro (rfl | ⟨rfl | he, hne⟩)
        · exact .inr (.inl rfl)
        · exact .inl rfl
        · exact .inr (.inr ⟨he, hne⟩)

/-- The declaration of a key is the last one of the list. -/
theorem mem_ofList_iff (ds : List Declaration) (d : Declaration) :
    d ∈ (ofList ds).declarations ↔
      ∃ before after, ds = before ++ d :: after ∧ ∀ e ∈ after, e.key ≠ d.key := by
  induction ds using List.reverseRecOn with
  | nil => simp [ofList, empty]
  | append_singleton ds last ih =>
    rw [ofList_concat]
    show d ∈ putIn last (ofList ds).declarations ↔ _
    rw [mem_putIn_iff (nodup_keys_ofList ds), ih]
    constructor
    · rintro (rfl | ⟨⟨before, after, rfl, hafter⟩, hne⟩)
      · exact ⟨ds, [], rfl, by simp⟩
      · refine ⟨before, after ++ [last], by simp, fun e he => ?_⟩
        rcases List.mem_append.mp he with he | he
        · exact hafter e he
        · rw [List.mem_singleton.mp he]
          exact Ne.symm hne
    · rintro ⟨before, after, hds, hafter⟩
      rcases List.eq_nil_or_concat' after with rfl | ⟨front, e, rfl⟩
      · exact .inl (List.singleton_inj.mp (List.append_inj_right' hds rfl)).symm
      · rw [← List.cons_append, ← List.append_assoc] at hds
        obtain ⟨hfront, hlast⟩ := List.append_inj' hds rfl
        obtain rfl := List.singleton_inj.mp hlast
        refine .inr ⟨⟨before, front, hfront, fun a ha => hafter a (by simp [ha])⟩, ?_⟩
        exact Ne.symm (hafter last (by simp))

end Bucket

/-! ## Values of a document -/

/-- The values of a document that are no value of a declaration: null, booleans, lists, records,
numbers that are not finite, and texts that are absent, alone or in front of a mark of
importance. -/
inductive Valueless : Json → Prop
  | null : Valueless .null
  | bool (b : Bool) : Valueless (.bool b)
  | list (items : List Json) : Valueless (.list items)
  | record (members : List (String × Json)) : Valueless (.record members)
  | number {j : Json} {x : Float} (number : j.number? = some x) (infinite : x.isFinite = false) :
      Valueless j
  | text {s : String} (absent : (Value.text s).Absent) : Valueless (.text s)

/-- What a value of a document says: a number, or a text without the blanks around it and without
the mark of importance behind it, and whether the mark was there. -/
inductive Says : Json → Value → Bool → Prop
  | number {j : Json} {x : Float} (number : j.number? = some x) (finite : x.isFinite = true) :
      Says j (.number x) false
  | text {s : String} (unmarked : ¬ ∃ body mark, s.toList = body ++ mark ∧ IsMark mark)
      (present : isAbsent s = false) : Says (.text s) (.text (trimmed s)) false
  | marked {s : String} {body mark : List Char} (split : s.toList = body ++ mark)
      (mark : IsMark mark) (present : isAbsentChars body = false) :
      Says (.text s) (.text (String.ofList (trim body))) true

/-- A document's text says what it means for a property that is not unitless. -/
theorem says_text_iff (s : String) (v : Value) (marked : Bool) :
    Says (.text s) v marked ↔ (Value.text s).Means false v marked := by
  constructor
  · intro h
    cases h with
    | number hnumber => exact absurd hnumber (by simp [Json.number?])
    | text hunmarked hpresent => exact .text hunmarked hpresent (by simp)
    | marked hs hmark hpresent => exact .marked hs hmark hpresent
  · intro h
    cases h with
    | numeral _ _ hmeant => exact absurd hmeant (by simp)
    | text hunmarked hpresent => exact .text hunmarked hpresent
    | marked hs hmark hpresent => exact .marked hs hmark hpresent

namespace Declaration

/-- A document's number declares itself under a name if it is finite. -/
theorem ofJson?_of_number? {property : String} (hnamed : isBlankName property = false) {j : Json}
    {x : Float} (hj : j.number? = some x) :
    ofJson? property j = if x.isFinite = true then some ⟨property, .number x, false⟩ else none := by
  unfold ofJson?
  rw [if_neg (by simp [hnamed])]
  cases j with
  | text s => exact absurd hj (by simp [Json.number?])
  | _ => simp only [hj]

/-- What is neither a text nor a number declares nothing. -/
theorem ofJson?_eq_none {property : String} {j : Json} (hnumber : j.number? = none)
    (htext : ∀ s, j ≠ .text s) : ofJson? property j = none := by
  unfold ofJson?
  split
  · rfl
  · cases j with
    | text s => exact absurd rfl (htext s)
    | _ => simp only [hnumber]

/-- A document's value declares under a name what it says. -/
theorem ofJson?_eq_some_iff (property : String) (j : Json) (d : Declaration) :
    ofJson? property j = some d ↔
      isBlankName property = false ∧ d.property = property ∧ Says j d.value d.important := by
  obtain ⟨p, value, important⟩ := d
  cases hnamed : isBlankName property with
  | true => simp [ofJson?, hnamed]
  | false =>
    simp only [true_and]
    cases hnumber : j.number? with
    | some x =>
      rw [ofJson?_of_number? hnamed hnumber, Option.ite_none_right_eq_some, Option.some_inj]
      constructor
      · rintro ⟨hfinite, hd⟩
        obtain ⟨rfl, rfl, rfl⟩ := Declaration.mk.inj hd
        exact ⟨rfl, .number hnumber hfinite⟩
      · rintro ⟨rfl, hsays⟩
        cases hsays with
        | number hj hfinite =>
          obtain rfl := Option.some.inj (hnumber.symm.trans hj)
          exact ⟨hfinite, rfl⟩
        | text => exact absurd hnumber (by simp [Json.number?])
        | marked => exact absurd hnumber (by simp [Json.number?])
    | none =>
      cases j with
      | text s => rw [ofJson?_text hnamed, ofText?_eq_some_iff, says_text_iff]
      | _ =>
        rw [ofJson?_eq_none hnumber (by simp)]
        simp only [reduceCtorEq, false_iff]
        rintro ⟨-, hsays⟩
        cases hsays with
        | number hj => exact absurd (hnumber.symm.trans hj) (by simp)

/-- A document's value declares nothing if the property has no name or the value is none, and only
then. -/
theorem ofJson?_eq_none_iff (property : String) (j : Json) :
    ofJson? property j = none ↔ isBlankName property = true ∨ Valueless j := by
  cases hnamed : isBlankName property with
  | true => simp [ofJson?, hnamed]
  | false =>
    simp only [Bool.false_eq_true, false_or]
    cases hnumber : j.number? with
    | some x =>
      rw [ofJson?_of_number? hnamed hnumber]
      cases hfinite : x.isFinite with
      | false => exact iff_of_true rfl (.number hnumber hfinite)
      | true =>
        refine iff_of_false (by simp) fun h => ?_
        cases h with
        | number hj hinfinite =>
          obtain rfl := Option.some.inj (hnumber.symm.trans hj)
          exact absurd hinfinite (by simp [hfinite])
        | _ => exact absurd hnumber (by simp [Json.number?])
    | none =>
      cases j with
      | text s =>
        rw [ofJson?_text hnamed, ofText?_eq_none_iff]
        refine ⟨.text, fun h => ?_⟩
        cases h with
        | number hj => exact absurd hj (by simp [Json.number?])
        | text habsent => exact habsent
      | integer n => exact absurd hnumber (by simp [Json.number?])
      | float x => exact absurd hnumber (by simp [Json.number?])
      | null => exact iff_of_true (ofJson?_eq_none rfl (by simp)) .null
      | bool b => exact iff_of_true (ofJson?_eq_none rfl (by simp)) (.bool b)
      | list items => exact iff_of_true (ofJson?_eq_none rfl (by simp)) (.list items)
      | record members => exact iff_of_true (ofJson?_eq_none rfl (by simp)) (.record members)

end Declaration

/-! ## Items of stored styles -/

namespace Item

/-- The key of the property. -/
def key (i : Item) : String := propertyKey i.property

/-- The item of an entry of a list of declarations, if its property is a text; only `true` flags
it. -/
def ofJson? (entry : Json) : Option Item :=
  ((entry.get? "property").bind Json.text?).map fun property =>
    ⟨property, (entry.get? "value").getD .null,
      match entry.get? "important" with
      | some (.bool true) => true
      | _ => false⟩

/-- The items of stored styles, which are a list of declarations or a record of values by
property. -/
def ofStyles : Json → List Item
  | .list entries => entries.filterMap ofJson?
  | .record members => members.map fun m => ⟨m.1, m.2, false⟩
  | _ => []

/-- The declaration that is read from an item. -/
def declaration? (i : Item) : Option Declaration :=
  (Declaration.ofJson? i.property i.value).map fun d => if i.important then d.flagged else d

/-- An item whose property has no name or whose value is none. -/
def Inert (i : Item) : Prop := isBlankName i.property = true ∨ Valueless i.value

/-- An item declares what its value says, under its name as it is spelled; a flagged item declares
the text of the value, and with the flag. -/
def Declares (i : Item) (d : Declaration) : Prop :=
  isBlankName i.property = false ∧ d.property = i.property ∧
    ∃ v marked, Says i.value v marked ∧ d.important = (i.important || marked) ∧
      d.value = if i.important then .text v.display else v

theorem declaration?_eq_some_iff (i : Item) (d : Declaration) :
    i.declaration? = some d ↔ i.Declares d := by
  unfold declaration? Declares
  rw [Declaration.map_flagged_eq_some_iff]
  simp only [Declaration.ofJson?_eq_some_iff]
  constructor
  · rintro ⟨e, ⟨hnamed, hproperty, hsays⟩, hd, hcontent⟩
    exact ⟨hnamed, hd.trans hproperty, e.value, e.important, hsays, hcontent⟩
  · rintro ⟨hnamed, hproperty, v, marked, hsays, hcontent⟩
    exact ⟨⟨i.property, v, marked⟩, ⟨hnamed, rfl, hsays⟩, hproperty, hcontent⟩

theorem declaration?_eq_none_iff (i : Item) : i.declaration? = none ↔ i.Inert := by
  unfold declaration? Inert
  rw [Option.map_eq_none_iff, Declaration.ofJson?_eq_none_iff]

instance (i : Item) : Decidable i.Inert := decidable_of_iff _ i.declaration?_eq_none_iff

/-- What an item declares has the key of the item. -/
theorem Declares.key_eq {i : Item} {d : Declaration} (h : i.Declares d) : d.key = i.key :=
  congrArg propertyKey h.2.1

/-- The items that declare something declare it under their keys. -/
theorem map_key_filterMap (items : List Item) :
    (items.filterMap declaration?).map Declaration.key
      = (items.filter fun i => ¬ i.Inert).map key := by
  induction items with
  | nil => rfl
  | cons i items ih =>
    cases hi : i.declaration? with
    | none =>
      have hinert := (declaration?_eq_none_iff i).mp hi
      rw [List.filterMap_cons_none hi, ih, List.filter_cons_of_neg (by simpa using hinert)]
    | some d =>
      have hinert : ¬ i.Inert := by
        rw [← declaration?_eq_none_iff, hi]
        simp
      rw [List.filterMap_cons_some hi, List.filter_cons_of_pos (by simpa using hinert),
        List.map_cons, List.map_cons, ih, ((declaration?_eq_some_iff i d).mp hi).key_eq]

/-- The last declaration of a key is that of the last item of the key that declares something. -/
theorem exists_append_filterMap_iff (items : List Item) (d : Declaration) :
    (∃ before after, items.filterMap declaration? = before ++ d :: after ∧
      ∀ e ∈ after, e.key ≠ d.key) ↔
      ∃ before i after, items = before ++ i :: after ∧ i.Declares d ∧
        ∀ j ∈ after, j.key = i.key → j.Inert := by
  constructor
  · rintro ⟨before, after, hitems, hafter⟩
    obtain ⟨front, rest, rfl, rfl, hrest⟩ := List.filterMap_eq_append_iff.mp hitems
    obtain ⟨skipped, i, back, rfl, -, hi, rfl⟩ := List.filterMap_eq_cons_iff.mp hrest
    have hdeclares := (declaration?_eq_some_iff i d).mp hi
    refine ⟨front ++ skipped, i, back, by simp, hdeclares, fun j hj hkey => ?_⟩
    rw [← declaration?_eq_none_iff]
    by_contra hsome
    obtain ⟨e, he⟩ := Option.ne_none_iff_exists'.mp hsome
    refine hafter e (List.mem_filterMap.mpr ⟨j, hj, he⟩) ?_
    rw [((declaration?_eq_some_iff j e).mp he).key_eq, hkey, hdeclares.key_eq]
  · rintro ⟨before, i, after, rfl, hdeclares, hafter⟩
    refine ⟨before.filterMap declaration?, after.filterMap declaration?, ?_, fun e he hkey => ?_⟩
    · rw [List.filterMap_append,
        List.filterMap_cons_some ((declaration?_eq_some_iff i d).mpr hdeclares)]
    · obtain ⟨j, hj, hje⟩ := List.mem_filterMap.mp he
      have hinert : j.Inert := by
        refine hafter j hj ?_
        rw [← ((declaration?_eq_some_iff j e).mp hje).key_eq, hkey, hdeclares.key_eq]
      exact absurd (hje.symm.trans ((declaration?_eq_none_iff j).mpr hinert)) (by simp)

end Item

/-- An entry of a list declares what its item does. -/
theorem Declaration.ofItem?_eq_bind (entry : Json) :
    ofItem? entry = (Item.ofJson? entry).bind Item.declaration? := by
  unfold ofItem? Item.ofJson?
  cases hproperty : (entry.get? "property").bind Json.text? with
  | none =>
    show ((entry.get? "property").bind fun j => j.text?.bind fun property => _) = none
    rw [← Option.bind_assoc, hproperty]
    rfl
  | some property =>
    show ((entry.get? "property").bind fun j => j.text?.bind fun property => _) = _
    rw [← Option.bind_assoc, hproperty, Option.map_some, Option.bind_some, Option.bind_some]
    unfold Item.declaration?
    simp only
    cases Declaration.ofJson? property ((entry.get? "value").getD .null) with
    | none => rfl
    | some d =>
      show (match entry.get? "important" with
        | some (.bool true) => some d.flagged
        | _ => some d) = _
      split <;> rfl

/-- Stored styles make the bucket of what their items declare. -/
theorem Bucket.ofJson_of_styles {inner styles : Json} (h : inner.get? "styles" = some styles) :
    ofJson inner = ofList ((Item.ofStyles styles).filterMap Item.declaration?) := by
  cases inner with
  | record members =>
    have hstyles : Json.findMember? "styles" members = some styles := h
    unfold ofJson
    simp only [hstyles]
    cases styles with
    | list entries =>
      have hentries : entries.filterMap Declaration.ofItem?
          = (entries.filterMap Item.ofJson?).filterMap Item.declaration? := by
        rw [List.filterMap_filterMap]
        exact List.filterMap_congr fun entry _ => Declaration.ofItem?_eq_bind entry
      exact congrArg ofList hentries
    | record members =>
      have hmembers : (members.filterMap fun m => Declaration.ofJson? m.1 m.2)
          = (members.map fun m => (⟨m.1, m.2, false⟩ : Item)).filterMap Item.declaration? := by
        rw [List.filterMap_map]
        exact List.filterMap_congr fun m _ => Option.map_id'.symm
      exact congrArg ofList hmembers
    | _ => rfl
  | _ => exact absurd h (by simp [Json.get?])

/-! ## Entries without effect -/

/-- A list with more entries put in anywhere, all of them such as `inert` says. -/
inductive Interspersed {α : Type} (inert : α → Prop) : List α → List α → Prop
  | nil : Interspersed inert [] []
  | keep {xs ys : List α} (x : α) (h : Interspersed inert xs ys) :
    Interspersed inert (x :: xs) (x :: ys)
  | insert {xs ys : List α} {y : α} (none : inert y) (h : Interspersed inert xs ys) :
      Interspersed inert xs (y :: ys)

/-- Entries that give nothing are not seen wherever they stand. -/
theorem Interspersed.filterMap_eq {α β : Type} {inert : α → Prop} {f : α → Option β}
    {xs ys : List α} (h : Interspersed inert xs ys) (hinert : ∀ y, inert y → f y = none) :
    ys.filterMap f = xs.filterMap f := by
  induction h with
  | nil => rfl
  | keep x h ih => rw [List.filterMap_cons, List.filterMap_cons, ih]
  | insert none h ih => rw [List.filterMap_cons_none (hinert _ none), ih]

/-- Styles with more entries put in anywhere that have no name, no value or no property at all. -/
inductive Padded : Json → Json → Prop
  | list {entries padded : List Json}
      (h : Interspersed (fun entry => ∀ i ∈ Item.ofJson? entry, i.Inert) entries padded) :
      Padded (.list entries) (.list padded)
  | record {members padded : List (String × Json)}
      (h : Interspersed (fun m => isBlankName m.1 = true ∨ Valueless m.2) members padded) :
      Padded (.record members) (.record padded)

/-- Entries without effect add nothing to what the items declare. -/
theorem Padded.filterMap_eq {styles padded : Json} (h : Padded styles padded) :
    (Item.ofStyles padded).filterMap Item.declaration?
      = (Item.ofStyles styles).filterMap Item.declaration? := by
  cases h with
  | list h =>
    unfold Item.ofStyles
    simp only [List.filterMap_filterMap]
    refine h.filterMap_eq fun entry hinert => ?_
    rw [Option.bind_eq_none_iff]
    exact fun i hi => (Item.declaration?_eq_none_iff i).mpr (hinert i hi)
  | record h =>
    unfold Item.ofStyles
    simp only [List.filterMap_map]
    exact h.filterMap_eq fun m hinert =>
      (Item.declaration?_eq_none_iff ⟨m.1, m.2, false⟩).mpr hinert

/-! ## Stored records -/

namespace Record

/-- The styles that are stored for a tier under `styles`. -/
def stylesAt? (tier : Tier) (stored : Json) : Option Json :=
  (stored.get? tier.name).bind (Json.get? "styles")

/-- With a value for some tier the buckets are those of the values for their tiers. -/
theorem ofJson_of_isSome {stored : Json} {named : Tier}
    (h : (stored.get? named.name).isSome = true) :
    (ofJson stored).id = none ∧
      ∀ tier, (ofJson stored).bucket tier
        = ((stored.get? tier.name).map Bucket.ofJson).getD .empty := by
  cases stored with
  | record members =>
    have hnamed : (Tier.all.any fun t => (Json.findMember? t.name members).isSome) = true :=
      List.any_eq_true.mpr ⟨named, by cases named <;> decide, h⟩
    let bucket (t : Tier) : Bucket :=
      ((Json.findMember? t.name members).map Bucket.ofJson).getD .empty
    have hread : ofJson (.record members)
        = ⟨none, bucket .desktop, bucket .tablet, bucket .mobile⟩ := if_pos hnamed
    rw [hread]
    refine ⟨rfl, fun tier => ?_⟩
    cases tier <;> rfl
  | _ => exact absurd h (by simp [Json.get?])

/-- The styles stored for a tier make its bucket. -/
theorem bucket_ofJson_of_stylesAt? {tier : Tier} {stored styles : Json}
    (h : stylesAt? tier stored = some styles) :
    (ofJson stored).bucket tier
      = .ofList ((Item.ofStyles styles).filterMap Item.declaration?) := by
  obtain ⟨inner, hinner, hstyles⟩ := Option.bind_eq_some_iff.mp h
  rw [(ofJson_of_isSome (Option.isSome_of_eq_some hinner)).2, hinner]
  exact Bucket.ofJson_of_styles hstyles

/-- Records that store the same for the other tiers, and styles that make the same bucket for one,
are read alike. -/
theorem ofJson_congr {tier : Tier} {stored stored' styles styles' : Json}
    (h : stylesAt? tier stored = some styles) (h' : stylesAt? tier stored' = some styles')
    (hothers : ∀ t, t ≠ tier → stored'.get? t.name = stored.get? t.name)
    (hsame : (Item.ofStyles styles').filterMap Item.declaration?
      = (Item.ofStyles styles).filterMap Item.declaration?) : ofJson stored' = ofJson stored := by
  obtain ⟨inner, hinner, -⟩ := Option.bind_eq_some_iff.mp h
  obtain ⟨inner', hinner', -⟩ := Option.bind_eq_some_iff.mp h'
  obtain ⟨hid, hbucket⟩ := ofJson_of_isSome (Option.isSome_of_eq_some hinner)
  obtain ⟨hid', hbucket'⟩ := ofJson_of_isSome (Option.isSome_of_eq_some hinner')
  apply ext_bucket
  · rw [hid, hid']
  · intro t
    by_cases ht : t = tier
    · rw [ht, bucket_ofJson_of_stylesAt? h, bucket_ofJson_of_stylesAt? h', hsame]
    · rw [hbucket', hbucket, hothers t ht]

/-- The bucket of stored styles has one declaration for every key that comes up with a name and a
value, in the order in which the keys first come up so. For each key it is what the last such item
declares: its spelling, its value and its flag. And entries without a name or a value that are put
in anywhere change nothing in the record. -/
theorem ofJson_collapses {tier : Tier} {stored styles : Json}
    (h : stylesAt? tier stored = some styles) :
    ((ofJson stored).bucket tier).keys.Nodup ∧
    ((ofJson stored).bucket tier).keys
        = (((Item.ofStyles styles).filter fun i => ¬ i.Inert).map Item.key).eraseDups ∧
    (∀ d, d ∈ ((ofJson stored).bucket tier).declarations ↔
      ∃ before i after, Item.ofStyles styles = before ++ i :: after ∧ i.Declares d ∧
        ∀ j ∈ after, j.key = i.key → j.Inert) ∧
    ∀ padded stored', Padded styles padded → stylesAt? tier stored' = some padded →
      (∀ t, t ≠ tier → stored'.get? t.name = stored.get? t.name) →
        ofJson stored' = ofJson stored := by
  refine ⟨?_, ?_, fun d => ?_, fun padded stored' hpadded h' hothers => ?_⟩
  · rw [bucket_ofJson_of_stylesAt? h]
    exact Bucket.nodup_keys_ofList _
  · rw [bucket_ofJson_of_stylesAt? h, Bucket.keys_ofList, Item.map_key_filterMap]
  · rw [bucket_ofJson_of_stylesAt? h, Bucket.mem_ofList_iff, Item.exists_append_filterMap_iff]
  · exact ofJson_congr h h' hothers hpadded.filterMap_eq

/-- Two spellings of a margin around a colour; and the same list with entries that have no value, no
name or no property. -/
theorem ofJson_collapses_two_spellings :
    let entry (p v : Json) : Json := .record [("property", p), ("value", v)]
    let first := entry (.text "marginTop") (.text "1px !important")
    let colour := entry (.text "color") (.text "red")
    let last := entry (.text "margin-top") (.text " 2px ")
    let stored (entries : List Json) : Json :=
      .record [("mobile", .record [("styles", .list entries)])]
    ((ofJson (stored [first, colour, last])).bucket .mobile).keys = ["margin-top", "color"] ∧
      (⟨"margin-top", .text "2px", false⟩ : Declaration)
        ∈ ((ofJson (stored [first, colour, last])).bucket .mobile).declarations ∧
      ofJson (stored [entry (.text "color") .null, first, entry (.text " ") (.text "1px"), colour,
          entry .null .null, last, entry (.text "marginTop") (.text "!important")])
        = ofJson (stored [first, colour, last]) := by
  intro entry first colour last stored
  obtain ⟨-, hkeys, hmem, hpadded⟩ :=
    ofJson_collapses (show stylesAt? .mobile (stored [first, colour, last]) = some _ from rfl)
  refine ⟨?_, ?_, ?_⟩
  · rw [hkeys]
    decide
  · refine (hmem _).mpr
      ⟨[⟨"marginTop", .text "1px !important", false⟩, ⟨"color", .text "red", false⟩],
      ⟨"margin-top", .text " 2px ", false⟩, [], rfl, ?_, by simp⟩
    rw [← Item.declaration?_eq_some_iff]
    decide
  · refine hpadded _ _ (.list ?_) rfl ?_
    · exact .insert (by decide) (.keep _ (.insert (by decide) (.keep _ (.insert (by decide) (.keep _
        (.insert (by decide) .nil))))))
    · intro t ht
      cases t with
      | mobile => exact absurd rfl ht
      | _ => rfl

end Record

end ResponsiveStyle.Style
