/-
# Shapes of the same styles

Styles are read alike in whatever shape they are stored. A record without names of tiers is the
widest tier, and what is bare in a tier is its record of values. And a list of declarations is the
record of their values, if a flagged value has the mark of importance behind it there: item by item
the two readers make the same declaration (`ofItem?_listed`), and so they collapse, skip and order
alike. Records of the same styles are one record (`ofJson_shapes`).
-/
import ResponsiveStyle.Proofs.Json.Members
import ResponsiveStyle.Proofs.Json.Number
import ResponsiveStyle.Proofs.Style.Declaration

namespace ResponsiveStyle.Style

open Text (trim)

/-! ## Items -/

/-- The values of a declaration without a flag of their own: a number, or a text without a mark of
importance at its end. -/
inductive Unmarked : Json → Prop
  | integer (n : Int) : Unmarked (.integer n)
  | float {x : Float} (finite : x.isFinite = true) : Unmarked (.float x)
  | text {s : String} (unmarked : ¬ ∃ body mark, s.toList = body ++ mark ∧ IsMark mark) :
      Unmarked (.text s)

/-- The text of a value in a style sheet; nothing but a text or a number has one. -/
def shownJson : Json → String
  | .text s => s
  | j => (j.number?.map fun x => (Value.number x).display).getD ""

/-- A property with its value and the flag of importance. -/
structure Item where
  property : String
  value : Json
  important : Bool

namespace Item

/-- The item in a list of declarations. -/
def listed (i : Item) : Json :=
  .record [("property", .text i.property), ("value", i.value), ("important", .bool i.important)]

/-- The item in a record of values: a flagged value is its text with the mark of importance. -/
def member (i : Item) : String × Json :=
  (i.property,
    if i.important then .text (Declaration.withMark (shownJson i.value)) else i.value)

end Item

namespace Declaration

/-- The declaration of an item of a list is the one of its value, flagged if the item is. -/
theorem ofItem?_eq_map (i : Item) :
    ofItem? i.listed
      = (ofJson? i.property i.value).map fun d => if i.important then d.flagged else d := by
  obtain ⟨property, value, important⟩ := i
  cases important with
  | false =>
    show (ofJson? property value).bind (fun d => some d) = (ofJson? property value).map fun d => d
    cases ofJson? property value <;> rfl
  | true =>
    show (ofJson? property value).bind (fun d => some d.flagged)
      = (ofJson? property value).map fun d => d.flagged
    cases ofJson? property value <;> rfl

/-- A number that is flagged is the text of the number with the mark behind it. -/
theorem map_flagged_ofJson?_number {property : String} {j : Json} {x : Float}
    (hnamed : isBlankName property = false) (hj : j.number? = some x) (hx : x.isFinite = true) :
    (ofJson? property j).map flagged
      = ofJson? property (.text (withMark (Value.number x).display)) := by
  have hmarked : ofText? false property (withMark (Value.number x).display)
      = some ⟨property, .text (Value.number x).display, true⟩ :=
    ofText?_withMark (wellFormedText_display_number true x)
  rw [ofJson?_text hnamed, hmarked]
  unfold ofJson?
  rw [if_neg (by simp [hnamed])]
  cases j with
  | integer n =>
    simp only [hj, hx, if_true]
    rfl
  | float y =>
    simp only [hj, hx, if_true]
    rfl
  | null => exact absurd hj (by simp [Json.number?])
  | bool b => exact absurd hj (by simp [Json.number?])
  | text s => exact absurd hj (by simp [Json.number?])
  | list items => exact absurd hj (by simp [Json.number?])
  | record members => exact absurd hj (by simp [Json.number?])

/-- A text that is flagged is the text with the mark behind it, unless it has a mark already. -/
theorem map_flagged_ofText? (property : String) {s : String}
    (h : ¬ ∃ body mark, s.toList = body ++ mark ∧ IsMark mark) :
    (ofText? false property s).map flagged = ofText? false property (withMark s) := by
  have hflag : (splitImportance s.toList).2 = false := by
    rwa [← snd_splitImportance_iff, Bool.not_eq_true] at h
  have hsplit := splitImportance_of_unmarked hflag
  have hmarked : splitImportance (withMark s).toList = (trim s.toList, true) := by
    unfold withMark
    rw [String.toList_append, splitImportance_append_mark]
  unfold ofText?
  rw [hsplit, hmarked]
  simp only
  split
  · rfl
  · rfl

/-- The list and the record of values make the same declaration of an item. -/
theorem ofItem?_listed {i : Item} (h : i.important = true → Unmarked i.value) :
    ofItem? i.listed = ofJson? i.member.1 i.member.2 := by
  rw [ofItem?_eq_map]
  obtain ⟨property, value, important⟩ := i
  cases important with
  | false => exact Option.map_id'
  | true =>
    show (ofJson? property value).map flagged
      = ofJson? property (.text (withMark (shownJson value)))
    cases hnamed : isBlankName property with
    | true => simp [ofJson?, hnamed]
    | false =>
      cases h rfl with
      | integer n => exact map_flagged_ofJson?_number hnamed rfl (Json.isFinite_floatOfInt n)
      | float finite => exact map_flagged_ofJson?_number hnamed rfl finite
      | @text s unmarked =>
        rw [ofJson?_text hnamed, ofJson?_text hnamed]
        exact map_flagged_ofText? property unmarked

/-- A flagged text with a mark of its own is no such item: the list takes the mark off the text, and
the record keeps it in front of the one that is put behind it. -/
theorem ofItem?_listed_ne {property s : String} {body mark : List Char}
    (hnamed : isBlankName property = false) (hs : s.toList = body ++ mark) (hmark : IsMark mark) :
    ofItem? (Item.mk property (.text s) true).listed
      ≠ ofJson? property (Item.mk property (.text s) true).member.2 := by
  rw [ofItem?_eq_map]
  show (ofJson? property (.text s)).map flagged ≠ ofJson? property (.text (withMark s))
  rw [ofJson?_text hnamed, ofJson?_text hnamed]
  intro heq
  have hlist : ∀ d, (ofText? false property s).map flagged = some d →
      d.value = .text (String.ofList (trim body)) := by
    unfold ofText?
    rw [hs, splitImportance_append_of_isMark hmark]
    intro d hd
    simp only at hd
    split at hd
    · exact absurd hd (by simp)
    · obtain rfl := Option.some.inj hd
      rfl
  have hpresent : isAbsentChars (trim s.toList) = false := by
    rw [isAbsentChars_trim, Bool.eq_false_iff]
    intro habsent
    have hflag := snd_splitImportance_of_absent habsent
    rw [hs, splitImportance_append_of_isMark hmark] at hflag
    exact absurd hflag (by simp)
  have hrecord : ofText? false property (withMark s)
      = some ⟨property, .text (String.ofList (trim s.toList)), true⟩ := by
    unfold ofText? withMark
    rw [String.toList_append, splitImportance_append_mark]
    simp [hpresent, textValue]
  have hvalue := hlist _ (heq.trans hrecord)
  -- the text of the record still has the exclamation mark that the one of the list has lost
  have hcount : (trim s.toList).count '!' = (trim body).count '!' := by
    rw [String.ofList_injective (Value.text.inj hvalue)]
  obtain ⟨gap, word, tail, rfl, -, -, -⟩ := hmark
  rw [Text.count_trim (by decide), Text.count_trim (by decide), hs, List.count_append,
    List.count_cons_self] at hcount
  omega

end Declaration

/-! ## Buckets and records -/

/-- The list and the record of values make the same bucket. -/
theorem Bucket.ofItems_map_listed {items : List Item}
    (hdistinct : (items.map Item.property).Nodup)
    (h : ∀ i ∈ items, i.important = true → Unmarked i.value) :
    ofItems (items.map Item.listed) = ofMembers (Json.collapse (items.map Item.member)) := by
  have hnames : ((items.map Item.member).map Prod.fst).Nodup := by
    rw [List.map_map]
    exact hdistinct
  rw [Json.collapse_of_nodup hnames]
  unfold ofItems ofMembers
  rw [List.filterMap_map, List.filterMap_map]
  congr 1
  apply List.filterMap_congr
  intro i hi
  exact Declaration.ofItem?_listed (h i hi)

namespace Record

/-- A record of one tier is read as this tier. -/
theorem ofJson_tier (tier : Tier) (j : Json) :
    ofJson (.record [(tier.name, j)]) = empty.modify (fun _ => Bucket.ofJson j) tier := by
  cases tier <;> rfl

/-- A record without names of tiers is read as the values of the widest tier. -/
theorem ofJson_of_not_mem {members : List (String × Json)}
    (h : ∀ tier : Tier, tier.name ∉ members.map Prod.fst) :
    ofJson (.record members) = empty.modify (fun _ => Bucket.ofMembers members) .desktop := by
  have hnone : ∀ tier : Tier, Json.findMember? tier.name members = none := fun tier =>
    Json.findMember?_eq_none (h tier)
  unfold ofJson
  simp only [hnone]
  rfl

/-- All shapes of the same styles are one record. Values without names of tiers are those of the
widest tier, under `styles` or bare. And a list of declarations of different names is the record of
their values, a flagged one with the mark of importance behind its text. -/
theorem ofJson_shapes :
    (∀ members : List (String × Json), (∀ tier : Tier, tier.name ∉ members.map Prod.fst) →
        ofJson (.record members)
            = ofJson (.record [("desktop", .record [("styles", .record members)])]) ∧
          ("styles" ∉ members.map Prod.fst →
            ofJson (.record members) = ofJson (.record [("desktop", .record members)]))) ∧
      ∀ (tier : Tier) (items : List Item), (items.map Item.property).Nodup →
        (∀ i ∈ items, i.important = true → Unmarked i.value) →
          ofJson (.record [(tier.name, .record [("styles", .list (items.map Item.listed))])])
            = ofJson (.record
                [(tier.name, .record [("styles", Json.ofMembers (items.map Item.member))])]) := by
  refine ⟨?_, ?_⟩
  · intro members h
    refine ⟨?_, ?_⟩
    · exact (ofJson_of_not_mem h).trans
        (ofJson_tier .desktop (.record [("styles", .record members)])).symm
    · intro hstyles
      have hbare : Bucket.ofJson (.record members) = Bucket.ofMembers members := by
        unfold Bucket.ofJson
        simp only [Json.findMember?_eq_none hstyles]
      rw [ofJson_of_not_mem h, show "desktop" = Tier.desktop.name from rfl, ofJson_tier, hbare]
  · intro tier items hdistinct h
    rw [ofJson_tier, ofJson_tier]
    have hbuckets : Bucket.ofJson (.record [("styles", .list (items.map Item.listed))])
        = Bucket.ofJson (.record [("styles", Json.ofMembers (items.map Item.member))]) :=
      Bucket.ofItems_map_listed hdistinct h
    rw [hbuckets]

/-- A flagged number and a flagged text, and two spellings of a margin; and a width without a
tier. -/
theorem ofJson_shapes_flagged_number :
    let items : List Item := [⟨"z-index", .integer 3, true⟩, ⟨"color", .text " red ", true⟩,
      ⟨"marginTop", .integer 1, false⟩, ⟨"margin-top", .text "2px", false⟩]
    ofJson (.record [("mobile", .record [("styles", .list (items.map Item.listed))])])
        = ofJson (.record
            [("mobile", .record [("styles", Json.ofMembers (items.map Item.member))])]) ∧
      ofJson (.record [("width", .text "10px")])
        = ofJson (.record [("desktop", .record [("width", .text "10px")])]) := by
  intro items
  have hunmarked : ∀ i ∈ items, i.important = true → Unmarked i.value := by
    intro i hi himportant
    simp only [items, List.mem_cons, List.not_mem_nil, or_false] at hi
    rcases hi with rfl | rfl | rfl | rfl
    · exact .integer 3
    · refine .text ?_
      rw [← snd_splitImportance_iff]
      decide
    · exact absurd himportant (by simp)
    · exact absurd himportant (by simp)
  have hbare : ∀ tier : Tier, tier.name ∉ [("width", Json.text "10px")].map Prod.fst := by
    intro tier
    cases tier <;> decide
  refine ⟨?_, ?_⟩
  · exact ofJson_shapes.2 .mobile items (by decide) hunmarked
  · exact (ofJson_shapes.1 [("width", .text "10px")] hbare).2 (by decide)

end Record

end ResponsiveStyle.Style
