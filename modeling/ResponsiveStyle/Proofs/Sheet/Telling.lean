/-
# What a style sheet tells

Texts tell what they show if it can be read off them, whatever follows (`Tells`). The line of a
declaration does if no text breaks its line and no value looks like one that is marked; a rule does,
because its end is indented less than its lines; and a section does, because its first line tells
the media query. So without selectors below the wrapper two records with one id have the same style
sheet only if they show the same declarations in every tier (`render_eq_render_iff`).
-/
import ResponsiveStyle.Proofs.Sheet.Layout
import ResponsiveStyle.Proofs.Sheet.Reading

namespace ResponsiveStyle.Sheet

open Style (Bucket Declaration Record Tier)
open Text (joined)

/-! ## Texts that tell -/

section Tells

variable {α β : Type} {P : α → Prop} {text : α → String} {shown : α → β}

/-- Texts tell what they show if it can be read off them, whatever follows. -/
def Tells (P : α → Prop) (text : α → String) (shown : α → β) : Prop :=
  ∀ a b, P a → P b → ∀ rest rest' : List Char,
    (text a).toList ++ rest = (text b).toList ++ rest' → shown a = shown b ∧ rest = rest'

/-- A text in front of all texts tells nothing more. -/
theorem Tells.behind (h : Tells P text shown) (start : String) :
    Tells P (fun a => start ++ text a) shown := by
  intro a b ha hb rest rest' heq
  rw [String.toList_append, String.toList_append, List.append_assoc, List.append_assoc] at heq
  exact h a b ha hb rest rest' (List.append_cancel_left heq)

/-- A text behind all texts tells nothing more. -/
theorem Tells.before (h : Tells P text shown) (ending : String) :
    Tells P (fun a => text a ++ ending) shown := by
  intro a b ha hb rest rest' heq
  rw [String.toList_append, String.toList_append, List.append_assoc, List.append_assoc] at heq
  obtain ⟨hshown, hrest⟩ := h a b ha hb _ _ heq
  exact ⟨hshown, List.append_cancel_left hrest⟩

/-- Texts one after the other tell what all of them show, unless one more could begin where they
end. -/
theorem Tells.flatMap (h : Tells P text shown) {rest rest' : List Char}
    (hrest : ∀ a more, P a → (text a).toList ++ more ≠ rest)
    (hrest' : ∀ a more, P a → (text a).toList ++ more ≠ rest') {as bs : List α}
    (has : ∀ a ∈ as, P a) (hbs : ∀ b ∈ bs, P b)
    (heq : (as.flatMap fun a => (text a).toList) ++ rest
      = (bs.flatMap fun b => (text b).toList) ++ rest') :
    as.map shown = bs.map shown ∧ rest = rest' := by
  induction as generalizing bs with
  | nil =>
    cases bs with
    | nil => exact ⟨rfl, heq⟩
    | cons b bs =>
      rw [List.flatMap_cons, List.append_assoc] at heq
      exact absurd heq.symm (hrest b _ (hbs b List.mem_cons_self))
  | cons a as ih =>
    have ha := has a List.mem_cons_self
    cases bs with
    | nil =>
      rw [List.flatMap_cons, List.append_assoc] at heq
      exact absurd heq (hrest' a _ ha)
    | cons b bs =>
      rw [List.flatMap_cons, List.flatMap_cons, List.append_assoc, List.append_assoc] at heq
      obtain ⟨hshown, hbehind⟩ := h a b ha (hbs b List.mem_cons_self) _ _ heq
      obtain ⟨hmap, hend⟩ := ih (fun a h => has a (List.mem_cons_of_mem _ h))
        (fun b h => hbs b (List.mem_cons_of_mem _ h)) hbehind
      exact ⟨by rw [List.map_cons, List.map_cons, hshown, hmap], hend⟩

/-- Texts with empty lines between them tell what all of them show. -/
theorem Tells.joined (h : Tells P text shown) (hfilled : ∀ a, P a → (text a).toList ≠ [])
    {as bs : List α} (has : ∀ a ∈ as, P a) (hbs : ∀ b ∈ bs, P b)
    (heq : Text.joined "\n" (as.map text) = Text.joined "\n" (bs.map text)) :
    as.map shown = bs.map shown := by
  have hcons : ∀ a as, (Text.joined "\n" ((a :: as).map text)).toList
      = (text a).toList ++ as.flatMap fun b => ("\n" ++ text b).toList := by
    intro a as
    rw [List.map_cons, Text.toList_joined_cons, List.flatMap_map]
  have hchars := congrArg String.toList heq
  cases as with
  | nil =>
    cases bs with
    | nil => rfl
    | cons b bs =>
      rw [hcons] at hchars
      exact absurd (List.append_eq_nil_iff.mp hchars.symm).1 (hfilled b (hbs b List.mem_cons_self))
  | cons a as =>
    have ha := has a List.mem_cons_self
    cases bs with
    | nil =>
      rw [hcons] at hchars
      exact absurd (List.append_eq_nil_iff.mp hchars).1 (hfilled a ha)
    | cons b bs =>
      rw [hcons, hcons] at hchars
      obtain ⟨hshown, hbehind⟩ := h a b ha (hbs b List.mem_cons_self) _ _ hchars
      -- each of the other texts is told with the line end in front of it
      have hend : ∀ c more, P c → ("\n" ++ text c).toList ++ more ≠ [] := by
        intro c more _ hnil
        rw [String.toList_append] at hnil
        exact absurd hnil (List.cons_ne_nil _ _)
      obtain ⟨hmap, -⟩ := (h.behind "\n").flatMap hend hend
        (fun a h => has a (List.mem_cons_of_mem _ h)) (fun b h => hbs b (List.mem_cons_of_mem _ h))
        (congrArg (· ++ []) hbehind)
      rw [List.map_cons, List.map_cons, hshown, hmap]

end Tells

/-! ## Declarations -/

/-- What a declaration shows: the key, the displayed value and the flag. -/
def displayed (d : Declaration) : String × String × Bool := (d.key, d.value.display, d.important)

/-- A legible declaration with a value that does not look like one that is marked. -/
structure Unambiguous (d : Declaration) : Prop extends LegibleDeclaration d where
  unmarked : ¬ " !important".toList <:+ d.value.display.toList

instance (d : Declaration) : Decidable (Unambiguous d) :=
  decidable_of_iff (LegibleDeclaration d ∧ ¬ " !important".toList <:+ d.value.display.toList)
    ⟨fun h => ⟨h.1, h.2⟩, fun h => ⟨h.toLegibleDeclaration, h.unmarked⟩⟩

/-- The text of an unambiguous declaration tells what it shows. -/
theorem displayed_of_declarationText {d e : Declaration} (hd : Unambiguous d) (he : Unambiguous e)
    (h : declarationText d = declarationText e) : displayed d = displayed e := by
  have htext : ∀ d : Declaration, (declarationText d).toList
      = d.key.toList ++ ':' :: (' ' :: (d.value.display.toList ++
          ((if d.important then " !important" else "").toList ++ [';']))) := by
    intro d
    unfold declarationText
    simp
  have hchars := congrArg String.toList h
  rw [htext, htext] at hchars
  obtain ⟨hkey, hbehind⟩ := Text.append_cons_inj hd.colon he.colon hchars
  have hmarked := (List.cons.inj hbehind).2
  rw [← List.append_assoc, ← List.append_assoc] at hmarked
  replace hmarked := List.append_cancel_right hmarked
  have hvalue : d.value.display = e.value.display ∧ d.important = e.important := by
    cases hdflag : d.important with
    | true =>
      cases heflag : e.important with
      | true =>
        rw [hdflag, heflag] at hmarked
        exact ⟨String.toList_inj.mp (List.append_cancel_right hmarked), rfl⟩
      | false =>
        rw [hdflag, heflag] at hmarked
        exact absurd ⟨_, hmarked.trans (List.append_nil _)⟩ he.unmarked
    | false =>
      cases heflag : e.important with
      | true =>
        rw [hdflag, heflag] at hmarked
        exact absurd ⟨_, hmarked.symm.trans (List.append_nil _)⟩ hd.unmarked
      | false =>
        rw [hdflag, heflag] at hmarked
        exact ⟨String.toList_inj.mp (List.append_cancel_right hmarked), rfl⟩
  unfold displayed
  rw [String.toList_inj.mp hkey, hvalue.1, hvalue.2]

/-- The line of an unambiguous declaration tells what it shows. -/
theorem tells_declarationLine (depth : Nat) :
    Tells Unambiguous (declarationLine depth) displayed := by
  intro d e hd he rest rest' heq
  have hline : ∀ (d : Declaration) (rest : List Char), (declarationLine depth d).toList ++ rest
      = (indent depth ++ declarationText d).toList ++ '\n' :: rest := by
    intro d rest
    unfold declarationLine line
    simp
  have hbreak : ∀ d, Unambiguous d → '\n' ∉ (indent depth ++ declarationText d).toList :=
    fun d hd => newline_not_mem_indent_append
      (newline_not_mem_declarationText hd.toLegibleDeclaration) depth
  rw [hline, hline] at heq
  obtain ⟨htext, hrest⟩ := Text.append_cons_inj (hbreak d hd) (hbreak e he) heq
  rw [String.toList_append, String.toList_append] at htext
  have hsame := String.toList_inj.mp (List.append_cancel_left htext)
  exact ⟨displayed_of_declarationText hd he hsame, hrest⟩

/-! ## Rules -/

/-- The line of a declaration is indented more than the end of its block. -/
theorem declarationLine_append_ne (depth : Nat) (d : Declaration) (rest rest' : List Char) :
    (declarationLine (depth + 1) d).toList ++ rest ≠ (line depth "\x7d").toList ++ rest' := by
  intro heq
  have hindent : (indent (depth + 1)).toList = (indent depth).toList ++ List.replicate 4 ' ' := by
    unfold indent
    rw [String.toList_ofList, String.toList_ofList, List.replicate_append_replicate]
    rfl
  unfold declarationLine line at heq
  simp only [String.toList_append, hindent, List.append_assoc] at heq
  have hspace := (List.cons.inj (List.append_cancel_left heq)).1
  exact absurd hspace (by decide)

/-- A rule tells what its declarations show. -/
theorem tells_rule (selectors : List String) (depth : Nat) :
    Tells (fun ds => ∀ d ∈ ds, Unambiguous d) (fun ds => Rule.text depth ⟨selectors, ds⟩)
      (List.map displayed) := by
  have hblock : Tells (fun ds : List Declaration => ∀ d ∈ ds, Unambiguous d)
      (fun ds => String.join (ds.map (declarationLine (depth + 1))) ++ line depth "\x7d")
      (List.map displayed) := by
    intro ds es hds hes rest rest' heq
    have hlines : ∀ (ds : List Declaration) (rest : List Char),
        (String.join (ds.map (declarationLine (depth + 1))) ++ line depth "\x7d").toList ++ rest
          = (ds.flatMap fun d => (declarationLine (depth + 1) d).toList) ++
              ((line depth "\x7d").toList ++ rest) := by
      intro ds rest
      rw [String.toList_append, String.toList_join, List.flatMap_map, List.append_assoc]
    rw [hlines, hlines] at heq
    obtain ⟨hmap, hrest⟩ := (tells_declarationLine (depth + 1)).flatMap
      (fun d more _ => declarationLine_append_ne depth d more rest)
      (fun d more _ => declarationLine_append_ne depth d more rest') hds hes heq
    exact ⟨hmap, List.append_cancel_left hrest⟩
  have htext : (fun ds => Rule.text depth ⟨selectors, ds⟩) = fun ds =>
      headLines depth selectors ++
        (String.join (ds.map (declarationLine (depth + 1))) ++ line depth "\x7d") := by
    funext ds
    exact String.append_assoc
  rw [htext]
  exact hblock.behind (headLines depth selectors)

/-! ## Sections -/

/-- The section of some declarations in one rule. -/
def sectionOf (selector : String) (part : Option MediaQuery × List Declaration) : Section :=
  ⟨part.1, [⟨[selector], part.2⟩]⟩

/-- What the declarations of a part show, with the query. -/
def displayedPart (part : Option MediaQuery × List Declaration) :
    Option MediaQuery × List (String × String × Bool) := (part.1, part.2.map displayed)

theorem text_sectionOf_none (selector : String) (ds : List Declaration) :
    (sectionOf selector (none, ds)).text = Rule.text 0 ⟨[selector], ds⟩ := by
  simp [sectionOf, Section.text, rulesText, joined]

theorem text_sectionOf_some (selector : String) (q : MediaQuery) (ds : List Declaration) :
    (sectionOf selector (some q, ds)).text
      = line 0 (q.text ++ " \x7b") ++ Rule.text 1 ⟨[selector], ds⟩ ++ line 0 "\x7d" := by
  simp [sectionOf, Section.text, rulesText, joined]

/-- The query of a section is read off its first line. -/
theorem openedQuery?_sectionOf {selector : String} (hselector : selector.toList.head? = some '[')
    (part : Option MediaQuery × List Declaration) (rest : List Char) :
    openedQuery? ((sectionOf selector part).text.toList ++ rest) = part.1 := by
  obtain ⟨query, ds⟩ := part
  cases query with
  | none =>
    obtain ⟨l, hl⟩ := List.head?_eq_some_iff.mp hselector
    have htext : ∃ more, (sectionOf selector (none, ds)).text.toList ++ rest = '[' :: more := by
      rw [text_sectionOf_none]
      unfold Rule.text
      simp [joined, indent, hl]
    obtain ⟨more, hmore⟩ := htext
    rw [hmore]
    unfold openedQuery?
    rw [show "@media ".toList = '@' :: "media ".toList from rfl,
      Text.after?_cons_of_ne (by decide), Option.bind_none]
  | some q =>
    have htext : ∃ more, (sectionOf selector (some q, ds)).text.toList ++ rest
        = q.text.toList ++ more := by
      rw [text_sectionOf_some]
      unfold line
      simp [indent]
    obtain ⟨more, hmore⟩ := htext
    rw [hmore, openedQuery?_text]

/-- A section tells its query and what its declarations show. -/
theorem tells_sectionOf {selector : String} (hselector : selector.toList.head? = some '[') :
    Tells (fun part => ∀ d ∈ part.2, Unambiguous d) (fun part => (sectionOf selector part).text)
      displayedPart := by
  rintro ⟨query, ds⟩ ⟨query', es⟩ hds hes rest rest' heq
  have hqueries := congrArg openedQuery? heq
  rw [openedQuery?_sectionOf hselector, openedQuery?_sectionOf hselector] at hqueries
  obtain rfl : query = query' := hqueries
  have htells : Tells (fun ds => ∀ d ∈ ds, Unambiguous d)
      (fun ds => (sectionOf selector (query, ds)).text) (List.map displayed) := by
    cases query with
    | none =>
      simp only [text_sectionOf_none]
      exact tells_rule [selector] 0
    | some q =>
      simp only [text_sectionOf_some]
      exact ((tells_rule [selector] 1).behind (line 0 (q.text ++ " \x7b"))).before (line 0 "\x7d")
  obtain ⟨hmap, hrest⟩ := htells ds es hds hes rest rest' heq
  exact ⟨congrArg (Prod.mk query) hmap, hrest⟩

/-! ## Style sheets of records -/

/-- The declarations of each tier that has any, with the query of the tier. -/
def parts (b : Breakpoints) (r : Record) : List (Option MediaQuery × List Declaration) :=
  (Tier.all.filter fun tier => !(r.bucket tier).isEmpty).map fun tier =>
    (query? b tier, (r.bucket tier).declarations)

/-- Without selectors below the wrapper the sections of a record have one rule each. -/
theorem sections_eq_map_parts {c : Config} {nodeType : String}
    (hc : c.strengthened? nodeType = none) {r : Record} {id : String} (hid : r.id = some id) :
    sections c nodeType r
      = (parts c.breakpoints r).map (sectionOf (wrapperSelector c id)) := by
  unfold parts
  rw [sections_eq c nodeType hid, List.map_map]
  apply List.map_congr_left
  intro tier htier
  have hfilled : (r.bucket tier).declarations.isEmpty = false := by
    simpa [Bucket.isEmpty] using (List.mem_filter.mp htier).2
  have hrules : rules (targets c id nodeType) (r.bucket tier)
      = [⟨[wrapperSelector c id], (r.bucket tier).declarations⟩] := by
    simp only [rules, targets, hc, Option.map_none, ruleOf, hfilled, Bool.false_eq_true, if_false]
  rw [hrules]
  rfl

/-- The media queries of two tiers differ. -/
theorem query?_inj {b : Breakpoints} {tier tier' : Tier} (h : query? b tier = query? b tier') :
    tier = tier' := by
  cases tier <;> cases tier' <;> simp_all [query?, Breakpoints.tabletQuery, Breakpoints.mobileQuery]

/-- What the parts of a record show is what its tiers with declarations show. -/
theorem mem_map_displayedPart_iff (b : Breakpoints) (r : Record) (tier : Tier)
    (shown : List (String × String × Bool)) :
    (query? b tier, shown) ∈ (parts b r).map displayedPart ↔
      shown ≠ [] ∧ (r.bucket tier).declarations.map displayed = shown := by
  unfold parts
  rw [List.map_map, List.mem_map]
  constructor
  · rintro ⟨other, hother, heq⟩
    obtain ⟨hquery, hshown⟩ := Prod.mk.inj heq
    obtain rfl := query?_inj hquery
    refine ⟨?_, hshown⟩
    rintro rfl
    have hnone : (r.bucket other).declarations = [] := List.map_eq_nil_iff.mp hshown
    have hfilled := (List.mem_filter.mp hother).2
    rw [Bucket.isEmpty, hnone] at hfilled
    exact absurd hfilled (by decide)
  · rintro ⟨hne, rfl⟩
    refine ⟨tier, List.mem_filter.mpr ⟨by cases tier <;> decide, ?_⟩, rfl⟩
    cases hempty : (r.bucket tier).isEmpty with
    | true => exact absurd (by rw [List.isEmpty_iff.mp hempty]; rfl) hne
    | false => rfl

/-- The text of a section is made of its query and what its declarations show. -/
theorem text_sectionOf_congr {selector : String} {part part' : Option MediaQuery × List Declaration}
    (h : displayedPart part = displayedPart part') :
    (sectionOf selector part).text = (sectionOf selector part').text := by
  obtain ⟨query, ds⟩ := part
  obtain ⟨query', es⟩ := part'
  obtain ⟨rfl, hshown⟩ := Prod.mk.inj h
  have hline : ∀ (depth : Nat) (ds : List Declaration), ds.map (declarationLine depth)
      = (ds.map displayed).map fun s =>
          line depth (s.1 ++ ": " ++ s.2.1 ++ (if s.2.2 then " !important" else "") ++ ";") := by
    intro depth ds
    rw [List.map_map]
    rfl
  have hrule : ∀ depth, Rule.text depth ⟨[selector], ds⟩ = Rule.text depth ⟨[selector], es⟩ := by
    intro depth
    unfold Rule.text
    rw [hline, hline, hshown]
  cases query with
  | none => rw [text_sectionOf_none, text_sectionOf_none, hrule]
  | some q => rw [text_sectionOf_some, text_sectionOf_some, hrule]

/-- A section has a text. -/
theorem text_sectionOf_ne_nil (selector : String) (part : Option MediaQuery × List Declaration) :
    (sectionOf selector part).text.toList ≠ [] := by
  obtain ⟨query, ds⟩ := part
  cases query with
  | none =>
    rw [text_sectionOf_none]
    simp [Rule.text, line]
  | some q =>
    rw [text_sectionOf_some]
    simp [line]

/-- Let a node type have no selectors below the wrapper, and let the declarations of two records
with one id be unambiguous. The records have the same style sheet if and only if the declarations of
each tier show the same in both of them, in the same order. -/
theorem render_eq_render_iff (c : Config) (nodeType : String)
    (hc : c.strengthened? nodeType = none) {r r' : Record} {id : String} (hid : r.id = some id)
    (hid' : r'.id = some id)
    (hr : ∀ tier, ∀ d ∈ (r.bucket tier).declarations, Unambiguous d)
    (hr' : ∀ tier, ∀ d ∈ (r'.bucket tier).declarations, Unambiguous d) :
    render c nodeType r = render c nodeType r' ↔
      ∀ tier, (r.bucket tier).declarations.map displayed
        = (r'.bucket tier).declarations.map displayed := by
  have hrender : ∀ {r : Record}, r.id = some id → render c nodeType r
      = joined "\n" ((parts c.breakpoints r).map fun part =>
          (sectionOf (wrapperSelector c id) part).text) := by
    intro r hid
    unfold render sectionsText
    rw [sections_eq_map_parts hc hid, List.map_map]
    rfl
  rw [hrender hid, hrender hid']
  constructor
  · intro heq
    have hselector : (wrapperSelector c id).toList.head? = some '[' := by simp [wrapperSelector]
    have hparts : ∀ {r : Record}, (∀ tier, ∀ d ∈ (r.bucket tier).declarations, Unambiguous d) →
        ∀ part ∈ parts c.breakpoints r, ∀ d ∈ part.2, Unambiguous d := by
      intro r hr part hpart
      obtain ⟨tier, -, rfl⟩ := List.mem_map.mp hpart
      exact hr tier
    have hmap : (parts c.breakpoints r).map displayedPart
        = (parts c.breakpoints r').map displayedPart :=
      (tells_sectionOf hselector).joined (fun part _ => text_sectionOf_ne_nil _ part)
        (hparts hr) (hparts hr') heq
    intro tier
    have htier := mem_map_displayedPart_iff c.breakpoints r tier
    have htier' := mem_map_displayedPart_iff c.breakpoints r' tier
    rw [hmap] at htier
    -- a tier that shows something in one of the records shows the same in the other one
    by_cases hshown : (r.bucket tier).declarations.map displayed = []
    · by_contra hne
      have hne' : (r'.bucket tier).declarations.map displayed ≠ [] := by
        intro hnil
        exact hne (hshown.trans hnil.symm)
      exact hne ((htier _).mp ((htier' _).mpr ⟨hne', rfl⟩)).2
    · exact ((htier' _).mp ((htier _).mpr ⟨hshown, rfl⟩)).2.symm
  · intro hshown
    have hempty : ∀ tier, (r.bucket tier).isEmpty = (r'.bucket tier).isEmpty := by
      intro tier
      have hsame := congrArg List.isEmpty (hshown tier)
      rwa [List.isEmpty_map, List.isEmpty_map] at hsame
    unfold parts
    simp only [hempty, List.map_map]
    refine congrArg (joined "\n") (List.map_congr_left fun tier _ => ?_)
    exact text_sectionOf_congr (congrArg (Prod.mk (query? c.breakpoints tier)) (hshown tier))

/-- Two records with braces, semicolons and marks in their texts, one of them with a marked
declaration less in its narrow tier. -/
theorem render_ne_render_braces :
    let r : Record := ⟨some "b1", ⟨[⟨"--a\x7d", .text "\x7b; b: c;", false⟩]⟩, .empty,
      ⟨[⟨"color", .text "red; \x7d", true⟩, ⟨"", .text "!important", false⟩]⟩⟩
    let r' : Record := { r with mobile := ⟨[⟨"", .text "!important", false⟩]⟩ }
    Config.standard.strengthened? "core/group" = none ∧ r.id = some "b1" ∧ r'.id = some "b1" ∧
      (∀ tier, ∀ d ∈ (r.bucket tier).declarations, Unambiguous d) ∧
      (∀ tier, ∀ d ∈ (r'.bucket tier).declarations, Unambiguous d) ∧
      render .standard "core/group" r ≠ render .standard "core/group" r' := by
  intro r r'
  have hc : Config.standard.strengthened? "core/group" = none := by decide
  have hr : ∀ tier, ∀ d ∈ (r.bucket tier).declarations, Unambiguous d := by
    intro tier
    cases tier <;> decide
  have hr' : ∀ tier, ∀ d ∈ (r'.bucket tier).declarations, Unambiguous d := by
    intro tier
    cases tier <;> decide
  refine ⟨hc, rfl, rfl, hr, hr', ?_⟩
  intro heq
  have hshown := (render_eq_render_iff .standard "core/group" hc rfl rfl hr hr').mp heq .mobile
  exact absurd hshown (by decide)

end ResponsiveStyle.Sheet
