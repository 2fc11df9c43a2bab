/-
# The layout of a style sheet

A style sheet is written piece by piece: the beginning of a block, a declaration, the end of a block
or an empty line, each of them indented by the number of blocks that are open (`written`). Read in
the same order, the pieces show which blocks stand around a declaration, and whether all blocks are
closed in the end (`enclosed`). The text of a record is what is written for the pieces of its tiers,
and the declarations of a tier stand in it once each, in their order, and in the rule where they
belong (`render_layout`).
-/
import Mathlib.Data.List.Perm.Basic
import ResponsiveStyle.Proofs.Sheet.Entry
import ResponsiveStyle.Proofs.Text.Cut

namespace ResponsiveStyle.Sheet

open Style (Bucket Declaration Record Tier)
open Text (joined joined_cons_cons joined_singleton trimmed)

/-! ## Pieces -/

/-- A piece of a style sheet. A block begins with its heads, be they selectors or a media query. -/
inductive Piece
  | opens (heads : List String)
  | declares (d : Declaration)
  | closes
  | gap

/-- The lines of the heads of a block. -/
def headLines (depth : Nat) (heads : List String) : String :=
  joined ",\n" (heads.map fun s => indent depth ++ s) ++ " \x7b\n"

/-- The text of pieces when `depth` blocks are open. -/
def written (depth : Nat) : List Piece → String
  | [] => ""
  | .opens heads :: ps => headLines depth heads ++ written (depth + 1) ps
  | .declares d :: ps =>
    line depth
        (d.key ++ ": " ++ d.value.display ++ (if d.important then " !important" else "") ++ ";")
      ++ written depth ps
  | .closes :: ps => line (depth - 1) "\x7d" ++ written (depth - 1) ps
  | .gap :: ps => "\n" ++ written depth ps

/-- The declarations of pieces, each with the heads of the blocks around it from the innermost one
outwards, when the blocks `around` are open; none if a block is left open or is closed twice. -/
def enclosed (around : List (List String)) :
    List Piece → Option (List (List (List String) × Declaration))
  | [] => if around.isEmpty then some [] else none
  | .opens heads :: ps => enclosed (heads :: around) ps
  | .declares d :: ps => (enclosed around ps).map fun es => (around, d) :: es
  | .closes :: ps =>
    match around with
    | [] => none
    | _ :: outer => enclosed outer ps
  | .gap :: ps => enclosed around ps

/-- Pieces that close the blocks they open have a text and declarations of their own, whatever
follows them. -/
structure Nested (around : List (List String)) (ps : List Piece) (text : String)
    (es : List (List (List String) × Declaration)) : Prop where
  written : ∀ rest, written around.length (ps ++ rest) = text ++ written around.length rest
  enclosed : ∀ rest,
    enclosed around (ps ++ rest) = (enclosed around rest).map fun more => es ++ more

section Nested

variable {around : List (List String)} {ps ps' : List Piece} {text text' : String}
  {es es' : List (List (List String) × Declaration)}

theorem nested_nil (around : List (List String)) : Nested around [] "" [] where
  written _ := String.empty_append.symm
  enclosed rest := by
    show enclosed around rest = _
    cases enclosed around rest <;> rfl

theorem nested_gap (around : List (List String)) : Nested around [.gap] "\n" [] where
  written _ := rfl
  enclosed rest := by
    show enclosed around rest = _
    cases enclosed around rest <;> rfl

theorem nested_declares (around : List (List String)) (d : Declaration) :
    Nested around [.declares d] (declarationLine around.length d) [(around, d)] where
  written _ := rfl
  enclosed _ := rfl

theorem Nested.append (h : Nested around ps text es) (h' : Nested around ps' text' es') :
    Nested around (ps ++ ps') (text ++ text') (es ++ es') where
  written rest := by rw [List.append_assoc, h.written, h'.written, String.append_assoc]
  enclosed rest := by
    rw [List.append_assoc, h.enclosed, h'.enclosed, Option.map_map]
    congr 1
    funext more
    exact (List.append_assoc es es' more).symm

/-- A block around pieces closes behind them at the depth where it was opened. -/
theorem Nested.block {heads : List String} (h : Nested (heads :: around) ps text es) :
    Nested around (.opens heads :: (ps ++ [.closes]))
      (headLines around.length heads ++ text ++ line around.length "\x7d") es where
  written rest := by
    have hinner := h.written (.closes :: rest)
    rw [List.cons_append, List.append_assoc, String.append_assoc, String.append_assoc]
    show headLines around.length heads ++ Sheet.written (around.length + 1) _ = _
    rw [show around.length + 1 = (heads :: around).length from rfl, List.singleton_append, hinner]
    rfl
  enclosed rest := by
    rw [List.cons_append, List.append_assoc]
    exact h.enclosed (.closes :: rest)

/-- Pieces with empty lines between them have their texts with empty lines between them. -/
theorem nested_intercalate {α : Type} {pieces : α → List Piece} {text : α → String}
    {es : α → List (List (List String) × Declaration)} {parts : List α}
    (h : ∀ a ∈ parts, Nested around (pieces a) (text a) (es a)) :
    Nested around (List.intercalate [.gap] (parts.map pieces)) (joined "\n" (parts.map text))
      (parts.flatMap es) := by
  induction parts with
  | nil => exact nested_nil around
  | cons a parts ih =>
    have ha := h a List.mem_cons_self
    cases parts with
    | nil => simpa using ha
    | cons b parts =>
      have hrest := ih fun b hb => h b (List.mem_cons_of_mem a hb)
      rw [List.map_cons, List.map_cons, List.map_cons, List.map_cons, joined_cons_cons,
        List.intercalate_cons_cons, List.flatMap_cons]
      simpa using (ha.append (nested_gap around)).append hrest

/-- Declarations are written line by line. -/
theorem nested_declarations (around : List (List String)) (ds : List Declaration) :
    Nested around (ds.map .declares) (String.join (ds.map (declarationLine around.length)))
      (ds.map fun d => (around, d)) := by
  induction ds with
  | nil => exact nested_nil around
  | cons d ds ih =>
    rw [List.map_cons, List.map_cons, String.join_cons]
    exact (nested_declares around d).append ih

end Nested

/-! ## Rules and sections -/

/-- The pieces of a rule. -/
def Rule.pieces (r : Rule) : List Piece :=
  .opens r.selectors :: (r.declarations.map .declares ++ [.closes])

/-- The pieces of rules with empty lines between them. -/
def rulesPieces (rules : List Rule) : List Piece :=
  List.intercalate [.gap] (rules.map Rule.pieces)

/-- The pieces of a section. -/
def Section.pieces (s : Section) : List Piece :=
  match s.query with
  | none => rulesPieces s.rules
  | some q => .opens [q.text] :: (rulesPieces s.rules ++ [.closes])

/-- The declarations of a section with the blocks around them. -/
def Section.enclosed (s : Section) : List (List (List String) × Declaration) :=
  s.rules.flatMap fun rule =>
    rule.declarations.map fun d => (rule.selectors :: s.query.toList.map fun q => [q.text], d)

theorem nested_rule (around : List (List String)) (r : Rule) :
    Nested around r.pieces (r.text around.length)
      (r.declarations.map fun d => (r.selectors :: around, d)) :=
  (nested_declarations (r.selectors :: around) r.declarations).block

theorem nested_rules (around : List (List String)) (rules : List Rule) :
    Nested around (rulesPieces rules) (rulesText around.length rules)
      (rules.flatMap fun r => r.declarations.map fun d => (r.selectors :: around, d)) :=
  nested_intercalate fun r _ => nested_rule around r

theorem nested_section (s : Section) : Nested [] s.pieces s.text s.enclosed := by
  unfold Section.pieces Section.text Section.enclosed
  cases s.query with
  | none => exact nested_rules [] s.rules
  | some q =>
    have hhead : line 0 (q.text ++ " \x7b") = headLines 0 [q.text] := by
      unfold line headLines
      rw [List.map_singleton, joined_singleton, ← String.append_assoc, String.append_assoc]
      rfl
    simp only [hhead]
    exact (nested_rules [[q.text]] s.rules).block

/-- The text of sections is what is written for their pieces, and all of their blocks are closed. -/
theorem written_sections (ss : List Section) :
    written 0 (List.intercalate [.gap] (ss.map Section.pieces)) = sectionsText ss ∧
      enclosed [] (List.intercalate [.gap] (ss.map Section.pieces))
        = some (ss.flatMap Section.enclosed) := by
  have hnested : Nested [] _ (sectionsText ss) _ := nested_intercalate fun s _ => nested_section s
  have hwritten := hnested.written []
  have henclosed := hnested.enclosed []
  rw [List.append_nil] at hwritten henclosed
  refine ⟨hwritten.trans String.append_empty, henclosed.trans ?_⟩
  show some (ss.flatMap Section.enclosed ++ []) = _
  rw [List.append_nil]

/-! ## The rules of a bucket -/

/-- The selectors where a declaration belongs: those below the wrapper if the node type has any and
the declaration is not about a margin, and else the wrapper. -/
def selectorsOf (c : Config) (nodeType id : String) (d : Declaration) : List String :=
  match c.strengthen.get? nodeType with
  | none => [wrapperSelector c id]
  | some [] => [wrapperSelector c id]
  | some (s :: ss) =>
    if "margin".toList <+: d.key.toList then [wrapperSelector c id]
    else (s :: ss).map fun below => wrapperSelector c id ++ " " ++ trimmed below

/-- Rules in which all declarations of a bucket are laid out. -/
structure LaysOut (c : Config) (nodeType id : String) (b : Bucket) (rules : List Rule) : Prop where
  complete : (rules.flatMap Rule.declarations).Perm b.declarations
  ordered : ∀ rule ∈ rules, rule.declarations.Sublist b.declarations
  filled : ∀ rule ∈ rules, rule.declarations ≠ []
  placed : ∀ rule ∈ rules, ∀ d ∈ rule.declarations, rule.selectors = selectorsOf c nodeType id d
  parted : rules.Pairwise fun rule later =>
    rule.selectors = [wrapperSelector c id] ∧ later.selectors ≠ [wrapperSelector c id]

/-- A declaration is about a margin if its key begins with this word. -/
theorem isMargin_iff (d : Declaration) : isMargin d = true ↔ "margin".toList <+: d.key.toList := by
  unfold isMargin
  rw [Option.isSome_iff_exists]
  constructor
  · rintro ⟨rest, h⟩
    exact ⟨rest, ((Text.after?_eq_some_iff _ _ _).mp h).symm⟩
  · rintro ⟨rest, h⟩
    exact ⟨rest, (Text.after?_eq_some_iff _ _ _).mpr h.symm⟩

/-- At most one rule has no two rules that had to be parted. -/
theorem pairwise_ruleOf (selectors : List String) (ds : List Declaration)
    (R : Rule → Rule → Prop) : (ruleOf selectors ds).Pairwise R := by
  unfold ruleOf
  split
  · exact .nil
  · exact List.pairwise_singleton _ _

/-- All declarations are laid out in one rule if they all belong to the wrapper. -/
theorem laysOut_ruleOf {c : Config} {nodeType id : String}
    (h : ∀ d, selectorsOf c nodeType id d = [wrapperSelector c id]) (b : Bucket) :
    LaysOut c nodeType id b (ruleOf [wrapperSelector c id] b.declarations) where
  complete := by rw [declarations_ruleOf]
  ordered := by
    intro rule hrule
    obtain ⟨rfl, -⟩ := mem_ruleOf hrule
    exact .refl _
  filled := by
    intro rule hrule
    obtain ⟨rfl, hds⟩ := mem_ruleOf hrule
    exact hds
  placed := by
    intro rule hrule d _
    obtain ⟨rfl, -⟩ := mem_ruleOf hrule
    exact (h d).symm
  parted := pairwise_ruleOf _ _ _

/-- All declarations are laid out in two rules if those about margins belong to the wrapper and all
others elsewhere. -/
theorem laysOut_append {c : Config} {nodeType id : String} {below : List String}
    (hbelow : below ≠ [wrapperSelector c id])
    (h : ∀ d, selectorsOf c nodeType id d = if isMargin d then [wrapperSelector c id] else below)
    (b : Bucket) :
    LaysOut c nodeType id b (ruleOf [wrapperSelector c id] (b.declarations.filter isMargin) ++
      ruleOf below (b.declarations.filter fun d => !isMargin d)) where
  complete := by
    rw [List.flatMap_append, declarations_ruleOf, declarations_ruleOf]
    exact List.filter_append_perm isMargin b.declarations
  ordered := by
    intro rule hrule
    rcases mem_ruleOf_append hrule with ⟨rfl, -⟩ | ⟨rfl, -⟩
    · exact List.filter_sublist
    · exact List.filter_sublist
  filled := by
    intro rule hrule
    rcases mem_ruleOf_append hrule with ⟨rfl, hds⟩ | ⟨rfl, hds⟩
    · exact hds
    · exact hds
  placed := by
    intro rule hrule d hd
    rcases mem_ruleOf_append hrule with ⟨rfl, -⟩ | ⟨rfl, -⟩
    · rw [h d, if_pos (List.mem_filter.mp hd).2]
    · rw [h d, if_neg (by simpa using (List.mem_filter.mp hd).2)]
  parted := by
    rw [List.pairwise_append]
    refine ⟨pairwise_ruleOf _ _ _, pairwise_ruleOf _ _ _, ?_⟩
    intro rule hrule later hlater
    obtain ⟨rfl, -⟩ := mem_ruleOf hrule
    obtain ⟨rfl, -⟩ := mem_ruleOf hlater
    exact ⟨rfl, hbelow⟩

/-- A bucket is laid out in its rules. -/
theorem laysOut_rules (c : Config) (nodeType id : String) (b : Bucket) :
    LaysOut c nodeType id b (rules (targets c id nodeType) b) := by
  unfold rules targets Config.strengthened?
  cases hstrong : c.strengthen.get? nodeType with
  | none => exact laysOut_ruleOf (fun d => by rw [selectorsOf, hstrong]) b
  | some below =>
    cases below with
    | nil => exact laysOut_ruleOf (fun d => by rw [selectorsOf, hstrong]) b
    | cons s ss =>
      refine laysOut_append ?_ (fun d => ?_) b
      · -- a selector below the wrapper is longer than the one of the wrapper
        intro hsame
        have hlength := congrArg String.length (List.cons.inj hsame).1
        simp only [String.length_append] at hlength
        have hblank : (" " : String).length = 1 := by decide
        omega
      · simp only [selectorsOf, hstrong, isMargin_iff]

/-! ## Style sheets of records -/

/-- The sections of a record with an id are those of the tiers that have declarations. -/
theorem sections_eq (c : Config) (nodeType : String) {r : Record} {id : String}
    (hid : r.id = some id) :
    sections c nodeType r
      = (Tier.all.filter fun tier => !(r.bucket tier).isEmpty).map fun tier =>
          ⟨query? c.breakpoints tier, rules (targets c id nodeType) (r.bucket tier)⟩ := by
  unfold sections
  simp only [hid]
  induction Tier.all with
  | nil => rfl
  | cons tier tiers ih =>
    have hsection : tierSection c (targets c id nodeType) r tier
        = if (r.bucket tier).isEmpty then none
          else some ⟨query? c.breakpoints tier, rules (targets c id nodeType) (r.bucket tier)⟩ :=
      rfl
    cases hempty : (r.bucket tier).isEmpty with
    | true =>
      rw [hempty, if_pos rfl] at hsection
      rw [List.filterMap_cons_none hsection, List.filter_cons_of_neg (by simp [hempty])]
      exact ih
    | false =>
      rw [hempty, if_neg Bool.false_ne_true] at hsection
      rw [List.filterMap_cons_some hsection, List.filter_cons_of_pos (by simp [hempty]),
        List.map_cons]
      exact congrArg _ ih

/-- A record without an id or without declarations has an empty style sheet. With an id it has one
section for each tier with declarations, from the widest to the narrowest, with an empty line
between neighbours; those of the narrower tiers stand in the block of their media query. All blocks
are closed, every declaration of a tier stands in its section once, and there in the rule of its
selectors, which has the order of the bucket and is not empty. -/
theorem render_layout (c : Config) (nodeType : String) (r : Record) :
    (r.id = none ∨ r.isEmpty = true → render c nodeType r = "") ∧
      ∀ id, r.id = some id →
        let tiers := Tier.all.filter fun tier => !(r.bucket tier).isEmpty
        ∃ layout : Tier → List Rule,
          (∀ tier, LaysOut c nodeType id (r.bucket tier) (layout tier)) ∧
          let sheet := List.intercalate [.gap]
            (tiers.map fun tier => Section.pieces ⟨query? c.breakpoints tier, layout tier⟩)
          render c nodeType r = written 0 sheet ∧
            enclosed [] sheet = some (tiers.flatMap fun tier => (layout tier).flatMap fun rule =>
              rule.declarations.map fun d =>
                (rule.selectors :: (query? c.breakpoints tier).toList.map fun q => [q.text],
                  d)) := by
  constructor
  · intro h
    have hsections : sections c nodeType r = [] := by
      rcases h with hid | hempty
      · unfold sections
        rw [hid]
      · cases hid : r.id with
        | none =>
          unfold sections
          rw [hid]
        | some id =>
          rw [sections_eq c nodeType hid, List.filter_eq_nil_iff.mpr, List.map_nil]
          intro tier htier
          have hall := List.all_eq_true.mp hempty tier htier
          simpa using hall
    unfold render
    rw [hsections]
    rfl
  · intro id hid tiers
    refine ⟨fun tier => rules (targets c id nodeType) (r.bucket tier),
      fun tier => laysOut_rules c nodeType id (r.bucket tier), ?_⟩
    have hwritten := written_sections (sections c nodeType r)
    rw [sections_eq c nodeType hid, List.map_map, List.flatMap_map] at hwritten
    unfold render
    rw [sections_eq c nodeType hid]
    exact ⟨hwritten.1.symm, hwritten.2⟩

/-- A button with margins and other declarations in turn and with a tier without declarations, and a
record without an id. -/
theorem render_layout_button :
    let r : Record := ⟨some "b1",
      ⟨[⟨"marginTop", .text "1rem", false⟩, ⟨"color", .text "red", true⟩,
        ⟨"margin-left", .text "2px", false⟩]⟩, .empty, ⟨[⟨"padding", .text "4px", false⟩]⟩⟩
    let margins :=
      "[data-costered-id=\"b1\"] \x7b\n    margin-top: 1rem;\n    margin-left: 2px;\n\x7d\n"
    let others := "[data-costered-id=\"b1\"] .wp-block-button__link,\n" ++
      "[data-costered-id=\"b1\"] .wp-element-button \x7b\n    color: red !important;\n\x7d\n"
    let narrow := "@media (max-width: 782px) \x7b\n" ++
      "    [data-costered-id=\"b1\"] .wp-block-button__link,\n" ++
      "    [data-costered-id=\"b1\"] .wp-element-button \x7b\n" ++
      "        padding: 4px;\n    \x7d\n\x7d\n"
    r.id = some "b1" ∧ Record.empty.id = none ∧ render .standard "core/button" .empty = "" ∧
      ∃ layout : Tier → List Rule,
        (∀ tier, LaysOut .standard "core/button" "b1" (r.bucket tier) (layout tier)) ∧
        render .standard "core/button" r
          = written 0 (Section.pieces ⟨none, layout .desktop⟩ ++ [.gap] ++
              Section.pieces ⟨some ⟨none, 782⟩, layout .mobile⟩) ∧
        render .standard "core/button" r
          = margins ++ "\n" ++ others ++ "\n" ++ narrow := by
  intro r margins others narrow
  obtain ⟨layout, hlayout, hwritten, -⟩ := (render_layout .standard "core/button" r).2 "b1" rfl
  have htiers : Tier.all.filter (fun tier => !(r.bucket tier).isEmpty) = [.desktop, .mobile] := by
    decide
  rw [htiers, List.map_cons, List.map_singleton, List.intercalate_cons_cons,
    List.intercalate_singleton] at hwritten
  refine ⟨rfl, rfl, (render_layout .standard "core/button" .empty).1 (.inl rfl), layout, hlayout,
    hwritten, ?_⟩
  -- the text is evaluated rule by rule
  let below := ["[data-costered-id=\"b1\"] .wp-block-button__link",
    "[data-costered-id=\"b1\"] .wp-element-button"]
  let margin : Rule := ⟨["[data-costered-id=\"b1\"]"], r.desktop.declarations.filter isMargin⟩
  let other : Rule := ⟨below, r.desktop.declarations.filter (!isMargin ·)⟩
  let small : Section := ⟨some ⟨none, 782⟩, [⟨below, r.mobile.declarations⟩]⟩
  have hsections : sections .standard "core/button" r = [⟨none, [margin, other]⟩, small] := by
    decide +kernel
  have hmargin : margin.text 0 = margins := by decide +kernel
  have hother : other.text 0 = others := by decide +kernel
  have hsmall : small.text = narrow := by decide +kernel
  have hlarge : Section.text ⟨none, [margin, other]⟩ = margins ++ "\n" ++ others := by
    show joined "\n" [margin.text 0, other.text 0] = _
    rw [joined_cons_cons, joined_singleton, hmargin, hother]
  rw [render, hsections]
  show joined "\n" [Section.text _, small.text] = _
  rw [joined_cons_cons, joined_singleton, hlarge, hsmall]

end ResponsiveStyle.Sheet
