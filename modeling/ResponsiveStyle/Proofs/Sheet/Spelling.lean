/-
# Spellings of properties in a style sheet

A style sheet gives declarations under their keys, and whether one is about a margin is seen from
its key. So alike records have one style sheet (`render_of_alike`), and with the runs of editors and
the readers nothing at all depends on how properties are spelled (`render_run_of_respelled`).
-/
import ResponsiveStyle.Proofs.Style.Spelling
import ResponsiveStyle.Sheet.Render

namespace ResponsiveStyle.Sheet

open Style (Bucket Call Declaration Operation Record Tier propertyKey)

/-! ## Texts without the spellings -/

/-- The rule with keys in the places of names. -/
def Rule.keyed (r : Rule) : Rule := ⟨r.selectors, r.declarations.map Declaration.keyed⟩

/-- The text of a declaration shows its key. -/
theorem declarationText_keyed (d : Declaration) : declarationText d.keyed = declarationText d := by
  unfold declarationText
  rw [Declaration.key_keyed]
  rfl

/-- The text of a rule does not show the spellings. -/
theorem Rule.text_keyed (depth : Nat) (r : Rule) : r.keyed.text depth = r.text depth := by
  have hline : declarationLine (depth + 1) ∘ Declaration.keyed = declarationLine (depth + 1) := by
    funext d
    show line (depth + 1) (declarationText d.keyed) = _
    rw [declarationText_keyed]
    rfl
  unfold Rule.text
  show _ ++ String.join ((r.declarations.map Declaration.keyed).map _) ++ _ = _
  rw [List.map_map, hline]
  rfl

/-- The texts of rules do not show the spellings. -/
theorem rulesText_map_keyed (depth : Nat) (rs : List Rule) :
    rulesText depth (rs.map Rule.keyed) = rulesText depth rs := by
  have htext : Rule.text depth ∘ Rule.keyed = Rule.text depth := funext (Rule.text_keyed depth)
  unfold rulesText
  rw [List.map_map, htext]

/-! ## Rules without the spellings -/

/-- Whether a declaration is about a margin is seen from its key. -/
theorem isMargin_keyed (d : Declaration) : isMargin d.keyed = isMargin d := by
  unfold isMargin
  rw [Declaration.key_keyed]

/-- The rule of declarations without their spellings. -/
theorem ruleOf_map_keyed (selectors : List String) (ds : List Declaration) :
    ruleOf selectors (ds.map Declaration.keyed) = (ruleOf selectors ds).map Rule.keyed := by
  cases ds <;> rfl

/-- The rules of a bucket without the spellings. -/
theorem rules_keyed (t : Targets) (b : Bucket) : rules t b.keyed = (rules t b).map Rule.keyed := by
  have hmargins : isMargin ∘ Declaration.keyed = isMargin := by
    funext d
    rw [Function.comp_apply, isMargin_keyed]
  have hothers : (fun d => !isMargin d) ∘ Declaration.keyed = fun d => !isMargin d := by
    funext d
    rw [Function.comp_apply, isMargin_keyed]
  unfold rules
  cases t.strengthened with
  | none => simp only [Bucket.keyed, ruleOf_map_keyed]
  | some below =>
    simp only [Bucket.keyed, List.filter_map, hmargins, hothers, ruleOf_map_keyed, List.map_append]

/-! ## Style sheets of alike records -/

/-- The text of a section does not show the spellings. -/
theorem text_section_congr (query : Option MediaQuery) {rs rs' : List Rule}
    (h : rs.map Rule.keyed = rs'.map Rule.keyed) :
    (Section.mk query rs).text = (Section.mk query rs').text := by
  have hrules : ∀ depth, rulesText depth rs = rulesText depth rs' := by
    intro depth
    rw [← rulesText_map_keyed, h, rulesText_map_keyed]
  unfold Section.text
  cases query with
  | none => exact hrules 0
  | some q => simp only [hrules 1]

/-- The text of a tier's section does not show the spellings. -/
theorem text_tierSection_congr (c : Config) (t : Targets) {r r' : Record} {tier : Tier}
    (h : (r.bucket tier).keyed = (r'.bucket tier).keyed) :
    (tierSection c t r tier).map Section.text = (tierSection c t r' tier).map Section.text := by
  have hempty : (r.bucket tier).isEmpty = (r'.bucket tier).isEmpty := by
    have hkeyed : ∀ b : Bucket, b.isEmpty = b.keyed.isEmpty := fun b => List.isEmpty_map.symm
    rw [hkeyed (r.bucket tier), hkeyed (r'.bucket tier), h]
  have hrules : (rules t (r.bucket tier)).map Rule.keyed
      = (rules t (r'.bucket tier)).map Rule.keyed := by
    rw [← rules_keyed, h, rules_keyed]
  unfold tierSection
  simp only [hempty]
  split
  · rfl
  · exact congrArg some (text_section_congr _ hrules)

/-- Alike records have one style sheet. -/
theorem render_of_alike (c : Config) (nodeType : String) {r r' : Record} (h : r.Alike r') :
    render c nodeType r = render c nodeType r' := by
  unfold render sections sectionsText
  rw [h.id]
  cases r'.id with
  | none => rfl
  | some id =>
    show Text.joined "\n" ((Tier.all.filterMap _).map Section.text) = _
    rw [List.map_filterMap, List.map_filterMap]
    simp only [text_tierSection_congr c _ (h.bucket _)]

/-! ## Runs of editors -/

/-- Keys are their own keys; and calls that differ in the spellings of properties only, on records
that do so as well, leave records behind that do so, that answer alike under all spellings and that
have one style sheet. Records without an id have to get the same one. -/
theorem render_run_of_respelled (c : Config) :
    (∀ p, propertyKey (propertyKey p) = propertyKey p) ∧
      ∀ (r r' : Record) (calls calls' : List Call), r.Alike r' →
        List.Forall₂ Call.Respelled calls calls' →
        (r.id.isSome = true ∨ calls.map Call.entropy = calls'.map Call.entropy) →
          (r.run c calls).Alike (r'.run c calls') ∧
            (∀ (tier : Tier) (mode : Style.ReadMode) (p p' : String),
              propertyKey p = propertyKey p' →
                ((r.run c calls).resolve? tier p mode).map Declaration.keyed
                    = ((r'.run c calls').resolve? tier p' mode).map Declaration.keyed ∧
                  (r.run c calls).get? tier p mode = (r'.run c calls').get? tier p' mode) ∧
            ∀ nodeType,
              render c nodeType (r.run c calls) = render c nodeType (r'.run c calls') := by
  refine ⟨Style.propertyKey_propertyKey, ?_⟩
  intro r r' calls calls' h hcalls hid
  have hrun : (r.run c calls).Alike (r'.run c calls') := h.run c hcalls hid
  refine ⟨hrun, ?_, ?_⟩
  · intro tier mode p p' hp
    exact ⟨hrun.resolve? hp tier mode, hrun.get? hp tier mode⟩
  · intro nodeType
    exact render_of_alike c nodeType hrun

/-- A margin and an opacity in two spellings each, over records that spell a width differently, on a
button, whose margins stay on the wrapper. -/
theorem render_run_of_respelled_button :
    let r : Record := ⟨some "card", ⟨[⟨"maxWidth", .text "80rem", false⟩]⟩, .empty, .empty⟩
    let r' : Record := ⟨some "card", ⟨[⟨"max-width", .text "80rem", false⟩]⟩, .empty, .empty⟩
    let calls : List Call :=
      [⟨.tablet, .setMany [("marginTop", .text "1rem"), (" opacity", .text ".5")], 0⟩]
    let calls' : List Call :=
      [⟨.tablet, .setMany [("margin_top", .text "1rem"), ("opacity ", .text ".5")], 1⟩]
    render .standard "core/button" (r.run .standard calls)
        = render .standard "core/button" (r'.run .standard calls') ∧
      (r.run .standard calls).get? .mobile "MaxWidth" .cascade
        = (r'.run .standard calls').get? .mobile "-max-width" .cascade := by
  intro r r' calls calls'
  have halike : r.Alike r' := ⟨rfl, fun tier => by cases tier <;> decide⟩
  have hmargin : propertyKey "marginTop" = propertyKey "margin_top" := by decide
  have hopacity : propertyKey " opacity" = propertyKey "opacity " := by decide
  have hoperation :
      (Operation.setMany [("marginTop", .text "1rem"), (" opacity", .text ".5")]).keyed
      = (Operation.setMany [("margin_top", .text "1rem"), ("opacity ", .text ".5")]).keyed := by
    simp only [Operation.keyed, List.map_cons, hmargin, hopacity]
  obtain ⟨-, hread, hrender⟩ :=
    (render_run_of_respelled .standard).2 r r' calls calls' halike
      (.cons ⟨rfl, hoperation⟩ .nil) (.inl rfl)
  exact ⟨hrender "core/button", (hread .mobile .cascade "MaxWidth" "-max-width" (by decide)).2⟩

end ResponsiveStyle.Sheet
