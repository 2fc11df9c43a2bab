/-
# The cascade of the style sheet and the one of the reader

A reader at a tier falls back from tier to tier, while a browser that shows the style sheet of the
record chooses between the widest tier and the tier of its width (`shown_applied?`). The two agree
except in two cases, and always differ in these: a value without the flag that stands at a narrower
tier does not go before a flagged one of the widest tier (`outranked`), and a value of the middle
tier is not there for the narrowest one, since its media query ends where that one begins
(`skipped`).
-/
import ResponsiveStyle.Proofs.Sheet.Reading

namespace ResponsiveStyle

open Style (Declaration Record Tier propertyKey Call)

/-! ## Two tiers -/

/-- The value as it is displayed and the flag. -/
def Style.Declaration.shown (d : Declaration) : String × Bool := (d.value.display, d.important)

namespace Style.Record

/-- The declaration that goes before the others of a tier and the widest tier: a flagged one before
an unflagged one, and then the one of the tier. -/
def preferred? (r : Record) (tier : Tier) (p : String) : Option Declaration :=
  let own := (r.bucket tier).get? p
  let wide := (r.bucket .desktop).get? p
  (own.filter Declaration.important).or ((wide.filter Declaration.important).or (own.or wide))

/-- Whether the tier has an unflagged value of a property and the widest tier a flagged one. -/
def outranked (r : Record) (tier : Tier) (p : String) : Bool :=
  ((r.bucket tier).get? p).any (fun d => !d.important) &&
    ((r.bucket .desktop).get? p).any Declaration.important

/-- Whether the narrowest tier has no value of a property and the middle one has a value that is not
shown at the widest tier too. -/
def skipped (r : Record) (p : String) : Bool :=
  ((r.bucket .mobile).get? p).isNone &&
    ((r.bucket .tablet).get? p).any fun d =>
      ((r.bucket .desktop).get? p).map Declaration.shown != some d.shown

/-- Where no value is outranked, one of the tier itself is preferred to one of the widest tier. -/
theorem preferred?_of_not_outranked {r : Record} {tier : Tier} {p : String}
    (h : r.outranked tier p = false) :
    r.preferred? tier p = ((r.bucket tier).get? p).or ((r.bucket .desktop).get? p) := by
  unfold outranked at h
  unfold preferred?
  simp only
  cases hown : (r.bucket tier).get? p with
  | none =>
    cases hwide : (r.bucket .desktop).get? p with
    | none => rfl
    | some w => cases hw : w.important <;> simp [Option.filter_some, hw]
  | some d =>
    cases hd : d.important with
    | true => simp [Option.filter_some, hd]
    | false =>
      have hwide : ((r.bucket .desktop).get? p).filter Declaration.important = none := by
        rw [hown] at h
        rw [Option.filter_eq_none_iff]
        intro w hw
        simpa [hd, hw] using h
      rw [hwide, Option.filter_some, hd]
      simp

/-- Where a value is outranked, one of the tier itself has no flag, and the preferred one has it. -/
theorem preferred?_of_outranked {r : Record} {tier : Tier} {p : String}
    (h : r.outranked tier p = true) :
    ∃ d w, (r.bucket tier).get? p = some d ∧ d.important = false ∧
      r.preferred? tier p = some w ∧ w.important = true := by
  obtain ⟨hown, hwide⟩ := Bool.and_eq_true_iff.mp h
  obtain ⟨d, hd, hplain⟩ := (Option.any_eq_true _ _).mp hown
  obtain ⟨w, hw, hflag⟩ := (Option.any_eq_true _ _).mp hwide
  have hplain : d.important = false := by simpa using hplain
  refine ⟨d, w, hd, hplain, ?_, hflag⟩
  unfold preferred?
  simp [hd, hw, Option.filter_some, hplain, hflag]

/-! ## The reader -/

/-- A value of the tier itself is what a reader finds. -/
theorem resolve?_of_own {r : Record} {tier : Tier} {p : String} {d : Declaration}
    (h : (r.bucket tier).get? p = some d) : r.resolve? tier p .cascade = some d := by
  unfold resolve? chain
  cases tier <;> simp [Tier.cascade, h]

/-- A reader at the narrowest tier goes on to the middle one, and then to the widest one. -/
theorem resolve?_mobile_of_none {r : Record} {p : String}
    (h : (r.bucket .mobile).get? p = none) :
    r.resolve? .mobile p .cascade
      = ((r.bucket .tablet).get? p).or ((r.bucket .desktop).get? p) := by
  unfold resolve? chain
  cases htablet : (r.bucket .tablet).get? p <;> simp [Tier.cascade, h, htablet]

/-- A reader at another tier goes on to the widest one. -/
theorem resolve?_of_none {r : Record} {tier : Tier} {p : String} (htier : tier ≠ .mobile)
    (h : (r.bucket tier).get? p = none) :
    r.resolve? tier p .cascade = (r.bucket .desktop).get? p := by
  unfold resolve? chain
  cases tier with
  | desktop => simp [Tier.cascade]
  | tablet => simp [Tier.cascade, h]
  | mobile => exact absurd rfl htier

/-- The reader shows what is preferred exactly where no value is outranked and, at the narrowest
tier, none is skipped. -/
theorem shown_preferred?_iff (r : Record) (tier : Tier) (p : String) :
    (r.preferred? tier p).map Declaration.shown
        = (r.resolve? tier p .cascade).map Declaration.shown ↔
      r.outranked tier p = false ∧ (tier = .mobile → r.skipped p = false) := by
  cases hrank : r.outranked tier p with
  | true =>
    obtain ⟨d, w, hd, hplain, hw, hflag⟩ := preferred?_of_outranked hrank
    rw [hw, resolve?_of_own hd]
    -- the flags tell the two apart
    simp [Declaration.shown, hplain, hflag]
  | false =>
    rw [preferred?_of_not_outranked hrank]
    cases hown : (r.bucket tier).get? p with
    | some d =>
      have hskip : tier = .mobile → r.skipped p = false := by
        intro htier
        unfold skipped
        rw [← htier, hown]
        rfl
      rw [resolve?_of_own hown]
      simpa using hskip
    | none =>
      by_cases htier : tier = .mobile
      · -- the reader goes on to the middle tier, and the style sheet does not
        subst htier
        rw [resolve?_mobile_of_none hown]
        unfold skipped
        rw [hown]
        cases htablet : (r.bucket .tablet).get? p with
        | none => simp
        | some d => simp
      · rw [resolve?_of_none htier hown]
        simp [htier]

end Style.Record

namespace Sheet

/-! ## The style sheet -/

/-- Of the entries of two declarations the winner shows the one that goes before the other. -/
theorem shown_winner? (q q' : Option MediaQuery) (wide own : Option Declaration) :
    (winner? (wide.toList.map (Entry.ofDeclaration q) ++
        own.toList.map (Entry.ofDeclaration q'))).map Entry.shown
      = ((own.filter Declaration.important).or
          ((wide.filter Declaration.important).or (own.or wide))).map Declaration.shown := by
  have htoList : ∀ (q : Option MediaQuery) (o : Option Declaration),
      o.toList.map (Entry.ofDeclaration q) = (o.map (Entry.ofDeclaration q)).toList := by
    intro q o
    cases o <;> rfl
  have hfilter : ∀ (q : Option MediaQuery) (o : Option Declaration),
      (o.map (Entry.ofDeclaration q)).filter Entry.important
        = (o.filter Declaration.important).map (Entry.ofDeclaration q) := by
    intro q o
    rw [Option.filter_map]
    rfl
  have hshown : ∀ q : Option MediaQuery, Entry.shown ∘ Entry.ofDeclaration q = Declaration.shown :=
    fun q => rfl
  rw [htoList, htoList, winner?_toList_append, hfilter, hfilter]
  simp only [Option.map_or, Option.map_map, hshown]

/-- In the style sheet of a well-formed record with an id the applied entry of a property shows the
preferred declaration at the tier of the width. -/
theorem shown_applied? {c : Config} (hc : c.breakpoints.mobile < c.breakpoints.tablet) {r : Record}
    (hid : r.id.isSome = true) (hr : r.WellFormed) (nodeType : String) (width : Nat) (p : String) :
    (applied? (entries (sections c nodeType r)) width (propertyKey p)).map Entry.shown
      = (r.preferred? (tierAt c.breakpoints width) p).map Declaration.shown := by
  unfold applied?
  rw [filter_entries_sections hc hid fun tier => (hr.bucket tier).distinct]
  generalize tierAt c.breakpoints width = tier
  unfold Record.preferred?
  cases tier with
  | desktop =>
    -- the widest tier has one entry only, which stands for itself
    have hentries := shown_winner? none none ((r.bucket .desktop).get? p) none
    have hself : ∀ o : Option Declaration,
        (o.filter Declaration.important).or ((o.filter Declaration.important).or (o.or o))
          = (o.filter Declaration.important).or o := by
      intro o
      rw [← Option.or_assoc, Option.or_self, Option.or_self]
    rw [hself]
    simpa [Tier.all, query?] using hentries
  | tablet =>
    have hentries := shown_winner? (query? c.breakpoints .desktop) (query? c.breakpoints .tablet)
      ((r.bucket .desktop).get? p) ((r.bucket .tablet).get? p)
    simpa [Tier.all] using hentries
  | mobile =>
    have hentries := shown_winner? (query? c.breakpoints .desktop) (query? c.breakpoints .mobile)
      ((r.bucket .desktop).get? p) ((r.bucket .mobile).get? p)
    simpa [Tier.all] using hentries

/-- The style sheet of a record that editors reach is read as it was written if it is legible; and
what applies in a viewport is shown like what the reader at the tier of its width finds, exactly
where no value is outranked and, at the narrowest tier, none is skipped. -/
theorem shown_applied?_iff (c : Config) (hc : c.breakpoints.mobile < c.breakpoints.tablet)
    (calls : List Call) (hid : (Record.empty.run c calls).id.isSome = true) (nodeType : String)
    (width : Nat) (p : String) :
    let r := Record.empty.run c calls
    let tier := tierAt c.breakpoints width
    (Legible c nodeType r → readEntries (render c nodeType r) = entries (sections c nodeType r)) ∧
      ((applied? (entries (sections c nodeType r)) width (propertyKey p)).map Entry.shown
          = (r.resolve? tier p .cascade).map Declaration.shown ↔
        r.outranked tier p = false ∧ (tier = .mobile → r.skipped p = false)) := by
  intro r tier
  have hr : r.WellFormed := Record.wellFormed_empty.run c calls
  refine ⟨fun hlegible => readEntries_render hr hlegible, ?_⟩
  rw [shown_applied? hc hid hr]
  exact r.shown_preferred?_iff tier p

/-- A value of the middle tier applies over one of the widest tier, as the reader shows it. -/
theorem shown_applied?_tablet_over_desktop :
    Config.standard.breakpoints.mobile < Config.standard.breakpoints.tablet ∧
      (Record.empty.run .standard [⟨.desktop, .set "width" (.text "80rem"), 0⟩,
        ⟨.tablet, .set "width" (.text "60rem"), 0⟩]).id.isSome = true ∧
      (applied? (readEntries (render .standard "core/button" (Record.empty.run .standard
          [⟨.desktop, .set "width" (.text "80rem"), 0⟩,
            ⟨.tablet, .set "width" (.text "60rem"), 0⟩]))) 900 "width").map Entry.shown
        = ((Record.empty.run .standard [⟨.desktop, .set "width" (.text "80rem"), 0⟩,
            ⟨.tablet, .set "width" (.text "60rem"), 0⟩]).resolve? .tablet "width"
              .cascade).map Declaration.shown := by
  have hid := Record.isSome_id_run .standard Record.empty
    (List.cons_ne_nil ⟨.desktop, .set "width" (.text "80rem"), 0⟩
      [⟨.tablet, .set "width" (.text "60rem"), 0⟩])
  have happlied := shown_applied?_iff .standard (by decide)
    [⟨.desktop, .set "width" (.text "80rem"), 0⟩, ⟨.tablet, .set "width" (.text "60rem"), 0⟩]
    hid "core/button" 900 "width"
  refine ⟨by decide, hid, ?_⟩
  rw [happlied.1 (by decide)]
  exact happlied.2.mpr ⟨by decide, by decide⟩

/-- A value of the middle tier alone does not apply at the narrowest tier, where the reader shows
it, and an unflagged value there does not apply over a flagged one of the widest tier. -/
theorem shown_applied?_skipped_and_outranked :
    (applied? (readEntries (render .standard "core/group" (Record.empty.run .standard
        [⟨.tablet, .set "width" (.text "60rem"), 0⟩]))) 500 "width").map Entry.shown
      ≠ ((Record.empty.run .standard
          [⟨.tablet, .set "width" (.text "60rem"), 0⟩]).resolve? .mobile "width"
            .cascade).map Declaration.shown ∧
    (applied? (readEntries (render .standard "core/group" (Record.empty.run .standard
        [⟨.desktop, .set "color" (.text "red !important"), 0⟩,
          ⟨.mobile, .set "color" (.text "blue"), 0⟩]))) 500 "color").map Entry.shown
      ≠ ((Record.empty.run .standard
          [⟨.desktop, .set "color" (.text "red !important"), 0⟩,
            ⟨.mobile, .set "color" (.text "blue"), 0⟩]).resolve? .mobile "color"
              .cascade).map Declaration.shown := by
  constructor
  · rw [readEntries_render (Record.wellFormed_empty.run _ _) (by decide)]
    decide
  · rw [readEntries_render (Record.wellFormed_empty.run _ _) (by decide)]
    decide

end Sheet

end ResponsiveStyle
