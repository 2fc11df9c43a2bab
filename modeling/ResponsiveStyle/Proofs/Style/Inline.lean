/-
# Declarations of a block

A block may give a property more than once, in any spellings. Unlike a bucket, which keeps a
property where it came up first, a block has it where it came up last (`Inline.foldl_putLast`): what
stands behind counts, as in a style sheet. So the keys of a block are apart, and written to an empty
bucket its declarations go one behind the other (`Bucket.foldl_edit_declare`).
-/
import Mathlib.Data.List.Dedup
import ResponsiveStyle.Proofs.Style.Invariant
import ResponsiveStyle.Style.Inline

namespace ResponsiveStyle.Style

open Text (trimmed)

/-! ## The last declaration of each property -/

/-- The last declaration of each property, in order. -/
def lastOfEach : List Declaration → List Declaration
  | [] => []
  | d :: ds => if d.key ∈ ds.map Declaration.key then lastOfEach ds else d :: lastOfEach ds

/-- The keys are there once, each where it came up last. -/
theorem keys_lastOfEach (ds : List Declaration) :
    (lastOfEach ds).map Declaration.key = (ds.map Declaration.key).dedup := by
  induction ds with
  | nil => rfl
  | cons d ds ih =>
    rw [lastOfEach, List.map_cons]
    by_cases hd : d.key ∈ ds.map Declaration.key
    · rw [if_pos hd, ih, List.dedup_cons_of_mem hd]
    · rw [if_neg hd, List.map_cons, ih, List.dedup_cons_of_notMem hd]

/-- Nothing but declarations of the list is kept, in their order. -/
theorem lastOfEach_sublist (ds : List Declaration) : (lastOfEach ds).Sublist ds := by
  induction ds with
  | nil => exact List.Sublist.refl []
  | cons d ds ih =>
    rw [lastOfEach]
    split
    · exact ih.cons d
    · exact ih.cons_cons d

/-- Declarations with keys apart are all kept. -/
theorem lastOfEach_of_nodup {ds : List Declaration} (h : (ds.map Declaration.key).Nodup) :
    lastOfEach ds = ds := by
  induction ds with
  | nil => rfl
  | cons d ds ih =>
    obtain ⟨hd, hds⟩ := List.nodup_cons.mp h
    rw [lastOfEach, if_neg hd, ih hds]

namespace Inline

/-- One more declaration drives out the one of its property. -/
theorem lastOfEach_concat (ds : List Declaration) (d : Declaration) :
    lastOfEach (ds ++ [d]) = putLast (lastOfEach ds) d := by
  induction ds with
  | nil => rfl
  | cons e ds ih =>
    have hmem : e.key ∈ (ds ++ [d]).map Declaration.key ↔
        e.key ∈ ds.map Declaration.key ∨ e.key = d.key := by simp
    rw [List.cons_append, lastOfEach, lastOfEach, ih]
    by_cases hrest : e.key ∈ ds.map Declaration.key
    · rw [if_pos (hmem.mpr (.inl hrest)), if_pos hrest]
    · rw [if_neg hrest]
      by_cases hkey : e.key = d.key
      · rw [if_pos (hmem.mpr (.inr hkey))]
        simp [putLast, hkey]
      · rw [if_neg (mt hmem.mp (not_or.mpr ⟨hrest, hkey⟩))]
        simp [putLast, hkey]

/-- Putting declarations last one after the other leaves the last one of each property. -/
theorem foldl_putLast (ds : List Declaration) : ds.foldl putLast [] = lastOfEach ds := by
  induction ds using List.reverseRecOn with
  | nil => rfl
  | append_singleton ds d ih =>
    rw [List.foldl_append, ih, lastOfEach_concat]
    rfl

/-- The declaration of an item has the name of the item and a text that may be kept. -/
theorem Item.of_declaration? {i : Item} {d : Declaration} (h : i.declaration? = some d) :
    d.property = i.name ∧ ∃ s, d.value = .text s ∧ WellFormedText d.important s := by
  obtain ⟨hproperty, hwf⟩ := Declaration.of_ofJson? h
  have htext : ∃ s, d.value = .text s := by
    have hnamed : isBlankName i.name = false := hproperty ▸ hwf.named
    unfold declaration? at h
    rw [Declaration.ofJson?_text hnamed, Declaration.ofText?, Option.ite_none_left_eq_some] at h
    obtain rfl := Option.some.inj h.2
    exact ⟨_, rfl⟩
  obtain ⟨s, hs⟩ := htext
  have hvalue := hwf.value
  rw [hs] at hvalue
  exact ⟨hproperty, s, hs, hvalue⟩

end Inline

/-! ## Written to a bucket -/

namespace Bucket

/-- A write of a property that is not there leaves its declaration behind all others. -/
theorem edit_of_not_mem {c : Config} {b : Bucket} {e : Edit}
    (h : propertyKey e.property ∉ b.keys) :
    b.edit c e = ⟨b.declarations ++ (e.outcome? c).toList⟩ := by
  unfold edit
  cases hout : e.outcome? c with
  | none =>
    have hkeep : b.declarations.filter (fun d => d.key != propertyKey e.property)
        = b.declarations := by
      rw [List.filter_eq_self]
      intro d hd
      rw [bne_iff_ne]
      exact fun heq => h (List.mem_map.mpr ⟨d, hd, heq⟩)
    simp [remove, hkeep]
  | some d =>
    have hkey : d.key ∉ b.declarations.map Declaration.key := by
      rw [(Edit.of_outcome? hout).1]
      exact h
    simp [put, putIn_of_not_mem hkey]

/-- What declarations leave behind has their keys. -/
theorem exists_key_of_mem_filterMap {c : Config} {ds : List Declaration} {e : Declaration}
    (he : e ∈ ds.filterMap fun d => (Edit.declare d).outcome? c) :
    ∃ d ∈ ds, e.key = d.key := by
  obtain ⟨d, hd, hout⟩ := List.mem_filterMap.mp he
  exact ⟨d, hd, (Edit.of_outcome? hout).1⟩

/-- Declarations with keys apart leave behind what each of them does, one behind the other. -/
theorem foldl_edit_declare (c : Config) {ds : List Declaration}
    (h : (ds.map Declaration.key).Nodup) :
    (ds.map Edit.declare).foldl (edit c) empty
      = ⟨ds.filterMap fun d => (Edit.declare d).outcome? c⟩ := by
  -- the induction is on the end of the list, where the next declaration is written
  induction ds using List.reverseRecOn with
  | nil => rfl
  | append_singleton ds d ih =>
    rw [List.map_append, List.nodup_append] at h
    obtain ⟨hds, -, hapart⟩ := h
    have hnew : propertyKey (Edit.declare d).property
        ∉ (Bucket.mk (ds.filterMap fun d => (Edit.declare d).outcome? c)).keys := by
      intro hmem
      obtain ⟨e, he, hkey⟩ := List.mem_map.mp hmem
      obtain ⟨d', hd', hkey'⟩ := exists_key_of_mem_filterMap he
      exact hapart d'.key (List.mem_map_of_mem hd') d.key (by simp) (hkey'.symm.trans hkey)
    rw [List.map_append, List.foldl_append, ih hds, List.filterMap_append]
    show edit c _ (Edit.declare d) = _
    rw [edit_of_not_mem hnew]
    cases hout : (Edit.declare d).outcome? c <;> simp [hout]

end Bucket

namespace Inline

/-- A block declares what its items declare, of each property the last one, in the order of these
last ones. Its keys are apart, its values are texts that are trimmed and present, and in an empty
bucket they leave behind what each of them does, with keys apart. -/
theorem declarations_eq_lastOfEach (css : String) :
    declarations css = lastOfEach ((items css).filterMap Item.declaration?) ∧
      ((declarations css).map Declaration.key).Nodup ∧
      (∀ d ∈ declarations css, ∃ s, d.value = .text s ∧ trimmed s = s ∧ isAbsent s = false) ∧
      ∀ (c : Config) (r : Record) (tier : Tier) (n : Nat), r.bucket tier = .empty →
        let written := (r.call c ⟨tier, .declare (declarations css), n⟩).bucket tier
        written = ⟨(declarations css).filterMap fun d => (Edit.declare d).outcome? c⟩ ∧
          written.keys.Nodup := by
  have hlast : declarations css = lastOfEach ((items css).filterMap Item.declaration?) :=
    foldl_putLast _
  have hnodup : ((declarations css).map Declaration.key).Nodup := by
    rw [hlast, keys_lastOfEach]
    exact List.nodup_dedup _
  refine ⟨hlast, hnodup, ?_, ?_⟩
  · intro d hd
    rw [hlast] at hd
    obtain ⟨i, -, hi⟩ := List.mem_filterMap.mp ((lastOfEach_sublist _).subset hd)
    obtain ⟨-, s, hs, hwf⟩ := Item.of_declaration? hi
    exact ⟨s, hs, hwf.trimmed, hwf.present⟩
  · intro c r tier n hempty
    have hedits : editsAt tier [⟨tier, .declare (declarations css), n⟩]
        = (declarations css).map Edit.declare := by
      simp [editsAt, Operation.edits]
    simp only [Record.bucket_call, hempty, hedits]
    refine ⟨Bucket.foldl_edit_declare c hnodup, ?_⟩
    exact (Bucket.wellFormed_empty.foldl_edit c _).distinct

/-- A block with a repeated property, a rule and absent values, written to a tier without
declarations: the last of the repeated ones is read, behind what stands in front of it. -/
theorem declarations_eq_lastOfEach_repeated :
    let css := "marginTop: 1px; color: null; .x { color: red }; gap: 4px; " ++
      "margin-top: 2px !important;"
    let read : List Declaration :=
      [⟨"gap", .text "4px", false⟩, ⟨"margin-top", .text "2px", true⟩]
    declarations css = read ∧ lastOfEach ((items css).filterMap Item.declaration?) = read ∧
      Record.empty.bucket .tablet = .empty ∧
      (Record.empty.call .standard ⟨.tablet, .declare (declarations css), 0⟩).bucket .tablet
        = ⟨read⟩ ∧
      ((Record.empty.call .standard ⟨.tablet, .declare (declarations css), 0⟩).bucket
        .tablet).keys.Nodup := by
  intro css read
  obtain ⟨hlast, -, -, hwritten⟩ := declarations_eq_lastOfEach css
  obtain ⟨hbucket, hkeys⟩ := hwritten .standard .empty .tablet 0 rfl
  have hread : declarations css = read := by decide +kernel
  refine ⟨hread, hlast.symm.trans hread, rfl, hbucket.trans ?_, hkeys⟩
  rw [hread]
  decide +kernel

end Inline

end ResponsiveStyle.Style
